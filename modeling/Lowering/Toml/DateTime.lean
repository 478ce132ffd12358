/-!
# Dates and times in TOML

A date, a time, or both with a `T` or a blank between them and, if need be, an offset:

```text
1979-05-27
07:32:00.5
1979-05-27T07:32:00-07:00
```

Nothing is done with them but to see where they end, so a reader here gives only the rest of the
text, and nothing if there is no date or time that exists.
-/

namespace Lowering.Toml.DateTime

/-- A number of exactly `width` digits between two bounds. -/
def digits (width low high : Nat) (cs : List Char) : Option (Nat × List Char) :=
  let ds := cs.take width
  let n := ds.foldl (fun n c => n * 10 + (c.toNat - '0'.toNat)) 0
  if ds.length = width ∧ ds.all Char.isDigit ∧ low ≤ n ∧ n ≤ high then some (n, cs.drop width)
  else none

/-- The rest behind a character. -/
def past (c : Char) : List Char → Option (List Char)
  | d :: cs => if d = c then some cs else none
  | [] => none

def isLeapYear (year : Nat) : Bool := year % 4 == 0 && (year % 100 != 0 || year % 400 == 0)

def daysInMonth (year month : Nat) : Nat :=
  match month with
  | 2 => if isLeapYear year then 29 else 28
  | 4 | 6 | 9 | 11 => 30
  | _ => 31

/-- Behind a date. -/
def date (cs : List Char) : Option (List Char) := do
  let (year, cs) ← digits 4 0 9999 cs
  let (month, cs) ← digits 2 1 12 (← past '-' cs)
  let (_, cs) ← digits 2 1 (daysInMonth year month) (← past '-' cs)
  return cs

/-- Behind the fraction of a second, if there is one. -/
def fraction : List Char → List Char
  | '.' :: c :: cs => if c.isDigit then cs.dropWhile Char.isDigit else '.' :: c :: cs
  | cs => cs

/-- Behind a time. A minute may have a leap second. -/
def time (cs : List Char) : Option (List Char) := do
  let (_, cs) ← digits 2 0 23 cs
  let (_, cs) ← digits 2 0 59 (← past ':' cs)
  let (_, cs) ← digits 2 0 60 (← past ':' cs)
  return fraction cs

/-- Behind an offset with a sign, from behind the sign. -/
def numericOffset (cs : List Char) : Option (List Char) := do
  let (_, cs) ← digits 2 0 23 cs
  let (_, cs) ← digits 2 0 59 (← past ':' cs)
  return cs

/-- Behind an offset, if there is one. -/
def offset (cs : List Char) : List Char :=
  match cs with
  | c :: rest =>
    if c = 'Z' ∨ c = 'z' then rest
    else if c = '+' ∨ c = '-' then (numericOffset rest).getD cs
    else cs
  | [] => []

/-- Behind the time that belongs to a date, if there is one. -/
def timeOfDate (cs : List Char) : List Char :=
  match cs with
  | c :: rest =>
    if c = 'T' ∨ c = 't' ∨ c = ' ' then ((time rest).map offset).getD cs else cs
  | [] => []

/-- Behind a date, a time or both. -/
def skip (cs : List Char) : Option (List Char) :=
  match date cs with
  | some rest => some (timeOfDate rest)
  | none => time cs

end Lowering.Toml.DateTime
