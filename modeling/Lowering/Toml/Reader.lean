import Lowering.Toml
import Lowering.Toml.DateTime
import Lowering.Toml.Decimal
import Lowering.Toml.Quoted

/-!
# Reading TOML

A text is read line by line: headers, keys with values, blank lines and comments. A value may span
lines if it is an array or a string in triple quotes.

Line ends of both kinds count as one newline, and control characters other than the tab and the
newline stand nowhere, so both are settled before reading starts.

Every part reader gives what it read and the rest of the text. Lists of things are read with a bound
on how many there can be: a text does not have more lines, items or entries than characters.
-/

namespace Lowering.Toml

/-! ## Characters -/

/-- The text with one kind of line end and without control characters. -/
def cleanChars : List Char → Option (List Char)
  | [] => some []
  | '\r' :: '\n' :: cs => (cleanChars cs).map ('\n' :: ·)
  | c :: cs =>
    if c ≠ '\t' ∧ c ≠ '\n' ∧ (c.toNat < 0x20 ∨ c.toNat = 0x7F) then none
    else (cleanChars cs).map (c :: ·)

/-- Skips blanks. -/
def skipBlanks (cs : List Char) : List Char := cs.dropWhile isBlank

/-- Skips a comment, if there is one. -/
def skipComment : List Char → List Char
  | '#' :: cs => cs.dropWhile (· ≠ '\n')
  | cs => cs

/-- Skips blanks, newlines and comments. -/
def skipLines (comment : Bool) : List Char → List Char
  | [] => []
  | c :: cs =>
    if c = '\n' then skipLines false cs
    else if comment || isBlank c then skipLines comment cs
    else if c = '#' then skipLines true cs
    else c :: cs

/-- Skips the rest of a line on which nothing more may stand. -/
def endLine (cs : List Char) : Option (List Char) :=
  match skipComment (skipBlanks cs) with
  | [] => some []
  | '\n' :: rest => some rest
  | _ => none

/-! ## Numbers and truth values -/

/-- A whole number, if it fits 64 bits. -/
def fitting (n : Int) : Option Toml :=
  if -9223372036854775808 ≤ n ∧ n ≤ 9223372036854775807 then some (.int n) else none

/-- A decimal. One that is too great is refused, unless it is negative. -/
def decimal? (negative : Bool) (cs : List Char) : Option Toml := do
  let d ← Decimal.read? cs
  if d.isTooGreat && !negative then none else some .float

/-- A number without its sign. -/
def unsigned? (negative : Bool) (cs : List Char) : Option Toml :=
  if isWholePart cs then
    fitting (if negative then -(digitsValue 10 cs : Int) else digitsValue 10 cs)
  else if cs = "inf".toList ∨ cs = "nan".toList then some .float
  else decimal? negative cs

/-- A truth value or a number. -/
def atom? (cs : List Char) : Option Toml :=
  match cs with
  | '+' :: ds => unsigned? false ds
  | '-' :: ds => unsigned? true ds
  | '0' :: 'x' :: ds =>
    if isDigitRun (fun c => (Json.hexValue c).isSome) ds then fitting (digitsValue 16 ds) else none
  | '0' :: 'o' :: ds =>
    if isDigitRun (fun c => '0' ≤ c && c ≤ '7') ds then fitting (digitsValue 8 ds) else none
  | '0' :: 'b' :: ds =>
    if isDigitRun (fun c => c == '0' || c == '1') ds then fitting (digitsValue 2 ds) else none
  | ds =>
    if ds = "true".toList then some (.bool true)
    else if ds = "false".toList then some (.bool false)
    else unsigned? false ds

/-! ## Keys -/

def isKeyChar (c : Char) : Bool := c.isAlphanum || c == '_' || c == '-'

/-- One part of a key. -/
def simpleKey (cs : List Char) : Option (String × List Char) :=
  match cs with
  | '"' :: rest => QuoteStyle.read ⟨'"', false⟩ rest
  | '\'' :: rest => QuoteStyle.read ⟨'\'', false⟩ rest
  | cs =>
    let name := cs.takeWhile isKeyChar
    if name.isEmpty then none else some (String.ofList name, cs.drop name.length)

/-- A key of at most `most` parts, with points between them. -/
def key (most : Nat) (cs : List Char) : Option (List String × List Char) :=
  match most with
  | 0 => none
  | most + 1 => do
    let (k, rest) ← simpleKey cs
    match skipBlanks rest with
    | '.' :: rest => do
      let (ks, rest) ← key most (skipBlanks rest)
      return (k :: ks, rest)
    | _ => return ([k], rest)

/-- How many parts a key may have, and how deep arrays and tables in a value may be nested. -/
def maxDepth : Nat := 79

/-- The parts of a key before the last one, and the last one. -/
def keyPath (cs : List Char) : Option ((List String × String) × List Char) := do
  let (ks, rest) ← key maxDepth cs
  let last ← ks.getLast?
  return ((ks.dropLast, last), rest)

/-! ## Values -/

/-- The characters of truth values and numbers. -/
def isAtomChar (c : Char) : Bool := c.isAlphanum || c == '_' || c == '+' || c == '-' || c == '.'

/-- A string value. -/
def stringValue (s : QuoteStyle) (cs : List Char) : Option (Toml × List Char) :=
  (s.read cs).map fun (text, rest) => (.str text, rest)

mutual

/-- A value. Arrays and tables in it are nested at most `depth` deep, and each has at most `most`
items or entries. -/
def value (most depth : Nat) (cs : List Char) : Option (Toml × List Char) :=
  match cs with
  | '"' :: '"' :: '"' :: rest => stringValue ⟨'"', true⟩ rest
  | '"' :: rest => stringValue ⟨'"', false⟩ rest
  | '\'' :: '\'' :: '\'' :: rest => stringValue ⟨'\'', true⟩ rest
  | '\'' :: rest => stringValue ⟨'\'', false⟩ rest
  | '[' :: rest =>
    match depth with
    | 0 => none
    | depth + 1 => items most depth most [] (skipLines false rest)
  | '\x7b' :: rest =>
    match depth with
    | 0 => none
    | depth + 1 =>
      match skipBlanks rest with
      | '\x7d' :: rest => some (.table .inline [], rest)
      | rest => pairs most depth most (.table .inline []) rest
  | cs =>
    match DateTime.skip cs with
    | some rest => some (.dateTime, rest)
    | none =>
      let atom := cs.takeWhile isAtomChar
      (atom? atom).map fun v => (v, cs.drop atom.length)
termination_by (depth, 0)

/-- The items of an array from some point on, at most `left` of them; `acc` holds those before, the
latest first. -/
def items (most depth left : Nat) (acc : List Toml) (cs : List Char) :
    Option (Toml × List Char) :=
  match cs, left with
  | ']' :: rest, _ => some (.arr acc.reverse, rest)
  | _, 0 => none
  | cs, left + 1 =>
    match value most depth cs with
    | none => none
    | some (v, rest) =>
      match skipLines false rest with
      | ']' :: rest => some (.arr (v :: acc).reverse, rest)
      | ',' :: rest => items most depth left (v :: acc) (skipLines false rest)
      | _ => none
termination_by (depth, left + 1)

/-- The entries of a table that is written as a value from some point on, at most `left` of them. -/
def pairs (most depth left : Nat) (t : Toml) (cs : List Char) : Option (Toml × List Char) :=
  match left with
  | 0 => none
  | left + 1 =>
    match keyPath cs with
    | none => none
    | some ((path, k), rest) =>
      match skipBlanks rest with
      | '=' :: rest =>
        match value most depth (skipBlanks rest) with
        | none => none
        | some (v, rest) =>
          match addDotted path k v t with
          | none => none
          | some t =>
            match skipBlanks rest with
            | '\x7d' :: rest => some (t, rest)
            | ',' :: rest => pairs most depth left t (skipBlanks rest)
            | _ => none
      | _ => none
termination_by (depth, left + 1)

end

/-! ## Lines -/

/-- A key with its value, on a line of its own below the header with path `path`. -/
def entryLine (most : Nat) (path : List String) (root : Toml) (cs : List Char) :
    Option (Toml × List Char) := do
  let ((way, k), rest) ← keyPath cs
  match skipBlanks rest with
  | '=' :: rest => do
    let (v, rest) ← value most maxDepth (skipBlanks rest)
    let rest ← endLine rest
    let root ← modifyAt .implied path (addDotted way k v) root
    return (root, rest)
  | _ => none

/-- A header, from behind its first bracket: the path of its table, and the text with the table. -/
def headerLine (root : Toml) (cs : List Char) : Option ((List String × Toml) × List Char) :=
  match cs with
  | '[' :: cs => do
    let ((way, k), rest) ← keyPath (skipBlanks cs)
    match skipBlanks rest with
    | ']' :: ']' :: rest => do
      let rest ← endLine rest
      let root ← openTables way k root
      return ((way ++ [k], root), rest)
    | _ => none
  | cs => do
    let ((way, k), rest) ← keyPath (skipBlanks cs)
    match skipBlanks rest with
    | ']' :: rest => do
      let rest ← endLine rest
      let root ← openTable way k root
      return ((way ++ [k], root), rest)
    | _ => none

/-- The lines of a text from some point on, at most `left` of them that are not blank; `path` is the
path of the last header. -/
def lines (most left : Nat) (path : List String) (root : Toml) (cs : List Char) : Option Toml :=
  match skipLines false cs, left with
  | [], _ => some root
  | _, 0 => none
  | '[' :: rest, left + 1 => do
    let ((path, root), rest) ← headerLine root rest
    lines most left path root rest
  | rest, left + 1 => do
    let (root, rest) ← entryLine most path root rest
    lines most left path root rest

/-- The table that a text writes. -/
def read (text : String) : Option Toml := do
  let cs ← cleanChars text.toList
  let cs :=
    match cs with
    | '\ufeff' :: cs => cs
    | cs => cs
  let most := cs.length
  lines most most [] (.table .header []) cs

end Lowering.Toml
