import Lowering.Json.Reader

/-!
# Strings in TOML

A string stands in single or double quotes, in one of them or in three. Only in double quotes does a
backslash mean anything, and only in three quotes does a string go over more than one line. There a
backslash at the end of a line skips the newline and all blanks and newlines behind it.

A string is read character by character.
-/

namespace Lowering.Toml

def isBlank (c : Char) : Bool := c == ' ' || c == '\t'

/-- Where in a string its reader is. -/
inductive StringState where
  | plain
  /-- behind a backslash -/
  | escaped
  /-- in the number of a character, with `missing` of its digits to come -/
  | code (missing value : Nat)
  /-- behind a backslash at the end of a line, on that line or on one of the next -/
  | folded (next : Bool)
deriving DecidableEq, Repr

/-- What a character does to a string. Its characters so far are given with the latest first. -/
inductive StringStep where
  | go (state : StringState) (acc : List Char)
  /-- the string ends with `used` characters, this one being the first -/
  | done (acc : List Char) (used : Nat)
  | wrong
deriving DecidableEq, Repr

/-- The character that a letter behind a backslash stands for. -/
def unescape (c : Char) : Option Char :=
  match c with
  | '"' => some '"'
  | '\\' => some '\\'
  | 'b' => some '\x08'
  | 'f' => some '\x0c'
  | 'n' => some '\n'
  | 'r' => some '\r'
  | 't' => some '\t'
  | _ => none

/-- Whether there is a character with this number. -/
def isScalar (n : Nat) : Bool := n < 0xD800 || (0xE000 ≤ n && n < 0x110000)

/-- How strings between certain quotes are read. -/
structure QuoteStyle where
  mark : Char
  /-- three quotes instead of one -/
  long : Bool
deriving DecidableEq, Repr

namespace QuoteStyle

/-- A character outside of escapes, with those behind it. Up to two quotes may stand right before the
three that end a long string. -/
def plainStep (s : QuoteStyle) (acc : List Char) (c : Char) (rest : List Char) : StringStep :=
  if c = s.mark then
    if s.long then
      let quotes := 1 + ((rest.take 4).takeWhile (· = s.mark)).length
      if quotes < 3 then .go .plain (c :: acc)
      else .done (List.replicate (quotes - 3) s.mark ++ acc) quotes
    else .done acc 1
  else if c = '\\' ∧ s.mark = '"' then .go .escaped acc
  else if c = '\n' ∧ !s.long then .wrong
  else .go .plain (c :: acc)

/-- A character behind a backslash. -/
def escapedStep (s : QuoteStyle) (acc : List Char) (c : Char) : StringStep :=
  if c = 'u' then .go (.code 4 0) acc
  else if c = 'U' then .go (.code 8 0) acc
  else if s.long && (isBlank c || c = '\n') then .go (.folded (c = '\n')) acc
  else
    match unescape c with
    | some c => .go .plain (c :: acc)
    | none => .wrong

/-- A digit of a character's number, the last one if no more are missing. -/
def codeStep (missing value : Nat) (acc : List Char) (c : Char) : StringStep :=
  match Json.hexValue c with
  | none => .wrong
  | some d =>
    let value := value * 16 + d
    if 1 < missing then .go (.code (missing - 1) value) acc
    else if isScalar value then .go .plain (Char.ofNat value :: acc)
    else .wrong

/-- The next character, with those behind it. -/
def step (s : QuoteStyle) (acc : List Char) (c : Char) (rest : List Char) :
    StringState → StringStep
  | .plain => s.plainStep acc c rest
  | .escaped => s.escapedStep acc c
  | .code missing value => codeStep missing value acc c
  | .folded next =>
    if isBlank c || c = '\n' then .go (.folded (next || c = '\n')) acc
    else if next then s.plainStep acc c rest
    else .wrong

/-- A string from some point on, and the rest of the text. -/
def readFrom (s : QuoteStyle) (state : StringState) (acc : List Char) :
    List Char → Option (String × List Char)
  | [] => none
  | c :: rest =>
    match s.step acc c rest state with
    | .go state acc => readFrom s state acc rest
    | .done acc used => some (String.ofList acc.reverse, rest.drop (used - 1))
    | .wrong => none

/-- A string, from behind the quotes that open it. A newline right there does not belong to it. -/
def read (s : QuoteStyle) (cs : List Char) : Option (String × List Char) :=
  match s.long, cs with
  | true, '\n' :: cs => s.readFrom .plain [] cs
  | _, cs => s.readFrom .plain [] cs

end QuoteStyle

end Lowering.Toml
