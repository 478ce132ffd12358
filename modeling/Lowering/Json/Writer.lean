import Lowering.Json
import Lowering.Text.Quoted

/-!
# Writing JSON

Two layouts: on one line without blanks, and indented by two blanks a level with one field or item
a line. In a string the quote, the backslash and the characters below U+0020 are escaped, by a
letter where there is one; all other characters stand for themselves.

Both writers put their text in front of a rest, so that writing takes time in the length of the
text alone.
-/

namespace Lowering.Json

/-- One character of a string. -/
def escapeChar (c : Char) (rest : List Char) : List Char :=
  if c = '"' then '\\' :: '"' :: rest
  else if c = '\\' then '\\' :: '\\' :: rest
  else if c = '\x08' then '\\' :: 'b' :: rest
  else if c = '\x0c' then '\\' :: 'f' :: rest
  else if c = '\n' then '\\' :: 'n' :: rest
  else if c = '\r' then '\\' :: 'r' :: rest
  else if c = '\t' then '\\' :: 't' :: rest
  else if c.toNat < 0x20 then
    '\\' :: 'u' :: '0' :: '0' :: Text.hexDigit (c.toNat / 16) :: Text.hexDigit (c.toNat % 16) :: rest
  else c :: rest

/-- A string with its quotes. -/
def writeString (s : String) (rest : List Char) : List Char :=
  '"' :: s.toList.foldr escapeChar ('"' :: rest)

/-- A whole number in decimal. -/
def writeInt (n : Int) (rest : List Char) : List Char := (toString n).toList ++ rest

/-- The values without parts. -/
def writeAtom : Json → List Char → List Char
  | .bool true, rest => 't' :: 'r' :: 'u' :: 'e' :: rest
  | .bool false, rest => 'f' :: 'a' :: 'l' :: 's' :: 'e' :: rest
  | .int n, rest => writeInt n rest
  | .str s, rest => writeString s rest
  | _, rest => 'n' :: 'u' :: 'l' :: 'l' :: rest

/-! ## On one line -/

mutual

/-- The value on one line, in front of a rest. -/
def write : Json → List Char → List Char
  | .arr items, rest => '[' :: writeItems items (']' :: rest)
  | .obj fields, rest => '\x7b' :: writeFields fields ('\x7d' :: rest)
  | atom, rest => writeAtom atom rest

def writeItems : List Json → List Char → List Char
  | [], rest => rest
  | [j], rest => j.write rest
  | j :: js, rest => j.write (',' :: writeItems js rest)

def writeFields : List (String × Json) → List Char → List Char
  | [], rest => rest
  | [(k, j)], rest => writeString k (':' :: j.write rest)
  | (k, j) :: fs, rest => writeString k (':' :: j.write (',' :: writeFields fs rest))

end

/-- The value on one line. -/
def compact (j : Json) : String := String.ofList (j.write [])

/-! ## Indented -/

/-- A new line at a level. -/
def newLine (level : Nat) (rest : List Char) : List Char :=
  '\n' :: (List.replicate (2 * level) ' ' ++ rest)

mutual

/-- The value with its parts on lines of their own, in front of a rest. -/
def writeAt (level : Nat) : Json → List Char → List Char
  | .arr [], rest => '[' :: ']' :: rest
  | .arr items, rest => '[' :: writeItemsAt (level + 1) items (newLine level (']' :: rest))
  | .obj [], rest => '\x7b' :: '\x7d' :: rest
  | .obj fields, rest =>
    '\x7b' :: writeFieldsAt (level + 1) fields (newLine level ('\x7d' :: rest))
  | atom, rest => writeAtom atom rest

def writeItemsAt (level : Nat) : List Json → List Char → List Char
  | [], rest => rest
  | [j], rest => newLine level (j.writeAt level rest)
  | j :: js, rest => newLine level (j.writeAt level (',' :: writeItemsAt level js rest))

def writeFieldsAt (level : Nat) : List (String × Json) → List Char → List Char
  | [], rest => rest
  | [(k, j)], rest => newLine level (writeString k (':' :: ' ' :: j.writeAt level rest))
  | (k, j) :: fs, rest =>
    newLine level
      (writeString k (':' :: ' ' :: j.writeAt level (',' :: writeFieldsAt level fs rest)))

end

/-- The value indented by two blanks a level. -/
def pretty (j : Json) : String := String.ofList (j.writeAt 0 [])

end Lowering.Json
