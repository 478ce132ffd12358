import Lowering.Text.Visible

/-!
# Quoted text

Text in double quotes, as messages show it. A quote and a backslash have a backslash before them,
the tab, the line ends and NUL have a letter, and any other character that cannot be shown by itself
is given by its code point in hexadecimal. All other characters stand for themselves.
-/

namespace Lowering.Text

/-- The digits `0`–`9` and `a`–`f`. -/
def hexDigit (n : Nat) : Char :=
  if n < 10 then Char.ofNat (0x30 + n) else Char.ofNat (0x61 + (n - 10))

/-- Hexadecimal digits in front of `acc`, the most significant first. -/
def hexDigits (n : Nat) (acc : List Char) : List Char :=
  if n < 16 then hexDigit n :: acc else hexDigits (n / 16) (hexDigit (n % 16) :: acc)

/-- One character of a quoted text. -/
def quoteChar (c : Char) : List Char :=
  if c = '"' then ['\\', '"']
  else if c = '\\' then ['\\', '\\']
  else if c = '\t' then ['\\', 't']
  else if c = '\n' then ['\\', 'n']
  else if c = '\r' then ['\\', 'r']
  else if c.toNat = 0 then ['\\', '0']
  else if isVisible c then [c]
  else ['\\', 'u', '\x7b'] ++ hexDigits c.toNat ['\x7d']

/-- The text in double quotes. -/
def quote (s : String) : String :=
  String.ofList ('"' :: s.toList.flatMap quoteChar ++ ['"'])

end Lowering.Text
