import Lowering.Json.Reader

/-!
# Decimals in TOML

A decimal has a whole part and at least one of a fraction and an exponent. Single underscores may
stand between digits:

```text
3.14
1_000e-3
6.022e23
```

Nothing is done with a decimal but to see whether it is one, and whether it is small enough to be a
floating-point number of 64 bits.
-/

namespace Lowering.Toml

/-! ## Digits -/

/-- Digits, with single underscores between them. -/
def isDigitRun (isDigit : Char → Bool) : List Char → Bool
  | [] => false
  | [c] => isDigit c
  | c :: '_' :: rest => isDigit c && isDigitRun isDigit rest
  | c :: rest => isDigit c && isDigitRun isDigit rest

/-- The value of digits in a base. -/
def digitsValue (base : Nat) (cs : List Char) : Nat :=
  cs.foldl (fun n c => match Json.hexValue c with
    | some d => n * base + d
    | none => n) 0

/-- Whether digits are the whole part of a decimal: a leading zero stands alone. -/
def isWholePart (cs : List Char) : Bool :=
  isDigitRun Char.isDigit cs && (cs.length == 1 || cs.head? != some '0')

/-! ## Decimals -/

/-- A decimal without its sign: its digits as a whole number, times a power of ten. -/
structure Decimal where
  /-- from the first that is not zero -/
  digits : List Char
  exponent : Int
deriving DecidableEq, Repr

namespace Decimal

/-- The value of an exponent's digits. It is great enough once it has passed 65535, and further digits
do not count. -/
def exponentValue (cs : List Char) : Nat :=
  (cs.filter Char.isDigit).foldl
    (fun n c => if n < 65536 then n * 10 + (c.toNat - '0'.toNat) else n) 0

/-- An exponent, from behind its mark. -/
def exponent? (cs : List Char) : Option Int :=
  match cs with
  | '+' :: ds => if isDigitRun Char.isDigit ds then some (exponentValue ds) else none
  | '-' :: ds => if isDigitRun Char.isDigit ds then some (-(exponentValue ds : Int)) else none
  | ds => if isDigitRun Char.isDigit ds then some (exponentValue ds) else none

def isExponentMark (c : Char) : Bool := c == 'e' || c == 'E'

/-- The decimal that a text writes. -/
def read? (cs : List Char) : Option Decimal := do
  let mantissa := cs.takeWhile fun c => !isExponentMark c
  let whole := mantissa.takeWhile (· ≠ '.')
  let fraction := mantissa.drop (whole.length + 1)
  let pointed := whole.length < mantissa.length
  let marked := mantissa.length < cs.length
  if !isWholePart whole || (pointed && !isDigitRun Char.isDigit fraction) || !(pointed || marked) then
    none
  let exponent ← if marked then exponent? (cs.drop (mantissa.length + 1)) else some 0
  return ⟨(whole ++ fraction).filter Char.isDigit |>.dropWhile (· = '0'),
    exponent - (fraction.filter Char.isDigit).length⟩

/-- The least number that is nearer to `2 ^ 1024` than to the greatest floating-point number of 64
bits, or as near. -/
def bound : Nat := Nat.pow 2 1024 - Nat.pow 2 970

/-- Whether a decimal is too great for a floating-point number of 64 bits. The bound has 309 digits,
so only decimals with as many before the point have to be looked at closely. -/
def isTooGreat (d : Decimal) : Bool :=
  let size : Int := (d.digits.length : Int) + d.exponent
  if d.digits.isEmpty || size < 309 then false
  else if 309 < size then true
  else
    bound * Nat.pow 10 (-d.exponent).toNat ≤
      digitsValue 10 d.digits * Nat.pow 10 d.exponent.toNat

end Decimal

end Lowering.Toml
