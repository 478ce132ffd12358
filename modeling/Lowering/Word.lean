/-!
# Integers that fit a word

The integers of a program are 64 bits wide with a sign, the numbers of files and bytes 32 bits
without one. Computing goes through the integers, and a result that does not fit is none.
-/

namespace Lowering.Word

/-- The signed 64-bit word of an integer, if there is one. -/
def int64? (n : Int) : Option Int64 :=
  if -9223372036854775808 ≤ n ∧ n ≤ 9223372036854775807 then some (Int64.ofInt n) else none

/-- The unsigned 32-bit word of an integer, if there is one. -/
def uint32? (n : Int) : Option UInt32 :=
  if 0 ≤ n ∧ n ≤ 4294967295 then some (UInt32.ofNat n.toNat) else none

end Lowering.Word
