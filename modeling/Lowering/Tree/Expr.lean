import Lowering.TargetType

/-!
# Expressions of a lowered body

Expressions call, assign, compute, and move values in and out of the `Optional<T>` wrapper.
-/

namespace Lowering

/-- Operators with two operands. -/
inductive BinaryOp where
  | add
  | sub
  | lt
  | eq
  /-- evaluates its right operand only if the left one holds -/
  | and
  /-- evaluates its right operand only if the left one fails -/
  | or
deriving DecidableEq, Repr

/-- An expression. -/
inductive Expr where
  | null
  | bool (b : Bool)
  | int (n : Int64)
  | str (s : String)
  /-- the value of a local -/
  | var (name : String)
  | assign (target : String) (value : Expr)
  | this
  | call (callee : String) (args : List Expr)
  | methodCall (receiver : Expr) (method : String) (args : List Expr)
  | not (value : Expr)
  | binary (op : BinaryOp) (left right : Expr)
  /-- the value, if it has the type -/
  | cast (ty : TargetType) (value : Expr)
  /-- whether the value has the type -/
  | isType (value : Expr) (ty : TargetType)
  /-- `Optional<ty>` around a value; `null` becomes the empty wrapper -/
  | wrap (ty : TargetType) (value : Expr)
  /-- the empty `Optional<ty>` -/
  | wrapNone (ty : TargetType)
  /-- what a wrapper holds, or `null` -/
  | unwrap (ty : TargetType) (value : Expr)

instance : Inhabited Expr := ⟨.null⟩

namespace Expr

/-- Literals and bare locals, which throw nothing when evaluated. -/
def isTrivial : Expr → Bool
  | .null | .bool _ | .int _ | .str _ | .var _ => true
  | _ => false

def isThis : Expr → Bool
  | .this => true
  | _ => false

/-! ## Equality -/

mutual

/-- Equality of expressions, as a test. -/
def beq : Expr → Expr → Bool
  | .null, .null => true
  | .bool a, .bool b => a == b
  | .int a, .int b => a == b
  | .str a, .str b => a == b
  | .var a, .var b => a == b
  | .assign a x, .assign b y => a == b && x.beq y
  | .this, .this => true
  | .call a xs, .call b ys => a == b && beqAll xs ys
  | .methodCall x a xs, .methodCall y b ys => x.beq y && a == b && beqAll xs ys
  | .not x, .not y => x.beq y
  | .binary o x x', .binary p y y' => o == p && x.beq y && x'.beq y'
  | .cast t x, .cast u y => t == u && x.beq y
  | .isType x t, .isType y u => x.beq y && t == u
  | .wrap t x, .wrap u y => t == u && x.beq y
  | .wrapNone t, .wrapNone u => t == u
  | .unwrap t x, .unwrap u y => t == u && x.beq y
  | _, _ => false

def beqAll : List Expr → List Expr → Bool
  | [], [] => true
  | x :: xs, y :: ys => x.beq y && beqAll xs ys
  | _, _ => false

end

mutual

/-- The comparison decides equality of expressions, at any depth. -/
theorem beq_iff_eq : ∀ a b : Expr, a.beq b = true ↔ a = b
  | .null, b | .bool _, b | .int _, b | .str _, b | .var _, b | .this, b | .wrapNone _, b => by
    cases b <;> simp [beq]
  | .assign _ x, b | .not x, b | .cast _ x, b | .isType x _, b | .wrap _ x, b
  | .unwrap _ x, b => by
    cases b <;> simp [beq]
    simp [beq_iff_eq x]
  | .call _ xs, b => by
    cases b <;> simp [beq]
    simp [beqAll_iff_eq xs]
  | .methodCall x _ xs, b => by
    cases b <;> simp [beq]
    simp [beq_iff_eq x, beqAll_iff_eq xs, and_assoc]
  | .binary _ x y, b => by
    cases b <;> simp [beq]
    simp [beq_iff_eq x, beq_iff_eq y, and_assoc]

theorem beqAll_iff_eq : ∀ as bs : List Expr, beqAll as bs = true ↔ as = bs
  | [], bs => by cases bs <;> simp [beqAll]
  | a :: as, bs => by
    cases bs <;> simp [beqAll]
    simp [beq_iff_eq a, beqAll_iff_eq as]

end

instance : DecidableEq Expr := fun a b => decidable_of_iff _ (beq_iff_eq a b)

end Expr

end Lowering
