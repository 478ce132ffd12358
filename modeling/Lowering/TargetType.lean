import Lowering.Ty

/-!
# Target types

The types of the lowered program, and the form that each source type takes there. A nullable value
type has a native nullable form, a nullable reference type is the type itself, and a nullable use
of a formal is `Optional<T>`, because `T?` means different things for values and references.
-/

namespace Lowering

/-- A type as the target writes it. -/
inductive TargetType where
  | void
  | bool
  | int
  | float
  | string
  /-- the top type -/
  | object
  /-- a class or interface -/
  | named (name : String)
  | param (name : String)
  | generic (base : String) (args : List TargetType)
  | array (elem : TargetType)
  /-- the native nullable form of a value type -/
  | nullable (inner : TargetType)
  /-- the generic wrapper, one form for values and references -/
  | optional (inner : TargetType)

instance : Inhabited TargetType := ⟨.void⟩

namespace TargetType

/-- Whether every value but `null` belongs to the type. -/
def isTop : TargetType → Bool
  | .object => true
  | _ => false

def isWrapper : TargetType → Bool
  | .optional _ => true
  | _ => false

def isVoid : TargetType → Bool
  | .void => true
  | _ => false

/-- What a wrapper type wraps; any other type stands for itself. -/
def payload : TargetType → TargetType
  | .optional t => t
  | t => t

mutual

/-- The type as the target writes it. -/
def render : TargetType → String
  | .void => "void"
  | .bool => "bool"
  | .int => "int"
  | .float => "double"
  | .string => "string"
  | .object => "object"
  | .named n => n
  | .param n => n
  | .generic base args => base ++ "<" ++ ", ".intercalate (renderAll args) ++ ">"
  | .array t => t.render ++ "[]"
  | .nullable t => t.render ++ "?"
  | .optional t => "Optional<" ++ t.render ++ ">"

def renderAll : List TargetType → List String
  | [] => []
  | t :: ts => t.render :: renderAll ts

end

/-! ## Equality -/

mutual

/-- Equality of types, as a test. -/
def beq : TargetType → TargetType → Bool
  | .void, .void => true
  | .bool, .bool => true
  | .int, .int => true
  | .float, .float => true
  | .string, .string => true
  | .object, .object => true
  | .named a, .named b => a == b
  | .param a, .param b => a == b
  | .generic a as, .generic b bs => a == b && beqAll as bs
  | .array a, .array b => a.beq b
  | .nullable a, .nullable b => a.beq b
  | .optional a, .optional b => a.beq b
  | _, _ => false

def beqAll : List TargetType → List TargetType → Bool
  | [], [] => true
  | a :: as, b :: bs => a.beq b && beqAll as bs
  | _, _ => false

end

mutual

/-- The comparison decides equality of types, arguments included. -/
theorem beq_iff_eq : ∀ a b : TargetType, a.beq b = true ↔ a = b
  | .void, b | .bool, b | .int, b | .float, b | .string, b | .object, b | .named _, b
  | .param _, b => by cases b <;> simp [beq]
  | .generic _ as, b => by
    cases b <;> simp [beq]
    simp [beqAll_iff_eq as]
  | .array t, b | .nullable t, b | .optional t, b => by
    cases b <;> simp [beq]
    simp [beq_iff_eq t]

theorem beqAll_iff_eq : ∀ as bs : List TargetType, beqAll as bs = true ↔ as = bs
  | [], bs => by cases bs <;> simp [beqAll]
  | a :: as, bs => by
    cases bs <;> simp [beqAll]
    simp [beq_iff_eq a, beqAll_iff_eq as]

end

instance : DecidableEq TargetType := fun a b => decidable_of_iff _ (beq_iff_eq a b)

end TargetType

/-! ## The form of a source type -/

/-- The nullable form `base` takes in the target when it comes from this type. -/
def Ty.toTargetNullable (t : Ty) (base : TargetType) : TargetType :=
  match t with
  | .param _ => .optional base
  | .bool | .int | .float => .nullable base
  | _ => base

mutual

/-- The target's form of a type. -/
def Ty.toTarget : Ty → TargetType
  | .void => .void
  | .bool => .bool
  | .int => .int
  | .float => .float
  | .string => .string
  | .any => .object
  | .named n => .named n
  | .param f => .param f.name
  | .generic base args => .generic base (Ty.toTargetAll args)
  | .array t => .array t.toTarget
  | .nullable t => t.toTargetNullable t.toTarget

def Ty.toTargetAll : List Ty → List TargetType
  | [] => []
  | t :: ts => t.toTarget :: Ty.toTargetAll ts

end

/-- The target's form of a pass-type. -/
def PassType.toTarget (p : PassType) : TargetType :=
  if p.nullable then p.ty.toTargetNullable p.ty.toTarget else p.ty.toTarget

end Lowering
