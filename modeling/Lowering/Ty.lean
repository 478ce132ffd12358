import Lowering.Dict

/-!
# Source types

The types of the program before lowering, with the formals of generic classes and methods, the
substitution of formals, and *pass-types*: a type whose outer nullability is kept beside it.

Nullability never nests: `Ty.orNull` leaves a nullable type as it is, and substitution rebuilds
nullable types with it.
-/

namespace Lowering

/-! ## Types -/

/-- Who declares a formal. -/
inductive FormalOwner where
  /-- a class or interface -/
  | type (name : String)
  /-- a generic method -/
  | method (name : String)
deriving DecidableEq, Repr

def FormalOwner.name : FormalOwner → String
  | .type n => n
  | .method n => n

/-- A type parameter with the class or method that declares it. -/
structure Formal where
  name : String
  owner : FormalOwner
deriving DecidableEq, Repr

/-- `Owner.Name`, the key of a formal in substitutions and in the configuration. -/
def Formal.qualified (f : Formal) : String := f.owner.name ++ "." ++ f.name

/-- A source type. -/
inductive Ty where
  | void
  | bool
  | int
  | float
  | string
  /-- the top type -/
  | any
  /-- a class or interface -/
  | named (name : String)
  | param (formal : Formal)
  /-- an instance of a generic class -/
  | generic (base : String) (args : List Ty)
  | array (elem : Ty)
  | nullable (inner : Ty)

instance : Inhabited Ty := ⟨.void⟩

namespace Ty

/-- The nullable form; a type that is nullable already stays as it is. -/
def orNull : Ty → Ty
  | .nullable t => .nullable t
  | t => .nullable t

/-- Types that the target stores without a box; their nullable form is a type of its own. -/
def isValueType : Ty → Bool
  | .bool | .int | .float => true
  | _ => false

/-- Whether `null` belongs to the type by its form. -/
def isNullable : Ty → Bool
  | .nullable _ | .any => true
  | _ => false

mutual

/-- The type as a reader sees it. -/
def render : Ty → String
  | .void => "Void"
  | .bool => "Bool"
  | .int => "Int"
  | .float => "Float"
  | .string => "String"
  | .any => "Any"
  | .named n => n
  | .param f => f.name
  | .generic base args => base ++ "<" ++ ", ".intercalate (renderAll args) ++ ">"
  | .array t => "Array<" ++ t.render ++ ">"
  | .nullable t => t.render ++ "?"

def renderAll : List Ty → List String
  | [] => []
  | t :: ts => t.render :: renderAll ts

end

/-! ## Substitution -/

/-- Types for formals, by qualified name. -/
abbrev Substitution := Dict Ty

mutual

/-- Replaces every formal that the substitution knows. -/
def substitute (σ : Substitution) : Ty → Ty
  | .param f => (σ.get? f.qualified).getD (.param f)
  | .array t => .array (t.substitute σ)
  | .nullable t => (t.substitute σ).orNull
  | .generic base args => .generic base (substituteAll σ args)
  | .void => .void
  | .bool => .bool
  | .int => .int
  | .float => .float
  | .string => .string
  | .any => .any
  | .named n => .named n

def substituteAll (σ : Substitution) : List Ty → List Ty
  | [] => []
  | t :: ts => t.substitute σ :: substituteAll σ ts

end

end Ty

/-! ## Pass-types -/

/-- A type with its outer nullability split off. -/
structure PassType where
  ty : Ty
  nullable : Bool

namespace PassType

instance : Inhabited PassType := ⟨⟨.void, false⟩⟩

/-- Splits off the outer nullability. -/
def ofTy : Ty → PassType
  | .nullable t => ⟨t, true⟩
  | t => ⟨t, false⟩

/-- The same type without `null`. -/
def nonNull (p : PassType) : PassType := ⟨p.ty, false⟩

/-- The formal that the pass-type is a direct use of. -/
def formal? (p : PassType) : Option Formal :=
  match p.ty with
  | .param f => some f
  | _ => none

/-- A nullable use of a formal. The target has no uniform native form for it. -/
def isOptionalFormal (p : PassType) : Bool := p.nullable && p.formal?.isSome

/-- The whole type again. -/
def toTy (p : PassType) : Ty := if p.nullable then p.ty.orNull else p.ty

/-- Replaces formals; the result is nullable if either side was. -/
def substitute (σ : Ty.Substitution) (p : PassType) : PassType :=
  let q := ofTy (p.ty.substitute σ)
  ⟨q.ty, p.nullable || q.nullable⟩

def render (p : PassType) : String := if p.nullable then p.ty.render ++ "?" else p.ty.render

end PassType

/-! ## Signatures -/

/-- A method's types; the first parameter is the receiver. -/
structure Signature where
  params : List PassType
  ret : PassType

/-- The number of parameters without the receiver. -/
def Signature.arity (s : Signature) : Nat := s.params.length - 1

end Lowering
