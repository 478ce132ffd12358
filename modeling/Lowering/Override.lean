import Lowering.TargetType

/-!
# Overrides with another representation

A member `f(x: T?)` of a generic class takes `Optional<T>` in the target. A method that overrides it
for `T = Int` and is written `f(x: Int)` takes `int`, so the two do not match. The analysis finds the
positions of a method that a member it overrides has as an optional formal of the member's own
class; the method must take or give a wrapper there.

Position 0 of a signature is the receiver, which never changes.
-/

namespace Lowering

/-- A member that a method overrides. -/
structure OverriddenMember where
  /-- the class that declares the member -/
  owner : String
  signature : Signature
  /-- what inherited formals stand for in that class -/
  bindings : Ty.Substitution

/-- A position that is a wrapper outside and the type `native` inside. -/
structure WrappedPosition where
  native : PassType

/-- The positions of a method that change. -/
structure Adjustment where
  /-- the signature as written -/
  unadjusted : Signature
  /-- for every position of it, the receiver's included -/
  params : List (Option WrappedPosition)
  ret : Option WrappedPosition

namespace Adjustment

/-- The change at a position. -/
def param? (a : Adjustment) (i : Nat) : Option WrappedPosition := a.params[i]?.join

/-- How many positions change, with the result. -/
def count (a : Adjustment) : Nat := a.params.countP Option.isSome + a.ret.toList.length

end Adjustment

/-- Whether a member has a position of this pass-type as an optional formal of its own class. -/
def OverriddenMember.wraps (excluded : List String) (m : OverriddenMember) (theirs : PassType) :
    Bool :=
  let resolved := theirs.substitute m.bindings
  resolved.isOptionalFormal &&
    match resolved.formal? with
    | some f => f.owner == .type m.owner && !excluded.contains f.qualified
    | none => false

/-- The change at one position: `own` is the method's pass-type there, and `theirs` finds a member's.
A position that is an optional formal already is a wrapper as written. -/
def PassType.adjust (excluded : List String) (members : List OverriddenMember)
    (theirs : OverriddenMember → Option PassType) (own : PassType) : Option WrappedPosition :=
  if own.isOptionalFormal then none
  else if members.any fun m => (theirs m).any (m.wraps excluded) then some ⟨own.nonNull⟩
  else none

/-- The changes at all positions of a method, unless there are none. -/
def Signature.adjust? (excluded : List String) (members : List OverriddenMember) (s : Signature) :
    Option Adjustment :=
  let params := s.params.mapIdx fun i own =>
    if i = 0 then none else own.adjust excluded members (·.signature.params[i]?)
  let ret := s.ret.adjust excluded members fun m => some m.signature.ret
  if ret.isNone && params.all Option.isNone then none else some ⟨s, params, ret⟩

end Lowering
