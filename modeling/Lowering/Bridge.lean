import Lowering.LowerError
import Lowering.Names
import Lowering.Override
import Lowering.Tree.Stmt

/-!
# Bridges

An override whose signature must change is split in two:

```text
public int f(int x) { body }
  =>
public Optional<int> f(Optional<int> x) { return Optional<int>.Some(this.f_(x.Value)); }
private int f_(int x) { body }
```

The *bridge* keeps the name and the visibility, the *primary* keeps the body and its types. A caller
that has native values adapts them to the bridge's representation.
-/

namespace Lowering

/-! ## Representations -/

/-- How a nullable value is held. -/
inductive Representation where
  /-- in the target's own form -/
  | native
  /-- in an `Optional<T>` -/
  | wrapper
deriving DecidableEq, Repr

/-- The representation of a pass-type. -/
def Representation.of (p : PassType) : Representation :=
  if p.isOptionalFormal then .wrapper else .native

/-- A change of representation on the way to a place of type `ty`. -/
structure Adaptation where
  source : Representation
  dest : Representation
  ty : TargetType

/-- The expression in the representation of its destination. A place of the top type takes a wrapper
as it is. -/
def Adaptation.apply (a : Adaptation) (value : Expr) : Expr :=
  match a.source, a.dest with
  | .native, .native | .wrapper, .wrapper => value
  | .native, .wrapper =>
    match value with
    | .null => .wrapNone a.ty.payload
    | value => .wrap a.ty.payload value
  | .wrapper, .native => if a.ty.isTop then value else .unwrap a.ty value

/-- Adapts arguments; those without an adaptation stay as they are. -/
def Adaptation.applyAll : List Adaptation → List Expr → List Expr
  | a :: as, e :: es => a.apply e :: applyAll as es
  | _, es => es

/-! ## The two methods -/

/-- What takes the place of an override. -/
structure BridgePair where
  bridge : Method
  primary : Method

/-- The wrapper type that a position shows outside. -/
def WrappedPosition.outer (w : WrappedPosition) : TargetType := .optional w.native.toTarget

/-- A parameter of the bridge. -/
def Adjustment.bridgeParam (a : Adjustment) (i : Nat) (p : Param) : Param :=
  match a.param? (i + 1) with
  | some w => ⟨p.name, w.outer⟩
  | none => p

/-- What the bridge passes on for a parameter. -/
def Adjustment.bridgeArg (a : Adjustment) (i : Nat) (p : Param) : Expr :=
  match a.param? (i + 1) with
  | some _ => .unwrap p.ty (.var p.name)
  | none => .var p.name

/-- The bridge of a method to its primary. -/
def Method.bridgeTo (method : Method) (a : Adjustment) (primary : String) : Method :=
  let args := method.params.mapIdx a.bridgeArg
  let call : Expr :=
    if method.isStatic then .call primary args else .methodCall .this primary args
  let ret :=
    match a.ret with
    | some w => w.outer
    | none => method.ret
  let stmt : Stmt :=
    if a.ret.isSome then .ret (some (Adaptation.apply ⟨.native, .wrapper, ret⟩ call)) method.span
    else if ret.isVoid then .eval call method.span
    else .ret (some call) method.span
  { method with
    params := method.params.mapIdx a.bridgeParam
    ret
    body := ⟨[stmt], method.span⟩ }

/-- The bridge and the primary of a method. The signature must have as many parameters as it. -/
def Method.bridge {σ : Type} [NameSupply σ] (suffix : String) (method : Method) (a : Adjustment)
    (names : σ) : Except LowerError BridgePair × σ :=
  let expected := a.unadjusted.arity
  if method.params.length ≠ expected then
    (.error (.signatureMismatch method.name expected method.params.length method.span), names)
  else
    let (name, names) := NameSupply.allocate (method.name ++ suffix) method.span names
    (.ok ⟨method.bridgeTo a name, { method with name, visibility := .priv }⟩, names)

/-- The name that an expression calls. -/
def Expr.callee? : Expr → Option String
  | .call callee _ => some callee
  | .methodCall _ method _ => some method
  | _ => none

/-- The method that a bridge calls, seen from its first statement. -/
def Method.forwardedTo? (m : Method) : Option String :=
  match m.body.stmts.head? with
  | some (.eval call _) => call.callee?
  | some (.ret (some (.wrap _ call)) _) => call.callee?
  | some (.ret (some call) _) => call.callee?
  | _ => none

end Lowering
