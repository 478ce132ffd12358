import Lowering.Bridge
import Lowering.Dict

/-!
# Calls of bridged methods

Once a method is bridged, the calls of it that were written against its native types must wrap their
arguments and unwrap its result. A call belongs to a bridged method if it has the method's name, as
many arguments as the method has parameters, and its form: `f(…)` for a static method, `this.f(…)`
for any other.

Arguments are converted before the call around them, and every converted call is counted.
-/

namespace Lowering

/-! ## Counting -/

/-- A result with a count. -/
structure Counted (α : Type) where
  value : α
  count : Nat

namespace Counted

variable {α β : Type}

protected def pure (a : α) : Counted α := ⟨a, 0⟩

protected def bind (x : Counted α) (f : α → Counted β) : Counted β :=
  ⟨(f x.value).value, x.count + (f x.value).count⟩

instance : Monad Counted where
  pure := Counted.pure
  bind := Counted.bind

@[simp] theorem value_pure (a : α) : (pure a : Counted α).value = a := rfl

@[simp] theorem count_pure (a : α) : (pure a : Counted α).count = 0 := rfl

/-- The second step sees the value of the first and not its count. -/
@[simp] theorem value_bind (x : Counted α) (f : α → Counted β) :
    (x >>= f).value = (f x.value).value := rfl

/-- Counts add up. -/
@[simp] theorem count_bind (x : Counted α) (f : α → Counted β) :
    (x >>= f).count = x.count + (f x.value).count := rfl

end Counted

/-! ## Bridged methods as callers see them -/

/-- What a call of a bridged method needs. -/
structure BridgedCallee where
  isStatic : Bool
  /-- one for each parameter -/
  args : List Adaptation
  /-- the native type of the result, if the bridge gives a wrapper -/
  result : Option TargetType

/-- The adaptation of the argument for a parameter of the bridge. -/
def Adjustment.callArg (a : Adjustment) (i : Nat) (p : Param) : Adaptation :=
  let source :=
    match a.unadjusted.params[i + 1]? with
    | some pass => Representation.of pass
    | none => .native
  ⟨source, if (a.param? (i + 1)).isSome then .wrapper else source, p.ty⟩

/-- What calls of the bridge need. -/
def BridgePair.callee (pair : BridgePair) (a : Adjustment) : BridgedCallee where
  isStatic := pair.bridge.isStatic
  args := pair.bridge.params.mapIdx a.callArg
  result := a.ret.map fun _ => pair.primary.ret

/-- The bridged methods, by name. -/
abbrev Callees := Dict BridgedCallee

/-- The bridged method that an expression calls. -/
def Callees.calledBy? (cs : Callees) : Expr → Option BridgedCallee
  | .call callee args =>
    (cs.get? callee).filter fun c => c.isStatic && c.args.length == args.length
  | .methodCall .this method args =>
    (cs.get? method).filter fun c => !c.isStatic && c.args.length == args.length
  | _ => none

/-- A call in the form that the bridge needs. -/
def BridgedCallee.convert (c : BridgedCallee) (call : Expr) : Expr :=
  let call :=
    match call with
    | .call callee args => .call callee (Adaptation.applyAll c.args args)
    | .methodCall receiver method args =>
      .methodCall receiver method (Adaptation.applyAll c.args args)
    | e => e
  match c.result with
  | some native => .unwrap native call
  | none => call

/-- Converts an expression if it calls a bridged method. -/
def Callees.convert (cs : Callees) (e : Expr) : Counted Expr :=
  match cs.calledBy? e with
  | some c => ⟨c.convert e, 1⟩
  | none => pure e

/-! ## Bodies -/

mutual

/-- Converts every call of a bridged method in an expression. -/
def Expr.adaptCalls (cs : Callees) : Expr → Counted Expr
  | .null => pure .null
  | .bool b => pure (.bool b)
  | .int n => pure (.int n)
  | .str s => pure (.str s)
  | .var name => pure (.var name)
  | .this => pure .this
  | .wrapNone ty => pure (.wrapNone ty)
  | .assign target value => do
    let value ← value.adaptCalls cs
    return .assign target value
  | .not value => do
    let value ← value.adaptCalls cs
    return .not value
  | .cast ty value => do
    let value ← value.adaptCalls cs
    return .cast ty value
  | .isType value ty => do
    let value ← value.adaptCalls cs
    return .isType value ty
  | .wrap ty value => do
    let value ← value.adaptCalls cs
    return .wrap ty value
  | .unwrap ty value => do
    let value ← value.adaptCalls cs
    return .unwrap ty value
  | .binary op left right => do
    let left ← left.adaptCalls cs
    let right ← right.adaptCalls cs
    return .binary op left right
  | .call callee args => do
    let args ← Expr.adaptCallsAll cs args
    cs.convert (.call callee args)
  | .methodCall receiver method args => do
    let receiver ← receiver.adaptCalls cs
    let args ← Expr.adaptCallsAll cs args
    cs.convert (.methodCall receiver method args)

def Expr.adaptCallsAll (cs : Callees) : List Expr → Counted (List Expr)
  | [] => pure []
  | e :: es => do
    let e ← e.adaptCalls cs
    let es ← Expr.adaptCallsAll cs es
    return e :: es

end

def Expr.adaptCallsOption (cs : Callees) : Option Expr → Counted (Option Expr)
  | none => pure none
  | some e => do
    let e ← e.adaptCalls cs
    return some e

mutual

/-- Converts every call of a bridged method in a statement, nested methods included. -/
def Stmt.adaptCalls (cs : Callees) : Stmt → Counted Stmt
  | .block body span => do
    let body ← body.adaptCalls cs
    return .block body span
  | .ite test yes no span => do
    let test ← test.adaptCalls cs
    let yes ← yes.adaptCalls cs
    let no ← Stmt.adaptCallsOption cs no
    return .ite test yes no span
  | .loop test body span => do
    let test ← test.adaptCalls cs
    let body ← body.adaptCalls cs
    return .loop test body span
  | .attempt body handler cleanup span => do
    let body ← body.adaptCalls cs
    let handler ← Block.adaptCallsOption cs handler
    let cleanup ← Block.adaptCallsOption cs cleanup
    return .attempt body handler cleanup span
  | .labeled label body span => do
    let body ← body.adaptCalls cs
    return .labeled label body span
  | .goto label span => pure (.goto label span)
  | .exit span => pure (.exit span)
  | .next span => pure (.next span)
  | .eval value span => do
    let value ← value.adaptCalls cs
    return .eval value span
  | .declare name ty init span => do
    let init ← Expr.adaptCallsOption cs init
    return .declare name ty init span
  | .ret value span => do
    let value ← Expr.adaptCallsOption cs value
    return .ret value span
  | .suspend kind value span => do
    let value ← Expr.adaptCallsOption cs value
    return .suspend kind value span
  | .raise value span => do
    let value ← value.adaptCalls cs
    return .raise value span
  | .method decl span => do
    let decl ← decl.adaptCalls cs
    return .method decl span
  | .switch discriminant cases span => do
    let discriminant ← discriminant.adaptCalls cs
    let cases ← Case.adaptCallsAll cs cases
    return .switch discriminant cases span

def Stmt.adaptCallsOption (cs : Callees) : Option Stmt → Counted (Option Stmt)
  | none => pure none
  | some s => do
    let s ← s.adaptCalls cs
    return some s

def Stmt.adaptCallsAll (cs : Callees) : List Stmt → Counted (List Stmt)
  | [] => pure []
  | s :: ss => do
    let s ← s.adaptCalls cs
    let ss ← Stmt.adaptCallsAll cs ss
    return s :: ss

/-- Converts every call of a bridged method in a block, nested methods included. -/
def Block.adaptCalls (cs : Callees) : Block → Counted Block
  | ⟨stmts, span⟩ => do
    let stmts ← Stmt.adaptCallsAll cs stmts
    return ⟨stmts, span⟩

def Block.adaptCallsOption (cs : Callees) : Option Block → Counted (Option Block)
  | none => pure none
  | some b => do
    let b ← b.adaptCalls cs
    return some b

def Case.adaptCallsAll (cs : Callees) : List Case → Counted (List Case)
  | [] => pure []
  | ⟨test, body⟩ :: cases => do
    let test ← Expr.adaptCallsOption cs test
    let body ← body.adaptCalls cs
    let cases ← Case.adaptCallsAll cs cases
    return ⟨test, body⟩ :: cases

/-- Converts every call of a bridged method in the body of a method. -/
def Method.adaptCalls (cs : Callees) : Method → Counted Method
  | ⟨name, visibility, isStatic, params, ret, body, span⟩ => do
    let body ← body.adaptCalls cs
    return ⟨name, visibility, isStatic, params, ret, body, span⟩

end

end Lowering
