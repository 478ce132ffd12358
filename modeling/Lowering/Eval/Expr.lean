import Lowering.Eval.Machine
import Lowering.Word

/-!
# Evaluating expressions

Operands and arguments are evaluated from left to right, the receiver of a method call before its
arguments. A call is recorded, and then throws, or gives its next scripted result, or `null`.
Evaluating an expression starts no statement.
-/

namespace Lowering

namespace Machine

/-- The value of a local. -/
def getLocal (name : String) : Eval Value := fun m =>
  match m.locals.get? name with
  | some v => .done v m
  | none => .stopped (.unbound name) m

/-- Gives a declared local a new value, which is also the result. -/
def assign (name : String) (value : Value) : Eval Value := fun m =>
  match m.locals.get? name with
  | some _ => .done value (m.setLocal name value)
  | none => .stopped (.unbound name) m

/-- Takes the next scripted result of a callee. -/
def nextResult (m : Machine) (callee : String) : Value × Machine :=
  match m.scripts.get? callee with
  | some (v :: rest) => (v, { m with scripts := m.scripts.insert callee rest })
  | _ => (.null, m)

/-- Calls out. -/
def call (callee : String) (args : List Value) : Eval Value := fun m =>
  let m := m.record (.call callee args)
  if callee ∈ m.failingCalls then .thrown ⟨.str callee, true⟩ m
  else
    let (v, m) := m.nextResult callee
    .done v m

end Machine

/-- Applies an operator to values of both operands. -/
def BinaryOp.apply : BinaryOp → Value → Value → Eval Value
  | .eq, a, b => pure (.bool (a == b))
  | .add, .int a, .int b =>
    match Word.int64? (a.toInt + b.toInt) with
    | some n => pure (.int n)
    | none => .stop .addOverflow
  | .sub, .int a, .int b =>
    match Word.int64? (a.toInt - b.toInt) with
    | some n => pure (.int n)
    | none => .stop .subOverflow
  | .lt, .int a, .int b => pure (.bool (a < b))
  | op, a, b => .stop (.operands op a b)

/-- What a wrapper holds; the empty one holds `null`. -/
def Value.unwrap : Value → Eval Value
  | .present v => pure v
  | .absent => pure .null
  | v => .stop (.notOptional v)

mutual

/-- The value of an expression. -/
def Expr.eval : Expr → Eval Value
  | .null => pure .null
  | .bool b => pure (.bool b)
  | .int n => pure (.int n)
  | .str s => pure (.str s)
  | .this => pure (.object "this")
  | .var name => Machine.getLocal name
  | .assign target value => do
    let v ← value.eval
    Machine.assign target v
  | .call callee args => do
    let vs ← Expr.evalAll args
    Machine.call callee vs
  | .methodCall receiver method args => do
    let _ ← receiver.eval
    let vs ← Expr.evalAll args
    Machine.call method vs
  | .not value => do
    let v ← value.eval
    return .bool (!v.truthy)
  | .binary .and left right => do
    let a ← left.eval
    if a.truthy then
      let b ← right.eval
      return .bool b.truthy
    else return .bool false
  | .binary .or left right => do
    let a ← left.eval
    if a.truthy then return .bool true
    else
      let b ← right.eval
      return .bool b.truthy
  | .binary op left right => do
    let a ← left.eval
    let b ← right.eval
    op.apply a b
  | .cast ty value => do
    let v ← value.eval
    if v.hasType ty then return v else .raise (.str "InvalidCast")
  | .isType value ty => do
    let v ← value.eval
    return .bool (v.hasType ty)
  | .wrap _ value => do
    let v ← value.eval
    return v.wrap
  | .wrapNone _ => pure .absent
  | .unwrap _ value => do
    let v ← value.eval
    v.unwrap

/-- The values of expressions, from left to right. -/
def Expr.evalAll : List Expr → Eval (List Value)
  | [] => pure []
  | e :: es => do
    let v ← e.eval
    let vs ← Expr.evalAll es
    return v :: vs

end

/-- The value of an expression that may be left out. -/
def Expr.evalOption : Option Expr → Eval (Option Value)
  | none => pure none
  | some e => do
    let v ← e.eval
    return some v

/-- The value of an expression on its own; nothing catches what it throws. -/
def Machine.evaluate (m : Machine) (e : Expr) : Except EvalError Value × Machine :=
  match e.eval m with
  | .done v m => (.ok v, m)
  | .thrown t m => (.error (.uncaught t.value), m)
  | .stopped err m => (.error err, m)

end Lowering
