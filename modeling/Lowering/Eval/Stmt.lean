import Lowering.Eval.Expr

/-!
# Running bodies

Every statement that is started costs one step. Running is given a *budget*, the number of
statements that may still be started, and a statement that finds it empty stops the run.

A statement ends with a `Flow` that says where to go on: behind it, out of or around a loop, at a
label, or out of the method. A jump is resolved by the innermost block that has its label directly
among its statements. The cleanup of a try runs however its body and handler ended, and replaces
that end by its own if it does not fall through.

## Termination

A statement with budget `n + 1` runs its parts with what is left of `n`. What follows a statement
in its block, and the next round of a loop, run with what is left once the statement itself is
paid for, so jumping back and repeating spend the budget as well.
-/

namespace Lowering

/-- Where a statement goes on. -/
inductive Flow where
  | normal
  | exit
  | next
  | ret (value : Value)
  | goto (label : String)
deriving DecidableEq, Repr

/-- What is left of a budget after the statements started between two machines. -/
def Machine.left (budget : Nat) (before after : Machine) : Nat :=
  budget - (after.steps - before.steps)

/-- A machine never has more of its budget left than it had. -/
theorem Machine.left_le (budget : Nat) (before after : Machine) :
    Machine.left budget before after ≤ budget := Nat.sub_le _ _

/-- Runs the cleanup after a try: if it falls through, the try ends as it did before. -/
@[inline] def Outcome.andCleanup (o : Outcome Flow) (cleanup : Machine → Outcome Flow) :
    Outcome Flow :=
  match o with
  | .stopped e m => .stopped e m
  | .done flow m =>
    match cleanup m with
    | .done .normal m => .done flow m
    | abrupt => abrupt
  | .thrown t m =>
    match cleanup m with
    | .done .normal m => .thrown t m
    | abrupt => abrupt

/-- The end of a switch: leaving it goes on behind it. -/
def Outcome.leaveSwitch : Outcome Flow → Outcome Flow
  | .done .exit m => .done .normal m
  | o => o

/-- The block that a switch on `value` runs: the first case whose test gives that value, or else the
first default. Tests are evaluated in order up to the one that matches. -/
def Case.select (value : Value) (default : Option Block) : List Case → Eval (Option Block)
  | [] => pure default
  | ⟨none, body⟩ :: cases => Case.select value (default.or (some body)) cases
  | ⟨some test, body⟩ :: cases => do
    let v ← test.eval
    if v = value then return some body else Case.select value default cases

/-- The value of a suspension. It is up to the machine whether a clause can catch what it throws. -/
def Expr.evalSuspended (value : Option Expr) : Eval (Option Value) := fun m =>
  (Expr.evalOption value m).catchableIf m.valueCatchable

/-- A suspension: it is recorded, and its resumption may throw. -/
def Machine.suspend (kind : SuspendKind) (value : Option Value) : Eval Flow := fun m =>
  let index := m.suspensions
  let m : Machine := { m.record (.suspend kind value) with suspensions := index + 1 }
  if index ∈ m.failingResumes then
    .thrown ⟨.str ("resume" ++ toString index), m.resumeCatchable⟩ m
  else .done .normal m

mutual

/-- Runs a statement. -/
def Stmt.exec (budget : Nat) (s : Stmt) (m : Machine) : Outcome Flow :=
  match budget with
  | 0 => .stopped (.stepLimit m.stepLimit) m.tick
  | n + 1 =>
    match s with
    | .block body _ => body.exec n m.tick
    | .ite test yes no _ =>
      (test.eval m.tick).bind fun v m' =>
        if v.truthy then yes.exec n m'
        else
          match no with
          | some s' => s'.exec n m'
          | none => .done .normal m'
    | .loop test body _ => Stmt.execLoop n test body m.tick
    | .attempt body handler cleanup _ =>
      let tried :=
        match body.exec n m.tick, handler with
        | .thrown t m', some h =>
          if t.catchable then h.exec (Machine.left n m.tick m') m' else .thrown t m'
        | o, _ => o
      match cleanup with
      | some c => tried.andCleanup fun m' => c.exec (Machine.left n m.tick m') m'
      | none => tried
    | .labeled _ body _ => body.exec n m.tick
    | .goto label _ => .done (.goto label) m.tick
    | .exit _ => .done .exit m.tick
    | .next _ => .done .next m.tick
    | .eval value _ => (value.eval m.tick).bind fun _ m' => .done .normal m'
    | .declare name _ init _ =>
      (Expr.evalOption init m.tick).bind fun v m' =>
        .done .normal (m'.setLocal name (v.getD .null))
    | .ret value _ => (Expr.evalOption value m.tick).bind fun v m' => .done (.ret (v.getD .null)) m'
    | .suspend kind value _ => (Expr.evalSuspended value m.tick).bind (Machine.suspend kind)
    | .raise value _ => (value.eval m.tick).bind fun v m' => .thrown ⟨v, true⟩ m'
    | .method _ _ => .done .normal m.tick
    | .switch discriminant cases _ =>
      (discriminant.eval m.tick).bind fun v m' =>
        (Case.select v none cases m').bind fun chosen m' =>
          match chosen with
          | some body => (body.exec n m').leaveSwitch
          | none => .done .normal m'
termination_by (budget, 0)
decreasing_by all_goals grind [Machine.left]

/-- Runs the statements of a block. -/
def Block.exec (budget : Nat) (b : Block) (m : Machine) : Outcome Flow :=
  Stmt.execFrom budget b.stmts b.stmts m
termination_by (budget, 2)

/-- Runs `rest`, the statements of a block `all` from some point on. -/
def Stmt.execFrom (budget : Nat) (all rest : List Stmt) (m : Machine) : Outcome Flow :=
  match rest, budget with
  | [], _ => .done .normal m
  | s :: _, 0 => s.exec 0 m
  | s :: rest, n + 1 =>
    match s.exec (n + 1) m with
    | .done .normal m' => Stmt.execFrom (Machine.left n m.tick m') all rest m'
    | .done (.goto label) m' =>
      match all.dropWhile fun s => !s.hasLabel label with
      | [] => .done (.goto label) m'
      | target => Stmt.execFrom (Machine.left n m.tick m') all target m'
    | o => o
termination_by (budget, 1)
decreasing_by all_goals grind [Machine.left]

/-- Runs a loop from the test on. -/
def Stmt.execLoop (budget : Nat) (test : Expr) (body : Stmt) (m : Machine) : Outcome Flow :=
  match test.eval m with
  | .thrown t m' => .thrown t m'
  | .stopped e m' => .stopped e m'
  | .done v m' =>
    if v.truthy then
      match budget with
      | 0 => body.exec 0 m'
      | n + 1 =>
        match body.exec (n + 1) m' with
        | .done .normal m'' => Stmt.execLoop (Machine.left n m'.tick m'') test body m''
        | .done .next m'' => Stmt.execLoop (Machine.left n m'.tick m'') test body m''
        | .done .exit m'' => .done .normal m''
        | o => o
    else .done .normal m'
termination_by (budget, 1)
decreasing_by all_goals grind [Machine.left]

end

/-! ## Whole bodies -/

/-- How a body ended. -/
inductive Completion where
  /-- it fell off its end -/
  | finished
  | returned (value : Value)
  /-- nothing in it caught a throw -/
  | threw (value : Value)
deriving DecidableEq, Repr

/-- A body is left by falling off its end, by returning and by throwing, and by nothing else. -/
def Outcome.complete : Outcome Flow → Except EvalError Completion × Machine
  | .done .normal m => (.ok .finished, m)
  | .done (.ret v) m => (.ok (.returned v), m)
  | .thrown t m => (.ok (.threw t.value), m)
  | .done (.goto label) m => (.error (.unknownLabel label), m)
  | .done .exit m => (.error .strayExit, m)
  | .done .next m => (.error .strayNext, m)
  | .stopped e m => (.error e, m)

/-- Runs a body with all the steps that the machine has left. -/
def Machine.run (m : Machine) (body : Block) : Except EvalError Completion × Machine :=
  (body.exec (m.stepLimit - m.steps) m).complete

end Lowering
