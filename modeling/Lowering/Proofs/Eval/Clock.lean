import Lowering.Proofs.Eval.Closed

/-!
# Evaluating does not look at the clock

The step counter and the step limit of a machine are its clock. Expressions neither read nor change
it (`Expr.eval_timeless`): on a machine whose clock is set anew, evaluating gives the same outcome,
with that clock.
-/

namespace Lowering

/-- The machine with another clock. -/
def Machine.setClock (m : Machine) (steps limit : Nat) : Machine :=
  { m with steps, stepLimit := limit }

/-- The machine with its clock at zero. -/
def Machine.untimed (m : Machine) : Machine := m.setClock 0 0

/-- Without its clock, a machine does not notice a step. -/
@[simp] theorem Machine.untimed_tick (m : Machine) : m.tick.untimed = m.untimed := rfl

namespace Outcome

variable {α β : Type}

/-- The machine that evaluating left. -/
def machine : Outcome α → Machine
  | .done _ m | .thrown _ m | .stopped _ m => m

/-- The outcome with another clock. -/
def setClock (steps limit : Nat) : Outcome α → Outcome α
  | .done a m => .done a (m.setClock steps limit)
  | .thrown t m => .thrown t (m.setClock steps limit)
  | .stopped e m => .stopped e (m.setClock steps limit)

/-- The outcome with the clock at zero. -/
def untimed (o : Outcome α) : Outcome α := o.setClock 0 0

@[simp] theorem untimed_done (a : α) (m : Machine) : (done a m).untimed = .done a m.untimed := rfl

@[simp] theorem untimed_thrown (t : Thrown) (m : Machine) :
    (thrown t m : Outcome α).untimed = .thrown t m.untimed := rfl

@[simp] theorem untimed_stopped (e : EvalError) (m : Machine) :
    (stopped e m : Outcome α).untimed = .stopped e m.untimed := rfl

@[simp] theorem machine_untimed (o : Outcome α) : o.untimed.machine = o.machine.untimed := by
  cases o <;> rfl

end Outcome

/-- Evaluating that neither reads nor changes the clock. -/
def Eval.Timeless {α : Type} (x : Eval α) : Prop :=
  ∀ (m : Machine) (steps limit : Nat), x (m.setClock steps limit) = (x m).setClock steps limit

namespace Eval.Timeless

variable {α β : Type}

theorem pure (a : α) : Timeless (Pure.pure a) := fun _ _ _ => rfl

theorem raise (v : Value) : Timeless (Eval.raise v : Eval α) := fun _ _ _ => rfl

theorem stop (e : EvalError) : Timeless (Eval.stop e : Eval α) := fun _ _ _ => rfl

/-- Evaluating one thing after the other looks at no clock if neither does. -/
theorem bind {x : Eval α} {f : α → Eval β} (hx : Timeless x) (hf : ∀ a, Timeless (f a)) :
    Timeless (x >>= f) := by
  intro m steps limit
  rw [bind_apply, bind_apply, hx m]
  cases x m with
  | done a m' => exact hf a m' steps limit
  | thrown t m' => rfl
  | stopped e m' => rfl

/-- What is evaluated without a clock is what is evaluated with one, but for the clock. -/
theorem untimed {x : Eval α} (hx : Timeless x) (m : Machine) : x m.untimed = (x m).untimed :=
  hx m 0 0

/-- The clock stands still. -/
theorem steps_eq {x : Eval α} (hx : Timeless x) (m : Machine) : (x m).machine.steps = m.steps := by
  have h : x m = (x m).setClock m.steps m.stepLimit := hx m m.steps m.stepLimit
  rw [h]
  cases x m <;> rfl

end Eval.Timeless

/-! ## Operations of a machine -/

/-- What a local holds does not depend on the time. -/
theorem Machine.getLocal_timeless (name : String) : Eval.Timeless (Machine.getLocal name) := by
  intro m steps limit
  have hlocals : (m.setClock steps limit).locals = m.locals := rfl
  unfold Machine.getLocal
  rw [hlocals]
  cases m.locals.get? name <;> rfl

theorem Machine.assign_timeless (name : String) (v : Value) :
    Eval.Timeless (Machine.assign name v) := by
  intro m steps limit
  have hlocals : (m.setClock steps limit).locals = m.locals := rfl
  unfold Machine.assign
  rw [hlocals]
  cases m.locals.get? name <;> rfl

theorem Machine.nextResult_setClock (m : Machine) (callee : String) (steps limit : Nat) :
    (m.setClock steps limit).nextResult callee =
      ((m.nextResult callee).1, (m.nextResult callee).2.setClock steps limit) := by
  have hscripts : (m.setClock steps limit).scripts = m.scripts := rfl
  unfold Machine.nextResult
  rw [hscripts]
  rcases m.scripts.get? callee with _ | _ | ⟨v, rest⟩ <;> rfl

/-- A call takes its result from its script, whatever time it is. -/
theorem Machine.call_timeless (callee : String) (args : List Value) :
    Eval.Timeless (Machine.call callee args) := by
  intro m steps limit
  have hr : (m.setClock steps limit).record (.call callee args) =
      (m.record (.call callee args)).setClock steps limit := rfl
  unfold Machine.call
  simp only [hr, Machine.nextResult_setClock]
  by_cases hf : callee ∈ (m.record (.call callee args)).failingCalls
  · rw [if_pos hf]
    exact if_pos hf
  · rw [if_neg hf]
    exact if_neg hf

/-- The machine behind a suspension. -/
def Machine.suspended (m : Machine) (kind : SuspendKind) (value : Option Value) : Machine :=
  { m.record (.suspend kind value) with suspensions := m.suspensions + 1 }

/-- A suspension is recorded before it is seen whether its resumption fails. -/
theorem Machine.suspend_apply (kind : SuspendKind) (value : Option Value) (m : Machine) :
    Machine.suspend kind value m =
      if m.suspensions ∈ m.failingResumes then
        .thrown ⟨.str ("resume" ++ toString m.suspensions), m.resumeCatchable⟩
          (m.suspended kind value)
      else .done .normal (m.suspended kind value) := rfl

/-- Suspensions are numbered by a count of their own, not by the clock. -/
theorem Machine.suspend_timeless (kind : SuspendKind) (value : Option Value) :
    Eval.Timeless (Machine.suspend kind value) := by
  intro m steps limit
  rw [Machine.suspend_apply, Machine.suspend_apply]
  by_cases hf : m.suspensions ∈ m.failingResumes
  · rw [if_pos hf]
    exact if_pos hf
  · rw [if_neg hf]
    exact if_neg hf

/-! ## Expressions -/

/-- All that expressions are evaluated with looks at no clock. -/
theorem Eval.Timeless.closed : Eval.Closed (fun _ x => Eval.Timeless x) (fun _ => True) false where
  pure := .pure
  bind := .bind
  stop := .stop
  getLocal name _ := Machine.getLocal_timeless name
  assign name v _ := Machine.assign_timeless name v
  raise _ := .raise
  call _ := Machine.call_timeless

/-- **Expressions do not look at the clock.** -/
theorem Expr.eval_timeless (e : Expr) : Eval.Timeless e.eval :=
  Expr.eval_closed Eval.Timeless.closed e (fun _ _ => trivial) Bool.noConfusion

theorem Expr.evalOption_timeless (e : Option Expr) : Eval.Timeless (Expr.evalOption e) :=
  Expr.evalOption_closed Eval.Timeless.closed e (fun _ _ _ _ => trivial) Bool.noConfusion

theorem Expr.evalSuspended_timeless (e : Option Expr) : Eval.Timeless (Expr.evalSuspended e) := by
  intro m steps limit
  unfold Expr.evalSuspended
  rw [Expr.evalOption_timeless e m steps limit]
  cases Expr.evalOption e m <;> rfl

/-- The tests of the cases are evaluated in turn, and none of them counts as a step. -/
theorem Case.select_timeless (value : Value) (cases : List Case) (default : Option Block) :
    Eval.Timeless (Case.select value default cases) :=
  Case.select_closed Eval.Timeless.closed value cases default fun _ _ _ _ => trivial

end Lowering
