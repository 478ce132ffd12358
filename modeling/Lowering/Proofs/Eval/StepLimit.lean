import Lowering.Proofs.Eval.Moments

/-!
# The step limit

Every run comes to an end, and it takes at most one step more than the limit allows. The statement that
is one too many is counted and refused, and with it the run is over: what waits for it is given up, with
all handlers and cleanups, and nothing more happens to the machine (`Machine.run_within_limit`).
-/

namespace Lowering

/-! ## After a stop -/

/-- After a stop nothing goes on. -/
theorem Waiting.resume_stopped (w : Waiting) (waiting : List Waiting) (e : EvalError) (m : Machine) :
    w.resume waiting (.stopped e m) = .ended (.stopped e m) waiting := by
  cases w <;> rfl

namespace Moment

theorem after_stopped (e : EvalError) (m : Machine) (n : Nat) : ∀ waiting : List Waiting,
    ∃ waiting', (ended (.stopped e m) waiting).after n = .ended (.stopped e m) waiting' := by
  induction n with
  | zero => exact fun waiting => ⟨waiting, rfl⟩
  | succ n ih =>
    intro waiting
    rw [after]
    cases waiting with
    | nil => exact ih []
    | cons w waiting =>
      rw [next, Waiting.resume_stopped]
      exact ih waiting

/-- A statement that is one too many stops the run. -/
theorem next_of_exceeded {p : Moment} {s : Stmt} (hs : p.statement? = some s)
    (hlimit : p.machine.stepLimit ≤ p.machine.steps) :
    ∃ waiting, p.next = .ended (.stopped (.stepLimit p.machine.stepLimit) p.machine.tick) waiting := by
  cases p with
  | ended o waiting => cases hs
  | running task waiting m =>
    cases task with
    | stmt s' =>
      rw [next, Task.start]
      exact ⟨waiting, if_neg (Nat.not_lt.mpr hlimit)⟩
    | rest _ _ | loop _ _ | tried _ _ => cases hs

/-! ## The bound -/

def isStopped : Moment → Bool
  | .ended o _ => o.isStopped
  | .running .. => false

theorem isStopped_next {p : Moment} (hp : p.isStopped = true) :
    p.next.isStopped = true ∧ p.next.machine = p.machine := by
  cases p with
  | running task waiting m => cases hp
  | ended o waiting =>
    cases o with
    | done flow m => cases hp
    | thrown t m => cases hp
    | stopped e m =>
      cases waiting with
      | nil => exact ⟨rfl, rfl⟩
      | cons w waiting =>
        rw [next, Waiting.resume_stopped]
        exact ⟨rfl, rfl⟩

/-- The limit and the count are at most `top`, and only a run that was stopped has counted one more. -/
def Bounded (top : Nat) (p : Moment) : Prop :=
  p.machine.stepLimit ≤ top ∧
    (p.machine.steps ≤ top ∨ p.isStopped = true ∧ p.machine.steps ≤ top + 1)

theorem Bounded.next {top : Nat} {p : Moment} (h : Bounded top p) : Bounded top p.next := by
  obtain ⟨hlimit, hsteps⟩ := h
  refine ⟨p.clockOn_next.1 ▸ hlimit, ?_⟩
  rcases hsteps with hsteps | ⟨hstop, hsteps⟩
  · have hclock := p.clock_next.2
    cases hs : p.statement? with
    | none =>
      rw [hs] at hclock
      exact .inl (Nat.le_trans (Nat.le_of_eq hclock) hsteps)
    | some s =>
      rw [hs] at hclock
      rw [hclock]
      show p.machine.steps + 1 ≤ top ∨ _ ∧ p.machine.steps + 1 ≤ top + 1
      -- a statement is started only below the limit
      by_cases hle : p.machine.stepLimit ≤ p.machine.steps
      · obtain ⟨waiting, hnext⟩ := next_of_exceeded hs hle
        exact .inr ⟨by rw [hnext]; rfl, Nat.succ_le_succ hsteps⟩
      · exact .inl (Nat.le_trans (Nat.lt_of_not_le hle) hlimit)
  · obtain ⟨hstop', hmachine⟩ := isStopped_next hstop
    exact .inr ⟨hstop', hmachine ▸ hsteps⟩

theorem Bounded.leadsTo {top : Nat} {p q : Moment} (h : Bounded top p) (hpq : p.LeadsTo q) :
    Bounded top q :=
  hpq.induct (R := fun p q => Bounded top p → Bounded top q) (fun _ => id) (fun f g => g ∘ f)
    (fun _ => .next) h

end Moment

/-! ## Whole runs -/

theorem Outcome.complete_machine (o : Outcome Flow) : o.complete.2 = o.machine := by
  rcases o with ⟨_ | _, _⟩ | _ | _ <;> rfl

theorem Machine.steps_run_le (m : Machine) (b : Block) :
    (m.run b).2.steps ≤ max m.steps m.stepLimit + 1 := by
  obtain ⟨o, hend, hrun⟩ := m.leads_to_run b
  have hfirst : (Moment.first m b).Bounded (max m.steps m.stepLimit) :=
    ⟨Nat.le_max_right _ _, .inl (Nat.le_max_left _ _)⟩
  obtain ⟨-, hsteps⟩ := hfirst.leadsTo hend
  rw [← hrun, Outcome.complete_machine]
  exact hsteps.elim (Nat.le_trans · (Nat.le_succ _)) And.right

/-- A moment at which a run is stopped is its end. -/
theorem Machine.run_of_stopped {m m' : Machine} {b : Block} {e : EvalError} {waiting : List Waiting}
    (h : (Moment.first m b).LeadsTo (.ended (.stopped e m') waiting)) :
    m.run b = (.error e, m') := by
  obtain ⟨o, ⟨n, hn⟩, hrun⟩ := m.leads_to_run b
  obtain ⟨k, hk⟩ := h
  -- later than both moments the run is over, and it is stopped
  obtain ⟨waiting', hstopped⟩ := Moment.after_stopped e m' n waiting
  have hover : (Moment.first m b).after (n + k) = .ended o [] := by
    rw [Moment.after_add, hn, Moment.after_over]
  rw [Nat.add_comm, Moment.after_add, hk, hstopped] at hover
  cases hover
  exact hrun.symm

/-- **Every run comes to its end within the step limit**, and a statement that exceeds the limit is the
last thing that happens in it. -/
theorem Machine.run_within_limit (m : Machine) (b : Block) :
    (∃ n o, (Moment.first m b).after n = .ended o [] ∧ o.complete = m.run b) ∧
      (m.run b).2.steps ≤ max m.steps m.stepLimit + 1 ∧
      ∀ n s, ((Moment.first m b).after n).statement? = some s →
        m.stepLimit ≤ ((Moment.first m b).after n).machine.steps →
          m.run b = (.error (.stepLimit m.stepLimit), ((Moment.first m b).after n).machine.tick) ∧
            ∀ k > n, ∃ waiting, (Moment.first m b).after k =
              .ended (.stopped (.stepLimit m.stepLimit) ((Moment.first m b).after n).machine.tick)
                waiting := by
  refine ⟨?_, m.steps_run_le b, fun n s hs hlimit => ?_⟩
  · obtain ⟨o, ⟨n, hn⟩, hrun⟩ := m.leads_to_run b
    exact ⟨n, o, hn, hrun⟩
  · have hsame : ((Moment.first m b).after n).machine.stepLimit = m.stepLimit :=
      (Moment.LeadsTo.clockOn ⟨n, rfl⟩).1
    obtain ⟨waiting, hnext⟩ := Moment.next_of_exceeded hs (hsame ▸ hlimit)
    rw [hsame, ← Moment.after_succ] at hnext
    refine ⟨Machine.run_of_stopped ⟨n + 1, hnext⟩, fun k hk => ?_⟩
    obtain ⟨j, rfl⟩ := Nat.exists_eq_add_of_le hk
    rw [Moment.after_add, hnext]
    exact Moment.after_stopped _ _ j waiting

/-- `try { while (true) f(); } catch { g(); } finally { h(); }` -/
def Block.endless : Block :=
  ⟨[.attempt ⟨[.loop (.bool true) (.eval (.call "f" []) .dummy) .dummy], .dummy⟩
    (some ⟨[.eval (.call "g" []) .dummy], .dummy⟩) (some ⟨[.eval (.call "h" []) .dummy], .dummy⟩)
    .dummy], .dummy⟩

/-- With four steps, the third call of `f` is one statement too many. -/
theorem Machine.run_within_limit_endless :
    let m : Machine := { Machine.initial with stepLimit := 4 }
    ((Moment.first m .endless).after 12).statement? = some (.eval (.call "f" []) .dummy) ∧
      ((Moment.first m .endless).after 12).machine.steps = 4 ∧
      (m.run .endless).1 = .error (.stepLimit 4) ∧ (m.run .endless).2.calls = ["f", "f"] := by
  intro m
  have hs : ((Moment.first m .endless).after 12).statement? =
      some (.eval (.call "f" []) .dummy) := by rfl
  have hsteps : ((Moment.first m .endless).after 12).machine.steps = 4 := by rfl
  obtain ⟨hrun, -⟩ := (m.run_within_limit .endless).2.2 12 _ hs (Nat.le_of_eq hsteps.symm)
  exact ⟨hs, hsteps, by rw [hrun], by rw [hrun]; rfl⟩

end Lowering
