import Lowering.Proofs.Eval.Lockstep
import Lowering.Proofs.Eval.StepLimit

/-!
# The step limit only cuts runs short

A machine that has counted more steps runs a body just like the machine that it differs from in nothing
else: moment by moment the two do the same, and the counts stay equally far apart (`Moment.next_later`).
This ends only with a statement that is one too many for the machine that is ahead. What that machine has
recorded by then, the other has recorded as well, and it goes on from there (`Machine.run_cut_short`).
-/

namespace Lowering

/-! ## Machines that are ahead -/

/-- The machine with `d` more steps counted. -/
def Machine.later (m : Machine) (d : Nat) : Machine := m.setClock (m.steps + d) m.stepLimit

theorem Machine.tick_later (m : Machine) (d : Nat) : (m.later d).tick = m.tick.later d := by
  unfold Machine.later Machine.tick Machine.setClock
  rw [Nat.add_right_comm]

/-- The outcome on the machine that is ahead. -/
def Outcome.later {α : Type} (d : Nat) : Outcome α → Outcome α
  | .done a m => .done a (m.later d)
  | .thrown t m => .thrown t (m.later d)
  | .stopped e m => .stopped e (m.later d)

theorem Outcome.complete_later (o : Outcome Flow) (d : Nat) :
    (o.later d).complete = (o.complete.1, o.complete.2.later d) := by
  rcases o with ⟨_ | _, _⟩ | _ | _ <;> rfl

/-- What does not look at the clock does the same on the machine that is ahead. -/
theorem Eval.Timeless.later {α : Type} {x : Eval α} (hx : Timeless x) (m : Machine) (d : Nat) :
    x (m.later d) = (x m).later d := by
  obtain ⟨hlimit, hsteps⟩ := hx.sameClock m
  rw [Machine.later, hx m, ← hlimit, ← hsteps]
  cases x m <;> rfl

/-! ## Moments of a machine that is ahead -/

namespace Moment

/-- The moment on the machine that is ahead. -/
def later (d : Nat) : Moment → Moment
  | .running task waiting m => .running task waiting (m.later d)
  | .ended o waiting => .ended (o.later d) waiting

/-- The statement that is about to be started is one too many. -/
def Exceeded (p : Moment) : Prop :=
  p.statement?.isSome = true ∧ p.machine.stepLimit ≤ p.machine.steps

theorem machine_later (p : Moment) (d : Nat) : (p.later d).machine = p.machine.later d := by
  rcases p with _ | ⟨_ | _ | _, _⟩ <;> rfl

theorem evaluated_later {α : Type} {x : Eval α} (hx : x.Timeless) {waiting : List Waiting}
    {go : α → Machine → Moment} (m : Machine) (d : Nat)
    (hgo : ∀ a m', go a (m'.later d) = (go a m').later d) :
    evaluated (x (m.later d)) waiting go = (evaluated (x m) waiting go).later d := by
  rw [hx.later m d]
  cases x m with
  | done a m' => exact hgo a m'
  | thrown t m' => rfl
  | stopped e m' => rfl

end Moment

theorem Stmt.start_later (s : Stmt) (waiting : List Waiting) (m : Machine) (d : Nat) :
    s.start waiting (m.later d) = (s.start waiting m).later d := by
  cases hs : s.leaf? with
  | some f =>
    rw [Stmt.start_leaf hs, Stmt.start_leaf hs, (Stmt.leaf?_timeless hs).later]
    rfl
  | none =>
    cases s with
    | ite test yes no span =>
      rw [Stmt.start, Stmt.start]
      refine Moment.evaluated_later (Expr.eval_timeless test) m d fun v m' => ?_
      by_cases hv : v.truthy = true
      · rw [if_pos hv, if_pos hv]
        rfl
      · rw [if_neg hv, if_neg hv]
        cases no <;> rfl
    | switch discriminant cases span =>
      rw [Stmt.start, Stmt.start]
      refine Moment.evaluated_later (Case.choose_timeless discriminant cases) m d fun chosen m' => ?_
      cases chosen <;> rfl
    | block _ _ | loop _ _ _ | attempt _ _ _ _ | labeled _ _ _ => rfl
    | _ => cases hs

theorem Waiting.resume_later (w : Waiting) (waiting : List Waiting) (o : Outcome Flow) (d : Nat) :
    w.resume waiting (o.later d) = (w.resume waiting o).later d := by
  cases w with
  | behind all ss =>
    rcases o with ⟨_ | _ | _ | _ | label, m⟩ | _ | _
    case done.goto =>
      have hlater : (Outcome.done (Flow.goto label) m).later d = .done (.goto label) (m.later d) := rfl
      rw [hlater, Waiting.resume, Waiting.resume]
      cases Stmt.seek label all <;> rfl
    -- Every other outcome is passed on without a look at the machine.
    all_goals rfl
  | round test body => rcases o with ⟨_ | _ | _ | _ | _, m⟩ | _ | _ <;> rfl
  | handler clause =>
    cases clause with
    | none => cases o <;> rfl
    | some h =>
      cases o with
      | thrown t m =>
        by_cases ht : t.catchable = true
        · rw [Waiting.resume, if_pos ht]
          exact if_pos ht
        · rw [Waiting.resume, if_neg ht]
          exact if_neg ht
      | done flow m => rfl
      | stopped e m => rfl
  | cleanup clause => cases o <;> cases clause <;> rfl
  | cleaned before => rcases o with ⟨_ | _, m⟩ | _ | _ <;> cases before <;> rfl
  | switch => rcases o with ⟨_ | _, m⟩ | _ | _ <;> rfl

namespace Moment

/-- **The machine that is ahead does the same**, unless the next statement is one too many for it. -/
theorem next_later (p : Moment) (d : Nat) (h : ¬(p.later d).Exceeded) :
    (p.later d).next = p.next.later d := by
  cases p with
  | running task waiting m =>
    cases task with
    | stmt s =>
      -- what is within the limit ahead is within the limit here
      have hahead : m.steps + d < m.stepLimit := Nat.lt_of_not_le fun hle => h ⟨rfl, hle⟩
      have hhere : m.steps < m.stepLimit := Nat.lt_of_le_of_lt (Nat.le_add_right _ d) hahead
      have hstart : (running (.stmt s) waiting m).next = s.start waiting m.tick := if_pos hhere
      have hstart' : (running (.stmt s) waiting (m.later d)).next = s.start waiting (m.later d).tick :=
        if_pos hahead
      rw [later, hstart, hstart', Machine.tick_later]
      exact s.start_later waiting m.tick d
    | rest all ss => cases ss <;> rfl
    | loop test body =>
      refine evaluated_later (Expr.eval_timeless test) m d fun v m' => ?_
      by_cases hv : v.truthy = true
      · rw [if_pos hv, if_pos hv]
        rfl
      · rw [if_neg hv, if_neg hv]
        rfl
    | tried body handler => rfl
  | ended o waiting =>
    cases waiting with
    | nil => rfl
    | cons w waiting => exact w.resume_later waiting o d

/-- The run that is ahead is at the same moment, or it came to a statement that is one too many. -/
theorem after_later (p : Moment) (d n : Nat) :
    (p.later d).after n = (p.after n).later d ∨
      ∃ k, k < n ∧ (p.later d).after k = (p.after k).later d ∧ ((p.after k).later d).Exceeded := by
  induction n with
  | zero => exact .inl rfl
  | succ n ih =>
    rcases ih with hn | ⟨k, hk, hsame, hexceeded⟩
    · by_cases hexceeded : ((p.after n).later d).Exceeded
      · exact .inr ⟨n, Nat.lt_succ_self n, hn, hexceeded⟩
      · refine .inl ?_
        rw [after_succ, after_succ, hn, next_later _ _ hexceeded]
    · exact .inr ⟨k, Nat.lt_succ_of_lt hk, hsame, hexceeded⟩

end Moment

/-! ## Nothing that was recorded is taken back -/

/-- What the operations of a machine keep is kept from each moment to the next. -/
theorem Machine.Absorbing.next {P : Machine → Prop} (h : Machine.Absorbing P) (p : Moment)
    (hp : P p.machine) : P p.next.machine := by
  cases p with
  | running task waiting m =>
    -- Only a step that evaluates an expression or ticks changes the machine.
    cases task with
    | stmt s =>
      rw [Moment.next, Task.start]
      split
      · cases hs : s.leaf? with
        | some f =>
          rw [Stmt.start_leaf hs, ← Stmt.exec_leaf (n := 0) hs]
          exact h.exec 1 (.stmt s) m (List.Subset.refl _) hp
        | none =>
          cases s with
          | ite test yes no span =>
            rw [Stmt.start, Moment.machine_evaluated fun v m' => ?_]
            · exact h.eval test (h.tick hp)
            · split
              · rfl
              · cases no <;> rfl
          | switch discriminant cases span =>
            rw [Stmt.start, Moment.machine_evaluated fun chosen m' => ?_]
            · exact Outcome.lost_bind (h.eval discriminant (h.tick hp))
                fun v m' hm' => h.select v cases none hm'
            · cases chosen <;> rfl
          | block _ _ | loop _ _ _ | attempt _ _ _ _ | labeled _ _ _ => exact h.tick hp
          | _ => cases hs
      · exact h.tick hp
    | rest all ss => cases ss <;> exact hp
    | loop test body =>
      rw [Moment.next, Task.start, Moment.machine_evaluated fun v m' => ?_]
      · exact h.eval test hp
      · split <;> rfl
    | tried body handler => exact hp
  | ended o waiting =>
    cases waiting with
    | nil => exact hp
    | cons w waiting =>
      rw [Moment.next, Waiting.machine_resume]
      exact hp

/-- A machine only adds to what it has recorded. -/
theorem Machine.records_absorbing (events : List Event) :
    Machine.Absorbing fun m => events <+: m.trace where
  tick := id
  setLocal _ _ := id
  suspended {m} kind v h := by
    have htrace : (m.suspended kind v).trace = m.trace ++ [.suspend kind v] := m.trace_record _
    rw [htrace]
    exact h.trans (List.prefix_append _ _)
  call {m} callee args h := by
    obtain ⟨scripts, hm⟩ := Machine.machine_call callee args m
    have htrace : (Machine.call callee args m).machine.trace = m.trace ++ [.call callee args] := by
      rw [hm]
      exact m.trace_record _
    rw [htrace]
    exact h.trans (List.prefix_append _ _)

theorem Moment.LeadsTo.trace {p q : Moment} (h : p.LeadsTo q) :
    p.machine.trace <+: q.machine.trace :=
  h.induct (R := fun p q => p.machine.trace <+: q.machine.trace) (fun _ => List.prefix_rfl) .trans
    fun p => (Machine.records_absorbing p.machine.trace).next p List.prefix_rfl

/-! ## Whole runs -/

namespace Machine

variable {m : Machine} {b : Block}

/-- A statement that is one too many ends the run. -/
theorem run_of_exceeded {p : Moment} (h : (Moment.first m b).LeadsTo p) (hp : p.Exceeded) :
    m.run b = (.error (.stepLimit p.machine.stepLimit), p.machine.tick) := by
  obtain ⟨hstarts, hlimit⟩ := hp
  obtain ⟨s, hs⟩ := Option.isSome_iff_exists.mp hstarts
  obtain ⟨waiting, hnext⟩ := Moment.next_of_exceeded hs hlimit
  have hstopped : p.LeadsTo _ := .head (.refl p.next)
  rw [hnext] at hstopped
  exact run_of_stopped (h.trans hstopped)

/-- The machine that is ahead runs the body like the other, or it is stopped on the way. -/
theorem run_later (m : Machine) (b : Block) (d : Nat) :
    (m.later d).run b = ((m.run b).1, (m.run b).2.later d) ∨
      ∃ limit, ((m.later d).run b).1 = .error (.stepLimit limit) ∧
        ((m.later d).run b).2.trace <+: (m.run b).2.trace := by
  obtain ⟨o, ⟨n, hn⟩, hrun⟩ := m.leads_to_run b
  rcases (Moment.first m b).after_later d n with hsame | ⟨k, hk, hsame, hexceeded⟩
  · refine .inl ?_
    rw [hn] at hsame
    rw [run_of_over ⟨n, hsame⟩, ← hrun, Outcome.complete_later]
  · have hstopped := run_of_exceeded (m := m.later d) ⟨k, hsame⟩ hexceeded
    rw [Moment.machine_later] at hstopped
    rw [hstopped]
    refine .inr ⟨_, rfl, ?_⟩
    -- from this moment on, the other run goes on to its end
    have hrest : ((Moment.first m b).after k).LeadsTo (.ended o []) := by
      refine ⟨n - k, ?_⟩
      rw [← Moment.after_add, Nat.add_sub_cancel' (Nat.le_of_lt hk), hn]
    rw [← hrun, Outcome.complete_machine]
    exact hrest.trace

theorem steps_le_run (m : Machine) (b : Block) : m.steps ≤ (m.run b).2.steps := by
  obtain ⟨o, hend, hrun⟩ := m.leads_to_run b
  rw [← hrun, Outcome.complete_machine]
  exact hend.clockOn.2

/-- **The step limit only cuts runs short.** Of two machines that differ in nothing but their counts of
steps, a body that the one that is ahead completes is completed by the other in the same way, with the
same number of steps. If the limit stops the one that is ahead, all that it has recorded is what the
other records first. -/
theorem run_cut_short (m₁ m₂ : Machine) (hsame : { m₁ with steps := m₂.steps } = m₂)
    (hle : m₁.steps ≤ m₂.steps) (b : Block) :
    ((∀ limit, (m₂.run b).1 ≠ .error (.stepLimit limit)) →
      (m₁.run b).1 = (m₂.run b).1 ∧
        { (m₁.run b).2 with steps := (m₂.run b).2.steps } = (m₂.run b).2 ∧
        ∃ n, (m₁.run b).2.steps = m₁.steps + n ∧ (m₂.run b).2.steps = m₂.steps + n) ∧
      ∀ limit, (m₂.run b).1 = .error (.stepLimit limit) → (m₂.run b).2.trace <+: (m₁.run b).2.trace := by
  obtain ⟨d, hd⟩ := Nat.exists_eq_add_of_le hle
  have hlater : m₁.later d = m₂ := by
    rw [← hsame, hd]
    rfl
  have hsteps := m₁.steps_le_run b
  rcases m₁.run_later b d with hrun | ⟨limit, hstopped, htrace⟩
  · rw [hlater] at hrun
    rw [hrun]
    refine ⟨fun _ => ⟨rfl, rfl, (m₁.run b).2.steps - m₁.steps, ?_, ?_⟩, fun _ _ => List.prefix_rfl⟩
    · omega
    · show (m₁.run b).2.steps + d = _
      omega
  · rw [hlater] at hstopped htrace
    exact ⟨fun hlimit => absurd hstopped (hlimit limit), fun _ _ => htrace⟩

end Machine

/-- `try { f(); g(); } catch { h(); }` -/
def Block.guardedCalls : Block :=
  ⟨[.attempt ⟨[.eval (.call "f" []) .dummy, .eval (.call "g" []) .dummy], .dummy⟩
    (some ⟨[.eval (.call "h" []) .dummy], .dummy⟩) none .dummy], .dummy⟩

/-- Of four steps the body takes three. A machine that has used one of them completes it, and one that
has used two is stopped in front of the call of `g`. -/
theorem Machine.run_cut_short_guardedCalls :
    let m (steps : Nat) : Machine := { Machine.initial with steps, stepLimit := 4 }
    ((m 1).run .guardedCalls).1 = .ok .finished ∧ ((m 0).run .guardedCalls).1 = .ok .finished ∧
      ((m 0).run .guardedCalls).2.steps = 3 ∧ ((m 1).run .guardedCalls).2.steps = 4 ∧
      ((m 2).run .guardedCalls).1 = .error (.stepLimit 4) ∧
      ((m 2).run .guardedCalls).2.trace = [.call "f" []] ∧
      [.call "f" []] <+: ((m 0).run .guardedCalls).2.trace := by
  intro m
  have hone := run_of_over (m := m 1) (b := .guardedCalls) ⟨16, rfl⟩
  have htwo := run_of_over (m := m 2) (b := .guardedCalls) ⟨16, rfl⟩
  obtain ⟨hsame, -⟩ := run_cut_short (m 0) (m 1) rfl (Nat.zero_le 1) .guardedCalls
  obtain ⟨-, hcut⟩ := run_cut_short (m 0) (m 2) rfl (Nat.zero_le 2) .guardedCalls
  rw [hone] at hsame
  rw [htwo] at hcut
  obtain ⟨hcompletion, -, n, hn₀, hn₁⟩ := hsame (by intro limit h; cases h)
  have hthree : n = 3 := Nat.add_left_cancel (show 1 + n = 1 + 3 from hn₁.symm)
  subst hthree
  exact ⟨by rw [hone]; rfl, hcompletion, hn₀, by rw [hone]; rfl, by rw [htwo]; rfl,
    by rw [htwo]; rfl, hcut 4 rfl⟩

end Lowering
