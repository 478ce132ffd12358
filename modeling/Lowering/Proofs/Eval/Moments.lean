import Lowering.Proofs.Eval.Budget

/-!
# A run, moment by moment

Running a body is a sequence of moments. In each of them a task is being run or has just ended, and the
tasks around it wait for it to end (`Waiting`). `Moment.next` goes from a moment to the next, and nothing
in it has a budget: a statement looks at the clock of the machine when it is started, and loops and jumps
go on for as long as they like.

Still every run comes to an end, and it is the end that running with a budget finds
(`Task.leads_to_exec`): the budget of a task is what its machine has left of its steps. So a run can be
followed moment by moment to see what comes of it (`Machine.run_completes`).
-/

namespace Lowering

/-! ## Moments -/

/-- What goes on when a task ends. -/
inductive Waiting where
  /-- the statements `rest` behind it in the block `all` -/
  | behind (all rest : List Stmt)
  /-- the loop whose body it is -/
  | round (test : Expr) (body : Stmt)
  /-- the handler of the try whose body it is -/
  | handler (handler : Option Block)
  /-- the cleanup of the try that it is -/
  | cleanup (cleanup : Option Block)
  /-- the try whose cleanup it is, and which ended like this before -/
  | cleaned (before : Except Thrown Flow)
  /-- the switch that chose it -/
  | switch

/-- A moment of a run. -/
inductive Moment where
  | running (task : Task) (waiting : List Waiting) (m : Machine)
  | ended (o : Outcome Flow) (waiting : List Waiting)

/-- Goes on with the result of an expression, or ends with what cuts it short. -/
def Moment.evaluated {α : Type} (o : Outcome α) (waiting : List Waiting) (go : α → Machine → Moment) :
    Moment :=
  match o with
  | .done a m => go a m
  | .thrown t m => .ended (.thrown t m) waiting
  | .stopped e m => .ended (.stopped e m) waiting

/-- The moment after a statement was started and counted. -/
def Stmt.start (waiting : List Waiting) (m : Machine) : Stmt → Moment
  | .block body _ => .running (.rest body.stmts body.stmts) waiting m
  | .ite test yes no _ =>
    .evaluated (test.eval m) waiting fun v m' =>
      if v.truthy then .running (.stmt yes) waiting m'
      else
        match no with
        | some s => .running (.stmt s) waiting m'
        | none => .ended (.done .normal m') waiting
  | .loop test body _ => .running (.loop test body) waiting m
  | .attempt body handler cleanup _ =>
    .running (.tried body handler) (.cleanup cleanup :: waiting) m
  | .labeled _ body _ => .running (.stmt body) waiting m
  | .goto label _ => .ended (.done (.goto label) m) waiting
  | .exit _ => .ended (.done .exit m) waiting
  | .next _ => .ended (.done .next m) waiting
  | .eval value _ => .ended ((value.eval m).bind fun _ m' => .done .normal m') waiting
  | .declare name _ init _ =>
    .ended ((Expr.evalOption init m).bind fun v m' =>
      .done .normal (m'.setLocal name (v.getD .null))) waiting
  | .ret value _ =>
    .ended ((Expr.evalOption value m).bind fun v m' => .done (.ret (v.getD .null)) m') waiting
  | .suspend kind value _ =>
    .ended ((Expr.evalSuspended value m).bind (Machine.suspend kind)) waiting
  | .raise value _ => .ended ((value.eval m).bind fun v m' => .thrown ⟨v, true⟩ m') waiting
  | .method _ _ => .ended (.done .normal m) waiting
  | .switch discriminant cases _ =>
    .evaluated (Case.choose discriminant cases m) waiting fun chosen m' =>
      match chosen with
      | some body => .running (.rest body.stmts body.stmts) (.switch :: waiting) m'
      | none => .ended (.done .normal m') waiting

/-- The moment after a task was begun. A statement is counted, and refused if it is one too many. -/
def Task.start (waiting : List Waiting) (m : Machine) : Task → Moment
  | .stmt s =>
    if m.steps < m.stepLimit then s.start waiting m.tick
    else .ended (.stopped (.stepLimit m.stepLimit) m.tick) waiting
  | .rest _ [] => .ended (.done .normal m) waiting
  | .rest all (s :: ss) => .running (.stmt s) (.behind all ss :: waiting) m
  | .loop test body =>
    .evaluated (test.eval m) waiting fun v m' =>
      if v.truthy then .running (.stmt body) (.round test body :: waiting) m'
      else .ended (.done .normal m') waiting
  | .tried body handler => .running (.rest body.stmts body.stmts) (.handler handler :: waiting) m

/-- The moment after the task that was waited for ended. -/
def Waiting.resume (waiting : List Waiting) (o : Outcome Flow) : Waiting → Moment
  | .behind all ss =>
    match o with
    | .done .normal m => .running (.rest all ss) waiting m
    | .done (.goto label) m =>
      match Stmt.seek label all with
      | [] => .ended o waiting
      | target => .running (.rest all target) waiting m
    | _ => .ended o waiting
  | .round test body =>
    match o with
    | .done .normal m | .done .next m => .running (.loop test body) waiting m
    | .done .exit m => .ended (.done .normal m) waiting
    | _ => .ended o waiting
  | .handler clause =>
    match o, clause with
    | .thrown t m, some h =>
      if t.catchable then .running (.rest h.stmts h.stmts) waiting m else .ended o waiting
    | _, _ => .ended o waiting
  | .cleanup clause =>
    match o, clause with
    | .done flow m, some c => .running (.rest c.stmts c.stmts) (.cleaned (.ok flow) :: waiting) m
    | .thrown t m, some c => .running (.rest c.stmts c.stmts) (.cleaned (.error t) :: waiting) m
    | _, _ => .ended o waiting
  | .cleaned before =>
    match o, before with
    | .done .normal m, .ok flow => .ended (.done flow m) waiting
    | .done .normal m, .error t => .ended (.thrown t m) waiting
    | _, _ => .ended o waiting
  | .switch => .ended o.leaveSwitch waiting

namespace Moment

/-- The next moment. A run is over when nothing waits for a task that has ended. -/
def next : Moment → Moment
  | .running task waiting m => task.start waiting m
  | .ended o [] => .ended o []
  | .ended o (w :: waiting) => w.resume waiting o

/-- The moment `n` moments later. -/
def after (p : Moment) : Nat → Moment
  | 0 => p
  | n + 1 => p.next.after n

/-- The first moment of a body. -/
def first (m : Machine) (b : Block) : Moment := .running (.rest b.stmts b.stmts) [] m

/-- The machine at a moment. -/
def machine : Moment → Machine
  | .running _ _ m => m
  | .ended o _ => o.machine

/-- One moment comes to be after another. -/
def LeadsTo (p q : Moment) : Prop := ∃ n, p.after n = q

theorem after_add (p : Moment) (n k : Nat) : p.after (n + k) = (p.after n).after k := by
  induction n generalizing p with
  | zero => rw [Nat.zero_add, after]
  | succ n ih => rw [Nat.succ_add, after, after, ih]

theorem after_succ (p : Moment) (n : Nat) : p.after (n + 1) = (p.after n).next := after_add p n 1

namespace LeadsTo

variable {p q r : Moment}

theorem refl (p : Moment) : LeadsTo p p := ⟨0, rfl⟩

theorem trans (h : LeadsTo p q) (h' : LeadsTo q r) : LeadsTo p r := by
  obtain ⟨n, rfl⟩ := h
  obtain ⟨k, rfl⟩ := h'
  exact ⟨n + k, after_add p n k⟩

theorem head (h : LeadsTo p.next q) : LeadsTo p q := by
  obtain ⟨n, rfl⟩ := h
  exact ⟨n + 1, rfl⟩

/-- What holds from each moment to the next holds from a moment to all that it leads to. -/
theorem induct {R : Moment → Moment → Prop} (hrefl : ∀ p, R p p)
    (htrans : ∀ {p q r}, R p q → R q r → R p r) (hnext : ∀ p, R p p.next) (h : LeadsTo p q) : R p q := by
  obtain ⟨n, rfl⟩ := h
  induction n generalizing p with
  | zero => exact hrefl p
  | succ n ih => exact htrans (hnext p) ih

end LeadsTo

end Moment

/-! ## The clock -/

/-- The clock reads the same. -/
def Machine.SameClock (m m' : Machine) : Prop := m'.stepLimit = m.stepLimit ∧ m'.steps = m.steps

/-- The step limit stays, and steps are only added. -/
def Machine.ClockOn (m m' : Machine) : Prop := m'.stepLimit = m.stepLimit ∧ m.steps ≤ m'.steps

theorem Machine.SameClock.refl (m : Machine) : SameClock m m := ⟨rfl, rfl⟩

theorem Machine.SameClock.clockOn {m m' : Machine} (h : m.SameClock m') : m.ClockOn m' :=
  ⟨h.1, Nat.le_of_eq h.2.symm⟩

namespace Machine.ClockOn

theorem refl (m : Machine) : ClockOn m m := ⟨rfl, Nat.le_refl _⟩

theorem trans {m m' m'' : Machine} (h : ClockOn m m') (h' : ClockOn m' m'') : ClockOn m m'' :=
  ⟨h'.1.trans h.1, Nat.le_trans h.2 h'.2⟩

theorem tick (m : Machine) : ClockOn m m.tick := ⟨rfl, Nat.le_succ _⟩

end Machine.ClockOn

theorem Eval.Timeless.sameClock {α : Type} {x : Eval α} (hx : Timeless x) (m : Machine) :
    m.SameClock (x m).machine := by
  have h : x m = (x m).setClock m.steps m.stepLimit := hx m m.steps m.stepLimit
  rw [h]
  cases x m <;> exact .refl _

theorem Stmt.start_leaf {s : Stmt} {f : Eval Flow} (hs : s.leaf? = some f) (waiting : List Waiting)
    (m : Machine) : s.start waiting m = .ended (f m) waiting := by
  cases s <;> simp only [leaf?, Option.some.injEq, reduceCtorEq] at hs <;> subst hs <;> rfl

theorem Moment.machine_evaluated {α : Type} {o : Outcome α} {waiting : List Waiting}
    {go : α → Machine → Moment} (hgo : ∀ a m, (go a m).machine = m) :
    (Moment.evaluated o waiting go).machine = o.machine := by
  cases o with
  | done a m => exact hgo a m
  | thrown t m => rfl
  | stopped e m => rfl

/-- What a statement does when it is started costs nothing more. -/
theorem Stmt.sameClock_start (s : Stmt) (waiting : List Waiting) (m : Machine) :
    m.SameClock (s.start waiting m).machine := by
  cases hs : s.leaf? with
  | some f =>
    rw [Stmt.start_leaf hs]
    exact (Stmt.leaf?_timeless hs).sameClock m
  | none =>
    cases s with
    | ite test yes no span =>
      rw [Stmt.start, Moment.machine_evaluated fun v m' => ?_]
      · exact (Expr.eval_timeless test).sameClock m
      · split
        · rfl
        · cases no <;> rfl
    | switch discriminant cases span =>
      rw [Stmt.start, Moment.machine_evaluated fun chosen m' => ?_]
      · exact (Case.choose_timeless discriminant cases).sameClock m
      · cases chosen <;> rfl
    | block _ _ | loop _ _ _ | attempt _ _ _ _ | labeled _ _ _ => exact .refl m
    | _ => cases hs

/-- Nothing happens to the machine when a task that was waited for has ended. -/
theorem Waiting.machine_resume (w : Waiting) (waiting : List Waiting) (o : Outcome Flow) :
    (w.resume waiting o).machine = o.machine := by
  cases w with
  | behind all ss =>
    rcases o with ⟨_ | _ | _ | _ | label, m⟩ | _ | _
    case done.goto =>
      rw [Waiting.resume]
      cases Stmt.seek label all <;> rfl
    all_goals rfl
  | round test body => rcases o with ⟨_ | _ | _ | _ | _, m⟩ | _ | _ <;> rfl
  | handler clause =>
    cases clause with
    | none => cases o <;> rfl
    | some h =>
      cases o with
      | thrown t m =>
        rw [Waiting.resume]
        split <;> rfl
      | done flow m => rfl
      | stopped e m => rfl
  | cleanup clause => cases o <;> cases clause <;> rfl
  | cleaned before => rcases o with ⟨_ | _, m⟩ | _ | _ <;> cases before <;> rfl
  | switch => exact Outcome.machine_leaveSwitch o

namespace Moment

/-- The statement that is about to be started. -/
def statement? : Moment → Option Stmt
  | .running (.stmt s) _ _ => some s
  | _ => none

/-- **The clock counts the statements that are started**, and nothing else. -/
theorem clock_next (p : Moment) :
    (if p.statement?.isSome then p.machine.tick else p.machine).SameClock p.next.machine := by
  cases p with
  | running task waiting m =>
    rw [next]
    cases task with
    | stmt s =>
      show m.tick.SameClock (Task.start waiting m (.stmt s)).machine
      rw [Task.start]
      split
      · exact s.sameClock_start waiting m.tick
      · exact .refl _
    | rest all ss => cases ss <;> exact .refl m
    | loop test body =>
      rw [Task.start, machine_evaluated fun v m' => ?_]
      · exact (Expr.eval_timeless test).sameClock m
      · split <;> rfl
    | tried body handler => exact .refl m
  | ended o waiting =>
    cases waiting with
    | nil => exact .refl _
    | cons w waiting =>
      rw [next, Waiting.machine_resume]
      exact .refl _

theorem clockOn_next (p : Moment) : p.machine.ClockOn p.next.machine := by
  have h := p.clock_next.clockOn
  split at h
  · exact (Machine.ClockOn.tick _).trans h
  · exact h

/-- The clock runs on, from each moment to all later ones. -/
theorem LeadsTo.clockOn {p q : Moment} (h : p.LeadsTo q) : p.machine.ClockOn q.machine :=
  h.induct (R := fun p q => p.machine.ClockOn q.machine) (fun _ => .refl _) .trans clockOn_next

/-- A statement is counted before anything else happens. -/
theorem LeadsTo.tick {s : Stmt} {waiting waiting' : List Waiting} {m : Machine} {o : Outcome Flow}
    (h : (running (.stmt s) waiting m).LeadsTo (.ended o waiting')) : m.tick.ClockOn o.machine := by
  obtain ⟨k, hk⟩ := h
  cases k with
  | zero => cases hk
  | succ k =>
    have hnext := (running (.stmt s) waiting m).clock_next.clockOn
    exact hnext.trans (LeadsTo.clockOn (q := .ended o waiting') ⟨k, hk⟩)

end Moment

/-! ## Budgets -/

/-- The steps that a machine has left. -/
def Machine.budget (m : Machine) : Nat := m.stepLimit - m.steps

theorem Machine.SameClock.budget {m m' : Machine} (h : m.SameClock m') : m'.budget = m.budget := by
  rw [Machine.budget, h.1, h.2, Machine.budget]

theorem Machine.budget_tick {m : Machine} {n : Nat} (h : m.budget = n + 1) : m.tick.budget = n := by
  rw [Machine.budget, Machine.steps_tick, Nat.sub_add_eq]
  exact congrArg (· - 1) h

/-- What is left of a budget is what the later machine has left of its steps. -/
theorem Machine.ClockOn.budget {m m' : Machine} (h : m.ClockOn m') :
    m'.budget = Machine.left m.budget m m' := by
  obtain ⟨hlimit, hsteps⟩ := h
  rw [Machine.left, Machine.budget, Machine.budget, hlimit]
  omega

/-! ## Every task comes to its end -/

/-- With the steps that its machine has left, a task comes to the end that it has with this budget. -/
def Task.EndsAt (n : Nat) (task : Task) : Prop :=
  ∀ (waiting : List Waiting) (m : Machine), m.budget = n →
    (Moment.running task waiting m).LeadsTo (.ended (task.exec n m) waiting)

namespace Moment

variable {n : Nat} {waiting : List Waiting} {m : Machine} {p q : Moment}

/-- A task that was waited for ends, and what waited for it goes on. -/
theorem LeadsTo.resume {w : Waiting} {o : Outcome Flow} (h : p.LeadsTo (.ended o (w :: waiting)))
    (h' : (w.resume waiting o).LeadsTo q) : p.LeadsTo q := h.trans (.head h')

/-- Evaluating takes no steps, so it leaves the whole budget to what goes on with the result. -/
theorem evaluated_leads_to {α : Type} {x : Eval α} {go : α → Machine → Moment}
    {f : α → Machine → Outcome Flow} (hx : x.Timeless) (hm : m.budget = n)
    (hgo : ∀ a m', m'.budget = n → (go a m').LeadsTo (.ended (f a m') waiting)) :
    (evaluated (x m) waiting go).LeadsTo (.ended ((x m).bind f) waiting) := by
  have hbudget := (hx.sameClock m).budget
  cases he : x m with
  | done a m' =>
    rw [he] at hbudget
    exact hgo a m' (hbudget.trans hm)
  | thrown t m' => exact .refl _
  | stopped e m' => exact .refl _

end Moment

section EndsAt

variable {n : Nat}

theorem Task.endsAt_ite (ih : ∀ task : Task, task.EndsAt n) {test : Expr} {yes : Stmt}
    {no : Option Stmt} {span : Span} {waiting : List Waiting} {m : Machine}
    (hm : m.tick.budget = n) :
    ((Stmt.ite test yes no span).start waiting m.tick).LeadsTo
      (.ended ((Stmt.ite test yes no span).exec (n + 1) m) waiting) := by
  rw [Stmt.exec_ite]
  refine Moment.evaluated_leads_to (Expr.eval_timeless test) hm fun v m' hm' => ?_
  by_cases hv : v.truthy = true
  · rw [if_pos hv, if_pos hv]
    exact ih (.stmt yes) waiting m' hm'
  · rw [if_neg hv, if_neg hv]
    cases no with
    | none => exact .refl _
    | some s => exact ih (.stmt s) waiting m' hm'

theorem Task.endsAt_switch (ih : ∀ task : Task, task.EndsAt n) {discriminant : Expr}
    {cases : List Case} {span : Span} {waiting : List Waiting} {m : Machine}
    (hm : m.tick.budget = n) :
    ((Stmt.switch discriminant cases span).start waiting m.tick).LeadsTo
      (.ended ((Stmt.switch discriminant cases span).exec (n + 1) m) waiting) := by
  rw [Stmt.exec_switch]
  refine Moment.evaluated_leads_to (Case.choose_timeless discriminant cases) hm fun chosen m' hm' => ?_
  cases chosen with
  | none => exact .refl _
  | some body => exact (ih (.rest body.stmts body.stmts) (.switch :: waiting) m' hm').resume (.refl _)

/-- The cleanup of a try runs with what is left, and then the try ends as it did or as the cleanup. -/
theorem Task.endsAt_cleanup (ih : ∀ k ≤ n, ∀ task : Task, task.EndsAt k) {cleanup : Block}
    {waiting : List Waiting} {m : Machine} {o : Outcome Flow} (hclock : m.ClockOn o.machine)
    (hm : m.budget = n) :
    ((Waiting.cleanup (some cleanup)).resume waiting o).LeadsTo
      (.ended (o.andCleanup fun m' =>
        Stmt.execFrom (Machine.left n m m') cleanup.stmts cleanup.stmts m') waiting) := by
  -- whatever waits for the cleanup, the cleanup comes to its end
  have hrest := fun w => ih _ (Machine.left_le n m o.machine) (.rest cleanup.stmts cleanup.stmts)
    (w :: waiting) o.machine (hm ▸ hclock.budget)
  cases o with
  | stopped e m' => exact .refl _
  | done flow m' =>
    refine (hrest (.cleaned (.ok flow))).resume ?_
    rw [Outcome.andCleanup, Task.exec, Outcome.machine]
    rcases Stmt.execFrom (Machine.left n m m') cleanup.stmts cleanup.stmts m' with
      ⟨_ | _, _⟩ | _ | _ <;> exact .refl _
  | thrown t m' =>
    refine (hrest (.cleaned (.error t))).resume ?_
    rw [Outcome.andCleanup, Task.exec, Outcome.machine]
    rcases Stmt.execFrom (Machine.left n m m') cleanup.stmts cleanup.stmts m' with
      ⟨_ | _, _⟩ | _ | _ <;> exact .refl _

theorem Task.endsAt_stmt (ih : ∀ k < n, ∀ task : Task, task.EndsAt k) (s : Stmt) :
    (Task.stmt s).EndsAt n := by
  intro waiting m hm
  refine .head ?_
  rw [Moment.next, Task.start, Task.exec]
  cases n with
  | zero =>
    rw [if_neg (Nat.not_lt.mpr (Nat.sub_eq_zero_iff_le.mp hm)), Stmt.exec_zero]
    exact .refl _
  | succ n =>
    have hm' := Machine.budget_tick hm
    have ihn := ih n (Nat.lt_succ_self n)
    rw [if_pos (Nat.lt_of_sub_eq_succ hm)]
    cases hs : s.leaf? with
    | some f =>
      rw [Stmt.start_leaf hs, Stmt.exec_leaf hs]
      exact .refl _
    | none =>
      cases s with
      | block b span =>
        rw [Stmt.exec_block]
        exact ihn (.rest b.stmts b.stmts) waiting m.tick hm'
      | labeled label body span =>
        rw [Stmt.exec_labeled]
        exact ihn (.stmt body) waiting m.tick hm'
      | loop test body span =>
        rw [Stmt.exec_loop]
        exact ihn (.loop test body) waiting m.tick hm'
      | ite test yes no span => exact Task.endsAt_ite ihn hm'
      | switch discriminant cases span => exact Task.endsAt_switch ihn hm'
      | attempt body handler cleanup span =>
        have htried := ihn (.tried body handler) (.cleanup cleanup :: waiting) m.tick hm'
        -- The cleanup runs with the steps that the body has left, not with `n` of them.
        refine htried.resume ?_
        cases cleanup with
        | none =>
          rw [Stmt.exec_attempt, Task.exec]
          cases body.execTried n handler m.tick <;> exact .refl _
        | some c =>
          rw [Stmt.exec_attemptCleanup]
          exact Task.endsAt_cleanup (fun k hk => ih k (Nat.lt_succ_of_le hk)) htried.clockOn hm'
      | _ => cases hs

theorem Task.endsAt_rest (ih : ∀ k < n, ∀ task : Task, task.EndsAt k) (all ss : List Stmt) :
    (Task.rest all ss).EndsAt n := by
  intro waiting m hm
  refine .head ?_
  cases ss with
  | nil =>
    rw [Task.exec, Stmt.execFrom_nil]
    exact .refl _
  | cons s ss =>
    have hs := Task.endsAt_stmt ih s (.behind all ss :: waiting) m hm
    refine hs.resume ?_
    rw [Task.exec] at hs
    rw [Task.exec, Task.exec]
    cases n with
    | zero =>
      rw [Stmt.exec_zero, Stmt.execFrom_zero]
      exact .refl _
    | succ n =>
      have hm' := Machine.budget_tick hm
      have htick := hs.tick
      -- the statement was counted, so what follows has a smaller budget, also behind a jump backwards
      have hleft : ∀ m', m.tick.ClockOn m' → ∀ target,
          (Moment.running (.rest all target) waiting m').LeadsTo
            (.ended (Stmt.execFrom (Machine.left n m.tick m') all target m') waiting) :=
        fun m' hclock target => ih _ (Nat.lt_succ_of_le (Machine.left_le n m.tick m'))
          (.rest all target) waiting m' (hm' ▸ hclock.budget)
      rw [Stmt.execFrom_succ]
      generalize s.exec (n + 1) m = o at htick ⊢
      rcases o with ⟨f, m'⟩ | ⟨t, m'⟩ | ⟨e, m'⟩
      · cases f with
        | normal => exact hleft m' htick ss
        | goto label =>
          rw [Waiting.resume]
          simp only
          cases hseek : Stmt.seek label all with
          | nil => exact .refl _
          | cons t ts => exact hleft m' htick (t :: ts)
        | exit | next | ret _ => exact .refl _
      · exact .refl _
      · exact .refl _

/-- A loop looks at its condition, and then ends or has its body run for a round. -/
theorem Task.leads_to_round {test : Expr} {body : Stmt} {waiting : List Waiting} {m : Machine}
    {round : Machine → Outcome Flow} (hm : m.budget = n)
    (hround : ∀ m', m'.budget = n →
      (Moment.running (.stmt body) (.round test body :: waiting) m').LeadsTo (.ended (round m') waiting)) :
    ((Task.loop test body).start waiting m).LeadsTo (.ended ((test.eval m).bind fun v m' =>
      if v.truthy then round m' else .done .normal m') waiting) := by
  refine Moment.evaluated_leads_to (Expr.eval_timeless test) hm fun v m' hm' => ?_
  by_cases hv : v.truthy = true
  · rw [if_pos hv, if_pos hv]
    exact hround m' hm'
  · rw [if_neg hv, if_neg hv]
    exact .refl _

theorem Task.endsAt_loop (ih : ∀ k < n, ∀ task : Task, task.EndsAt k) (test : Expr) (body : Stmt) :
    (Task.loop test body).EndsAt n := by
  intro waiting m hm
  refine .head ?_
  cases n with
  | zero =>
    rw [Task.exec, Stmt.execLoop_zero]
    refine Task.leads_to_round hm fun m' hm' => ?_
    have hbody := Task.endsAt_stmt ih body (.round test body :: waiting) m' hm'
    rw [Task.exec, Stmt.exec_zero] at hbody
    exact hbody.resume (.refl _)
  | succ n =>
    rw [Task.exec, Stmt.execLoop_succ]
    refine Task.leads_to_round hm fun m' hm' => ?_
    have hbody := Task.endsAt_stmt ih body (.round test body :: waiting) m' hm'
    refine hbody.resume ?_
    have hm'' := Machine.budget_tick hm'
    have htick := hbody.tick
    rw [Task.exec] at htick ⊢
    -- the body was counted, so the next round has a smaller budget
    have hleft : ∀ m'', m'.tick.ClockOn m'' →
        (Moment.running (.loop test body) waiting m'').LeadsTo
          (.ended (Stmt.execLoop (Machine.left n m'.tick m'') test body m'') waiting) :=
      fun m'' hclock => ih _ (Nat.lt_succ_of_le (Machine.left_le n m'.tick m''))
        (.loop test body) waiting m'' (hm'' ▸ hclock.budget)
    generalize body.exec (n + 1) m' = o at htick ⊢
    rcases o with ⟨f, m''⟩ | ⟨t, m''⟩ | ⟨e, m''⟩
    · cases f with
      | normal => exact hleft m'' htick
      | next => exact hleft m'' htick
      | exit | goto _ | ret _ => exact .refl _
    · exact .refl _
    · exact .refl _

theorem Task.endsAt_tried (ih : ∀ k ≤ n, ∀ all ss : List Stmt, (Task.rest all ss).EndsAt k)
    (body : Block) (handler : Option Block) : (Task.tried body handler).EndsAt n := by
  intro waiting m hm
  have hbody := ih n (Nat.le_refl n) body.stmts body.stmts (.handler handler :: waiting) m hm
  refine .head (hbody.resume ?_)
  have hclock : m.ClockOn (Stmt.execFrom n body.stmts body.stmts m).machine := hbody.clockOn
  rw [Task.exec, Task.exec]
  unfold Block.execTried
  simp only [Block.exec]
  generalize Stmt.execFrom n body.stmts body.stmts m = o at hclock ⊢
  cases handler with
  | none => cases o <;> exact .refl _
  | some h =>
    cases o with
    | done f m' => exact .refl _
    | stopped e m' => exact .refl _
    | thrown t m' =>
      rw [Waiting.resume]
      simp only
      split
      · exact ih _ (Machine.left_le n m m') h.stmts h.stmts waiting m' (hm ▸ hclock.budget)
      · exact .refl _

end EndsAt

/-- **Every task comes to its end**, whatever its machine has left of its steps. -/
theorem Task.leads_to_exec (n : Nat) : ∀ task : Task, task.EndsAt n := by
  induction n using Nat.strongRecOn with
  | ind n ih =>
    intro task
    cases task with
    | stmt s => exact Task.endsAt_stmt ih s
    | rest all ss => exact Task.endsAt_rest ih all ss
    | loop test body => exact Task.endsAt_loop ih test body
    | tried body handler =>
      -- the body of a try has the whole budget of the try, so the induction hypothesis is not enough
      exact Task.endsAt_tried (fun k hk => Task.endsAt_rest fun j hj => ih j (Nat.lt_of_lt_of_le hj hk))
        body handler

/-! ## Whole runs -/

/-- A run that is over stays so. -/
theorem Moment.after_over (o : Outcome Flow) (n : Nat) : (Moment.ended o []).after n = .ended o [] := by
  induction n with
  | zero => rfl
  | succ n ih => exact ih

/-- Every run comes to its end. -/
theorem Machine.leads_to_run (m : Machine) (b : Block) :
    ∃ o, (Moment.first m b).LeadsTo (.ended o []) ∧ o.complete = m.run b := by
  refine ⟨_, Task.leads_to_exec m.budget (.rest b.stmts b.stmts) [] m rfl, ?_⟩
  rw [Machine.run, Block.exec]
  rfl

section Run

variable {m : Machine} {b : Block}

/-- A moment at which nothing waits for what has ended is the end of the run. -/
theorem Machine.run_of_over {o : Outcome Flow} (h : (Moment.first m b).LeadsTo (.ended o [])) :
    m.run b = o.complete := by
  obtain ⟨o', ⟨n, hn⟩, hrun⟩ := m.leads_to_run b
  obtain ⟨k, hk⟩ := h
  -- later than both moments the run is over in both ways
  have hover : (Moment.first m b).after (n + k) = .ended o' [] := by
    rw [Moment.after_add, hn, Moment.after_over]
  rw [Nat.add_comm, Moment.after_add, hk, Moment.after_over] at hover
  cases hover
  exact hrun.symm

/-- How a run was completed and the machine at its end, if it is over. -/
def Moment.completed? : Moment → Option (Completion × Machine)
  | .ended o [] => o.complete.1.toOption.map (·, o.complete.2)
  | _ => none

/-- How a run is completed, and what is then seen of its machine, is found by following the run for long
enough. -/
theorem Machine.run_completes {α : Type} (c : Completion) (view : Machine → α) {x : α} (n : Nat)
    (h : ((Moment.first m b).after n).completed?.map (Prod.map id view) = some (c, x)) :
    (m.run b).1 = .ok c ∧ view (m.run b).2 = x := by
  generalize hp : (Moment.first m b).after n = p at h
  cases p with
  | running task waiting m' => cases h
  | ended o waiting =>
    cases waiting with
    | cons w waiting => cases h
    | nil =>
      rw [run_of_over ⟨n, hp⟩]
      rw [Moment.completed?] at h
      generalize o.complete = r at h ⊢
      rcases r with ⟨_ | c', m'⟩
      · cases h
      · cases h
        exact ⟨rfl, rfl⟩

end Run

end Lowering
