import Lowering.Proofs.Eval.Ends

/-!
# Running with a budget

Running with a budget of steps and ending without counting them are the same, up to clocks:

* `Task.ends_of_exec` — a run that its budget suffices for ends like that
* `Ends.exists_budget` — what ends is reached with every budget that is large enough

The second bounds the steps that a run takes by the budget that it finds, so that the budgets of
parts add up to a budget of the whole. `Block.ends_of_run` and `Block.run_of_ends` say the same of
running a body to its completion.
-/

namespace Lowering

/-! ## Running with a budget, rule by rule -/

namespace Outcome

/-- Whether the budget did not suffice. -/
def outOfSteps {α : Type} : Outcome α → Bool
  | .stopped (.stepLimit _) _ => true
  | _ => false

end Outcome

/-- Runs a try without its cleanup. -/
def Block.execTried (budget : Nat) (body : Block) (handler : Option Block) (m : Machine) :
    Outcome Flow :=
  match body.exec budget m, handler with
  | .thrown t m', some h =>
    if t.catchable then h.exec (Machine.left budget m m') m' else .thrown t m'
  | o, _ => o

/-- Runs a task. -/
def Task.exec (budget : Nat) : Task → Machine → Outcome Flow
  | .stmt s, m => s.exec budget m
  | .rest all ss, m => Stmt.execFrom budget all ss m
  | .loop test body, m => Stmt.execLoop budget test body m
  | .tried body handler, m => body.execTried budget handler m

namespace Stmt

variable {n : Nat} {m : Machine} {span : Span}

/-- Without budget, a statement is one too many. -/
theorem exec_zero (s : Stmt) : s.exec 0 m = .stopped (.stepLimit m.stepLimit) m.tick := by
  rw [Stmt.exec]

/-- A statement that holds no other takes one step. -/
theorem exec_leaf {s : Stmt} {f : Eval Flow} (hs : s.leaf? = some f) :
    s.exec (n + 1) m = f m.tick := by
  cases s <;> simp only [leaf?, Option.some.injEq, reduceCtorEq] at hs <;> subst hs <;>
    rw [Stmt.exec] <;> rfl

theorem exec_block {b : Block} :
    (Stmt.block b span).exec (n + 1) m = execFrom n b.stmts b.stmts m.tick := by
  rw [Stmt.exec, Block.exec]

theorem exec_labeled {label : String} {body : Stmt} :
    (Stmt.labeled label body span).exec (n + 1) m = body.exec n m.tick := by
  rw [Stmt.exec]

/-- The branch that is chosen has one step less. -/
theorem exec_ite {test : Expr} {yes : Stmt} {no : Option Stmt} :
    (Stmt.ite test yes no span).exec (n + 1) m =
      (test.eval m.tick).bind fun v m' =>
        if v.truthy then yes.exec n m'
        else
          match no with
          | some s' => s'.exec n m'
          | none => .done .normal m' :=
  (Stmt.exec.eq_def _ _ _).trans rfl

theorem exec_loop {test : Expr} {body : Stmt} :
    (Stmt.loop test body span).exec (n + 1) m = execLoop n test body m.tick := by
  rw [Stmt.exec]

theorem exec_attempt {body : Block} {handler : Option Block} :
    (Stmt.attempt body handler none span).exec (n + 1) m = body.execTried n handler m.tick := by
  rw [Stmt.exec.eq_def]
  rfl

/-- The cleanup has the steps that the try has left. -/
theorem exec_attemptCleanup {body cleanup : Block} {handler : Option Block} :
    (Stmt.attempt body handler (some cleanup) span).exec (n + 1) m =
      (body.execTried n handler m.tick).andCleanup fun m' =>
        execFrom (Machine.left n m.tick m') cleanup.stmts cleanup.stmts m' := by
  rw [Stmt.exec.eq_def]
  simp only [← Block.exec.eq_def]
  rfl

theorem exec_switch {discriminant : Expr} {cases : List Case} :
    (Stmt.switch discriminant cases span).exec (n + 1) m =
      (Case.choose discriminant cases m.tick).bind fun chosen m' =>
        match chosen with
        | some body => (execFrom n body.stmts body.stmts m').leaveSwitch
        | none => .done .normal m' := by
  rw [Stmt.exec, Case.choose, Eval.bind_apply]
  cases discriminant.eval m.tick with
  | done v m' =>
    simp only [Outcome.bind_done, Block.exec]
    rfl
  | thrown t m' => rfl
  | stopped e m' => rfl

theorem execFrom_nil {all : List Stmt} : execFrom n all [] m = .done .normal m := by
  rw [execFrom]

/-- Without budget, the next statement of a block is one too many. -/
theorem execFrom_zero {all rest : List Stmt} {s : Stmt} :
    execFrom 0 all (s :: rest) m = .stopped (.stepLimit m.stepLimit) m.tick := by
  rw [execFrom, exec_zero]

/-- The statement at hand, and then what follows it, with what is left of the budget. -/
theorem execFrom_succ {all rest : List Stmt} {s : Stmt} :
    execFrom (n + 1) all (s :: rest) m =
      match s.exec (n + 1) m with
      | .done .normal m' => execFrom (Machine.left n m.tick m') all rest m'
      | .done (.goto label) m' =>
        match Stmt.seek label all with
        | [] => .done (.goto label) m'
        | target => execFrom (Machine.left n m.tick m') all target m'
      | o => o := by
  rw [execFrom]
  rfl

/-- Without budget a loop can still end, if its test says so at once. -/
theorem execLoop_zero {test : Expr} {body : Stmt} :
    execLoop 0 test body m =
      (test.eval m).bind fun v m' =>
        if v.truthy then .stopped (.stepLimit m'.stepLimit) m'.tick else .done .normal m' := by
  rw [execLoop]
  cases test.eval m with
  | done v m' => simp only [exec_zero, Outcome.bind_done]
  | thrown t m' => rfl
  | stopped e m' => rfl

/-- A round of a loop, and then the next, with what is left of the budget. -/
theorem execLoop_succ {test : Expr} {body : Stmt} :
    execLoop (n + 1) test body m =
      (test.eval m).bind fun v m' =>
        if v.truthy then
          match body.exec (n + 1) m' with
          | .done .normal m'' => execLoop (Machine.left n m'.tick m'') test body m''
          | .done .next m'' => execLoop (Machine.left n m'.tick m'') test body m''
          | .done .exit m'' => .done .normal m''
          | o => o
        else .done .normal m' := by
  rw [execLoop]
  cases test.eval m with
  | done v m' => rfl
  | thrown t m' => rfl
  | stopped e m' => rfl

end Stmt

namespace Outcome

/-- If a try with its cleanup has steps enough, so has the cleanup. -/
theorem outOfSteps_of_andCleanup {o o' : Outcome Flow} (ho : o.isStopped = false)
    (h : (o.andCleanup fun _ => o').outOfSteps = false) : o'.outOfSteps = false := by
  rcases o with _ | _ | _
  · rcases o' with ⟨_ | _, _⟩ | _ | _ <;> first | rfl | exact h
  · rcases o' with ⟨_ | _, _⟩ | _ | _ <;> first | rfl | exact h
  · cases ho

theorem outOfSteps_leaveSwitch (o : Outcome Flow) :
    o.leaveSwitch.outOfSteps = o.outOfSteps := by
  rcases o with ⟨_ | _, _⟩ | _ | _ <;> rfl

end Outcome

/-! ## A budget that suffices -/

/-- With this budget, every run that is not cut short ends like that. -/
def Task.SoundAt (n : Nat) : Prop :=
  ∀ (task : Task) (m : Machine), (task.exec n m).outOfSteps = false →
    Ends task m.untimed (task.exec n m).untimed

section Sound

variable {n : Nat}

theorem ends_of_exec_ite (ih : Task.SoundAt n) {test : Expr} {yes : Stmt} {no : Option Stmt}
    {span : Span} {m : Machine}
    (h : ((Stmt.ite test yes no span).exec (n + 1) m).outOfSteps = false) :
    Ends (.stmt (.ite test yes no span)) m.untimed
      ((Stmt.ite test yes no span).exec (n + 1) m).untimed := by
  have ht : test.eval m.untimed = (test.eval m.tick).untimed := (Expr.eval_timeless test).untimed m.tick
  rw [Stmt.exec_ite] at h ⊢
  cases he : test.eval m.tick with
  | thrown t m' =>
    rw [he] at ht
    exact .iteAbrupt (by rw [ht]; rfl)
  | stopped e m' =>
    rw [he] at ht
    exact .iteAbrupt (by rw [ht]; rfl)
  | done v m' =>
    rw [he] at ht h
    rw [Outcome.bind_done] at h ⊢
    by_cases hv : v.truthy = true
    · rw [if_pos hv] at h ⊢
      exact .iteYes ht hv (ih (.stmt yes) m' h)
    · have hv' : v.truthy = false := by simpa using hv
      rw [if_neg hv] at h ⊢
      cases no with
      | none => exact .iteSkip ht hv'
      | some s' => exact .iteNo ht hv' (ih (.stmt s') m' h)

theorem ends_of_exec_cleanup (ih : ∀ k < n + 1, Task.SoundAt k) {body cleanup : Block}
    {handler : Option Block} {span : Span} {m : Machine}
    (h : ((Stmt.attempt body handler (some cleanup) span).exec (n + 1) m).outOfSteps = false) :
    Ends (.stmt (.attempt body handler (some cleanup) span)) m.untimed
      ((Stmt.attempt body handler (some cleanup) span).exec (n + 1) m).untimed := by
  have htried := ih n (Nat.lt_succ_self n) (.tried body handler) m.tick
  rw [Stmt.exec_attemptCleanup] at h ⊢
  simp only [Task.exec] at htried
  generalize body.execTried n handler m.tick = o at h htried ⊢
  cases hstop : o.isStopped with
  | true =>
    cases o with
    | stopped e m' => exact .attemptStopped (htried h) rfl
    | done f m' => cases hstop
    | thrown t m' => cases hstop
  | false =>
    rw [Outcome.andCleanup_eq hstop] at h ⊢
    have hc := Outcome.outOfSteps_of_andCleanup hstop h
    rw [Outcome.andCleanup_untimed]
    have ho : o.outOfSteps = false := by cases o <;> first | rfl | cases hstop
    refine .attemptCleanup (htried ho) (by rw [Outcome.isStopped_untimed]; exact hstop) ?_
    rw [Outcome.machine_untimed]
    exact ih _ (Nat.lt_succ_of_le (Machine.left_le n m.tick o.machine))
      (.rest cleanup.stmts cleanup.stmts) o.machine hc

theorem ends_of_exec_switch (ih : Task.SoundAt n) {discriminant : Expr} {cases : List Case}
    {span : Span} {m : Machine}
    (h : ((Stmt.switch discriminant cases span).exec (n + 1) m).outOfSteps = false) :
    Ends (.stmt (.switch discriminant cases span)) m.untimed
      ((Stmt.switch discriminant cases span).exec (n + 1) m).untimed := by
  have hc : Case.choose discriminant cases m.untimed =
      (Case.choose discriminant cases m.tick).untimed :=
    (Case.choose_timeless discriminant cases).untimed m.tick
  rw [Stmt.exec_switch] at h ⊢
  cases he : Case.choose discriminant cases m.tick with
  | thrown t m' =>
    rw [he] at hc
    exact .switchAbrupt (by rw [hc]; rfl)
  | stopped e m' =>
    rw [he] at hc
    exact .switchAbrupt (by rw [hc]; rfl)
  | done chosen m' =>
    rw [he] at hc h
    rw [Outcome.bind_done] at h ⊢
    cases chosen with
    | none => exact .switchSkip hc
    | some body =>
      rw [Outcome.leaveSwitch_untimed]
      rw [Outcome.outOfSteps_leaveSwitch] at h
      exact .switchRun hc (ih (.rest body.stmts body.stmts) m' h)

/-- A statement that has steps enough comes to the end that the rules say. -/
theorem ends_of_exec_stmt (ih : ∀ k < n, Task.SoundAt k) (s : Stmt) (m : Machine)
    (h : (s.exec n m).outOfSteps = false) : Ends (.stmt s) m.untimed (s.exec n m).untimed := by
  cases n with
  | zero =>
    rw [Stmt.exec_zero] at h
    cases h
  | succ n =>
    have ihn : Task.SoundAt n := ih n (Nat.lt_succ_self n)
    cases hs : s.leaf? with
    | some f =>
      rw [Stmt.exec_leaf hs] at h ⊢
      rw [← (Stmt.leaf?_timeless hs).untimed m.tick]
      exact .leaf hs
    | none =>
      cases s with
      | block b span =>
        rw [Stmt.exec_block] at h ⊢
        exact .block (ihn (.rest b.stmts b.stmts) m.tick h)
      | labeled label body span =>
        rw [Stmt.exec_labeled] at h ⊢
        exact .labeled (ihn (.stmt body) m.tick h)
      | loop test body span =>
        rw [Stmt.exec_loop] at h ⊢
        exact .loop (ihn (.loop test body) m.tick h)
      | ite test yes no span => exact ends_of_exec_ite ihn h
      | switch discriminant cases span => exact ends_of_exec_switch ihn h
      | attempt body handler cleanup span =>
        cases cleanup with
        | none =>
          rw [Stmt.exec_attempt] at h ⊢
          exact .attempt (ihn (.tried body handler) m.tick h)
        | some c => exact ends_of_exec_cleanup ih h
      | _ => cases hs

/-- A block is run statement by statement, and each jump has fewer steps left. -/
theorem ends_of_exec_rest (ih : ∀ k < n, Task.SoundAt k) (all rest : List Stmt) (m : Machine)
    (h : (Stmt.execFrom n all rest m).outOfSteps = false) :
    Ends (.rest all rest) m.untimed (Stmt.execFrom n all rest m).untimed := by
  cases rest with
  | nil =>
    rw [Stmt.execFrom_nil]
    exact .nil
  | cons s rest =>
    have hs := ends_of_exec_stmt ih s m
    cases n with
    | zero =>
      rw [Stmt.execFrom_zero] at h
      cases h
    | succ n =>
      rw [Stmt.execFrom_succ] at h ⊢
      have hleft : ∀ m', Task.SoundAt (Machine.left n m.tick m') :=
        fun m' => ih _ (Nat.lt_succ_of_le (Machine.left_le n m.tick m'))
      generalize s.exec (n + 1) m = o at h hs ⊢
      rcases o with ⟨f, m'⟩ | ⟨t, m'⟩ | ⟨e, m'⟩
      · cases f with
        | normal => exact .step (hs rfl) (hleft m' (.rest all rest) m' h)
        | goto label =>
          simp only at h ⊢
          cases hseek : Stmt.seek label all with
          | nil => exact .jumpOut (hs rfl) hseek
          | cons t ts =>
            rw [hseek] at h
            refine .jump (hs rfl) (by rw [hseek]; simp) ?_
            rw [hseek]
            exact hleft m' (.rest all (t :: ts)) m' h
        | exit => exact .leave (hs rfl) rfl
        | next => exact .leave (hs rfl) rfl
        | ret v => exact .leave (hs rfl) rfl
      · exact .leave (hs rfl) rfl
      · exact .leave (hs h) rfl

/-- A loop is run round by round, and each round takes a step. -/
theorem ends_of_exec_loop (ih : ∀ k < n, Task.SoundAt k) (test : Expr) (body : Stmt) (m : Machine)
    (h : (Stmt.execLoop n test body m).outOfSteps = false) :
    Ends (.loop test body) m.untimed (Stmt.execLoop n test body m).untimed := by
  have ht := (Expr.eval_timeless test).untimed m
  have hs := ends_of_exec_stmt ih body
  cases n with
  -- With no steps left the test still runs; only a further round would run out of steps.
  | zero =>
    rw [Stmt.execLoop_zero] at h ⊢
    cases he : test.eval m with
    | thrown t m' => exact .loopAbrupt (by rw [ht, he]; rfl)
    | stopped e m' => exact .loopAbrupt (by rw [ht, he]; rfl)
    | done v m' =>
      rw [he] at ht h
      rw [Outcome.bind_done] at h ⊢
      by_cases hv : v.truthy = true
      · rw [if_pos hv] at h
        cases h
      · rw [if_neg hv]
        exact .loopDone ht (by simpa using hv)
  | succ n =>
    rw [Stmt.execLoop_succ] at h ⊢
    cases he : test.eval m with
    | thrown t m' => exact .loopAbrupt (by rw [ht, he]; rfl)
    | stopped e m' => exact .loopAbrupt (by rw [ht, he]; rfl)
    | done v m' =>
      rw [he] at ht h
      rw [Outcome.bind_done] at h ⊢
      by_cases hv : v.truthy = true
      · rw [if_pos hv] at h ⊢
        have hbody := hs m'
        have hleft : ∀ m'', Task.SoundAt (Machine.left n m'.tick m'') :=
          fun m'' => ih _ (Nat.lt_succ_of_le (Machine.left_le n m'.tick m''))
        -- Which rule applies depends only on how the body ended.
        generalize body.exec (n + 1) m' = o at h hbody ⊢
        rcases o with ⟨f, m''⟩ | ⟨t, m''⟩ | ⟨e, m''⟩
        · cases f with
          | normal => exact .loopAgain ht hv (hbody rfl) rfl (hleft m'' (.loop test body) m'' h)
          | next => exact .loopAgain ht hv (hbody rfl) rfl (hleft m'' (.loop test body) m'' h)
          | exit => exact .loopExit ht hv (hbody rfl)
          | goto label => exact .loopLeave ht hv (hbody rfl) rfl
          | ret v => exact .loopLeave ht hv (hbody rfl) rfl
        · exact .loopLeave ht hv (hbody rfl) rfl
        · exact .loopLeave ht hv (hbody h) rfl
      · rw [if_neg hv]
        exact .loopDone ht (by simpa using hv)

theorem ends_of_exec_tried (ih : ∀ k ≤ n, ∀ (all rest : List Stmt) (m : Machine),
      (Stmt.execFrom k all rest m).outOfSteps = false →
        Ends (.rest all rest) m.untimed (Stmt.execFrom k all rest m).untimed)
    (body : Block) (handler : Option Block) (m : Machine)
    (h : (body.execTried n handler m).outOfSteps = false) :
    Ends (.tried body handler) m.untimed (body.execTried n handler m).untimed := by
  have hbody := ih n (Nat.le_refl n) body.stmts body.stmts m
  unfold Block.execTried at h ⊢
  simp only [Block.exec] at h ⊢
  generalize Stmt.execFrom n body.stmts body.stmts m = o at h hbody ⊢
  cases handler with
  | none =>
    cases o with
    | done f m' => exact .untried (hbody rfl)
    | thrown t m' => exact .untried (hbody rfl)
    | stopped e m' => exact .untried (hbody h)
  | some c =>
    rcases o with ⟨f, m'⟩ | ⟨t, m'⟩ | ⟨e, m'⟩
    · exact .uncaught (hbody rfl) rfl
    · simp only at h ⊢
      by_cases hc : t.catchable = true
      · rw [if_pos hc] at h ⊢
        exact .caught (hbody rfl) hc (ih _ (Machine.left_le n m m') c.stmts c.stmts m' h)
      · rw [if_neg hc]
        exact .uncaught (hbody rfl) (Bool.eq_false_iff.mpr hc)
    · exact .uncaught (hbody h) rfl

end Sound

/-- **Whatever has steps enough comes to the end that the rules say.** -/
theorem Task.soundAt (n : Nat) : Task.SoundAt n := by
  induction n using Nat.strongRecOn with
  | ind n ih =>
    intro task m h
    cases task with
    | stmt s => exact ends_of_exec_stmt ih s m h
    | rest all ss => exact ends_of_exec_rest ih all ss m h
    | loop test body => exact ends_of_exec_loop ih test body m h
    | tried body handler =>
      refine ends_of_exec_tried (fun k hk => ?_) body handler m h
      exact ends_of_exec_rest fun j hj => ih j (Nat.lt_of_lt_of_le hj hk)

/-- **A run that its budget suffices for ends like that.** -/
theorem Task.ends_of_exec {n : Nat} {task : Task} {m : Machine}
    (h : (task.exec n m).outOfSteps = false) : Ends task m.untimed (task.exec n m).untimed :=
  Task.soundAt n task m h

/-! ## Budgets that are large enough -/

/-- With every budget from `n` on, the task ends like that, after at most `n` steps. -/
def Task.Within (n : Nat) (task : Task) (m : Machine) (o : Outcome Flow) : Prop :=
  ∀ k ≥ n, ∀ m₁ : Machine, m₁.untimed = m →
    (task.exec k m₁).untimed = o ∧ (task.exec k m₁).machine.steps ≤ m₁.steps + n

namespace Outcome

variable {α β : Type}

/-- What is done without a clock is done with one. -/
theorem eq_done_of_untimed {o : Outcome α} {a : α} {m : Machine} (h : o.untimed = .done a m) :
    ∃ m₁, o = .done a m₁ ∧ m₁.untimed = m := by
  cases o with
  | done b m₁ =>
    rw [untimed_done, done.injEq] at h
    exact ⟨m₁, by rw [h.1], h.2⟩
  | thrown t m₁ => cases h
  | stopped e m₁ => cases h

theorem eq_thrown_of_untimed {o : Outcome α} {t : Thrown} {m : Machine}
    (h : o.untimed = .thrown t m) : ∃ m₁, o = .thrown t m₁ ∧ m₁.untimed = m := by
  cases o with
  | thrown t' m₁ =>
    rw [untimed_thrown, thrown.injEq] at h
    exact ⟨m₁, by rw [h.1], h.2⟩
  | done b m₁ => cases h
  | stopped e m₁ => cases h

theorem machine_andCleanup {o : Outcome Flow} (ho : o.isStopped = false) (o' : Outcome Flow) :
    (o.andCleanup fun _ => o').machine = o'.machine := by
  rcases o with _ | _ | _
  · rcases o' with ⟨_ | _, _⟩ | _ | _ <;> rfl
  · rcases o' with ⟨_ | _, _⟩ | _ | _ <;> rfl
  · cases ho

theorem machine_leaveSwitch (o : Outcome Flow) : o.leaveSwitch.machine = o.machine := by
  rcases o with ⟨_ | _, _⟩ | _ | _ <;> rfl

end Outcome

namespace Eval.Timeless

variable {α β : Type} {x : Eval α}

/-- Evaluating an expression takes no step, so its clock is the one that it started with. -/
theorem done_of_untimed (hx : Timeless x) {m m' : Machine} {a : α} (h : x m.untimed = .done a m') :
    ∃ m₁, x m = .done a m₁ ∧ m₁.untimed = m' ∧ m₁.steps = m.steps := by
  rw [hx.untimed] at h
  obtain ⟨m₁, he, hm⟩ := Outcome.eq_done_of_untimed h
  refine ⟨m₁, he, hm, ?_⟩
  rw [← hx.steps_eq m, he]
  rfl

/-- Evaluating that is cut short is so with every clock. -/
theorem bind_of_untimed (hx : Timeless x) {m : Machine} {o : Outcome β}
    (h : (x m.untimed).abrupt? = some o) (f : α → Machine → Outcome β) :
    ((x m).bind f).untimed = o ∧ ((x m).bind f).machine.steps = m.steps := by
  rw [hx.untimed, Outcome.abrupt?_untimed, Option.map_eq_some_iff] at h
  obtain ⟨o', ho', rfl⟩ := h
  obtain ⟨hb, hm⟩ := Outcome.bind_of_abrupt ho' f
  rw [hb]
  exact ⟨rfl, by rw [hm, hx.steps_eq]⟩

end Eval.Timeless

/-- What is left of a budget is enough for the second part if the whole was enough for both. -/
theorem Machine.le_left {a b k : Nat} {m m' : Machine} (h : m'.steps ≤ m.steps + a)
    (hk : a + b ≤ k) : b ≤ Machine.left k m m' := by
  unfold Machine.left
  omega

section Within

variable {n n' : Nat} {m m' : Machine} {o o' : Outcome Flow}

/-- A statement costs one step more than what it runs. -/
theorem Task.Within.stmt {task : Task} {s : Stmt} (h : task.Within n m o)
    (hs : ∀ k m₁, s.exec (k + 1) m₁ = task.exec k m₁.tick) : (Task.stmt s).Within (n + 1) m o := by
  intro k hk m₁ hm
  obtain ⟨j, rfl⟩ : ∃ j, k = j + 1 := ⟨k - 1, by omega⟩
  obtain ⟨he, hsteps⟩ := h j (by omega) m₁.tick hm
  show (s.exec (j + 1) m₁).untimed = o ∧ (s.exec (j + 1) m₁).machine.steps ≤ _
  rw [hs]
  refine ⟨he, ?_⟩
  rw [Machine.steps_tick] at hsteps
  omega

/-- One step is enough for a statement that holds no other. -/
theorem within_leaf {s : Stmt} {f : Eval Flow} (hs : s.leaf? = some f) :
    (Task.stmt s).Within 1 m (f m) := by
  intro k hk m₁ hm
  obtain ⟨j, rfl⟩ : ∃ j, k = j + 1 := ⟨k - 1, by omega⟩
  show (s.exec (j + 1) m₁).untimed = _ ∧ (s.exec (j + 1) m₁).machine.steps ≤ _
  rw [Stmt.exec_leaf hs, ← (Stmt.leaf?_timeless hs).untimed, (Stmt.leaf?_timeless hs).steps_eq,
    Machine.untimed_tick, hm, Machine.steps_tick]
  exact ⟨rfl, Nat.le_refl _⟩

variable {α : Type} {x : Eval α} {s : Stmt} {f : Nat → α → Machine → Outcome Flow}

/-- A statement that evaluates something first ends with it if that is cut short. -/
theorem within_abrupt (hx : x.Timeless) (h : (x m).abrupt? = some o)
    (hs : ∀ k m₁, s.exec (k + 1) m₁ = (x m₁.tick).bind (f k)) : (Task.stmt s).Within 1 m o := by
  intro k hk m₁ hm
  obtain ⟨j, rfl⟩ : ∃ j, k = j + 1 := ⟨k - 1, by omega⟩
  rw [← hm, ← Machine.untimed_tick] at h
  obtain ⟨he, hsteps⟩ := hx.bind_of_untimed h (f j)
  simp only [Task.exec, hs]
  exact ⟨he, Nat.le_of_eq (by rw [hsteps, Machine.steps_tick])⟩

/-- A statement that evaluates something first goes on with the result. -/
theorem within_done {a : α} (hx : x.Timeless) (h : x m = .done a m')
    (hs : ∀ k m₁, s.exec (k + 1) m₁ = (x m₁.tick).bind (f k))
    (hf : ∀ k ≥ n, ∀ m₂, m₂.untimed = m' →
      (f k a m₂).untimed = o ∧ (f k a m₂).machine.steps ≤ m₂.steps + n) :
    (Task.stmt s).Within (n + 1) m o := by
  intro k hk m₁ hm
  obtain ⟨j, rfl⟩ : ∃ j, k = j + 1 := ⟨k - 1, by omega⟩
  rw [← hm, ← Machine.untimed_tick] at h
  obtain ⟨m₂, he, hm₂, hsteps⟩ := hx.done_of_untimed h
  obtain ⟨h₁, h₂⟩ := hf j (by omega) m₂ hm₂
  simp only [Task.exec, hs, he, Outcome.bind_done]
  rw [Machine.steps_tick] at hsteps
  exact ⟨h₁, by omega⟩

/-- Nothing is cleaned up after a stop. -/
theorem within_stopped {body cleanup : Block} {handler : Option Block} {span : Span}
    (h : (Task.tried body handler).Within n m o) (ho : o.isStopped = true) :
    (Task.stmt (.attempt body handler (some cleanup) span)).Within (n + 1) m o := by
  intro k hk m₁ hm
  obtain ⟨j, rfl⟩ : ∃ j, k = j + 1 := ⟨k - 1, by omega⟩
  obtain ⟨he, hsteps⟩ := h j (by omega) m₁.tick hm
  simp only [Task.exec] at he hsteps ⊢
  rw [Stmt.exec_attemptCleanup]
  generalize body.execTried j handler m₁.tick = o₁ at he hsteps ⊢
  subst he
  rw [Machine.steps_tick] at hsteps
  cases o₁ with
  | stopped e m₂ => exact ⟨rfl, by rw [Outcome.andCleanup]; omega⟩
  | done f m₂ => cases ho
  | thrown t m₂ => cases ho

/-- A try and its cleanup run one after the other. -/
theorem within_cleanup {body cleanup : Block} {handler : Option Block} {span : Span}
    (h : (Task.tried body handler).Within n m o) (ho : o.isStopped = false)
    (h' : (Task.rest cleanup.stmts cleanup.stmts).Within n' o.machine o') :
    (Task.stmt (.attempt body handler (some cleanup) span)).Within (n + n' + 1) m
      (o.andCleanup fun _ => o') := by
  intro k hk m₁ hm
  obtain ⟨j, rfl⟩ : ∃ j, k = j + 1 := ⟨k - 1, by omega⟩
  obtain ⟨he, hsteps⟩ := h j (by omega) m₁.tick hm
  simp only [Task.exec] at he hsteps ⊢
  rw [Stmt.exec_attemptCleanup]
  generalize body.execTried j handler m₁.tick = o₁ at he hsteps ⊢
  subst he
  rw [Outcome.isStopped_untimed] at ho
  rw [Outcome.machine_untimed] at h'
  have hb : n' ≤ Machine.left j m₁.tick o₁.machine := Machine.le_left hsteps (by omega)
  obtain ⟨he', hsteps'⟩ := h' _ hb o₁.machine rfl
  simp only [Task.exec] at he' hsteps'
  rw [Outcome.andCleanup_eq ho, Outcome.andCleanup_untimed, he', Outcome.machine_andCleanup ho]
  rw [Machine.steps_tick] at hsteps
  exact ⟨rfl, by omega⟩

/-- A try whose handler runs needs the steps of its body and those of the handler. -/
theorem within_caught {body handler : Block} {t : Thrown}
    (h : (Task.rest body.stmts body.stmts).Within n m (.thrown t m')) (ht : t.catchable = true)
    (h' : (Task.rest handler.stmts handler.stmts).Within n' m' o) :
    (Task.tried body (some handler)).Within (n + n') m o := by
  intro k hk m₁ hm
  obtain ⟨he, hsteps⟩ := h k (by omega) m₁ hm
  obtain ⟨m₂, he₂, hm₂⟩ := Outcome.eq_thrown_of_untimed he
  rw [he₂, Outcome.machine] at hsteps
  have hb : n' ≤ Machine.left k m₁ m₂ := Machine.le_left hsteps (by omega)
  obtain ⟨he', hsteps'⟩ := h' _ hb m₂ hm₂
  have hx : (Task.tried body (some handler)).exec k m₁ =
      (Task.rest handler.stmts handler.stmts).exec (Machine.left k m₁ m₂) m₂ := by
    simp only [Task.exec] at he₂ ⊢
    simp only [Block.execTried, Block.exec, he₂, ht, if_true]
  rw [hx]
  exact ⟨he', by omega⟩

theorem within_uncaught {body : Block} {handler : Option Block}
    (h : (Task.rest body.stmts body.stmts).Within n m o)
    (ho : handler = none ∨ o.catchable = false) : (Task.tried body handler).Within n m o := by
  intro k hk m₁ hm
  have hx : (Task.tried body handler).exec k m₁ = (Task.rest body.stmts body.stmts).exec k m₁ := by
    obtain ⟨he, -⟩ := h k hk m₁ hm
    simp only [Task.exec] at he ⊢
    unfold Block.execTried
    rw [Block.exec]
    generalize Stmt.execFrom k body.stmts body.stmts m₁ = o₁ at he ⊢
    subst he
    rw [Outcome.catchable_untimed] at ho
    rcases ho with rfl | ho
    · cases o₁ <;> rfl
    · cases handler with
      | none => cases o₁ <;> rfl
      | some c =>
        cases o₁ with
        | thrown t m' => exact if_neg (Bool.eq_false_iff.mp ho)
        | done f m' => rfl
        | stopped e m' => rfl
  rw [hx]
  exact h k hk m₁ hm

/-- Two statements need the steps of both. -/
theorem within_step {all rest : List Stmt} (h : (Task.stmt s).Within n m (.done .normal m'))
    (h' : (Task.rest all rest).Within n' m' o) :
    (Task.rest all (s :: rest)).Within (n + n' + 1) m o := by
  intro k hk m₁ hm
  obtain ⟨j, rfl⟩ : ∃ j, k = j + 1 := ⟨k - 1, by omega⟩
  obtain ⟨he, hsteps⟩ := h (j + 1) (by omega) m₁ hm
  obtain ⟨m₂, he₂, hm₂⟩ := Outcome.eq_done_of_untimed he
  rw [he₂, Outcome.machine] at hsteps
  have hb : n' ≤ Machine.left j m₁.tick m₂ :=
    Machine.le_left (a := n) (by rw [Machine.steps_tick]; omega) (by omega)
  obtain ⟨he', hsteps'⟩ := h' _ hb m₂ hm₂
  simp only [Task.exec] at he₂ he' hsteps' ⊢
  rw [Stmt.execFrom_succ, he₂]
  exact ⟨he', by simp only; omega⟩

/-- A jump needs the steps up to it and those from its target on. -/
theorem within_jump {all rest : List Stmt} {label : String}
    (h : (Task.stmt s).Within n m (.done (.goto label) m')) (hl : Stmt.seek label all ≠ [])
    (h' : (Task.rest all (Stmt.seek label all)).Within n' m' o) :
    (Task.rest all (s :: rest)).Within (n + n' + 1) m o := by
  intro k hk m₁ hm
  obtain ⟨j, rfl⟩ : ∃ j, k = j + 1 := ⟨k - 1, by omega⟩
  obtain ⟨he, hsteps⟩ := h (j + 1) (by omega) m₁ hm
  obtain ⟨m₂, he₂, hm₂⟩ := Outcome.eq_done_of_untimed he
  rw [he₂, Outcome.machine] at hsteps
  have hb : n' ≤ Machine.left j m₁.tick m₂ :=
    Machine.le_left (a := n) (by rw [Machine.steps_tick]; omega) (by omega)
  obtain ⟨he', hsteps'⟩ := h' _ hb m₂ hm₂
  simp only [Task.exec] at he₂ he' hsteps' ⊢
  rw [Stmt.execFrom_succ, he₂]
  simp only
  cases hseek : Stmt.seek label all with
  | nil => exact absurd hseek hl
  | cons t ts =>
    rw [hseek] at he' hsteps'
    exact ⟨he', by omega⟩

/-- A block ends with a statement that neither falls through nor jumps inside the block. -/
theorem within_leave {all rest : List Stmt} (h : (Task.stmt s).Within n m o)
    (ho : o.leavesBlock = true ∨
      ∃ label m', o = .done (.goto label) m' ∧ Stmt.seek label all = []) :
    (Task.rest all (s :: rest)).Within (n + 1) m o := by
  intro k hk m₁ hm
  obtain ⟨j, rfl⟩ : ∃ j, k = j + 1 := ⟨k - 1, by omega⟩
  obtain ⟨he, hsteps⟩ := h (j + 1) (by omega) m₁ hm
  simp only [Task.exec] at he hsteps ⊢
  rw [Stmt.execFrom_succ]
  rcases ho with ho | ⟨label, m', ho, hl⟩
  · generalize s.exec (j + 1) m₁ = o₁ at he hsteps ⊢
    subst he
    rw [Outcome.leavesBlock_untimed] at ho
    have hle : o₁.machine.steps ≤ m₁.steps + (n + 1) := by omega
    rcases o₁ with ⟨f, m₂⟩ | ⟨t, m₂⟩ | ⟨e, m₂⟩
    · cases f with
      | normal => cases ho
      | goto label => cases ho
      | exit => exact ⟨rfl, hle⟩
      | next => exact ⟨rfl, hle⟩
      | ret v => exact ⟨rfl, hle⟩
    · exact ⟨rfl, hle⟩
    · exact ⟨rfl, hle⟩
  · rw [ho] at he
    obtain ⟨m₂, he₂, hm₂⟩ := Outcome.eq_done_of_untimed he
    rw [he₂] at hsteps ⊢
    simp only [hl]
    rw [ho, ← hm₂]
    exact ⟨rfl, by omega⟩

variable {test : Expr} {body : Stmt} {v : Value}

theorem within_loopAbrupt (h : (test.eval m).abrupt? = some o) :
    (Task.loop test body).Within 0 m o := by
  intro k hk m₁ hm
  rw [← hm] at h
  have hb := fun f => (Expr.eval_timeless test).bind_of_untimed h f
  cases k with
  | zero =>
    simp only [Task.exec, Stmt.execLoop_zero]
    exact ⟨(hb _).1, by rw [(hb _).2]; omega⟩
  | succ k =>
    simp only [Task.exec, Stmt.execLoop_succ]
    exact ⟨(hb _).1, by rw [(hb _).2]; omega⟩

theorem within_loopDone (h : test.eval m = .done v m') (hv : v.truthy = false) :
    (Task.loop test body).Within 0 m (.done .normal m') := by
  intro k hk m₁ hm
  rw [← hm] at h
  obtain ⟨m₂, he, hm₂, hsteps⟩ := (Expr.eval_timeless test).done_of_untimed h
  cases k with
  | zero =>
    simp only [Task.exec, Stmt.execLoop_zero, he, Outcome.bind_done, hv, Bool.false_eq_true, if_false]
    exact ⟨by rw [Outcome.untimed_done, hm₂], by rw [Outcome.machine, hsteps]; omega⟩
  | succ k =>
    simp only [Task.exec, Stmt.execLoop_succ, he, Outcome.bind_done, hv, Bool.false_eq_true, if_false]
    exact ⟨by rw [Outcome.untimed_done, hm₂], by rw [Outcome.machine, hsteps]; omega⟩

/-- A further round needs its own steps and those of all that follow. -/
theorem within_loopAgain {f : Flow} {m'' : Machine} (h : test.eval m = .done v m')
    (hv : v.truthy = true) (hb : (Task.stmt body).Within n m' (.done f m''))
    (hf : f.repeats = true) (h' : (Task.loop test body).Within n' m'' o) :
    (Task.loop test body).Within (n + n' + 1) m o := by
  intro k hk m₁ hm
  obtain ⟨j, rfl⟩ : ∃ j, k = j + 1 := ⟨k - 1, by omega⟩
  rw [← hm] at h
  obtain ⟨m₂, he, hm₂, hsteps⟩ := (Expr.eval_timeless test).done_of_untimed h
  obtain ⟨heb, hstepsb⟩ := hb (j + 1) (by omega) m₂ hm₂
  obtain ⟨m₃, he₃, hm₃⟩ := Outcome.eq_done_of_untimed heb
  rw [he₃, Outcome.machine] at hstepsb
  have hle : n' ≤ Machine.left j m₂.tick m₃ :=
    Machine.le_left (a := n) (by rw [Machine.steps_tick]; omega) (by omega)
  obtain ⟨he', hsteps'⟩ := h' _ hle m₃ hm₃
  simp only [Task.exec] at he₃ he' hsteps' ⊢
  simp only [Stmt.execLoop_succ, he, Outcome.bind_done, hv, if_true, he₃]
  cases f with
  | normal => exact ⟨he', by simp only; omega⟩
  | next => exact ⟨he', by simp only; omega⟩
  | exit => cases hf
  | goto label => cases hf
  | ret v => cases hf

theorem within_loopExit {m'' : Machine} (h : test.eval m = .done v m') (hv : v.truthy = true)
    (hb : (Task.stmt body).Within n m' (.done .exit m'')) :
    (Task.loop test body).Within (n + 1) m (.done .normal m'') := by
  intro k hk m₁ hm
  obtain ⟨j, rfl⟩ : ∃ j, k = j + 1 := ⟨k - 1, by omega⟩
  rw [← hm] at h
  obtain ⟨m₂, he, hm₂, hsteps⟩ := (Expr.eval_timeless test).done_of_untimed h
  obtain ⟨heb, hstepsb⟩ := hb (j + 1) (by omega) m₂ hm₂
  obtain ⟨m₃, he₃, hm₃⟩ := Outcome.eq_done_of_untimed heb
  rw [he₃, Outcome.machine] at hstepsb
  simp only [Task.exec] at he₃ ⊢
  simp only [Stmt.execLoop_succ, he, Outcome.bind_done, hv, if_true, he₃]
  exact ⟨by rw [Outcome.untimed_done, hm₃], by rw [Outcome.machine]; omega⟩

theorem within_loopLeave (h : test.eval m = .done v m') (hv : v.truthy = true)
    (hb : (Task.stmt body).Within n m' o) (ho : o.leavesLoop = true) :
    (Task.loop test body).Within (n + 1) m o := by
  intro k hk m₁ hm
  obtain ⟨j, rfl⟩ : ∃ j, k = j + 1 := ⟨k - 1, by omega⟩
  rw [← hm] at h
  obtain ⟨m₂, he, hm₂, hsteps⟩ := (Expr.eval_timeless test).done_of_untimed h
  obtain ⟨heb, hstepsb⟩ := hb (j + 1) (by omega) m₂ hm₂
  simp only [Task.exec] at heb hstepsb ⊢
  simp only [Stmt.execLoop_succ, he, Outcome.bind_done, hv, if_true]
  generalize body.exec (j + 1) m₂ = o₁ at heb hstepsb ⊢
  subst heb
  rw [Outcome.leavesLoop_untimed] at ho
  rcases o₁ with ⟨f, m₃⟩ | ⟨t, m₃⟩ | ⟨e, m₃⟩
  · cases f with
    | normal => cases ho
    | next => cases ho
    | exit => cases ho
    | goto label => exact ⟨rfl, by simp only; omega⟩
    | ret v => exact ⟨rfl, by simp only; omega⟩
  · exact ⟨rfl, by simp only; omega⟩
  · exact ⟨rfl, by simp only; omega⟩

end Within

/-- **What ends is reached with every budget that is large enough.** -/
theorem Ends.exists_budget {task : Task} {m : Machine} {o : Outcome Flow} (h : Ends task m o) :
    ∃ n, task.Within n m o := by
  -- A rule's budget is made of those of its premises; a statement costs one step on top.
  induction h with
  | leaf hs => exact ⟨1, within_leaf hs⟩
  | block _ ih =>
    obtain ⟨n, hn⟩ := ih
    exact ⟨n + 1, hn.stmt fun _ _ => Stmt.exec_block⟩
  | labeled _ ih =>
    obtain ⟨n, hn⟩ := ih
    exact ⟨n + 1, hn.stmt fun _ _ => Stmt.exec_labeled⟩
  | iteAbrupt ht => exact ⟨1, within_abrupt (Expr.eval_timeless _) ht fun _ _ => Stmt.exec_ite⟩
  | iteYes ht hv _ ih =>
    obtain ⟨n, hn⟩ := ih
    refine ⟨n + 1, within_done (Expr.eval_timeless _) ht (fun _ _ => Stmt.exec_ite) ?_⟩
    simp only [hv, if_true]
    exact hn
  | iteNo ht hv _ ih =>
    obtain ⟨n, hn⟩ := ih
    refine ⟨n + 1, within_done (Expr.eval_timeless _) ht (fun _ _ => Stmt.exec_ite) ?_⟩
    simp only [hv, Bool.false_eq_true, if_false]
    exact hn
  | iteSkip ht hv =>
    refine ⟨0 + 1, within_done (Expr.eval_timeless _) ht (fun _ _ => Stmt.exec_ite) ?_⟩
    intro k _ m₂ hm₂
    simp only [hv, Bool.false_eq_true, if_false]
    exact ⟨by rw [Outcome.untimed_done, hm₂], Nat.le_refl _⟩
  | loop _ ih =>
    obtain ⟨n, hn⟩ := ih
    exact ⟨n + 1, hn.stmt fun _ _ => Stmt.exec_loop⟩
  | loopAbrupt ht => exact ⟨0, within_loopAbrupt ht⟩
  | loopDone ht hv => exact ⟨0, within_loopDone ht hv⟩
  | loopAgain ht hv _ hf _ ih ih' =>
    obtain ⟨n, hn⟩ := ih
    obtain ⟨n', hn'⟩ := ih'
    exact ⟨_, within_loopAgain ht hv hn hf hn'⟩
  | loopExit ht hv _ ih =>
    obtain ⟨n, hn⟩ := ih
    exact ⟨_, within_loopExit ht hv hn⟩
  | loopLeave ht hv _ ho ih =>
    obtain ⟨n, hn⟩ := ih
    exact ⟨_, within_loopLeave ht hv hn ho⟩
  | untried _ ih =>
    obtain ⟨n, hn⟩ := ih
    exact ⟨n, within_uncaught hn (.inl rfl)⟩
  | uncaught _ ho ih =>
    obtain ⟨n, hn⟩ := ih
    exact ⟨n, within_uncaught hn (.inr ho)⟩
  | caught _ ht _ ih ih' =>
    obtain ⟨n, hn⟩ := ih
    obtain ⟨n', hn'⟩ := ih'
    exact ⟨_, within_caught hn ht hn'⟩
  | attempt _ ih =>
    obtain ⟨n, hn⟩ := ih
    exact ⟨n + 1, hn.stmt fun _ _ => Stmt.exec_attempt⟩
  | attemptStopped _ ho ih =>
    obtain ⟨n, hn⟩ := ih
    exact ⟨n + 1, within_stopped hn ho⟩
  | attemptCleanup _ ho _ ih ih' =>
    obtain ⟨n, hn⟩ := ih
    obtain ⟨n', hn'⟩ := ih'
    exact ⟨_, within_cleanup hn ho hn'⟩
  | switchAbrupt hc =>
    exact ⟨1, within_abrupt (Case.choose_timeless _ _) hc fun _ _ => Stmt.exec_switch⟩
  | switchSkip hc =>
    refine ⟨0 + 1, within_done (Case.choose_timeless _ _) hc (fun _ _ => Stmt.exec_switch) ?_⟩
    intro k _ m₂ hm₂
    exact ⟨by rw [Outcome.untimed_done, hm₂], Nat.le_refl _⟩
  | switchRun hc _ ih =>
    obtain ⟨n, hn⟩ := ih
    refine ⟨n + 1, within_done (Case.choose_timeless _ _) hc (fun _ _ => Stmt.exec_switch) ?_⟩
    intro k hk m₂ hm₂
    obtain ⟨he, hsteps⟩ := hn k hk m₂ hm₂
    rw [Outcome.leaveSwitch_untimed, Outcome.machine_leaveSwitch]
    exact ⟨by rw [← he]; rfl, hsteps⟩
  | nil =>
    refine ⟨0, fun k _ m₁ hm => ?_⟩
    simp only [Task.exec, Stmt.execFrom_nil]
    exact ⟨by rw [Outcome.untimed_done, hm], Nat.le_refl _⟩
  | step _ _ ih ih' =>
    obtain ⟨n, hn⟩ := ih
    obtain ⟨n', hn'⟩ := ih'
    exact ⟨_, within_step hn hn'⟩
  | jump _ hl _ ih ih' =>
    obtain ⟨n, hn⟩ := ih
    obtain ⟨n', hn'⟩ := ih'
    exact ⟨_, within_jump hn hl hn'⟩
  | jumpOut _ hl ih =>
    obtain ⟨n, hn⟩ := ih
    exact ⟨_, within_leave hn (.inr ⟨_, _, rfl, hl⟩)⟩
  | leave _ ho ih =>
    obtain ⟨n, hn⟩ := ih
    exact ⟨_, within_leave hn (.inl ho)⟩

/-! ## Whole bodies -/

/-- How a run is completed does not depend on the clock. -/
theorem Outcome.complete_untimed (o : Outcome Flow) :
    o.untimed.complete = (o.complete.1, o.complete.2.untimed) := by
  rcases o with ⟨_ | _, _⟩ | _ | _ <;> rfl

/-- A run of a body that does not run out of steps ends. -/
theorem Block.ends_of_run {b : Block} {m : Machine}
    (h : ∀ limit, (m.run b).1 ≠ .error (.stepLimit limit)) :
    ∃ o, Ends (.rest b.stmts b.stmts) m.untimed o ∧
      o.complete = ((m.run b).1, (m.run b).2.untimed) := by
  have hexec : m.run b = ((Task.rest b.stmts b.stmts).exec (m.stepLimit - m.steps) m).complete := by
    rw [Machine.run, Block.exec]
    rfl
  rw [hexec] at h ⊢
  refine ⟨_, Task.ends_of_exec ?_, Outcome.complete_untimed _⟩
  generalize (Task.rest b.stmts b.stmts).exec (m.stepLimit - m.steps) m = o at h ⊢
  rcases o with _ | _ | ⟨e, m'⟩
  · rfl
  · rfl
  · cases e with
    | stepLimit limit => exact absurd rfl (h limit)
    | _ => rfl

/-- A body that ends is run to its end if the step limit is large enough. -/
theorem Block.run_of_ends {b : Block} {m : Machine} {o : Outcome Flow}
    (h : Ends (.rest b.stmts b.stmts) m.untimed o) :
    ∃ least, ∀ limit ≥ least, (({ m with stepLimit := limit }.run b).1,
      ({ m with stepLimit := limit }.run b).2.untimed) = o.complete := by
  obtain ⟨n, hn⟩ := h.exists_budget
  refine ⟨m.steps + n, fun limit hlimit => ?_⟩
  have hbudget : limit - m.steps ≥ n := by omega
  obtain ⟨he, -⟩ := hn _ hbudget { m with stepLimit := limit } rfl
  rw [Machine.run, Block.exec, ← he, Outcome.complete_untimed]
  rfl

end Lowering
