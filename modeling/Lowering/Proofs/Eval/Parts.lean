import Lowering.Proofs.Eval.Agree

/-!
# What a run owes to the statements in it

Whatever a run does, some statement in it does. A jump goes to the label of some `goto`, a throw that
cannot be caught comes from some suspension, and a local changes only if some statement mentions it.
`Ends.accounted` shows the three together, by one induction over the run.
-/

namespace Lowering

/-- All statements that running a task can come upon are among `ps`. -/
def Task.Inside (ps : List Stmt) : Task → Prop
  | .stmt s => s.parts ⊆ ps
  | .rest all ss => Stmt.partsAll all ⊆ ps ∧ Stmt.partsAll ss ⊆ ps
  | .loop test body => (∃ span, .loop test body span ∈ ps) ∧ body.parts ⊆ ps
  | .tried body handler =>
    Stmt.partsAll body.stmts ⊆ ps ∧ ∀ b ∈ handler, Stmt.partsAll b.stmts ⊆ ps

/-- All that an outcome shows has its cause in one of the statements `ps`. -/
structure Outcome.Accounted (ps : List Stmt) (m : Machine) (o : Outcome Flow) : Prop where
  jump : ∀ label m', o = .done (.goto label) m' → ∃ p ∈ ps, p.target? = some label
  fault : ∀ t m', o = .thrown t m' → t.catchable = false → ∃ p ∈ ps, p.suspends = true
  frame : ∀ x, (∀ p ∈ ps, x ∉ p.mentions) → o.machine.locals.get? x = m.locals.get? x

namespace Outcome.Accounted

variable {ps : List Stmt} {m m' : Machine} {o o' : Outcome Flow}

/-- What ends well is accounted for by the jump that it ends with, if any. -/
theorem done {f : Flow} (hj : ∀ label, f = .goto label → ∃ p ∈ ps, p.target? = some label)
    (hframe : ∀ x, (∀ p ∈ ps, x ∉ p.mentions) → m'.locals.get? x = m.locals.get? x) :
    Accounted ps m (.done f m') := by
  refine ⟨fun label n h => ?_, fun t n h => ?_, hframe⟩
  · cases h
    exact hj label rfl
  · cases h

theorem thrown {t : Thrown} (hf : t.catchable = false → ∃ p ∈ ps, p.suspends = true)
    (hframe : ∀ x, (∀ p ∈ ps, x ∉ p.mentions) → m'.locals.get? x = m.locals.get? x) :
    Accounted ps m (.thrown t m') := by
  refine ⟨fun label n h => ?_, fun t' n h => ?_, hframe⟩
  · cases h
  · cases h
    exact hf

theorem stopped {e : EvalError}
    (hframe : ∀ x, (∀ p ∈ ps, x ∉ p.mentions) → m'.locals.get? x = m.locals.get? x) :
    Accounted ps m (.stopped e m') := by
  refine ⟨fun label n h => ?_, fun t n h => ?_, hframe⟩
  · cases h
  · cases h

/-- Falling through without doing anything. -/
theorem skip : Accounted ps m (.done .normal m) := .done (by simp) fun _ _ => rfl

/-- What one part leaves is accounted for by the next. -/
theorem trans (h : Accounted ps m o) (h' : Accounted ps o.machine o') : Accounted ps m o' :=
  { h' with frame := fun x hx => (h'.frame x hx).trans (h.frame x hx) }

variable {α : Type} {f : Eval α} {s : Stmt}

/-- Evaluating an expression leaves alone what no part mentions. -/
theorem frame_exprs (hs : s ∈ ps) (hf : Eval.Keeps (· ∈ s.exprs.flatMap Expr.locals) f)
    {x : String} (hx : ∀ p ∈ ps, x ∉ p.mentions) : (f m).machine.locals.get? x = m.locals.get? x :=
  hf.frame m x fun h => hx s hs (List.mem_append_right _ h)

/-- What follows an evaluation. -/
theorem after (hs : s ∈ ps) (hf : Eval.Keeps (· ∈ s.exprs.flatMap Expr.locals) f) {a : α}
    (ha : f m = .done a m') (h : Accounted ps m' o) : Accounted ps m o := by
  refine { h with frame := fun x hx => (h.frame x hx).trans ?_ }
  have := frame_exprs hs hf (m := m) hx
  rwa [ha] at this

/-- An evaluation that is cut short. -/
theorem abrupt (hs : s ∈ ps) (hf : Eval.Keeps (· ∈ s.exprs.flatMap Expr.locals) f)
    (ho : (f m).abrupt? = some o) : Accounted ps m o := by
  have hframe := fun x hx => frame_exprs hs hf (m := m) (x := x) hx
  have hcatch := hf.catchable m
  generalize f m = r at ho hframe hcatch
  cases r with
  | done a m' => cases ho
  | thrown t m' =>
    cases ho
    refine .thrown (fun hc => ?_) hframe
    rw [hcatch t m' rfl] at hc
    cases hc
  | stopped e m' =>
    cases ho
    exact .stopped hframe

theorem bind {g : α → Eval Flow} (hs : s ∈ ps)
    (hf : Eval.Keeps (· ∈ s.exprs.flatMap Expr.locals) f) (hg : ∀ a m', Accounted ps m' (g a m')) :
    Accounted ps m ((f >>= g) m) := by
  rw [Eval.bind_apply]
  cases hr : f m with
  | done a m' => exact after hs hf hr (hg a m')
  | thrown t m' => exact abrupt hs hf (by rw [hr]; rfl)
  | stopped e m' => exact abrupt hs hf (by rw [hr]; rfl)

/-- What a suspension throws comes from a suspension, whether or not it can be caught. -/
theorem suspended {g : α → Eval Flow} (hs : s ∈ ps) (hsuspends : s.suspends = true)
    (hf : Eval.Keeps (· ∈ s.exprs.flatMap Expr.locals) f) (hg : ∀ a m', Accounted ps m' (g a m'))
    (allowed : Bool) : Accounted ps m (((f m).catchableIf allowed).bind g) := by
  have hframe := fun x hx => frame_exprs hs hf (m := m) (x := x) hx
  cases hr : f m with
  | done a m' => exact after hs hf hr (hg a m')
  | thrown t m' =>
    rw [hr] at hframe
    exact .thrown (fun _ => ⟨s, hs, hsuspends⟩) hframe
  | stopped e m' =>
    rw [hr] at hframe
    exact .stopped hframe

theorem andCleanup (h : Accounted ps m o) (ho : o.isStopped = false)
    (h' : Accounted ps o.machine o') : Accounted ps m (o.andCleanup fun _ => o') := by
  have hframe := fun x hx => (h'.frame x hx).trans (h.frame x hx)
  rcases o with ⟨f, m₁⟩ | ⟨t, m₁⟩ | ⟨e, m₁⟩
  · rcases o' with ⟨_ | _, m₂⟩ | _ | _
    -- the cleanup falls through, and the try ends as it did
    · exact .done (fun l he => h.jump l m₁ (he ▸ rfl)) hframe
    all_goals exact { h' with frame := hframe }
  · rcases o' with ⟨_ | _, m₂⟩ | _ | _
    · exact .thrown (h.fault t m₁ rfl) hframe
    all_goals exact { h' with frame := hframe }
  · cases ho

theorem leaveSwitch (h : Accounted ps m o) : Accounted ps m o.leaveSwitch := by
  rcases o with ⟨_ | _, m₁⟩ | _ | _
  case done.exit => exact .done (by simp) h.frame
  all_goals exact h

end Outcome.Accounted

/-- A case that is selected is one of the cases or the default. -/
theorem Case.select_mem {value : Value} {body : Block} : ∀ {cases : List Case}
    {default : Option Block} {m m' : Machine},
    Case.select value default cases m = .done (some body) m' →
    default = some body ∨ ∃ case ∈ cases, case.body = body
  | [], default, m, m', h => by
    rw [Case.select, Eval.pure_apply, Outcome.done.injEq] at h
    exact .inl h.1
  -- A default clause counts only when no earlier one was met.
  | ⟨none, b⟩ :: cases, default, m, m', h => by
    rw [Case.select] at h
    rcases Case.select_mem h with h | ⟨case, hc, h⟩
    · cases default with
      | none => exact .inr ⟨_, List.mem_cons_self, Option.some.inj h⟩
      | some d => exact .inl h
    · exact .inr ⟨case, List.mem_cons_of_mem _ hc, h⟩
  | ⟨some test, b⟩ :: cases, default, m, m', h => by
    rw [Case.select, Eval.bind_apply] at h
    cases ht : test.eval m with
    | done v m₁ =>
      rw [ht] at h
      by_cases hv : v = value
      · simp only [Outcome.bind, if_pos hv, Eval.pure_apply, Outcome.done.injEq] at h
        exact .inr ⟨_, List.mem_cons_self, Option.some.inj h.1⟩
      · simp only [Outcome.bind, if_neg hv] at h
        rcases Case.select_mem h with h | ⟨case, hc, h⟩
        · exact .inl h
        · exact .inr ⟨case, List.mem_cons_of_mem _ hc, h⟩
    | thrown t m₁ =>
      rw [ht] at h
      cases h
    | stopped e m₁ =>
      rw [ht] at h
      cases h

/-- A switch runs the block of one of its cases. -/
theorem Case.choose_mem {discriminant : Expr} {cases : List Case} {body : Block} {m m' : Machine}
    (h : Case.choose discriminant cases m = .done (some body) m') :
    ∃ case ∈ cases, case.body = body := by
  rw [Case.choose, Eval.bind_apply] at h
  cases hd : discriminant.eval m with
  | done v m₁ =>
    rw [hd] at h
    exact (Case.select_mem h).resolve_left (by simp)
  | thrown t m₁ =>
    rw [hd] at h
    cases h
  | stopped e m₁ =>
    rw [hd] at h
    cases h

/-- A statement that holds no other jumps to its own target and throws only what a suspension throws past
all handlers. -/
theorem Stmt.accounted_leaf {s : Stmt} {f : Eval Flow} {ps : List Stmt} (hs : s.leaf? = some f)
    (hp : s ∈ ps) (m : Machine) : (f m).Accounted ps m := by
  cases s <;> simp only [leaf?, Option.some.injEq, reduceCtorEq] at hs <;> subst hs
  case goto label _ =>
    refine .done (fun l h => ⟨_, hp, ?_⟩) fun _ _ => rfl
    cases h
    rfl
  case exit => exact .done (by simp) fun _ _ => rfl
  case next => exact .done (by simp) fun _ _ => rfl
  case method => exact .skip
  case eval value _ => exact .bind hp (Expr.eval_keeps List.mem_cons_self) fun _ _ => .skip
  case declare name _ init _ =>
    refine .bind hp (Expr.evalOption_keeps init) fun v m' => ?_
    refine .done (by simp) fun x hx => ?_
    exact Dict.get?_insert_ne _ _ fun he => hx _ hp (he ▸ List.mem_cons_self)
  case ret value _ =>
    exact .bind hp (Expr.evalOption_keeps value) fun _ _ => .done (by simp) fun _ _ => rfl
  case suspend kind value _ =>
    refine .suspended hp rfl (Expr.evalOption_keeps value) (fun v m' => ?_) m.valueCatchable
    rw [Machine.suspend_apply]
    split
    · exact .thrown (fun _ => ⟨_, hp, rfl⟩) fun _ _ => rfl
    · exact .done (by simp) fun _ _ => rfl
  case raise value _ =>
    refine .bind hp (Expr.eval_keeps List.mem_cons_self) fun v m' => ?_
    exact .thrown (fun hc => by cases hc) fun _ _ => rfl

theorem Task.inside_tried {body : Block} {handler cleanup : Option Block} {span : Span}
    {ps : List Stmt} (h : (Stmt.attempt body handler cleanup span).parts ⊆ ps) :
    (Task.tried body handler).Inside ps := by
  rw [Stmt.parts_attempt, List.cons_subset, List.append_subset, List.append_subset] at h
  refine ⟨h.2.1, fun b hb => ?_⟩
  rw [Option.mem_def] at hb
  subst hb
  exact fun p hp => h.2.2.1 (List.mem_flatMap.mpr ⟨b, List.mem_cons_self, hp⟩)

theorem Task.inside_cleanup {body cleanup : Block} {handler : Option Block} {span : Span}
    {ps : List Stmt} (h : (Stmt.attempt body handler (some cleanup) span).parts ⊆ ps) :
    Stmt.partsAll cleanup.stmts ⊆ ps := by
  rw [Stmt.parts_attempt, List.cons_subset, List.append_subset, List.append_subset] at h
  exact fun p hp => h.2.2.2 (List.mem_flatMap.mpr ⟨cleanup, List.mem_cons_self, hp⟩)

theorem Task.inside_case {discriminant : Expr} {cases : List Case} {span : Span} {ps : List Stmt}
    (h : (Stmt.switch discriminant cases span).parts ⊆ ps) {case : Case} (hc : case ∈ cases) :
    Stmt.partsAll case.body.stmts ⊆ ps := by
  rw [Stmt.parts_switch, List.cons_subset] at h
  exact fun p hp => h.2 (List.mem_flatMap.mpr ⟨case, hc, hp⟩)

/-- A jump within a block stays among its statements. -/
theorem Stmt.partsAll_seek_subset (label : String) (all : List Stmt) :
    Stmt.partsAll (Stmt.seek label all) ⊆ Stmt.partsAll all := by
  induction all with
  | nil => exact fun _ h => h
  | cons s all ih =>
    unfold Stmt.seek
    rw [List.dropWhile_cons]
    split
    · rw [Stmt.partsAll_cons]
      exact List.subset_append_of_subset_right _ ih
    · exact fun _ h => h

/-- **All that a run does has its cause in the statements that it can come upon.** -/
theorem Ends.accounted {task : Task} {m : Machine} {o : Outcome Flow} (h : Ends task m o)
    {ps : List Stmt} (hps : task.Inside ps) : o.Accounted ps m := by
  induction h generalizing ps with
  | leaf hs => exact Stmt.accounted_leaf hs (hps (Stmt.self_mem_parts _)) _
  | block _ ih =>
    rw [Task.Inside, Stmt.parts_block, List.cons_subset] at hps
    exact ih ⟨hps.2, hps.2⟩
  | labeled _ ih =>
    rw [Task.Inside, Stmt.parts_labeled, List.cons_subset] at hps
    exact ih hps.2
  | iteAbrupt ht =>
    exact .abrupt (hps (Stmt.self_mem_parts _)) (Expr.eval_keeps List.mem_cons_self) ht
  | iteYes ht hv _ ih =>
    rw [Task.Inside, Stmt.parts_ite, List.cons_subset, List.append_subset] at hps
    exact .after hps.1 (Expr.eval_keeps List.mem_cons_self) ht (ih hps.2.1)
  | iteNo ht hv _ ih =>
    rw [Task.Inside, Stmt.parts_ite, List.cons_subset, List.append_subset, Option.toList_some,
      List.flatMap_singleton] at hps
    exact .after hps.1 (Expr.eval_keeps List.mem_cons_self) ht (ih hps.2.2)
  | iteSkip ht hv =>
    exact .after (hps (Stmt.self_mem_parts _)) (Expr.eval_keeps List.mem_cons_self) ht .skip
  | loop _ ih =>
    rw [Task.Inside, Stmt.parts_loop, List.cons_subset] at hps
    exact ih ⟨⟨_, hps.1⟩, hps.2⟩
  -- The test belongs to the loop statement, which `Inside` keeps hold of from round to round.
  | loopAbrupt ht =>
    obtain ⟨⟨span, hs⟩, -⟩ := hps
    exact .abrupt hs (Expr.eval_keeps List.mem_cons_self) ht
  | loopDone ht hv =>
    obtain ⟨⟨span, hs⟩, -⟩ := hps
    exact .after hs (Expr.eval_keeps List.mem_cons_self) ht .skip
  | loopAgain ht hv _ hf _ ih ih' =>
    obtain ⟨⟨span, hs⟩, hb⟩ := hps
    exact .after hs (Expr.eval_keeps List.mem_cons_self) ht ((ih hb).trans (ih' ⟨⟨span, hs⟩, hb⟩))
  | loopExit ht hv _ ih =>
    obtain ⟨⟨span, hs⟩, hb⟩ := hps
    exact .after hs (Expr.eval_keeps List.mem_cons_self) ht ((ih hb).trans .skip)
  | loopLeave ht hv _ ho ih =>
    obtain ⟨⟨span, hs⟩, hb⟩ := hps
    exact .after hs (Expr.eval_keeps List.mem_cons_self) ht (ih hb)
  | untried _ ih => exact ih ⟨hps.1, hps.1⟩
  | uncaught _ ho ih => exact ih ⟨hps.1, hps.1⟩
  | caught _ ht _ ih ih' =>
    have hb := hps.2 _ rfl
    exact (ih ⟨hps.1, hps.1⟩).trans (ih' ⟨hb, hb⟩)
  | attempt _ ih => exact ih (Task.inside_tried hps)
  | attemptStopped _ ho ih => exact ih (Task.inside_tried hps)
  | attemptCleanup _ ho _ ih ih' =>
    have hc := Task.inside_cleanup hps
    exact (ih (Task.inside_tried hps)).andCleanup ho (ih' ⟨hc, hc⟩)
  | switchAbrupt hc => exact .abrupt (hps (Stmt.self_mem_parts _)) (Case.choose_keeps _ _) hc
  | switchSkip hc => exact .after (hps (Stmt.self_mem_parts _)) (Case.choose_keeps _ _) hc .skip
  | switchRun hc _ ih =>
    obtain ⟨case, hmem, rfl⟩ := Case.choose_mem hc
    have hb := Task.inside_case hps hmem
    exact .after (hps (Stmt.self_mem_parts _)) (Case.choose_keeps _ _) hc (ih ⟨hb, hb⟩).leaveSwitch
  | nil => exact .skip
  | step _ _ ih ih' =>
    obtain ⟨hall, hs⟩ := hps
    rw [Stmt.partsAll_cons, List.append_subset] at hs
    exact (ih hs.1).trans (ih' ⟨hall, hs.2⟩)
  | jump _ hl _ ih ih' =>
    obtain ⟨hall, hs⟩ := hps
    rw [Stmt.partsAll_cons, List.append_subset] at hs
    exact (ih hs.1).trans (ih' ⟨hall, List.Subset.trans (Stmt.partsAll_seek_subset _ _) hall⟩)
  | jumpOut _ hl ih =>
    rw [Task.Inside, Stmt.partsAll_cons, List.append_subset] at hps
    exact ih hps.2.1
  | leave _ ho ih =>
    rw [Task.Inside, Stmt.partsAll_cons, List.append_subset] at hps
    exact ih hps.2.1

end Lowering
