import Lowering.Proofs.Eval.Parts
import Lowering.Tree.Normalize

/-!
# Normalizing keeps how a run ends

A branch or a body in a block of its own runs as before, unless it carries a label: then the new
block would catch jumps to that label that used to go further out. So a body may be normalized if no
branch and no body in it is a labeled statement (`Stmt.braced`), and then every run of it ends as
before, on the very same machine (`Ends.normalize`).
-/

namespace Lowering

def Stmt.isLabeled : Stmt → Bool
  | .labeled .. => true
  | _ => false

/-- Whether no branch and no body of a statement is a labeled statement. -/
def Stmt.braced : Stmt → Bool
  | .ite _ yes no _ => !yes.isLabeled && !no.any isLabeled
  | .loop _ body _ | .labeled _ body _ => !body.isLabeled
  | _ => true

/-! ## Normalized statements -/

namespace Stmt

theorem normalizeAll_eq_map : ∀ ss : List Stmt, normalizeAll ss = ss.map normalize
  | [] => by rw [normalizeAll, List.map_nil]
  | s :: ss => by rw [normalizeAll, normalizeAll_eq_map ss, List.map_cons]

@[simp] theorem isLabeled_normalize (s : Stmt) : s.normalize.isLabeled = s.isLabeled := by
  cases s <;> rw [normalize] <;> rfl

@[simp] theorem hasLabel_normalize (label : String) (s : Stmt) :
    s.normalize.hasLabel label = s.hasLabel label := by
  cases s <;> rw [normalize] <;> rfl

theorem normalize_of_leaf {s : Stmt} {f : Eval Flow} (hs : s.leaf? = some f) : s.normalize = s := by
  cases s <;> first | (rw [normalize]; done) | cases hs

theorem hasLabel_of_not_isLabeled {s : Stmt} (hs : s.isLabeled = false) (label : String) :
    s.hasLabel label = false := by
  cases s <;> first | rfl | cases hs

/-- A jump goes to the same statement of a normalized block. -/
theorem seek_normalizeAll (label : String) (all : List Stmt) :
    seek label (normalizeAll all) = normalizeAll (seek label all) := by
  simp only [normalizeAll_eq_map, seek]
  rw [List.dropWhile_map]
  congr 2
  funext s
  exact congrArg (!·) (hasLabel_normalize label s)

end Stmt

@[simp] theorem Block.stmts_normalize (b : Block) :
    b.normalize.stmts = Stmt.normalizeAll b.stmts := by
  cases b with
  | mk stmts span => rw [Block.normalize]

/-- The same case is selected, with its body normalized. -/
theorem Case.select_normalizeAll (value : Value) : ∀ (cases : List Case) (default : Option Block)
    (m : Machine), Case.select value (default.map Block.normalize) (Case.normalizeAll cases) m =
      (Case.select value default cases m).bind fun b m' => .done (b.map Block.normalize) m'
  | [], default, m => by
    rw [Case.normalizeAll, Case.select, Case.select]
    rfl
  | ⟨none, body⟩ :: cases, default, m => by
    rw [Case.normalizeAll, Case.select, Case.select, ← Case.select_normalizeAll value cases]
    cases default <;> rfl
  | ⟨some test, body⟩ :: cases, default, m => by
    rw [Case.normalizeAll, Case.select, Case.select, Eval.bind_apply, Eval.bind_apply]
    cases test.eval m with
    | done v m' =>
      by_cases hv : v = value
      · simp only [Outcome.bind, if_pos hv]
        rfl
      · simp only [Outcome.bind, if_neg hv]
        exact Case.select_normalizeAll value cases default m'
    | thrown t m' => rfl
    | stopped e m' => rfl

/-- A normalized switch runs the normalized block. -/
theorem Case.choose_normalizeAll (discriminant : Expr) (cases : List Case) (m : Machine) :
    Case.choose discriminant (Case.normalizeAll cases) m =
      (Case.choose discriminant cases m).bind fun b m' => .done (b.map Block.normalize) m' := by
  rw [Case.choose, Case.choose, Eval.bind_apply, Eval.bind_apply]
  cases discriminant.eval m with
  | done v m' => exact Case.select_normalizeAll v cases none m'
  | thrown t m' => rfl
  | stopped e m' => rfl

/-! ## Runs -/

/-- What cuts an evaluation short does not depend on its result. -/
theorem Outcome.abrupt?_map {α β γ : Type} (o : Outcome α) (f : α → β) :
    ((o.bind fun a m => .done (f a) m).abrupt? : Option (Outcome γ)) = o.abrupt? := by
  cases o <;> rfl

/-- The same of a normalized body. -/
def Task.normalize : Task → Task
  | .stmt s => .stmt s.normalize
  | .rest all ss => .rest (Stmt.normalizeAll all) (Stmt.normalizeAll ss)
  | .loop test body => .loop test body.normalize.asBlock
  | .tried body handler => .tried body.normalize (Block.normalizeOption handler)

/-- A statement without a label may be put into a block. -/
theorem Ends.asBlock {s : Stmt} {m : Machine} {o : Outcome Flow} (h : Ends (.stmt s) m o)
    (hs : s.isLabeled = false) : Ends (.stmt s.asBlock) m o := by
  have hseek : ∀ label, Stmt.seek label [s] = [] := fun label => by
    rw [Stmt.seek, List.dropWhile_cons_of_pos, List.dropWhile_nil]
    rw [Stmt.hasLabel_of_not_isLabeled hs]
    rfl
  have hblock : Ends (.stmt (.block ⟨[s], s.span⟩ s.span)) m o := by
    refine .block ?_
    rcases o with ⟨f, m'⟩ | _ | _
    · cases f with
      | normal => exact .step h .nil
      | goto label => exact .jumpOut h (hseek label)
      | exit => exact .leave h rfl
      | next => exact .leave h rfl
      | ret v => exact .leave h rfl
    · exact .leave h rfl
    · exact .leave h rfl
  cases s
  case block => exact h
  all_goals exact hblock

/-- The body of a loop carries no label. -/
theorem Task.body_unlabeled {test : Expr} {body : Stmt} {ps : List Stmt}
    (hps : (Task.loop test body).Inside ps) (hb : ∀ p ∈ ps, p.braced = true) :
    body.normalize.isLabeled = false := by
  obtain ⟨⟨span, hs⟩, -⟩ := hps
  rw [Stmt.isLabeled_normalize]
  exact (Bool.not_eq_true' _).mp (hb _ hs)

/-- **Every run of a body ends as before once it is normalized.** -/
theorem Ends.normalize {task : Task} {m : Machine} {o : Outcome Flow} (h : Ends task m o)
    {ps : List Stmt} (hps : task.Inside ps) (hb : ∀ p ∈ ps, p.braced = true) :
    Ends task.normalize m o := by
  -- The normal form ends by the same rule. Only the rules that run a bare statement as a body look at
  -- `braced`: in the block put around it, a jump could reach the label of a labeled body.
  induction h with
  | leaf hs =>
    rw [Task.normalize, Stmt.normalize_of_leaf hs]
    exact .leaf hs
  | block _ ih =>
    rw [Task.Inside, Stmt.parts_block, List.cons_subset] at hps
    have h := ih ⟨hps.2, hps.2⟩
    rw [Task.normalize, ← Block.stmts_normalize] at h
    rw [Task.normalize, Stmt.normalize]
    exact .block h
  | labeled _ ih =>
    rw [Task.Inside, Stmt.parts_labeled, List.cons_subset] at hps
    rw [Task.normalize, Stmt.normalize]
    refine .labeled (Ends.asBlock (ih hps.2) ?_)
    rw [Stmt.isLabeled_normalize]
    exact (Bool.not_eq_true' _).mp (hb _ hps.1)
  | iteAbrupt ht =>
    rw [Task.normalize, Stmt.normalize]
    exact .iteAbrupt ht
  | iteYes ht hv _ ih =>
    rw [Task.Inside, Stmt.parts_ite, List.cons_subset, List.append_subset] at hps
    have hbr := Bool.and_eq_true_iff.mp (hb _ hps.1)
    rw [Task.normalize, Stmt.normalize]
    refine .iteYes ht hv (Ends.asBlock (ih hps.2.1) ?_)
    rw [Stmt.isLabeled_normalize]
    exact (Bool.not_eq_true' _).mp hbr.1
  | iteNo ht hv _ ih =>
    rw [Task.Inside, Stmt.parts_ite, List.cons_subset, List.append_subset, Option.toList_some,
      List.flatMap_singleton] at hps
    have hbr := Bool.and_eq_true_iff.mp (hb _ hps.1)
    rw [Task.normalize, Stmt.normalize, Stmt.normalizeOption]
    refine .iteNo ht hv (Ends.asBlock (ih hps.2.2) ?_)
    rw [Stmt.isLabeled_normalize]
    exact (Bool.not_eq_true' _).mp hbr.2
  | iteSkip ht hv =>
    rw [Task.normalize, Stmt.normalize, Stmt.normalizeOption]
    exact .iteSkip ht hv
  | loop _ ih =>
    rw [Task.Inside, Stmt.parts_loop, List.cons_subset] at hps
    rw [Task.normalize, Stmt.normalize]
    exact .loop (ih ⟨⟨_, hps.1⟩, hps.2⟩)
  | loopAbrupt ht => exact .loopAbrupt ht
  | loopDone ht hv => exact .loopDone ht hv
  | loopAgain ht hv _ hf _ ih ih' =>
    exact .loopAgain ht hv ((ih hps.2).asBlock (Task.body_unlabeled hps hb)) hf (ih' hps)
  | loopExit ht hv _ ih =>
    exact .loopExit ht hv ((ih hps.2).asBlock (Task.body_unlabeled hps hb))
  | loopLeave ht hv _ ho ih =>
    exact .loopLeave ht hv ((ih hps.2).asBlock (Task.body_unlabeled hps hb)) ho
  | untried _ ih =>
    have h := ih ⟨hps.1, hps.1⟩
    rw [Task.normalize, ← Block.stmts_normalize] at h
    rw [Task.normalize, Block.normalizeOption]
    exact .untried h
  | uncaught _ ho ih =>
    have h := ih ⟨hps.1, hps.1⟩
    rw [Task.normalize, ← Block.stmts_normalize] at h
    rw [Task.normalize, Block.normalizeOption]
    exact .uncaught h ho
  | caught _ ht _ ih ih' =>
    have hc := hps.2 _ rfl
    have h := ih ⟨hps.1, hps.1⟩
    have h' := ih' ⟨hc, hc⟩
    rw [Task.normalize, ← Block.stmts_normalize] at h h'
    rw [Task.normalize, Block.normalizeOption]
    exact .caught h ht h'
  | attempt _ ih =>
    rw [Task.normalize, Stmt.normalize, Block.normalizeOption]
    exact .attempt (ih (Task.inside_tried hps))
  | attemptStopped _ ho ih =>
    rw [Task.normalize, Stmt.normalize]
    exact .attemptStopped (ih (Task.inside_tried hps)) ho
  | attemptCleanup _ ho _ ih ih' =>
    have hc := Task.inside_cleanup hps
    have h' := ih' ⟨hc, hc⟩
    rw [Task.normalize, ← Block.stmts_normalize] at h'
    rw [Task.normalize, Stmt.normalize]
    exact .attemptCleanup (ih (Task.inside_tried hps)) ho h'
  | switchAbrupt hc =>
    rw [Task.normalize, Stmt.normalize]
    refine .switchAbrupt ?_
    rw [Case.choose_normalizeAll, Outcome.abrupt?_map]
    exact hc
  | switchSkip hc =>
    rw [Task.normalize, Stmt.normalize]
    refine .switchSkip ?_
    rw [Case.choose_normalizeAll, hc]
    rfl
  | switchRun hc _ ih =>
    obtain ⟨case, hmem, rfl⟩ := Case.choose_mem hc
    have hin := Task.inside_case hps hmem
    have h := ih ⟨hin, hin⟩
    rw [Task.normalize, ← Block.stmts_normalize] at h
    rw [Task.normalize, Stmt.normalize]
    refine .switchRun ?_ h
    rw [Case.choose_normalizeAll, hc]
    rfl
  | nil => exact .nil
  | step _ _ ih ih' =>
    obtain ⟨hall, hs⟩ := hps
    rw [Stmt.partsAll_cons, List.append_subset] at hs
    rw [Task.normalize, Stmt.normalizeAll]
    exact .step (ih hs.1) (ih' ⟨hall, hs.2⟩)
  | jump _ hl _ ih ih' =>
    obtain ⟨hall, hs⟩ := hps
    rw [Stmt.partsAll_cons, List.append_subset] at hs
    -- Normalizing leaves the labels where they are, so the jump lands on the normal form of the
    -- statements it landed on before.
    have h' := ih' ⟨hall, List.Subset.trans (Stmt.partsAll_seek_subset _ _) hall⟩
    rw [Task.normalize, ← Stmt.seek_normalizeAll] at h'
    rw [Task.normalize, Stmt.normalizeAll]
    refine .jump (ih hs.1) ?_ h'
    rw [Stmt.seek_normalizeAll, Stmt.normalizeAll_eq_map]
    exact fun he => hl (List.map_eq_nil_iff.mp he)
  | jumpOut _ hl ih =>
    rw [Task.Inside, Stmt.partsAll_cons, List.append_subset] at hps
    rw [Task.normalize, Stmt.normalizeAll]
    refine .jumpOut (ih hps.2.1) ?_
    rw [Stmt.seek_normalizeAll, hl, Stmt.normalizeAll]
  | leave _ ho ih =>
    rw [Task.Inside, Stmt.partsAll_cons, List.append_subset] at hps
    rw [Task.normalize, Stmt.normalizeAll]
    exact .leave (ih hps.2.1) ho

end Lowering
