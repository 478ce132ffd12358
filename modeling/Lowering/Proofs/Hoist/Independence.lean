import Lowering.Proofs.Hoist.Supply

/-!
# Hoisting decides without looking at names

Whether hoisting gives up, for which reason, and how many tries it splits does not depend on the
names that it is given: any two supplies, in any two states and with any two sets of hints, lead to
the same decision (`Block.hoist_decision`).

`HoistM.Parallel` says this of two runs of a step. Their results may differ in every name that was
made up, and the steps that follow must do the same for any two results.
-/

namespace Lowering

variable {σ τ : Type} {α β α' β' : Type}

/-! ## Two runs of a step -/

/-- Both runs go on after as many splits, or both give up for the same reason. -/
inductive HoistM.SameFate : EStateM.Result LowerError (HoistState σ) α →
    EStateM.Result LowerError (HoistState τ) α' → Prop where
  | ok {a : α} {a' : α'} {s : σ} {t : τ} (splits : Nat) : SameFate (.ok a ⟨s, splits⟩) (.ok a' ⟨t, splits⟩)
  | error (e : LowerError) {st : HoistState σ} {st' : HoistState τ} : SameFate (.error e st) (.error e st')

/-- Two steps that meet the same fate, whatever the two supplies are. -/
def HoistM.Parallel (x : HoistM σ α) (y : HoistM τ α') : Prop :=
  ∀ s t splits, SameFate (x ⟨s, splits⟩) (y ⟨t, splits⟩)

namespace HoistM.Parallel

variable {x : HoistM σ α} {y : HoistM τ α'} {f : α → HoistM σ β} {g : α' → HoistM τ β'}

theorem pure (a : α) (a' : α') : Parallel (Pure.pure a : HoistM σ α) (Pure.pure a' : HoistM τ α') :=
  fun _ _ splits => .ok splits

theorem throw (e : LowerError) :
    Parallel (MonadExcept.throw e : HoistM σ α) (MonadExcept.throw e : HoistM τ α') :=
  fun _ _ _ => .error e

/-- What follows must not depend on the results. -/
theorem bind (hx : x.Parallel y) (hf : ∀ a a', (f a).Parallel (g a')) :
    (x >>= f).Parallel (y >>= g) := by
  intro s t splits
  have hfate := hx s t splits
  show SameFate (EStateM.bind x f _) (EStateM.bind y g _)
  unfold EStateM.bind
  generalize x ⟨s, splits⟩ = r at hfate ⊢
  generalize y ⟨t, splits⟩ = r' at hfate ⊢
  cases hfate with
  | ok splits' => exact hf _ _ _ _ splits'
  | error e => exact .error e

theorem map (hx : x.Parallel y) (f : α → β) (g : α' → β') :
    (x >>= fun a => Pure.pure (f a)).Parallel (y >>= fun a => Pure.pure (g a)) :=
  hx.bind fun a a' => .pure (f a) (g a')

end HoistM.Parallel

/-- Both runs count the split. -/
theorem HoistM.countSplit_parallel :
    (HoistM.countSplit : HoistM σ Unit).Parallel (HoistM.countSplit : HoistM τ Unit) :=
  fun _ _ splits => .ok (splits + 1)

/-- Whether a cleanup is refused depends on the cleanup alone. -/
theorem Block.refuseSuspension_parallel (span : Span) (cleanup : Option Block) :
    (Block.refuseSuspension span cleanup : HoistM σ Unit).Parallel
      (Block.refuseSuspension span cleanup : HoistM τ Unit) := by
  cases cleanup with
  | none => exact .pure () ()
  | some cleanup =>
    unfold Block.refuseSuspension
    by_cases hc : cleanup.suspends = true
    · simp only [if_pos hc]
      exact .throw _
    · simp only [if_neg hc]
      exact .pure () ()

/-! ## The pass -/

section Pass

variable [NameSupply σ] [NameSupply τ]

/-- Asking for names always goes on, whatever names they are. -/
theorem HoistM.fresh_parallel (hint hint' : String) (span span' : Span) :
    (HoistM.fresh hint span : HoistM σ String).Parallel (HoistM.fresh hint' span' : HoistM τ String) :=
  fun _ _ splits => .ok splits

variable (hints hints' : HoistHints)

/-- Whether a condition is evaluated ahead depends on whether there is a handler, not on its name. -/
theorem Expr.guard_parallel {handler handler' : Option String} (hh : handler.isSome = handler'.isSome)
    (span : Span) (test : Expr) :
    (test.guard hints handler span : HoistM σ _).Parallel (test.guard hints' handler' span : HoistM τ _) := by
  cases handler with
  | none =>
    cases handler' with
    | none => exact .pure _ _
    | some label' => cases hh
  | some label =>
    cases handler' with
    | none => cases hh
    | some label' =>
      unfold Expr.guard
      by_cases ht : test.isTrivial = true
      · simp only [if_pos ht]
        exact .pure _ _
      · simp only [if_neg ht]
        exact (HoistM.fresh_parallel _ _ _ _).map _ _

-- Of the label that throws must reach, only its presence counts.
mutual

/-- **Hoisting a statement meets the same fate with any two supplies**, under handlers of any name. -/
theorem Stmt.hoist_parallel {handler handler' : Option String} (hh : handler.isSome = handler'.isSome)
    (s : Stmt) :
    (s.hoist hints handler : HoistM σ _).Parallel (s.hoist hints' handler' : HoistM τ _) := by
  by_cases hs : s.suspends = true
  · cases s with
    | block body span =>
      simp only [Stmt.hoist_block hs]
      exact (Block.hoistIn_parallel hh body).map _ _
    | labeled label body span =>
      simp only [Stmt.hoist_labeled hs]
      exact (Stmt.hoistBody_parallel hh body).map _ _
    | ite test yes no span =>
      simp only [Stmt.hoist_ite hs]
      refine (Expr.guard_parallel hints hints' hh span test).bind fun out out' => ?_
      refine (Stmt.hoistBody_parallel hh yes).bind fun yes' yes'' => ?_
      exact (Stmt.hoistBodyOption_parallel hh no).map _ _
    | loop test body span =>
      simp only [Stmt.hoist_loop hs, ← hh]
      refine (Stmt.hoistBody_parallel hh body).bind fun body' body'' => ?_
      by_cases hsplit : (handler.isSome && !test.isTrivial) = true
      · simp only [if_pos hsplit]
        exact (Expr.guard_parallel hints hints' hh span test).map _ _
      · simp only [if_neg hsplit]
        exact .pure _ _
    | attempt body catcher cleanup span =>
      have hrefuse : (Block.refuseSuspension span cleanup : HoistM σ Unit).Parallel
        (Block.refuseSuspension span cleanup : HoistM τ Unit) := Block.refuseSuspension_parallel span cleanup
      have hcatcher := Block.hoistEach_parallel hh catcher
      have hcleanup := Block.hoistEach_parallel hh cleanup
      have hoption := Block.hoistOption_parallel hh cleanup
      cases catcher with
      | none =>
        simp only [Stmt.hoist_attempt hs]
        refine hrefuse.bind fun _ _ => ?_
        exact (Block.hoistIn_parallel hh body).bind fun body' body'' => hoption.map _ _
      | some catcher =>
        -- the two labels are there in both runs
        have hbody : ∀ label label' : String, (body.hoistIn hints (some label) : HoistM σ _).Parallel
            (body.hoistIn hints' (some label') : HoistM τ _) := fun label label' =>
          Block.hoistIn_parallel (show (some label).isSome = (some label').isSome from rfl) body
        cases cleanup with
        | none =>
          simp only [Stmt.hoist_split hs]
          refine hrefuse.bind fun _ _ => (HoistM.fresh_parallel _ _ _ _).bind fun label label' => ?_
          refine (HoistM.fresh_parallel _ _ _ _).bind fun done done' => ?_
          refine HoistM.countSplit_parallel.bind fun _ _ => ?_
          exact (hbody label label').bind fun body' body'' => (hcatcher _ rfl).map _ _
        | some cleanup =>
          simp only [Stmt.hoist_splitCleanup hs]
          refine hrefuse.bind fun _ _ => (HoistM.fresh_parallel _ _ _ _).bind fun label label' => ?_
          refine (HoistM.fresh_parallel _ _ _ _).bind fun done done' => ?_
          refine HoistM.countSplit_parallel.bind fun _ _ => ?_
          refine (hbody label label').bind fun body' body'' => ?_
          exact (hcatcher _ rfl).bind fun catcher' catcher'' => (hcleanup _ rfl).map _ _
    | switch discriminant cases span =>
      simp only [Stmt.hoist_switch hs, ← hh]
      by_cases hsome : handler.isSome = true
      · simp only [if_pos hsome]
        exact .throw _
      · simp only [if_neg hsome]
        exact (Case.hoistAll_parallel cases).map _ _
    | suspend kind value span =>
      simp only [Stmt.hoist_suspend]
      exact .pure _ _
    | goto _ _ | exit _ | next _ | eval _ _ | declare _ _ _ _ | ret _ _ | raise _ _ | method _ _ =>
      cases hs
  · simp only [Stmt.hoist_plain (Bool.eq_false_iff.mpr hs)]
    exact .pure _ _

theorem Stmt.hoistBody_parallel {handler handler' : Option String}
    (hh : handler.isSome = handler'.isSome) (s : Stmt) :
    (s.hoistBody hints handler : HoistM σ _).Parallel (s.hoistBody hints' handler' : HoistM τ _) := by
  cases s with
  | block body span =>
    simp only [Stmt.hoistBody]
    exact (Block.hoistIn_parallel hh body).map _ _
  | _ =>
    simp only [Stmt.hoistBody]
    exact .throw _

theorem Stmt.hoistBodyOption_parallel {handler handler' : Option String}
    (hh : handler.isSome = handler'.isSome) (s : Option Stmt) :
    (Stmt.hoistBodyOption hints handler s : HoistM σ _).Parallel
      (Stmt.hoistBodyOption hints' handler' s : HoistM τ _) := by
  cases s with
  | none =>
    simp only [Stmt.hoistBodyOption]
    exact .pure _ _
  | some s =>
    simp only [Stmt.hoistBodyOption]
    exact (Stmt.hoistBody_parallel hh s).map _ _

theorem Stmt.hoistAll_parallel (ss : List Stmt) :
    (Stmt.hoistAll hints ss : HoistM σ _).Parallel (Stmt.hoistAll hints' ss : HoistM τ _) := by
  cases ss with
  | nil =>
    simp only [Stmt.hoistAll]
    exact .pure _ _
  | cons s ss =>
    simp only [Stmt.hoistAll]
    exact (Stmt.hoist_parallel rfl s).bind fun out out' => (Stmt.hoistAll_parallel ss).map _ _

/-- The runs that have been collected may differ. -/
theorem Stmt.hoistRun_parallel (label label' : String) (run run' ss : List Stmt) :
    (Stmt.hoistRun hints label run ss : HoistM σ _).Parallel
      (Stmt.hoistRun hints' label' run' ss : HoistM τ _) := by
  cases ss with
  | nil =>
    simp only [Stmt.hoistRun_nil]
    exact .pure _ _
  | cons s ss =>
    have hh : (some label).isSome = (some label').isSome := rfl
    by_cases hs : s.suspends = true
    · simp only [Stmt.hoistRun_suspends hs]
      refine (Stmt.hoist_parallel hh s).bind fun out out' => ?_
      exact (Stmt.hoistRun_parallel label label' [] [] ss).map _ _
    · have hplain := Bool.eq_false_iff.mpr hs
      cases s with
      | labeled target body span =>
        simp only [Stmt.hoistRun_labeled (show body.suspends = false from hplain)]
        refine (Stmt.hoistBody_parallel hh body).bind fun body' body'' => ?_
        exact (Stmt.hoistRun_parallel label label' [] [] ss).map _ _
      | _ =>
        simp only [Stmt.hoistRun_plain hplain rfl]
        exact (Stmt.hoistRun_parallel label label' _ _ ss).map _ _

/-- A block is treated by whether there is a handler around it. -/
theorem Block.hoistIn_parallel {handler handler' : Option String}
    (hh : handler.isSome = handler'.isSome) (b : Block) :
    (b.hoistIn hints handler : HoistM σ _).Parallel (b.hoistIn hints' handler' : HoistM τ _) := by
  cases b with
  | mk stmts span =>
    cases handler with
    | none =>
      cases handler' with
      | none =>
        simp only [Block.hoistIn]
        exact (Stmt.hoistAll_parallel stmts).map _ _
      | some label' => cases hh
    | some label =>
      cases handler' with
      | none => cases hh
      | some label' =>
        simp only [Block.hoistIn]
        exact (Stmt.hoistRun_parallel label label' [] [] stmts).map _ _

theorem Block.hoistEach_parallel {handler handler' : Option String}
    (hh : handler.isSome = handler'.isSome) (b : Option Block) :
    ∀ k ∈ b, (k.hoistIn hints handler : HoistM σ _).Parallel (k.hoistIn hints' handler' : HoistM τ _) := by
  cases b with
  | none =>
    intro k hk
    cases hk
  | some b =>
    rintro _ ⟨⟩
    exact Block.hoistIn_parallel hh b

theorem Block.hoistOption_parallel {handler handler' : Option String}
    (hh : handler.isSome = handler'.isSome) (b : Option Block) :
    (Block.hoistOption hints handler b : HoistM σ _).Parallel
      (Block.hoistOption hints' handler' b : HoistM τ _) := by
  cases b with
  | none =>
    simp only [Block.hoistOption]
    exact .pure _ _
  | some b =>
    simp only [Block.hoistOption]
    exact (Block.hoistIn_parallel hh b).map _ _

theorem Case.hoistAll_parallel (cases : List Case) :
    (Case.hoistAll hints cases : HoistM σ _).Parallel (Case.hoistAll hints' cases : HoistM τ _) := by
  cases cases with
  | nil =>
    simp only [Case.hoistAll]
    exact .pure _ _
  | cons case rest =>
    cases case with
    | mk test body =>
      simp only [Case.hoistAll]
      exact (Block.hoistIn_parallel rfl body).bind fun body' body'' => (Case.hoistAll_parallel rest).map _ _

end

/-! ## Whole bodies -/

/-- What hoisting decides: why it gives up, or how many tries it splits. -/
def Hoisted.decision (result : Except LowerError Hoisted) : Except LowerError Nat :=
  result.map Hoisted.splits

/-- The last check of hoisting finds nothing, so the pass itself decides. -/
theorem Block.hoist_eq {body : Block} (hs : body.suspends = true) (names : σ) :
    (body.hoist hints names).1 =
      match body.normalize.hoistIn hints none ⟨names, 0⟩ with
      | .ok hoisted st => .ok ⟨hoisted, st.splits⟩
      | .error e _ => .error e := by
  have hanswer := @Block.answers σ _ hints body {} none rfl ⟨names, 0⟩
  unfold Block.hoist
  rw [if_pos hs]
  cases hr : body.normalize.hoistIn hints none ⟨names, 0⟩ with
  | error e st => rfl
  | ok hoisted st =>
    rw [hr] at hanswer
    have hplaced : hoisted.misplaced? = none := hanswer.2
    dsimp only
    rw [hplaced]

/-- **Hoisting decides the same with any two supplies of names.** -/
theorem Block.hoist_decision (body : Block) (s : σ) (t : τ) :
    Hoisted.decision (body.hoist hints s).1 = Hoisted.decision (body.hoist hints' t).1 := by
  by_cases hs : body.suspends = true
  · have hnone : (none : Option String).isSome = (none : Option String).isSome := rfl
    have hfate := Block.hoistIn_parallel hints hints' hnone body.normalize s t 0
    rw [Block.hoist_eq hints hs, Block.hoist_eq hints' hs]
    generalize body.normalize.hoistIn hints none (⟨s, 0⟩ : HoistState σ) = r at hfate ⊢
    generalize body.normalize.hoistIn hints' none (⟨t, 0⟩ : HoistState τ) = r' at hfate ⊢
    cases hfate with
    | ok splits => rfl
    | error e => rfl
  · unfold Block.hoist
    rw [if_neg hs, if_neg hs]

end Pass

end Lowering
