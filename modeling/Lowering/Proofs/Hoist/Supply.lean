import Lowering.Proofs.Hoist.Refusals

/-!
# Hoisting knows a supply only by the names it hands out

Two supplies that hand out the same names, now and from then on, make hoisting do the same: it gives
the same body or gives up for the same reason, and the supplies still hand out the same names
afterwards (`Block.hoist_alike`). With one supply on both sides (`NameSupply.Bisimulation.diagonal`) this
says that hoisting keeps every invariant of the supply, also if it gives up.
-/

namespace Lowering

variable {σ τ : Type} [NameSupply σ] [NameSupply τ] {α β : Type}

/-- Which states of two supplies hand out the same names. -/
structure NameSupply.Bisimulation (σ τ : Type) [NameSupply σ] [NameSupply τ] where
  rel : σ → τ → Prop
  same {s : σ} {t : τ} : rel s t → ∀ hint span, (allocate hint span s).1 = (allocate hint span t).1
  keeps {s : σ} {t : τ} : rel s t → ∀ hint span,
    rel (allocate hint span s).2 (allocate hint span t).2

/-- What holds of a supply whatever it is asked for. -/
def NameSupply.Invariant (I : σ → Prop) : Prop :=
  ∀ ⦃s⦄, I s → ∀ hint span, I (allocate hint span s).2

/-- A supply with an invariant, and itself. -/
def NameSupply.Bisimulation.diagonal {I : σ → Prop} (hI : NameSupply.Invariant I) :
    NameSupply.Bisimulation σ σ where
  rel s t := s = t ∧ I s
  same := by
    rintro s _ ⟨rfl, h⟩ hint span
    rfl
  keeps := by
    rintro s _ ⟨rfl, h⟩ hint span
    exact ⟨rfl, hI h hint span⟩

variable (R : NameSupply.Bisimulation σ τ)

/-! ## Steps that do the same -/

/-- The same result, with supplies in the relation. -/
inductive HoistM.SameResult :
    EStateM.Result LowerError (HoistState σ) α → EStateM.Result LowerError (HoistState τ) α → Prop where
  | ok {a : α} {s : σ} {t : τ} {splits : Nat} (h : R.rel s t) :
    SameResult (.ok a ⟨s, splits⟩) (.ok a ⟨t, splits⟩)
  | error {e : LowerError} {s : σ} {t : τ} {splits : Nat} (h : R.rel s t) :
    SameResult (.error e ⟨s, splits⟩) (.error e ⟨t, splits⟩)

/-- Two steps that do the same, on any two supplies in the relation. -/
def HoistM.Alike (x : HoistM σ α) (y : HoistM τ α) : Prop :=
  ∀ ⦃s t⦄, R.rel s t → ∀ splits, SameResult R (x ⟨s, splits⟩) (y ⟨t, splits⟩)

variable {R}

namespace HoistM.Alike

variable {x : HoistM σ α} {y : HoistM τ α} {f : α → HoistM σ β} {g : α → HoistM τ β}

theorem pure (a : α) : Alike R (Pure.pure a : HoistM σ α) (Pure.pure a) := fun _ _ h _ => .ok h

theorem throw (e : LowerError) :
    Alike R (MonadExcept.throw e : HoistM σ α) (MonadExcept.throw e) := fun _ _ h _ => .error h

/-- Steps that do the same one after the other do the same, also if the first one fails. -/
theorem bind (hx : x.Alike R y) (hf : ∀ a, (f a).Alike R (g a)) : (x >>= f).Alike R (y >>= g) := by
  intro s t h splits
  have hsame := hx h splits
  show SameResult R (EStateM.bind x f _) (EStateM.bind y g _)
  unfold EStateM.bind
  generalize x ⟨s, splits⟩ = r at hsame ⊢
  generalize y ⟨t, splits⟩ = r' at hsame ⊢
  -- both go on, with the same result, or both give up
  cases hsame with
  | ok h' => exact hf _ h' _
  | error h' => exact .error h'

theorem map (hx : x.Alike R y) (g : α → β) :
    (x >>= fun a => Pure.pure (g a)).Alike R (y >>= fun a => Pure.pure (g a)) :=
  hx.bind fun a => .pure (g a)

end HoistM.Alike

theorem HoistM.countSplit_alike : (HoistM.countSplit : HoistM σ Unit).Alike R HoistM.countSplit :=
  fun _ _ h _ => .ok h

/-- Refusing a cleanup asks for no name. -/
theorem Block.refuseSuspension_alike (span : Span) (cleanup : Option Block) :
    (Block.refuseSuspension span cleanup : HoistM σ Unit).Alike R
      (Block.refuseSuspension span cleanup) := by
  cases cleanup with
  | none => exact .pure ()
  | some cleanup =>
    unfold Block.refuseSuspension
    by_cases hc : cleanup.suspends = true
    · simp only [if_pos hc]
      exact .throw _
    · simp only [if_neg hc]
      exact .pure ()

/-! ## The pass -/

section Pass

variable (R) (hints : HoistHints)

/-- The supplies hand out the same name and stay related: this is the only step that asks them. -/
theorem HoistM.fresh_alike (hint : String) (span : Span) :
    (HoistM.fresh hint span : HoistM σ String).Alike R (HoistM.fresh hint span) := by
  intro s t h splits
  show SameResult R (.ok (NameSupply.allocate hint span s).1 _) _
  rw [R.same h]
  exact .ok (R.keeps h hint span)

/-- A condition that is evaluated ahead gets the same local. -/
theorem Expr.guard_alike (handler : Option String) (span : Span) (test : Expr) :
    (test.guard hints handler span : HoistM σ _).Alike R (test.guard hints handler span) := by
  cases handler with
  | none => exact .pure _
  | some label =>
    unfold Expr.guard
    by_cases ht : test.isTrivial = true
    · simp only [if_pos ht]
      exact .pure _
    · simp only [if_neg ht]
      exact (HoistM.fresh_alike R _ _).map _

mutual

/-- **Hoisting a statement does the same with supplies that hand out the same names.** -/
theorem Stmt.hoist_alike (handler : Option String) (s : Stmt) :
    (s.hoist hints handler : HoistM σ _).Alike R (s.hoist hints handler) := by
  by_cases hs : s.suspends = true
  · cases s with
    | block body span =>
      simp only [Stmt.hoist_block hs]
      exact (Block.hoistIn_alike handler body).map _
    | labeled label body span =>
      simp only [Stmt.hoist_labeled hs]
      exact (Stmt.hoistBody_alike handler body).map _
    | ite test yes no span =>
      simp only [Stmt.hoist_ite hs]
      refine (Expr.guard_alike R hints handler span test).bind fun out => ?_
      refine (Stmt.hoistBody_alike handler yes).bind fun yes' => ?_
      exact (Stmt.hoistBodyOption_alike handler no).map _
    | loop test body span =>
      simp only [Stmt.hoist_loop hs]
      refine (Stmt.hoistBody_alike handler body).bind fun body' => ?_
      -- The test decides this, not the supply, so both runs take the same branch.
      by_cases hsplit : (handler.isSome && !test.isTrivial) = true
      · simp only [if_pos hsplit]
        exact (Expr.guard_alike R hints handler span test).map _
      · simp only [if_neg hsplit]
        exact .pure _
    | attempt body catcher cleanup span =>
      have hbody := fun handler => Block.hoistIn_alike handler body
      have hcatcher := Block.hoistEach_alike handler catcher
      have hcleanup := Block.hoistEach_alike handler cleanup
      have hoption := Block.hoistOption_alike handler cleanup
      -- A try is split if it has a handler, and the cleanup then goes around the two halves.
      cases catcher with
      | none =>
        simp only [Stmt.hoist_attempt hs]
        refine (Block.refuseSuspension_alike span cleanup).bind fun _ => ?_
        exact (hbody handler).bind fun body' => hoption.map _
      | some catcher =>
        cases cleanup with
        | none =>
          simp only [Stmt.hoist_split hs]
          refine (Block.refuseSuspension_alike span none).bind fun _ => ?_
          refine (HoistM.fresh_alike R _ _).bind fun label => ?_
          refine (HoistM.fresh_alike R _ _).bind fun done => HoistM.countSplit_alike.bind fun _ => ?_
          exact (hbody (some label)).bind fun body' => (hcatcher _ rfl).map _
        | some cleanup =>
          simp only [Stmt.hoist_splitCleanup hs]
          refine (Block.refuseSuspension_alike span (some cleanup)).bind fun _ => ?_
          refine (HoistM.fresh_alike R _ _).bind fun label => ?_
          refine (HoistM.fresh_alike R _ _).bind fun done => HoistM.countSplit_alike.bind fun _ => ?_
          refine (hbody (some label)).bind fun body' => (hcatcher _ rfl).bind fun catcher' => ?_
          exact (hcleanup _ rfl).map _
    | switch discriminant cases span =>
      simp only [Stmt.hoist_switch hs]
      by_cases hh : handler.isSome = true
      · simp only [if_pos hh]
        exact .throw _
      · simp only [if_neg hh]
        exact (Case.hoistAll_alike cases).map _
    | suspend kind value span =>
      simp only [Stmt.hoist_suspend]
      exact .pure _
    | goto _ _ | exit _ | next _ | eval _ _ | declare _ _ _ _ | ret _ _ | raise _ _ | method _ _ =>
      cases hs
  · simp only [Stmt.hoist_plain (Bool.eq_false_iff.mpr hs)]
    exact .pure _

theorem Stmt.hoistBody_alike (handler : Option String) (s : Stmt) :
    (s.hoistBody hints handler : HoistM σ _).Alike R (s.hoistBody hints handler) := by
  cases s with
  | block body span =>
    simp only [Stmt.hoistBody]
    exact (Block.hoistIn_alike handler body).map _
  | _ =>
    simp only [Stmt.hoistBody]
    exact .throw _

theorem Stmt.hoistBodyOption_alike (handler : Option String) (s : Option Stmt) :
    (Stmt.hoistBodyOption hints handler s : HoistM σ _).Alike R
      (Stmt.hoistBodyOption hints handler s) := by
  cases s with
  | none =>
    simp only [Stmt.hoistBodyOption]
    exact .pure _
  | some s =>
    simp only [Stmt.hoistBodyOption]
    exact (Stmt.hoistBody_alike handler s).map _

theorem Stmt.hoistAll_alike (ss : List Stmt) :
    (Stmt.hoistAll hints ss : HoistM σ _).Alike R (Stmt.hoistAll hints ss) := by
  cases ss with
  | nil =>
    simp only [Stmt.hoistAll]
    exact .pure _
  | cons s ss =>
    simp only [Stmt.hoistAll]
    exact (Stmt.hoist_alike none s).bind fun out => (Stmt.hoistAll_alike ss).map _

/-- What was collected in front is kept as it is, so it need not be related. -/
theorem Stmt.hoistRun_alike (label : String) (run ss : List Stmt) :
    (Stmt.hoistRun hints label run ss : HoistM σ _).Alike R (Stmt.hoistRun hints label run ss) := by
  cases ss with
  | nil =>
    simp only [Stmt.hoistRun_nil]
    exact .pure _
  | cons s ss =>
    by_cases hs : s.suspends = true
    · simp only [Stmt.hoistRun_suspends hs]
      exact (Stmt.hoist_alike (some label) s).bind fun out => (Stmt.hoistRun_alike label [] ss).map _
    · have hplain := Bool.eq_false_iff.mpr hs
      cases s with
      | labeled target body span =>
        simp only [Stmt.hoistRun_labeled (show body.suspends = false from hplain)]
        refine (Stmt.hoistBody_alike (some label) body).bind fun body' => ?_
        exact (Stmt.hoistRun_alike label [] ss).map _
      | _ =>
        simp only [Stmt.hoistRun_plain hplain rfl]
        exact (Stmt.hoistRun_alike label _ ss).map _

/-- A block is hoisted under the handler around it or under none. -/
theorem Block.hoistIn_alike (handler : Option String) (b : Block) :
    (b.hoistIn hints handler : HoistM σ _).Alike R (b.hoistIn hints handler) := by
  cases b with
  | mk stmts span =>
    cases handler with
    | none =>
      simp only [Block.hoistIn]
      exact (Stmt.hoistAll_alike stmts).map _
    | some label =>
      simp only [Block.hoistIn]
      exact (Stmt.hoistRun_alike label [] stmts).map _

theorem Block.hoistEach_alike (handler : Option String) (b : Option Block) :
    ∀ k ∈ b, (k.hoistIn hints handler : HoistM σ _).Alike R (k.hoistIn hints handler) := by
  cases b with
  | none => exact nofun
  | some b =>
    rintro _ ⟨⟩
    exact Block.hoistIn_alike handler b

theorem Block.hoistOption_alike (handler : Option String) (b : Option Block) :
    (Block.hoistOption hints handler b : HoistM σ _).Alike R (Block.hoistOption hints handler b) := by
  cases b with
  | none =>
    simp only [Block.hoistOption]
    exact .pure _
  | some b =>
    simp only [Block.hoistOption]
    exact (Block.hoistIn_alike handler b).map _

theorem Case.hoistAll_alike (cases : List Case) :
    (Case.hoistAll hints cases : HoistM σ _).Alike R (Case.hoistAll hints cases) := by
  cases cases with
  | nil =>
    simp only [Case.hoistAll]
    exact .pure _
  | cons case rest =>
    cases case with
    | mk test body =>
      simp only [Case.hoistAll]
      exact (Block.hoistIn_alike none body).bind fun body' => (Case.hoistAll_alike rest).map _

end

/-- **Hoisting does the same with supplies that hand out the same names.** -/
theorem Block.hoist_alike (body : Block) {s : σ} {t : τ} (h : R.rel s t) :
    (body.hoist hints s).1 = (body.hoist hints t).1 ∧
      R.rel (body.hoist hints s).2 (body.hoist hints t).2 := by
  unfold Block.hoist
  by_cases hs : body.suspends = true
  · simp only [if_pos hs]
    have hsame := Block.hoistIn_alike R hints none body.normalize h 0
    generalize body.normalize.hoistIn hints none (⟨s, 0⟩ : HoistState σ) = r at hsame ⊢
    generalize body.normalize.hoistIn hints none (⟨t, 0⟩ : HoistState τ) = r' at hsame ⊢
    cases hsame with
    | ok h' =>
      dsimp only
      split
      · exact ⟨rfl, h'⟩
      · exact ⟨rfl, h'⟩
    | error h' => exact ⟨rfl, h'⟩
  · rw [if_neg hs, if_neg hs]
    exact ⟨rfl, h⟩

end Pass

end Lowering
