import Lowering.Hoist
import Lowering.Proofs.Hoist.Lowers

/-!
# Hoisting, case by case

One equation for each kind of statement that suspends, and one for each way that a statement under a
handler is dealt with. `HoistM.bind_eq_ok` takes a pass that succeeded apart into its steps.
-/

namespace Lowering

variable {σ : Type} {α β : Type} {st st' : HoistState σ}

/-! ## Steps -/

/-- Two steps succeed if the first does and the second does from where it ends. -/
theorem HoistM.bind_eq_ok {x : HoistM σ α} {f : α → HoistM σ β} {b : β} :
    (x >>= f) st = .ok b st' ↔ ∃ a st₁, x st = .ok a st₁ ∧ f a st₁ = .ok b st' := by
  show EStateM.bind x f st = .ok b st' ↔ _
  unfold EStateM.bind
  cases x st with
  | ok a st₁ =>
    constructor
    · exact fun h => ⟨a, st₁, rfl, h⟩
    · rintro ⟨a', st₂, h, h'⟩
      cases h
      exact h'
  | error e st₁ =>
    constructor
    · exact fun h => nomatch h
    · rintro ⟨a', st₂, h, h'⟩
      cases h

theorem HoistM.pure_eq_ok {a b : α} : (pure a : HoistM σ α) st = .ok b st' ↔ a = b ∧ st = st' := by
  show EStateM.Result.ok a st = .ok b st' ↔ _
  rw [EStateM.Result.ok.injEq]

variable [NameSupply σ] {hints : HoistHints} {handler : Option String} {span : Span}

/-- Asking for a name always succeeds and changes nothing but the supply. -/
theorem HoistM.fresh_eq_ok {hint name : String} :
    (HoistM.fresh hint span : HoistM σ String) st = .ok name st' ↔
      (NameSupply.allocate hint span st.names).1 = name ∧
        { st with names := (NameSupply.allocate hint span st.names).2 } = st' := by
  unfold HoistM.fresh
  rw [EStateM.Result.ok.injEq]

omit [NameSupply σ] in
/-- Counting a split changes nothing but the count. -/
theorem HoistM.countSplit_eq_ok :
    (HoistM.countSplit : HoistM σ Unit) st = .ok () st' ↔
      { st with splits := st.splits + 1 } = st' := by
  unfold HoistM.countSplit
  rw [EStateM.Result.ok.injEq]
  exact and_iff_right rfl

/-! ## Statements that suspend -/

namespace Stmt

/-- A block stays a block around what becomes of its statements. -/
theorem hoist_block {b : Block} (hs : (block b span).suspends = true) :
    ((block b span).hoist hints handler : HoistM σ _) = do
      let b ← b.hoistIn hints handler
      return [.block b span] := by
  unfold hoist
  rw [if_pos hs]

theorem hoist_labeled {label : String} {body : Stmt} (hs : (labeled label body span).suspends = true) :
    ((labeled label body span).hoist hints handler : HoistM σ _) = do
      let body ← body.hoistBody hints handler
      return [.labeled label body span] := by
  unfold hoist
  rw [if_pos hs]

/-- The condition of an `if` is evaluated in front of it if it might throw under a handler. -/
theorem hoist_ite {test : Expr} {yes : Stmt} {no : Option Stmt}
    (hs : (ite test yes no span).suspends = true) :
    ((ite test yes no span).hoist hints handler : HoistM σ _) = do
      let (before, test) ← test.guard hints handler span
      let yes ← yes.hoistBody hints handler
      let no ← Stmt.hoistBodyOption hints handler no
      return before ++ [.ite test yes no span] := by
  unfold hoist
  rw [if_pos hs]

/-- The condition of a loop is evaluated in its body, each time anew, if it might throw under a handler.
-/
theorem hoist_loop {test : Expr} {body : Stmt} (hs : (loop test body span).suspends = true) :
    ((loop test body span).hoist hints handler : HoistM σ _) = do
      let body ← body.hoistBody hints handler
      if handler.isSome && !test.isTrivial then
        let (before, cond) ← test.guard hints handler span
        return [splitLoop before cond body span]
      else return [.loop test body span] := by
  unfold hoist
  rw [if_pos hs]

theorem hoist_attempt {body : Block} {cleanup : Option Block}
    (hs : (attempt body none cleanup span).suspends = true) :
    ((attempt body none cleanup span).hoist hints handler : HoistM σ _) = do
      Block.refuseSuspension span cleanup
      let body ← body.hoistIn hints handler
      let cleanup ← Block.hoistOption hints handler cleanup
      return [.attempt body none cleanup span] := by
  unfold hoist
  rw [if_pos hs]

/-- A try with a handler is taken apart: its body under the new label, then the handler behind it. -/
theorem hoist_split {body catcher : Block} (hs : (attempt body (some catcher) none span).suspends = true) :
    ((attempt body (some catcher) none span).hoist hints handler : HoistM σ _) = do
      Block.refuseSuspension span none
      let label ← HoistM.fresh hints.handler span
      let done ← HoistM.fresh hints.done span
      HoistM.countSplit
      let body ← body.hoistIn hints (some label)
      let catcher ← catcher.hoistIn hints handler
      return splitTry label done body catcher := by
  unfold hoist
  rw [if_pos hs]

/-- With a cleanup, what the try becomes stands in a try of its own that has the cleanup. -/
theorem hoist_splitCleanup {body catcher cleanup : Block}
    (hs : (attempt body (some catcher) (some cleanup) span).suspends = true) :
    ((attempt body (some catcher) (some cleanup) span).hoist hints handler : HoistM σ _) = do
      Block.refuseSuspension span (some cleanup)
      let label ← HoistM.fresh hints.handler span
      let done ← HoistM.fresh hints.done span
      HoistM.countSplit
      let body ← body.hoistIn hints (some label)
      let catcher ← catcher.hoistIn hints handler
      let cleanup ← cleanup.hoistIn hints handler
      return [.attempt ⟨splitTry label done body catcher, span⟩ none (some cleanup) span] := by
  unfold hoist
  rw [if_pos hs]

/-- A switch that suspends is refused under a handler. -/
theorem hoist_switch {discriminant : Expr} {cases : List Case}
    (hs : (switch discriminant cases span).suspends = true) :
    ((switch discriminant cases span).hoist hints handler : HoistM σ _) =
      if handler.isSome then throw (.suspendingSwitch span)
      else do
        let cases ← Case.hoistAll hints cases
        return [.switch discriminant cases span] := by
  unfold hoist
  rw [if_pos hs]

/-- A suspension is left where it is. -/
theorem hoist_suspend {kind : SuspendKind} {value : Option Expr} :
    ((suspend kind value span).hoist hints handler : HoistM σ _) =
      pure [.suspend kind value span] := by
  unfold hoist
  rfl

/-! ## Statements under a handler -/

variable {label : String} {run rest : List Stmt}

/-- A statement that suspends ends the run, which is put under protection in front of it. -/
theorem hoistRun_suspends {s : Stmt} (hs : s.suspends = true) :
    (hoistRun hints label run (s :: rest) : HoistM σ _) = do
      let out ← s.hoist hints (some label)
      let more ← hoistRun hints label [] rest
      return flush label run ++ out ++ more := by
  rw [hoistRun.eq_def]
  simp only [hs, if_true]

/-- A label ends the run too, for it must stay a statement of its block to be jumped to. -/
theorem hoistRun_labeled {target : String} {body : Stmt} (hs : body.suspends = false) :
    (hoistRun hints label run (labeled target body span :: rest) : HoistM σ _) = do
      let body ← body.hoistBody hints (some label)
      let more ← hoistRun hints label [] rest
      return flush label run ++ .labeled target body span :: more := by
  rw [hoistRun.eq_def]
  simp only [suspends, hs, Bool.false_eq_true, if_false]

/-- Any other statement becomes part of the run. -/
theorem hoistRun_plain {s : Stmt} (hs : s.suspends = false) (hl : labels [s] = []) :
    (hoistRun hints label run (s :: rest) : HoistM σ _) = do
      let more ← hoistRun hints label (run ++ s.runWork) rest
      return s.runHead ++ more := by
  have hstays : ∀ x : HoistM σ (List Stmt), x = (do let more ← x; return [] ++ more) := by
    intro x
    funext st
    show x st = EStateM.bind x _ st
    unfold EStateM.bind
    cases x st <;> rfl
  rw [hoistRun.eq_def]
  simp only [hs, Bool.false_eq_true, if_false]
  cases s with
  | labeled => cases hl
  | declare => rfl
  | method => 
    rw [runWork, List.append_nil]
    rfl
  | _ => exact hstays _

end Stmt

end Lowering
