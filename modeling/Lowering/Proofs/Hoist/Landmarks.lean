import Lowering.Proofs.Hoist.Derivation
import Lowering.Proofs.Tree.Landmarks

/-!
# Hoisting loses nothing, doubles nothing and reorders no event

The calls and suspensions of a hoisted body are those of the body, in the same order, and its nested
methods are those of the body (`Block.events_hoist`). Runs, handlers and conditions move, but never past
an event. A nested method moves in front of its run.
-/

namespace Lowering

open Landmark (Kept)

/-! ## Statements that hoisting makes -/

namespace Stmt

/-- Protection adds no call and no suspension. -/
theorem landmarks_protect (label : String) (run : List Stmt) :
    (protect label run).landmarks = landmarksAll run := List.append_nil _

theorem landmarksAll_flush (label : String) (run : List Stmt) :
    landmarksAll (flush label run) = landmarksAll run := by
  unfold flush
  split
  · next h => rw [List.isEmpty_iff.mp h]
  · rw [landmarksAll_singleton, landmarks_protect]

/-- In a split try the body comes before the handler, as in the try. -/
theorem landmarksAll_splitTry (label done : String) (body handler : Block) :
    landmarksAll (splitTry label done body handler) = body.landmarks ++ handler.landmarks := by
  simp only [splitTry, landmarksAll_cons, landmarksAll_nil, landmarks, Block.landmarks,
    List.append_nil, List.nil_append]

/-- In a loop that is taken apart the condition comes before the body, as in the loop. -/
theorem landmarks_splitLoop (before : List Stmt) (cond : Expr) (body : Stmt) (span : Span) :
    (splitLoop before cond body span).landmarks =
      landmarksAll before ++ (cond.landmarks ++ body.landmarks) := by
  simp only [splitLoop, landmarks, Block.landmarks, landmarksAll_append, landmarksAll_cons,
    landmarksAll_nil, landmarksOption, Expr.landmarks, Expr.calls, List.map_nil, List.append_nil,
    List.nil_append]

/-- A statement has its landmarks in front of its run and in its run. -/
theorem landmarks_runParts (s : Stmt) :
    landmarksAll s.runHead ++ landmarksAll s.runWork = s.landmarks := by
  cases s with
  | declare name ty init span =>
    cases init with
    | none => rfl
    | some e => exact List.append_nil _
  | method decl span => rfl
  | _ => exact List.append_nil _

/-- Only a nested method is put in front of a run with its landmarks. -/
theorem isEvent_runHead {s : Stmt} : ∀ l ∈ landmarksAll s.runHead, l.isEvent = false := by
  intro l hl
  cases s with
  | method decl span =>
    rw [List.mem_singleton.mp hl]
    rfl
  | _ => cases hl

end Stmt

/-- A condition that is evaluated ahead has its calls in front, and once. -/
theorem Guards.landmarks {handler : Option String} {span : Span} {test test' : Expr}
    {coined : List Coined} {before : List Stmt} (h : Guards handler span test coined before test') :
    Stmt.landmarksAll before ++ test'.landmarks = test.landmarks := by
  cases h with
  | same => rfl
  | fresh =>
    simp only [Expr.guarding, Stmt.landmarksAll_cons, Stmt.landmarksAll_nil, Stmt.landmarks_protect,
      Stmt.landmarks, Expr.landmarksOption, Expr.landmarks, Expr.calls, List.map_nil, List.append_nil,
      List.nil_append]

/-! ## The rules -/

/-- Statements for those of a block make up a block in its place. -/
theorem Landmark.Kept.block {b : Block} {out : List Stmt}
    (h : Kept (Stmt.landmarksAll out) (Stmt.landmarksAll [] ++ Stmt.landmarksAll b.stmts)) :
    Kept (Block.mk out b.span).landmarks b.landmarks := by
  rw [Block.landmarks_eq, Block.landmarks_eq b]
  exact h

-- The landmarks of a run that has been collected come in front of those of the statements to come.
mutual

/-- **Each rule keeps the landmarks.** -/
theorem Hoists.kept : ∀ {handler s coined out}, Hoists handler s coined out →
    Kept (Stmt.landmarksAll out) s.landmarks
  | _, _, _, _, .plain _ | _, _, _, _, .suspend => by
    rw [Stmt.landmarksAll_singleton]
    exact .refl _
  | _, _, _, _, .block _ hb | _, _, _, _, .labeled _ hb => by
    rw [Stmt.landmarksAll_singleton]
    exact hb.kept.block
  -- A guard evaluates the test before the branch, which is where the test stood.
  | _, _, _, _, .ite _ hg hb => by
    rw [Stmt.landmarksAll_append, Stmt.landmarksAll_singleton, Stmt.landmarks, Stmt.landmarks,
      ← List.append_assoc, hg.landmarks]
    exact (Kept.refl _).append (hb.kept.block.append (.refl _))
  | _, _, _, _, .iteElse _ hg hb hc => by
    rw [Stmt.landmarksAll_append, Stmt.landmarksAll_singleton, Stmt.landmarks, Stmt.landmarks,
      ← List.append_assoc, hg.landmarks]
    exact (Kept.refl _).append (hb.kept.block.append hc.kept.block)
  | _, _, _, _, .loop _ _ hb => by
    rw [Stmt.landmarksAll_singleton]
    exact (Kept.refl _).append hb.kept.block
  | _, _, _, _, .splitLoop _ ht hb => by
    rw [Stmt.landmarksAll_singleton, Stmt.landmarks_splitLoop,
      ← List.append_assoc, (Guards.fresh ht).landmarks]
    exact (Kept.refl _).append hb.kept.block
  | _, _, _, _, .attempt _ hb => by
    rw [Stmt.landmarksAll_singleton]
    exact hb.kept.block.append (.refl _)
  | _, _, _, _, .attemptCleanup _ _ hb hc => by
    rw [Stmt.landmarksAll_singleton]
    exact hb.kept.block.append hc.kept.block
  | _, _, _, _, .split _ hb hc => by
    rw [Stmt.landmarksAll_splitTry, Stmt.landmarks, Block.landmarksOption, Block.landmarksOption,
      List.append_nil]
    exact hb.kept.block.append hc.kept.block
  | _, _, _, _, .splitCleanup _ _ hb hc hc' => by
    rw [Stmt.landmarksAll_singleton, Stmt.landmarks, Block.landmarks,
      Stmt.landmarksAll_splitTry, List.append_assoc]
    exact hb.kept.block.append (hc.kept.block.append hc'.kept.block)
  | _, _, _, _, .switch _ hc => by
    rw [Stmt.landmarksAll_singleton]
    exact (Kept.refl _).append hc.kept

/-- The landmarks of the run that was collected come first. -/
theorem HoistsAll.kept : ∀ {handler run ss coined out}, HoistsAll handler run ss coined out →
    Kept (Stmt.landmarksAll out) (Stmt.landmarksAll run ++ Stmt.landmarksAll ss)
  | _, _, _, _, _, .nil => .refl _
  | _, _, _, _, _, .cons hs hss => by
    rw [Stmt.landmarksAll_append]
    exact hs.kept.append hss.kept
  | _, _, _, _, _, .flush => by
    rw [Stmt.landmarksAll_flush, Stmt.landmarksAll_nil, List.append_nil]
    exact .refl _
  | _, _, _, _, _, .suspends _ hs hss => by
    rw [Stmt.landmarksAll_append, Stmt.landmarksAll_append, Stmt.landmarksAll_flush]
    exact (Kept.refl _).append (hs.kept.append hss.kept)
  | _, _, _, _, _, .labeled _ hb hss => by
    rw [Stmt.landmarksAll_append, Stmt.landmarksAll_flush]
    exact (Kept.refl _).append (hb.kept.block.append hss.kept)
  | _, _, _, _, _, @HoistsAll.collect _ run s ss _ more _ _ hss => by
    have hmore := hss.kept
    rw [Stmt.landmarksAll_append, List.append_assoc] at hmore
    rw [Stmt.landmarksAll_append, Stmt.landmarksAll_cons, ← Stmt.landmarks_runParts s]
    -- what stands in front of the run are methods, which move past it
    have hmoved : Kept (Stmt.landmarksAll s.runHead ++ Stmt.landmarksAll run)
      (Stmt.landmarksAll run ++ Stmt.landmarksAll s.runHead) := .swap Stmt.isEvent_runHead
    have hrest := hmoved.append (.refl (Stmt.landmarksAll s.runWork ++ Stmt.landmarksAll ss))
    simp only [List.append_assoc] at hrest ⊢
    exact ((Kept.refl _).append hmore).trans hrest

theorem HoistsCases.kept : ∀ {cases coined cases'}, HoistsCases cases coined cases' →
    Kept (Case.landmarksAll cases') (Case.landmarksAll cases)
  | _, _, _, .nil => .refl _
  | _, _, _, .cons hb hcs => (Kept.refl _).append (hb.kept.block.append hcs.kept)

end

/-! ## Whole bodies -/

variable {σ : Type} [NameSupply σ]

/-- Hoisting keeps the landmarks of a body, nested methods up to order. -/
theorem Block.landmarks_hoist {hints : HoistHints} {body : Block} {names : σ} {hoisted : Hoisted}
    (h : (body.hoist hints names).1 = .ok hoisted) : Kept hoisted.body.landmarks body.landmarks := by
  rcases Block.hoist_hoists hints h with ⟨-, rfl, -⟩ | ⟨-, coined, ⟨out, hout, hbody⟩, -⟩
  · exact .refl _
  · rw [hbody, ← Block.landmarks_normalize body]
    exact hout.kept.block

/-- **Nothing is lost, doubled or reordered.** A hoisted body has the calls and the suspensions of the
body, in the same order, and its nested methods, each as often. -/
theorem Block.events_hoist {hints : HoistHints} {body : Block} {names : σ} {hoisted : Hoisted}
    (h : (body.hoist hints names).1 = .ok hoisted) :
    hoisted.body.events = body.events ∧ hoisted.body.methods.Perm body.methods :=
  have hkept := Block.landmarks_hoist h
  ⟨hkept.events, hkept.perm.filterMap _⟩

/-- A run, a condition, a handler and a cleanup that call, and two methods that change places:
```text
try {
  int x = f(g(1));
  if (p(x)) { void m() { } }
  void n() { k(); }
  while (q()) yield h(x);
} catch { k(); } finally { c(); }
```
-/
def Block.busyTry : Block :=
  let named (name : String) (body : Block) : Stmt :=
    .method ⟨name, .priv, false, [], .void, body, .dummy⟩ .dummy
  let call (name : String) : Block := ⟨[.eval (.call name []) .dummy], .dummy⟩
  ⟨[.attempt
    ⟨[.declare "x" .int (some (.call "f" [.call "g" [.int 1]])) .dummy,
      .ite (.call "p" [.var "x"]) (.block ⟨[named "m" ⟨[], .dummy⟩], .dummy⟩ .dummy) none .dummy,
      named "n" (call "k"),
      .loop (.call "q" []) (.suspend .yield (some (.call "h" [.var "x"])) .dummy) .dummy], .dummy⟩
    (some (call "k")) (some (call "c")) .dummy], .dummy⟩

/-- The order of the methods is not kept. -/
theorem Block.events_hoist_busyTry :
    ∃ hoisted, (busyTry.hoist {} Names.empty).1 = .ok hoisted ∧ hoisted.body.events = busyTry.events ∧
      hoisted.body.methods.Perm busyTry.methods ∧
      busyTry.methods.map (·.1.name) = ["m", "n"] ∧ hoisted.body.methods.map (·.1.name) = ["n", "m"] := by
  obtain ⟨hoisted, hok, hmoved⟩ : ∃ hoisted, (busyTry.hoist {} Names.empty).1 = .ok hoisted ∧
      hoisted.body.methods.map (·.1.name) = ["n", "m"] := ⟨_, rfl, rfl⟩
  obtain ⟨hevents, hmethods⟩ := Block.events_hoist hok
  exact ⟨hoisted, hok, hevents, hmethods, rfl, hmoved⟩

end Lowering
