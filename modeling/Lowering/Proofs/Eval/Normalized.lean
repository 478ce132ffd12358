import Lowering.Proofs.Eval.Moments
import Lowering.Proofs.Tree.Normal
import Lowering.Proofs.Tree.NormalSites

/-!
# Running a normalized body

In a normalized body all branches and bodies are blocks (`Block.boxed_normalize`). The blocks that are put
there cost steps and nothing else. So a normalized body does what the body does, given steps enough for the
blocks (`Block.run_normalize`), unless a branch or a body carries a label: then the new block takes the
jumps to that label.
-/

namespace Lowering

/-! ## The form of a normalized body -/

def Stmt.isBlock : Stmt → Bool
  | .block .. => true
  | _ => false

/-- Whether the branches and bodies of a statement are blocks. -/
def Stmt.boxed : Stmt → Bool
  | .ite _ yes no _ => yes.isBlock && no.all isBlock
  | .loop _ body _ | .labeled _ body _ => body.isBlock
  | _ => true

theorem Stmt.isBlock_asBlock (s : Stmt) : s.asBlock.isBlock = true := by
  cases s <;> rfl

theorem Stmt.boxed_normalize (s : Stmt) : s.normalize.boxed = true := by
  cases s with
  | ite test yes no span =>
    rw [normalize, boxed, isBlock_asBlock, Bool.true_and]
    cases no with
    | none => rfl
    | some no => exact isBlock_asBlock no.normalize
  | loop test body span => exact isBlock_asBlock body.normalize
  | labeled label body span => exact isBlock_asBlock body.normalize
  | _ => rfl

/-- **All branches and bodies of a normalized body are blocks**, at any depth. -/
theorem Block.boxed_normalize (b : Block) : ∀ p ∈ Stmt.partsAll b.normalize.stmts, p.boxed = true := by
  intro p hp
  rw [← Stmt.map_stmt_sites_block {} b.normalize] at hp
  obtain ⟨site, hsite, rfl⟩ := List.mem_map.mp hp
  -- a statement of the body, normalized, or a block that was put around one
  rcases b.mem_sites_normalize {} hsite with ⟨origin, -, rfl⟩ | ⟨⟨body, span, hblock⟩, -⟩
  · exact origin.stmt.boxed_normalize
  · rw [hblock]
    rfl

/-! ## Running it -/

/-- Bodies that end alike complete alike, on machines that differ in their clocks only. -/
theorem Block.run_of_ends_alike {b b' : Block}
    (hends : ∀ m o, Ends (.rest b.stmts b.stmts) m o → Ends (.rest b'.stmts b'.stmts) m o) (m : Machine)
    (hlimit : ∀ limit, (m.run b).1 ≠ .error (.stepLimit limit)) :
    ∃ least, ∀ limit ≥ least, ({ m with stepLimit := limit }.run b').1 = (m.run b).1 ∧
      ({ m with stepLimit := limit }.run b').2.untimed = (m.run b).2.untimed := by
  obtain ⟨o, ho, hcomplete⟩ := Block.ends_of_run hlimit
  obtain ⟨least, hleast⟩ := Block.run_of_ends (hends m.untimed o ho)
  refine ⟨least, fun limit hl => ?_⟩
  exact Prod.mk.inj ((hleast limit hl).trans hcomplete)

/-- **A normalized body does what the body does**, with a step limit that is large enough: it completes
alike, and all of the machine but its clock is the same. Its branches and bodies are blocks, and
normalizing it again changes nothing. -/
theorem Block.run_normalize (b : Block) :
    ((∀ p ∈ Stmt.partsAll b.stmts, p.braced = true) →
      ∀ m : Machine, (∀ limit, (m.run b).1 ≠ .error (.stepLimit limit)) →
        ∃ least, ∀ limit ≥ least,
          ({ m with stepLimit := limit }.run b.normalize).1 = (m.run b).1 ∧
            ({ m with stepLimit := limit }.run b.normalize).2.untimed = (m.run b).2.untimed) ∧
      (∀ p ∈ Stmt.partsAll b.normalize.stmts, p.boxed = true) ∧
      b.normalize.normalize = b.normalize := by
  refine ⟨fun hbraced m => Block.run_of_ends_alike (fun m o h => ?_) m, b.boxed_normalize,
    b.normalize_normalize⟩
  have hinside : (Task.rest b.stmts b.stmts).Inside (Stmt.partsAll b.stmts) :=
    ⟨List.Subset.refl _, List.Subset.refl _⟩
  have hnormal := h.normalize hinside hbraced
  rw [Task.normalize, ← Block.stmts_normalize] at hnormal
  exact hnormal

/-- `L: { while (more()) if (odd()) continue; else f(); } if (again()) goto L;` -/
def Block.retries : Block :=
  ⟨[.labeled "L" (.block ⟨[.loop (.call "more" [])
        (.ite (.call "odd" []) (.next .dummy) (some (.eval (.call "f" []) .dummy)) .dummy) .dummy],
      .dummy⟩ .dummy) .dummy,
    .ite (.call "again" []) (.goto "L" .dummy) none .dummy], .dummy⟩

theorem Block.run_normalize_retries :
    let m := ((Machine.initial.scriptCall "more" [.bool true, .bool true, .null, .bool true]).scriptCall
      "odd" [.bool true]).scriptCall "again" [.bool true]
    (∀ p ∈ Stmt.partsAll retries.stmts, p.braced = true) ∧
      (m.run retries).1 = .ok .finished ∧ (m.run retries).2.calls =
        ["more", "odd", "more", "odd", "f", "more", "again", "more", "odd", "f", "more", "again"] ∧
      (∃ least, ∀ limit ≥ least,
        ({ m with stepLimit := limit }.run retries.normalize).1 = (m.run retries).1 ∧
          ({ m with stepLimit := limit }.run retries.normalize).2.untimed = (m.run retries).2.untimed) ∧
      retries.normalize.normalize = retries.normalize := by
  intro m
  have hbraced : ∀ p ∈ Stmt.partsAll retries.stmts, p.braced = true := by decide
  obtain ⟨hrun, hcalls⟩ : (m.run retries).1 = .ok .finished ∧ (m.run retries).2.calls =
      ["more", "odd", "more", "odd", "f", "more", "again", "more", "odd", "f", "more", "again"] :=
    Machine.run_completes .finished Machine.calls 38 (by decide +kernel)
  obtain ⟨hkept, -, htwice⟩ := run_normalize retries
  refine ⟨hbraced, hrun, hcalls, hkept hbraced m fun limit => ?_, htwice⟩
  rw [hrun]
  simp

-- `L: f(); if (again()) L: if (c()) goto L; else g();` has a label on a branch
example :
    let branch : Stmt := .labeled "L" (.ite (.call "c" []) (.goto "L" .dummy)
      (some (.eval (.call "g" []) .dummy)) .dummy) .dummy
    let b : Block := ⟨[.labeled "L" (.eval (.call "f" []) .dummy) .dummy,
      .ite (.call "again" []) branch none .dummy], .dummy⟩
    let m := (Machine.initial.scriptCall "again" [.bool true]).scriptCall "c" [.bool true]
    (m.run b).2.calls = ["f", "again", "c", "f", "again"] ∧
      (m.run b.normalize).2.calls = ["f", "again", "c", "c", "g"] := by
  exact ⟨(Machine.run_completes .finished Machine.calls 60 (by decide +kernel)).2,
    (Machine.run_completes .finished Machine.calls 60 (by decide +kernel)).2⟩

end Lowering
