import Lowering.Proofs.Hoist.Refusals
import Lowering.Proofs.Tree.Normalize

/-!
# Normalized statements

A statement is *normal* if normalizing leaves it as it is: its branches and bodies are blocks, at any
depth. Normalizing makes statements normal (`Block.normalize_normalize`), and a statement whose branches
and bodies are blocks is normal if the statements in these are.
-/

namespace Lowering

/-! ## Normalizing twice -/

/-- A block around a normal statement is normal. -/
theorem Stmt.asBlock_normalize_asBlock {s : Stmt} (h : s.normalize = s) :
    s.asBlock.normalize.asBlock = s.asBlock := by
  cases s with
  | block body span => rw [Stmt.asBlock, h, Stmt.asBlock]
  | _ =>
    simp only [Stmt.asBlock]
    rw [Stmt.normalize, Block.normalize, Stmt.normalizeAll, Stmt.normalizeAll, h]

mutual

/-- A normalized statement is normal already: what has braces gets none. -/
theorem Stmt.normalize_normalize (s : Stmt) : s.normalize.normalize = s.normalize := by
  cases s with
  | block body span =>
    rw [Stmt.normalize, Stmt.normalize, Block.normalize_normalize body]
  | ite test yes no span =>
    rw [Stmt.normalize, Stmt.normalize, Stmt.asBlock_normalize_asBlock (Stmt.normalize_normalize yes),
      Stmt.normalize_normalizeOption no]
  | loop test body span =>
    rw [Stmt.normalize, Stmt.normalize, Stmt.asBlock_normalize_asBlock (Stmt.normalize_normalize body)]
  | labeled label body span =>
    rw [Stmt.normalize, Stmt.normalize, Stmt.asBlock_normalize_asBlock (Stmt.normalize_normalize body)]
  | attempt body handler cleanup span =>
    rw [Stmt.normalize, Stmt.normalize, Block.normalize_normalize body,
      Block.normalize_normalizeOption handler, Block.normalize_normalizeOption cleanup]
  | switch discriminant cases span =>
    rw [Stmt.normalize, Stmt.normalize, Case.normalize_normalizeAll cases]
  | goto _ _ | exit _ | next _ | eval _ _ | declare _ _ _ _ | ret _ _ | suspend _ _ _ | raise _ _
  | method _ _ => rw [Stmt.normalize, Stmt.normalize]

theorem Stmt.normalize_normalizeOption (s : Option Stmt) :
    Stmt.normalizeOption (Stmt.normalizeOption s) = Stmt.normalizeOption s := by
  cases s with
  | none => rw [Stmt.normalizeOption, Stmt.normalizeOption]
  | some s =>
    rw [Stmt.normalizeOption, Stmt.normalizeOption,
      Stmt.asBlock_normalize_asBlock (Stmt.normalize_normalize s)]

theorem Stmt.normalize_normalizeAll (ss : List Stmt) :
    Stmt.normalizeAll (Stmt.normalizeAll ss) = Stmt.normalizeAll ss := by
  cases ss with
  | nil => rw [Stmt.normalizeAll, Stmt.normalizeAll]
  | cons s ss =>
    rw [Stmt.normalizeAll, Stmt.normalizeAll, Stmt.normalize_normalize s,
      Stmt.normalize_normalizeAll ss]

/-- **Normalizing twice is normalizing once.** -/
theorem Block.normalize_normalize (b : Block) : b.normalize.normalize = b.normalize := by
  cases b with
  | mk stmts span => rw [Block.normalize, Block.normalize, Stmt.normalize_normalizeAll stmts]

theorem Block.normalize_normalizeOption (b : Option Block) :
    Block.normalizeOption (Block.normalizeOption b) = Block.normalizeOption b := by
  cases b with
  | none => rw [Block.normalizeOption, Block.normalizeOption]
  | some b => rw [Block.normalizeOption, Block.normalizeOption, Block.normalize_normalize b]

theorem Case.normalize_normalizeAll (cases : List Case) :
    Case.normalizeAll (Case.normalizeAll cases) = Case.normalizeAll cases := by
  cases cases with
  | nil => rw [Case.normalizeAll, Case.normalizeAll]
  | cons case rest =>
    cases case with
    | mk test body =>
      rw [Case.normalizeAll, Case.normalizeAll, Block.normalize_normalize body,
        Case.normalize_normalizeAll rest]

end

/-! ## Normal statements -/

/-- Normalizing leaves the statement as it is. -/
def Stmt.Normal (s : Stmt) : Prop := s.normalize = s

/-- Normalizing leaves each of the statements as it is. -/
def Stmt.AllNormal (ss : List Stmt) : Prop := ∀ s ∈ ss, s.Normal

/-- Statements stay as they are if each is normal. -/
theorem Stmt.normalizeAll_eq_self {ss : List Stmt} : Stmt.normalizeAll ss = ss ↔ Stmt.AllNormal ss := by
  unfold Stmt.AllNormal
  induction ss with
  | nil => exact iff_of_true (by rw [Stmt.normalizeAll]) (List.forall_mem_nil _)
  | cons s ss ih => rw [Stmt.normalizeAll, List.cons.injEq, ih, List.forall_mem_cons, Stmt.Normal]

/-- A body stays as it is if all its statements are normal. -/
theorem Block.normalize_eq_self {b : Block} : b.normalize = b ↔ Stmt.AllNormal b.stmts := by
  cases b with
  | mk stmts span =>
    rw [Block.normalize, Block.mk.injEq, Stmt.normalizeAll_eq_self]
    exact and_iff_left rfl

theorem Block.normalizeOption_eq_self {b : Option Block} :
    Block.normalizeOption b = b ↔ ∀ k ∈ b, Stmt.AllNormal k.stmts := by
  cases b with
  | none => exact iff_of_true (by rw [Block.normalizeOption]) fun k hk => absurd hk (Option.not_mem_none k)
  | some b =>
    rw [Block.normalizeOption, Option.some.injEq, Block.normalize_eq_self]
    exact ⟨fun h k hk => Option.some.inj hk ▸ h, fun h => h b rfl⟩

theorem Case.normalizeAll_eq_self {cases : List Case} :
    Case.normalizeAll cases = cases ↔ ∀ case ∈ cases, Stmt.AllNormal case.body.stmts := by
  induction cases with
  | nil => exact iff_of_true (by rw [Case.normalizeAll]) (List.forall_mem_nil _)
  | cons case rest ih =>
    cases case with
    | mk test body =>
      rw [Case.normalizeAll, List.cons.injEq, Case.mk.injEq, Block.normalize_eq_self, ih,
        List.forall_mem_cons]
      exact and_congr_left fun _ => and_iff_right rfl

namespace Stmt

variable {b c : Block} {span bspan cspan : Span} {test : Expr}

/-- A block needs no braces. -/
theorem asBlock_normalize_block : (block b bspan).normalize.asBlock = block b.normalize bspan := by
  rw [normalize, asBlock]

/-- A block is normal if its statements are. -/
theorem normal_block : (block b span).Normal ↔ AllNormal b.stmts := by
  rw [Normal, normalize, block.injEq, Block.normalize_eq_self]
  exact and_iff_left rfl

/-- A labeled statement is normal only with a block behind the label, and so for loops and branches. -/
theorem normal_labeled {label : String} :
    (labeled label (block b bspan) span).Normal ↔ AllNormal b.stmts := by
  rw [Normal, normalize, asBlock_normalize_block, labeled.injEq, block.injEq, Block.normalize_eq_self]
  simp only [and_true, true_and]

theorem normal_loop : (loop test (block b bspan) span).Normal ↔ AllNormal b.stmts := by
  rw [Normal, normalize, asBlock_normalize_block, loop.injEq, block.injEq, Block.normalize_eq_self]
  simp only [and_true, true_and]

theorem normal_ite : (ite test (block b bspan) none span).Normal ↔ AllNormal b.stmts := by
  rw [Normal, normalize, asBlock_normalize_block, normalizeOption, ite.injEq, block.injEq,
    Block.normalize_eq_self]
  simp only [and_true, true_and]

theorem normal_iteElse : (ite test (block b bspan) (some (block c cspan)) span).Normal ↔
    AllNormal b.stmts ∧ AllNormal c.stmts := by
  rw [Normal, normalize, asBlock_normalize_block, normalizeOption, asBlock_normalize_block, ite.injEq,
    block.injEq, Option.some.injEq, block.injEq, Block.normalize_eq_self, Block.normalize_eq_self]
  simp only [and_true, true_and]

/-- A try is normal if its body is and its clauses are, as far as it has any. -/
theorem normal_attempt {handler cleanup : Option Block} : (attempt b handler cleanup span).Normal ↔
    AllNormal b.stmts ∧ (∀ k ∈ handler, AllNormal k.stmts) ∧ ∀ k ∈ cleanup, AllNormal k.stmts := by
  rw [Normal, normalize, attempt.injEq, Block.normalize_eq_self, Block.normalizeOption_eq_self,
    Block.normalizeOption_eq_self]
  simp only [and_true]

theorem normal_switch {discriminant : Expr} {cases : List Case} :
    (switch discriminant cases span).Normal ↔ ∀ case ∈ cases, AllNormal case.body.stmts := by
  rw [Normal, normalize, switch.injEq, Case.normalizeAll_eq_self]
  simp only [and_true, true_and]

end Stmt

end Lowering
