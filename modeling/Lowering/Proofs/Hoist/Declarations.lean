import Lowering.Proofs.Hoist.Derivation
import Lowering.Proofs.Tree.Declared

/-!
# What hoisting declares

A hoisted body declares what the body declares, and every name that hoisting has asked for, each as
often as it stands there (`Block.hoist_declared`). So every declaration is kept, none is doubled, and
every name that is made up is used for one declaration. The order of the declarations may change.
-/

namespace Lowering

open NameSupply (Recorded)

/-! ## Statements that hoisting makes -/

namespace Stmt

theorem declaredAll_flush (label : String) (run : List Stmt) :
    declaredAll (flush label run) = declaredAll run := by
  unfold flush
  split
  · next h => rw [List.isEmpty_iff.mp h]
  · rw [declaredAll_cons, declaredAll_nil, List.append_nil, protect, declared, Block.declared]
    simp only [Block.declaredOption, Block.declared, declaredAll_cons, declared, declaredAll_nil,
      List.append_nil]

theorem declaredAll_splitTry (label done : String) (body handler : Block) :
    declaredAll (splitTry label done body handler) =
      body.declared ++ (label :: handler.declared ++ [done]) := by
  simp only [splitTry, declaredAll_cons, declaredAll_nil, declared, Block.declared, List.append_nil,
    List.nil_append]

theorem declared_splitLoop (before : List Stmt) (cond : Expr) (body : Stmt) (span : Span) :
    (splitLoop before cond body span).declared = declaredAll before ++ body.declared := by
  simp only [splitLoop, declared, Block.declared, declaredAll_append, declaredAll_cons, declaredAll_nil,
    declaredOption, List.append_nil, List.nil_append]

/-- A statement declares what stands of it in front of its run and in its run. -/
theorem declared_runParts (s : Stmt) :
    declaredAll s.runHead ++ declaredAll s.runWork = s.declared := by
  cases s with
  | declare name ty init span => cases init <;> rfl
  | method decl span =>
    rw [runHead, runWork, declaredAll_cons, declaredAll_nil, List.append_nil, List.append_nil]
  | _ => exact List.append_nil _

end Stmt

theorem Block.declared_stmts (b : Block) : b.declared = Stmt.declaredAll b.stmts := by
  cases b with
  | mk stmts span => rw [Block.declared]

/-! ## The rules -/

/-- To evaluate a condition, nothing is declared but what was asked for. -/
theorem Guards.declared {handler : Option String} {span : Span} {test test' : Expr}
    {coined : List Coined} {before : List Stmt} (h : Guards handler span test coined before test') :
    Stmt.declaredAll before = coined.flatMap Coined.names := by
  cases h <;> rfl

-- Both sides of each case are sums over the same summands. What a run that has been collected declares
-- is still to come.
mutual

/-- What is made of a statement declares what the statement declares, and what was asked for. -/
theorem Hoists.count_declared (name : String) : ∀ {handler s coined out}, Hoists handler s coined out →
    (Stmt.declaredAll out).count name =
      s.declared.count name + (coined.flatMap Coined.names).count name
  | _, _, _, _, .plain _ => by simp
  | _, _, _, _, .suspend => rfl
  | _, _, _, _, .block _ hb | _, _, _, _, .labeled _ hb | _, _, _, _, .loop _ _ hb
  | _, _, _, _, .attempt _ hb => by
    have hb := hb.count_declared name
    simp only [Stmt.declaredAll_cons, Stmt.declaredAll_nil, Stmt.declared, Block.declaredOption,
      Block.declared_stmts, List.append_nil, List.count_cons, List.count_nil] at hb ⊢
    omega
  -- A rule that coins declares the coined names in its own output, next to those of its premises.
  | _, _, _, _, .splitLoop _ ht hb => by
    have hb := hb.count_declared name
    simp only [Stmt.declaredAll_cons, Stmt.declaredAll_nil, Stmt.declared_splitLoop,
      (Guards.fresh ht).declared, Stmt.declared, Block.declared_stmts, List.flatMap_append,
      List.append_nil, List.count_append, List.count_nil] at hb ⊢
    omega
  | _, _, _, _, .ite _ hg hb => by
    have hb := hb.count_declared name
    simp only [Stmt.declaredAll_append, Stmt.declaredAll_cons, Stmt.declaredAll_nil, Stmt.declared,
      Stmt.declaredOption, Block.declared_stmts, hg.declared, List.flatMap_append, List.append_nil,
      List.count_append, List.count_nil] at hb ⊢
    omega
  | _, _, _, _, .iteElse _ hg hb hc => by
    have hb := hb.count_declared name
    have hc := hc.count_declared name
    simp only [Stmt.declaredAll_append, Stmt.declaredAll_cons, Stmt.declaredAll_nil, Stmt.declared,
      Stmt.declaredOption, Block.declared_stmts, hg.declared, List.flatMap_append, List.append_nil,
      List.count_append, List.count_nil] at hb hc ⊢
    omega
  | _, _, _, _, .attemptCleanup _ _ hb hc | _, _, _, _, .split _ hb hc => by
    have hb := hb.count_declared name
    have hc := hc.count_declared name
    simp only [Stmt.declaredAll_cons, Stmt.declaredAll_splitTry, Stmt.declaredAll_nil, Stmt.declared,
      Block.declaredOption, Block.declared_stmts, List.flatMap_cons, List.flatMap_append, Coined.names,
      List.append_nil, List.count_append, List.count_cons, List.count_nil] at hb hc ⊢
    omega
  | _, _, _, _, .splitCleanup _ _ hb hc hc' => by
    have hb := hb.count_declared name
    have hc := hc.count_declared name
    have hc' := hc'.count_declared name
    simp only [Stmt.declaredAll_cons, Stmt.declaredAll_splitTry, Stmt.declaredAll_nil, Stmt.declared,
      Block.declaredOption, Block.declared_stmts, List.flatMap_cons, List.flatMap_append, Coined.names,
      List.append_nil, List.count_append, List.count_cons, List.count_nil] at hb hc hc' ⊢
    omega
  | _, _, _, _, .switch _ hc => by
    rw [Stmt.declaredAll_cons, Stmt.declaredAll_nil, List.append_nil]
    exact hc.count_declared name

theorem HoistsAll.count_declared (name : String) : ∀ {handler run ss coined out},
    HoistsAll handler run ss coined out →
    (Stmt.declaredAll out).count name = (Stmt.declaredAll run).count name +
      (Stmt.declaredAll ss).count name + (coined.flatMap Coined.names).count name
  | _, _, _, _, _, .nil => rfl
  | _, _, _, _, _, .cons hs hss => by
    have hs := hs.count_declared name
    have hss := hss.count_declared name
    simp only [Stmt.declaredAll_append, Stmt.declaredAll_cons, Stmt.declaredAll_nil,
      List.flatMap_append, List.count_append, List.count_nil] at hs hss ⊢
    omega
  | _, _, _, _, _, .flush => by
    rw [Stmt.declaredAll_flush]
    rfl
  | _, _, _, _, _, .suspends _ hs hss => by
    have hs := hs.count_declared name
    have hss := hss.count_declared name
    simp only [Stmt.declaredAll_append, Stmt.declaredAll_flush, Stmt.declaredAll_cons,
      Stmt.declaredAll_nil, List.flatMap_append, List.count_append, List.count_nil] at hs hss ⊢
    omega
  | _, _, _, _, _, .labeled _ hb hss => by
    have hb := hb.count_declared name
    have hss := hss.count_declared name
    simp only [Stmt.declaredAll_append, Stmt.declaredAll_flush, Stmt.declaredAll_cons,
      Stmt.declaredAll_nil, Stmt.declared, Block.declared_stmts, List.flatMap_append, List.count_append,
      List.count_cons, List.count_nil] at hb hss ⊢
    omega
  | _, _, _, _, _, @HoistsAll.collect _ run s ss _ more _ _ hss => by
    have hss := hss.count_declared name
    simp only [Stmt.declaredAll_append, Stmt.declaredAll_cons, ← Stmt.declared_runParts s,
      List.count_append] at hss ⊢
    omega

theorem HoistsCases.count_declared (name : String) : ∀ {cases coined cases'},
    HoistsCases cases coined cases' →
    (Case.declaredAll cases').count name =
      (Case.declaredAll cases).count name + (coined.flatMap Coined.names).count name
  | _, _, _, .nil => rfl
  | _, _, _, .cons hb hcs => by
    have hb := hb.count_declared name
    have hcs := hcs.count_declared name
    simp only [Case.declaredAll, Stmt.declaredAll_nil, Block.declared_stmts, List.flatMap_append,
      List.count_append, List.count_nil] at hb hcs ⊢
    omega

end

/-! ## Whole bodies -/

variable {σ : Type} [NameSupply σ]

/-- What a supply gives is on record, the latest first. -/
theorem NameSupply.Gives.log {r r' : Recorded σ} {names : List String} (h : Gives r names r') :
    r'.log = names.reverse ++ r.log := by
  induction h with
  | nil => rfl
  | cons hint span _ ih =>
    rw [ih, List.reverse_cons, List.append_assoc]
    rfl

/-- **A hoisted body declares what the body declares and the names that hoisting asked for.** -/
theorem Block.hoist_declared (hints : HoistHints) {body : Block} {hoisted : Hoisted} {r r' : Recorded σ}
    (h : body.hoist hints r = (.ok hoisted, r')) :
    ∃ new, r'.log = new ++ r.log ∧
      ∀ name, hoisted.body.declared.count name = body.declared.count name + new.count name := by
  have hok : (body.hoist hints r).1 = .ok hoisted := by rw [h]
  have hlast : (body.hoist hints r).2 = r' := by rw [h]
  rcases Block.hoist_hoists hints hok with ⟨-, rfl, hsame⟩ | ⟨-, coined, ⟨out, hout, hbody⟩, hgives, -⟩
  · rw [hlast] at hsame
    exact ⟨[], by rw [hsame, List.nil_append], fun _ => rfl⟩
  · rw [hlast] at hgives
    refine ⟨(coined.flatMap Coined.names).reverse, hgives.log, fun name => ?_⟩
    rw [hbody, Block.declared_stmts, hout.count_declared, Stmt.declaredAll_nil, List.count_nil,
      Nat.zero_add, ← Block.declared_stmts, Block.declared_normalize, List.count_reverse]

end Lowering
