import Lowering.Proofs.Hoist.Independence
import Lowering.Proofs.Hoist.Splits
import Lowering.Proofs.Module.Names
import Lowering.Proofs.Tree.Rename
import Mathlib.Data.List.Nodup
import Mathlib.Logic.Function.Basic

/-!
# Hoisting does not look at names

The rules of hoisting are closed under renaming: any map of names takes what they make of a statement to
what they make of the renamed one (`Hoists.rename`). And the names that are coined determine the rest
(`Hoists.determined`): two ways to hoist a statement coin names of the same kinds, and if they coin the same
names, they make the same statements.

So two runs on the same body differ only in the names that they were given
(`Block.hoist_renamed`).
-/

namespace Lowering

/-! ## What hoisting puts together, renamed -/

section Pieces

variable (f : String → String)

namespace Stmt

theorem cover_rename (ss : List Stmt) : cover (ss.map (rename f)) = cover ss := by
  unfold cover
  rw [List.head?_map, List.getLast?_map]
  cases ss.head? <;> cases ss.getLast? <;> simp [span_rename]

/-- The handler of a protected run jumps to the renamed label. -/
theorem rename_protect (label : String) (run : List Stmt) :
    (protect label run).rename f = protect (f label) (run.map (rename f)) := by
  simp only [protect, rename, Block.renameOption, Block.rename_mk, List.map_cons, List.map_nil,
    cover_rename]

theorem map_rename_flush (label : String) (run : List Stmt) :
    (flush label run).map (rename f) = flush (f label) (run.map (rename f)) := by
  cases run with
  | nil => rfl
  | cons s run => exact congrArg ([·]) (rename_protect f label (s :: run))

/-- A split try has its two labels renamed with all that it holds. -/
theorem map_rename_splitTry (label done : String) (body handler : Block) :
    (splitTry label done body handler).map (rename f) =
      splitTry (f label) (f done) (body.rename f) (handler.rename f) := by
  simp only [splitTry, List.map_cons, List.map_nil, rename, Block.span_rename, Block.rename_mk]

theorem rename_splitLoop (before : List Stmt) (cond : Expr) (body : Stmt) (span : Span) :
    (splitLoop before cond body span).rename f =
      splitLoop (before.map (rename f)) (cond.rename f) (body.rename f) span := by
  simp only [splitLoop, rename, renameOption, Expr.rename, Block.rename_mk, List.map_append,
    List.map_cons, List.map_nil]

/-- A condition that is evaluated ahead has its local and the label renamed. -/
theorem map_rename_guarding (label cond : String) (test : Expr) (span : Span) :
    (test.guarding label cond span).map (rename f) =
      (test.rename f).guarding (f label) (f cond) span := by
  simp only [Expr.guarding, List.map_cons, List.map_nil, rename_protect, rename, Expr.rename,
    Option.map_none]

/-- A statement is taken apart in the same way after it was renamed. -/
theorem map_rename_runHead (s : Stmt) : s.runHead.map (rename f) = (s.rename f).runHead := by
  cases s <;> rfl

theorem map_rename_runWork (s : Stmt) : s.runWork.map (rename f) = (s.rename f).runWork := by
  cases s with
  | declare name ty init span => cases init <;> rfl
  | _ => rfl

/-- Renaming puts no label on a statement. -/
theorem labels_rename {s : Stmt} (h : labels [s] = []) : labels [s.rename f] = [] := by
  cases s with
  | labeled label body span => cases h
  | _ => rfl

end Stmt

end Pieces

/-! ## The rules, renamed -/

namespace Coined

def rename (f : String → String) : Coined → Coined
  | split label done => split (f label) (f done)
  | condition name => condition (f name)

/-- The names that are asked for are renamed one by one. -/
theorem names_rename (f : String → String) (coined : List Coined) :
    (coined.map (rename f)).flatMap names = (coined.flatMap names).map f := by
  rw [List.flatMap_map, List.map_flatMap]
  congr 1
  funext c
  cases c <;> rfl

theorem isSplit_rename (f : String → String) (coined : List Coined) :
    (coined.map (rename f)).map isSplit = coined.map isSplit := by
  rw [List.map_map]
  congr 1
  funext c
  cases c <;> rfl

end Coined

section Rules

variable (f : String → String)

/-- The rule for conditions is kept by renaming. -/
theorem Guards.rename {handler : Option String} {span : Span} {test test' : Expr}
    {coined : List Coined} {before : List Stmt} (h : Guards handler span test coined before test') :
    Guards (handler.map f) span (test.rename f) (coined.map (Coined.rename f))
      (before.map (Stmt.rename f)) (test'.rename f) := by
  cases h with
  | same h =>
    refine .same ?_
    rw [Option.isSome_map, Expr.isTrivial_rename]
    exact h
  | fresh h =>
    rw [Stmt.map_rename_guarding]
    exact .fresh ((Expr.isTrivial_rename f test).trans h)

theorem Block.rename_hoisted (out : List Stmt) (b : Block) :
    (⟨out, b.span⟩ : Block).rename f = ⟨out.map (Stmt.rename f), (b.rename f).span⟩ := by
  rw [Block.rename_mk, Block.span_rename]

/-- What a renamed block is made of. -/
theorem HoistsAll.inBlock {handler : Option String} {b : Block} {coined : List Coined} {out : List Stmt}
    (h : HoistsAll handler [] (b.stmts.map (Stmt.rename f)) coined out) :
    HoistsAll handler [] (b.rename f).stmts coined out := by
  rw [Block.stmts_rename]
  exact h

mutual

/-- **The rules are closed under renaming**, whether or not the map keeps names apart. -/
theorem Hoists.rename : ∀ {handler s coined out}, Hoists handler s coined out →
    Hoists (handler.map f) (s.rename f) (coined.map (Coined.rename f)) (out.map (Stmt.rename f))
  | _, _, _, _, .plain hs => .plain ((Stmt.suspends_rename f _).trans hs)
  | _, _, _, _, .suspend => .suspend
  | _, _, _, _, .block hs hb => by
    simp only [Stmt.rename, List.map_cons, List.map_nil, Block.rename_hoisted]
    exact .block ((Block.suspends_rename f _).trans hs) hb.rename.inBlock
  | _, _, _, _, .labeled hs hb => by
    simp only [Stmt.rename, List.map_cons, List.map_nil, Block.rename_hoisted]
    exact .labeled ((Block.suspends_rename f _).trans hs) hb.rename.inBlock
  | _, _, _, _, .ite hs hg hb => by
    simp only [Stmt.rename, Stmt.renameOption, List.map_append, List.map_cons, List.map_nil,
      Block.rename_hoisted]
    exact .ite ((Stmt.suspends_rename f _).trans hs) (hg.rename f) hb.rename.inBlock
  | _, _, _, _, .iteElse hs hg hb hc => by
    simp only [Stmt.rename, Stmt.renameOption, List.map_append, List.map_cons, List.map_nil,
      Block.rename_hoisted]
    exact .iteElse ((Stmt.suspends_rename f _).trans hs) (hg.rename f) hb.rename.inBlock hc.rename.inBlock
  | _, _, _, _, .loop hs ht hb => by
    simp only [Stmt.rename, List.map_cons, List.map_nil, Block.rename_hoisted]
    refine .loop ((Block.suspends_rename f _).trans hs) ?_ hb.rename.inBlock
    rw [Option.isSome_map, Expr.isTrivial_rename]
    exact ht
  | _, _, _, _, .splitLoop hs ht hb => by
    simp only [List.map_append, List.map_cons, List.map_nil, Stmt.rename_splitLoop,
      Stmt.map_rename_guarding, Stmt.rename, Block.rename_hoisted]
    exact .splitLoop ((Block.suspends_rename f _).trans hs) ((Expr.isTrivial_rename f _).trans ht)
      hb.rename.inBlock
  | _, _, _, _, .attempt hs hb => by
    simp only [Stmt.rename, Block.renameOption, List.map_cons, List.map_nil, Block.rename_hoisted]
    exact .attempt ((Block.suspends_rename f _).trans hs) hb.rename.inBlock
  | _, _, _, _, .attemptCleanup hs hk hb hc => by
    simp only [Stmt.rename, Block.renameOption, List.map_append, List.map_cons, List.map_nil,
      Block.rename_hoisted]
    exact .attemptCleanup ((Block.suspends_rename f _).trans hs) ((Block.suspends_rename f _).trans hk)
      hb.rename.inBlock hc.rename.inBlock
  | _, _, _, _, .split hs hb hc => by
    simp only [Stmt.rename, Block.renameOption, List.map_append, List.map_cons,
      Stmt.map_rename_splitTry, Block.rename_hoisted]
    refine .split ?_ hb.rename.inBlock hc.rename.inBlock
    rw [Block.suspends_rename, Block.suspends_rename]
    exact hs
  | _, _, _, _, .splitCleanup hs hk hb hc hc' => by
    simp only [Stmt.rename, Block.renameOption, List.map_append, List.map_cons, List.map_nil,
      Block.rename_hoisted]
    rw [Block.rename_mk, Stmt.map_rename_splitTry, Block.rename_hoisted, Block.rename_hoisted]
    refine .splitCleanup ?_ ((Block.suspends_rename f _).trans hk) hb.rename.inBlock hc.rename.inBlock
      hc'.rename.inBlock
    rw [Block.suspends_rename, Block.suspends_rename]
    exact hs
  | _, _, _, _, .switch hs hc => .switch ((Case.suspendsAny_rename f _).trans hs) hc.rename

/-- The run that is collected is renamed with the statements. -/
theorem HoistsAll.rename : ∀ {handler run ss coined out}, HoistsAll handler run ss coined out →
    HoistsAll (handler.map f) (run.map (Stmt.rename f)) (ss.map (Stmt.rename f))
      (coined.map (Coined.rename f)) (out.map (Stmt.rename f))
  | _, _, _, _, _, .nil => .nil
  | _, _, _, _, _, .cons hs hss => by
    simp only [List.map_append]
    exact .cons hs.rename hss.rename
  | _, _, _, _, _, .flush => by
    rw [Stmt.map_rename_flush]
    exact .flush
  | _, _, _, _, _, .suspends h hs hss => by
    simp only [List.map_append, Stmt.map_rename_flush]
    exact .suspends ((Stmt.suspends_rename f _).trans h) hs.rename hss.rename
  | _, _, _, _, _, .labeled h hb hss => by
    simp only [List.map_append, List.map_cons, Stmt.map_rename_flush, Stmt.rename, Block.rename_hoisted]
    exact .labeled ((Block.suspends_rename f _).trans h) hb.rename.inBlock hss.rename
  | _, _, _, _, _, .collect h hl hss => by
    have hrest := hss.rename
    rw [List.map_append, Stmt.map_rename_runWork] at hrest
    rw [List.map_append, Stmt.map_rename_runHead]
    exact .collect ((Stmt.suspends_rename f _).trans h) (Stmt.labels_rename f hl) hrest

theorem HoistsCases.rename : ∀ {cases coined cases'}, HoistsCases cases coined cases' →
    HoistsCases (Case.renameAll f cases) (coined.map (Coined.rename f)) (Case.renameAll f cases')
  | _, _, _, .nil => .nil
  | _, _, _, .cons hb hcs => by
    rw [List.map_append, Case.renameAll, Case.renameAll, Block.rename_hoisted]
    exact .cons hb.rename.inBlock hcs.rename

end

end Rules

/-! ## Two ways to hoist a statement -/

/-- The names are of the same kinds, and if they are the same, then `p` holds. -/
structure Coined.Determine (coined coined' : List Coined) (p : Prop) : Prop where
  kinds : coined.map Coined.isSplit = coined'.map Coined.isSplit
  same : coined = coined' → p

namespace Coined.Determine

variable {c c' d d' : List Coined} {p q : Prop}

theorem nil (h : p) : Determine [] [] p := ⟨rfl, fun _ => h⟩

theorem imp (h : Determine c c' p) (hpq : p → q) : Determine c c' q := ⟨h.kinds, fun hc => hpq (h.same hc)⟩

/-- Names that determine two parts determine both together. -/
theorem append (h : Determine c c' p) (h' : Determine d d' q) : Determine (c ++ d) (c' ++ d') (p ∧ q) := by
  refine ⟨by rw [List.map_append, List.map_append, h.kinds, h'.kinds], fun hsame => ?_⟩
  have hlength : c.length = c'.length := by
    simpa only [List.length_map] using congrArg List.length h.kinds
  obtain ⟨hc, hd⟩ := List.append_inj hsame hlength
  exact ⟨h.same hc, h'.same hd⟩

theorem split {label label' done done' : String} (h : Determine c c' p) :
    Determine (.split label done :: c) (.split label' done' :: c') (label = label' ∧ done = done' ∧ p) := by
  refine ⟨congrArg (true :: ·) h.kinds, fun hsame => ?_⟩
  obtain ⟨hsplit, hc⟩ := List.cons.inj hsame
  obtain ⟨hlabel, hdone⟩ := Coined.split.inj hsplit
  exact ⟨hlabel, hdone, h.same hc⟩

theorem condition {name name' : String} : Determine [.condition name] [.condition name'] (name = name') :=
  ⟨rfl, fun hsame => Coined.condition.inj (List.head_eq_of_cons_eq hsame)⟩

end Coined.Determine

section Pairs

open Coined (Determine)

/-- A condition is evaluated ahead in both ways or in neither, and into the local of that name. -/
theorem Guards.determined {handler handler' : Option String} {span : Span} {test e e' : Expr}
    {c c' : List Coined} {before before' : List Stmt} (h : Guards handler span test c before e)
    (h' : Guards handler' span test c' before' e') (hh : handler.isSome = handler'.isSome) :
    Determine c c' (handler = handler' → before = before' ∧ e = e') := by
  cases h with
  | same ht =>
    cases h' with
    | same => exact .nil fun _ => ⟨rfl, rfl⟩
    | fresh ht' =>
      rw [hh, ht'] at ht
      cases ht
  | fresh ht =>
    cases h' with
    | same ht' =>
      rw [← hh, ht] at ht'
      cases ht'
    | fresh =>
      refine Determine.condition.imp ?_
      rintro rfl ⟨⟩
      exact ⟨rfl, rfl⟩

-- The second derivation is taken apart by the rule that ends the first. Besides that rule only `plain` may
-- end it, which a suspension excludes, and the two rules for loops, which exclude each other.
mutual

/-- **The names that are coined determine the rest.** -/
theorem Hoists.determined : ∀ {handler s c out}, Hoists handler s c out →
    ∀ {handler' c' out'}, Hoists handler' s c' out' → handler.isSome = handler'.isSome →
    Determine c c' (handler = handler' → out = out')
  | _, _, _, _, .plain hs, _, _, _, h', _ => by
    obtain ⟨rfl, rfl⟩ := h'.of_plain hs
    exact .nil fun _ => rfl
  | _, _, _, _, .suspend, _, _, _, h', _ => by
    cases h' with
    | plain hs => cases hs
    | suspend => exact .nil fun _ => rfl
  | _, _, _, _, .block hs hb, _, _, _, h', hh => by
    cases h' with
    | plain hp => cases hs.symm.trans hp
    | block _ hb' =>
      refine (hb.determined hb' hh).imp fun hout heq => ?_
      rw [hout heq]
  | _, _, _, _, .labeled hs hb, _, _, _, h', hh => by
    cases h' with
    | plain hp => cases hs.symm.trans hp
    | labeled _ hb' =>
      refine (hb.determined hb' hh).imp fun hout heq => ?_
      rw [hout heq]
  | _, _, _, _, .ite hs hg hb, _, _, _, h', hh => by
    cases h' with
    | plain hp => cases hs.symm.trans hp
    | ite _ hg' hb' =>
      refine ((hg.determined hg' hh).append (hb.determined hb' hh)).imp ?_
      rintro ⟨hguard, hout⟩ heq
      rw [(hguard heq).1, (hguard heq).2, hout heq]
  | _, _, _, _, .iteElse hs hg hb hc, _, _, _, h', hh => by
    cases h' with
    | plain hp => cases hs.symm.trans hp
    | iteElse _ hg' hb' hc' =>
      refine ((hg.determined hg' hh).append ((hb.determined hb' hh).append (hc.determined hc' hh))).imp ?_
      rintro ⟨hguard, hout, hout'⟩ heq
      rw [(hguard heq).1, (hguard heq).2, hout heq, hout' heq]
  -- Whether a loop is split depends on there being a handler, not on its name.
  | _, _, _, _, .loop hs ht hb, _, _, _, h', hh => by
    cases h' with
    | plain hp => cases hs.symm.trans hp
    | loop _ _ hb' =>
      refine (hb.determined hb' hh).imp fun hout heq => ?_
      rw [hout heq]
    | splitLoop _ ht' =>
      rw [hh, ht'] at ht
      cases ht
  | _, _, _, _, .splitLoop hs ht hb, _, _, _, h', hh => by
    cases h' with
    | plain hp => cases hs.symm.trans hp
    | loop _ ht' =>
      rw [← hh, ht] at ht'
      cases ht'
    | splitLoop _ _ hb' =>
      refine ((hb.determined hb' hh).append .condition).imp ?_
      rintro ⟨hout, rfl⟩ heq
      rw [hout heq, Option.some.inj heq]
  | _, _, _, _, .attempt hs hb, _, _, _, h', hh => by
    cases h' with
    | plain hp => simp_all [Stmt.suspends]
    | attempt _ hb' =>
      refine (hb.determined hb' hh).imp fun hout heq => ?_
      rw [hout heq]
  | _, _, _, _, .attemptCleanup hs _ hb hc, _, _, _, h', hh => by
    cases h' with
    | plain hp => simp_all [Stmt.suspends]
    | attemptCleanup _ _ hb' hc' =>
      refine ((hb.determined hb' hh).append (hc.determined hc' hh)).imp ?_
      rintro ⟨hout, hout'⟩ heq
      rw [hout heq, hout' heq]
  -- The body's handler is the label coined here, so equal names come before equal bodies.
  | _, _, _, _, .split hs hb hc, _, _, _, h', hh => by
    cases h' with
    | plain hp => simp_all [Stmt.suspends, Block.suspendsOption]
    | split _ hb' hc' =>
      refine ((hb.determined hb' rfl).append (hc.determined hc' hh)).split.imp ?_
      rintro ⟨rfl, rfl, hout, hout'⟩ heq
      rw [hout rfl, hout' heq]
  | _, _, _, _, .splitCleanup hs _ hb hc hk, _, _, _, h', hh => by
    cases h' with
    | plain hp => simp_all [Stmt.suspends, Block.suspendsOption]
    | splitCleanup _ _ hb' hc' hk' =>
      have hclauses := (hc.determined hc' hh).append (hk.determined hk' hh)
      refine ((hb.determined hb' rfl).append hclauses).split.imp ?_
      rintro ⟨rfl, rfl, hout, hout', hout''⟩ heq
      rw [hout rfl, hout' heq, hout'' heq]
  | _, _, _, _, .switch hs hc, _, _, _, h', _ => by
    cases h' with
    | plain hp => cases hs.symm.trans hp
    | switch _ hc' =>
      refine (hc.determined hc').imp fun hcases _ => ?_
      rw [hcases]

/-- Two ways to hoist the statements of a block begin with the same run. -/
theorem HoistsAll.determined : ∀ {handler run ss c out}, HoistsAll handler run ss c out →
    ∀ {handler' c' out'}, HoistsAll handler' run ss c' out' → handler.isSome = handler'.isSome →
    Determine c c' (handler = handler' → out = out')
  | _, _, _, _, _, .nil, _, _, _, h', hh => by
    cases h' with
    | nil => exact .nil fun _ => rfl
    | flush => cases hh
  | _, _, _, _, _, .cons hs hss, _, _, _, h', hh => by
    cases h' with
    | cons hs' hss' =>
      refine ((hs.determined hs' rfl).append (hss.determined hss' rfl)).imp ?_
      rintro ⟨hout, hmore⟩ _
      rw [hout rfl, hmore rfl]
    | suspends | labeled | collect => cases hh
  | _, _, _, _, _, .flush, _, _, _, h', hh => by
    cases h' with
    | nil => cases hh
    | flush =>
      refine .nil ?_
      rintro ⟨⟩
      rfl
  -- Below a handler the statement itself says which of the three rules applies.
  | _, _, _, _, _, .suspends h hs hss, _, _, _, h', hh => by
    cases h' with
    | cons => cases hh
    | suspends _ hs' hss' =>
      refine ((hs.determined hs' rfl).append (hss.determined hss' rfl)).imp ?_
      rintro ⟨hout, hmore⟩ heq
      rw [hout heq, hmore heq, Option.some.inj heq]
    | labeled hp => cases h.symm.trans hp
    | collect hp => cases h.symm.trans hp
  | _, _, _, _, _, .labeled h hb hss, _, _, _, h', hh => by
    cases h' with
    | cons => cases hh
    | suspends hp => cases h.symm.trans hp
    | labeled _ hb' hss' =>
      refine ((hb.determined hb' rfl).append (hss.determined hss' rfl)).imp ?_
      rintro ⟨hout, hmore⟩ heq
      rw [hout heq, hmore heq, Option.some.inj heq]
    | collect _ hl => cases hl
  | _, _, _, _, _, .collect h hl hss, _, _, _, h', hh => by
    cases h' with
    | cons => cases hh
    | suspends hp => cases h.symm.trans hp
    | labeled => cases hl
    | collect _ _ hss' =>
      refine (hss.determined hss' rfl).imp fun hmore heq => ?_
      rw [hmore heq]

theorem HoistsCases.determined : ∀ {cases c out}, HoistsCases cases c out →
    ∀ {c' out'}, HoistsCases cases c' out' → Determine c c' (out = out')
  | _, _, _, .nil, _, _, h' => by
    cases h' with
    | nil => exact .nil rfl
  | _, _, _, .cons hb hcs, _, _, h' => by
    cases h' with
    | cons hb' hcs' =>
      refine ((hb.determined hb' rfl).append (hcs.determined hcs')).imp ?_
      rintro ⟨hout, hmore⟩
      rw [hout rfl, hmore]

end

end Pairs

/-! ## Names that are handed out -/

/-- `f` puts the k-th of the names `new` for the k-th of the names `old`, for all k, and leaves every other
name as it is. -/
structure Replaces (f : String → String) (old new : List String) : Prop where
  names : old.map f = new
  others : ∀ x ∉ old, f x = x

/-- Different names can be replaced by any names. -/
theorem Replaces.exists_of_nodup {old new : List String} (hnodup : old.Nodup)
    (hlength : old.length = new.length) : ∃ f, Replaces f old new := by
  induction old generalizing new with
  | nil =>
    obtain rfl := List.length_eq_zero_iff.mp hlength.symm
    exact ⟨id, rfl, fun _ _ => rfl⟩
  | cons x old ih =>
    cases new with
    | nil => cases hlength
    | cons y new =>
      obtain ⟨hx, hnodup⟩ := List.nodup_cons.mp hnodup
      obtain ⟨f, hnames, hothers⟩ := ih hnodup (Nat.succ.inj hlength)
      refine ⟨Function.update f x y, ?_, fun z hz => ?_⟩
      · have hold : old.map (Function.update f x y) = old.map f :=
          List.map_congr_left fun z hz => Function.update_of_ne (ne_of_mem_of_not_mem hz hx) y f
        rw [List.map_cons, Function.update_self, hold, hnames]
      · rw [List.mem_cons, not_or] at hz
        rw [Function.update_of_ne hz.1, hothers z hz.2]

namespace Coined

theorem length_names {x x' : Coined} (h : x.isSplit = x'.isSplit) :
    x.names.length = x'.names.length := by
  cases x <;> cases x' <;> first | rfl | cases h

/-- Names of the same kinds are equally many. -/
theorem length_flatMap_names {c c' : List Coined} (hkinds : c.map isSplit = c'.map isSplit) :
    (c.flatMap names).length = (c'.flatMap names).length := by
  induction c generalizing c' with
  | nil =>
    obtain rfl := List.map_eq_nil_iff.mp hkinds.symm
    rfl
  | cons x c ih =>
    cases c' with
    | nil => cases hkinds
    | cons x' c' =>
      obtain ⟨hkind, hkinds⟩ := List.cons.inj hkinds
      rw [List.flatMap_cons, List.flatMap_cons, List.length_append, List.length_append, length_names hkind,
        ih hkinds]

theorem eq_of_isSplit {x x' : Coined} (hkind : x.isSplit = x'.isSplit) (hnames : x.names = x'.names) :
    x = x' := by
  cases x <;> cases x' <;> simp_all [names, isSplit]

/-- Names of the same kinds are the same if they have the same texts. -/
theorem eq_of_names {c c' : List Coined} (hkinds : c.map isSplit = c'.map isSplit)
    (hnames : c.flatMap names = c'.flatMap names) : c = c' := by
  induction c generalizing c' with
  | nil => exact (List.map_eq_nil_iff.mp hkinds.symm).symm
  | cons x c ih =>
    cases c' with
    | nil => cases hkinds
    | cons x' c' =>
      obtain ⟨hkind, hkinds⟩ := List.cons.inj hkinds
      rw [List.flatMap_cons, List.flatMap_cons] at hnames
      obtain ⟨hfirst, hrest⟩ := List.append_inj hnames (length_names hkind)
      rw [eq_of_isSplit hkind hfirst, ih hkinds hrest]

end Coined

open NameSupply (Recorded)

/-- The record of the names does not interfere with what is given. -/
theorem NameSupply.Gives.supply {σ : Type} [NameSupply σ] {r r' : Recorded σ} {names : List String}
    (h : Gives r names r') : Gives r.supply names r'.supply := by
  induction h with
  | nil => exact .nil _
  | cons hint span _ ih => exact .cons hint span ih

/-! ## Two runs -/

/-- The names that are handed out while a body is hoisted, in this order. -/
def Block.handedOut (hints : HoistHints) (body : Block) (names : Names) : List String :=
  (body.hoist hints (⟨names, []⟩ : Recorded Names)).2.log.reverse

/-- The record of the names does not interfere. -/
theorem Block.hoist_recorded (hints : HoistHints) (body : Block) (names : Names) :
    (body.hoist hints (⟨names, []⟩ : Recorded Names)).1 = (body.hoist hints names).1 :=
  (Block.hoist_alike (.recorded Names) hints body rfl).1

/-- A body that is hoisted follows the rules, with the names that are handed out. -/
theorem Block.hoist_handedOut {hints : HoistHints} {body : Block} {names : Names} {hoisted : Hoisted}
    (h : (body.hoist hints names).1 = .ok hoisted) (hs : body.suspends = true) :
    ∃ coined, HoistsBlock none body.normalize coined hoisted.body ∧
      coined.flatMap Coined.names = body.handedOut hints names ∧
      (body.handedOut hints names).Nodup ∧ ∀ x ∈ body.handedOut hints names, x ∉ names.taken := by
  rw [← Block.hoist_recorded] at h
  rcases Block.hoist_hoists hints h with ⟨hplain, -⟩ | ⟨-, coined, hbody, hgives, -⟩
  · cases hs.symm.trans hplain
  · have hlog := hgives.log
    rw [List.append_nil] at hlog
    have hnames : coined.flatMap Coined.names = body.handedOut hints names := by
      rw [Block.handedOut, hlog, List.reverse_reverse]
    exact ⟨coined, hbody, hnames, hnames ▸ hgives.supply.fresh⟩

/-- Two runs give up for the same reason, or they split as many tries. -/
theorem Block.hoist_verdicts (hints hints' : HoistHints) (body : Block) (names names' : Names) :
    (∃ e, (body.hoist hints names).1 = .error e ∧ (body.hoist hints' names').1 = .error e) ∨
      ∃ hoisted hoisted', (body.hoist hints names).1 = .ok hoisted ∧
        (body.hoist hints' names').1 = .ok hoisted' ∧ hoisted.splits = hoisted'.splits := by
  have hdecision := Block.hoist_decision hints hints' body names names'
  cases hr : (body.hoist hints names).1 with
  | error e =>
    cases hr' : (body.hoist hints' names').1 with
    | error e' =>
      rw [hr, hr'] at hdecision
      cases hdecision
      exact .inl ⟨e, rfl, rfl⟩
    | ok hoisted' =>
      rw [hr, hr'] at hdecision
      cases hdecision
  | ok hoisted =>
    cases hr' : (body.hoist hints' names').1 with
    | error e' =>
      rw [hr, hr'] at hdecision
      cases hdecision
    | ok hoisted' =>
      rw [hr, hr'] at hdecision
      exact .inr ⟨hoisted, hoisted', rfl, rfl, Except.ok.inj hdecision⟩

/-- **Hoisting does not look at names.** If all identifiers of a body are in use for the first of two
supplies, then both runs give up for the same reason, or they split as many tries, and the second body is
the first one with the names replaced that were handed out. -/
theorem Block.hoist_renamed (hints hints' : HoistHints) (body : Block) (names names' : Names)
    (h : body.identifiers ⊆ names.taken) :
    (∃ e, (body.hoist hints names).1 = .error e ∧ (body.hoist hints' names').1 = .error e) ∨
      ∃ hoisted hoisted', (body.hoist hints names).1 = .ok hoisted ∧
        (body.hoist hints' names').1 = .ok hoisted' ∧ hoisted.splits = hoisted'.splits ∧
        ∃ f, Replaces f (body.handedOut hints names) (body.handedOut hints' names') ∧
          hoisted'.body = hoisted.body.rename f := by
  refine (Block.hoist_verdicts hints hints' body names names').imp_right ?_
  rintro ⟨hoisted, hoisted', hok, hok', hsplits⟩
  refine ⟨hoisted, hoisted', hok, hok', hsplits, ?_⟩
  by_cases hs : body.suspends = true
  · obtain ⟨coined, ⟨out, hout, hbody⟩, hnames, hnodup, hapart⟩ := Block.hoist_handedOut hok hs
    obtain ⟨coined', ⟨out', hout', hbody'⟩, hnames', -, -⟩ := Block.hoist_handedOut hok' hs
    have hkinds := (hout.determined hout' rfl).kinds
    have hlength : (body.handedOut hints names).length = (body.handedOut hints' names').length := by
      rw [← hnames, ← hnames', Coined.length_flatMap_names hkinds]
    obtain ⟨f, hf⟩ := Replaces.exists_of_nodup hnodup hlength
    refine ⟨f, hf, ?_⟩
    -- no identifier of the body has been handed out, so the first run is one on the renamed body too
    have hfixed : body.normalize.rename f = body.normalize := by
      rw [Block.rename_normalize, Block.rename_eq_self body]
      exact fun x hx => hf.others x fun hout => hapart x hout (h hx)
    have hrenamed := hout.rename f
    rw [← Block.stmts_rename, hfixed] at hrenamed
    have hcoined : coined.map (Coined.rename f) = coined' := by
      refine Coined.eq_of_names ((Coined.isSplit_rename f coined).trans hkinds) ?_
      rw [Coined.names_rename, hnames, hf.names, hnames']
    have hsame := (hrenamed.determined hout' rfl).same hcoined rfl
    rw [hbody', hbody, Block.rename_mk, hsame]
  · have hplain : ∀ {σ : Type} [NameSupply σ] (hints : HoistHints) (names : σ),
        body.hoist hints names = (.ok ⟨body, 0⟩, names) := fun _ _ => if_neg hs
    rw [hplain] at hok hok'
    cases hok
    cases hok'
    refine ⟨id, ⟨?_, fun _ _ => rfl⟩, (Block.rename_eq_self body fun _ _ => rfl).symm⟩
    rw [Block.handedOut, Block.handedOut, hplain, hplain]
    rfl

/-- Just the identifiers of the body are in use. -/
def Block.ownNames (body : Block) : Names := Names.empty.reserveAll body.identifiers

/-- The labels of the outer and of the inner try each get their own new names, all at once. -/
theorem Block.hoist_renamed_nestedTries :
    nestedTries.identifiers ⊆ nestedTries.ownNames.taken ∧
      ∃ hoisted hoisted', (nestedTries.hoist {} nestedTries.ownNames).1 = .ok hoisted ∧
        (nestedTries.hoist {} (nestedTries.ownNames.reserveAll ["__catch", "__ok1"])).1 = .ok hoisted' ∧
        hoisted.splits = hoisted'.splits ∧
        ∃ f, Replaces f ["__catch", "__ok", "__catch1", "__ok1"] ["__catch1", "__ok", "__catch2", "__ok2"] ∧
          hoisted'.body = hoisted.body.rename f := by
  have hown : nestedTries.identifiers ⊆ nestedTries.ownNames.taken :=
    fun _ hx => Names.mem_taken_reserveAll.mpr (.inr hx)
  have hfirst : nestedTries.handedOut {} nestedTries.ownNames =
      ["__catch", "__ok", "__catch1", "__ok1"] := by decide +kernel
  have hsecond : nestedTries.handedOut {} (nestedTries.ownNames.reserveAll ["__catch", "__ok1"]) =
      ["__catch1", "__ok", "__catch2", "__ok2"] := by decide +kernel
  refine ⟨hown, ?_⟩
  rcases Block.hoist_renamed {} {} nestedTries nestedTries.ownNames
    (nestedTries.ownNames.reserveAll ["__catch", "__ok1"]) hown with ⟨e, he, -⟩ | hboth
  · obtain ⟨hoisted, hok⟩ : ∃ hoisted, (nestedTries.hoist {} nestedTries.ownNames).1 = .ok hoisted :=
      ⟨_, rfl⟩
    rw [hok] at he
    cases he
  · rw [hfirst, hsecond] at hboth
    exact hboth

end Lowering
