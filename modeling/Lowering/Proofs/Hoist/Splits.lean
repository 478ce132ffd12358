import Lowering.Proofs.Hoist.Derivation
import Lowering.Proofs.Hoist.Refusals

/-!
# How much hoisting splits

Hoisting splits each try that has a handler and suspends in its body or in its handler, once, and no
other (`Block.splits_hoist`). It splits none exactly if no suspension is misplaced, and then it asks for
no name and only normalizes the body.
-/

namespace Lowering

/-- How many tries of a body must be split, at any depth outside nested methods. -/
def Block.triesToSplit (b : Block) : Nat := (Stmt.partsAll b.stmts).countP Stmt.needsSplit

/-! ## Counting tries -/

/-- How many tries of the statement must be split. -/
def Stmt.tries (s : Stmt) : Nat := s.parts.countP Stmt.needsSplit

/-- How many tries of the statements must be split. -/
def Stmt.triesAll (ss : List Stmt) : Nat := (Stmt.partsAll ss).countP Stmt.needsSplit

/-- How many tries of the cases must be split. -/
def Case.triesAll (cases : List Case) : Nat :=
  (cases.flatMap fun case => Stmt.partsAll case.body.stmts).countP Stmt.needsSplit

@[simp] theorem Case.triesAll_cons (case : Case) (cases : List Case) :
    Case.triesAll (case :: cases) = Stmt.triesAll case.body.stmts + Case.triesAll cases := by
  rw [Case.triesAll, List.flatMap_cons, List.countP_append, Stmt.triesAll, Case.triesAll]

namespace Stmt

/-- A statement that is no try to be split adds nothing to those inside it. -/
theorem tries_cons {s : Stmt} {ps : List Stmt} (hp : s.parts = s :: ps) (hs : s.needsSplit = false) :
    s.tries = ps.countP needsSplit := by
  rw [tries, hp, List.countP_cons_of_neg (Bool.eq_false_iff.mp hs)]

@[simp] theorem triesAll_nil : triesAll [] = 0 := rfl

/-- Tries are counted statement by statement. -/
@[simp] theorem triesAll_cons (s : Stmt) (ss : List Stmt) :
    triesAll (s :: ss) = s.tries + triesAll ss := by
  rw [triesAll, partsAll_cons, List.countP_append, tries, triesAll]

@[simp] theorem tries_block (b : Block) (span : Span) : (block b span).tries = triesAll b.stmts :=
  tries_cons (parts_block b span) rfl

@[simp] theorem tries_ite (test : Expr) (yes : Stmt) (no : Option Stmt) (span : Span) :
    (ite test yes no span).tries = yes.tries + triesAll no.toList := by
  rw [tries_cons (parts_ite test yes no span) rfl, List.countP_append, tries]
  cases no with
  | none => rfl
  | some no =>
    rw [Option.toList_some, List.flatMap_singleton, triesAll_cons, triesAll_nil, tries, Nat.add_zero]

@[simp] theorem tries_loop (test : Expr) (body : Stmt) (span : Span) :
    (loop test body span).tries = body.tries := tries_cons (parts_loop test body span) rfl

@[simp] theorem tries_labeled (label : String) (body : Stmt) (span : Span) :
    (labeled label body span).tries = body.tries := tries_cons (parts_labeled label body span) rfl

@[simp] theorem tries_switch (discriminant : Expr) (cases : List Case) (span : Span) :
    (switch discriminant cases span).tries = Case.triesAll cases :=
  tries_cons (parts_switch discriminant cases span) rfl

/-- A clause that is missing has no tries in it. -/
theorem countP_option (b : Option Block) :
    (b.toList.flatMap fun b => partsAll b.stmts).countP needsSplit =
      (b.map fun b => triesAll b.stmts).getD 0 := by
  cases b with
  | none => rfl
  | some b =>
    rw [Option.toList_some, List.flatMap_singleton]
    rfl

/-- A try counts itself if it must be split, and all those in its body and its clauses. -/
@[simp] theorem tries_attempt (body : Block) (handler cleanup : Option Block) (span : Span) :
    (attempt body handler cleanup span).tries =
      (if (attempt body handler cleanup span).needsSplit then 1 else 0) + (triesAll body.stmts +
        ((handler.map fun b => triesAll b.stmts).getD 0 +
          (cleanup.map fun b => triesAll b.stmts).getD 0)) := by
  rw [tries, parts_attempt, List.countP_cons, List.countP_append, List.countP_append, countP_option,
    countP_option, triesAll, Nat.add_comm]

/-- Only a try that suspends must be split. -/
theorem suspends_of_needsSplit {s : Stmt} (h : s.needsSplit = true) : s.suspends = true := by
  cases s with
  | attempt body handler cleanup span =>
    cases handler with
    | none => cases h
    | some handler => exact Bool.or_eq_true_iff.mpr (.inl h)
  | _ => cases h

/-- Where nothing suspends there is nothing to split. -/
theorem tries_plain {s : Stmt} (hs : s.suspends = false) : s.tries = 0 := by
  refine List.countP_eq_zero.mpr fun p hp hsplit => ?_
  have hplain := s.suspends_parts hs p hp
  rw [suspends_of_needsSplit hsplit] at hplain
  cases hplain

end Stmt

/-! ## Normalized bodies -/

theorem Stmt.tries_asBlock (s : Stmt) : s.asBlock.tries = s.tries := by
  cases s with
  | block body span => rfl
  | _ => exact (Stmt.tries_block _ _).trans (Stmt.triesAll_cons _ _)

mutual

/-- Normalizing adds no try and takes no suspension out of one. -/
theorem Stmt.tries_normalize (s : Stmt) : s.normalize.tries = s.tries := by
  have hneeds := s.needsSplit_normalize
  cases s with
  | block body span =>
    rw [Stmt.normalize, Stmt.tries_block, Block.tries_normalize body, Stmt.tries_block]
  | ite test yes no span =>
    rw [Stmt.normalize, Stmt.tries_ite, Stmt.tries_asBlock, Stmt.tries_normalize yes,
      Stmt.tries_normalizeOption no, Stmt.tries_ite]
  | loop test body span =>
    rw [Stmt.normalize, Stmt.tries_loop, Stmt.tries_asBlock, Stmt.tries_normalize body, Stmt.tries_loop]
  | labeled label body span =>
    rw [Stmt.normalize, Stmt.tries_labeled, Stmt.tries_asBlock, Stmt.tries_normalize body,
      Stmt.tries_labeled]
  | attempt body handler cleanup span =>
    rw [Stmt.normalize] at hneeds ⊢
    rw [Stmt.tries_attempt, Stmt.tries_attempt, hneeds, Block.tries_normalize body,
      Block.tries_normalizeOption handler, Block.tries_normalizeOption cleanup]
  | switch discriminant cases span =>
    rw [Stmt.normalize, Stmt.tries_switch, Case.tries_normalizeAll cases, Stmt.tries_switch]
  | goto _ _ | exit _ | next _ | eval _ _ | declare _ _ _ _ | ret _ _ | suspend _ _ _ | raise _ _
  | method _ _ => rw [Stmt.normalize]

theorem Stmt.tries_normalizeOption (s : Option Stmt) :
    Stmt.triesAll (Stmt.normalizeOption s).toList = Stmt.triesAll s.toList := by
  cases s with
  | none => rw [Stmt.normalizeOption]
  | some s =>
    rw [Stmt.normalizeOption, Option.toList_some, Stmt.triesAll_cons, Stmt.tries_asBlock,
      Stmt.tries_normalize s, Option.toList_some, Stmt.triesAll_cons]

theorem Stmt.tries_normalizeAll (ss : List Stmt) :
    Stmt.triesAll (Stmt.normalizeAll ss) = Stmt.triesAll ss := by
  cases ss with
  | nil => rw [Stmt.normalizeAll]
  | cons s ss =>
    rw [Stmt.normalizeAll, Stmt.triesAll_cons, Stmt.tries_normalize s, Stmt.tries_normalizeAll ss,
      Stmt.triesAll_cons]

/-- A normalized body has as many tries to split as the body. -/
theorem Block.tries_normalize (b : Block) : Stmt.triesAll b.normalize.stmts = Stmt.triesAll b.stmts := by
  cases b with
  | mk stmts span =>
    rw [Block.normalize]
    exact Stmt.tries_normalizeAll stmts

theorem Block.tries_normalizeOption (b : Option Block) :
    ((Block.normalizeOption b).map fun b => Stmt.triesAll b.stmts).getD 0 =
      (b.map fun b => Stmt.triesAll b.stmts).getD 0 := by
  cases b with
  | none => rw [Block.normalizeOption]
  | some b =>
    rw [Block.normalizeOption]
    exact Block.tries_normalize b

theorem Case.tries_normalizeAll (cases : List Case) :
    Case.triesAll (Case.normalizeAll cases) = Case.triesAll cases := by
  cases cases with
  | nil => rw [Case.normalizeAll]
  | cons case rest =>
    cases case with
    | mk test body =>
      rw [Case.normalizeAll, Case.triesAll_cons, Block.tries_normalize body, Case.tries_normalizeAll rest,
        Case.triesAll_cons]

end

/-! ## The rules -/

/-- A condition that is evaluated ahead is no split. -/
theorem Guards.splits {handler : Option String} {span : Span} {test test' : Expr}
    {coined : List Coined} {before : List Stmt} (h : Guards handler span test coined before test') :
    Coined.splits coined = 0 := by
  cases h <;> rfl

mutual

/-- **Each rule splits as many tries as there are to split.** -/
theorem Hoists.splits : ∀ {handler s coined out}, Hoists handler s coined out →
    Coined.splits coined = s.tries
  | _, _, _, _, .plain hs => (Stmt.tries_plain hs).symm
  | _, _, _, _, .suspend => rfl
  | _, _, _, _, .block _ hb => by rw [Stmt.tries_block, hb.splits]
  | _, _, _, _, .labeled _ hb => by rw [Stmt.tries_labeled, Stmt.tries_block, hb.splits]
  | _, _, _, _, .ite _ hg hb => by
    rw [Coined.splits_append, hg.splits, hb.splits, Stmt.tries_ite, Stmt.tries_block, Nat.zero_add]
    rfl
  | _, _, _, _, .iteElse _ hg hb hc => by
    rw [Coined.splits_append, Coined.splits_append, hg.splits, hb.splits, hc.splits, Stmt.tries_ite,
      Stmt.tries_block, Option.toList_some, Stmt.triesAll_cons, Stmt.tries_block, Nat.zero_add]
    rfl
  | _, _, _, _, .loop _ _ hb => by rw [Stmt.tries_loop, Stmt.tries_block, hb.splits]
  | _, _, _, _, .splitLoop _ _ hb => by
    rw [Coined.splits_append, hb.splits, Stmt.tries_loop, Stmt.tries_block]
    rfl
  -- Only a try with a handler counts, and only the two split rules are about one.
  | _, _, _, _, .attempt _ hb => by
    rw [hb.splits, Stmt.tries_attempt]
    simp [Stmt.needsSplit]
  | _, _, _, _, .attemptCleanup _ _ hb hc => by
    rw [Coined.splits_append, hb.splits, hc.splits, Stmt.tries_attempt]
    simp [Stmt.needsSplit]
  | _, _, _, _, .split hs hb hc => by
    rw [Coined.splits_split, Coined.splits_append, hb.splits, hc.splits, Stmt.tries_attempt, Stmt.needsSplit,
      if_pos hs, Nat.add_comm]
    rfl
  | _, _, _, _, .splitCleanup hs _ hb hc hc' => by
    rw [Coined.splits_split, Coined.splits_append, Coined.splits_append, hb.splits, hc.splits, hc'.splits,
      Stmt.tries_attempt, Stmt.needsSplit, if_pos hs, Nat.add_comm]
    rfl
  | _, _, _, _, .switch _ hc => by rw [Stmt.tries_switch, hc.splits]

/-- The run in front holds no such try, so it does not count. -/
theorem HoistsAll.splits : ∀ {handler run ss coined out}, HoistsAll handler run ss coined out →
    Coined.splits coined = Stmt.triesAll ss
  | _, _, _, _, _, .nil | _, _, _, _, _, .flush => rfl
  | _, _, _, _, _, .cons hs hss | _, _, _, _, _, .suspends _ hs hss => by
    rw [Coined.splits_append, hs.splits, hss.splits, Stmt.triesAll_cons]
  | _, _, _, _, _, .labeled _ hb hss => by
    rw [Coined.splits_append, hb.splits, hss.splits, Stmt.triesAll_cons, Stmt.tries_labeled,
      Stmt.tries_block]
  | _, _, _, _, _, .collect h _ hss => by
    rw [hss.splits, Stmt.triesAll_cons, Stmt.tries_plain h, Nat.zero_add]

theorem HoistsCases.splits : ∀ {cases coined cases'}, HoistsCases cases coined cases' →
    Coined.splits coined = Case.triesAll cases
  | _, _, _, .nil => rfl
  | _, _, _, .cons hb hcs => by
    rw [Coined.splits_append, hb.splits, hcs.splits, Case.triesAll_cons]

end

/-! ## Nothing to split -/

/-- Nothing is split exactly if the suspensions are placed, and then nothing is asked for and all stays
the same. -/
structure Coined.Settles (coined : List Coined) (placed same : Prop) : Prop where
  placed : splits coined = 0 ↔ placed
  same : splits coined = 0 → coined = [] ∧ same

namespace Coined.Settles

variable {coined coined' : List Coined} {placed placed' same same' : Prop}

theorem nil (hp : placed) (hs : same) : Settles [] placed same := ⟨iff_of_true rfl hp, fun _ => ⟨rfl, hs⟩⟩

/-- Two parts are settled together if each of them is. -/
theorem append (h : Settles coined placed same) (h' : Settles coined' placed' same') :
    Settles (coined ++ coined') (placed ∧ placed') (same ∧ same') where
  placed := by rw [splits_append, Nat.add_eq_zero_iff, h.placed, h'.placed]
  same hzero := by
    rw [splits_append, Nat.add_eq_zero_iff] at hzero
    obtain ⟨rfl, hs⟩ := h.same hzero.1
    obtain ⟨rfl, hs'⟩ := h'.same hzero.2
    exact ⟨rfl, hs, hs'⟩

theorem congr (h : Settles coined placed same) (hp : placed ↔ placed') (hs : same → same') :
    Settles coined placed' same' :=
  ⟨h.placed.trans hp, fun hzero => (h.same hzero).imp_right hs⟩

/-- A try is split. -/
theorem split {label done : String} (hp : ¬placed) : Settles (.split label done :: coined) placed same := by
  have hne : splits (.split label done :: coined) ≠ 0 := by
    rw [splits_split]
    exact Nat.succ_ne_zero _
  exact ⟨iff_of_false hne hp, fun hzero => absurd hzero hne⟩

end Coined.Settles

/-- A try that must be split has a misplaced suspension. -/
theorem Stmt.findSuspension_ne_none {s : Stmt} (hs : s.needsSplit = true) :
    s.findSuspension false ≠ none := by
  cases s with
  | attempt body handler cleanup span =>
    cases handler with
    | none => cases hs
    | some handler =>
      intro hnone
      rw [Stmt.needsSplit, Block.suspends_eq, Block.suspends_eq] at hs
      obtain ⟨hbody, hrest⟩ := Option.or_eq_none_iff.mp hnone
      have hhandler := (Option.or_eq_none_iff.mp hrest).1
      rw [show body.findSuspension true = none from hbody,
        show handler.findSuspension true = none from hhandler] at hs
      cases hs
  | _ => cases hs

/-- Statements for those of a block make up a block in its place. -/
theorem Coined.Settles.block {coined : List Coined} {b : Block} {out : List Stmt}
    (h : Settles coined (Stmt.findSuspensionAny false b.stmts = none) (out = b.stmts)) :
    Settles coined (b.findSuspension false = none) (Block.mk out b.span = b) := by
  cases b with
  | mk stmts span => exact h.congr .rfl fun hout => by rw [hout]

/-- Without a handler a condition is used as it is. -/
theorem Guards.of_none {span : Span} {test test' : Expr} {coined : List Coined} {before : List Stmt}
    (h : Guards none span test coined before test') : coined = [] ∧ before = [] ∧ test' = test := by
  cases h
  exact ⟨rfl, rfl, rfl⟩

-- Without a handler around them, only the rules for tries with a handler coin anything.
mutual

/-- **Outside of all handlers, a statement is left as it is exactly if no suspension in it is
misplaced.** -/
theorem Hoists.settles : ∀ {handler s coined out}, Hoists handler s coined out → handler = none →
    Coined.Settles coined (s.findSuspension false = none) (out = [s])
  | _, _, _, _, .plain hs, _ => .nil (Stmt.findSuspension_of_plain hs) rfl
  | _, _, _, _, .suspend, _ => .nil rfl rfl
  | _, _, _, _, .block _ hb, hn | _, _, _, _, .labeled _ hb, hn | _, _, _, _, .loop _ _ hb, hn =>
    (hb.settles hn).block.congr .rfl fun hout => by rw [hout]
  | _, _, _, _, .ite _ hg hb, rfl => by
    obtain ⟨rfl, rfl, rfl⟩ := hg.of_none
    refine (hb.settles rfl).block.congr ?_ fun hout => ?_
    · exact (Option.or_eq_none_iff.trans (and_iff_left rfl)).symm
    · rw [hout, List.nil_append]
  | _, _, _, _, .iteElse _ hg hb hc, rfl => by
    obtain ⟨rfl, rfl, rfl⟩ := hg.of_none
    refine ((hb.settles rfl).block.append (hc.settles rfl).block).congr Option.or_eq_none_iff.symm ?_
    rintro ⟨hout, hout'⟩
    rw [hout, hout', List.nil_append]
  | _, _, _, _, .attempt _ hb, hn => by
    refine (hb.settles hn).block.congr ?_ fun hout => ?_
    · exact (Option.or_eq_none_iff.trans (and_iff_left rfl)).symm
    · rw [hout]
  | _, _, _, _, .attemptCleanup _ _ hb hc, hn => by
    refine ((hb.settles hn).block.append (hc.settles hn).block).congr Option.or_eq_none_iff.symm ?_
    rintro ⟨hout, hout'⟩
    rw [hout, hout']
  | _, _, _, _, .split hs _ _, _ | _, _, _, _, .splitCleanup hs _ _ _ _, _ =>
    .split (Stmt.findSuspension_ne_none hs)
  | _, _, _, _, .switch _ hc, _ => hc.settles.congr .rfl fun hout => by rw [hout]

theorem HoistsAll.settles : ∀ {handler run ss coined out}, HoistsAll handler run ss coined out →
    handler = none → Coined.Settles coined (Stmt.findSuspensionAny false ss = none) (out = ss)
  | _, _, _, _, _, .nil, _ => .nil rfl rfl
  | _, _, _, _, _, .cons hs hss, _ => by
    refine ((hs.settles rfl).append (hss.settles rfl)).congr Option.or_eq_none_iff.symm ?_
    rintro ⟨rfl, rfl⟩
    rfl

theorem HoistsCases.settles : ∀ {cases coined cases'}, HoistsCases cases coined cases' →
    Coined.Settles coined (Case.findSuspensionAny false cases = none) (cases' = cases)
  | _, _, _, .nil => .nil rfl rfl
  | _, _, _, .cons hb hcs => by
    refine ((hb.settles rfl).block.append hcs.settles).congr Option.or_eq_none_iff.symm ?_
    rintro ⟨hout, rfl⟩
    rw [hout]

end

/-! ## Whole bodies -/

/-- A supply that has given nothing is as it was. -/
theorem NameSupply.Gives.of_nil {σ : Type} [NameSupply σ] {s s' : σ} (h : Gives s [] s') : s' = s := by
  cases h
  rfl

/-- **Hoisting splits each try that needs it once.** It splits none exactly if no suspension is
misplaced; then no name is asked for, and the body stays as it is, but for being normalized if it
suspends. -/
theorem Block.splits_hoist {σ : Type} [NameSupply σ] {hints : HoistHints} {body : Block} {names : σ}
    {hoisted : Hoisted} (h : (body.hoist hints names).1 = .ok hoisted) :
    hoisted.splits = body.triesToSplit ∧ (hoisted.splits = 0 ↔ body.misplaced? = none) ∧
      (hoisted.splits = 0 → (body.hoist hints names).2 = names ∧
        hoisted.body = if body.suspends then body.normalize else body) := by
  rcases Block.hoist_hoists hints h with
    ⟨hs, rfl, hnames⟩ | ⟨hs, coined, ⟨out, hout, hbody⟩, hgives, hsplits⟩
  · have htries : body.triesToSplit = 0 :=
      (Stmt.tries_block body .dummy).symm.trans (Stmt.tries_plain (s := .block body .dummy) hs)
    have hplaced : body.misplaced? = none := Stmt.findSuspension_of_plain (s := .block body .dummy) hs
    rw [if_neg (Bool.eq_false_iff.mp hs)]
    exact ⟨htries.symm, iff_of_true rfl hplaced, fun _ => ⟨hnames, rfl⟩⟩
  · have hsettles := (hout.settles rfl).block
    rw [Block.findSuspension_normalize] at hsettles
    rw [hsplits, if_pos hs]
    refine ⟨?_, hsettles.placed, fun hzero => ?_⟩
    · rw [hout.splits, Block.tries_normalize body]
      rfl
    · obtain ⟨rfl, hsame⟩ := hsettles.same hzero
      exact ⟨hgives.of_nil, hbody.trans hsame⟩

/-- `name();` -/
def Stmt.callOf (name : String) : Stmt := .eval (.call name []) .dummy

/-- `try { name(); } catch { }` -/
def Stmt.attemptOf (name : String) : Stmt :=
  .attempt ⟨[callOf name], .dummy⟩ (some ⟨[], .dummy⟩) none .dummy

/-- `await g();` -/
def Stmt.awaitG : Stmt := .suspend .await (some (.call "g" [])) .dummy

/-- Of four tries, the one inside a body and the one around it must be split:
```text
try {
  try { f(); } catch { await g(); }
  if (p()) try { h(); } catch { }
} catch { k(); } finally { try { c(); } catch { } }
```
-/
def Block.nestedTries : Block :=
  ⟨[.attempt
    ⟨[.attempt ⟨[.callOf "f"], .dummy⟩ (some ⟨[.awaitG], .dummy⟩) none .dummy,
      .ite (.call "p" []) (.attemptOf "h") none .dummy], .dummy⟩
    (some ⟨[.callOf "k"], .dummy⟩) (some ⟨[.attemptOf "c"], .dummy⟩) .dummy], .dummy⟩

/-- What becomes of it:
```text
try {
  {
    { try { f(); } catch { goto __catch1; } }
    goto __ok1;
    __catch1: { await g(); }
    __ok1: { }
    try { if (p()) { try { h(); } catch { } } } catch { goto __catch; }
  }
  goto __ok;
  __catch: { k(); }
  __ok: { }
} finally { try { c(); } catch { } }
```
-/
def Block.nestedTriesSplit : Block :=
  let inner := Stmt.splitTry "__catch1" "__ok1" ⟨[.protect "__catch1" [.callOf "f"]], .dummy⟩
    ⟨[.awaitG], .dummy⟩
  let decided := Stmt.ite (.call "p" []) (.block ⟨[.attemptOf "h"], .dummy⟩ .dummy) none .dummy
  let outer := Stmt.splitTry "__catch" "__ok" ⟨inner ++ [.protect "__catch" [decided]], .dummy⟩
    ⟨[.callOf "k"], .dummy⟩
  ⟨[.attempt ⟨outer, .dummy⟩ none (some ⟨[.attemptOf "c"], .dummy⟩) .dummy], .dummy⟩

/-- `if (p()) await g(); try { h(); } catch { }`, where nothing must be split -/
def Block.placedAwait : Block :=
  ⟨[.ite (.call "p" []) .awaitG none .dummy, .attemptOf "h"], .dummy⟩

/-- Two tries are split. Without any, braces are added and no name is asked for. -/
theorem Block.splits_hoist_nestedTries :
    (∃ hoisted, (nestedTries.hoist {} Names.empty).1 = .ok hoisted ∧ hoisted.splits = 2 ∧
      nestedTries.misplaced? ≠ none ∧ hoisted.body = nestedTriesSplit) ∧
    ∃ hoisted, placedAwait.hoist {} Names.empty = (.ok hoisted, Names.empty) ∧ hoisted.splits = 0 ∧
      hoisted.body = placedAwait.normalize ∧ placedAwait.normalize ≠ placedAwait := by
  constructor
  · have hbody : (nestedTries.hoist {} Names.empty).1.toOption.map Hoisted.body =
        some nestedTriesSplit := by decide +kernel
    obtain ⟨hoisted, hok⟩ : ∃ hoisted, (nestedTries.hoist {} Names.empty).1 = .ok hoisted := ⟨_, rfl⟩
    rw [hok] at hbody
    obtain ⟨hsplits, hplaced, -⟩ := Block.splits_hoist hok
    have htwo : hoisted.splits = 2 := hsplits.trans (by decide)
    refine ⟨hoisted, hok, htwo, fun hnone => ?_, Option.some.inj hbody⟩
    rw [hplaced.mpr hnone] at htwo
    cases htwo
  · obtain ⟨hoisted, hok⟩ : ∃ hoisted, (placedAwait.hoist {} Names.empty).1 = .ok hoisted := ⟨_, rfl⟩
    obtain ⟨-, hplaced, hsame⟩ := Block.splits_hoist hok
    have hzero : hoisted.splits = 0 := hplaced.mpr (by decide)
    obtain ⟨hnames, hbody⟩ := hsame hzero
    exact ⟨hoisted, Prod.ext hok hnames, hzero, hbody, by decide +kernel⟩

end Lowering
