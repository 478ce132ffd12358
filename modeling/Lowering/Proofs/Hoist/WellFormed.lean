import Lowering.Proofs.Hoist.Derivation
import Lowering.Proofs.Tree.WellFormed

/-!
# Hoisting keeps a body well-formed

`StandsFor c handler ss out` says that the statements `out` may stand in place of `ss` in a block:
they carry at least the labels of `ss` and declare at least its locals, and they are well-formed
wherever there is as much to rely on as in `c`, together with the label of the handler and their own
labels. The rules of the pass make such statements only, whatever names are asked for.
-/

namespace Lowering

/-! ## Statements in place of others -/

/-- A jump to the handler finds its label. -/
def Surroundings.Handles (c : Surroundings) (handler : Option String) : Prop :=
  ∀ label ∈ handler, c.labels label

/-- A property of places holds wherever there is as much to rely on as in `c`, and the label of the
handler. -/
def Surroundings.Lasting (c : Surroundings) (handler : Option String) (good : Surroundings → Prop) :
    Prop :=
  ∀ c', c.Le c' → c'.Handles handler → good c'

/-- The statements `out` may stand in place of the statements `ss`. -/
structure Stmt.StandsFor (c : Surroundings) (handler : Option String) (ss out : List Stmt) : Prop where
  labels : Stmt.labels ss ⊆ Stmt.labels out
  binds : ss.flatMap Stmt.binds ⊆ out.flatMap Stmt.binds
  formed : c.Lasting handler fun c' =>
    (∀ label ∈ Stmt.labels out, c'.labels label) → Stmt.WellFormedAll c' out

namespace Stmt.StandsFor

variable {c : Surroundings} {handler : Option String} {ss ts out out' : List Stmt}

theorem nil : StandsFor c handler [] [] := ⟨List.Subset.refl _, List.Subset.refl _, fun _ _ _ _ => trivial⟩

theorem append (h : StandsFor c handler ss out) (h' : StandsFor (c.behind ss) handler ts out') :
    StandsFor c handler (ss ++ ts) (out ++ out') where
  labels := by
    rw [labels_append, labels_append]
    exact List.append_subset.mpr ⟨List.subset_append_of_subset_left _ h.labels,
      List.subset_append_of_subset_right _ h'.labels⟩
  binds := by
    rw [List.flatMap_append, List.flatMap_append]
    exact List.append_subset.mpr ⟨List.subset_append_of_subset_left _ h.binds,
      List.subset_append_of_subset_right _ h'.binds⟩
  formed c' hc hh hl := by
    rw [labels_append, List.forall_mem_append] at hl
    exact (h.formed c' hc hh hl.1).append (h'.formed _ (hc.behind h.binds) hh hl.2)

/-- Statements in place of some may also stand in place of none. -/
theorem drop (h : StandsFor c handler ss out) : StandsFor c handler [] out :=
  ⟨List.nil_subset _, List.nil_subset _, h.formed⟩

theorem mono {c' : Surroundings} (hc : c.Le c') (h : StandsFor c handler ss out) :
    StandsFor c' handler ss out :=
  { h with formed := fun c'' hc' => h.formed c'' (hc.trans hc') }

/-- Statements in front of others, which can rely on what they declare. -/
theorem prepend (h : StandsFor c handler [] out) (h' : StandsFor (c.behind out) handler ts out') :
    StandsFor c handler ts (out ++ out') where
  labels := by
    rw [labels_append]
    exact List.subset_append_of_subset_right _ h'.labels
  binds := by
    rw [List.flatMap_append]
    exact List.subset_append_of_subset_right _ h'.binds
  formed c' hc hh hl := by
    rw [labels_append, List.forall_mem_append] at hl
    exact (h.formed c' hc hh hl.1).append (h'.formed _ (hc.behind (List.Subset.refl _)) hh hl.2)

/-- One statement for one, which declares nothing. -/
theorem single {s s' : Stmt} (hl : Stmt.labels [s] = Stmt.labels [s']) (hb : s.binds = [])
    (h : c.Lasting handler s'.WellFormed) : StandsFor c handler [s] [s'] where
  labels := by
    rw [hl]
    exact List.Subset.refl _
  binds := by
    rw [List.flatMap_singleton, hb]
    exact List.nil_subset _
  formed c' hc hh _ := .singleton (h c' hc hh)

/-- A statement that stays as it is. -/
theorem same {s : Stmt} (h : s.WellFormed c) : StandsFor c handler [s] [s] where
  labels := List.Subset.refl _
  binds := List.Subset.refl _
  formed _ hc _ _ := .singleton (h.mono hc)

/-- Statements for those of a block make up a block in its place. -/
theorem block (h : StandsFor (c.enter ss) handler ss out) (span : Span) :
    c.Lasting handler (Block.mk out span).WellFormed := by
  intro c' hc hh
  rw [Block.WellFormed]
  refine h.formed (c'.enter out) (hc.enter h.labels) (fun label hl => .inr (hh label hl)) ?_
  exact fun label hl => .inl hl

end Stmt.StandsFor

/-! ## Protected runs -/

namespace Stmt

variable {c : Surroundings} {label : String} {run : List Stmt}

theorem WellFormed.protect (hl : c.labels label) (hrun : ∀ s ∈ run, s.WellFormed c) :
    (Stmt.protect label run).WellFormed c := by
  have hgoto : (Stmt.goto label .dummy).WellFormed (c.enter [.goto label .dummy]) := .inr hl
  rw [Stmt.protect, WellFormed]
  refine ⟨?_, ?_, trivial⟩
  · rw [Block.WellFormed]
    exact .of_forall fun s hs => (hrun s hs).mono (c.le_enter run)
  · rw [Block.WellFormedOption, Block.WellFormed]
    exact .singleton hgoto

/-- A run stands in front of what follows it. -/
theorem StandsFor.flush (hrun : ∀ s ∈ run, s.WellFormed c) :
    StandsFor c (some label) [] (Stmt.flush label run) where
  labels := List.nil_subset _
  binds := List.nil_subset _
  formed c' hc hh _ := by
    unfold Stmt.flush
    by_cases hr : run.isEmpty = true
    · rw [if_pos hr]
      trivial
    · rw [if_neg hr]
      exact .singleton (.protect (hh label rfl) fun s hs => (hrun s hs).mono hc)

/-- What of a statement stands in its run can rely on its declaration. -/
theorem WellFormed.runWork {s : Stmt} (h : s.WellFormed c) :
    ∀ r ∈ s.runWork, r.WellFormed (c.behind [s]) := by
  have hself : s.WellFormed (c.behind [s]) := h.mono (c.le_behind [s])
  cases s with
  | declare name ty init span =>
    intro r hr
    obtain ⟨e, he, rfl⟩ := List.mem_map.mp hr
    intro x hx
    rcases List.mem_cons.mp hx with rfl | hx
    · exact .inl (List.mem_singleton.mpr rfl)
    · exact .inr (h e (Option.mem_toList.mp he) x hx)
  | method decl span =>
    intro r hr
    cases hr
  | _ =>
    intro r hr
    rw [List.mem_singleton.mp hr]
    exact hself

/-- What of a statement does not stand in its run declares what it declares. -/
theorem StandsFor.runHead {handler : Option String} {s : Stmt} (hl : Stmt.labels [s] = []) :
    StandsFor c handler [s] s.runHead where
  labels := by
    rw [hl]
    exact List.nil_subset _
  binds := by
    rw [List.flatMap_singleton]
    cases s <;> exact List.Subset.refl _
  formed c' _ _ _ := by
    cases s with
    | declare name ty init span => exact .singleton fun e he => nomatch he
    | method decl span => exact .singleton trivial
    | _ => trivial

end Stmt

/-! ## The parts of split statements -/

section Split

variable {c : Surroundings} {handler : Option String}

/-- The body jumps to the label of the catcher, which stands beside it. -/
theorem Stmt.StandsFor.splitTry {s : Stmt} (hl : Stmt.labels [s] = []) (hb : s.binds = [])
    {label done : String} {body catcher : Block} (hbody : c.Lasting (some label) body.WellFormed)
    (hcatcher : c.Lasting handler catcher.WellFormed) :
    StandsFor c handler [s] (Stmt.splitTry label done body catcher) where
  labels := by
    rw [hl]
    exact List.nil_subset _
  binds := by
    rw [List.flatMap_singleton, hb]
    exact List.nil_subset _
  formed c' hc hh hlabels := by
    rw [Stmt.labels_splitTry, List.forall_mem_cons, List.forall_mem_singleton] at hlabels
    have hlabel : c'.Handles (some label) := by
      rintro _ ⟨⟩
      exact hlabels.1
    refine .of_forall fun t ht => ?_
    simp only [Stmt.splitTry, List.mem_cons, List.not_mem_nil, or_false] at ht
    rcases ht with rfl | rfl | rfl | rfl
    · exact hbody c' hc hlabel
    · exact hlabels.2
    · exact hcatcher c' hc hh
    · exact trivial

/-- The same, with a cleanup around both. -/
theorem Stmt.lasting_splitCleanup {label done : String} {body catcher cleanup : Block} {span : Span}
    (hbody : c.Lasting (some label) body.WellFormed) (hcatcher : c.Lasting handler catcher.WellFormed)
    (hcleanup : c.Lasting handler cleanup.WellFormed) :
    c.Lasting handler (Stmt.attempt ⟨Stmt.splitTry label done body catcher, span⟩ none (some cleanup)
      span).WellFormed := by
  intro c' hc hh
  have hsplit : StandsFor c handler [Stmt.attempt body (some catcher) (some cleanup) span]
      (Stmt.splitTry label done body catcher) := .splitTry rfl rfl hbody hcatcher
  rw [Stmt.WellFormed, Block.WellFormed]
  refine ⟨?_, trivial, hcleanup c' hc hh⟩
  refine hsplit.formed _ (hc.trans (c'.le_enter _)) (fun l hl => .inr (hh l hl)) ?_
  exact fun l hl => .inl hl

/-- A loop leaves by its own test, which `before` evaluates. -/
theorem Stmt.lasting_splitLoop {before : List Stmt} {cond : Expr} {body : Stmt} {span : Span}
    (hbefore : StandsFor c handler [] before)
    (hcond : ∀ c', (c.behind before).Le c' → c'.Knows cond)
    (hbody : c.inLoop.Lasting handler body.WellFormed) :
    c.Lasting handler (Stmt.splitLoop before cond body span).WellFormed := by
  intro c' hc hh
  rw [Stmt.splitLoop, Stmt.WellFormed, Stmt.WellFormed, Block.WellFormed]
  refine ⟨fun x hx => (nomatch hx), ?_⟩
  let leave : Stmt := .ite cond.not (.block ⟨[.exit .dummy], .dummy⟩ .dummy) none .dummy
  -- inside the loop, with the labels of its new body
  let inside : Surroundings := c'.inLoop.enter (before ++ [leave, body])
  have hin : c.inLoop.Le inside := hc.inLoop.trans (c'.inLoop.le_enter _)
  have hle : c.Le inside := { hin with leavable := fun _ => rfl, repeatable := fun _ => rfl }
  have hhandles : inside.Handles handler := fun l hl => .inr (hh l hl)
  have hlabels : ∀ l ∈ Stmt.labels before, inside.labels l := by
    intro l hl
    refine .inl ?_
    rw [Stmt.labels_append]
    exact List.mem_append_left _ hl
  have hleave : leave.WellFormed (inside.behind before) :=
    ⟨hcond _ (hle.behind (List.Subset.refl _)), ⟨rfl, trivial⟩, trivial⟩
  have hrest : body.WellFormed (inside.behind before) :=
    hbody _ (hin.trans (inside.le_behind before)) hhandles
  refine (hbefore.formed inside hle hhandles hlabels).append (.of_forall ?_)
  rw [List.forall_mem_cons, List.forall_mem_singleton]
  exact ⟨hleave, hrest⟩

end Split

/-! ## The rules -/

/-- A condition is evaluated in front of its use. -/
theorem Guards.standsFor {handler : Option String} {span : Span} {test test' : Expr}
    {coined : List Coined} {before : List Stmt} (h : Guards handler span test coined before test')
    {c : Surroundings} (ht : c.Knows test) :
    Stmt.StandsFor c handler [] before ∧ ∀ c', (c.behind before).Le c' → c'.Knows test' := by
  cases h with
  | same => exact ⟨.nil, fun c' hc => hc.of_behind.knows ht⟩
  | @fresh label cond =>
    refine ⟨?_, fun c' hc x hx => hc.locals x (.inl hx)⟩
    -- a declaration with the condition as its start value, in a run of its own
    let declared : Stmt := .declare cond .bool (some test) span
    have hdeclared : declared.WellFormed c := by
      rintro _ ⟨⟩
      exact ht
    have hhead : Stmt.StandsFor c (some label) [declared] declared.runHead := .runHead rfl
    exact (hhead.append (.flush hdeclared.runWork)).drop

/-- Where statements may stand for those of a block, their block may stand for the block. -/
theorem Block.WellFormed.lasting {handler : Option String} {b : Block} {out : List Stmt} {c : Surroundings}
    (h : b.WellFormed c)
    (hout : (∀ r ∈ ([] : List Stmt), r.WellFormed (c.enter b.stmts)) →
      Stmt.WellFormedAll (c.enter b.stmts) b.stmts →
      Stmt.StandsFor (c.enter b.stmts) handler b.stmts out) :
    c.Lasting handler (Block.mk out b.span).WellFormed := by
  cases b with
  | mk stmts span =>
    rw [Block.WellFormed] at h
    exact (hout (List.forall_mem_nil _) h).block span

mutual

/-- What the rules make of a statement may stand in its place. -/
theorem Hoists.standsFor : ∀ {handler s coined out}, Hoists handler s coined out →
    ∀ {c : Surroundings}, s.WellFormed c → Stmt.StandsFor c handler [s] out
  | _, _, _, _, .plain _, _, h | _, _, _, _, .suspend, _, h => .same h
  | _, _, _, _, .block _ hb, _, h | _, _, _, _, .labeled _ hb, _, h =>
    .single rfl rfl (Block.WellFormed.lasting h hb.standsFor)
  -- The guard's declaration comes first, and what follows may read the name it declares.
  | _, _, _, _, .ite _ hg hb, _, h => by
    obtain ⟨hbefore, hknows⟩ := hg.standsFor h.1
    refine hbefore.prepend (.single rfl rfl fun c' hc hh => ⟨hknows c' hc, ?_, trivial⟩)
    exact Block.WellFormed.lasting h.2.1 hb.standsFor c' hc.of_behind hh
  | _, _, _, _, .iteElse _ hg hb hb', _, h => by
    obtain ⟨hbefore, hknows⟩ := hg.standsFor h.1
    refine hbefore.prepend (.single rfl rfl fun c' hc hh => ⟨hknows c' hc, ?_, ?_⟩)
    · exact Block.WellFormed.lasting h.2.1 hb.standsFor c' hc.of_behind hh
    · exact Block.WellFormed.lasting h.2.2 hb'.standsFor c' hc.of_behind hh
  | _, _, _, _, .loop _ _ hb, _, h => by
    have hbody := Block.WellFormed.lasting h.2 hb.standsFor
    exact .single rfl rfl fun c' hc hh => ⟨hc.knows h.1, hbody _ hc.inLoop hh⟩
  | _, _, _, _, .splitLoop _ ht hb, _, h => by
    obtain ⟨hbefore, hknows⟩ := (Guards.fresh ht).standsFor h.1
    have hbody := Block.WellFormed.lasting h.2 hb.standsFor
    exact .single rfl rfl (Stmt.lasting_splitLoop hbefore hknows hbody)
  | _, _, _, _, .attempt _ hb, _, h => by
    have hbody := Block.WellFormed.lasting h.1 hb.standsFor
    exact .single rfl rfl fun c' hc hh => ⟨hbody c' hc hh, trivial, trivial⟩
  | _, _, _, _, .attemptCleanup _ _ hb hk, _, h => by
    have hbody := Block.WellFormed.lasting h.1 hb.standsFor
    have hcleanup := Block.WellFormed.lasting h.2.2 hk.standsFor
    exact .single rfl rfl fun c' hc hh => ⟨hbody c' hc hh, trivial, hcleanup c' hc hh⟩
  | _, _, _, _, .split _ hb hc, _, h =>
    .splitTry rfl rfl (Block.WellFormed.lasting h.1 hb.standsFor)
      (Block.WellFormed.lasting h.2.1 hc.standsFor)
  | _, _, _, _, .splitCleanup _ _ hb hc hk, _, h =>
    .single rfl rfl (Stmt.lasting_splitCleanup (Block.WellFormed.lasting h.1 hb.standsFor)
      (Block.WellFormed.lasting h.2.1 hc.standsFor) (Block.WellFormed.lasting h.2.2 hk.standsFor))
  | _, _, _, _, .switch _ hcs, _, h =>
    .single rfl rfl fun c' hc hh => ⟨hc.knows h.1, hcs.lasting h.2 c' hc hh⟩

/-- The run that is collected has been passed already. -/
theorem HoistsAll.standsFor : ∀ {handler run ss coined out}, HoistsAll handler run ss coined out →
    ∀ {c : Surroundings}, (∀ r ∈ run, r.WellFormed c) → Stmt.WellFormedAll c ss →
    Stmt.StandsFor c handler ss out
  | _, _, _, _, _, .nil, _, _, _ => .nil
  | _, _, _, _, _, .cons hs hss, _, _, h =>
    (hs.standsFor h.1).append (hss.standsFor (List.forall_mem_nil _) h.2)
  | _, _, _, _, _, .flush, _, hrun, _ => .flush hrun
  | _, _, _, _, _, .suspends _ hs hss, c, hrun, h => by
    have hout := (hs.standsFor h.1).append (hss.standsFor (List.forall_mem_nil _) h.2)
    exact (Stmt.StandsFor.flush hrun).prepend (hout.mono (c.le_behind _))
  | _, _, _, _, _, @HoistsAll.labeled label _ target b bspan span _ _ out _ _ _ hb hss, c, hrun, h => by
    have hlabeled : Stmt.StandsFor c (some label) [.labeled target (.block b bspan) span]
        [.labeled target (.block ⟨out, b.span⟩ bspan) span] :=
      .single rfl rfl (Block.WellFormed.lasting h.1 hb.standsFor)
    have hout := hlabeled.append (hss.standsFor (List.forall_mem_nil _) h.2)
    exact (Stmt.StandsFor.flush hrun).prepend (hout.mono (c.le_behind _))
  | _, _, _, _, _, @HoistsAll.collect _ run s _ _ _ _ hl hss, c, hrun, h => by
    have hwork : ∀ r ∈ run ++ s.runWork, r.WellFormed (c.behind [s]) := by
      rw [List.forall_mem_append]
      exact ⟨fun r hr => (hrun r hr).mono (c.le_behind [s]), h.1.runWork⟩
    exact (Stmt.StandsFor.runHead hl).append (hss.standsFor hwork h.2)

theorem HoistsCases.lasting : ∀ {cases coined cases'}, HoistsCases cases coined cases' →
    ∀ {c : Surroundings}, Case.WellFormedAll c cases → c.Lasting none (Case.WellFormedAll · cases')
  | _, _, _, .nil, _, _ => fun _ _ _ => trivial
  | _, _, _, .cons hb hcs, _, h => by
    have hbody := Block.WellFormed.lasting h.2.1 hb.standsFor
    have hcases := hcs.lasting h.2.2
    intro c' hc hh
    exact ⟨fun e he => hc.knows (h.1 e he), hbody _ hc.inSwitch hh, hcases c' hc hh⟩

end

/-! ## Whole bodies -/

/-- **Hoisting keeps a body well-formed, whatever names it is given.** -/
theorem Block.wellFormed_hoist {σ : Type} [NameSupply σ] (hints : HoistHints) (names : String → Prop)
    (body : Block) (supply : σ) {hoisted : Hoisted} (hok : (body.hoist hints supply).1 = .ok hoisted)
    (h : body.WellFormedFor names) : hoisted.body.WellFormedFor names := by
  rcases Block.hoist_hoists hints hok with ⟨-, rfl, -⟩ | ⟨-, coined, ⟨out, hout, hbody⟩, -⟩
  · exact h
  · rw [hbody]
    refine (Block.WellFormed.normalize h).lasting hout.standsFor _ (.refl _) ?_
    intro label hl
    cases hl

/-- A loop that jumps, leaves and goes on from inside a try with a handler:
```text
while (n) {
  try {
    again: f();
    int x = g(n);
    if (p(x)) { yield x; goto again; } else break;
  } catch { continue; }
}
```
-/
def Block.retryLoop : Block :=
  ⟨[.loop (.var "n") (.attempt
    ⟨[.labeled "again" (.eval (.call "f" []) .dummy) .dummy,
      .declare "x" .int (some (.call "g" [.var "n"])) .dummy,
      .ite (.call "p" [.var "x"])
        (.block ⟨[.suspend .yield (some (.var "x")) .dummy, .goto "again" .dummy], .dummy⟩ .dummy)
        (some (.exit .dummy)) .dummy], .dummy⟩
    (some ⟨[.next .dummy], .dummy⟩) none .dummy) .dummy], .dummy⟩

theorem Block.wellFormed_hoist_retryLoop :
    ∃ hoisted, (retryLoop.hoist {} (Names.empty.reserve "x")).1 = .ok hoisted ∧
      retryLoop.WellFormedFor (· = "n") ∧ hoisted.body.WellFormedFor (· = "n") := by
  obtain ⟨hoisted, hok⟩ : ∃ hoisted, (retryLoop.hoist {} (Names.empty.reserve "x")).1 = .ok hoisted :=
    ⟨_, rfl⟩
  have hwf : retryLoop.WellFormedFor (· = "n") := by
    simp [Block.WellFormedFor, retryLoop, Block.WellFormed, Stmt.WellFormedAll, Stmt.WellFormed,
      Stmt.WellFormedOption, Block.WellFormedOption, Surroundings.Knows, Surroundings.outside,
      Surroundings.inLoop, Surroundings.enter, Surroundings.behind, Expr.locals, Expr.localsAll,
      Stmt.binds, Stmt.labels]
  exact ⟨hoisted, hok, hwf, Block.wellFormed_hoist {} (· = "n") retryLoop _ hok hwf⟩

end Lowering
