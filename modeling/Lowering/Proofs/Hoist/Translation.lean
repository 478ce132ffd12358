import Lowering.Proofs.Hoist.Derivation
import Lowering.Proofs.Hoist.Plain

/-!
# Hoisting rewrites as it should

What the rules of hoisting make of a statement may stand in its place (`Hoists.lowers`), where the
statement is fit for it and the names that are asked for are made up: `Coined.Apart` says that none of them
is of the source, that no two of them are the same, and that none is the label of the handler around them.
-/

namespace Lowering

/-! ## Names that were made up -/

section Names

variable {L : Lexicon} {handler : Option String} {coined coined' : List Coined} {label done : String}

/-- The label of the handler and the names that are asked for are no names of the source, and no two of
them are the same. -/
structure Coined.Apart (L : Lexicon) (handler : Option String) (coined : List Coined) : Prop where
  nodup : (handler.toList ++ coined.flatMap names).Nodup
  fresh : ∀ x ∈ handler.toList ++ coined.flatMap names, x ∉ L.taken

namespace Coined.Apart

theorem sublist {handler' : Option String} (h : Apart L handler coined)
    (hs : (handler'.toList ++ coined'.flatMap names).Sublist (handler.toList ++ coined.flatMap names)) :
    Apart L handler' coined' :=
  ⟨h.nodup.sublist hs, fun x hx => h.fresh x (hs.subset hx)⟩

theorem left (h : Apart L handler (coined ++ coined')) : Apart L handler coined := by
  refine h.sublist ((List.Sublist.refl _).append ?_)
  rw [List.flatMap_append]
  exact List.sublist_append_left _ _

theorem right (h : Apart L handler (coined ++ coined')) : Apart L handler coined' := by
  refine h.sublist ((List.Sublist.refl _).append ?_)
  rw [List.flatMap_append]
  exact List.sublist_append_right _ _

/-- Behind the labels of a split try, the handler around it is as before. -/
theorem behind (h : Apart L handler (.split label done :: coined)) : Apart L handler coined :=
  h.sublist ((List.Sublist.refl _).append (List.sublist_append_right [label, done] _))

/-- The first label of a split try is the one of the handler around its body. -/
theorem under (h : Apart L handler (.split label done :: coined)) : Apart L (some label) coined := by
  refine h.sublist (List.Sublist.trans ?_ (List.sublist_append_right handler.toList _))
  exact .cons_cons label (.cons done (List.Sublist.refl _))

theorem freshPair (h : Apart L handler (.split label done :: coined)) :
    L.FreshPair handler label done := by
  have hnames : (Coined.split label done :: coined).flatMap names =
    label :: done :: coined.flatMap names := rfl
  have hnodup := h.nodup
  have hfresh := h.fresh
  rw [hnames] at hnodup hfresh
  obtain ⟨-, hpair, hapart⟩ := List.nodup_append.mp hnodup
  refine ⟨hfresh label (by simp), hfresh done (by simp), ?_, fun l hl => ⟨?_, ?_⟩⟩
  · exact fun he => (List.nodup_cons.mp hpair).1 (he ▸ List.mem_cons_self)
  · exact hapart l (Option.mem_toList.mpr hl) label (by simp)
  · exact hapart l (Option.mem_toList.mpr hl) done (by simp)

theorem condition_fresh {name : String} (h : Apart L handler coined)
    (hc : .condition name ∈ coined) : name ∉ L.taken := by
  have hname : name ∈ coined.flatMap names := List.mem_flatMap.mpr ⟨_, hc, List.mem_singleton.mpr rfl⟩
  exact h.fresh name (List.mem_append_right _ hname)

end Coined.Apart

end Names

/-! ## Labels -/

section Labels

variable {L : Lexicon} {handler : Option String} {coined : List Coined}

theorem Guards.labels {span : Span} {test test' : Expr} {before : List Stmt}
    (h : Guards handler span test coined before test') : Stmt.labels before = [] := by
  cases h <;> rfl

/-- The labels that are made up were asked for. -/
theorem Hoists.labels {s : Stmt} {out : List Stmt} (h : Hoists handler s coined out)
    (hs : Stmt.labels [s] ⊆ L.taken) :
    (L.madeUp (Stmt.labels out)).Sublist (coined.flatMap Coined.names) := by
  cases h with
  | plain =>
    rw [Lexicon.madeUp_eq_nil hs]
    exact List.nil_sublist _
  | @labeled _ label =>
    have hlabel : L.madeUp [label] = [] := Lexicon.madeUp_eq_nil hs
    exact hlabel ▸ List.nil_sublist (coined.flatMap Coined.names)
  | ite _ hg | iteElse _ hg =>
    rw [Stmt.labels_append, hg.labels]
    exact List.nil_sublist _
  | @split _ _ _ _ label done coined out coined' =>
    refine List.Sublist.trans List.filter_sublist ?_
    exact List.sublist_append_left [label, done] _
  | _ => exact List.nil_sublist _

theorem HoistsAll.labels : ∀ {handler run ss coined out}, HoistsAll handler run ss coined out →
    Stmt.labels ss ⊆ L.taken →
    (L.madeUp (Stmt.labels out)).Sublist (coined.flatMap Coined.names)
  | _, _, _, _, _, .nil, _ => List.nil_sublist _
  | _, _, _, _, _, .cons hs hss, h | _, _, _, _, _, .suspends _ hs hss, h => by
    rw [Stmt.labels_cons, List.append_subset] at h
    simp only [Stmt.labels_append, Stmt.labels_flush, List.nil_append, Lexicon.madeUp_append,
      List.flatMap_append]
    exact (hs.labels h.1).append (hss.labels h.2)
  | _, _, _, _, _, .flush, _ => by
    rw [Stmt.labels_flush]
    exact List.nil_sublist _
  | _, _, _, _, _, @HoistsAll.labeled _ _ target _ _ _ ss _ _ coined' more _ _ hss, h => by
    rw [Stmt.labels_cons, List.append_subset] at h
    have htarget : L.madeUp [target] = [] := Lexicon.madeUp_eq_nil h.1
    have hmore : L.madeUp (target :: Stmt.labels more) = L.madeUp (Stmt.labels more) := by
      rw [← List.singleton_append, L.madeUp_append, htarget, List.nil_append]
    rw [Stmt.labels_append, Stmt.labels_flush, List.nil_append, List.flatMap_append]
    exact List.Sublist.trans (hmore ▸ hss.labels h.2) (List.sublist_append_right _ _)
  | _, _, _, _, _, .collect _ hl hss, h => by
    rw [Stmt.labels_cons, hl, List.nil_append] at h
    rw [Stmt.labels_append, Stmt.labels_runHead, List.nil_append]
    exact hss.labels h

/-- The labels that are made up stand in the block once, and the label of the handler does not. -/
theorem HoistsAll.freshLabels {run ss out : List Stmt} (h : HoistsAll handler run ss coined out)
    (hs : Stmt.labels ss ⊆ L.taken) (hn : Coined.Apart L handler coined) :
    Stmt.FreshLabels L handler out := by
  have hmade := h.labels hs
  obtain ⟨-, hnodup, hapart⟩ := List.nodup_append.mp hn.nodup
  refine ⟨hnodup.sublist hmade, fun l hl hm => ?_⟩
  have htaken : l ∉ L.taken := hn.fresh l (List.mem_append_left _ (Option.mem_toList.mpr hl))
  have hmem : l ∈ L.madeUp (Stmt.labels out) := List.mem_filter.mpr ⟨hm, by simpa using htaken⟩
  exact hapart l (Option.mem_toList.mpr hl) l (hmade.subset hmem) rfl

end Labels

/-! ## Runs -/

section Runs

variable {L : Lexicon} {handler : Option String} {Γ : List String} {past run : List Stmt} {s : Stmt}

theorem LowersRun.concat (hr : LowersRun L Γ run) (hs : Lowers L none (Stmt.scopeAfter Γ run) s [s])
    (hp : ∀ p ∈ s.parts, p.suspends = false) (hl : Stmt.labels [s] = [])
    (hb : ∀ x ∈ s.binds, x ∈ L.kept ∧ x ∉ Stmt.scopeAfter Γ run)
    (ht : ∀ t ∈ run, ∀ x ∈ s.binds, x ∉ t.touched) : LowersRun L Γ (run ++ [s]) := by
  induction run generalizing Γ with
  | nil => exact .cons hs hp hl hb nofun .nil
  | cons t run ih =>
    cases hr with
    | cons hs' hp' hl' hb' ht' hr =>
      refine .cons hs' hp' hl' hb' (fun x hx => ?_)
        (ih hr hs hb fun t ht₁ => ht t (List.mem_cons_of_mem _ ht₁))
      have hx : x ∈ (run ++ [s]).flatMap Stmt.binds := hx
      rw [List.flatMap_append, List.flatMap_singleton] at hx
      rcases List.mem_append.mp hx with hx | hx
      · exact ht' x hx
      · exact ht t List.mem_cons_self x hx

/-- A run, and what stands behind it. -/
theorem LowersAll.prepend {label : String} {ss out : List Stmt} (hr : LowersRun L Γ run)
    (hs : LowersAll L (some label) (Stmt.scopeAfter Γ run) ss out) :
    LowersAll L (some label) Γ (run ++ ss)
      (run.flatMap Stmt.runHead ++ (Stmt.flush label (run.flatMap Stmt.runWork) ++ out)) := by
  cases run with
  | nil => exact hs
  | cons s run => exact .run hr hs

/-- The run `run` has been collected from the statements `past`; without a handler none is. -/
structure Collected (L : Lexicon) (handler : Option String) (Γ : List String) (past run : List Stmt) :
    Prop where
  work : run = past.flatMap Stmt.runWork
  none : handler = none → past = []
  lowers : LowersRun L Γ past

theorem Collected.nil : Collected L handler Γ [] [] := ⟨rfl, fun _ => rfl, .nil⟩

/-- A statement ends the run. -/
theorem Collected.close {label : String} {out ss more : List Stmt}
    (h : Collected L (some label) Γ past run)
    (hs : Lowers L (some label) (Stmt.scopeAfter Γ past) s out)
    (hss : LowersAll L (some label) (s.binds ++ Stmt.scopeAfter Γ past) ss more) :
    LowersAll L (some label) Γ (past ++ s :: ss)
      (past.flatMap Stmt.runHead ++ (Stmt.flush label run ++ (out ++ more))) := by
  rw [h.work]
  exact .prepend h.lowers (.cons hs hss)

end Runs

/-! ## Places -/

section Places

variable {L : Lexicon} {handler : Option String} {c : Context} {s : Stmt} {b : Block}

theorem Context.guarded_inBody {caught : Bool} (h : c.guarded = true) :
    (c.inBody caught).guarded = true :=
  Bool.or_eq_true_iff.mpr (.inl h)

theorem Block.sites_stmts (b : Block) (c : Context) : b.sites c = Stmt.sitesFrom c [] b.stmts := by
  cases b with
  | mk stmts span => rw [Block.sites]

/-- In the body of a try that is split, all declarations may move. -/
theorem Site.Fit.under {catcher : Block} {cleanup : Option Block} {span : Span} {c' : Context}
    (h : Site.Fit L ⟨.attempt b (some catcher) cleanup span, c⟩)
    (hs : (b.suspends || catcher.suspends) = true) (hf : ∀ site ∈ b.sites c', site.FitUnder L handler)
    (label : Option String) : ∀ site ∈ b.sites c', site.FitUnder L label := by
  intro site hsite
  refine { hf site hsite with moves := fun _ x hx => h.movable x ?_ }
  rw [Stmt.movable, Stmt.needsSplit, if_pos hs, Stmt.declaredIn, ← Stmt.map_stmt_sites_block c']
  exact List.mem_flatMap.mpr ⟨site.stmt, List.mem_map_of_mem hsite, hx⟩

/-- The statements `out` may stand for the statements `ss` of a block, wherever they are fit for it and the
run `run` has been collected in front of them. -/
def LowersRest (L : Lexicon) (handler : Option String) (run ss out : List Stmt) : Prop :=
  ∀ (c : Context) (before past : List Stmt),
    Collected L handler (Stmt.scopeAfter c.scope before) past run →
    (∀ site ∈ Stmt.sitesFrom c [] (before ++ past ++ ss), site.FitUnder L handler) →
    (handler ≠ none → c.guarded = true) →
    LowersAll L handler (Stmt.scopeAfter c.scope before) (past ++ ss) (past.flatMap Stmt.runHead ++ out)

/-- What the statements of a block become may stand in the block. -/
theorem HoistsAll.lowersBlock {coined : List Coined} {out : List Stmt}
    (h : HoistsAll handler [] b.stmts coined out) (hn : Coined.Apart L handler coined)
    (hrest : LowersRest L handler [] b.stmts out) (hf : ∀ site ∈ b.sites c, site.FitUnder L handler)
    (hg : handler ≠ none → c.guarded = true) :
    LowersBlock L handler c.scope b.stmts out := by
  rw [Block.sites_stmts] at hf
  have hfit := fun site hsite => (hf site hsite).toFit
  have hall : LowersAll L handler c.scope b.stmts out := hrest c [] [] .nil hf hg
  exact .mk hall (Stmt.jumps_of_fit hfit) (h.freshLabels (Stmt.labels_subset_taken hfit) hn)

end Places

/-! ## Conditions -/

section Conditions

variable {L : Lexicon} {handler : Option String} {Γ : List String} {span : Span} {test : Expr}

/-- A condition that is used as it is throws nothing under a handler. -/
theorem Expr.calm_of_unguarded (h : (handler.isSome && !test.isTrivial) = false)
    (hn : handler ≠ none) : test.calm = true := by
  rw [Option.isSome_iff_ne_none.mpr hn] at h
  exact Expr.calm_of_isTrivial (by simpa using h)

theorem Lowers.ite_of_guards {coined : List Coined} {before : List Stmt} {test' : Expr}
    {yes yes' : Stmt} {no no' : Option Stmt} (hg : Guards handler span test coined before test')
    (hn : Coined.Apart L handler coined) (hv : ∀ x ∈ test.locals, L.Visible Γ x)
    (hyes : Lowers L handler Γ yes [yes']) (hno : LowersOption L handler Γ no no') :
    Lowers L handler Γ (.ite test yes no span) (before ++ [.ite test' yes' no' span]) := by
  cases hg with
  | same h => exact .ite hv (Expr.calm_of_unguarded h) hyes hno
  | fresh => exact .iteGuarded hv (hn.condition_fresh List.mem_cons_self) hyes hno

end Conditions

/-! ## The rules -/

variable {L : Lexicon}

-- Every rule is one of the ways to rewrite. In the rules for the statements of a block, the induction goes
-- through with all that stands in front of them, since a run is only placed where it ends.
mutual

/-- **What hoisting makes of a statement may stand in its place.** -/
theorem Hoists.lowers : ∀ {handler s coined out}, Hoists handler s coined out →
    Coined.Apart L handler coined → ∀ {c : Context}, (∀ site ∈ s.sites c, site.FitUnder L handler) →
    (handler ≠ none → c.guarded = true) → (handler ≠ none → s.suspends = true) →
    Lowers L handler c.scope s out
  | handler, s, _, _, .plain hs, _, c, hf, _, hsus => by
    -- Below a handler `hsus` says that the statement suspends, so this one has no handler.
    have hnone : handler = none := Decidable.byContradiction fun hn => by simp [hsus hn] at hs
    subst hnone
    exact s.lowers_plain c hs fun site hsite => (hf site hsite).toFit
  | _, _, _, _, .suspend, _, c, hf, hg, _ => by
    have hfit := (hf _ (Stmt.self_mem_sites _ c)).toFit
    refine .suspend hfit.visible fun hn hescapes e he => ?_
    have hcalm := hfit.calm hescapes
    rcases Option.mem_toList.mp he with rfl
    simpa [Site.calm, hg hn] using hcalm
  | _, _, _, _, .block _ hb, hn, _, hf, hg, _ => by
    simp only [Stmt.sites, List.forall_mem_cons] at hf
    exact .block (hb.lowersBlock hn (hb.lowers hn) hf.2 hg)
  | _, _, _, _, .labeled _ hb, hn, _, hf, hg, _ => by
    simp only [Stmt.sites, List.forall_mem_cons] at hf
    have hbody := hb.lowersBlock hn (hb.lowers hn) hf.2.2 hg
    exact .labeled (.block hbody)
  | _, _, _, _, .ite _ hguard hb, hn, c, hf, hg, _ => by
    have hv := (hf _ (Stmt.self_mem_sites _ c)).visible _ List.mem_cons_self
    simp only [Stmt.sites, List.cons_append, List.forall_mem_cons, List.forall_mem_append] at hf
    have hyes := hb.lowersBlock hn.right (hb.lowers hn.right) hf.2.2.1 hg
    exact .ite_of_guards hguard hn.left hv (.block hyes) .none
  | _, _, _, _, .iteElse _ hguard hb hb', hn, c, hf, hg, _ => by
    have hv := (hf _ (Stmt.self_mem_sites _ c)).visible _ List.mem_cons_self
    simp only [Stmt.sites, Stmt.sitesOption, List.cons_append, List.forall_mem_cons,
      List.forall_mem_append] at hf
    have hyes := hb.lowersBlock hn.right.left (hb.lowers hn.right.left) hf.2.2.1 hg
    have hno := hb'.lowersBlock hn.right.right (hb'.lowers hn.right.right) hf.2.2.2.2 hg
    exact .ite_of_guards hguard hn.left hv (.block hyes) (.some (.block hno))
  | _, _, _, _, .loop _ ht hb, hn, c, hf, hg, _ => by
    have hv := (hf _ (Stmt.self_mem_sites _ c)).visible _ List.mem_cons_self
    simp only [Stmt.sites, List.forall_mem_cons] at hf
    have hbody := hb.lowersBlock hn (hb.lowers hn) hf.2.2 hg
    exact .loop hv (Expr.calm_of_unguarded ht) (.block hbody)
  | _, _, _, _, .splitLoop _ _ hb, hn, c, hf, hg, _ => by
    have hv := (hf _ (Stmt.self_mem_sites _ c)).visible _ List.mem_cons_self
    simp only [Stmt.sites, List.forall_mem_cons] at hf
    have hbody := hb.lowersBlock hn.left (hb.lowers hn.left) hf.2.2 hg
    exact .loopGuarded hv (hn.condition_fresh List.mem_concat_self) (.block hbody)
  | _, _, _, _, .attempt _ hb, hn, _, hf, hg, _ => by
    simp only [Stmt.sites, List.forall_mem_cons, List.forall_mem_append] at hf
    have hbody := hb.lowersBlock hn (hb.lowers hn) hf.2.1 fun hn => Context.guarded_inBody (hg hn)
    exact .attempt hbody .none
  | _, _, _, _, .attemptCleanup _ _ hb hk, hn, _, hf, hg, _ => by
    simp only [Stmt.sites, Block.sitesOption, List.forall_mem_cons, List.forall_mem_append] at hf
    have hbody := hb.lowersBlock hn.left (hb.lowers hn.left) hf.2.1
      fun hn => Context.guarded_inBody (hg hn)
    have hcleanup := hk.lowersBlock hn.right (hk.lowers hn.right) hf.2.2.2 hg
    exact .attempt hbody (.some hcleanup)
  -- The body moves under the coined label, the clauses stay under the handler there was.
  | _, _, _, _, .split hs hb hc, hn, _, hf, hg, _ => by
    simp only [Stmt.sites, Block.sitesOption, List.forall_mem_cons, List.forall_mem_append] at hf
    have hfb := hf.1.toFit.under hs hf.2.1
    have hbody := hb.lowersBlock hn.under.left (hb.lowers hn.under.left) (hfb _) fun _ => Bool.or_true _
    have hcatcher := hc.lowersBlock hn.behind.right (hc.lowers hn.behind.right) hf.2.2.1 hg
    exact .split hn.freshPair hbody hcatcher
  | _, _, _, _, .splitCleanup hs _ hb hc hk, hn, _, hf, hg, _ => by
    simp only [Stmt.sites, Block.sitesOption, List.forall_mem_cons, List.forall_mem_append] at hf
    have hfb := hf.1.toFit.under hs hf.2.1
    have hn' := hn.behind.right
    have hbody := hb.lowersBlock hn.under.left (hb.lowers hn.under.left) (hfb _) fun _ => Bool.or_true _
    have hcatcher := hc.lowersBlock hn'.left (hc.lowers hn'.left) hf.2.2.1 hg
    have hcleanup := hk.lowersBlock hn'.right (hk.lowers hn'.right) hf.2.2.2 hg
    exact .splitCleanup hn.freshPair hbody hcatcher hcleanup
  | _, _, _, _, .switch _ hcs, hn, c, hf, _, _ => by
    have hv := (hf _ (Stmt.self_mem_sites _ c)).visible
    simp only [Stmt.sites, List.forall_mem_cons] at hf
    exact .switch hv (hcs.lowers hn hf.2)

theorem HoistsAll.lowers : ∀ {handler run ss coined out}, HoistsAll handler run ss coined out →
    Coined.Apart L handler coined → LowersRest L handler run ss out
  | _, _, _, _, _, .nil, _, _, _, _, hpast, _, _ => by
    obtain rfl := hpast.none rfl
    exact .nil
  | _, _, _, _, _, @HoistsAll.cons s ss _ out _ more hs hss, hn, c, before, _, hpast, hf, hg => by
    obtain rfl := hpast.none rfl
    rw [List.append_nil] at hf
    have hlow := hs.lowers hn.left (fun site hsite => hf site (Stmt.sites_place_subset rfl hsite)) hg
      fun h => absurd rfl h
    have hall : before ++ s :: ss = before ++ [s] ++ [] ++ ss := by simp
    have hmore := hss.lowers hn.right c (before ++ [s]) [] .nil (hall ▸ hf) hg
    rw [Stmt.scopeAfter_concat] at hmore
    have hcons : LowersAll L none _ (s :: ss) (out ++ more) := .cons hlow hmore
    exact hcons
  | _, _, _, _, _, @HoistsAll.flush label _, _, _, _, _, hpast, _, _ => by
    have hrun := LowersAll.prepend hpast.lowers (.nil : LowersAll L (some label) _ [] [])
    rw [List.append_nil (Stmt.flush _ _), ← hpast.work] at hrun
    exact hrun
  | _, _, _, _, _, @HoistsAll.suspends _ _ s ss _ _ _ _ h hs hss, hn, c, before, past, hpast, hf, hg => by
    have hlow := hs.lowers hn.left (fun site hsite => hf site (Stmt.sites_place_subset rfl hsite)) hg
      fun _ => h
    have hall : before ++ past ++ s :: ss = before ++ past ++ [s] ++ [] ++ ss := by simp
    have hmore := hss.lowers hn.right c (before ++ past ++ [s]) [] .nil (hall ▸ hf) hg
    rw [Context.place, Stmt.scopeAfter_append] at hlow
    rw [Stmt.scopeAfter_concat, Stmt.scopeAfter_append] at hmore
    exact hpast.close hlow hmore
  | _, _, _, _, _, @HoistsAll.labeled _ _ target b bspan span ss _ _ _ _ _ hb hss, hn, c, before, past,
      hpast, hf, hg => by
    let s : Stmt := .labeled target (.block b bspan) span
    have hfs : ∀ site ∈ s.sites (c.place (before ++ past) ss), site.FitUnder L _ :=
      fun site hsite => hf site (Stmt.sites_place_subset rfl hsite)
    simp only [s, Stmt.sites, List.forall_mem_cons] at hfs
    have hbody := hb.lowersBlock hn.left (hb.lowers hn.left) hfs.2.2 hg
    rw [Context.alone, Context.place, Stmt.scopeAfter_append] at hbody
    have hall : before ++ past ++ s :: ss = before ++ past ++ [s] ++ [] ++ ss := by simp
    have hmore := hss.lowers hn.right c (before ++ past ++ [s]) [] .nil (hall ▸ hf) hg
    rw [Stmt.scopeAfter_concat, Stmt.scopeAfter_append] at hmore
    exact hpast.close (.labeled (.block hbody)) hmore
  | _, _, _, _, _, @HoistsAll.collect _ run s ss _ _ h hl hss, hn, c, before, past, hpast, hf, hg => by
    have hfs : ∀ site ∈ s.sites (c.place (before ++ past) ss), site.FitUnder L _ :=
      fun site hsite => hf site (Stmt.sites_place_subset rfl hsite)
    have hfit := hfs _ (s.self_mem_sites _)
    have hscope := Stmt.scopeAfter_append c.scope before past
    have hmoves : ∀ x ∈ s.binds, x ∈ L.kept := hfit.moves (Option.some_ne_none _)
    have hlow := s.lowers_plain _ h fun site hsite => (hfs site hsite).toFit
    rw [Context.place, hscope] at hlow
    have hrun := hpast.lowers.concat hlow (s.suspends_parts h) hl
      (fun x hx => ⟨hmoves x hx, hscope ▸ (hfit.scope.declares x hx (hmoves x hx)).1⟩)
      fun t ht x hx => Stmt.not_mem_touched (fun site hsite => (hf site hsite).toFit) hx (hmoves x hx)
        (List.mem_append_right _ ht)
    have hwork : run ++ s.runWork = (past ++ [s]).flatMap Stmt.runWork := by
      rw [hpast.work, List.flatMap_append, List.flatMap_singleton]
    have hall : before ++ past ++ s :: ss = before ++ (past ++ [s]) ++ ss := by simp
    have hmore := hss.lowers hn c before (past ++ [s]) ⟨hwork, nofun, hrun⟩ (hall ▸ hf) hg
    rwa [List.flatMap_append, List.flatMap_singleton, List.append_assoc, List.append_assoc] at hmore

theorem HoistsCases.lowers : ∀ {cases coined cases'}, HoistsCases cases coined cases' →
    Coined.Apart L none coined → ∀ {c : Context},
    (∀ site ∈ Case.sitesAll c cases, site.FitUnder L none) → LowersCases L c.scope cases cases'
  | _, _, _, .nil, _, _, _ => .nil
  | _, _, _, .cons hb hcs, hn, _, hf => by
    rw [Case.sitesAll, List.forall_mem_append] at hf
    have hbody := hb.lowersBlock hn.left (hb.lowers hn.left) hf.1 fun h => absurd rfl h
    exact .cons hbody (hcs.lowers hn.right hf.2)

end

end Lowering
