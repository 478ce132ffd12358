import Lowering.Proofs.Hoist.Scope

/-!
# Statements that stay as they are

A statement without suspensions may stand in its own place, where it is fit for hoisting
(`Stmt.lowers_plain`). On the way: what the places of the statements of a block have to do with the
block, and that nothing touches a local in front of its declaration (`Stmt.not_mem_touched`).
-/

namespace Lowering

/-! ## Places in a block -/

/-- The place of a statement of a block, behind `before` and in front of `behind`. -/
def Context.place (c : Context) (before behind : List Stmt) : Context :=
  { c with scope := Stmt.scopeAfter c.scope before, before, behind }

/-- A statement stands at its own place. -/
theorem Stmt.self_mem_sites (s : Stmt) (c : Context) : ⟨s, c⟩ ∈ s.sites c := by
  cases s <;> rw [Stmt.sites] <;> exact List.mem_cons_self

/-- A statement in a block stands between its neighbours. -/
theorem Stmt.sites_subset_sitesFrom (c : Context) (pre before : List Stmt) (s : Stmt)
    (behind : List Stmt) :
    s.sites { c.place before behind with before := pre ++ before } ⊆
      Stmt.sitesFrom c pre (before ++ s :: behind) := by
  induction before generalizing c pre with
  | nil =>
    rw [List.append_nil, List.nil_append, Stmt.sitesFrom]
    exact List.subset_append_left _ _
  | cons t before ih =>
    rw [List.cons_append, Stmt.sitesFrom]
    have := ih (c.after t) (pre ++ [t])
    rw [List.append_assoc] at this
    exact List.subset_append_of_subset_right _ this

/-- The places of a statement in a block are places of the block. -/
theorem Stmt.sites_place_subset {c : Context} {all before behind : List Stmt} {s : Stmt}
    (h : all = before ++ s :: behind) :
    s.sites (c.place before behind) ⊆ Stmt.sitesFrom c [] all :=
  h ▸ Stmt.sites_subset_sitesFrom c [] before s behind

/-- Every part of a statement has a place. -/
theorem Stmt.exists_site_of_mem_parts {s p : Stmt} (c : Context) (h : p ∈ s.parts) :
    ∃ site ∈ s.sites c, site.stmt = p := by
  rw [← Stmt.map_stmt_sites_eq c] at h
  exact List.mem_map.mp h

mutual

/-- What is in scope at a place inside a statement is in scope at the statement, or is declared in
it. -/
theorem Stmt.scope_sites (s : Stmt) (c : Context) {site : Site} (h : site ∈ s.sites c) {x : String}
    (hx : x ∈ site.context.scope) : x ∈ c.scope ∨ x ∈ s.parts.flatMap Stmt.binds := by
  -- The statement's own site sees the scope of `c`; a site below it sees what its block binds as well.
  cases s with
  | block body span =>
    rw [Stmt.sites] at h
    rcases List.mem_cons.mp h with rfl | h
    · exact .inl hx
    · rw [Stmt.parts_block, List.flatMap_cons]
      exact (Block.scope_sites body c h hx).imp_right (List.mem_append_right _)
  | ite test yes no span =>
    rw [Stmt.sites] at h
    rcases List.mem_cons.mp h with rfl | h
    · exact .inl hx
    · rw [Stmt.parts_ite, List.flatMap_cons, List.flatMap_append]
      rcases List.mem_append.mp h with h | h
      · exact (Stmt.scope_sites yes c.alone h hx).imp_right fun h =>
          List.mem_append_right _ (List.mem_append_left _ h)
      · exact (Stmt.scope_sitesOption no c.alone h hx).imp_right fun h =>
          List.mem_append_right _ (List.mem_append_right _ h)
  | loop test body span =>
    rw [Stmt.sites] at h
    rcases List.mem_cons.mp h with rfl | h
    · exact .inl hx
    · rw [Stmt.parts_loop, List.flatMap_cons]
      exact (Stmt.scope_sites body c.alone h hx).imp_right (List.mem_append_right _)
  | labeled label body span =>
    rw [Stmt.sites] at h
    rcases List.mem_cons.mp h with rfl | h
    · exact .inl hx
    · rw [Stmt.parts_labeled, List.flatMap_cons]
      exact (Stmt.scope_sites body c.alone h hx).imp_right (List.mem_append_right _)
  | attempt body handler cleanup span =>
    rw [Stmt.sites] at h
    rcases List.mem_cons.mp h with rfl | h
    · exact .inl hx
    · rw [Stmt.parts_attempt, List.flatMap_cons, List.flatMap_append, List.flatMap_append]
      rcases List.mem_append.mp h with h | h
      · exact (Block.scope_sites body _ h hx).imp_right fun h =>
          List.mem_append_right _ (List.mem_append_left _ h)
      · rcases List.mem_append.mp h with h | h
        · exact (Block.scope_sitesOption handler _ h hx).imp_right fun h =>
            List.mem_append_right _ (List.mem_append_right _ (List.mem_append_left _ h))
        · exact (Block.scope_sitesOption cleanup _ h hx).imp_right fun h =>
            List.mem_append_right _ (List.mem_append_right _ (List.mem_append_right _ h))
  | switch discriminant cases span =>
    rw [Stmt.sites] at h
    rcases List.mem_cons.mp h with rfl | h
    · exact .inl hx
    · rw [Stmt.parts_switch, List.flatMap_cons]
      exact (Case.scope_sitesAll cases c h hx).imp_right (List.mem_append_right _)
  | goto _ _ | exit _ | next _ | eval _ _ | declare _ _ _ _ | ret _ _ | suspend _ _ _ | raise _ _
  | method _ _ =>
    rw [Stmt.sites] at h
    rcases List.mem_singleton.mp h with rfl
    exact .inl hx

theorem Stmt.scope_sitesOption (s : Option Stmt) (c : Context) {site : Site}
    (h : site ∈ Stmt.sitesOption c s) {x : String} (hx : x ∈ site.context.scope) :
    x ∈ c.scope ∨ x ∈ (s.toList.flatMap Stmt.parts).flatMap Stmt.binds := by
  cases s with
  | none => cases h
  | some s =>
    rw [Option.toList_some, List.flatMap_singleton]
    exact Stmt.scope_sites s c h hx

theorem Stmt.scope_sitesFrom (ss before : List Stmt) (c : Context) {site : Site}
    (h : site ∈ Stmt.sitesFrom c before ss) {x : String} (hx : x ∈ site.context.scope) :
    x ∈ c.scope ∨ x ∈ (Stmt.partsAll ss).flatMap Stmt.binds := by
  cases ss with
  | nil => cases h
  | cons s ss =>
    rw [Stmt.sitesFrom] at h
    rw [Stmt.partsAll_cons, List.flatMap_append]
    rcases List.mem_append.mp h with h | h
    · exact (Stmt.scope_sites s _ h hx).imp_right (List.mem_append_left _)
    · rcases Stmt.scope_sitesFrom ss _ _ h hx with hx | hx
      · rcases List.mem_append.mp hx with hx | hx
        · exact .inr (List.mem_append_left _ (List.mem_flatMap.mpr ⟨s, s.self_mem_parts, hx⟩))
        · exact .inl hx
      · exact .inr (List.mem_append_right _ hx)

/-- A local in scope inside a body was in scope around it or is declared in it. -/
theorem Block.scope_sites (b : Block) (c : Context) {site : Site} (h : site ∈ b.sites c)
    {x : String} (hx : x ∈ site.context.scope) :
    x ∈ c.scope ∨ x ∈ (Stmt.partsAll b.stmts).flatMap Stmt.binds := by
  cases b with
  | mk stmts span => exact Stmt.scope_sitesFrom stmts [] c h hx

theorem Block.scope_sitesOption (b : Option Block) (c : Context) {site : Site}
    (h : site ∈ Block.sitesOption c b) {x : String} (hx : x ∈ site.context.scope) :
    x ∈ c.scope ∨
      x ∈ (b.toList.flatMap fun b => Stmt.partsAll b.stmts).flatMap Stmt.binds := by
  cases b with
  | none => cases h
  | some b =>
    rw [Option.toList_some, List.flatMap_singleton]
    exact Block.scope_sites b c h hx

theorem Case.scope_sitesAll (cases : List Case) (c : Context) {site : Site}
    (h : site ∈ Case.sitesAll c cases) {x : String} (hx : x ∈ site.context.scope) :
    x ∈ c.scope ∨
      x ∈ (cases.flatMap fun case => Stmt.partsAll case.body.stmts).flatMap Stmt.binds := by
  cases cases with
  | nil => cases h
  | cons case rest =>
    cases case with
    | mk test body =>
      rw [Case.sitesAll] at h
      rw [List.flatMap_cons, List.flatMap_append]
      rcases List.mem_append.mp h with h | h
      · exact (Block.scope_sites body c h hx).imp_right (List.mem_append_left _)
      · exact (Case.scope_sitesAll rest c h hx).imp_right (List.mem_append_right _)

end

/-! ## What fit places say -/

section Fit

variable {L : Lexicon} {c : Context} {s : Stmt}

/-- The expressions of a statement use visible locals. -/
theorem Site.Fit.visible {site : Site} (h : site.Fit L) :
    ∀ e ∈ site.stmt.exprs, ∀ x ∈ e.locals, L.Visible site.context.scope x := by
  intro e he x hx
  have hm : x ∈ site.stmt.exprs.flatMap Expr.locals := List.mem_flatMap.mpr ⟨e, he, hx⟩
  exact ⟨h.known x (List.mem_append_left _ (List.mem_append_right _ hm)), h.scope.uses x hm⟩

/-- A jump goes to a name of the source. -/
theorem Stmt.target_mem_taken (hf : ∀ site ∈ s.sites c, site.Fit L) {label : String}
    (hl : label ∈ s.targets) : label ∈ L.taken := by
  obtain ⟨p, hp, ht⟩ := List.mem_filterMap.mp hl
  obtain ⟨site, hsite, rfl⟩ := Stmt.exists_site_of_mem_parts c hp
  refine (hf site hsite).known label (List.mem_append_right _ ?_)
  cases hs : site.stmt with
  | goto l span =>
    rw [hs] at ht
    exact List.mem_singleton.mpr (Option.some.inj ht).symm
  | _ =>
    rw [hs] at ht
    cases ht

variable {all : List Stmt}

/-- No jump in a block skips the declaration of a local that may move. -/
theorem Stmt.jumps_of_fit (hf : ∀ site ∈ Stmt.sitesFrom c [] all, site.Fit L) :
    Stmt.Jumps L all := by
  intro before s behind hall label hl
  have hsub := fun site hsite => hf site (Stmt.sites_place_subset hall hsite)
  exact ⟨Stmt.target_mem_taken hsub hl,
    (hsub _ (s.self_mem_sites _)).scope.jumps label hl⟩

/-- All labels of a block are names of the source. -/
theorem Stmt.labels_subset_taken (hf : ∀ site ∈ Stmt.sitesFrom c [] all, site.Fit L) :
    Stmt.labels all ⊆ L.taken := by
  intro label hl
  obtain ⟨s, hs, he⟩ := List.mem_filterMap.mp hl
  obtain ⟨before, behind, rfl⟩ := List.append_of_mem hs
  have hfit := hf _ (Stmt.sites_place_subset rfl (s.self_mem_sites (c.place before behind)))
  refine hfit.known label (List.mem_append_right _ ?_)
  cases s with
  | labeled l body span => exact List.mem_singleton.mpr (Option.some.inj he).symm
  | _ => cases he

/-- **Nothing touches a local that may move in front of its declaration.** -/
theorem Stmt.not_mem_touched {before behind : List Stmt}
    (hf : ∀ site ∈ Stmt.sitesFrom c [] (before ++ s :: behind), site.Fit L) {x : String}
    (hx : x ∈ s.binds) (hk : x ∈ L.kept) {t : Stmt} (ht : t ∈ before) : x ∉ t.touched := by
  obtain ⟨hscope, hdeclared⟩ := (hf _ (Stmt.sites_place_subset rfl
    (s.self_mem_sites (c.place before behind)))).scope.declares x hx hk
  obtain ⟨b₁, b₂, rfl⟩ := List.append_of_mem ht
  intro hm
  obtain ⟨p, hp, hm⟩ := List.mem_flatMap.mp hm
  have hdecl : ∀ y, y ∈ t.parts.flatMap Stmt.binds → y ∈ Stmt.declaredIn (b₁ ++ t :: b₂) := by
    intro y hy
    obtain ⟨q, hq, hy⟩ := List.mem_flatMap.mp hy
    exact List.mem_flatMap.mpr ⟨q, Stmt.parts_subset_partsAll ht hq, hy⟩
  rcases List.mem_append.mp hm with hm | hm
  · exact hdeclared (hdecl x (List.mem_flatMap.mpr ⟨p, hp, hm⟩))
  -- a use, so the local is in scope there
  · have hall : b₁ ++ t :: b₂ ++ s :: behind = b₁ ++ t :: (b₂ ++ s :: behind) := by
      rw [List.append_assoc, List.cons_append]
    obtain ⟨site, hsite, rfl⟩ :=
      Stmt.exists_site_of_mem_parts (c.place b₁ (b₂ ++ s :: behind)) hp
    have hfit := hf site (Stmt.sites_place_subset hall hsite)
    rcases Stmt.scope_sites t _ hsite (hfit.scope.uses x hm hk) with hs | hs
    · refine hscope (Stmt.mem_scopeAfter.mpr ((Stmt.mem_scopeAfter.mp hs).imp_right fun hs => ?_))
      rw [List.flatMap_append]
      exact List.mem_append_left _ hs
    · exact hdeclared (hdecl x hs)

/-- The labels of the source are no fresh ones. -/
theorem Stmt.freshLabels_plain (h : Stmt.labels all ⊆ L.taken) :
    Stmt.FreshLabels L none all := by
  refine ⟨?_, nofun⟩
  rw [Lexicon.madeUp_eq_nil h]
  exact .nil

end Fit

/-! ## Statements without suspensions -/

mutual

/-- Where nothing suspends, no part does. -/
theorem Stmt.suspends_parts (s : Stmt) (hs : s.suspends = false) :
    ∀ p ∈ s.parts, p.suspends = false := by
  cases s with
  | block body span =>
    rw [Stmt.parts_block, List.forall_mem_cons]
    exact ⟨hs, Block.suspends_parts body hs⟩
  | ite test yes no span =>
    rw [Stmt.parts_ite, List.forall_mem_cons, List.forall_mem_append]
    have h := Bool.or_eq_false_iff.mp hs
    exact ⟨hs, Stmt.suspends_parts yes h.1, Stmt.suspends_partsOption no h.2⟩
  | loop test body span =>
    rw [Stmt.parts_loop, List.forall_mem_cons]
    exact ⟨hs, Stmt.suspends_parts body hs⟩
  | labeled label body span =>
    rw [Stmt.parts_labeled, List.forall_mem_cons]
    exact ⟨hs, Stmt.suspends_parts body hs⟩
  | attempt body handler cleanup span =>
    rw [Stmt.parts_attempt, List.forall_mem_cons, List.forall_mem_append, List.forall_mem_append]
    have h := Bool.or_eq_false_iff.mp hs
    have h' := Bool.or_eq_false_iff.mp h.1
    exact ⟨hs, Block.suspends_parts body h'.1, Block.suspends_partsOption handler h'.2,
      Block.suspends_partsOption cleanup h.2⟩
  | switch discriminant cases span =>
    rw [Stmt.parts_switch, List.forall_mem_cons]
    exact ⟨hs, Case.suspends_partsAll cases hs⟩
  | goto _ _ | exit _ | next _ | eval _ _ | declare _ _ _ _ | ret _ _ | suspend _ _ _ | raise _ _
  | method _ _ =>
    exact List.forall_mem_singleton.mpr hs

theorem Stmt.suspends_partsOption (s : Option Stmt) (hs : Stmt.suspendsOption s = false) :
    ∀ p ∈ s.toList.flatMap Stmt.parts, p.suspends = false := by
  cases s with
  | none => exact nofun
  | some s =>
    rw [Option.toList_some, List.flatMap_singleton]
    exact Stmt.suspends_parts s hs

theorem Stmt.suspends_partsAll (ss : List Stmt) (hs : Stmt.suspendsAny ss = false) :
    ∀ p ∈ Stmt.partsAll ss, p.suspends = false := by
  cases ss with
  | nil => exact nofun
  | cons s ss =>
    rw [Stmt.partsAll_cons, List.forall_mem_append]
    have h := Bool.or_eq_false_iff.mp hs
    exact ⟨Stmt.suspends_parts s h.1, Stmt.suspends_partsAll ss h.2⟩

/-- In a body that does not suspend no part does. -/
theorem Block.suspends_parts (b : Block) (hs : b.suspends = false) :
    ∀ p ∈ Stmt.partsAll b.stmts, p.suspends = false := by
  cases b with
  | mk stmts span => exact Stmt.suspends_partsAll stmts hs

theorem Block.suspends_partsOption (b : Option Block) (hs : Block.suspendsOption b = false) :
    ∀ p ∈ b.toList.flatMap fun b => Stmt.partsAll b.stmts, p.suspends = false := by
  cases b with
  | none => exact nofun
  | some b =>
    rw [Option.toList_some, List.flatMap_singleton]
    exact Block.suspends_parts b hs

theorem Case.suspends_partsAll (cases : List Case) (hs : Case.suspendsAny cases = false) :
    ∀ p ∈ cases.flatMap fun case => Stmt.partsAll case.body.stmts, p.suspends = false := by
  cases cases with
  | nil => exact nofun
  | cons case rest =>
    cases case with
    | mk test body =>
      rw [List.flatMap_cons, List.forall_mem_append]
      have h := Bool.or_eq_false_iff.mp hs
      exact ⟨Block.suspends_parts body h.1, Case.suspends_partsAll rest h.2⟩

end

mutual

/-- **A statement without suspensions may stand in its own place.** -/
theorem Stmt.lowers_plain {L : Lexicon} (s : Stmt) (c : Context) (hs : s.suspends = false)
    (hf : ∀ site ∈ s.sites c, site.Fit L) : Lowers L none c.scope s [s] := by
  have hvis := (hf _ (s.self_mem_sites c)).visible
  cases s with
  | block body span =>
    rw [Stmt.sites, List.forall_mem_cons] at hf
    exact .block (Block.lowers_plain body c hs hf.2)
  | ite test yes no span =>
    rw [Stmt.sites, List.forall_mem_cons, List.forall_mem_append] at hf
    have h := Bool.or_eq_false_iff.mp hs
    exact .ite (hvis test List.mem_cons_self) (fun hn => absurd rfl hn)
      (Stmt.lowers_plain yes c.alone h.1 hf.2.1) (Stmt.lowersOption_plain no c.alone h.2 hf.2.2)
  | loop test body span =>
    rw [Stmt.sites, List.forall_mem_cons] at hf
    exact .loop (hvis test List.mem_cons_self) (fun hn => absurd rfl hn)
      (Stmt.lowers_plain body c.alone hs hf.2)
  | labeled label body span =>
    rw [Stmt.sites, List.forall_mem_cons] at hf
    exact .labeled (Stmt.lowers_plain body c.alone hs hf.2)
  | attempt body handler cleanup span =>
    rw [Stmt.sites, List.forall_mem_cons, List.forall_mem_append, List.forall_mem_append] at hf
    have h := Bool.or_eq_false_iff.mp hs
    have h' := Bool.or_eq_false_iff.mp h.1
    have hbody := Block.lowers_plain body _ h'.1 hf.2.1
    have hcleanup := Block.lowersOption_plain cleanup _ h.2 hf.2.2.2
    cases handler with
    | none => exact .attempt hbody hcleanup
    | some handler =>
      exact .attemptPlain (Block.suspends_parts body h'.1) hbody
        (Block.lowers_plain handler (c.inClause true) h'.2 hf.2.2.1) hcleanup
  | switch discriminant cases span =>
    rw [Stmt.sites, List.forall_mem_cons] at hf
    exact .switch hvis (Case.lowers_plain cases c hs hf.2)
  | goto _ _ | exit _ | next _ | eval _ _ | declare _ _ _ _ | ret _ _ | suspend _ _ _ | raise _ _
  | method _ _ => exact .leaf rfl hvis

theorem Stmt.lowersOption_plain {L : Lexicon} (s : Option Stmt) (c : Context)
    (hs : Stmt.suspendsOption s = false) (hf : ∀ site ∈ Stmt.sitesOption c s, site.Fit L) :
    LowersOption L none c.scope s s := by
  cases s with
  | none => exact .none
  | some s => exact .some (Stmt.lowers_plain s c hs hf)

theorem Stmt.lowersAll_plain {L : Lexicon} (ss before : List Stmt) (c : Context)
    (hs : Stmt.suspendsAny ss = false) (hf : ∀ site ∈ Stmt.sitesFrom c before ss, site.Fit L) :
    LowersAll L none c.scope ss ss := by
  cases ss with
  | nil => exact .nil
  | cons s ss =>
    rw [Stmt.sitesFrom, List.forall_mem_append] at hf
    have h := Bool.or_eq_false_iff.mp hs
    exact .cons (Stmt.lowers_plain s (c.between before ss) h.1 hf.1)
      (Stmt.lowersAll_plain ss (before ++ [s]) (c.after s) h.2 hf.2)

/-- A body without suspensions stands for itself. -/
theorem Block.lowers_plain {L : Lexicon} (b : Block) (c : Context) (hs : b.suspends = false)
    (hf : ∀ site ∈ b.sites c, site.Fit L) : LowersBlock L none c.scope b.stmts b.stmts := by
  cases b with
  | mk stmts span =>
    exact .mk (Stmt.lowersAll_plain stmts [] c hs hf) (Stmt.jumps_of_fit hf)
      (Stmt.freshLabels_plain (Stmt.labels_subset_taken hf))

theorem Block.lowersOption_plain {L : Lexicon} (b : Option Block) (c : Context)
    (hs : Block.suspendsOption b = false) (hf : ∀ site ∈ Block.sitesOption c b, site.Fit L) :
    LowersBlockOption L none c.scope b b := by
  cases b with
  | none => exact .none
  | some b => exact .some (Block.lowers_plain b c hs hf)

theorem Case.lowers_plain {L : Lexicon} (cases : List Case) (c : Context)
    (hs : Case.suspendsAny cases = false) (hf : ∀ site ∈ Case.sitesAll c cases, site.Fit L) :
    LowersCases L c.scope cases cases := by
  cases cases with
  | nil => exact .nil
  | cons case rest =>
    cases case with
    | mk test body =>
      rw [Case.sitesAll, List.forall_mem_append] at hf
      have h := Bool.or_eq_false_iff.mp hs
      exact .cons (Block.lowers_plain body c h.1 hf.1) (Case.lowers_plain rest c h.2 hf.2)

end

end Lowering
