import Lowering.Proofs.Tree.Normalize

/-!
# The places of normalized statements

Normalizing leaves statements at their places and only puts blocks around some of them: a site of a
normalized statement is a site of the statement, normalized, or one of these blocks
(`Stmt.mem_sites_normalize`).
-/

namespace Lowering

/-- The same place in the normalized body. -/
def Context.normalize (c : Context) : Context :=
  { c with before := Stmt.normalizeAll c.before, behind := Stmt.normalizeAll c.behind }

/-- The same statement in the normalized body. -/
def Site.normalize (site : Site) : Site := ⟨site.stmt.normalize, site.context.normalize⟩

/-- A block that stands alone, as a branch or a body. -/
def Site.IsBranch (site : Site) : Prop :=
  (∃ b span, site.stmt = .block b span) ∧ site.context.before = [] ∧ site.context.behind = []

/-- Where a site of a normalized body comes from. -/
def Site.ComesFrom (site : Site) (sites : List Site) : Prop :=
  (∃ origin ∈ sites, site = origin.normalize) ∨ site.IsBranch

theorem Site.ComesFrom.mono {site : Site} {sites sites' : List Site} (h : site.ComesFrom sites)
    (hs : sites ⊆ sites') : site.ComesFrom sites' :=
  h.imp_left fun ⟨origin, ho, he⟩ => ⟨origin, hs ho, he⟩

/-- Braces around a branch add one site, that of the block. -/
theorem Stmt.mem_sites_asBlock {s : Stmt} {c : Context} {site : Site}
    (h : site ∈ s.asBlock.sites c.alone) : site ∈ s.sites c.alone ∨ site.IsBranch := by
  have hblock : site ∈ (Stmt.block ⟨[s], s.span⟩ s.span).sites c.alone →
      site ∈ s.sites c.alone ∨ site.IsBranch := by
    intro h
    rw [Stmt.sites, Block.sites, Stmt.sitesFrom, Stmt.sitesFrom, List.append_nil] at h
    rcases List.mem_cons.mp h with rfl | h
    · exact .inr ⟨⟨_, _, rfl⟩, rfl, rfl⟩
    · exact .inl h
  cases s
  case block => exact .inl h
  all_goals exact hblock h

mutual

/-- **A site of a normalized statement is a site of the statement, normalized, or a block that was put
around one.** -/
theorem Stmt.mem_sites_normalize (s : Stmt) (c : Context) {site : Site}
    (h : site ∈ s.normalize.sites c.normalize) : site.ComesFrom (s.sites c) := by
  cases s with
  | block body span =>
    rw [Stmt.normalize, Stmt.sites] at h
    rw [Stmt.sites]
    rcases List.mem_cons.mp h with rfl | h
    · exact .inl ⟨_, List.mem_cons_self, by rw [Site.normalize, Stmt.normalize]⟩
    · exact (Block.mem_sites_normalize body c h).mono (List.subset_cons_self _ _)
  | ite test yes no span =>
    rw [Stmt.normalize, Stmt.sites] at h
    rw [Stmt.sites]
    rcases List.mem_cons.mp h with rfl | h
    · exact .inl ⟨_, List.mem_cons_self, by rw [Site.normalize, Stmt.normalize]⟩
    · refine Site.ComesFrom.mono ?_ (List.subset_cons_self _ _)
      rcases List.mem_append.mp h with h | h
      -- The block that may be put around a branch is the one site with no origin.
      · rcases Stmt.mem_sites_asBlock h with h | h
        · exact (Stmt.mem_sites_normalize yes c.alone h).mono (List.subset_append_left _ _)
        · exact .inr h
      · exact (Stmt.mem_sitesOption_normalize no c h).mono (List.subset_append_right _ _)
  | loop test body span =>
    rw [Stmt.normalize, Stmt.sites] at h
    rw [Stmt.sites]
    rcases List.mem_cons.mp h with rfl | h
    · exact .inl ⟨_, List.mem_cons_self, by rw [Site.normalize, Stmt.normalize]⟩
    · rcases Stmt.mem_sites_asBlock h with h | h
      · exact (Stmt.mem_sites_normalize body c.alone h).mono (List.subset_cons_self _ _)
      · exact .inr h
  | labeled label body span =>
    rw [Stmt.normalize, Stmt.sites] at h
    rw [Stmt.sites]
    rcases List.mem_cons.mp h with rfl | h
    · exact .inl ⟨_, List.mem_cons_self, by rw [Site.normalize, Stmt.normalize]⟩
    · rcases Stmt.mem_sites_asBlock h with h | h
      · exact (Stmt.mem_sites_normalize body c.alone h).mono (List.subset_cons_self _ _)
      · exact .inr h
  | attempt body handler cleanup span =>
    -- The contexts of the clauses depend on there being a handler, which normalizing does not change.
    have hsome : (Block.normalizeOption handler).isSome = handler.isSome := by
      cases handler <;> rfl
    rw [Stmt.normalize, Stmt.sites, hsome] at h
    rw [Stmt.sites]
    rcases List.mem_cons.mp h with rfl | h
    · exact .inl ⟨_, List.mem_cons_self, by rw [Site.normalize, Stmt.normalize]⟩
    · refine Site.ComesFrom.mono ?_ (List.subset_cons_self _ _)
      rcases List.mem_append.mp h with h | h
      · exact (Block.mem_sites_normalize body (c.inBody handler.isSome) h).mono
          (List.subset_append_left _ _)
      · refine Site.ComesFrom.mono ?_ (List.subset_append_right _ _)
        rcases List.mem_append.mp h with h | h
        · exact (Block.mem_sitesOption_normalize handler (c.inClause handler.isSome) h).mono
            (List.subset_append_left _ _)
        · exact (Block.mem_sitesOption_normalize cleanup (c.inClause handler.isSome) h).mono
            (List.subset_append_right _ _)
  | switch discriminant cases span =>
    rw [Stmt.normalize, Stmt.sites] at h
    rw [Stmt.sites]
    rcases List.mem_cons.mp h with rfl | h
    · exact .inl ⟨_, List.mem_cons_self, by rw [Site.normalize, Stmt.normalize]⟩
    · exact (Case.mem_sitesAll_normalize cases c h).mono (List.subset_cons_self _ _)
  | goto _ _ | exit _ | next _ | eval _ _ | declare _ _ _ _ | ret _ _ | suspend _ _ _ | raise _ _
  | method _ _ =>
    rw [Stmt.normalize, Stmt.sites] at h
    rw [Stmt.sites]
    rcases List.mem_singleton.mp h with rfl
    exact .inl ⟨_, List.mem_cons_self, by rw [Site.normalize, Stmt.normalize]⟩

theorem Stmt.mem_sitesOption_normalize (s : Option Stmt) (c : Context) {site : Site}
    (h : site ∈ Stmt.sitesOption c.normalize.alone (Stmt.normalizeOption s)) :
    site.ComesFrom (Stmt.sitesOption c.alone s) := by
  cases s with
  | none => cases h
  | some s =>
    rw [Stmt.normalizeOption, Stmt.sitesOption] at h
    rcases Stmt.mem_sites_asBlock h with h | h
    · exact Stmt.mem_sites_normalize s c.alone h
    · exact .inr h

/-- The neighbours in front are normalized along with the statements. -/
theorem Stmt.mem_sitesFrom_normalize (ss before : List Stmt) (c : Context) {site : Site}
    (h : site ∈ Stmt.sitesFrom c.normalize (Stmt.normalizeAll before) (Stmt.normalizeAll ss)) :
    site.ComesFrom (Stmt.sitesFrom c before ss) := by
  cases ss with
  | nil => cases h
  | cons s ss =>
    have hbinds : s.normalize.binds = s.binds := by cases s <;> rw [Stmt.normalize] <;> rfl
    have hafter : c.normalize.after s.normalize = (c.after s).normalize := by
      rw [Context.after, hbinds]
      rfl
    have hbefore : Stmt.normalizeAll before ++ [s.normalize] = Stmt.normalizeAll (before ++ [s]) := by
      rw [Stmt.normalizeAll_eq_map, Stmt.normalizeAll_eq_map, List.map_append]
      rfl
    rw [Stmt.normalizeAll, Stmt.sitesFrom, hafter, hbefore] at h
    rw [Stmt.sitesFrom]
    rcases List.mem_append.mp h with h | h
    · exact (Stmt.mem_sites_normalize s (c.between before ss) h).mono (List.subset_append_left _ _)
    · exact (Stmt.mem_sitesFrom_normalize ss (before ++ [s]) (c.after s) h).mono
        (List.subset_append_right _ _)

/-- Where the sites of a normalized body come from. -/
theorem Block.mem_sites_normalize (b : Block) (c : Context) {site : Site}
    (h : site ∈ b.normalize.sites c.normalize) : site.ComesFrom (b.sites c) := by
  cases b with
  | mk stmts span =>
    rw [Block.normalize, Block.sites] at h
    exact Stmt.mem_sitesFrom_normalize stmts [] c h

theorem Block.mem_sitesOption_normalize (b : Option Block) (c : Context) {site : Site}
    (h : site ∈ Block.sitesOption c.normalize (Block.normalizeOption b)) :
    site.ComesFrom (Block.sitesOption c b) := by
  cases b with
  | none => cases h
  | some b => exact Block.mem_sites_normalize b c h

theorem Case.mem_sitesAll_normalize (cases : List Case) (c : Context) {site : Site}
    (h : site ∈ Case.sitesAll c.normalize (Case.normalizeAll cases)) :
    site.ComesFrom (Case.sitesAll c cases) := by
  cases cases with
  | nil => cases h
  | cons case rest =>
    cases case with
    | mk test body =>
      rw [Case.normalizeAll, Case.sitesAll] at h
      rw [Case.sitesAll]
      rcases List.mem_append.mp h with h | h
      · exact (Block.mem_sites_normalize body c h).mono (List.subset_append_left _ _)
      · exact (Case.mem_sitesAll_normalize rest c h).mono (List.subset_append_right _ _)

end

end Lowering
