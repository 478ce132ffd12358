import Lowering.Proofs.Hoist.Lowers
import Lowering.Proofs.Tree.NormalSites
import Lowering.Proofs.Tree.Suspensions

/-!
# Bodies whose declarations may move

Hoisting moves declarations to the front of their run, which shows in a body that uses a local outside
its scope, declares it twice, or jumps over its declaration. `Site.Scoped` rules that out, statement by
statement, for the locals that are declared in the body of a try that is split. A body in which no try
is split has no such locals. `Site.calm` rules out that the value of a suspension throws in the body of a
try with a handler.

All of it holds of a normalized body if it holds of the body (`Site.Fit.normalize`).
-/

namespace Lowering

/-! ## Conditions -/

/-- The names that a statement holds itself: locals, and the label that it carries or jumps to. -/
def Stmt.names (s : Stmt) : List String := s.mentions ++ s.label?.toList

/-- Whether a statement is a try with a handler that suspends in its body or in its handler. These are
the tries that are split. -/
def Stmt.needsSplit : Stmt → Bool
  | .attempt body (some handler) _ _ => body.suspends || handler.suspends
  | _ => false

/-- The locals that are declared in the body of the statement, if it is a try that is split. -/
def Stmt.movable : Stmt → List String
  | .attempt body handler cleanup span =>
    if (attempt body handler cleanup span).needsSplit then declaredIn body.stmts else []
  | _ => []

/-- The locals that are declared in the body of a try that is split. -/
def Block.movable (b : Block) : List String := (Stmt.partsAll b.stmts).flatMap Stmt.movable

namespace Site

/-- In the body of a try with a handler, the value of a suspension has no call, method call or cast. -/
def calm (site : Site) : Bool :=
  match site.stmt with
  | .suspend _ (some value) _ => !site.context.guarded || value.calm
  | _ => true

/-- The locals `kept` are used in their scope only, and are declared once in it. -/
structure Scoped (kept : List String) (site : Site) : Prop where
  uses : ∀ x ∈ site.stmt.exprs.flatMap Expr.locals, x ∈ kept → x ∈ site.context.scope
  declares : ∀ x ∈ site.stmt.binds, x ∈ kept →
    x ∉ site.context.scope ∧ x ∉ Stmt.declaredIn site.context.before
  /-- a jump forward in the same block skips none of their declarations -/
  jumps : ∀ label ∈ site.stmt.targets, site.context.before.any (Stmt.hasLabel label) = true ∨
    site.stmt.hasLabel label = true ∨ Stmt.hides kept label site.context.behind = false

instance (kept : List String) (site : Site) : Decidable (site.Scoped kept) :=
  decidable_of_iff
    ((∀ x ∈ site.stmt.exprs.flatMap Expr.locals, x ∈ kept → x ∈ site.context.scope) ∧
      (∀ x ∈ site.stmt.binds, x ∈ kept →
        x ∉ site.context.scope ∧ x ∉ Stmt.declaredIn site.context.before) ∧
      ∀ label ∈ site.stmt.targets, site.context.before.any (Stmt.hasLabel label) = true ∨
        site.stmt.hasLabel label = true ∨ Stmt.hides kept label site.context.behind = false)
    ⟨fun ⟨h, h', h''⟩ => ⟨h, h', h''⟩, fun h => ⟨h.uses, h.declares, h.jumps⟩⟩

/-- All that hoisting needs of a statement at its place. -/
structure Fit (L : Lexicon) (site : Site) : Prop where
  calm : ¬L.escapes → site.calm = true
  known : ∀ x ∈ site.stmt.names, x ∈ L.taken
  scope : site.Scoped L.kept
  movable : ∀ x ∈ site.stmt.movable, x ∈ L.kept

/-- The same of a statement that is hoisted under a handler, if there is one: its own declaration may
move too. -/
structure FitUnder (L : Lexicon) (handler : Option String) (site : Site) : Prop extends site.Fit L where
  moves : handler ≠ none → ∀ x ∈ site.stmt.binds, x ∈ L.kept

end Site

/-! ## Normalizing -/

namespace Stmt

/-- A normalized statement declares the same local for those behind it. -/
@[simp] theorem binds_normalize (s : Stmt) : s.normalize.binds = s.binds := by
  cases s <;> rw [normalize] <;> rfl

@[simp] theorem label?_normalize (s : Stmt) : s.normalize.label? = s.label? := by
  cases s <;> rw [normalize] <;> rfl

@[simp] theorem target?_normalize (s : Stmt) : s.normalize.target? = s.target? := by
  cases s <;> rw [normalize] <;> rfl

/-- The tests of a switch are not touched. -/
theorem filterMap_test_normalizeAll (cases : List Case) :
    (Case.normalizeAll cases).filterMap Case.test = cases.filterMap Case.test := by
  induction cases with
  | nil => rw [Case.normalizeAll]
  | cons case rest ih =>
    cases case with
    | mk test body =>
      rw [Case.normalizeAll]
      cases test <;> simp only [List.filterMap_cons, ih]

/-- Normalizing looks at no expression. -/
@[simp] theorem exprs_normalize (s : Stmt) : s.normalize.exprs = s.exprs := by
  cases s <;> simp only [normalize, exprs, filterMap_test_normalizeAll]

/-- The parts of a normalized statement are normalized parts, and blocks. -/
theorem mem_parts_normalize {s p : Stmt} (h : p ∈ s.normalize.parts) :
    (∃ q ∈ s.parts, p = q.normalize) ∨ ∃ b span, p = .block b span := by
  obtain ⟨site, hsite, rfl⟩ := List.mem_map.mp h
  rcases Stmt.mem_sites_normalize s {} hsite with ⟨origin, ho, rfl⟩ | ⟨hb, -⟩
  · exact .inl ⟨origin.stmt, List.mem_map_of_mem ho, rfl⟩
  · exact .inr hb

/-- There is no jump in a normalized statement that was not there before. -/
theorem targets_normalize_subset (s : Stmt) : s.normalize.targets ⊆ s.targets := by
  intro label h
  obtain ⟨p, hp, ht⟩ := List.mem_filterMap.mp h
  rcases mem_parts_normalize hp with ⟨q, hq, rfl⟩ | ⟨b, span, rfl⟩
  · exact List.mem_filterMap.mpr ⟨q, hq, by rwa [target?_normalize] at ht⟩
  · cases ht

theorem declaredIn_normalizeAll_subset (ss : List Stmt) :
    declaredIn (normalizeAll ss) ⊆ declaredIn ss := by
  intro x h
  obtain ⟨p, hp, hx⟩ := List.mem_flatMap.mp h
  obtain ⟨s', hs', hps⟩ := mem_partsAll.mp hp
  rw [normalizeAll_eq_map] at hs'
  obtain ⟨s, hs, rfl⟩ := List.mem_map.mp hs'
  rcases mem_parts_normalize hps with ⟨q, hq, rfl⟩ | ⟨b, span, rfl⟩
  · rw [binds_normalize] at hx
    exact List.mem_flatMap.mpr ⟨q, mem_partsAll.mpr ⟨s, hs, hq⟩, hx⟩
  · cases hx

theorem any_hasLabel_normalizeAll (label : String) (ss : List Stmt) :
    (normalizeAll ss).any (hasLabel label) = ss.any (hasLabel label) := by
  rw [normalizeAll_eq_map, List.any_map]
  congr 1
  funext s
  exact hasLabel_normalize label s

/-- A jump skips the same declarations in the normalized block. -/
theorem hides_normalizeAll (kept : List String) (label : String) (ss : List Stmt) :
    hides kept label (normalizeAll ss) = hides kept label ss := by
  unfold hides
  rw [any_hasLabel_normalizeAll, normalizeAll_eq_map, List.takeWhile_map, List.any_map]
  simp only [Function.comp_def, hasLabel_normalize, binds_normalize]

/-- A try is split if and only if its normalized form is. -/
theorem needsSplit_normalize (s : Stmt) : s.normalize.needsSplit = s.needsSplit := by
  cases s with
  | attempt body handler cleanup span =>
    cases handler with
    | none =>
      rw [normalize, Block.normalizeOption]
      rfl
    | some handler =>
      rw [normalize, Block.normalizeOption, needsSplit, Block.suspends_normalize,
        Block.suspends_normalize, needsSplit]
  | _ => rw [normalize] <;> rfl

/-- Normalizing splits no other tries, and declares nothing new in them. -/
theorem movable_normalize_subset (s : Stmt) : s.normalize.movable ⊆ s.movable := by
  have hneeds := s.needsSplit_normalize
  cases s with
  | attempt body handler cleanup span =>
    rw [normalize] at hneeds ⊢
    rw [movable, movable, hneeds, Block.stmts_normalize]
    by_cases h : (attempt body handler cleanup span).needsSplit = true
    · rw [if_pos h, if_pos h]
      exact declaredIn_normalizeAll_subset body.stmts
    · rw [if_neg h]
      exact List.nil_subset _
  | _ =>
    rw [normalize]
    · exact List.nil_subset _

end Stmt

theorem Site.calm_normalize (site : Site) : site.normalize.calm = site.calm := by
  obtain ⟨s, c⟩ := site
  cases s <;> simp only [Site.calm, Site.normalize, Stmt.normalize, Context.normalize]

/-- A block that was put around a branch has no names, no jumps and no values of its own. -/
theorem Site.Fit.of_isBranch {L : Lexicon} {site : Site} (h : site.IsBranch) : site.Fit L := by
  obtain ⟨⟨b, span, hb⟩, -, hbehind⟩ := h
  refine ⟨?_, ?_, ⟨?_, ?_, ?_⟩, ?_⟩
  · rw [Site.calm, hb]
    exact fun _ => rfl
  · rw [hb]
    exact nofun
  · rw [hb]
    exact nofun
  · rw [hb]
    exact nofun
  · rw [hbehind]
    exact fun _ _ => .inr (.inr rfl)
  · rw [hb]
    exact nofun

/-- **What holds of a statement at its place holds of it in the normalized body.** -/
theorem Site.Fit.normalize {L : Lexicon} {site : Site} (h : site.Fit L) : site.normalize.Fit L := by
  refine ⟨?_, ?_, ⟨?_, ?_, ?_⟩, ?_⟩
  · rw [Site.calm_normalize]
    exact h.calm
  · simp only [Site.normalize, Stmt.names, Stmt.mentions, Stmt.binds_normalize, Stmt.exprs_normalize,
      Stmt.label?_normalize]
    exact h.known
  · simp only [Site.normalize, Stmt.exprs_normalize]
    exact h.scope.uses
  · simp only [Site.normalize, Stmt.binds_normalize]
    exact fun x hx hk => ⟨(h.scope.declares x hx hk).1, fun hm =>
      (h.scope.declares x hx hk).2 (Stmt.declaredIn_normalizeAll_subset _ hm)⟩
  · intro label hl
    simp only [Site.normalize, Context.normalize, Stmt.any_hasLabel_normalizeAll,
      Stmt.hasLabel_normalize, Stmt.hides_normalizeAll]
    exact h.scope.jumps label (Stmt.targets_normalize_subset _ hl)
  · exact fun x hx => h.movable x (Stmt.movable_normalize_subset _ hx)

/-- **A normalized body is fit for hoisting if the body is.** -/
theorem Block.fit_normalize {L : Lexicon} {b : Block} (h : ∀ site ∈ b.sites {}, site.Fit L) :
    ∀ site ∈ b.normalize.sites {}, site.Fit L := by
  intro site hsite
  rcases Block.mem_sites_normalize b {} hsite with ⟨origin, ho, rfl⟩ | hb
  · exact (h origin ho).normalize
  · exact .of_isBranch hb

end Lowering
