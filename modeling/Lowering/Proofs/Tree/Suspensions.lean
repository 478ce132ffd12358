import Lowering.Proofs.Tree.Sites
import Lowering.Tree.Normalize

/-!
# Where suspensions stand

`Block.findSuspension` finds the first suspension that is inside a try with a handler, in the order of
`Block.sites` (`Block.findSome?_misplaced`), and normalizing does not change what it finds
(`Block.findSuspension_normalize`).
-/

namespace Lowering

/-- The span of a statement that is a suspension. -/
def Stmt.suspension? : Stmt → Option Span
  | .suspend _ _ span => some span
  | _ => none

/-- The span of a suspension that is inside a try with a handler. -/
def Site.misplaced? (site : Site) : Option Span :=
  if site.context.inside then site.stmt.suspension? else none

/-! ## The finder -/

/-- Only a suspension can be misplaced. -/
theorem Site.misplaced?_of_not_suspension {s : Stmt} {c : Context} (h : s.suspension? = none) :
    Site.misplaced? ⟨s, c⟩ = none := by
  unfold Site.misplaced?
  rw [h]
  exact ite_self none

mutual

/-- The finder walks through the sites in order and stops at the first suspension inside a try with a
handler. -/
theorem Stmt.findSome?_misplaced (s : Stmt) (c : Context) :
    (s.sites c).findSome? Site.misplaced? = s.findSuspension c.inside := by
  cases s with
  | block body span =>
    rw [Stmt.sites, List.findSome?_cons, Site.misplaced?_of_not_suspension rfl, Stmt.findSuspension]
    exact Block.findSome?_misplaced body c
  | ite test yes no span =>
    rw [Stmt.sites, List.findSome?_cons, Site.misplaced?_of_not_suspension rfl, Stmt.findSuspension]
    dsimp only
    rw [List.findSome?_append, Stmt.findSome?_misplaced yes c.alone,
      Stmt.findSome?_misplacedOption no c.alone]
    rfl
  | loop test body span =>
    rw [Stmt.sites, List.findSome?_cons, Site.misplaced?_of_not_suspension rfl, Stmt.findSuspension]
    exact Stmt.findSome?_misplaced body c.alone
  | labeled label body span =>
    rw [Stmt.sites, List.findSome?_cons, Site.misplaced?_of_not_suspension rfl, Stmt.findSuspension]
    exact Stmt.findSome?_misplaced body c.alone
  | attempt body handler cleanup span =>
    rw [Stmt.sites, List.findSome?_cons, Site.misplaced?_of_not_suspension rfl, Stmt.findSuspension]
    dsimp only
    rw [List.findSome?_append, List.findSome?_append, Block.findSome?_misplaced body,
      Block.findSome?_misplacedOption handler, Block.findSome?_misplacedOption cleanup]
    rfl
  | switch discriminant cases span =>
    rw [Stmt.sites, List.findSome?_cons, Site.misplaced?_of_not_suspension rfl, Stmt.findSuspension]
    exact Case.findSome?_misplacedAll cases c
  | suspend kind value span =>
    rw [Stmt.sites, Stmt.findSuspension, List.findSome?_singleton]
    rfl
  | goto _ _ | exit _ | next _ | eval _ _ | declare _ _ _ _ | ret _ _ | raise _ _ | method _ _ =>
    rw [Stmt.sites, Stmt.findSuspension, List.findSome?_singleton]
    exact Site.misplaced?_of_not_suspension rfl

theorem Stmt.findSome?_misplacedOption (s : Option Stmt) (c : Context) :
    (Stmt.sitesOption c s).findSome? Site.misplaced? = Stmt.findSuspensionOption c.inside s := by
  cases s with
  | none => rfl
  | some s => exact Stmt.findSome?_misplaced s c

/-- The neighbours of a statement do not matter to the finder. -/
theorem Stmt.findSome?_misplacedFrom (ss before : List Stmt) (c : Context) :
    (Stmt.sitesFrom c before ss).findSome? Site.misplaced? = Stmt.findSuspensionAny c.inside ss := by
  cases ss with
  | nil => rfl
  | cons s ss =>
    rw [Stmt.sitesFrom, List.findSome?_append, Stmt.findSome?_misplaced s,
      Stmt.findSome?_misplacedFrom ss, Stmt.findSuspensionAny]
    rfl

/-- **The finder finds the first suspension that is inside a try with a handler.** -/
theorem Block.findSome?_misplaced (b : Block) (c : Context) :
    (b.sites c).findSome? Site.misplaced? = b.findSuspension c.inside := by
  cases b with
  | mk stmts span => exact Stmt.findSome?_misplacedFrom stmts [] c

theorem Block.findSome?_misplacedOption (b : Option Block) (c : Context) :
    (Block.sitesOption c b).findSome? Site.misplaced? = Block.findSuspensionOption c.inside b := by
  cases b with
  | none => rfl
  | some b => exact Block.findSome?_misplaced b c

theorem Case.findSome?_misplacedAll (cases : List Case) (c : Context) :
    (Case.sitesAll c cases).findSome? Site.misplaced? = Case.findSuspensionAny c.inside cases := by
  cases cases with
  | nil => rfl
  | cons case rest =>
    cases case with
    | mk test body =>
      rw [Case.sitesAll, List.findSome?_append, Block.findSome?_misplaced body,
        Case.findSome?_misplacedAll rest, Case.findSuspensionAny]

end

mutual

/-- What is inside something that is inside a try with a handler is inside that try. -/
theorem Stmt.inside_sites (s : Stmt) (c : Context) (hc : c.inside = true) :
    ∀ site ∈ s.sites c, site.context.inside = true := by
  cases s with
  | block body span =>
    rw [Stmt.sites, List.forall_mem_cons]
    exact ⟨hc, Block.inside_sites body c hc⟩
  | ite test yes no span =>
    rw [Stmt.sites, List.forall_mem_cons, List.forall_mem_append]
    exact ⟨hc, Stmt.inside_sites yes c.alone hc, Stmt.inside_sitesOption no c.alone hc⟩
  | loop test body span =>
    rw [Stmt.sites, List.forall_mem_cons]
    exact ⟨hc, Stmt.inside_sites body c.alone hc⟩
  | labeled label body span =>
    rw [Stmt.sites, List.forall_mem_cons]
    exact ⟨hc, Stmt.inside_sites body c.alone hc⟩
  | attempt body handler cleanup span =>
    rw [Stmt.sites, List.forall_mem_cons, List.forall_mem_append, List.forall_mem_append]
    have hc' : (c.inside || handler.isSome) = true := by rw [hc, Bool.true_or]
    exact ⟨hc, Block.inside_sites body _ hc', Block.inside_sitesOption handler _ hc',
      Block.inside_sitesOption cleanup _ hc'⟩
  | switch discriminant cases span =>
    rw [Stmt.sites, List.forall_mem_cons]
    exact ⟨hc, Case.inside_sitesAll cases c hc⟩
  | goto _ _ | exit _ | next _ | eval _ _ | declare _ _ _ _ | ret _ _ | suspend _ _ _ | raise _ _
  | method _ _ =>
    rw [Stmt.sites]
    exact List.forall_mem_singleton.mpr hc

theorem Stmt.inside_sitesOption (s : Option Stmt) (c : Context) (hc : c.inside = true) :
    ∀ site ∈ Stmt.sitesOption c s, site.context.inside = true := by
  cases s with
  | none => exact nofun
  | some s => exact Stmt.inside_sites s c hc

theorem Stmt.inside_sitesFrom (ss before : List Stmt) (c : Context) (hc : c.inside = true) :
    ∀ site ∈ Stmt.sitesFrom c before ss, site.context.inside = true := by
  cases ss with
  | nil => exact nofun
  | cons s ss =>
    rw [Stmt.sitesFrom, List.forall_mem_append]
    exact ⟨Stmt.inside_sites s _ hc, Stmt.inside_sitesFrom ss _ _ hc⟩

/-- What stands in a block inside a try with a handler is inside that try, too. -/
theorem Block.inside_sites (b : Block) (c : Context) (hc : c.inside = true) :
    ∀ site ∈ b.sites c, site.context.inside = true := by
  cases b with
  | mk stmts span => exact Stmt.inside_sitesFrom stmts [] c hc

theorem Block.inside_sitesOption (b : Option Block) (c : Context) (hc : c.inside = true) :
    ∀ site ∈ Block.sitesOption c b, site.context.inside = true := by
  cases b with
  | none => exact nofun
  | some b => exact Block.inside_sites b c hc

theorem Case.inside_sitesAll (cases : List Case) (c : Context) (hc : c.inside = true) :
    ∀ site ∈ Case.sitesAll c cases, site.context.inside = true := by
  cases cases with
  | nil => exact nofun
  | cons case rest =>
    cases case with
    | mk test body =>
      rw [Case.sitesAll, List.forall_mem_append]
      exact ⟨Block.inside_sites body c hc, Case.inside_sitesAll rest c hc⟩

end

/-! ## Suspensions in order -/

/-- The suspensions of a statement, in order. -/
def Stmt.suspensions (s : Stmt) : List Span := s.parts.filterMap Stmt.suspension?

/-- The suspensions of a block, in order. -/
def Block.suspensions (b : Block) : List Span := (Stmt.partsAll b.stmts).filterMap Stmt.suspension?

/-- Where all suspensions count, the first is found. -/
theorem Site.findSome?_misplaced_of_inside {sites : List Site}
    (h : ∀ site ∈ sites, site.context.inside = true) :
    sites.findSome? Site.misplaced? = ((sites.map Site.stmt).filterMap Stmt.suspension?).head? := by
  rw [List.head?_filterMap]
  induction sites with
  | nil => rfl
  | cons site sites ih =>
    rw [List.forall_mem_cons] at h
    rw [List.map_cons, List.findSome?_cons, List.findSome?_cons, Site.misplaced?, if_pos h.1, ih h.2]

/-- Inside a try with a handler the finder takes the first suspension of all. -/
theorem Stmt.findSuspension_true (s : Stmt) : s.findSuspension true = s.suspensions.head? := by
  rw [Stmt.suspensions, ← Stmt.map_stmt_sites_eq { inside := true },
    ← Site.findSome?_misplaced_of_inside (Stmt.inside_sites s { inside := true } rfl)]
  exact (Stmt.findSome?_misplaced s { inside := true }).symm

/-- The same for a block. -/
theorem Block.findSuspension_true (b : Block) : b.findSuspension true = b.suspensions.head? := by
  rw [Block.suspensions, ← Stmt.map_stmt_sites_block { inside := true },
    ← Site.findSome?_misplaced_of_inside (Block.inside_sites b { inside := true } rfl)]
  exact (Block.findSome?_misplaced b { inside := true }).symm

mutual

/-- A statement suspends if a finder that takes every suspension finds one. -/
theorem Stmt.suspends_eq (s : Stmt) : s.suspends = (s.findSuspension true).isSome := by
  cases s with
  | block body span => exact Block.suspends_eq body
  | ite test yes no span =>
    rw [Stmt.suspends, Stmt.findSuspension, Option.isSome_or, Stmt.suspends_eq yes,
      Stmt.suspends_eqOption no]
  | loop test body span => exact Stmt.suspends_eq body
  | labeled label body span => exact Stmt.suspends_eq body
  | attempt body handler cleanup span =>
    rw [Stmt.suspends, Stmt.findSuspension, Bool.true_or, Option.isSome_or, Option.isSome_or,
      Block.suspends_eq body, Block.suspends_eqOption handler, Block.suspends_eqOption cleanup,
      Bool.or_assoc]
  | switch discriminant cases span => exact Case.suspends_eqAll cases
  | goto _ _ | exit _ | next _ | eval _ _ | declare _ _ _ _ | ret _ _ | suspend _ _ _ | raise _ _
  | method _ _ => rfl

theorem Stmt.suspends_eqOption (s : Option Stmt) :
    Stmt.suspendsOption s = (Stmt.findSuspensionOption true s).isSome := by
  cases s with
  | none => rfl
  | some s => exact Stmt.suspends_eq s

/-- Statements suspend if one of them does, and the finder stops at that one. -/
theorem Stmt.suspends_eqAny (ss : List Stmt) :
    Stmt.suspendsAny ss = (Stmt.findSuspensionAny true ss).isSome := by
  cases ss with
  | nil => rfl
  | cons s ss =>
    rw [Stmt.suspendsAny, Stmt.findSuspensionAny, Option.isSome_or, Stmt.suspends_eq s,
      Stmt.suspends_eqAny ss]

/-- A block suspends if the finder finds a suspension when all of them count. -/
theorem Block.suspends_eq (b : Block) : b.suspends = (b.findSuspension true).isSome := by
  cases b with
  | mk stmts span => exact Stmt.suspends_eqAny stmts

theorem Block.suspends_eqOption (b : Option Block) :
    Block.suspendsOption b = (Block.findSuspensionOption true b).isSome := by
  cases b with
  | none => rfl
  | some b => exact Block.suspends_eq b

theorem Case.suspends_eqAll (cases : List Case) :
    Case.suspendsAny cases = (Case.findSuspensionAny true cases).isSome := by
  cases cases with
  | nil => rfl
  | cons case rest =>
    cases case with
    | mk test body =>
      rw [Case.suspendsAny, Case.findSuspensionAny, Option.isSome_or, Block.suspends_eq body,
        Case.suspends_eqAll rest]

end

theorem Stmt.suspends_iff {s : Stmt} : s.suspends = true ↔ s.suspensions ≠ [] := by
  rw [Stmt.suspends_eq, Stmt.findSuspension_true, List.isSome_head?]

/-- **A body suspends if there is a suspension in it**, at any depth. -/
theorem Block.suspends_iff {b : Block} : b.suspends = true ↔ b.suspensions ≠ [] := by
  rw [Block.suspends_eq, Block.findSuspension_true, List.isSome_head?]

/-! ## Normalizing -/

/-- Braces do not move a suspension. -/
@[simp] theorem Stmt.findSuspension_asBlock (s : Stmt) (inside : Bool) :
    s.asBlock.findSuspension inside = s.findSuspension inside := by
  cases s <;> first | rfl | exact Option.or_none

mutual

/-- Normalizing puts nothing into a try and takes nothing out of it, so the finder stops at the same
suspension. -/
@[simp] theorem Stmt.findSuspension_normalize (s : Stmt) (inside : Bool) :
    s.normalize.findSuspension inside = s.findSuspension inside := by
  cases s with
  | block body span =>
    rw [Stmt.normalize]
    exact Block.findSuspension_normalize body inside
  | ite test yes no span =>
    rw [Stmt.normalize, Stmt.findSuspension, Stmt.findSuspension, Stmt.findSuspension_asBlock,
      Stmt.findSuspension_normalize yes, Stmt.findSuspension_normalizeOption no]
  | loop test body span =>
    rw [Stmt.normalize, Stmt.findSuspension, Stmt.findSuspension, Stmt.findSuspension_asBlock,
      Stmt.findSuspension_normalize body]
  | labeled label body span =>
    rw [Stmt.normalize, Stmt.findSuspension, Stmt.findSuspension, Stmt.findSuspension_asBlock,
      Stmt.findSuspension_normalize body]
  | attempt body handler cleanup span =>
    have hsome : (Block.normalizeOption handler).isSome = handler.isSome := by
      cases handler with
      | none => rw [Block.normalizeOption]
      | some h =>
        rw [Block.normalizeOption]
        rfl
    rw [Stmt.normalize, Stmt.findSuspension, Stmt.findSuspension, hsome,
      Block.findSuspension_normalize body,
      Block.findSuspension_normalizeOption handler, Block.findSuspension_normalizeOption cleanup]
  | switch discriminant cases span =>
    rw [Stmt.normalize]
    exact Case.findSuspension_normalizeAll cases inside
  | goto _ _ | exit _ | next _ | eval _ _ | declare _ _ _ _ | ret _ _ | suspend _ _ _ | raise _ _
  | method _ _ => rw [Stmt.normalize]

theorem Stmt.findSuspension_normalizeOption (s : Option Stmt) (inside : Bool) :
    Stmt.findSuspensionOption inside (Stmt.normalizeOption s) = Stmt.findSuspensionOption inside s := by
  cases s with
  | none => rfl
  | some s =>
    rw [Stmt.normalizeOption, Stmt.findSuspensionOption, Stmt.findSuspension_asBlock]
    exact Stmt.findSuspension_normalize s inside

theorem Stmt.findSuspension_normalizeAll (ss : List Stmt) (inside : Bool) :
    Stmt.findSuspensionAny inside (Stmt.normalizeAll ss) = Stmt.findSuspensionAny inside ss := by
  cases ss with
  | nil => rw [Stmt.normalizeAll]
  | cons s ss =>
    rw [Stmt.normalizeAll, Stmt.findSuspensionAny, Stmt.findSuspensionAny,
      Stmt.findSuspension_normalize s, Stmt.findSuspension_normalizeAll ss]

/-- A normalized body has the same first misplaced suspension as the body. -/
@[simp] theorem Block.findSuspension_normalize (b : Block) (inside : Bool) :
    b.normalize.findSuspension inside = b.findSuspension inside := by
  cases b with
  | mk stmts span =>
    rw [Block.normalize]
    exact Stmt.findSuspension_normalizeAll stmts inside

theorem Block.findSuspension_normalizeOption (b : Option Block) (inside : Bool) :
    Block.findSuspensionOption inside (Block.normalizeOption b) =
      Block.findSuspensionOption inside b := by
  cases b with
  | none => rfl
  | some b => exact Block.findSuspension_normalize b inside

theorem Case.findSuspension_normalizeAll (cases : List Case) (inside : Bool) :
    Case.findSuspensionAny inside (Case.normalizeAll cases) = Case.findSuspensionAny inside cases := by
  cases cases with
  | nil => rw [Case.normalizeAll]
  | cons case rest =>
    cases case with
    | mk test body =>
      rw [Case.normalizeAll, Case.findSuspensionAny, Case.findSuspensionAny,
        Block.findSuspension_normalize body, Case.findSuspension_normalizeAll rest]

end

@[simp] theorem Stmt.suspends_normalize (s : Stmt) : s.normalize.suspends = s.suspends := by
  rw [Stmt.suspends_eq, Stmt.findSuspension_normalize, ← Stmt.suspends_eq]

/-- A normalized body suspends if and only if the body does. -/
@[simp] theorem Block.suspends_normalize (b : Block) : b.normalize.suspends = b.suspends := by
  rw [Block.suspends_eq, Block.findSuspension_normalize, ← Block.suspends_eq]

end Lowering
