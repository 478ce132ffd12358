import Lowering.Proofs.Hoist.Refusals

/-!
# Suspensions by their addresses

A statement inside a body has an *address*: the way down to it from the body, as the index of a statement
of the body, then the index of a statement directly inside that one, and so on (`Stmt.at?`). What is
around a statement stands at the beginnings of its address, and pre-order is the lexicographic order of
addresses.

This says what a walk through a body looks for without walking: the finder of suspensions gives the one
with the least address, among all of them or among those with a try with a handler around them
(`Stmt.findSuspension_isFirst`). So a body suspends exactly if there is one to be found, and what
hoisting names when it refuses a cleanup is a suspension of that cleanup (`Block.misplaced?_exact`).
-/

namespace Lowering

/-! ## Addresses -/

/-- The way down to a statement. -/
abbrev Address := List Nat

/-- Pre-order: a statement comes before what is inside it, and that before what stands behind. -/
def Address.Before (p q : Address) : Prop := List.Lex (· < ·) p q

namespace Stmt

/-- The statements directly inside a statement, in order. A nested method is a body of its own. -/
def children : Stmt → List Stmt
  | .block body _ => body.stmts
  | .ite _ yes no _ => yes :: no.toList
  | .loop _ body _ | .labeled _ body _ => [body]
  | .attempt body handler cleanup _ =>
    body.stmts ++ (handler.toList.flatMap Block.stmts ++ cleanup.toList.flatMap Block.stmts)
  | .switch _ cases _ => cases.flatMap fun case => case.body.stmts
  | .goto .. | .exit .. | .next .. | .eval .. | .declare .. | .ret .. | .suspend .. | .raise ..
  | .method .. => []

/-- The statement at an address inside a statement. -/
def at? (s : Stmt) : Address → Option Stmt
  | [] => some s
  | i :: p => s.children[i]?.bind fun c => c.at? p

/-- A try with a handler. -/
def hasHandler : Stmt → Bool
  | .attempt _ handler _ _ => handler.isSome
  | _ => false

/-- A suspension with this span stands at the address. -/
def SuspensionAt (s : Stmt) (p : Address) (span : Span) : Prop :=
  ∃ kind value, s.at? p = some (.suspend kind value span)

/-- A try with a handler is around the address. -/
def CaughtAt (s : Stmt) (p : Address) : Prop :=
  ∃ q t, q <+: p ∧ q ≠ p ∧ s.at? q = some t ∧ t.hasHandler = true

/-- A suspension with this span stands at the address, and it is inside a try with a handler. -/
def MisplacedAt (s : Stmt) (p : Address) (span : Span) : Prop := s.SuspensionAt p span ∧ s.CaughtAt p

/-- A suspension that counts: with `inside` all of them do. -/
def CountsAt (inside : Bool) (s : Stmt) (p : Address) (span : Span) : Prop :=
  s.SuspensionAt p span ∧ (inside = true ∨ s.CaughtAt p)

end Stmt

/-- The body as one statement, which is at the empty address. -/
def Block.root (b : Block) : Stmt := .block b b.span

/-! ## Going down -/

section Induction

variable {P : Stmt → Prop}

mutual

/-- What holds of a statement if it holds of all statements directly inside it holds of all. -/
theorem Stmt.induction_children (h : ∀ s, (∀ c ∈ s.children, P c) → P s) (s : Stmt) : P s := by
  cases s with
  | block body span => exact h _ (Block.forall_stmts h body)
  | ite test yes no span =>
    exact h _ (List.forall_mem_cons.mpr ⟨Stmt.induction_children h yes, Stmt.forall_option h no⟩)
  | loop test body span =>
    exact h _ (List.forall_mem_singleton.mpr (Stmt.induction_children h body))
  | labeled label body span =>
    exact h _ (List.forall_mem_singleton.mpr (Stmt.induction_children h body))
  | attempt body handler cleanup span =>
    exact h _ (List.forall_mem_append.mpr ⟨Block.forall_stmts h body,
      List.forall_mem_append.mpr ⟨Block.forall_option h handler, Block.forall_option h cleanup⟩⟩)
  | switch discriminant cases span => exact h _ (Case.forall_stmts h cases)
  | goto _ _ | exit _ | next _ | eval _ _ | declare _ _ _ _ | ret _ _ | suspend _ _ _ | raise _ _
  | method _ _ =>
    refine h _ fun c hc => ?_
    cases hc

theorem Stmt.forall_option (h : ∀ s, (∀ c ∈ s.children, P c) → P s) (s : Option Stmt) :
    ∀ c ∈ s.toList, P c := by
  cases s with
  | none =>
    intro c hc
    cases hc
  | some s => exact List.forall_mem_singleton.mpr (Stmt.induction_children h s)

theorem Stmt.forall_list (h : ∀ s, (∀ c ∈ s.children, P c) → P s) (ss : List Stmt) :
    ∀ c ∈ ss, P c := by
  cases ss with
  | nil =>
    intro c hc
    cases hc
  | cons s ss => exact List.forall_mem_cons.mpr ⟨Stmt.induction_children h s, Stmt.forall_list h ss⟩

theorem Block.forall_stmts (h : ∀ s, (∀ c ∈ s.children, P c) → P s) (b : Block) :
    ∀ c ∈ b.stmts, P c := by
  cases b with
  | mk stmts span => exact Stmt.forall_list h stmts

theorem Block.forall_option (h : ∀ s, (∀ c ∈ s.children, P c) → P s) (b : Option Block) :
    ∀ c ∈ b.toList.flatMap Block.stmts, P c := by
  cases b with
  | none =>
    intro c hc
    cases hc
  | some b =>
    rw [Option.toList_some, List.flatMap_singleton]
    exact Block.forall_stmts h b

theorem Case.forall_stmts (h : ∀ s, (∀ c ∈ s.children, P c) → P s) (cases : List Case) :
    ∀ c ∈ cases.flatMap fun case => case.body.stmts, P c := by
  cases cases with
  | nil =>
    intro c hc
    cases hc
  | cons case rest =>
    cases case with
    | mk test body =>
      rw [List.flatMap_cons]
      exact List.forall_mem_append.mpr ⟨Block.forall_stmts h body, Case.forall_stmts h rest⟩

end

end Induction

namespace Stmt

/-- An address goes down one child at a time. -/
theorem at?_cons {s t : Stmt} {i : Nat} {p : Address} :
    s.at? (i :: p) = some t ↔ ∃ c, s.children[i]? = some c ∧ c.at? p = some t :=
  Option.bind_eq_some_iff

theorem partsAll_append (ss ts : List Stmt) : partsAll (ss ++ ts) = partsAll ss ++ partsAll ts := by
  induction ss with
  | nil => rfl
  | cons s ss ih => rw [List.cons_append, partsAll_cons, partsAll_cons, ih, List.append_assoc]

theorem partsAll_flatMap {α : Type} (xs : List α) (f : α → List Stmt) :
    partsAll (xs.flatMap f) = xs.flatMap fun x => partsAll (f x) := by
  induction xs with
  | nil => rfl
  | cons x xs ih => rw [List.flatMap_cons, partsAll_append, ih, List.flatMap_cons]

/-- A statement, and then all inside the statements that are directly inside it. -/
theorem parts_eq (s : Stmt) : s.parts = s :: partsAll s.children := by
  cases s with
  | block body span => exact parts_block body span
  | ite test yes no span =>
    rw [parts_ite, children, partsAll_cons]
    cases no with
    | none => rfl
    | some no =>
      rw [Option.toList_some, List.flatMap_singleton, partsAll_cons, partsAll_nil, List.append_nil]
  | loop test body span =>
    rw [parts_loop, children, partsAll_cons, partsAll_nil, List.append_nil]
  | labeled label body span =>
    rw [parts_labeled, children, partsAll_cons, partsAll_nil, List.append_nil]
  | attempt body handler cleanup span =>
    rw [parts_attempt, children, partsAll_append, partsAll_append, partsAll_flatMap, partsAll_flatMap]
  | switch discriminant cases span => rw [parts_switch, children, partsAll_flatMap]
  | goto _ _ | exit _ | next _ | eval _ _ | declare _ _ _ _ | ret _ _ | suspend _ _ _ | raise _ _
  | method _ _ => rfl

/-- Every part of a statement has an address. -/
theorem exists_at?_of_mem_parts {t : Stmt} (s : Stmt) : t ∈ s.parts → ∃ p, s.at? p = some t := by
  induction s using induction_children with
  | h s ih =>
    rw [parts_eq, List.mem_cons, mem_partsAll]
    rintro (rfl | ⟨c, hc, ht⟩)
    · exact ⟨[], rfl⟩
    · obtain ⟨p, hp⟩ := ih c hc ht
      obtain ⟨i, hi⟩ := List.mem_iff_getElem?.mp hc
      exact ⟨i :: p, at?_cons.mpr ⟨c, hi, hp⟩⟩

/-! ## What counts, and where -/

theorem suspensionAt_nil {s : Stmt} {span : Span} :
    s.SuspensionAt [] span ↔ s.suspension? = some span := by
  constructor
  · rintro ⟨kind, value, h⟩
    cases h
    rfl
  · intro h
    cases s with
    | suspend kind value span' =>
      cases h
      exact ⟨kind, value, rfl⟩
    | _ => cases h

/-- A suspension below a statement is below one of its children. -/
theorem suspensionAt_cons {s : Stmt} {i : Nat} {p : Address} {span : Span} :
    s.SuspensionAt (i :: p) span ↔ ∃ c, s.children[i]? = some c ∧ c.SuspensionAt p span := by
  constructor
  · rintro ⟨kind, value, h⟩
    obtain ⟨c, hc, hp⟩ := at?_cons.mp h
    exact ⟨c, hc, kind, value, hp⟩
  · rintro ⟨c, hc, kind, value, hp⟩
    exact ⟨kind, value, at?_cons.mpr ⟨c, hc, hp⟩⟩

theorem not_caughtAt_nil (s : Stmt) : ¬s.CaughtAt [] := by
  rintro ⟨q, t, hq, hne, -⟩
  exact hne (List.prefix_nil.mp hq)

/-- What is around a statement inside `c` is what is around it in `c`, or `s` itself. -/
theorem caughtAt_cons {s c : Stmt} {i : Nat} {p : Address} (hc : s.children[i]? = some c) :
    s.CaughtAt (i :: p) ↔ s.hasHandler = true ∨ c.CaughtAt p := by
  constructor
  · rintro ⟨q, t, hq, hne, ht, hcatch⟩
    rcases List.prefix_cons_iff.mp hq with rfl | ⟨q', rfl, hq'⟩
    · cases ht
      exact .inl hcatch
    · obtain ⟨c', hc', ht'⟩ := at?_cons.mp ht
      cases hc.symm.trans hc'
      exact .inr ⟨q', t, hq', fun he => hne (he ▸ rfl), ht', hcatch⟩
  · rintro (hs | ⟨q, t, hq, hne, ht, hcatch⟩)
    · exact ⟨[], s, List.nil_prefix, by simp, rfl, hs⟩
    · exact ⟨i :: q, t, List.cons_prefix_cons.mpr ⟨rfl, hq⟩, fun he => hne (List.cons.inj he).2,
        at?_cons.mpr ⟨c, hc, ht⟩, hcatch⟩

theorem countsAt_nil {inside : Bool} {s : Stmt} {span : Span} :
    s.CountsAt inside [] span ↔ inside = true ∧ s.suspension? = some span := by
  unfold CountsAt
  rw [suspensionAt_nil, or_iff_left s.not_caughtAt_nil, and_comm]

/-- A handler on the way counts for all that is below it. -/
theorem countsAt_cons {inside : Bool} {s : Stmt} {i : Nat} {p : Address} {span : Span} :
    s.CountsAt inside (i :: p) span ↔
      ∃ c, s.children[i]? = some c ∧ c.CountsAt (inside || s.hasHandler) p span := by
  unfold CountsAt
  rw [suspensionAt_cons]
  constructor
  · rintro ⟨⟨c, hc, hp⟩, hinside⟩
    rw [caughtAt_cons hc, ← or_assoc, ← Bool.or_eq_true_iff] at hinside
    exact ⟨c, hc, hp, hinside⟩
  · rintro ⟨c, hc, hp, hinside⟩
    refine ⟨⟨c, hc, hp⟩, ?_⟩
    rw [caughtAt_cons hc, ← or_assoc, ← Bool.or_eq_true_iff]
    exact hinside

theorem countsAt_true {s : Stmt} {p : Address} {span : Span} :
    s.CountsAt true p span ↔ s.SuspensionAt p span :=
  and_iff_left (.inl rfl)

theorem countsAt_false {s : Stmt} {p : Address} {span : Span} :
    s.CountsAt false p span ↔ s.MisplacedAt p span := by
  unfold CountsAt MisplacedAt
  rw [or_iff_right Bool.false_ne_true]

/-- At one address there is at most one suspension. -/
theorem SuspensionAt.span_eq {s : Stmt} {p : Address} {span span' : Span} (h : s.SuspensionAt p span)
    (h' : s.SuspensionAt p span') : span = span' := by
  obtain ⟨kind, value, he⟩ := h
  obtain ⟨kind', value', he'⟩ := h'
  cases he.symm.trans he'
  rfl

end Stmt

/-! ## First addresses -/

/-- The span at the first address with the property, or nothing if there is none. -/
def Address.IsFirst (P : Address → Span → Prop) : Option Span → Prop
  | none => ∀ p span, ¬P p span
  | some span => ∃ p, P p span ∧ ∀ q span', P q span' → q = p ∨ p.Before q

namespace Address

theorem Before.asymm {p q : Address} (h : p.Before q) : ¬q.Before p :=
  List.lex_asymm (fun h => Nat.lt_asymm h) h

variable {P : Address → Span → Prop} {found : Option Span}

theorem IsFirst.congr {Q : Address → Span → Prop} (h : IsFirst P found)
    (hPQ : ∀ p span, P p span ↔ Q p span) : IsFirst Q found := by
  have heq : P = Q := funext fun p => funext fun span => propext (hPQ p span)
  exact heq ▸ h

theorem IsFirst.eq_none_iff (h : IsFirst P found) : found = none ↔ ∀ p span, ¬P p span := by
  cases found with
  | none => exact ⟨fun _ => h, fun _ => rfl⟩
  | some span =>
    obtain ⟨p, hp, -⟩ := h
    refine ⟨fun hnone => ?_, fun hnone => absurd hp (hnone p span)⟩
    cases hnone

/-- There is only one first address. -/
theorem IsFirst.eq_some_iff (h : IsFirst P found)
    (hP : ∀ p span span', P p span → P p span' → span = span') {span : Span} :
    found = some span ↔ ∃ p, P p span ∧ ∀ q span', P q span' → q = p ∨ p.Before q := by
  constructor
  · rintro rfl
    exact h
  · rintro ⟨p, hp, hfirst⟩
    cases found with
    | none => exact absurd hp (h p span)
    | some span' =>
      obtain ⟨p', hp', hfirst'⟩ := h
      have hsame : p = p' := by
        rcases hfirst' p span hp with he | hlt
        · exact he
        · rcases hfirst p' span' hp' with he | hlt'
          · exact he.symm
          · exact absurd hlt' hlt.asymm
      subst hsame
      rw [hP p span span' hp hp']

/-- Nothing comes before the empty address. -/
theorem IsFirst.self {span : Span} (h : P [] span) : IsFirst P (some span) := by
  refine ⟨[], h, fun q _ _ => ?_⟩
  cases q with
  | nil => exact .inl rfl
  | cons i q => exact .inr .nil

/-- If nothing is found at the empty address, the first address leads into the first of the things
below in which there is one. -/
theorem IsFirst.below {α : Type} {xs : List α} {Q : α → Address → Span → Prop} {f : α → Option Span}
    (hself : ∀ span, ¬P [] span)
    (hbelow : ∀ i p span, P (i :: p) span ↔ ∃ x, xs[i]? = some x ∧ Q x p span)
    (h : ∀ x ∈ xs, IsFirst (Q x) (f x)) : IsFirst P (xs.findSome? f) := by
  cases hfound : xs.findSome? f with
  | none =>
    rw [List.findSome?_eq_none_iff] at hfound
    intro p span hp
    cases p with
    | nil => exact hself span hp
    | cons i p =>
      obtain ⟨x, hx, hp⟩ := (hbelow i p span).mp hp
      have hmem := List.mem_of_getElem? hx
      exact (h x hmem).eq_none_iff.mp (hfound x hmem) p span hp
  | some span =>
    obtain ⟨before, x, behind, rfl, hx, hbefore⟩ := List.findSome?_eq_some_iff.mp hfound
    have hat : (before ++ x :: behind)[before.length]? = some x := by
      rw [List.getElem?_append_right (Nat.le_refl _), Nat.sub_self, List.getElem?_cons_zero]
    have hfirst := h x (List.mem_of_getElem? hat)
    rw [hx] at hfirst
    obtain ⟨p, hp, hleast⟩ := hfirst
    refine ⟨before.length :: p, (hbelow _ p span).mpr ⟨x, hat, hp⟩, fun q span' hq => ?_⟩
    cases q with
    | nil => exact absurd hq (hself span')
    | cons j q =>
      obtain ⟨y, hy, hq⟩ := (hbelow j q span').mp hq
      rcases Nat.lt_trichotomy j before.length with hlt | rfl | hlt
      · -- in front of `x` nothing is found
        have hmem := List.mem_of_getElem? hy
        rw [List.getElem?_append_left hlt] at hy
        have hnone := (h y hmem).eq_none_iff.mp (hbefore y (List.mem_of_getElem? hy))
        exact absurd hq (hnone q span')
      · cases hat.symm.trans hy
        rcases hleast q span' hq with rfl | hlt
        · exact .inl rfl
        · exact .inr (.cons hlt)
      · exact .inr (.rel hlt)

end Address

/-! ## The finder -/

theorem Stmt.findSuspensionAny_eq (inside : Bool) (ss : List Stmt) :
    Stmt.findSuspensionAny inside ss = ss.findSome? (Stmt.findSuspension inside) := by
  induction ss with
  | nil => rfl
  | cons s ss ih =>
    rw [Stmt.findSuspensionAny, ih, List.findSome?_cons]
    cases s.findSuspension inside <;> rfl

theorem Block.findSuspension_eq (inside : Bool) (b : Block) :
    b.findSuspension inside = b.stmts.findSome? (Stmt.findSuspension inside) := by
  cases b with
  | mk stmts span => exact Stmt.findSuspensionAny_eq inside stmts

theorem Block.findSuspensionOption_eq (inside : Bool) (b : Option Block) :
    Block.findSuspensionOption inside b =
      (b.toList.flatMap Block.stmts).findSome? (Stmt.findSuspension inside) := by
  cases b with
  | none => rfl
  | some b =>
    rw [Option.toList_some, List.flatMap_singleton]
    exact Block.findSuspension_eq inside b

theorem Case.findSuspensionAny_eq (inside : Bool) (cases : List Case) :
    Case.findSuspensionAny inside cases =
      (cases.flatMap fun case => case.body.stmts).findSome? (Stmt.findSuspension inside) := by
  induction cases with
  | nil => rfl
  | cons case rest ih =>
    cases case with
    | mk test body =>
      rw [Case.findSuspensionAny, ih, Block.findSuspension_eq, List.flatMap_cons, List.findSome?_append]

namespace Stmt

/-- The finder looks at the statement, and then at those directly inside it, in order. -/
theorem findSuspension_eq (inside : Bool) (s : Stmt) :
    s.findSuspension inside = (if inside then s.suspension? else none).or
      (s.children.findSome? (findSuspension (inside || s.hasHandler))) := by
  -- only a suspension is of interest itself
  have hskip : ∀ {t : Stmt}, t.suspension? = none → ∀ found : Option Span,
      (if inside then t.suspension? else none).or found = found := by
    intro t ht found
    rw [ht, ite_self, Option.none_or]
  -- only a try with a handler makes a difference for what is inside
  have hpass : ∀ {t : Stmt}, t.hasHandler = false → (inside || t.hasHandler) = inside := by
    intro t ht
    rw [ht, Bool.or_false]
  cases s with
  | suspend kind value span => exact Option.or_none.symm
  | block body span =>
    rw [hskip rfl, hpass rfl]
    exact Block.findSuspension_eq inside body
  | ite test yes no span =>
    rw [hskip rfl, hpass rfl, ← findSuspensionAny_eq]
    cases no with
    | none => rfl
    | some no => exact congrArg (Option.or _) Option.or_none.symm
  | loop test body span =>
    rw [hskip rfl, hpass rfl, children, List.findSome?_singleton, findSuspension]
  | labeled label body span =>
    rw [hskip rfl, hpass rfl, children, List.findSome?_singleton, findSuspension]
  | attempt body handler cleanup span =>
    rw [hskip rfl, children, List.findSome?_append, List.findSome?_append, ← Block.findSuspension_eq,
      ← Block.findSuspensionOption_eq, ← Block.findSuspensionOption_eq]
    rfl
  | switch discriminant cases span =>
    rw [hskip rfl, hpass rfl]
    exact Case.findSuspensionAny_eq inside cases
  | goto _ _ | exit _ | next _ | eval _ _ | declare _ _ _ _ | ret _ _ | raise _ _ | method _ _ =>
    rw [hskip rfl]
    rfl

/-- **The finder finds the first suspension that counts.** -/
theorem findSuspension_isFirst (s : Stmt) :
    ∀ inside, Address.IsFirst (s.CountsAt inside) (s.findSuspension inside) := by
  induction s using induction_children with
  | h s ih =>
    intro inside
    rw [findSuspension_eq]
    cases hself : if inside then s.suspension? else none with
    | some span =>
      refine .self (countsAt_nil.mpr ?_)
      cases inside with
      | true => exact ⟨rfl, hself⟩
      | false => cases hself
    | none =>
      rw [Option.none_or]
      refine .below (fun span h => ?_) (fun _ _ _ => countsAt_cons) fun c hc => ih c hc _
      obtain ⟨rfl, hs⟩ := countsAt_nil.mp h
      cases hself.symm.trans hs

end Stmt

/-! ## Bodies -/

namespace Block

theorem isFirst_findSuspension (b : Block) :
    Address.IsFirst b.root.SuspensionAt (b.findSuspension true) :=
  (b.root.findSuspension_isFirst true).congr fun _ _ => Stmt.countsAt_true

/-- **The finder gives the first misplaced suspension in the order of addresses.** -/
theorem isFirst_misplaced? (b : Block) : Address.IsFirst b.root.MisplacedAt b.misplaced? :=
  (b.root.findSuspension_isFirst false).congr fun _ _ => Stmt.countsAt_false

/-- A body suspends if a suspension stands somewhere in it. -/
theorem suspends_iff_exists_at (b : Block) :
    b.suspends = true ↔ ∃ p span, b.root.SuspensionAt p span := by
  rw [Block.suspends_eq, Option.isSome_iff_ne_none, ne_eq, b.isFirst_findSuspension.eq_none_iff]
  simp only [Classical.not_forall, Classical.not_not]

/-- Every site of a body has an address. -/
theorem exists_at?_of_mem_sites {b : Block} {c : Context} {site : Site} (h : site ∈ b.sites c) :
    ∃ p, b.root.at? p = some site.stmt := by
  refine Stmt.exists_at?_of_mem_parts b.root ?_
  rw [root, Stmt.parts_block, ← Stmt.map_stmt_sites_block c]
  exact List.mem_cons_of_mem _ (List.mem_map_of_mem h)

/-- A cleanup is refused for its first suspension. -/
theorem exists_of_suspensionInFinally {σ : Type} [NameSupply σ] {hints : HoistHints} {names : σ}
    {b : Block} {span trySpan : Span}
    (h : (b.hoist hints names).1 = .error (.suspensionInFinally span trySpan)) :
    ∃ p body handler cleanup, b.root.at? p = some (.attempt body handler (some cleanup) trySpan) ∧
      Address.IsFirst cleanup.root.SuspensionAt (some span) := by
  rcases Block.hoist_answers hints b names with ⟨e, site, he, hsite, hrefused⟩ | ⟨hoisted, hok, -⟩
  · cases h.symm.trans he
    cases hrefused with
    | @cleanup body handler cleanup _ _ _ _ hsuspensions =>
      obtain ⟨p, hp⟩ := exists_at?_of_mem_sites hsite
      have hfirst := cleanup.isFirst_findSuspension
      rw [Block.findSuspension_true, hsuspensions] at hfirst
      exact ⟨p, body, handler, cleanup, hp, hfirst⟩
  · cases h.symm.trans hok

/-- **The finder of misplaced suspensions is exact.** It gives the span of the first suspension that has
a try with a handler around it, if there is one. Where all suspensions count, it finds one exactly if the
body suspends, so that a cleanup is refused for its first suspension. -/
theorem misplaced?_exact (b : Block) :
    (∀ span, b.misplaced? = some span ↔
      ∃ p, b.root.MisplacedAt p span ∧ ∀ q span', b.root.MisplacedAt q span' → q = p ∨ p.Before q) ∧
    (b.misplaced? = none ↔ ∀ p span, ¬b.root.MisplacedAt p span) ∧
    ((b.findSuspension true).isSome = true ↔ b.suspends = true) ∧
    (b.suspends = true ↔ ∃ p span, b.root.SuspensionAt p span) ∧
    ∀ (σ : Type) [NameSupply σ] (hints : HoistHints) (names : σ) (span trySpan : Span),
      (b.hoist hints names).1 = .error (.suspensionInFinally span trySpan) →
        ∃ p body handler cleanup, b.root.at? p = some (.attempt body handler (some cleanup) trySpan) ∧
          ∃ q, cleanup.root.SuspensionAt q span ∧
            ∀ r span', cleanup.root.SuspensionAt r span' → r = q ∨ q.Before r := by
  refine ⟨fun span => ?_, b.isFirst_misplaced?.eq_none_iff, ?_, b.suspends_iff_exists_at, ?_⟩
  · exact b.isFirst_misplaced?.eq_some_iff fun _ _ _ h h' => h.1.span_eq h'.1
  · rw [Block.suspends_eq]
  · exact fun _ _ _ _ _ _ hrefused => exists_of_suspensionInFinally hrefused

/-- `try { f(); try { } finally { while (true) yield; } } catch { yield; }` -/
def lateYields : Block :=
  ⟨[.attempt
    ⟨[.eval (.call "f" []) ⟨0, 6, 10⟩,
      .attempt ⟨[], ⟨0, 15, 18⟩⟩ none
        (some ⟨[.loop (.bool true) (.suspend .yield none ⟨0, 42, 48⟩) ⟨0, 29, 48⟩], ⟨0, 27, 50⟩⟩)
        ⟨0, 11, 50⟩], ⟨0, 4, 52⟩⟩
    (some ⟨[.suspend .yield none ⟨0, 61, 67⟩], ⟨0, 59, 69⟩⟩) none ⟨0, 0, 69⟩], ⟨0, 0, 69⟩⟩

/-- The inner try has no handler, but the outer one is around its cleanup as well, and that comes before
the outer handler. -/
theorem misplaced?_exact_lateYields :
    lateYields.misplaced? = some ⟨0, 42, 48⟩ ∧
      (lateYields.hoist {} Names.empty).1 =
        .error (.suspensionInFinally ⟨0, 42, 48⟩ ⟨0, 11, 50⟩) ∧
      (∃ p, lateYields.root.MisplacedAt p ⟨0, 42, 48⟩ ∧
        ∀ q span, lateYields.root.MisplacedAt q span → q = p ∨ p.Before q) ∧
      ∃ p body handler cleanup,
        lateYields.root.at? p = some (.attempt body handler (some cleanup) ⟨0, 11, 50⟩) ∧
          ∃ q, cleanup.root.SuspensionAt q ⟨0, 42, 48⟩ ∧
            ∀ r span, cleanup.root.SuspensionAt r span → r = q ∨ q.Before r := by
  have hmisplaced : lateYields.misplaced? = some ⟨0, 42, 48⟩ := rfl
  have hrefused : (lateYields.hoist {} Names.empty).1 =
      .error (.suspensionInFinally ⟨0, 42, 48⟩ ⟨0, 11, 50⟩) := rfl
  obtain ⟨hfirst, -, -, -, hcleanup⟩ := lateYields.misplaced?_exact
  exact ⟨hmisplaced, hrefused, (hfirst _).mp hmisplaced, hcleanup Names {} Names.empty _ _ hrefused⟩

end Block

end Lowering
