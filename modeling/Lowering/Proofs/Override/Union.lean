import Lowering.Override
import Lowering.Proofs.Types.Flat

/-!
# Overridden members count together

A position of a method changes if some member that the method overrides wraps it
(`Signature.adjustedAt?_eq_some`), and to what it changes depends on the method alone. So the changes for
two lists of members are joined position by position, and neither the order of the members nor a member
that comes twice matters.

Of a member only its resolved signature counts. Putting the bindings into the signature beforehand
(`OverriddenMember.resolve`) makes no difference if the types of the bindings are flat, since then a
resolved type is not changed by resolving it again.
-/

namespace Lowering

/-! ## Positions -/

/-- A position of a method. -/
inductive Position where
  /-- a parameter; the receiver is number 0 -/
  | param (i : Nat)
  | result

def Signature.at? (s : Signature) : Position → Option PassType
  | .param i => s.params[i]?
  | .result => some s.ret

def Adjustment.at? (a : Adjustment) : Position → Option WrappedPosition
  | .param i => a.param? i
  | .result => a.ret

/-- The change that the analysis finds at a position. -/
def Signature.adjustedAt? (excluded : List String) (members : List OverriddenMember) (s : Signature)
    (p : Position) : Option WrappedPosition :=
  (s.adjust? excluded members).bind (·.at? p)

/-- A member has the position as an optional formal of its own class. -/
def Position.WrappedBy (excluded : List String) (members : List OverriddenMember) (p : Position) : Prop :=
  ∃ m ∈ members, ∃ theirs, m.signature.at? p = some theirs ∧ m.wraps excluded theirs = true

section

variable {excluded : List String} {A B members : List OverriddenMember} {p : Position}

/-- A position is wrapped on account of members in one list or the other. -/
theorem Position.wrappedBy_append :
    p.WrappedBy excluded (A ++ B) ↔ p.WrappedBy excluded A ∨ p.WrappedBy excluded B := by
  simp only [WrappedBy, List.mem_append, or_and_right, exists_or]

theorem Position.wrappedBy_congr (h : ∀ m, m ∈ A ↔ m ∈ B) :
    p.WrappedBy excluded A ↔ p.WrappedBy excluded B := by
  simp only [WrappedBy, h]

/-! ## The change at one position -/

/-- The test over all members looks for one that wraps the position. -/
theorem Position.any_wraps_iff :
    (members.any fun m => (m.signature.at? p).any (m.wraps excluded)) = true ↔
      p.WrappedBy excluded members := by
  simp only [List.any_eq_true, Option.any_eq_true, WrappedBy]

/-- A position changes if a member wraps it and its own type is no optional formal. -/
theorem PassType.adjust_eq_some {own : PassType} {w : WrappedPosition} :
    own.adjust excluded members (·.signature.at? p) = some w ↔
      own.isOptionalFormal = false ∧ p.WrappedBy excluded members ∧ ⟨own.nonNull⟩ = w := by
  rw [adjust, ← Position.any_wraps_iff, Option.ite_none_left_eq_some, Option.ite_none_right_eq_some,
    Option.some.injEq, Bool.not_eq_true]

theorem PassType.adjust_congr (h : p.WrappedBy excluded A ↔ p.WrappedBy excluded B) (own : PassType) :
    own.adjust excluded A (·.signature.at? p) = own.adjust excluded B (·.signature.at? p) := by
  refine Option.ext fun w => ?_
  rw [adjust_eq_some, adjust_eq_some, h]

/-! ## The changes at all positions -/

/-- The changes at all positions of a method, also if there are none. -/
def Signature.changes (excluded : List String) (members : List OverriddenMember) (s : Signature) :
    Adjustment where
  unadjusted := s
  params := s.params.mapIdx fun i own =>
    if i = 0 then none else own.adjust excluded members (·.signature.at? (.param i))
  ret := s.ret.adjust excluded members (·.signature.at? .result)

/-- The adjustment, unless it changes nothing. -/
def Adjustment.proper? (a : Adjustment) : Option Adjustment :=
  if a.ret.isNone && a.params.all Option.isNone then none else some a

theorem Signature.adjust?_eq (s : Signature) :
    s.adjust? excluded members = (s.changes excluded members).proper? := rfl

theorem Adjustment.at?_eq_none {a : Adjustment} :
    (∀ p, a.at? p = none) ↔ (a.ret.isNone && a.params.all Option.isNone) = true := by
  rw [Bool.and_eq_true, Option.isNone_iff_eq_none, List.all_eq_true]
  constructor
  · intro h
    refine ⟨h .result, fun w hw => ?_⟩
    obtain ⟨i, hi⟩ := List.mem_iff_getElem?.mp hw
    have hp : a.params[i]?.join = none := h (.param i)
    rw [hi, Option.join_some] at hp
    exact Option.isNone_iff_eq_none.mpr hp
  · rintro ⟨hret, hparams⟩ (i | _)
    · rw [at?, param?]
      cases hi : a.params[i]? with
      | none => rfl
      | some w => exact Option.isNone_iff_eq_none.mp (hparams w (List.mem_of_getElem? hi))
    · exact hret

/-- There is no adjustment if no position changes. -/
theorem Adjustment.proper?_eq_none {a : Adjustment} : a.proper? = none ↔ ∀ p, a.at? p = none := by
  rw [at?_eq_none, proper?, ite_eq_left_iff]
  exact ⟨fun h => Classical.not_not.mp fun hn => Option.some_ne_none a (h hn), fun h hn => absurd h hn⟩

/-- Leaving out an adjustment that changes nothing leaves the positions as they are. -/
theorem Adjustment.bind_proper? (a : Adjustment) (p : Position) : a.proper?.bind (·.at? p) = a.at? p := by
  cases h : a.proper? with
  | none => exact (proper?_eq_none.mp h p).symm
  | some a' =>
    rw [proper?, Option.ite_none_left_eq_some, Option.some.injEq] at h
    rw [← h.2]
    rfl

/-- The receiver never changes; every other position does on its own account. -/
theorem Signature.at?_changes {s : Signature} {w : WrappedPosition} :
    (s.changes excluded members).at? p = some w ↔
      p ≠ .param 0 ∧
        ∃ own, s.at? p = some own ∧ own.adjust excluded members (·.signature.at? p) = some w := by
  cases p with
  | result =>
    constructor
    · intro h
      refine ⟨?_, s.ret, rfl, h⟩
      intro hp
      cases hp
    · rintro ⟨-, own, hown, h⟩
      cases hown
      exact h
  -- Position 0 is the receiver, which is never adjusted.
  | param i =>
    have hparam : Position.param i ≠ .param 0 ↔ i ≠ 0 := by rw [Ne, Position.param.injEq]
    rw [Adjustment.at?, Adjustment.param?, changes, List.getElem?_mapIdx, hparam, at?]
    cases s.params[i]? with
    | none =>
      constructor
      · intro h
        cases h
      · rintro ⟨-, own, hown, -⟩
        cases hown
    | some own =>
      rw [Option.map_some, Option.join_some, Option.ite_none_left_eq_some]
      exact and_congr_right fun _ =>
        ⟨fun h => ⟨own, rfl, h⟩, fun ⟨own', hown, h⟩ => Option.some.inj hown ▸ h⟩

/-- **A position changes if a member wraps it**, and then to a wrapper of the method's own type there.
The receiver never changes, nor does a position that is a wrapper as written. -/
theorem Signature.adjustedAt?_eq_some {s : Signature} {w : WrappedPosition} :
    s.adjustedAt? excluded members p = some w ↔
      p.WrappedBy excluded members ∧
        p ≠ .param 0 ∧ ∃ own, s.at? p = some own ∧ own.isOptionalFormal = false ∧ ⟨own.nonNull⟩ = w := by
  rw [adjustedAt?, adjust?_eq, Adjustment.bind_proper?, at?_changes]
  simp only [PassType.adjust_eq_some]
  constructor
  · rintro ⟨hp, own, hown, hplain, hwrapped, hw⟩
    exact ⟨hwrapped, hp, own, hown, hplain, hw⟩
  · rintro ⟨hwrapped, hp, own, hown, hplain, hw⟩
    exact ⟨hp, own, hown, hplain, hwrapped, hw⟩

theorem Signature.adjust?_eq_none {s : Signature} :
    s.adjust? excluded members = none ↔ ∀ p, s.adjustedAt? excluded members p = none := by
  simp only [adjustedAt?, adjust?_eq, Adjustment.bind_proper?, Adjustment.proper?_eq_none]

/-- Members that wrap the same positions give the same changes. -/
theorem Signature.adjust?_congr (h : ∀ p, Position.WrappedBy excluded A p ↔ Position.WrappedBy excluded B p)
    (s : Signature) : s.adjust? excluded A = s.adjust? excluded B := by
  simp only [adjust?_eq, changes, PassType.adjust_congr (h _)]

/-- The changes for two lists of members, joined. -/
theorem Signature.adjustedAt?_append {s : Signature} {w : WrappedPosition} :
    s.adjustedAt? excluded (A ++ B) p = some w ↔
      s.adjustedAt? excluded A p = some w ∨ s.adjustedAt? excluded B p = some w := by
  rw [adjustedAt?_eq_some, adjustedAt?_eq_some, adjustedAt?_eq_some, Position.wrappedBy_append,
    or_and_right]

/-- Nothing changes for two lists of members if nothing does for either. -/
theorem Signature.adjust?_append_eq_none {s : Signature} :
    s.adjust? excluded (A ++ B) = none ↔ s.adjust? excluded A = none ∧ s.adjust? excluded B = none := by
  simp only [adjust?_eq_none, ← forall_and]
  refine forall_congr' fun p => ?_
  simp only [Option.eq_none_iff_forall_ne_some, Ne, adjustedAt?_append, not_or, forall_and]

/-! ## Resolved members -/

/-- Replaces formals at every position. -/
def Signature.substitute (σ : Ty.Substitution) (s : Signature) : Signature :=
  ⟨s.params.map (PassType.substitute σ), s.ret.substitute σ⟩

/-- The member with its bindings put into its signature. -/
def OverriddenMember.resolve (m : OverriddenMember) : OverriddenMember where
  owner := m.owner
  signature := m.signature.substitute m.bindings
  bindings := .empty

theorem Signature.at?_substitute (σ : Ty.Substitution) (s : Signature) (p : Position) :
    (s.substitute σ).at? p = (s.at? p).map (PassType.substitute σ) := by
  cases p with
  | param i => exact List.getElem?_map
  | result => rfl

/-- A resolved member wraps the same positions, since its bindings are flat. -/
theorem OverriddenMember.wraps_resolve {m : OverriddenMember} (hm : m.bindings.Flat) (theirs : PassType) :
    m.resolve.wraps excluded (theirs.substitute m.bindings) = m.wraps excluded theirs := by
  unfold wraps resolve
  simp only [PassType.substitute_empty_substitute hm]

/-- Resolving a member leaves the positions that it wraps. -/
theorem Position.wrappedBy_resolve {m : OverriddenMember} (hm : m.bindings.Flat) :
    p.WrappedBy excluded [m.resolve] ↔ p.WrappedBy excluded [m] := by
  have hat : m.resolve.signature.at? p = (m.signature.at? p).map (PassType.substitute m.bindings) :=
    m.signature.at?_substitute m.bindings p
  simp only [WrappedBy, List.mem_singleton, exists_eq_left, hat, Option.map_eq_some_iff]
  constructor
  · rintro ⟨_, ⟨theirs, htheirs, rfl⟩, hw⟩
    exact ⟨theirs, htheirs, (OverriddenMember.wraps_resolve hm theirs).symm.trans hw⟩
  · rintro ⟨theirs, htheirs, hw⟩
    exact ⟨_, ⟨theirs, htheirs, rfl⟩, (OverriddenMember.wraps_resolve hm theirs).trans hw⟩

theorem Signature.adjust?_resolve {m : OverriddenMember} (hm : m.bindings.Flat) (s : Signature) :
    s.adjust? excluded (A ++ m.resolve :: B) = s.adjust? excluded (A ++ m :: B) := by
  refine adjust?_congr (fun p => ?_) s
  -- the member on its own, between those in front of it and those behind it
  rw [← List.singleton_append, ← List.singleton_append (x := m)]
  simp only [Position.wrappedBy_append, Position.wrappedBy_resolve hm]

end

/-- **The analysis joins what the members ask for.** A position changes exactly if a member wraps it,
unless it is the receiver or a wrapper as written, and always to a wrapper of the method's own type there.
So for the members of two lists together it changes exactly if it does for one of the lists, and nothing
changes exactly if nothing changes for either. The order of the members and members that come twice do not
matter. A member whose bindings are flat can be replaced by its resolved form. -/
theorem Signature.adjust?_union (excluded : List String) (s : Signature) (A B : List OverriddenMember) :
    (∀ p w, s.adjustedAt? excluded A p = some w ↔
        p.WrappedBy excluded A ∧ p ≠ .param 0 ∧
          ∃ own, s.at? p = some own ∧ own.isOptionalFormal = false ∧ ⟨own.nonNull⟩ = w) ∧
      (∀ p w, s.adjustedAt? excluded (A ++ B) p = some w ↔
        s.adjustedAt? excluded A p = some w ∨ s.adjustedAt? excluded B p = some w) ∧
      (s.adjust? excluded (A ++ B) = none ↔
        s.adjust? excluded A = none ∧ s.adjust? excluded B = none) ∧
      (∀ C, (∀ m, m ∈ C ↔ m ∈ A) → s.adjust? excluded C = s.adjust? excluded A) ∧
      ∀ m : OverriddenMember, m.bindings.Flat →
        s.adjust? excluded (A ++ m.resolve :: B) = s.adjust? excluded (A ++ m :: B) := by
  refine ⟨fun p w => adjustedAt?_eq_some, fun p w => adjustedAt?_append, adjust?_append_eq_none,
    fun C hC => ?_, fun m hm => adjust?_resolve hm s⟩
  exact adjust?_congr (fun p => Position.wrappedBy_congr hC) s

/-- `put(key: Int, value: String): Int`. -/
def Signature.put : Signature :=
  ⟨[⟨.named "Table", false⟩, ⟨.int, false⟩, ⟨.string, false⟩], ⟨.int, false⟩⟩

/-- `put(key: T)` of a class `Store<T>`, inherited by `Box<E>` as a `Store<E?>`. -/
def OverriddenMember.boxPut : OverriddenMember where
  owner := "Box"
  signature := ⟨[⟨.named "Box", false⟩, ⟨.param ⟨"T", .type "Store"⟩, false⟩], ⟨.void, false⟩⟩
  bindings := Dict.empty.insert "Store.T" (.nullable (.param ⟨"E", .type "Box"⟩))

/-- `put(key: K?, value: V?): V?` of a class `Map<K, V>`. -/
def OverriddenMember.mapPut : OverriddenMember where
  owner := "Map"
  signature :=
    ⟨[⟨.named "Map", false⟩, ⟨.param ⟨"K", .type "Map"⟩, true⟩, ⟨.param ⟨"V", .type "Map"⟩, true⟩],
      ⟨.param ⟨"V", .type "Map"⟩, true⟩⟩
  bindings := .empty

/-- With the formal `Map.K` left out, the key changes for `Box` alone, where the binding makes it
nullable, and the result for `Map` alone. Resolving the member of `Box` makes no difference. -/
theorem Signature.adjust?_union_put :
    OverriddenMember.boxPut.bindings.Flat ∧
      put.adjustedAt? ["Map.K"] [.mapPut] (.param 1) = none ∧
      put.adjustedAt? ["Map.K"] ([.boxPut] ++ [.mapPut]) (.param 1) = some ⟨⟨.int, false⟩⟩ ∧
      put.adjustedAt? ["Map.K"] ([.boxPut] ++ [.mapPut]) .result = some ⟨⟨.int, false⟩⟩ ∧
      put.adjust? ["Map.K"] [OverriddenMember.boxPut.resolve, .mapPut] =
        put.adjust? ["Map.K"] [.boxPut, .mapPut] := by
  have hflat : OverriddenMember.boxPut.bindings.Flat := by decide
  obtain ⟨-, hunion, -⟩ := adjust?_union ["Map.K"] put [.boxPut] [.mapPut]
  obtain ⟨-, -, -, -, hresolve⟩ := adjust?_union ["Map.K"] put [] [.mapPut]
  exact ⟨hflat, rfl, (hunion _ _).mpr (.inl rfl), (hunion _ _).mpr (.inr rfl), hresolve .boxPut hflat⟩

-- with `T = E??` the key is no optional formal, but resolved to `E??` and resolved again it is one
example :
    let m := { OverriddenMember.boxPut with
      bindings := Dict.empty.insert "Store.T" (.nullable (.nullable (.param ⟨"E", .type "Box"⟩))) }
    (Signature.put.adjust? [] [m]).isSome = false ∧
      (Signature.put.adjust? [] [m.resolve]).isSome = true := by
  decide

end Lowering
