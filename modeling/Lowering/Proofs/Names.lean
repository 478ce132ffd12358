import Lowering.Names

/-!
# Names that are handed out are fresh

`Names.allocate_fresh`: a name that is handed out was not in use, it is in use from then on, and no
other name is forgotten. The search strikes every candidate that it meets from the names to be avoided
and does not come back to it, so a candidate is in use exactly if it is still to be avoided.

`NameSupply.Recorded` is a supply with a record of all names that it has handed out. No name is in the
record of `Names` twice, and none is there that was in use before (`NameSupply.Recorded.Fresh`).
-/

namespace Lowering.Names

theorem numbered_inj {hint : String} {j k : Nat} (h : numbered hint j = numbered hint k) : j = k := by
  have hrepr := (String.append_right_inj hint).mp h
  rw [Nat.repr_eq_ofList_toDigits, Nat.repr_eq_ofList_toDigits] at hrepr
  have hdigits := congrArg String.toList hrepr
  rw [String.toList_ofList, String.toList_ofList] at hdigits
  rw [← @Nat.ofDigitChars_ten_toDigits j, hdigits, Nat.ofDigitChars_ten_toDigits]

/-- The search ends at a number whose name is not in use, if of the candidates still to come just
those in use are to be avoided. -/
theorem numbered_firstFree {hint : String} {taken : List String} {k : Nat} {avoid : List String}
    (h : ∀ j ≥ k, numbered hint j ∈ avoid ↔ numbered hint j ∈ taken) :
    numbered hint (firstFree hint k avoid) ∉ taken := by
  fun_induction firstFree hint k avoid with
  | case1 k avoid hk ih =>
    refine ih fun j hj => ?_
    have hne : numbered hint j ≠ numbered hint k := fun he => by
      have := numbered_inj he
      omega
    rw [List.mem_erase_of_ne hne]
    exact h j (by omega)
  | case2 k avoid hk => exact fun ht => hk ((h k (Nat.le_refl k)).mpr ht)

/-- **A name that is handed out is fresh.** -/
theorem allocate_fresh (names : Names) (hint : String) :
    (names.allocate hint).1 ∉ names.taken ∧
      (names.allocate hint).1 ∈ (names.allocate hint).2.taken ∧
      names.taken ⊆ (names.allocate hint).2.taken := by
  unfold allocate
  split
  · refine ⟨numbered_firstFree fun _ _ => Iff.rfl, ?_, fun x hx => ?_⟩
    · exact List.mem_insert_self
    · exact List.mem_insert_of_mem hx
  · next h =>
    refine ⟨fun hm => h (List.contains_iff_mem.mpr hm), ?_, fun x hx => ?_⟩
    · exact List.mem_insert_self
    · exact List.mem_insert_of_mem hx

/-- A name that is handed out is the hint, or the hint with a number. -/
theorem allocate_form (names : Names) (hint : String) :
    (names.allocate hint).1 = hint ∨ ∃ k, (names.allocate hint).1 = numbered hint k := by
  unfold allocate
  split
  · exact .inr ⟨_, rfl⟩
  · exact .inl rfl

theorem mem_taken_reserveAll {names : Names} {more : List String} {name : String} :
    name ∈ (names.reserveAll more).taken ↔ name ∈ names.taken ∨ name ∈ more := by
  unfold reserveAll
  induction more generalizing names with
  | nil => simp
  | cons x more ih =>
    rw [List.foldl_cons, ih, reserve, List.mem_insert_iff, List.mem_cons]
    constructor
    · rintro ((h | h) | h)
      · exact .inr (.inl h)
      · exact .inl h
      · exact .inr (.inr h)
    · rintro (h | h | h)
      · exact .inl (.inr h)
      · exact .inl (.inl h)
      · exact .inr h

end Lowering.Names

/-! ## Records -/

namespace Lowering.NameSupply

/-- A supply with the names that it has handed out, the latest first. -/
structure Recorded (σ : Type) where
  supply : σ
  log : List String

instance {σ : Type} [NameSupply σ] : NameSupply (Recorded σ) where
  allocate hint span r :=
    let (name, supply) := allocate hint span r.supply
    (name, ⟨supply, name :: r.log⟩)

/-- No name in the record is there twice, and none of them is one of `reserved`. -/
structure Recorded.Fresh (reserved : List String) (r : Recorded Names) : Prop where
  nodup : r.log.Nodup
  apart : ∀ name ∈ r.log, name ∉ reserved
  log_taken : r.log ⊆ r.supply.taken
  reserved_taken : reserved ⊆ r.supply.taken

theorem Recorded.Fresh.allocate {reserved : List String} {r : Recorded Names} (h : r.Fresh reserved)
    (hint : String) (span : Span) : (NameSupply.allocate hint span r).2.Fresh reserved := by
  obtain ⟨hfresh, hself, hmore⟩ := r.supply.allocate_fresh hint
  refine ⟨?_, ?_, ?_, fun x hx => hmore (h.reserved_taken hx)⟩
  · exact List.nodup_cons.mpr ⟨fun hlog => hfresh (h.log_taken hlog), h.nodup⟩
  · exact List.forall_mem_cons.mpr ⟨fun hres => hfresh (h.reserved_taken hres), h.apart⟩
  · exact List.cons_subset.mpr ⟨hself, fun x hx => hmore (h.log_taken hx)⟩

end Lowering.NameSupply
