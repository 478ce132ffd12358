import Lowering.Ty

/-!
# Flat types

A type is *flat* if no nullable type stands directly inside a nullable type, at any depth. Not every type
is flat, but what substitution makes of a type is, if the types that are put in are
(`Ty.flat_substitute`): it builds nullable types with `Ty.orNull`. On a flat type the empty substitution
changes nothing (`Ty.substitute_empty`); in others it removes the repeated nullability.
-/

namespace Lowering

mutual

/-- No nullable type stands directly inside a nullable type, at any depth. -/
def Ty.flat : Ty → Bool
  | .nullable t => !(PassType.ofTy t).nullable && t.flat
  | .array t => t.flat
  | .generic _ args => Ty.flatAll args
  | .void | .bool | .int | .float | .string | .any | .named _ | .param _ => true

def Ty.flatAll : List Ty → Bool
  | [] => true
  | t :: ts => t.flat && Ty.flatAll ts

end

/-- Every type of the substitution is flat. -/
def Ty.Substitution.Flat (σ : Ty.Substitution) : Prop := ∀ e ∈ σ.entries, e.2.flat = true

instance (σ : Ty.Substitution) : Decidable σ.Flat :=
  inferInstanceAs (Decidable (∀ e ∈ σ.entries, e.2.flat = true))

/-! ## Outer nullability -/

namespace Ty

theorem orNull_eq_nullable {t : Ty} (h : (PassType.ofTy t).nullable = false) :
    t.orNull = .nullable t := by
  cases t with
  | nullable t => cases h
  | _ => rfl

theorem flat_nullable {t : Ty} :
    (nullable t).flat = true ↔ (PassType.ofTy t).nullable = false ∧ t.flat = true := by
  rw [flat, Bool.and_eq_true, Bool.not_eq_true']

/-- Making a flat type nullable leaves it flat. -/
theorem flat_orNull {t : Ty} (h : t.flat = true) : t.orNull.flat = true := by
  by_cases hn : (PassType.ofTy t).nullable = true
  · cases t with
    | nullable t => exact h
    | _ => cases hn
  · have hn := eq_false_of_ne_true hn
    rw [orNull_eq_nullable hn]
    exact flat_nullable.mpr ⟨hn, h⟩

/-- Without its outer nullability a flat type is flat and not nullable. -/
theorem flat_ofTy {t : Ty} (h : t.flat = true) :
    (PassType.ofTy t).ty.flat = true ∧ (PassType.ofTy (PassType.ofTy t).ty).nullable = false := by
  cases t with
  | nullable t => exact (flat_nullable.mp h).symm
  | _ => exact ⟨h, rfl⟩

end Ty

theorem PassType.ofTy_eq {t : Ty} (h : (ofTy t).nullable = false) : ofTy t = ⟨t, false⟩ := by
  cases t with
  | nullable t => cases h
  | _ => rfl

/-! ## Substitution -/

theorem Ty.Substitution.Flat.get? {σ : Ty.Substitution} (hσ : σ.Flat) {k : String} {t : Ty}
    (h : σ.get? k = some t) : t.flat = true :=
  hσ (k, t) (Dict.get?_eq_some.mp h)

mutual

/-- **Substitution makes types flat.** -/
theorem Ty.flat_substitute {σ : Ty.Substitution} (hσ : σ.Flat) (t : Ty) :
    (t.substitute σ).flat = true := by
  cases t with
  | param f =>
    rw [Ty.substitute]
    cases h : σ.get? f.qualified with
    | none => rw [Option.getD_none, Ty.flat]
    | some t => exact hσ.get? h
  | array t =>
    rw [Ty.substitute, Ty.flat]
    exact Ty.flat_substitute hσ t
  | nullable t =>
    rw [Ty.substitute]
    exact Ty.flat_orNull (Ty.flat_substitute hσ t)
  | generic base args =>
    rw [Ty.substitute, Ty.flat]
    exact Ty.flatAll_substituteAll hσ args
  | _ => rw [Ty.substitute, Ty.flat]

theorem Ty.flatAll_substituteAll {σ : Ty.Substitution} (hσ : σ.Flat) (ts : List Ty) :
    Ty.flatAll (Ty.substituteAll σ ts) = true := by
  cases ts with
  | nil => rw [Ty.substituteAll, Ty.flatAll]
  | cons t ts =>
    rw [Ty.substituteAll, Ty.flatAll, Ty.flat_substitute hσ t, Ty.flatAll_substituteAll hσ ts]
    rfl

end

mutual

/-- A flat type without anything to put in stays as it is. -/
theorem Ty.substitute_empty {t : Ty} (h : t.flat = true) : t.substitute .empty = t := by
  cases t with
  | param f => rw [Ty.substitute, Dict.get?_empty, Option.getD_none]
  | array t =>
    rw [Ty.flat] at h
    rw [Ty.substitute, Ty.substitute_empty h]
  | nullable t =>
    obtain ⟨hn, ht⟩ := Ty.flat_nullable.mp h
    rw [Ty.substitute, Ty.substitute_empty ht, Ty.orNull_eq_nullable hn]
  | generic base args =>
    rw [Ty.flat] at h
    rw [Ty.substitute, Ty.substituteAll_empty h]
  | _ => rw [Ty.substitute]

theorem Ty.substituteAll_empty {ts : List Ty} (h : Ty.flatAll ts = true) :
    Ty.substituteAll .empty ts = ts := by
  cases ts with
  | nil => rw [Ty.substituteAll]
  | cons t ts =>
    rw [Ty.flatAll, Bool.and_eq_true] at h
    rw [Ty.substituteAll, Ty.substitute_empty h.1, Ty.substituteAll_empty h.2]

end

/-- What a substitution makes of a pass-type is flat, with no nullability left in the type. -/
theorem PassType.flat_substitute {σ : Ty.Substitution} (hσ : σ.Flat) (p : PassType) :
    (p.substitute σ).ty.flat = true ∧ (ofTy (p.substitute σ).ty).nullable = false :=
  Ty.flat_ofTy (Ty.flat_substitute hσ p.ty)

/-- **A pass-type that has been resolved stays as it is.** -/
theorem PassType.substitute_empty_substitute {σ : Ty.Substitution} (hσ : σ.Flat) (p : PassType) :
    (p.substitute σ).substitute .empty = p.substitute σ := by
  obtain ⟨hflat, hn⟩ := flat_substitute hσ p
  generalize p.substitute σ = q at hflat hn
  rw [substitute, Ty.substitute_empty hflat, ofTy_eq hn, Bool.or_false]

end Lowering
