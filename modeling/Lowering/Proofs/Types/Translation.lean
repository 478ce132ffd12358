import Lowering.Bridge
import Lowering.Proofs.Types.Composition

/-!
# Pass-types, types and target types in step

Nullability is held in two places, in the flag of a pass-type and in nullable types, and three functions
bring the two together: `PassType.toTy`, `PassType.substitute` and `PassType.toTarget`.

* Substituting in a pass-type is substituting in the type that it stands for
  (`PassType.toTy_substitute`), and leaves no nullability in the type beside the flag.
* For a pass-type in that form the representation, which is read from the pass-type, is a wrapper
  exactly if the target type is (`PassType.isWrapper_toTarget`).
* Whatever the pass-type, its target type has native nullable forms of value types only and wrappers of
  formals only (`PassType.fits_toTarget`).
-/

namespace Lowering

/-! ## Pass-types and types -/

namespace PassType

theorem nullable_ofTy {t : Ty} : (ofTy t).nullable = false ↔ ∀ u, t ≠ .nullable u := by
  cases t with
  | nullable t =>
    constructor
    · intro h
      cases h
    · intro h
      exact absurd rfl (h t)
  | _ =>
    constructor
    · intro _ u h
      cases h
    · intro _
      rfl

/-- Splitting off the nullability of a flat type and putting it back gives the type. -/
theorem toTy_ofTy {t : Ty} (h : t.flat = true) : (ofTy t).toTy = t := by
  cases t with
  | nullable t =>
    show t.orNull = .nullable t
    exact Ty.orNull_eq_nullable (Ty.flat_nullable.mp h).1
  | _ => rfl

/-- In the nullable form of a flat type it does not matter whether the type was nullable before. -/
theorem orNull_ty_ofTy {t : Ty} (h : t.flat = true) : (ofTy t).ty.orNull = t.orNull := by
  cases t with
  | nullable t => exact Ty.orNull_eq_nullable (Ty.flat_nullable.mp h).1
  | _ => rfl

/-- **Substitution in a pass-type is substitution in its type.** -/
theorem toTy_substitute {σ : Ty.Substitution} (hσ : σ.Flat) (p : PassType) :
    (p.substitute σ).toTy = p.toTy.substitute σ := by
  obtain ⟨t, n⟩ := p
  have hflat : (t.substitute σ).flat = true := Ty.flat_substitute hσ t
  cases n with
  | false => exact toTy_ofTy hflat
  | true =>
    calc (substitute σ ⟨t, true⟩).toTy
        = (ofTy (t.substitute σ)).ty.orNull := rfl
      _ = (t.substitute σ).orNull := orNull_ty_ofTy hflat
      _ = t.orNull.substitute σ := (Ty.substitute_orNull σ t).symm

/-! ## Representations -/

/-- Without nullability in its type, a pass-type becomes a wrapper exactly if it is a nullable formal. -/
theorem isWrapper_toTarget {p : PassType} (h : ∀ t, p.ty ≠ .nullable t) :
    p.toTarget.isWrapper = p.isOptionalFormal := by
  obtain ⟨t, n⟩ := p
  cases t with
  | nullable t => exact absurd rfl (h t)
  | _ => cases n <;> rfl

theorem representation_eq_wrapper {p : PassType} (h : ∀ t, p.ty ≠ .nullable t) :
    Representation.of p = .wrapper ↔ p.toTarget.isWrapper = true := by
  rw [isWrapper_toTarget h, Representation.of]
  cases p.isOptionalFormal with
  | false =>
    constructor <;> intro h <;> cases h
  | true => exact ⟨fun _ => rfl, fun _ => rfl⟩

end PassType

/-! ## Target types -/

mutual

/-- The type and all types inside it. -/
def TargetType.parts : TargetType → List TargetType
  | .void => [.void]
  | .bool => [.bool]
  | .int => [.int]
  | .float => [.float]
  | .string => [.string]
  | .object => [.object]
  | .named n => [.named n]
  | .param n => [.param n]
  | .generic base args => .generic base args :: TargetType.partsAll args
  | .array t => .array t :: t.parts
  | .nullable t => .nullable t :: t.parts
  | .optional t => .optional t :: t.parts

def TargetType.partsAll : List TargetType → List TargetType
  | [] => []
  | t :: ts => t.parts ++ TargetType.partsAll ts

end

/-- A native nullable form is that of a value type, and a wrapper holds a formal. -/
def TargetType.Fits : TargetType → Prop
  | .nullable t => t = .bool ∨ t = .int ∨ t = .float
  | .optional t => ∃ name, t = .param name
  | .void | .bool | .int | .float | .string | .object | .named _ | .param _ | .generic .. | .array _ =>
    True

theorem Ty.fits_toTargetNullable {t : Ty} (h : ∀ part ∈ t.toTarget.parts, part.Fits) :
    ∀ part ∈ (t.toTargetNullable t.toTarget).parts, part.Fits := by
  cases t with
  | param f => exact List.forall_mem_cons.mpr ⟨⟨f.name, rfl⟩, h⟩
  | bool => exact List.forall_mem_cons.mpr ⟨.inl rfl, h⟩
  | int => exact List.forall_mem_cons.mpr ⟨.inr (.inl rfl), h⟩
  | float => exact List.forall_mem_cons.mpr ⟨.inr (.inr rfl), h⟩
  | _ => exact h

mutual

theorem Ty.fits_toTarget (t : Ty) : ∀ part ∈ t.toTarget.parts, part.Fits := by
  cases t with
  | generic base args =>
    rw [Ty.toTarget, TargetType.parts]
    exact List.forall_mem_cons.mpr ⟨trivial, Ty.fits_toTargetAll args⟩
  | array t =>
    rw [Ty.toTarget, TargetType.parts]
    exact List.forall_mem_cons.mpr ⟨trivial, Ty.fits_toTarget t⟩
  | nullable t =>
    rw [Ty.toTarget]
    exact Ty.fits_toTargetNullable (Ty.fits_toTarget t)
  | _ =>
    rw [Ty.toTarget, TargetType.parts]
    exact List.forall_mem_singleton.mpr trivial

theorem Ty.fits_toTargetAll (ts : List Ty) :
    ∀ part ∈ TargetType.partsAll (Ty.toTargetAll ts), part.Fits := by
  cases ts with
  | nil =>
    rw [Ty.toTargetAll, TargetType.partsAll]
    exact List.forall_mem_nil _
  | cons t ts =>
    rw [Ty.toTargetAll, TargetType.partsAll]
    exact List.forall_mem_append.mpr ⟨Ty.fits_toTarget t, Ty.fits_toTargetAll ts⟩

end

theorem PassType.fits_toTarget (p : PassType) : ∀ part ∈ p.toTarget.parts, part.Fits := by
  unfold toTarget
  split
  · exact Ty.fits_toTargetNullable (Ty.fits_toTarget p.ty)
  · exact Ty.fits_toTarget p.ty

/-- **Pass-types stay in step.** Substituting flat types in a pass-type gives the pass-type of the
substituted type, with all its outer nullability in the flag, and the representation that is chosen for it
is a wrapper exactly if its target type is. In the target type of any pass-type every native nullable form
is that of a value type, and every wrapper holds a formal. -/
theorem PassType.substitute_in_step (p : PassType) :
    (∀ σ : Ty.Substitution, σ.Flat →
      (p.substitute σ).toTy = p.toTy.substitute σ ∧
        (∀ t, (p.substitute σ).ty ≠ .nullable t) ∧
        (Representation.of (p.substitute σ) = .wrapper ↔ (p.substitute σ).toTarget.isWrapper = true)) ∧
      (∀ t, .nullable t ∈ p.toTarget.parts → t = .bool ∨ t = .int ∨ t = .float) ∧
      ∀ t, .optional t ∈ p.toTarget.parts → ∃ name, t = .param name := by
  refine ⟨fun σ hσ => ?_, fun t ht => p.fits_toTarget _ ht, fun t ht => p.fits_toTarget _ ht⟩
  have hty : ∀ t, (p.substitute σ).ty ≠ .nullable t := nullable_ofTy.mp (flat_substitute hσ p).2
  exact ⟨toTy_substitute hσ p, hty, representation_eq_wrapper hty⟩

/-- `T?` with the flag set as well, where `T` stands for `E?`: one nullability is left, in the flag. -/
theorem PassType.substitute_in_step_store :
    let p : PassType := ⟨.nullable (.param ⟨"T", .type "Store"⟩), true⟩
    let q := p.substitute .storeOfBox
    Ty.Substitution.storeOfBox.Flat ∧ q.toTy = .nullable (.param ⟨"E", .type "Box"⟩) ∧
      (∀ t, q.ty ≠ .nullable t) ∧ Representation.of q = .wrapper ∧
      .optional (.param "E") ∈ q.toTarget.parts := by
  intro p q
  have hflat : Ty.Substitution.storeOfBox.Flat := by decide
  obtain ⟨hstep, -⟩ := p.substitute_in_step
  obtain ⟨hty, hnull, hwrapper⟩ := hstep .storeOfBox hflat
  exact ⟨hflat, hty.trans rfl, hnull, hwrapper.mpr rfl, List.mem_cons_self⟩

-- beside the flag there is no room for nullability: with `E?` as the type the two disagree
example : Representation.of ⟨.nullable (.param ⟨"E", .type "Box"⟩), false⟩ = .native ∧
    (PassType.toTarget ⟨.nullable (.param ⟨"E", .type "Box"⟩), false⟩).isWrapper = true :=
  ⟨rfl, rfl⟩

end Lowering
