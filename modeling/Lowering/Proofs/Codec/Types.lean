import Lowering.Codec.Types
import Lowering.Proofs.Json.Decodes

/-!
# Types and spans out of JSON

Decoding a span, a type or a signature gets back what was encoded.
-/

namespace Lowering

open Json (Decodes fields?_bind list?)

/-- A span is written as an object and read back with the same file and ends. -/
theorem Span.decodes (s : Span) : Decodes Span.decode s.encode s := by
  refine .record (by simp) fun n _ => ?_
  refine fields?_bind rfl (by decide) ?_
  simp [Json.Fields.required]

/-! ## Source types -/

/-- The owner of a formal is told apart by the one key of its object. -/
theorem FormalOwner.decodes (o : FormalOwner) : Decodes FormalOwner.decode o.encode o := by
  cases o with
  | type name => exact .tagged trivial fun _ _ => rfl
  | method name => exact .tagged trivial fun _ _ => rfl

theorem Formal.decodes (f : Formal) : Decodes Formal.decode f.encode f := by
  have howner := f.owner.decodes
  refine .record (by simp [howner.plain]) fun n hn => ?_
  simp only [List.forall_mem_cons] at hn
  refine fields?_bind rfl (by decide) ?_
  simp [Json.Fields.required, howner.decode n hn.2.1]

/-- Writing the arguments of a type one by one is writing a list. -/
theorem Ty.encodeAll_eq_map (ts : List Ty) : Ty.encodeAll ts = ts.map Ty.encode := by
  induction ts with
  | nil => rfl
  | cons t ts ih => rw [Ty.encodeAll, ih, List.map_cons]

mutual

/-- **A source type is read back from what is written of it**, at any depth of its arguments. -/
theorem Ty.decodes (t : Ty) : Decodes Ty.decode t.encode t := by
  cases t with
  | void | bool | int | float | string | any =>
    refine .atom trivial rfl fun d => ?_
    rw [Ty.encode, Ty.decode]
    rfl
  | named name =>
    refine .tagged trivial fun n _ => ?_
    rw [Json.tagged, Ty.decode]
    rfl
  | param f =>
    refine .tagged f.decodes.plain fun n hn => ?_
    rw [Json.tagged, Ty.decode, f.decodes.decode n hn]
    rfl
  | generic base args =>
    have hargs := Decodes.list (Ty.decodesAll args)
    rw [← Ty.encodeAll_eq_map] at hargs
    refine .variant (by simp [hargs.plain]) fun n hn => ?_
    simp only [List.forall_mem_cons] at hn
    rw [Json.variant, Ty.decode]
    refine fields?_bind rfl (by decide) ?_
    simp [Json.Fields.required, hargs.decode n hn.2.1]
  | array t | nullable t =>
    have ht := Ty.decodes t
    refine .tagged ht.plain fun n hn => ?_
    rw [Json.tagged, Ty.decode, ht.decode n hn]
    rfl

theorem Ty.decodesAll (ts : List Ty) : ∀ t ∈ ts, Decodes Ty.decode t.encode t := by
  cases ts with
  | nil => exact List.forall_mem_nil _
  | cons t ts => exact List.forall_mem_cons.mpr ⟨Ty.decodes t, Ty.decodesAll ts⟩

end

/-- A passed type keeps whether it is nullable, which its type alone does not say. -/
theorem PassType.decodes (p : PassType) : Decodes PassType.decode p.encode p := by
  have hty := p.ty.decodes
  refine .record (by simp [hty.plain]) fun n hn => ?_
  simp only [List.forall_mem_cons] at hn
  refine fields?_bind rfl (by decide) ?_
  simp [Json.Fields.required, hty.decode n hn.1]

theorem Signature.decodes (s : Signature) : Decodes Signature.decode s.encode s := by
  have hparams := Decodes.list fun p (_ : p ∈ s.params) => p.decodes
  have hret := s.ret.decodes
  refine .record (by simp [hparams.plain, hret.plain]) fun n hn => ?_
  simp only [List.forall_mem_cons] at hn
  refine fields?_bind rfl (by decide) ?_
  simp [Json.Fields.required, hparams.decode n hn.1, hret.decode n hn.2.1]

/-! ## Target types -/

theorem TargetType.encodeAll_eq_map (ts : List TargetType) :
    TargetType.encodeAll ts = ts.map TargetType.encode := by
  induction ts with
  | nil => rfl
  | cons t ts ih => rw [TargetType.encodeAll, ih, List.map_cons]

mutual

/-- **A target type is read back from what is written of it**, at any depth. -/
theorem TargetType.decodes (t : TargetType) : Decodes TargetType.decode t.encode t := by
  cases t with
  | void | bool | int | float | string | object =>
    refine .atom trivial rfl fun d => ?_
    rw [TargetType.encode, TargetType.decode]
    rfl
  | named name | param name =>
    refine .tagged trivial fun n _ => ?_
    rw [Json.tagged, TargetType.decode]
    rfl
  | generic base args =>
    have hargs := Decodes.list (TargetType.decodesAll args)
    rw [← TargetType.encodeAll_eq_map] at hargs
    refine .variant (by simp [hargs.plain]) fun n hn => ?_
    simp only [List.forall_mem_cons] at hn
    rw [Json.variant, TargetType.decode]
    refine fields?_bind rfl (by decide) ?_
    simp [Json.Fields.required, hargs.decode n hn.2.1]
  | array t | nullable t | optional t =>
    have ht := TargetType.decodes t
    refine .tagged ht.plain fun n hn => ?_
    rw [Json.tagged, TargetType.decode, ht.decode n hn]
    rfl

theorem TargetType.decodesAll (ts : List TargetType) :
    ∀ t ∈ ts, Decodes TargetType.decode t.encode t := by
  cases ts with
  | nil => exact List.forall_mem_nil _
  | cons t ts => exact List.forall_mem_cons.mpr ⟨TargetType.decodes t, TargetType.decodesAll ts⟩

end

end Lowering
