import Mathlib.Data.List.Forall2
import Lowering.Json.Decode
import Lowering.Proofs.Json.Layouts

/-!
# Decoding what was encoded

`Decodes dec j a` says that the decoder `dec` gets `a` from the value `j` wherever there are enough
levels for its arrays and objects, that `j` can be told from its text, and that it is not `null`, so
that it can stand for something that may be missing. It is shown of a record, a variant or a list from
its parts.
-/

namespace Lowering.Json

/-! ## Depth -/

theorem depthItems_le {items : List Json} {n : Nat} :
    depthItems items ≤ n ↔ ∀ j ∈ items, j.depth ≤ n := by
  induction items with
  | nil => simp [depthItems]
  | cons j js ih => rw [depthItems, Nat.max_le, ih, List.forall_mem_cons]

theorem depthFields_le {fields : List (String × Json)} {n : Nat} :
    depthFields fields ≤ n ↔ ∀ f ∈ fields, f.2.depth ≤ n := by
  induction fields with
  | nil => simp [depthFields]
  | cons f fs ih => rw [depthFields, Nat.max_le, ih, List.forall_mem_cons]

/-- What an array holds has one level less. -/
theorem depth_arr_le {items : List Json} {d : Nat} :
    (Json.arr items).depth ≤ d ↔ ∃ n, d = n + 1 ∧ ∀ j ∈ items, j.depth ≤ n := by
  rw [depth]
  constructor
  · intro h
    exact ⟨d - 1, by omega, depthItems_le.mp (by omega)⟩
  · rintro ⟨n, rfl, h⟩
    exact Nat.add_le_add_right (depthItems_le.mpr h) 1

/-- What an object holds has one level less. -/
theorem depth_obj_le {fields : List (String × Json)} {d : Nat} :
    (Json.obj fields).depth ≤ d ↔ ∃ n, d = n + 1 ∧ ∀ f ∈ fields, f.2.depth ≤ n := by
  rw [depth]
  constructor
  · intro h
    exact ⟨d - 1, by omega, depthFields_le.mp (by omega)⟩
  · rintro ⟨n, rfl, h⟩
    exact Nat.add_le_add_right (depthFields_le.mpr h) 1

/-! ## The judgement -/

/-- The decoder gets `a` from `j`, if there are enough levels. -/
structure Decodes {α : Type} (dec : Nat → Json → Option α) (j : Json) (a : α) : Prop where
  plain : j.Plain
  notNull : j.isNull = false
  decode : ∀ d, j.depth ≤ d → dec d j = some a

namespace Decodes

variable {α : Type} {dec : Nat → Json → Option α} {a : α}

/-- A value without parts. -/
theorem atom {j : Json} (hplain : j.Plain) (hnull : j.isNull = false) (hdec : ∀ d, dec d j = some a) :
    Decodes dec j a :=
  ⟨hplain, hnull, fun d _ => hdec d⟩

/-- A record. -/
theorem record {fields : List (String × Json)} (hplain : ∀ f ∈ fields, f.2.Plain)
    (hdec : ∀ n, (∀ f ∈ fields, f.2.depth ≤ n) → dec (n + 1) (.obj fields) = some a) :
    Decodes dec (.obj fields) a where
  plain := plain_obj.mpr hplain
  notNull := rfl
  decode d hd := by
    obtain ⟨n, rfl, hn⟩ := depth_obj_le.mp hd
    exact hdec n hn

/-- A tag with a content. -/
theorem tagged {tag : String} {content : Json} (hplain : content.Plain)
    (hdec : ∀ n, content.depth ≤ n → dec (n + 1) (.tagged tag content) = some a) :
    Decodes dec (.tagged tag content) a :=
  .record (List.forall_mem_singleton.mpr hplain) fun n hn => hdec n (hn _ (List.mem_singleton.mpr rfl))

/-- A tag with a record. -/
theorem variant {tag : String} {fields : List (String × Json)} (hplain : ∀ f ∈ fields, f.2.Plain)
    (hdec : ∀ n, (∀ f ∈ fields, f.2.depth ≤ n) → dec (n + 2) (.variant tag fields) = some a) :
    Decodes dec (.variant tag fields) a := by
  refine .tagged (plain_obj.mpr hplain) fun n hn => ?_
  obtain ⟨k, rfl, hk⟩ := depth_obj_le.mp hn
  exact hdec k hk

end Decodes

/-! ## Values without parts -/

@[simp] theorem string?_str (s : String) : (Json.str s).string? = some s := rfl

@[simp] theorem bool?_bool (b : Bool) : (Json.bool b).bool? = some b := rfl

@[simp] theorem int64?_toInt (n : Int64) : (Json.int n.toInt).int64? = some n := by
  have hle := Int64.toInt_le n
  have hge := Int64.le_toInt n
  have hmax : Int64.maxValue.toInt = 9223372036854775807 := rfl
  rw [int64?, Word.int64?, if_pos (by omega), Int64.ofInt_toInt]

@[simp] theorem uint32?_toNat (n : UInt32) : (Json.nat n.toNat).uint32? = some n := by
  have hlt := UInt32.toNat_lt n
  rw [Json.nat, uint32?, Word.uint32?, if_pos (by omega), Int.toNat_natCast, UInt32.ofNat_toNat]

/-! ## Lists and options -/

section Parts

variable {α β : Type} {dec : Nat → Json → Option α} {enc : α → Json}

theorem mapM_map_eq_some {f : β → Option α} {g : α → β} {as : List α} (h : ∀ a ∈ as, f (g a) = some a) :
    (as.map g).mapM f = some as := by
  induction as with
  | nil => rfl
  | cons a as ih =>
    rw [List.forall_mem_cons] at h
    rw [List.map_cons, List.mapM_cons, h.1, ih h.2]
    rfl

/-- Items that can be decoded, one after the other. -/
theorem Decodes.mapM {as : List α} {js : List Json}
    (h : List.Forall₂ (fun a j => Decodes dec j a) as js) {n : Nat} (hn : ∀ j ∈ js, j.depth ≤ n) :
    js.mapM (dec n) = some as := by
  induction h with
  | nil => rfl
  | cons ha _ ih =>
    rw [List.forall_mem_cons] at hn
    rw [List.mapM_cons, ha.decode n hn.1, ih hn.2]
    rfl

/-- An array, each item of which can be decoded. -/
theorem Decodes.arr {as : List α} {js : List Json}
    (h : List.Forall₂ (fun a j => Decodes dec j a) as js) :
    Decodes (fun d => list? d (dec (d - 1))) (.arr js) as where
  plain := by
    rw [plain_arr]
    induction h with
    | nil =>
      intro j hj
      cases hj
    | cons ha _ ih => exact List.forall_mem_cons.mpr ⟨ha.plain, ih⟩
  notNull := rfl
  decode d hd := by
    obtain ⟨n, rfl, hn⟩ := depth_arr_le.mp hd
    rw [list?, if_neg (Nat.succ_ne_zero n)]
    exact Decodes.mapM h hn

/-- A list of values that can be decoded. -/
theorem Decodes.list {as : List α} (h : ∀ a ∈ as, Decodes dec (enc a) a) :
    Decodes (fun d => list? d (dec (d - 1))) (.arr (as.map enc)) as :=
  .arr (List.forall₂_map_right_iff.mpr (List.forall₂_same.mpr h))

theorem Plain.ofOption {o : Option α} (h : ∀ a ∈ o, Decodes dec (enc a) a) :
    (Json.ofOption enc o).Plain := by
  cases o with
  | none => trivial
  | some a => exact (h a rfl).plain

/-- Something that may be missing. -/
theorem option?_ofOption {o : Option α} (h : ∀ a ∈ o, Decodes dec (enc a) a) {d : Nat}
    (hd : (Json.ofOption enc o).depth ≤ d) : option? (dec d) (Json.ofOption enc o) = some o := by
  cases o with
  | none => rfl
  | some a =>
    have ha := h a rfl
    have hnull := ha.notNull
    have hdec : dec d (enc a) = some a := ha.decode d hd
    rw [Json.ofOption]
    unfold option?
    split
    · next heq =>
      rw [heq] at hnull
      cases hnull
    · rw [hdec, Option.map_some]

end Parts

/-! ## Fields -/

namespace Fields

variable {k name : String} {j : Json} {fs : List (String × Json)} {p : Bool}

@[simp] theorem get?_cons :
    (Fields.mk ((k, j) :: fs) p).get? name = if name = k then some j else (Fields.mk fs p).get? name := by
  unfold Fields.get?
  by_cases h : name = k
  · rw [if_pos h, h]
    exact List.lookup_cons_self
  · rw [if_neg h, List.lookup_cons, beq_eq_false_iff_ne.mpr h]

end Fields

theorem distinctNames_iff {fields : List (String × Json)} :
    distinctNames fields = true ↔ (fields.map Prod.fst).Nodup := by
  induction fields with
  | nil => simp [distinctNames]
  | cons f fs ih =>
    have hfirst : (fs.any fun g => g.1 == f.1) = true ↔ f.1 ∈ fs.map Prod.fst := by
      rw [List.any_eq_true, List.mem_map]
      simp only [beq_iff_eq]
    rw [distinctNames, Bool.and_eq_true, ih, List.map_cons, List.nodup_cons, ← hfirst, Bool.not_eq_true',
      Bool.not_eq_true]

/-- A record has the fields that it was made of. -/
theorem fields?_obj {n : Nat} {names : List String} {fields : List (String × Json)}
    (hnames : names = fields.map Prod.fst) (hnodup : names.Nodup) :
    fields? (n + 1) names (.obj fields) = some ⟨fields, false⟩ := by
  have hknown : (fields.filter fun f => names.contains f.1) = fields := by
    rw [List.filter_eq_self]
    intro f hf
    rw [List.contains_iff_mem, hnames]
    exact List.mem_map_of_mem hf
  rw [hnames, ← distinctNames_iff] at hnodup
  rw [fields?, if_neg (Nat.succ_ne_zero n)]
  dsimp only
  rw [hknown, if_pos hnodup]

/-- Decoding a record goes on with the fields that it was made of. -/
theorem fields?_bind {α : Type} {n : Nat} {names : List String} {fields : List (String × Json)}
    {k : Fields → Option α} {a : α} (hnames : names = fields.map Prod.fst) (hnodup : names.Nodup)
    (h : k ⟨fields, false⟩ = some a) : (fields? (n + 1) names (.obj fields) >>= k) = some a := by
  rw [fields?_obj hnames hnodup]
  exact h

end Lowering.Json
