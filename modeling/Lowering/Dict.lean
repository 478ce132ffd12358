/-!
# Dictionaries with text keys

A dictionary is a list of entries in strictly ascending order of their keys, so a key occurs at
most once and two dictionaries with the same look-ups are the same list (`Dict.ext_get?`). The
order of the keys is the order in which a dictionary is written.

* `get?` — the value at a key
* `insert` — puts a value at a key, in place of the one that was there
* `ofList` — inserts from left to right, so of two entries with one key the later stays
-/

namespace Lowering

/-- Entries in strictly ascending order of their keys. -/
structure Dict (α : Type) where
  entries : List (String × α)
  sorted : entries.Pairwise (fun a b => a.1 < b.1)
deriving DecidableEq, Repr

namespace Dict

variable {α : Type}

/-- No entries. -/
def empty : Dict α := ⟨[], .nil⟩

instance : Inhabited (Dict α) := ⟨empty⟩

def isEmpty (d : Dict α) : Bool := d.entries.isEmpty

/-! ## Entries -/

/-- Puts an entry where its key belongs. -/
def insertEntry (k : String) (v : α) : List (String × α) → List (String × α)
  | [] => [(k, v)]
  | (k', v') :: rest =>
    if k < k' then (k, v) :: (k', v') :: rest
    else if k = k' then (k, v) :: rest
    else (k', v') :: insertEntry k v rest

/-- Inserting brings in one entry and no other. -/
theorem mem_insertEntry {k : String} {v : α} {e : String × α} {l : List (String × α)}
    (h : e ∈ insertEntry k v l) : e = (k, v) ∨ e ∈ l := by
  induction l with
  | nil => simpa [insertEntry] using h
  | cons x rest ih =>
    simp only [insertEntry] at h
    split at h
    · simpa using h
    · split at h
      · rcases List.mem_cons.mp h with h | h
        · exact .inl h
        · exact .inr (List.mem_cons_of_mem _ h)
      · rcases List.mem_cons.mp h with h | h
        · exact .inr (by simp [h])
        · exact (ih h).imp_right (List.mem_cons_of_mem _)

/-- Entries stay sorted by their keys. -/
theorem sorted_insertEntry (k : String) (v : α) {l : List (String × α)}
    (h : l.Pairwise (fun a b => a.1 < b.1)) :
    (insertEntry k v l).Pairwise (fun a b => a.1 < b.1) := by
  induction l with
  | nil => simp [insertEntry]
  | cons x rest ih =>
    obtain ⟨hx, hrest⟩ := List.pairwise_cons.mp h
    simp only [insertEntry]
    split
    · next hlt =>
      refine List.pairwise_cons.mpr ⟨fun e he => ?_, h⟩
      rcases List.mem_cons.mp he with rfl | he
      · exact hlt
      · exact String.lt_trans hlt (hx e he)
    · next hge =>
      split
      · next heq => exact List.pairwise_cons.mpr ⟨fun e he => heq ▸ hx e he, hrest⟩
      · next hne =>
        refine List.pairwise_cons.mpr ⟨fun e he => ?_, ih hrest⟩
        rcases mem_insertEntry he with rfl | he
        · rcases Std.lt_trichotomy k x.1 with h | h | h
          · exact absurd h hge
          · exact absurd h hne
          · exact h
        · exact hx e he

theorem lookup_cons_ite (q : String) (e : String × α) (l : List (String × α)) :
    (e :: l).lookup q = if q = e.1 then some e.2 else l.lookup q := by
  rw [List.lookup_cons]
  by_cases h : q = e.1
  · rw [if_pos h, beq_iff_eq.mpr h]
  · rw [if_neg h, beq_eq_false_iff_ne.mpr h]

/-- Only the key that is inserted is found anew. -/
theorem lookup_insertEntry (k q : String) (v : α) (l : List (String × α)) :
    (insertEntry k v l).lookup q = if q = k then some v else l.lookup q := by
  induction l with
  | nil => rw [insertEntry, lookup_cons_ite]
  | cons x rest ih =>
    simp only [insertEntry]
    split
    · rw [lookup_cons_ite]
    · split
      · next heq =>
        simp only [lookup_cons_ite, heq]
        split <;> simp_all
      · next hne =>
        simp only [lookup_cons_ite, ih]
        split
        · next hq => simp [hq, Ne.symm hne]
        · rfl

/-- Where no key occurs twice, the entries are the look-ups that give something. -/
theorem lookup_eq_some {l : List (String × α)} (hl : (l.map Prod.fst).Nodup) {k : String} {v : α} :
    l.lookup k = some v ↔ (k, v) ∈ l := by
  induction l with
  | nil => simp
  | cons e rest ih =>
    obtain ⟨he, hrest⟩ := List.nodup_cons.mp hl
    rw [lookup_cons_ite, List.mem_cons]
    by_cases hk : k = e.1
    · rw [if_pos hk, Option.some.injEq]
      constructor
      · rintro rfl
        exact .inl (Prod.ext hk rfl)
      · rintro (h | h)
        · rw [← h]
        -- the key would be there a second time
        · exact absurd (List.mem_map_of_mem h) (show k ∉ _ from hk ▸ he)
    · rw [if_neg hk, ih hrest]
      constructor
      · exact .inr
      · rintro (h | h)
        · exact absurd (congrArg Prod.fst h) hk
        · exact h

/-- Where no key occurs twice, the order of the entries does not matter for look-ups. -/
theorem lookup_perm {l l' : List (String × α)} (h : l.Perm l') (hl : (l.map Prod.fst).Nodup)
    (k : String) : l.lookup k = l'.lookup k := by
  have hl' : (l'.map Prod.fst).Nodup := (h.map Prod.fst).nodup hl
  refine Option.ext fun v => ?_
  rw [lookup_eq_some hl, lookup_eq_some hl', h.mem_iff]

/-! ## Look-up and insertion -/

/-- The value at a key. -/
def get? (d : Dict α) (k : String) : Option α := d.entries.lookup k

def contains (d : Dict α) (k : String) : Bool := (d.get? k).isSome

/-- Puts a value at a key, in place of the one that was there. -/
def insert (d : Dict α) (k : String) (v : α) : Dict α :=
  ⟨insertEntry k v d.entries, sorted_insertEntry k v d.sorted⟩

/-- Inserts from left to right: of two entries with one key the later stays. -/
def ofList (l : List (String × α)) : Dict α := l.foldl (fun d e => d.insert e.1 e.2) empty

/-- The entries, keys ascending. -/
def toList (d : Dict α) : List (String × α) := d.entries

@[simp] theorem get?_empty (k : String) : (empty : Dict α).get? k = none := rfl

/-- What is found after an insertion. -/
theorem get?_insert (d : Dict α) (k q : String) (v : α) :
    (d.insert k v).get? q = if q = k then some v else d.get? q :=
  lookup_insertEntry k q v d.entries

@[simp] theorem get?_insert_self (d : Dict α) (k : String) (v : α) :
    (d.insert k v).get? k = some v := by
  simp [get?_insert]

theorem get?_insert_ne (d : Dict α) {k q : String} (v : α) (h : q ≠ k) :
    (d.insert k v).get? q = d.get? q := by
  simp [get?_insert, h]

/-! ## Extensionality -/

/-- Sorted keys are all different. -/
theorem nodup_keys (d : Dict α) : (d.entries.map Prod.fst).Nodup := by
  refine List.pairwise_map.mpr (d.sorted.imp fun {a b} hlt heq => ?_)
  rw [heq] at hlt
  exact String.lt_irrefl b.1 hlt

theorem nodup_entries (d : Dict α) : d.entries.Nodup :=
  List.Pairwise.of_map Prod.fst (fun _ _ hne heq => hne (congrArg Prod.fst heq)) d.nodup_keys

/-- What is found are the entries. -/
theorem get?_eq_some {d : Dict α} {k : String} {v : α} : d.get? k = some v ↔ (k, v) ∈ d.entries :=
  lookup_eq_some d.nodup_keys

/-- A dictionary is its look-ups. -/
theorem ext_get? {d d' : Dict α} (h : ∀ k, d.get? k = d'.get? k) : d = d' := by
  have hmem : ∀ e, e ∈ d.entries ↔ e ∈ d'.entries := by
    intro e
    rw [← get?_eq_some, ← get?_eq_some, h]
  have hperm := (List.perm_ext_iff_of_nodup d.nodup_entries d'.nodup_entries).mpr hmem
  -- both are in ascending order, so the same entries are the same list
  have hentries : d.entries = d'.entries :=
    hperm.eq_of_pairwise (fun a b _ _ hab hba => absurd hba (String.lt_asymm hab)) d.sorted d'.sorted
  cases d
  cases d'
  cases hentries
  rfl

/-! ## Dictionaries from entries -/

/-- Entries with keys of their own come before what was there. -/
theorem get?_foldl_insert {l : List (String × α)} (hl : (l.map Prod.fst).Nodup) (d : Dict α)
    (q : String) :
    (l.foldl (fun d e => d.insert e.1 e.2) d).get? q = (l.lookup q).or (d.get? q) := by
  induction l generalizing d with
  | nil => rfl
  | cons e rest ih =>
    obtain ⟨he, hrest⟩ := List.nodup_cons.mp hl
    rw [List.foldl_cons, ih hrest, get?_insert, lookup_cons_ite]
    by_cases hq : q = e.1
    · have hnone : rest.lookup q = none := by
        rw [List.lookup_eq_none_iff]
        exact fun p hp => bne_iff_ne.mpr fun h => he (hq ▸ h ▸ List.mem_map_of_mem hp)
      rw [if_pos hq, if_pos hq, hnone]
      rfl
    · rw [if_neg hq, if_neg hq]

/-- **A dictionary can be built from its entries, in whatever order they come.** -/
theorem ofList_of_perm {l : List (String × α)} {d : Dict α} (h : l.Perm d.toList) : ofList l = d := by
  have hl : (l.map Prod.fst).Nodup := (h.map Prod.fst).symm.nodup d.nodup_keys
  refine ext_get? fun q => ?_
  rw [ofList, get?_foldl_insert hl, get?_empty, Option.or_none]
  exact lookup_perm h hl q

end Dict

end Lowering
