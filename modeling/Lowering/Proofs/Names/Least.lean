import Lowering.Proofs.Names
import Lowering.Tree.Declared

/-!
# The name with the least number

A search does not start from 1 but from where the last one for the same hint ended. That it finds the
least free number all the same rests on an invariant (`Names.Exhausted`): every number below the start of
a hint's next search belongs to a name in use. A search keeps it because it passes over names in use only
(`Names.numbered_mem_of_lt_firstFree`). Everything else that puts names in use keeps it because no name is
ever released; so it does no harm that the names of two hints overlap, as `x` with 11 and `x1` with 1.
-/

namespace Lowering.Names

variable {names : Names} {hint name : String} {avoid : List String} {j k : Nat}

/-- The number that the next search for a hint starts from. -/
def start (names : Names) (hint : String) : Nat := (names.next.get? hint).getD 1

/-! ## The search -/

theorem le_firstFree : k ≤ firstFree hint k avoid := by
  fun_induction firstFree hint k avoid with
  | case1 k avoid _ ih => omega
  | case2 k avoid _ => exact Nat.le_refl k

/-- A search passes over names to be avoided only. -/
theorem numbered_mem_of_lt_firstFree (hkj : k ≤ j) (hj : j < firstFree hint k avoid) :
    numbered hint j ∈ avoid := by
  fun_induction firstFree hint k avoid with
  | case1 k avoid hk ih =>
    by_cases heq : j = k
    · exact heq ▸ hk
    · have hlater : k + 1 ≤ j := by omega
      exact List.mem_of_mem_erase (ih hlater hj)
  | case2 k avoid _ => omega

/-- A search meets each name to be avoided at most once. -/
theorem firstFree_le : firstFree hint k avoid ≤ k + avoid.length := by
  fun_induction firstFree hint k avoid with
  | case1 k avoid hk ih =>
    have hlen := List.length_erase_of_mem hk
    have hpos := List.length_pos_of_mem hk
    omega
  | case2 k avoid _ => omega

/-! ## What an operation does -/

theorem isTaken_iff : names.isTaken name = true ↔ name ∈ names.taken := List.contains_iff_mem

theorem allocate_of_free (h : hint ∉ names.taken) :
    names.allocate hint = (hint, names.reserve hint) := by
  unfold allocate
  rw [if_neg fun ht => h (isTaken_iff.mp ht)]

theorem allocate_of_taken (h : hint ∈ names.taken) :
    names.allocate hint =
      (numbered hint (firstFree hint (names.start hint) names.taken),
        ⟨names.taken.insert (numbered hint (firstFree hint (names.start hint) names.taken)),
          names.next.insert hint (firstFree hint (names.start hint) names.taken + 1)⟩) := by
  unfold allocate
  rw [if_pos (isTaken_iff.mpr h)]
  rfl

/-- Handing out a name puts that name in use and no other. -/
theorem mem_taken_allocate :
    name ∈ (names.allocate hint).2.taken ↔ name = (names.allocate hint).1 ∨ name ∈ names.taken := by
  by_cases h : hint ∈ names.taken
  · rw [allocate_of_taken h]
    exact List.mem_insert_iff
  · rw [allocate_of_free h]
    exact List.mem_insert_iff

theorem next_reserveAll (names : Names) (more : List String) :
    (names.reserveAll more).next = names.next := by
  unfold reserveAll
  induction more generalizing names with
  | nil => rfl
  | cons x more ih => exact ih (names.reserve x)

/-! ## The invariant -/

/-- The numbers below the start of a hint's next search are used up. -/
structure Exhausted (names : Names) : Prop where
  one_le : ∀ hint, 1 ≤ names.start hint
  taken : ∀ hint j, 1 ≤ j → j < names.start hint → numbered hint j ∈ names.taken

theorem exhausted_empty : empty.Exhausted where
  one_le _ := Nat.le_refl 1
  taken _ _ hj hlt := absurd hlt (Nat.not_lt.mpr hj)

/-- More names in use do no harm. -/
theorem Exhausted.grow {names' : Names} (h : names.Exhausted) (hnext : names'.next = names.next)
    (htaken : names.taken ⊆ names'.taken) : names'.Exhausted := by
  have hstart : ∀ hint, names'.start hint = names.start hint := fun hint => by
    rw [start, hnext, start]
  refine ⟨fun hint => ?_, fun hint j hj hlt => ?_⟩
  · rw [hstart]
    exact h.one_le hint
  · rw [hstart] at hlt
    exact htaken (h.taken hint j hj hlt)

theorem Exhausted.reserve (h : names.Exhausted) (name : String) : (names.reserve name).Exhausted :=
  h.grow rfl fun _ hx => List.mem_insert_of_mem hx

theorem Exhausted.reserveAll (h : names.Exhausted) (more : List String) :
    (names.reserveAll more).Exhausted :=
  h.grow (next_reserveAll names more) fun _ hx => mem_taken_reserveAll.mpr (.inl hx)

/-- All numbers from 1 up to the one that a search ends at are in use. -/
theorem Exhausted.numbered_mem (h : names.Exhausted) (hj : 1 ≤ j)
    (hlt : j < firstFree hint (names.start hint) names.taken) : numbered hint j ∈ names.taken := by
  by_cases hstart : j < names.start hint
  · exact h.taken hint j hj hstart
  · exact numbered_mem_of_lt_firstFree (Nat.le_of_not_lt hstart) hlt

theorem Exhausted.allocate (h : names.Exhausted) (hint : String) :
    (names.allocate hint).2.Exhausted := by
  by_cases ht : hint ∈ names.taken
  · rw [allocate_of_taken ht]
    -- the numbers of the hint are used up to the one handed out now, those of others as before
    generalize hk : firstFree hint (names.start hint) names.taken = k
    have hstart : ∀ other, start ⟨names.taken.insert (numbered hint k), names.next.insert hint (k + 1)⟩
        other = if other = hint then k + 1 else names.start other := fun other => by
      unfold start
      rw [Dict.get?_insert]
      split <;> rfl
    refine ⟨fun other => ?_, fun other j hj hlt => ?_⟩
    · rw [hstart]
      split
      · exact Nat.le_add_left 1 k
      · exact h.one_le other
    · rw [hstart] at hlt
      refine List.mem_insert_iff.mpr ?_
      by_cases ho : other = hint
      · subst ho
        rw [if_pos rfl] at hlt
        rcases Nat.lt_or_eq_of_le (Nat.le_of_lt_succ hlt) with hlt | rfl
        · exact .inr (h.numbered_mem hj (hk ▸ hlt))
        · exact .inl rfl
      · rw [if_neg ho] at hlt
        exact .inr (h.taken other j hj hlt)
  · rw [allocate_of_free ht]
    exact h.reserve hint

/-! ## Reachable supplies -/

/-- The supplies that come about when names are reserved and handed out, in any order. -/
inductive Reachable : Names → Prop where
  | empty : Reachable .empty
  | reserve {names : Names} (h : Reachable names) (name : String) : Reachable (names.reserve name)
  | reserveBlock {names : Names} (h : Reachable names) (block : Block) :
    Reachable (names.reserveBlock block)
  | reserveMethod {names : Names} (h : Reachable names) (method : Method) :
    Reachable (names.reserveMethod method)
  | allocate {names : Names} (h : Reachable names) (hint : String) :
    Reachable (names.allocate hint).2

theorem Reachable.exhausted (h : names.Reachable) : names.Exhausted := by
  induction h with
  | empty => exact exhausted_empty
  | reserve _ name ih => exact ih.reserve name
  | reserveBlock _ block ih => exact ih.reserveAll block.declared
  | reserveMethod _ method ih => exact ih.reserveAll method.declared
  | allocate _ hint ih => exact ih.allocate hint

/-- **The least free name is handed out.** A hint that is not in use is handed out itself. For a hint that
is in use it is the name with the least number from 1 on that is not in use, and the search has it after
at most one candidate more than there are names in use. The name was not in use, it is from then on, and
nothing changes for any other name. -/
theorem allocate_least (h : names.Reachable) (hint : String) :
    (hint ∉ names.taken → (names.allocate hint).1 = hint) ∧
      (hint ∈ names.taken → ∃ k, (names.allocate hint).1 = numbered hint k ∧
        1 ≤ k ∧ numbered hint k ∉ names.taken ∧
        (∀ j, 1 ≤ j → j < k → numbered hint j ∈ names.taken) ∧
        (List.range' (names.start hint) (names.taken.length + 1)).find?
          (fun j => !names.isTaken (numbered hint j)) = some k) ∧
      (names.allocate hint).1 ∉ names.taken ∧
      (names.allocate hint).1 ∈ (names.allocate hint).2.taken ∧
      ∀ name, name ≠ (names.allocate hint).1 →
        (name ∈ (names.allocate hint).2.taken ↔ name ∈ names.taken) := by
  refine ⟨fun hfree => by rw [allocate_of_free hfree], fun htaken => ?_, (allocate_fresh names hint).1,
    mem_taken_allocate.mpr (.inl rfl), fun name hne => ?_⟩
  · have hfree : numbered hint (firstFree hint (names.start hint) names.taken) ∉ names.taken :=
      numbered_firstFree fun _ _ => Iff.rfl
    have hle : names.start hint ≤ firstFree hint (names.start hint) names.taken := le_firstFree
    have hbound : firstFree hint (names.start hint) names.taken ≤
      names.start hint + names.taken.length := firstFree_le
    refine ⟨firstFree hint (names.start hint) names.taken, by rw [allocate_of_taken htaken],
      Nat.le_trans (h.exhausted.one_le hint) hle, hfree, fun j hj hlt => h.exhausted.numbered_mem hj hlt,
      ?_⟩
    -- The search begins at `start`, below which every number is taken.
    rw [List.find?_range'_eq_some]
    refine ⟨?_, ?_, fun j hj hlt => ?_⟩
    · rwa [Bool.not_eq_true', ← Bool.not_eq_true, isTaken_iff]
    · rw [List.mem_range'_1]
      omega
    · rw [Bool.not_not, isTaken_iff]
      exact numbered_mem_of_lt_firstFree hj hlt
  · rw [mem_taken_allocate, or_iff_right hne]

/-- `x1` and `x3` are declared, and `x` is asked for twice. -/
def retried : Names :=
  (((empty.reserve "x1").reserveBlock ⟨[.declare "x3" .int none .dummy], .dummy⟩).allocate "x").2.allocate
    "x" |>.2

/-- The third search for `x` starts behind `x2`, from the second, and passes over `x3`. -/
theorem allocate_least_retried :
    retried.Reachable ∧ retried.start "x" = 3 ∧ (retried.allocate "x").1 = "x4" ∧
      numbered "x" 1 ∈ retried.taken ∧ "x4" ∉ retried.taken ∧ "x4" ∈ (retried.allocate "x").2.taken := by
  have hr : retried.Reachable :=
    ((Reachable.empty.reserve "x1").reserveBlock _).allocate "x" |>.allocate "x"
  obtain ⟨-, htaken, hnew, hold, -⟩ := allocate_least hr "x"
  obtain ⟨k, hk, -, -, hleast, -⟩ := htaken (by decide +kernel)
  have hx4 : (retried.allocate "x").1 = "x4" := by decide +kernel
  have hk4 : k = 4 := numbered_inj (hk.symm.trans hx4)
  rw [hx4] at hnew hold
  exact ⟨hr, by decide +kernel, hx4, hleast 1 (Nat.le_refl 1) (by omega), hnew, hold⟩

end Lowering.Names
