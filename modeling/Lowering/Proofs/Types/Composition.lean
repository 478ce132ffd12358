import Lowering.Proofs.Types.Flat

/-!
# One substitution after another

Substituting twice is substituting once, with the two substitutions composed
(`Ty.Substitution.andThen`): a formal that the first one knows gets its type there with the second one
applied, and any other formal what the second one has for it.

The law holds of all types, flat or not. Each substitution rebuilds nullable types with `Ty.orNull`, and
`Ty.substitute_orNull` says that doing so before the second substitution or after it gives the same type.
-/

namespace Lowering

/-! ## Composition -/

/-- Changing the values of entries changes what is looked up. -/
theorem Dict.lookup_map {α β : Type} (f : α → β) (k : String) (l : List (String × α)) :
    (l.map fun e => (e.1, f e.2)).lookup k = (l.lookup k).map f := by
  induction l with
  | nil => rfl
  | cons e rest ih =>
    rw [List.map_cons, lookup_cons_ite, lookup_cons_ite, ih]
    by_cases hk : k = e.1
    · rw [if_pos hk, if_pos hk, Option.map_some]
    · rw [if_neg hk, if_neg hk]

namespace Ty.Substitution

/-- First `σ` and then `ρ`: the types of `σ` with `ρ` applied, and the types of `ρ` for the formals that
`σ` does not know. -/
def andThen (σ ρ : Ty.Substitution) : Ty.Substitution :=
  (σ.entries.map fun e => (e.1, e.2.substitute ρ)).foldl (fun d e => d.insert e.1 e.2) ρ

/-- A formal is bound by the first substitution, or by the second if the first leaves it. -/
theorem get?_andThen (σ ρ : Ty.Substitution) (k : String) :
    (σ.andThen ρ).get? k = ((σ.get? k).map (Ty.substitute ρ)).or (ρ.get? k) := by
  have hkeys : ((σ.entries.map fun e => (e.1, e.2.substitute ρ)).map Prod.fst).Nodup := by
    rw [List.map_map]
    exact σ.nodup_keys
  rw [andThen, Dict.get?_foldl_insert hkeys, Dict.lookup_map]
  rfl

end Ty.Substitution

/-! ## Nullable types -/

theorem Ty.orNull_orNull (t : Ty) : t.orNull.orNull = t.orNull := by
  cases t <;> rfl

theorem Ty.substitute_nullable (ρ : Ty.Substitution) (t : Ty) :
    (nullable t).substitute ρ = (t.substitute ρ).orNull := by
  rw [substitute]

/-- Making a type nullable commutes with substitution. -/
theorem Ty.substitute_orNull (ρ : Ty.Substitution) (t : Ty) :
    t.orNull.substitute ρ = (t.substitute ρ).orNull := by
  cases t with
  | nullable t =>
    -- the type was nullable already, so the right side makes it so twice
    rw [orNull, substitute_nullable, orNull_orNull]
  | _ => rw [orNull_eq_nullable rfl, substitute_nullable]

/-! ## The law -/

mutual

/-- **Substituting twice is substituting the composition once.** The cases are the constructors of the
type; a nullable type stays nullable once. -/
theorem Ty.substitute_andThen (σ ρ : Ty.Substitution) (t : Ty) :
    (t.substitute σ).substitute ρ = t.substitute (σ.andThen ρ) := by
  cases t with
  | param f =>
    rw [Ty.substitute, Ty.substitute, Ty.Substitution.get?_andThen]
    cases σ.get? f.qualified with
    | none => rw [Option.getD_none, Ty.substitute, Option.map_none, Option.none_or]
    | some t => rw [Option.getD_some, Option.map_some, Option.some_or, Option.getD_some]
  | array t => rw [Ty.substitute, Ty.substitute, Ty.substitute, Ty.substitute_andThen σ ρ t]
  | nullable t =>
    rw [Ty.substitute_nullable, Ty.substitute_orNull, Ty.substitute_andThen σ ρ t,
      Ty.substitute_nullable]
  | generic base args =>
    rw [Ty.substitute, Ty.substitute, Ty.substitute, Ty.substituteAll_andThen σ ρ args]
  | _ => simp only [Ty.substitute]

theorem Ty.substituteAll_andThen (σ ρ : Ty.Substitution) (ts : List Ty) :
    Ty.substituteAll ρ (Ty.substituteAll σ ts) = Ty.substituteAll (σ.andThen ρ) ts := by
  cases ts with
  | nil => simp only [Ty.substituteAll]
  | cons t ts =>
    rw [Ty.substituteAll, Ty.substituteAll, Ty.substituteAll, Ty.substitute_andThen σ ρ t,
      Ty.substituteAll_andThen σ ρ ts]

end

/-- **Substitutions compose.** Substituting `σ` and then `ρ` is substituting `σ.andThen ρ`, which has for
a formal of `σ` its type there with `ρ` applied and for any other formal what `ρ` has. What a substitution
by flat types makes of a type is flat. -/
theorem Ty.substitutions_compose (σ ρ : Ty.Substitution) (t : Ty) :
    (t.substitute σ).substitute ρ = t.substitute (σ.andThen ρ) ∧
      (∀ k u, σ.get? k = some u → (σ.andThen ρ).get? k = some (u.substitute ρ)) ∧
      (∀ k, σ.get? k = none → (σ.andThen ρ).get? k = ρ.get? k) ∧
      (σ.Flat → (t.substitute σ).flat = true) := by
  refine ⟨substitute_andThen σ ρ t, fun k u hk => ?_, fun k hk => ?_, fun hσ => flat_substitute hσ t⟩
  · rw [Substitution.get?_andThen, hk, Option.map_some, Option.some_or]
  · rw [Substitution.get?_andThen, hk, Option.map_none, Option.none_or]

/-- `Store<T>` inherited as a `Store<E?>`. -/
def Ty.Substitution.storeOfBox : Ty.Substitution :=
  Dict.empty.insert "Store.T" (.nullable (.param ⟨"E", .type "Box"⟩))

/-- `Box<E>` as a `Box<Int?>`, with a type for the formal of `Store` that is not used. -/
def Ty.Substitution.boxOfInt : Ty.Substitution :=
  (Dict.empty.insert "Box.E" (.nullable .int)).insert "Store.T" .string

/-- `Map<T?, E>`: both substitutions make the key nullable, and it is nullable once. -/
theorem Ty.substitutions_compose_map :
    let t : Ty := .generic "Map" [.nullable (.param ⟨"T", .type "Store"⟩), .param ⟨"E", .type "Box"⟩]
    Substitution.storeOfBox.Flat ∧ (t.substitute .storeOfBox).flat = true ∧
      (t.substitute .storeOfBox).substitute .boxOfInt = .generic "Map" [.nullable .int, .nullable .int] ∧
      t.substitute (Substitution.storeOfBox.andThen .boxOfInt) =
        .generic "Map" [.nullable .int, .nullable .int] := by
  intro t
  have hflat : Substitution.storeOfBox.Flat := by decide
  obtain ⟨hlaw, -, -, hout⟩ := substitutions_compose .storeOfBox .boxOfInt t
  exact ⟨hflat, hout hflat, rfl, hlaw ▸ rfl⟩

end Lowering
