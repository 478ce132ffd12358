import Lowering.Proofs.Bridge.Forwarding
import Lowering.Proofs.Hoist.Declarations
import Lowering.Proofs.Module.Lowered

/-!
# Names that lowering makes up

All methods of a module draw their names from one supply, also those that turn out not to be lowered.
`ModuleUnit.allocated` is the record of that supply: the labels, the locals and the names of primaries
that were made up on the way, the latest first.

* `ModuleUnit.allocated_unique` — no name is made up twice and none that the module declares; what the
  output declares is declared by the module or made up, and then it is declared only once
* `ModuleUnit.primary_fresh` — a primary has the name that it was to get or that name with a number, and
  the module does not declare it
-/

namespace Lowering

open NameSupply (Recorded)

/-! ## What a lowered method declares -/

section Declared

variable {σ : Type} [NameSupply σ] {config : Config}

/-- The names that the declarations of a lowered method declare. -/
def LoweredMethod.declared (m : LoweredMethod) : List String := m.form.decls.flatMap Method.declared

theorem LoweredMethod.declared_adaptCalls (cs : Callees) (m : LoweredMethod) :
    (m.adaptCalls cs).declared = m.declared := by
  rw [declared, form_adaptCalls, LoweredForm.decls_mapCalls, List.flatMap_map]
  exact congrArg (List.flatMap · _) (funext fun decl => decl.declared_mapExprs _)

theorem Method.count_declared (m : Method) (name : String) :
    m.declared.count name =
      [m.name].count name + (m.params.map Param.name).count name + m.body.declared.count name := by
  cases m with
  | mk =>
    rw [Method.declared, List.cons_append, ← List.singleton_append, List.count_append, List.count_append,
      Nat.add_assoc]

/-- Besides the names that a method declares, a lowered one declares what it has asked for. -/
theorem MethodUnit.lower_declared {unit : MethodUnit} {r r' : Recorded σ} {m : LoweredMethod}
    (h : unit.lower config r = (.ok m, r')) :
    ∃ new, r'.log = new ++ r.log ∧
      ∀ name ∉ unit.method.declared, m.declared.count name = new.count name := by
  obtain ⟨hoisted, r₁, hh, -, hform⟩ := MethodUnit.lower_cases h
  obtain ⟨new, hlog, hcount⟩ := Block.hoist_declared config.hints hh
  rcases hform with ⟨-, rfl, hform⟩ | ⟨a, primary, -, -, hprimary, hform⟩
  · refine ⟨new, hlog, fun name hname => ?_⟩
    have hnone := List.count_eq_zero.mpr hname
    rw [LoweredMethod.declared, hform, LoweredForm.decls, List.flatMap_singleton]
    simp only [Method.count_declared, hcount] at hnone ⊢
    omega
  · have hlog' : r'.log = primary :: r₁.log := by
      cases hprimary
      rfl
    refine ⟨primary :: new, by rw [hlog', hlog, List.cons_append], fun name hname => ?_⟩
    have hnone := List.count_eq_zero.mpr hname
    -- the bridge declares only the name and the parameters of the method once more
    have hbridge : (unit.method.bridgeTo a primary).name = unit.method.name := rfl
    rw [LoweredMethod.declared, hform, LoweredForm.decls, List.flatMap_cons, List.flatMap_singleton,
      ← List.singleton_append, List.count_append, List.count_append]
    simp only [Method.count_declared, hcount, hbridge, Method.names_bridgeTo,
      Method.declared_body_bridgeTo, List.count_nil] at hnone ⊢
    omega

theorem NameSupply.Recorded.invariant_count (name : String) (n : Nat) :
    NameSupply.Invariant fun r : Recorded σ => n ≤ r.log.count name :=
  fun _ h _ _ => Nat.le_trans h List.count_le_count_cons

/-- Besides what the methods declare, their lowered forms declare at most what has been asked for. -/
theorem MethodUnit.lowerAll_declared (config : Config) {units : List MethodUnit} {name : String}
    (hname : ∀ unit ∈ units, name ∉ unit.method.declared) (r : Recorded σ) :
    ((MethodUnit.acceptedIn (MethodUnit.lowerAll config units r)).flatMap (·.2.declared)).count name +
        r.log.count name ≤
      (MethodUnit.namesAfter config units r).log.count name := by
  induction units generalizing r with
  | nil => exact Nat.le_of_eq (Nat.zero_add _)
  | cons unit units ih =>
    have ih := ih (fun u hu => hname u (List.mem_cons_of_mem _ hu)) (unit.lower config r).2
    rw [MethodUnit.lowerAll_cons, MethodUnit.namesAfter]
    cases hresult : (unit.lower config r).1 with
    | error e =>
      -- what a method has asked for before it gave up is on record too
      have hlog : r.log.count name ≤ (unit.lower config r).2.log.count name :=
        MethodUnit.lower_keeps (Recorded.invariant_count name _) config unit (Nat.le_refl _)
      rw [MethodUnit.acceptedIn_error]
      omega
    | ok m =>
      obtain ⟨new, hlog, hcount⟩ := MethodUnit.lower_declared (Prod.ext hresult rfl)
      rw [MethodUnit.acceptedIn_ok, List.flatMap_cons, List.count_append,
        hcount name (hname unit List.mem_cons_self)]
      rw [hlog, List.count_append] at ih
      omega

end Declared

/-! ## The names of a module -/

/-- A recorded supply hands out the names of the supply. -/
def NameSupply.Bisimulation.recorded (σ : Type) [NameSupply σ] :
    NameSupply.Bisimulation (Recorded σ) σ where
  rel r s := r.supply = s
  same := by
    rintro r _ rfl hint span
    rfl
  keeps := by
    rintro r _ rfl hint span
    rfl

namespace ModuleUnit

variable (config : Config) (module : ModuleUnit)

/-- The names that are made up when a module is lowered, the latest first. -/
def allocated : List String :=
  (MethodUnit.namesAfter config module.methods (⟨module.names, []⟩ : Recorded Names)).log

/-- The record is that of lowering the module. -/
theorem lowerAll_recorded :
    MethodUnit.lowerAll config module.methods (⟨module.names, []⟩ : Recorded Names) =
      MethodUnit.lowerAll config module.methods module.names :=
  (MethodUnit.lowerAll_alike (.recorded Names) config module.methods rfl).1

theorem nodup_allocated :
    (module.allocated config).Nodup ∧ ∀ name ∈ module.allocated config, name ∉ module.names.taken := by
  have hinvariant : NameSupply.Invariant (Recorded.Fresh module.names.taken) :=
    fun _ h hint span => h.allocate hint span
  have hfirst : Recorded.Fresh module.names.taken ⟨module.names, []⟩ :=
    ⟨.nil, nofun, List.nil_subset _, List.Subset.refl _⟩
  have hlast := MethodUnit.namesAfter_keeps hinvariant config module.methods hfirst
  exact ⟨hlast.nodup, hlast.apart⟩

/-- The output declares no more than the module and what was made up. -/
theorem count_declared_lower {name : String} (h : name ∉ module.names.taken) :
    ((module.lower config).methods.flatMap LoweredMethod.declared).count name ≤
      (module.allocated config).count name := by
  have hname : ∀ unit ∈ module.methods, name ∉ unit.method.declared := fun unit hunit hdecl =>
    h (module.mem_taken_names.mpr ⟨unit, hunit, Method.mem_declared.mp hdecl⟩)
  have hcount := MethodUnit.lowerAll_declared config hname (⟨module.names, []⟩ : Recorded Names)
  rw [lowerAll_recorded] at hcount
  rw [methods_lower, List.flatMap_map]
  simp only [LoweredMethod.declared_adaptCalls]
  exact hcount

/-- A name that the module does not declare is declared at most once in the output. -/
theorem count_declared_le_one {name : String} (h : name ∉ module.names.taken) :
    ((module.lower config).methods.flatMap LoweredMethod.declared).count name ≤ 1 :=
  calc ((module.lower config).methods.flatMap LoweredMethod.declared).count name
      ≤ (module.allocated config).count name := module.count_declared_lower config h
    _ ≤ 1 := List.nodup_iff_count.mp (module.nodup_allocated config).1 name

/-- **Names that are made up are unique across a module.** -/
theorem allocated_unique :
    MethodUnit.lowerAll config module.methods (⟨module.names, []⟩ : Recorded Names) =
        MethodUnit.lowerAll config module.methods module.names ∧
      (module.allocated config).Nodup ∧
      (∀ unit ∈ module.methods, ∀ name, unit.method.Declares name → name ∉ module.allocated config) ∧
      (∀ m ∈ (module.lower config).methods, ∀ decl ∈ m.form.decls, ∀ name, decl.Declares name →
        (∃ unit ∈ module.methods, unit.method.Declares name) ∨ name ∈ module.allocated config) ∧
      ∀ name ∈ module.allocated config,
        ((module.lower config).methods.flatMap LoweredMethod.declared).count name ≤ 1 := by
  obtain ⟨hnodup, hapart⟩ := module.nodup_allocated config
  refine ⟨module.lowerAll_recorded config, hnodup, ?_, ?_, ?_⟩
  · intro unit hunit name hdecl hmem
    exact hapart name hmem (module.mem_taken_names.mpr ⟨unit, hunit, hdecl⟩)
  · intro m hm decl hd name hdecl
    rw [← mem_taken_names]
    refine Decidable.or_iff_not_imp_left.mpr fun hname => ?_
    have hmem : name ∈ (module.lower config).methods.flatMap LoweredMethod.declared :=
      List.mem_flatMap.mpr ⟨m, hm, List.mem_flatMap.mpr ⟨decl, hd, Method.mem_declared.mpr hdecl⟩⟩
    exact List.count_pos_iff.mp
      (Nat.lt_of_lt_of_le (List.count_pos_iff.mpr hmem) (module.count_declared_lower config hname))
  · intro name hmem
    exact module.count_declared_le_one config (hapart name hmem)

/-- Hints that run into each other and into a declared name. -/
theorem allocated_unique_retry :
    retry.allocated { hints := ⟨"f", "f", "f1"⟩, primarySuffix := "" } = ["f3", "f2", "f1"] ∧
      (retry.allocated { hints := ⟨"f", "f", "f1"⟩, primarySuffix := "" }).Nodup :=
  ⟨by decide +kernel, (allocated_unique _ retry).2.1⟩

end ModuleUnit

end Lowering
