import Lowering.Module
import Lowering.Proofs.CallSite.Rewriting
import Lowering.Proofs.Hoist.Supply
import Lowering.Proofs.Names
import Lowering.Proofs.Tree.Declared

/-!
# How a module is lowered

Lowering a module is taken apart into what becomes of its methods one by one and the rewriting of
calls in the end.

* `ModuleUnit.accepted` — the methods that can be lowered, before their calls are converted
* `ModuleUnit.methods_lower` — the lowered methods are these, with every call rewritten by one function
* `MethodUnit.lower_cases` — a lowered method keeps its own hoisted body, in itself or in its primary
* `MethodUnit.lowerAll_alike` — supplies that hand out the same names give the same methods
* `ModuleUnit.becomes_of_mem_accepted` — no primary has a name that the module declares
-/

namespace Lowering

/-! ## One method -/

section Methods

variable {σ τ : Type} [NameSupply σ] [NameSupply τ] {config : Config}

/-- **A lowered method**: its body is hoisted, and then it is kept as it is or bridged. -/
theorem MethodUnit.lower_cases {unit : MethodUnit} {names names' : σ} {m : LoweredMethod}
    (h : unit.lower config names = (.ok m, names')) :
    ∃ hoisted names₁, unit.method.body.hoist config.hints names = (.ok hoisted, names₁) ∧
      m.name = unit.method.name ∧
      ((unit.adjustment? config = none ∧ names' = names₁ ∧
          m.form = .plain { unit.method with body := hoisted.body }) ∨
        ∃ a primary, unit.adjustment? config = some a ∧
          unit.method.params.length = a.unadjusted.arity ∧
          NameSupply.allocate (unit.method.name ++ config.primarySuffix) unit.method.span names₁ =
            (primary, names') ∧
          m.form = .bridged ⟨unit.method.bridgeTo a primary,
            { unit.method with name := primary, visibility := .priv, body := hoisted.body }⟩ a) := by
  unfold MethodUnit.lower at h
  rcases hh : unit.method.body.hoist config.hints names with ⟨_ | hoisted, names₁⟩
  · rw [hh] at h
    cases h
  · rw [hh] at h
    refine ⟨hoisted, names₁, rfl, ?_⟩
    dsimp only at h
    cases ha : unit.adjustment? config with
    | none =>
      rw [ha] at h
      cases h
      exact ⟨rfl, .inl ⟨rfl, rfl, rfl⟩⟩
    | some a =>
      rw [ha] at h
      dsimp only [Method.bridge] at h
      -- The only refusal after hoisting is an arity that does not fit the adjustment.
      by_cases hl : unit.method.params.length ≠ a.unadjusted.arity
      · rw [if_pos hl] at h
        cases h
      · rw [if_neg hl] at h
        cases h
        exact ⟨rfl, .inr ⟨a, _, rfl, Decidable.not_not.mp hl, rfl, rfl⟩⟩

variable (R : NameSupply.Bisimulation σ τ) {s : σ} {t : τ}

theorem Method.bridge_alike (suffix : String) (method : Method) (a : Adjustment) (h : R.rel s t) :
    (method.bridge suffix a s).1 = (method.bridge suffix a t).1 ∧
      R.rel (method.bridge suffix a s).2 (method.bridge suffix a t).2 := by
  unfold Method.bridge
  dsimp only
  by_cases hl : method.params.length ≠ a.unadjusted.arity
  · rw [if_pos hl, if_pos hl]
    exact ⟨rfl, h⟩
  · rw [if_neg hl, if_neg hl, R.same h]
    exact ⟨rfl, R.keeps h _ _⟩

/-- Lowering a method does the same with supplies that hand out the same names. -/
theorem MethodUnit.lower_alike (config : Config) (unit : MethodUnit) (h : R.rel s t) :
    (unit.lower config s).1 = (unit.lower config t).1 ∧
      R.rel (unit.lower config s).2 (unit.lower config t).2 := by
  obtain ⟨hsame, h₁⟩ := Block.hoist_alike R config.hints unit.method.body h
  unfold MethodUnit.lower
  generalize unit.method.body.hoist config.hints s = r at hsame h₁ ⊢
  generalize unit.method.body.hoist config.hints t = r' at hsame h₁ ⊢
  obtain ⟨result, s₁⟩ := r
  obtain ⟨_, t₁⟩ := r'
  obtain rfl := hsame
  cases result with
  | error e => exact ⟨rfl, h₁⟩
  | ok hoisted =>
    cases unit.adjustment? config with
    | none => exact ⟨rfl, h₁⟩
    | some a =>
      -- the supply is asked once more, for the name of the primary
      have hbridge := Method.bridge_alike R config.primarySuffix
        { unit.method with body := hoisted.body } a h₁
      dsimp only
      generalize Method.bridge config.primarySuffix _ a s₁ = r at hbridge ⊢
      generalize Method.bridge config.primarySuffix _ a t₁ = r' at hbridge ⊢
      obtain ⟨result, s₂⟩ := r
      obtain ⟨_, t₂⟩ := r'
      obtain ⟨rfl, h₂⟩ := hbridge
      cases result with
      | error e => exact ⟨rfl, h₂⟩
      | ok pair => exact ⟨rfl, h₂⟩

/-! ## One method after the other -/

/-- The supply after methods have been lowered one after the other. -/
def MethodUnit.namesAfter (config : Config) : List MethodUnit → σ → σ
  | [], names => names
  | unit :: units, names => MethodUnit.namesAfter config units (unit.lower config names).2

theorem MethodUnit.lowerAll_cons (config : Config) (unit : MethodUnit) (units : List MethodUnit)
    (names : σ) :
    MethodUnit.lowerAll config (unit :: units) names =
      (unit, (unit.lower config names).1) ::
        MethodUnit.lowerAll config units (unit.lower config names).2 := rfl

/-- **Lowering methods does the same with supplies that hand out the same names.** -/
theorem MethodUnit.lowerAll_alike (config : Config) (units : List MethodUnit) (h : R.rel s t) :
    MethodUnit.lowerAll config units s = MethodUnit.lowerAll config units t ∧
      R.rel (MethodUnit.namesAfter config units s) (MethodUnit.namesAfter config units t) := by
  induction units generalizing s t with
  | nil => exact ⟨rfl, h⟩
  | cons unit units ih =>
    obtain ⟨hsame, h₁⟩ := MethodUnit.lower_alike R config unit h
    obtain ⟨hrest, h₂⟩ := ih h₁
    exact ⟨by rw [MethodUnit.lowerAll_cons, MethodUnit.lowerAll_cons, hsame, hrest], h₂⟩

variable {I : σ → Prop} (hI : NameSupply.Invariant I)

include hI

theorem MethodUnit.lower_keeps (config : Config) (unit : MethodUnit) (h : I s) :
    I (unit.lower config s).2 :=
  (MethodUnit.lower_alike (.diagonal hI) config unit ⟨rfl, h⟩).2.2

theorem MethodUnit.namesAfter_keeps (config : Config) (units : List MethodUnit) (h : I s) :
    I (MethodUnit.namesAfter config units s) :=
  (MethodUnit.lowerAll_alike (.diagonal hI) config units ⟨rfl, h⟩).2.2

/-- What became of a method comes from a supply that meets every invariant of the first one. -/
theorem MethodUnit.mem_lowerAll {units : List MethodUnit} {unit : MethodUnit}
    {result : Except LowerError LoweredMethod} (h : I s)
    (hmem : (unit, result) ∈ MethodUnit.lowerAll config units s) :
    unit ∈ units ∧ ∃ names, I names ∧ (unit.lower config names).1 = result := by
  induction units generalizing s with
  | nil => cases hmem
  | cons first units ih =>
    rcases List.mem_cons.mp hmem with he | hmem
    · cases he
      exact ⟨List.mem_cons_self, s, h, rfl⟩
    · obtain ⟨hunit, hnames⟩ := ih (MethodUnit.lower_keeps hI config first h) hmem
      exact ⟨List.mem_cons_of_mem _ hunit, hnames⟩

end Methods

/-! ## Rewriting the calls -/

namespace LoweredForm

/-- Rewrites every call in the declarations. -/
def mapCalls (f : Expr → Expr) : LoweredForm → LoweredForm
  | .plain decl => .plain (decl.mapCalls f)
  | .bridged pair a => .bridged ⟨pair.bridge.mapCalls f, pair.primary.mapCalls f⟩ a

theorem adaptCalls_eq_mapCalls (cs : Callees) (form : LoweredForm) :
    (form.adaptCalls cs).value = form.mapCalls cs.adapt := by
  cases form with
  | plain decl =>
    rw [adaptCalls, mapCalls, Counted.value_bind, Counted.value_pure, Method.adaptCalls_eq_mapCalls]
  | bridged pair a =>
    rw [adaptCalls, mapCalls, Counted.value_bind, Counted.value_bind, Counted.value_pure,
      Method.adaptCalls_eq_mapCalls, Method.adaptCalls_eq_mapCalls]

/-- Calls are rewritten in every declaration, bridges included. -/
theorem decls_mapCalls (f : Expr → Expr) (form : LoweredForm) :
    (form.mapCalls f).decls = form.decls.map (Method.mapCalls f) := by
  cases form with
  | plain decl => rfl
  | bridged pair a => rfl

end LoweredForm

namespace LoweredMethod

theorem form_adaptCalls (cs : Callees) (m : LoweredMethod) :
    (m.adaptCalls cs).form = m.form.mapCalls cs.adapt := m.form.adaptCalls_eq_mapCalls cs

/-- What calls of `name` need on account of a method. -/
def calleeAt (name : String) (m : LoweredMethod) : Option BridgedCallee :=
  match m.form with
  | .plain _ => none
  | .bridged pair a => if name = pair.bridge.name then some (pair.callee a) else none

/-- Adds a method to the bridged ones if it is one. -/
def register (cs : Callees) (m : LoweredMethod) : Callees :=
  match m.form with
  | .plain _ => cs
  | .bridged pair a => cs.insert pair.bridge.name (pair.callee a)

/-- A method that is added hides those with its name. -/
theorem get?_register (cs : Callees) (m : LoweredMethod) (name : String) :
    (m.register cs).get? name = (m.calleeAt name).or (cs.get? name) := by
  rw [register, calleeAt]
  cases m.form with
  | plain decl => rfl
  | bridged pair a =>
    dsimp only
    rw [Dict.get?_insert]
    split
    · rfl
    · rfl

/-- **Of the bridged methods with one name the last counts.** -/
theorem get?_callees (methods : List LoweredMethod) (name : String) :
    (callees methods).get? name = methods.reverse.findSome? (calleeAt name) := by
  have hfold : ∀ (methods : List LoweredMethod) (cs : Callees),
      (methods.foldl register cs).get? name =
        (methods.reverse.findSome? (calleeAt name)).or (cs.get? name) := by
    intro methods
    induction methods with
    | nil => exact fun _ => rfl
    | cons m methods ih =>
      intro cs
      rw [List.foldl_cons, ih, get?_register, List.reverse_cons, List.findSome?_append, Option.or_assoc,
        List.findSome?_singleton]
  exact (hfold methods .empty).trans (by rw [Dict.get?_empty, Option.or_none])

end LoweredMethod

/-! ## Modules -/

/-- The methods that were lowered, each with what it became. -/
def MethodUnit.acceptedIn (results : List (MethodUnit × Except LowerError LoweredMethod)) :
    List (MethodUnit × LoweredMethod) :=
  results.filterMap fun (unit, result) => result.toOption.map (unit, ·)

theorem MethodUnit.acceptedIn_ok (unit : MethodUnit) (m : LoweredMethod)
    (results : List (MethodUnit × Except LowerError LoweredMethod)) :
    MethodUnit.acceptedIn ((unit, .ok m) :: results) = (unit, m) :: MethodUnit.acceptedIn results := rfl

theorem MethodUnit.acceptedIn_error (unit : MethodUnit) (e : LowerError)
    (results : List (MethodUnit × Except LowerError LoweredMethod)) :
    MethodUnit.acceptedIn ((unit, .error e) :: results) = MethodUnit.acceptedIn results := rfl

namespace ModuleUnit

variable (config : Config) (module : ModuleUnit)

/-- The methods that can be lowered, with what they become before their calls are converted. -/
def accepted : List (MethodUnit × LoweredMethod) :=
  MethodUnit.acceptedIn (MethodUnit.lowerAll config module.methods module.names)

/-- The bridged methods of the module. -/
def callees : Callees := LoweredMethod.callees ((module.accepted config).map Prod.snd)

/-- **The lowered methods are the accepted ones with their calls converted.** -/
theorem methods_lower :
    (module.lower config).methods =
      (module.accepted config).map fun u => u.2.adaptCalls (module.callees config) := by
  have hresults : (module.accepted config).map Prod.snd =
      (MethodUnit.lowerAll config module.methods module.names).filterMap fun (_, r) => r.toOption := by
    rw [accepted, MethodUnit.acceptedIn, List.map_filterMap]
    refine congrArg (List.filterMap · _) (funext fun (unit, result) => ?_)
    cases result with
    | error e => rfl
    | ok m => rfl
  rw [lower, callees, ← hresults, List.map_map]
  rfl

/-- The names that are taken in the beginning are the declared ones. -/
theorem mem_taken_names {name : String} :
    name ∈ module.names.taken ↔ ∃ unit ∈ module.methods, unit.method.Declares name := by
  have hfold : ∀ (units : List MethodUnit) (names : Names),
      name ∈ (units.foldl (fun names unit => names.reserveMethod unit.method) names).taken ↔
        name ∈ names.taken ∨ ∃ unit ∈ units, unit.method.Declares name := by
    intro units
    induction units with
    | nil => simp
    | cons unit units ih =>
      intro names
      rw [List.foldl_cons, ih, Names.reserveMethod, Names.mem_taken_reserveAll, Method.mem_declared]
      simp only [List.mem_cons, exists_eq_or_imp, or_assoc]
  rw [names, hfold]
  exact or_iff_right List.not_mem_nil

end ModuleUnit

theorem Names.invariant_subset (taken : List String) :
    NameSupply.Invariant fun names : Names => taken ⊆ names.taken :=
  fun names h hint _ => List.Subset.trans h (names.allocate_fresh hint).2.2

/-- What an accepted method becomes, if the names `taken` are in use from the beginning. -/
inductive MethodUnit.Becomes (config : Config) (taken : List String) (unit : MethodUnit) :
    LoweredForm → Prop where
  | plain {body : Block} (placed : body.misplaced? = none) (ha : unit.adjustment? config = none) :
    Becomes config taken unit (.plain { unit.method with body })
  | bridged {body : Block} {a : Adjustment} {primary : String} (placed : body.misplaced? = none)
    (ha : unit.adjustment? config = some a)
    (arity : unit.method.params.length = a.unadjusted.arity)
    (fresh : primary ∉ taken)
    (named : primary = unit.method.name ++ config.primarySuffix ∨
      ∃ k, primary = Names.numbered (unit.method.name ++ config.primarySuffix) k) :
    Becomes config taken unit (.bridged ⟨unit.method.bridgeTo a primary,
      { unit.method with name := primary, visibility := .priv, body }⟩ a)

/-- What a method becomes when it is lowered with some names taken. -/
theorem MethodUnit.becomes_of_lower {config : Config} {taken : List String} {unit : MethodUnit}
    {names : Names} {m : LoweredMethod} (htaken : taken ⊆ names.taken)
    (h : (unit.lower config names).1 = .ok m) :
    m.name = unit.method.name ∧ unit.Becomes config taken m.form := by
  obtain ⟨hoisted, names₁, hh, hname, hform⟩ := MethodUnit.lower_cases (Prod.ext h rfl)
  refine ⟨hname, ?_⟩
  have hplaced : hoisted.body.misplaced? = none := by
    rcases Block.hoist_answers config.hints unit.method.body names with ⟨e, _, he, _⟩ | ⟨h', hh', _, hp⟩
    · rw [hh] at he
      cases he
    · rw [hh] at hh'
      cases hh'
      exact hp
  -- hoisting forgets no name, so the primary avoids them all
  have htaken₁ : taken ⊆ names₁.taken := by
    have := Block.hoist_alike (.diagonal (Names.invariant_subset taken)) config.hints unit.method.body
      ⟨rfl, htaken⟩
    rw [hh] at this
    exact this.2.2
  rcases hform with ⟨ha, -, hform⟩ | ⟨a, primary, ha, harity, hprimary, hform⟩
  · rw [hform]
    exact .plain hplaced ha
  · rw [hform]
    have hallocate : names₁.allocate (unit.method.name ++ config.primarySuffix) = (primary, _) := hprimary
    have hfresh := (names₁.allocate_fresh (unit.method.name ++ config.primarySuffix)).1
    have hnamed := names₁.allocate_form (unit.method.name ++ config.primarySuffix)
    rw [hallocate] at hfresh hnamed
    exact .bridged hplaced ha harity (fun h => hfresh (htaken₁ h)) hnamed

namespace ModuleUnit

variable (config : Config) (module : ModuleUnit)

/-- An accepted method is one of the module's, lowered with a supply that avoids all declared names. -/
theorem lower_of_mem_accepted {u : MethodUnit × LoweredMethod} (h : u ∈ module.accepted config) :
    u.1 ∈ module.methods ∧ ∃ names : Names, module.names.taken ⊆ names.taken ∧
      (u.1.lower config names).1 = .ok u.2 := by
  obtain ⟨⟨unit, result⟩, hmem, hu⟩ := List.mem_filterMap.mp h
  cases result with
  | error e => cases hu
  | ok m =>
    cases hu
    exact MethodUnit.mem_lowerAll (Names.invariant_subset _) (List.Subset.refl _) hmem

/-- **What becomes of an accepted method.** Its primary avoids all declared names. -/
theorem becomes_of_mem_accepted {u : MethodUnit × LoweredMethod} (h : u ∈ module.accepted config) :
    u.1 ∈ module.methods ∧ u.2.name = u.1.method.name ∧
      u.1.Becomes config module.names.taken u.2.form := by
  obtain ⟨hunit, names, hnames, hlower⟩ := module.lower_of_mem_accepted config h
  exact ⟨hunit, MethodUnit.becomes_of_lower hnames hlower⟩

end ModuleUnit

/-! ## Modules to look at -/

/-- An override for `T = Int` of a member of `C<T>`, whose parameters and result are all of type `T?`. -/
def MethodUnit.intOverride (name : String) (params : List String) (body : List Stmt) : MethodUnit where
  method := ⟨name, .pub, false, params.map (⟨·, .int⟩), .int, ⟨body, .dummy⟩, .dummy⟩
  signature := some ⟨⟨.named "D", false⟩ :: params.map fun _ => ⟨.int, false⟩, ⟨.int, false⟩⟩
  overrides := [⟨"C", ⟨⟨.named "C", false⟩ :: params.map fun _ => ⟨.param ⟨"T", .type "C"⟩, true⟩,
    ⟨.param ⟨"T", .type "C"⟩, true⟩⟩, .empty⟩]

/-- `void name() { body }` -/
def MethodUnit.procedure (name : String) (body : List Stmt) : MethodUnit where
  method := ⟨name, .pub, false, [], .void, ⟨body, .dummy⟩, .dummy⟩
  signature := none
  overrides := []

/-- `this.name(args);` -/
def Stmt.callOnThis (name : String) (args : List Expr) : Stmt := .eval (.methodCall .this name args) .dummy

/-- `int f(int x) { try { yield x; } catch { this.f(1); } }` and `void g() { this.f(2); }` -/
def ModuleUnit.retry : ModuleUnit where
  name := "M"
  methods :=
    [.intOverride "f" ["x"] [.attempt ⟨[.suspend .yield (some (.var "x")) .dummy], .dummy⟩
        (some ⟨[.callOnThis "f" [.int 1]], .dummy⟩) none .dummy],
      .procedure "g" [.callOnThis "f" [.int 2]]]

end Lowering
