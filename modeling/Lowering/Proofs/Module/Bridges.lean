import Mathlib.Data.List.Forall2
import Lowering.Proofs.Bridge.Forwarding
import Lowering.Proofs.Module.Lowered

/-!
# Bridges stay pure forwarders

The calls of bridged methods are converted in all declarations of the output, the bridges included. A
bridge still is what it was built as: its one call is a call of its primary, whose name no method of the
module has, so it is no call of a bridged method. In all other declarations, too, nothing changes but
the expressions in the bodies.
-/

namespace Lowering

/-- A bridge that does nothing but to forward, and a primary that does what the method did. -/
structure BridgePair.Forwards (pair : BridgePair) (method : Method) (a : Adjustment) : Prop where
  bridge_eq : pair.bridge = method.bridgeTo a pair.primary.name
  forwardedTo : pair.bridge.forwardedTo? = some pair.primary.name
  name : pair.bridge.name = method.name
  visibility : pair.bridge.visibility = method.visibility
  isStatic : pair.bridge.isStatic = method.isStatic
  params : pair.primary.params = method.params
  ret : pair.primary.ret = method.ret
  isPrivate : pair.primary.visibility = .priv

/-- Rewriting the calls of a bridge and its primary keeps them so, unless the call of the primary is
rewritten. -/
theorem BridgePair.Forwards.mapCalls {method : Method} {a : Adjustment} {primary : String} {body : Block}
    {f : Expr → Expr} (h : f (method.bridgeCall a primary) = method.bridgeCall a primary) :
    BridgePair.Forwards ⟨(method.bridgeTo a primary).mapCalls f,
      Method.mapCalls f { method with name := primary, visibility := .priv, body }⟩ method a := by
  rw [Method.mapCalls_bridgeTo h, Method.mapCalls, Method.mapExprs_eq]
  exact {
    bridge_eq := rfl
    forwardedTo := Method.forwardedTo?_bridgeTo method a primary
    name := rfl
    visibility := rfl
    isStatic := rfl
    params := rfl
    ret := rfl
    isPrivate := rfl }

variable (config : Config) (module : ModuleUnit)

/-- Only a name that the module declares is the name of a bridged method. -/
theorem ModuleUnit.get?_callees_of_fresh {name : String} (h : name ∉ module.names.taken) :
    (module.callees config).get? name = none := by
  rw [callees, LoweredMethod.get?_callees, List.findSome?_eq_none_iff]
  intro m hm
  obtain ⟨u, hu, rfl⟩ := List.mem_map.mp (List.mem_reverse.mp hm)
  obtain ⟨hunit, -, hbecomes⟩ := module.becomes_of_mem_accepted config hu
  rw [LoweredMethod.calleeAt]
  generalize u.2.form = form at hbecomes ⊢
  cases hbecomes with
  | plain => rfl
  | bridged =>
    refine if_neg fun hname => h ?_
    rw [hname, mem_taken_names]
    exact ⟨u.1, hunit, .self rfl⟩

/-- A call of a name that the module does not declare stays as it is. -/
theorem ModuleUnit.adapt_of_fresh {call : Expr} {name : String} (hc : call.callee? = some name)
    (h : name ∉ module.names.taken) : (module.callees config).adapt call = call := by
  refine Callees.adapt_of_none ?_
  cases hcalled : (module.callees config).calledBy? call with
  | none => rfl
  | some c =>
    have := Callees.get?_of_calledBy? hcalled hc
    rw [get?_callees_of_fresh config module h] at this
    cases this

theorem MethodUnit.Becomes.misplaced {config : Config} {taken : List String} {unit : MethodUnit}
    {form : LoweredForm} (h : unit.Becomes config taken form) :
    ∀ decl ∈ form.decls, decl.body.misplaced? = none := by
  cases h with
  | plain placed =>
    rintro _ (_ | ⟨_, ⟨⟩⟩)
    exact placed
  | bridged placed =>
    rintro _ (_ | ⟨_, _ | ⟨_, ⟨⟩⟩⟩)
    · exact Method.misplaced?_bridgeTo _ _ _
    · exact placed

theorem Method.misplaced?_mapExprs (g : Expr → Expr) (m : Method) :
    (m.mapExprs g).body.misplaced? = m.body.misplaced? := by
  rw [Method.mapExprs_eq]
  exact Block.findSuspension_mapExprs g false m.body

/-- **Bridges stay pure forwarders through all of lowering.** -/
theorem ModuleUnit.bridges_forward :
    ∃ g : Expr → Expr, List.Forall₂ (fun (u : MethodUnit × LoweredMethod) (m : LoweredMethod) =>
        u.1 ∈ module.methods ∧
        m.form.decls = u.2.form.decls.map (Method.mapExprs g) ∧
        (∀ decl ∈ m.form.decls, decl.body.misplaced? = none) ∧
        ∀ pair a, m.form = .bridged pair a →
          ∃ built, u.2.form = .bridged built a ∧ pair.bridge = built.bridge ∧
            pair.Forwards u.1.method a)
      (module.accepted config) (module.lower config).methods := by
  refine ⟨Expr.mapCalls (module.callees config).adapt, ?_⟩
  rw [methods_lower, List.forall₂_map_right_iff, List.forall₂_same]
  intro u hu
  obtain ⟨hunit, -, hbecomes⟩ := module.becomes_of_mem_accepted config hu
  rw [LoweredMethod.form_adaptCalls]
  refine ⟨hunit, LoweredForm.decls_mapCalls _ _, ?_, ?_⟩
  · intro decl hdecl
    rw [LoweredForm.decls_mapCalls] at hdecl
    obtain ⟨d, hd, rfl⟩ := List.mem_map.mp hdecl
    exact (Method.misplaced?_mapExprs _ d).trans (hbecomes.misplaced d hd)
  · intro pair a hpair
    generalize u.2.form = form at hbecomes hpair ⊢
    cases hbecomes with
    | plain => cases hpair
    | bridged placed ha arity fresh =>
      cases hpair
      -- the one call of the bridge has a name that no method of the module has
      have hcall := module.adapt_of_fresh config (@Method.callee?_bridgeCall u.1.method a _) fresh
      exact ⟨_, rfl, Method.mapCalls_bridgeTo hcall, .mapCalls hcall⟩

/-- A bridged method that suspends and calls itself, and a method that calls it. -/
theorem ModuleUnit.bridges_forward_retry :
    (retry.lower {}).methods.map (·.form.primary?) = [some "f_", none] ∧
      ∃ g : Expr → Expr, List.Forall₂ (fun (u : MethodUnit × LoweredMethod) (m : LoweredMethod) =>
          u.1 ∈ retry.methods ∧
          m.form.decls = u.2.form.decls.map (Method.mapExprs g) ∧
          (∀ decl ∈ m.form.decls, decl.body.misplaced? = none) ∧
          ∀ pair a, m.form = .bridged pair a →
            ∃ built, u.2.form = .bridged built a ∧ pair.bridge = built.bridge ∧
              pair.Forwards u.1.method a)
        (retry.accepted {}) (retry.lower {}).methods :=
  ⟨by decide +kernel, bridges_forward {} retry⟩

end Lowering
