import Lowering.Proofs.Bridge.Transparent
import Lowering.Proofs.CallSite.Rewriting

/-!
# A bridge only forwards

The body of a bridge is one statement that calls the primary and nothing else
(`Method.body_bridgeTo_cases`). So it shows whom it forwards to, it declares nothing of its own, it does
not suspend, and a rewriting of calls that leaves this call alone leaves the bridge alone.
-/

namespace Lowering.Method

variable {method : Method} {a : Adjustment} {primary : String}

/-- The body of a bridge returns the wrapped result of the call, makes the call, or returns its
result. -/
theorem body_bridgeTo_cases (method : Method) (a : Adjustment) (primary : String) :
    ∃ s, (method.bridgeTo a primary).body = ⟨[s], method.span⟩ ∧
      ((∃ ty, s = .ret (some (.wrap ty (method.bridgeCall a primary))) method.span) ∨
        s = .eval (method.bridgeCall a primary) method.span ∨
        s = .ret (some (method.bridgeCall a primary)) method.span) := by
  refine ⟨_, rfl, ?_⟩
  cases hret : a.ret with
  | some w =>
    have hwrap := Adaptation.apply_of_ne_null (@bridgeCall_ne_null method a primary) w.outer
    exact .inl ⟨w.outer.payload, congrArg (fun e => Stmt.ret (some e) method.span) hwrap⟩
  | none =>
    by_cases hv : method.ret.isVoid = true
    · exact .inr (.inl (if_pos hv))
    · exact .inr (.inr (if_neg hv))

/-! ## The call -/

theorem callee?_bridgeCall : (method.bridgeCall a primary).callee? = some primary := by
  unfold bridgeCall
  split
  · rfl
  · rfl

/-- A bridge passes on its parameters, so there is no other call in its call. -/
theorem calls_bridgeCall :
    (method.bridgeCall a primary).calls = [method.bridgeCall a primary] := by
  have hargs : ∀ es : List Expr, (∀ e ∈ es, e.calls = []) → Expr.callsAll es = [] := by
    intro es h
    induction es with
    | nil => rw [Expr.callsAll]
    | cons e es ih =>
      rw [Expr.callsAll, h e List.mem_cons_self, ih fun e he => h e (List.mem_cons_of_mem _ he)]
      rfl
  have hnone : Expr.callsAll (method.params.mapIdx a.bridgeArg) = [] := by
    refine hargs _ fun e he => ?_
    obtain ⟨i, hi, rfl⟩ := List.mem_mapIdx.mp he
    unfold Adjustment.bridgeArg
    cases a.param? (i + 1) with
    | none => rw [Expr.calls]
    | some w => rw [Expr.calls, Expr.calls]
  unfold bridgeCall
  split
  · rw [Expr.calls, hnone]
  · rw [Expr.calls, Expr.calls, hnone, List.append_nil]

/-! ## The body -/

/-- **A bridge forwards to its primary.** -/
theorem forwardedTo?_bridgeTo (method : Method) (a : Adjustment) (primary : String) :
    (method.bridgeTo a primary).forwardedTo? = some primary := by
  obtain ⟨s, hbody, hs⟩ := body_bridgeTo_cases method a primary
  unfold forwardedTo?
  rw [hbody]
  rcases hs with ⟨ty, rfl⟩ | rfl | rfl
  · exact callee?_bridgeCall
  · exact callee?_bridgeCall
  · -- the result of the call is not a wrapper, so it is the call itself that is looked at
    unfold bridgeCall
    by_cases hs : method.isStatic = true
    · rw [if_pos hs]
      rfl
    · rw [if_neg hs]
      rfl

theorem misplaced?_bridgeTo (method : Method) (a : Adjustment) (primary : String) :
    (method.bridgeTo a primary).body.misplaced? = none := by
  obtain ⟨s, hbody, hs⟩ := body_bridgeTo_cases method a primary
  rw [hbody]
  rcases hs with ⟨ty, rfl⟩ | rfl | rfl <;> rfl

theorem declared_body_bridgeTo (method : Method) (a : Adjustment) (primary : String) :
    (method.bridgeTo a primary).body.declared = [] := by
  obtain ⟨s, hbody, hs⟩ := body_bridgeTo_cases method a primary
  rw [hbody]
  rcases hs with ⟨ty, rfl⟩ | rfl | rfl <;> rfl

/-- **A bridge stays as it is if its call does.** -/
theorem mapCalls_bridgeTo {f : Expr → Expr}
    (h : f (method.bridgeCall a primary) = method.bridgeCall a primary) :
    (method.bridgeTo a primary).mapCalls f = method.bridgeTo a primary := by
  have hcall : (method.bridgeCall a primary).mapCalls f = method.bridgeCall a primary := by
    refine Expr.mapCalls_eq_self _ fun call hc => ?_
    rw [calls_bridgeCall, List.mem_singleton] at hc
    rw [hc, h]
  obtain ⟨s, hbody, hs⟩ := body_bridgeTo_cases method a primary
  have hkeep : s.mapExprs (Expr.mapCalls f) = s := by
    rcases hs with ⟨ty, rfl⟩ | rfl | rfl
    · rw [Stmt.mapExprs, Option.map_some, Expr.mapCalls, hcall]
    · rw [Stmt.mapExprs, hcall]
    · rw [Stmt.mapExprs, Option.map_some, hcall]
  rw [mapCalls, mapExprs_eq, hbody, Block.mapExprs, Stmt.mapExprsAll, Stmt.mapExprsAll, hkeep, ← hbody]
  rfl

end Lowering.Method
