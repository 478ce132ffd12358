import Lowering.CallSite
import Lowering.Proofs.Eval.Calls

/-!
# What adapting does to values

A caller of a bridge never takes a value out of a wrapper, so adapting arguments evaluates as the
arguments do, and wraps the values at the positions that go from the native representation to the
wrapper (`Expr.evalAll_applyAll`). Unwrapping undoes wrapping, whatever the value is
(`Value.unwrap_wrap`).
-/

namespace Lowering

/-- Unwrapping a wrapped value gives the value back, for `null` too. -/
theorem Value.unwrap_wrap (v : Value) : v.wrap.unwrap = pure v := by
  cases v <;> rfl

/-! ## One argument -/

namespace Adaptation

/-- From the native representation to the wrapper. -/
def wraps (a : Adaptation) : Bool :=
  match a.source, a.dest with
  | .native, .wrapper => true
  | _, _ => false

/-- The adaptation takes nothing out of a wrapper. -/
def Inward (a : Adaptation) : Prop := a.source = .wrapper → a.dest = .wrapper

/-- A value in the representation of its destination. -/
def wrap (a : Adaptation) (v : Value) : Value := if a.wraps then v.wrap else v

/-- Anything but the literal `null` is wrapped by a conversion that is written out. -/
theorem apply_of_ne_null {e : Expr} (he : e ≠ .null) (ty : TargetType) :
    (⟨.native, .wrapper, ty⟩ : Adaptation).apply e = .wrap ty.payload e := by
  cases e with
  | null => exact absurd rfl he
  | _ => rfl

/-- **An argument that is converted has the value that is wrapped.** -/
theorem eval_apply {a : Adaptation} (ha : a.Inward) (e : Expr) (m : Machine) :
    (a.apply e).eval m = (e.eval m).bind fun v m' => .done (a.wrap v) m' := by
  obtain ⟨source, dest, ty⟩ := a
  cases source with
  | wrapper =>
    cases ha rfl
    exact (Outcome.bind_done_right _).symm
  | native =>
    cases dest with
    | native => exact (Outcome.bind_done_right _).symm
    | wrapper =>
      by_cases he : e = .null
      · subst he
        rfl
      · rw [apply_of_ne_null he, Expr.eval]
        rfl

/-! ## All arguments -/

/-- The values of arguments in the representations of their destinations. -/
def wrapAll : List Adaptation → List Value → List Value
  | a :: as, v :: vs => a.wrap v :: wrapAll as vs
  | _, vs => vs

@[simp] theorem wrapAll_nil (vs : List Value) : wrapAll [] vs = vs := by
  cases vs <;> rfl

@[simp] theorem applyAll_nil (es : List Expr) : applyAll [] es = es := by
  cases es <;> rfl

/-- Each argument is wrapped on account of its own position. -/
theorem getElem?_wrapAll (as : List Adaptation) (vs : List Value) (i : Nat) :
    (wrapAll as vs)[i]? = vs[i]?.map fun v => if as[i]?.any wraps then v.wrap else v := by
  induction as generalizing vs i with
  | nil =>
    rw [wrapAll_nil, List.getElem?_nil]
    cases vs[i]? <;> rfl
  | cons a as ih =>
    cases vs with
    | nil => rfl
    | cons v vs =>
      cases i with
      | zero => rfl
      | succ i => exact ih vs i

end Adaptation

/-- **Adapted arguments are evaluated as the arguments are**, and their values are wrapped. -/
theorem Expr.evalAll_applyAll {as : List Adaptation} (ha : ∀ a ∈ as, a.Inward) (es : List Expr)
    (m : Machine) : Expr.evalAll (Adaptation.applyAll as es) m =
      (Expr.evalAll es m).bind fun vs m' => .done (Adaptation.wrapAll as vs) m' := by
  induction as generalizing es m with
  | nil =>
    rw [Adaptation.applyAll_nil]
    simp only [Adaptation.wrapAll_nil]
    exact (Outcome.bind_done_right _).symm
  | cons a as ih =>
    rw [List.forall_mem_cons] at ha
    cases es with
    | nil => rfl
    | cons e es =>
      rw [Adaptation.applyAll, Expr.evalAll_cons, Expr.evalAll_cons, Adaptation.eval_apply ha.1]
      cases e.eval m with
      | done v m' =>
        simp only [Outcome.bind_done]
        rw [ih ha.2, Outcome.bind_assoc, Outcome.bind_assoc]
        rfl
      | thrown t m' => rfl
      | stopped err m' => rfl

/-! ## Calls of bridges -/

theorem Adjustment.callArg_inward (a : Adjustment) (i : Nat) (p : Param) : (a.callArg i p).Inward := by
  intro hsource
  show (if (a.param? (i + 1)).isSome then Representation.wrapper else _) = .wrapper
  split
  · rfl
  · exact hsource

/-- In a call of a bridge no argument is taken out of a wrapper. -/
theorem BridgePair.callee_inward (pair : BridgePair) (a : Adjustment) :
    ∀ x ∈ (pair.callee a).args, x.Inward := by
  intro x hx
  obtain ⟨i, hi, rfl⟩ := List.mem_mapIdx.mp hx
  exact a.callArg_inward i _

end Lowering
