import Lowering.Eval.Stmt
import Lowering.Proofs.Tree.Sites

/-!
# Properties of evaluating that are kept by composition

An expression is evaluated by doing one operation of the machine after the other. A property that
the operations have, and that doing one thing after the other keeps, is therefore a property of
evaluating any expression. `Eval.Closed` says what has to be shown of the operations, and
`Expr.eval_closed` is the induction over expressions, done once.
-/

namespace Lowering

/-- The property `P` holds of every operation that an expression may consist of, and is kept by
doing one thing after the other. Only locals in `V` are touched, and with `calm` nothing throws. -/
structure Eval.Closed (P : (α : Type) → Eval α → Prop) (V : String → Prop) (calm : Bool) :
    Prop where
  pure : ∀ {α : Type} (a : α), P α (Pure.pure a)
  bind : ∀ {α β : Type} {x : Eval α} {f : α → Eval β}, P α x → (∀ a, P β (f a)) → P β (x >>= f)
  stop : ∀ {α : Type} (e : EvalError), P α (Eval.stop e)
  getLocal : ∀ name, V name → P Value (Machine.getLocal name)
  assign : ∀ name v, V name → P Value (Machine.assign name v)
  raise : calm = false → ∀ {α : Type} (v : Value), P α (Eval.raise v)
  call : calm = false → ∀ callee args, P Value (Machine.call callee args)

variable {P : (α : Type) → Eval α → Prop} {V : String → Prop} {calm : Bool}

/-- An operator gives a value or stops the run, and does nothing else. -/
theorem BinaryOp.apply_closed (h : Eval.Closed P V calm) (op : BinaryOp) (a b : Value) :
    P Value (op.apply a b) := by
  unfold BinaryOp.apply
  split
  · exact h.pure _
  · split
    · exact h.pure _
    · exact h.stop _
  · split
    · exact h.pure _
    · exact h.stop _
  · exact h.pure _
  · exact h.stop _

theorem Value.unwrap_closed (h : Eval.Closed P V calm) (v : Value) : P Value v.unwrap := by
  unfold Value.unwrap
  split
  · exact h.pure _
  · exact h.pure _
  · exact h.stop _

mutual

/-- **A property of the operations is a property of expressions.** -/
theorem Expr.eval_closed (h : Eval.Closed P V calm) : ∀ e : Expr, (∀ x ∈ e.locals, V x) →
    (calm = true → e.calm = true) → P Value e.eval
  | .null, _, _ | .bool _, _, _ | .int _, _, _ | .str _, _, _ | .this, _, _ | .wrapNone _, _, _ => by
    unfold Expr.eval
    exact h.pure _
  | .var name, hV, _ => by
    unfold Expr.eval
    exact h.getLocal name (hV name List.mem_cons_self)
  | .assign target value, hV, hc => by
    have hv := Expr.eval_closed h value (fun x hx => hV x (List.mem_cons_of_mem _ hx)) hc
    unfold Expr.eval
    exact h.bind hv fun v => h.assign target v (hV target List.mem_cons_self)
  | .call callee args, hV, hc => by
    have hcalm : calm = false := Bool.eq_false_iff.mpr fun he => Bool.noConfusion (hc he)
    unfold Expr.eval
    exact h.bind (Expr.evalAll_closed h hcalm args hV) fun vs => h.call hcalm callee vs
  | .methodCall receiver method args, hV, hc => by
    have hcalm : calm = false := Bool.eq_false_iff.mpr fun he => Bool.noConfusion (hc he)
    have hr := Expr.eval_closed h receiver (fun x hx => hV x (List.mem_append_left _ hx))
      fun he => absurd he (Bool.eq_false_iff.mp hcalm)
    have ha := Expr.evalAll_closed h hcalm args fun x hx => hV x (List.mem_append_right _ hx)
    unfold Expr.eval
    exact h.bind hr fun _ => h.bind ha fun vs => h.call hcalm method vs
  | .not value, hV, hc => by
    unfold Expr.eval
    exact h.bind (Expr.eval_closed h value hV hc) fun _ => h.pure _
  | .binary op left right, hV, hc => by
    have hl := Expr.eval_closed h left (fun x hx => hV x (List.mem_append_left _ hx))
      fun he => (Bool.and_eq_true_iff.mp (hc he)).1
    have hr := Expr.eval_closed h right (fun x hx => hV x (List.mem_append_right _ hx))
      fun he => (Bool.and_eq_true_iff.mp (hc he)).2
    cases op <;> unfold Expr.eval <;> refine h.bind hl fun a => ?_
    -- `and` and `or` may leave out their right operand; the other operators evaluate both.
    case and =>
      split
      · exact h.bind hr fun _ => h.pure _
      · exact h.pure _
    case or =>
      split
      · exact h.pure _
      · exact h.bind hr fun _ => h.pure _
    all_goals exact h.bind hr fun b => BinaryOp.apply_closed h _ a b
  | .cast ty value, hV, hc => by
    have hcalm : calm = false := Bool.eq_false_iff.mpr fun he => Bool.noConfusion (hc he)
    have hv := Expr.eval_closed h value hV fun he => absurd he (Bool.eq_false_iff.mp hcalm)
    unfold Expr.eval
    refine h.bind hv fun v => ?_
    split
    · exact h.pure _
    · exact h.raise hcalm _
  | .isType value ty, hV, hc => by
    unfold Expr.eval
    exact h.bind (Expr.eval_closed h value hV hc) fun _ => h.pure _
  | .wrap _ value, hV, hc => by
    unfold Expr.eval
    exact h.bind (Expr.eval_closed h value hV hc) fun _ => h.pure _
  | .unwrap _ value, hV, hc => by
    unfold Expr.eval
    exact h.bind (Expr.eval_closed h value hV hc) fun v => Value.unwrap_closed h v

theorem Expr.evalAll_closed (h : Eval.Closed P V calm) (hcalm : calm = false) :
    ∀ es : List Expr, (∀ x ∈ Expr.localsAll es, V x) → P (List Value) (Expr.evalAll es)
  | [], _ => by
    unfold Expr.evalAll
    exact h.pure _
  | e :: es, hV => by
    have he := Expr.eval_closed h e (fun x hx => hV x (List.mem_append_left _ hx))
      fun he => absurd he (Bool.eq_false_iff.mp hcalm)
    have hes := Expr.evalAll_closed h hcalm es fun x hx => hV x (List.mem_append_right _ hx)
    unfold Expr.evalAll
    exact h.bind he fun _ => h.bind hes fun _ => h.pure _

end

/-- What holds of all expressions holds where one may be missing. -/
theorem Expr.evalOption_closed (h : Eval.Closed P V calm) (e : Option Expr)
    (hV : ∀ e' ∈ e.toList, ∀ x ∈ e'.locals, V x)
    (hc : calm = true → ∀ e' ∈ e.toList, e'.calm = true) :
    P (Option Value) (Expr.evalOption e) := by
  cases e with
  | none => exact h.pure _
  | some e =>
    have he := Expr.eval_closed h e (hV e List.mem_cons_self) fun hcalm =>
      hc hcalm e List.mem_cons_self
    exact h.bind he fun _ => h.pure _

theorem Case.select_closed (h : Eval.Closed P V false) (value : Value) :
    ∀ (cases : List Case) (default : Option Block),
      (∀ e ∈ cases.filterMap Case.test, ∀ x ∈ e.locals, V x) →
      P (Option Block) (Case.select value default cases)
  | [], _, _ => by
    unfold Case.select
    exact h.pure _
  | ⟨none, body⟩ :: cases, default, hV => by
    unfold Case.select
    exact Case.select_closed h value cases _ hV
  | ⟨some test, body⟩ :: cases, default, hV => by
    have ht := Expr.eval_closed h test (hV test List.mem_cons_self) Bool.noConfusion
    unfold Case.select
    refine h.bind ht fun v => ?_
    split
    · exact h.pure _
    · exact Case.select_closed h value cases default fun e he => hV e (List.mem_cons_of_mem _ he)

end Lowering
