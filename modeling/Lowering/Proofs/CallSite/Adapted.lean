import Lowering.Proofs.Bridge.Adaptation
import Lowering.Proofs.Eval.Lockstep

/-!
# Bodies with adapted calls

Adapting calls rewrites the expressions of a body and nothing else (`Stmt.adaptCalls_maps`). An adapted
call evaluates its arguments as before and then calls the bridged method: with the values that it wraps,
and with the result out of its wrapper (`Callees.invoke`).
-/

namespace Lowering

variable (cs : Callees)

/-! ## The shape of a rewriting -/

/-- Arguments are adapted one by one. -/
theorem Expr.value_adaptCallsAll (es : List Expr) :
    (Expr.adaptCallsAll cs es).value = es.map fun e => (e.adaptCalls cs).value := by
  induction es with
  | nil => rw [Expr.adaptCallsAll]; rfl
  | cons e es ih =>
    rw [Expr.adaptCallsAll]
    simp only [Counted.value_bind, Counted.value_pure, ih, List.map_cons]

theorem Expr.value_adaptCallsOption (e : Option Expr) :
    (Expr.adaptCallsOption cs e).value = e.map fun e => (e.adaptCalls cs).value := by
  cases e <;> rfl

theorem Stmt.value_adaptCallsAll (ss : List Stmt) :
    (Stmt.adaptCallsAll cs ss).value = ss.map fun s => (s.adaptCalls cs).value := by
  induction ss with
  | nil => rw [Stmt.adaptCallsAll]; rfl
  | cons s ss ih =>
    rw [Stmt.adaptCallsAll]
    simp only [Counted.value_bind, Counted.value_pure, ih, List.map_cons]

theorem Stmt.value_adaptCallsOption (s : Option Stmt) :
    (Stmt.adaptCallsOption cs s).value = s.map fun s => (s.adaptCalls cs).value := by
  cases s <;> rw [Stmt.adaptCallsOption] <;> rfl

/-- Adapting keeps the statements of a block at their places. -/
theorem Block.value_adaptCalls (b : Block) :
    (b.adaptCalls cs).value = b.map fun s => (s.adaptCalls cs).value := by
  cases b
  rw [Block.adaptCalls]
  simp only [Counted.value_bind, Counted.value_pure, Stmt.value_adaptCallsAll, Block.map]

theorem Block.value_adaptCallsOption (b : Option Block) :
    (Block.adaptCallsOption cs b).value = b.map (Block.map fun s => (s.adaptCalls cs).value) := by
  cases b with
  | none => rw [Block.adaptCallsOption]; rfl
  | some b =>
    rw [Block.adaptCallsOption]
    simp only [Counted.value_bind, Counted.value_pure, Block.value_adaptCalls, Option.map_some]

/-- Of a case its test and its body are adapted. -/
theorem Case.value_adaptCallsAll (cases : List Case) :
    (Case.adaptCallsAll cs cases).value =
      cases.map (Case.map (fun s => (s.adaptCalls cs).value) fun e => (e.adaptCalls cs).value) := by
  induction cases with
  | nil => rw [Case.adaptCallsAll]; rfl
  | cons case cases ih =>
    cases case
    rw [Case.adaptCallsAll]
    simp only [Counted.value_bind, Counted.value_pure, Expr.value_adaptCallsOption,
      Block.value_adaptCalls, ih, List.map_cons, Case.map]

/-- **Adapting calls rewrites expressions only.** -/
theorem Stmt.adaptCalls_maps :
    Stmt.Maps (fun s => (s.adaptCalls cs).value) (fun e => (e.adaptCalls cs).value) := by
  constructor
  case method =>
    intro decl span
    refine ⟨(decl.adaptCalls cs).value, ?_⟩
    simp only [Stmt.adaptCalls, Counted.value_bind, Counted.value_pure]
  all_goals
    intros
    simp only [Stmt.adaptCalls, Counted.value_bind, Counted.value_pure, Block.value_adaptCalls,
      Stmt.value_adaptCallsOption, Block.value_adaptCallsOption, Expr.value_adaptCallsOption,
      Case.value_adaptCallsAll]

/-! ## Calls -/

mutual

/-- The calls and method calls in an expression. -/
def Expr.calls : Expr → List Expr
  | .null | .bool _ | .int _ | .str _ | .var _ | .this | .wrapNone _ => []
  | .assign _ value | .not value | .cast _ value | .isType value _ | .wrap _ value
  | .unwrap _ value => value.calls
  | .binary _ left right => left.calls ++ right.calls
  | .call callee args => .call callee args :: Expr.callsAll args
  | .methodCall receiver method args =>
    .methodCall receiver method args :: (receiver.calls ++ Expr.callsAll args)

def Expr.callsAll : List Expr → List Expr
  | [] => []
  | e :: es => e.calls ++ Expr.callsAll es

end

namespace Callees

variable {cs : Callees} {callee method : String} {receiver : Expr} {args args' : List Expr}
  {c : BridgedCallee}

/-- Every call with the name of a bridged method is a call of that method. -/
def Covers (cs : Callees) (es : List Expr) : Prop :=
  ∀ call ∈ es, ∀ name ∈ call.callee?, (cs.get? name).isSome → (cs.calledBy? call).isSome

instance (cs : Callees) (es : List Expr) : Decidable (cs.Covers es) :=
  inferInstanceAs (Decidable (∀ call ∈ es, ∀ name ∈ call.callee?, _ → _))

/-- A call of a bridged method has the name under which that method is known. -/
theorem get?_of_calledBy? {call : Expr} (h : cs.calledBy? call = some c) {name : String}
    (hn : call.callee? = some name) : cs.get? name = some c := by
  unfold calledBy? at h
  split at h
  · cases hn
    exact (Option.filter_eq_some_iff.mp h).1
  · cases hn
    exact (Option.filter_eq_some_iff.mp h).1
  · cases h

/-- A call that is covered belongs to the bridged method of its name, if there is one. -/
theorem Covers.calledBy? {call : Expr} {es : List Expr} (h : cs.Covers es) (hc : call ∈ es)
    {name : String} (hn : call.callee? = some name) : cs.calledBy? call = cs.get? name := by
  cases hb : cs.calledBy? call with
  | some c => exact (get?_of_calledBy? hb hn).symm
  | none =>
    cases hg : cs.get? name with
    | none => rfl
    | some c =>
      have := h call hc name hn (by rw [hg]; rfl)
      rw [hb] at this
      cases this

/-- Of the arguments only their number counts. -/
theorem calledBy?_call (h : args'.length = args.length) :
    cs.calledBy? (.call callee args') = cs.calledBy? (.call callee args) := by
  simp only [Callees.calledBy?, h]

/-- Only `this` is adapted to `this`. -/
theorem value_adaptCalls_eq_this (e : Expr) : (e.adaptCalls cs).value = .this ↔ e = .this := by
  have hconvert : ∀ e : Expr, e.callee?.isSome → (cs.convert e).value ≠ .this := by
    intro e he
    unfold Callees.convert
    split
    · rename_i c _
      unfold BridgedCallee.convert
      cases e with
      | call callee args => cases c.result <;> exact nofun
      | methodCall receiver method args => cases c.result <;> exact nofun
      | _ => cases he
    · rintro rfl
      cases he
  cases e with
  | call callee args =>
    rw [Expr.adaptCalls, Counted.value_bind]
    exact ⟨fun h => absurd h (hconvert _ rfl), nofun⟩
  | methodCall receiver method args =>
    rw [Expr.adaptCalls, Counted.value_bind, Counted.value_bind]
    exact ⟨fun h => absurd h (hconvert _ rfl), nofun⟩
  | _ =>
    rw [Expr.adaptCalls]
    simp

/-- A method of another receiver is not the bridged one, whatever its name. -/
theorem calledBy?_of_ne_this (h : receiver ≠ .this) :
    cs.calledBy? (.methodCall receiver method args) = none := by
  cases receiver with
  | this => exact absurd rfl h
  | _ => rfl

theorem calledBy?_methodCall (h : args'.length = args.length) :
    cs.calledBy? (.methodCall (receiver.adaptCalls cs).value method args') =
      cs.calledBy? (.methodCall receiver method args) := by
  by_cases hr : receiver = .this
  · subst hr
    rw [(value_adaptCalls_eq_this .this).mpr rfl]
    simp only [Callees.calledBy?, h]
  · rw [calledBy?_of_ne_this hr, calledBy?_of_ne_this (mt (value_adaptCalls_eq_this receiver).mp hr)]

end Callees

/-! ## Evaluating adapted calls -/

namespace BridgedCallee

variable (c : BridgedCallee) {m : Machine}

/-- Calls a bridged method with native values, for a native result. -/
def invoke (callee : String) (vs : List Value) : Eval Value := do
  let v ← Machine.call callee (Adaptation.wrapAll c.args vs)
  if c.result.isSome then v.unwrap else pure v

/-- A converted call passes its arguments in wrappers and takes the result out of one. -/
theorem eval_convert_call {c : BridgedCallee} (hc : ∀ a ∈ c.args, a.Inward) (callee : String)
    (args : List Expr) :
    (c.convert (.call callee args)).eval = Expr.evalAll args >>= c.invoke callee := by
  have hargs : Expr.evalAll (Adaptation.applyAll c.args args) =
      Expr.evalAll args >>= fun vs => pure (Adaptation.wrapAll c.args vs) :=
    funext (Expr.evalAll_applyAll hc args)
  obtain ⟨isStatic, as, result⟩ := c
  unfold invoke
  cases result <;>
    simp only [convert, Expr.eval, hargs, bind_assoc, pure_bind, bind_pure,
      Option.isSome_none, Option.isSome_some, Bool.false_eq_true, if_false, if_true]

theorem eval_convert_methodCall {c : BridgedCallee} (hc : ∀ a ∈ c.args, a.Inward) (receiver : Expr)
    (method : String) (args : List Expr) :
    (c.convert (.methodCall receiver method args)).eval =
      receiver.eval >>= fun _ => Expr.evalAll args >>= c.invoke method := by
  have hargs : Expr.evalAll (Adaptation.applyAll c.args args) =
      Expr.evalAll args >>= fun vs => pure (Adaptation.wrapAll c.args vs) :=
    funext (Expr.evalAll_applyAll hc args)
  obtain ⟨isStatic, as, result⟩ := c
  unfold invoke
  cases result <;>
    simp only [convert, Expr.eval, hargs, bind_assoc, pure_bind, bind_pure,
      Option.isSome_none, Option.isSome_some, Bool.false_eq_true, if_false, if_true]

end BridgedCallee

namespace Callees

variable {cs : Callees}

/-- The arguments of a call as the method sees them, bridged or not. -/
def wrapArgs (cs : Callees) (callee : String) (args : List Value) : List Value :=
  match cs.get? callee with
  | some c => Adaptation.wrapAll c.args args
  | none => args

/-- Whether a method gives its result in a wrapper since it is bridged. -/
def wrapsResult (cs : Callees) (callee : String) : Bool :=
  (cs.get? callee).any fun c => c.result.isSome

/-- Calls a method with native values for a native result, bridged or not. -/
def invoke (cs : Callees) (callee : String) (vs : List Value) : Eval Value := do
  let v ← Machine.call callee (cs.wrapArgs callee vs)
  if cs.wrapsResult callee then v.unwrap else pure v

theorem invoke_of_some {callee : String} {c : BridgedCallee} (h : cs.get? callee = some c) :
    cs.invoke callee = c.invoke callee := by
  funext vs
  rw [invoke, wrapArgs, wrapsResult, h]
  rfl

/-- A method that is not bridged is called as before. -/
theorem invoke_of_none {callee : String} (h : cs.get? callee = none) :
    cs.invoke callee = Machine.call callee := by
  funext vs
  rw [invoke, wrapArgs, wrapsResult, h]
  exact bind_pure _

/-- The arguments of bridged methods are not taken out of wrappers. -/
def Inward (cs : Callees) : Prop := ∀ callee c, cs.get? callee = some c → ∀ a ∈ c.args, a.Inward

theorem length_adaptCallsAll (args : List Expr) :
    (Expr.adaptCallsAll cs args).value.length = args.length := by
  rw [Expr.value_adaptCallsAll, List.length_map]

/-- **An adapted call invokes what it called**, through the bridge if there is one. -/
theorem eval_adaptCalls_call (hcs : cs.Inward) {callee : String} {args : List Expr}
    (hcov : cs.Covers (Expr.call callee args).calls) :
    ((Expr.call callee args).adaptCalls cs).value.eval =
      Expr.evalAll (Expr.adaptCallsAll cs args).value >>= cs.invoke callee := by
  have hcalled := hcov.calledBy? (by rw [Expr.calls]; exact List.mem_cons_self) rfl
  rw [Expr.adaptCalls, Counted.value_bind]
  unfold Callees.convert
  rw [calledBy?_call (length_adaptCallsAll args), hcalled]
  cases hc : cs.get? callee with
  | none =>
    rw [invoke_of_none hc, Counted.value_pure, Expr.eval]
  | some c =>
    rw [invoke_of_some hc]
    exact BridgedCallee.eval_convert_call (hcs callee c hc) callee _

theorem eval_adaptCalls_methodCall (hcs : cs.Inward) {receiver : Expr} {method : String}
    {args : List Expr} (hcov : cs.Covers (Expr.methodCall receiver method args).calls) :
    ((Expr.methodCall receiver method args).adaptCalls cs).value.eval =
      (receiver.adaptCalls cs).value.eval >>= fun _ =>
        Expr.evalAll (Expr.adaptCallsAll cs args).value >>= cs.invoke method := by
  have hcalled := hcov.calledBy? (by rw [Expr.calls]; exact List.mem_cons_self) rfl
  rw [Expr.adaptCalls, Counted.value_bind, Counted.value_bind]
  unfold Callees.convert
  rw [calledBy?_methodCall (length_adaptCallsAll args), hcalled]
  cases hc : cs.get? method with
  | none =>
    rw [invoke_of_none hc, Counted.value_pure, Expr.eval]
  | some c =>
    rw [invoke_of_some hc]
    exact BridgedCallee.eval_convert_methodCall (hcs method c hc) _ method _

end Callees

end Lowering
