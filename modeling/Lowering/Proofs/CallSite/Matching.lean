import Lowering.Proofs.CallSite.Rewriting
import Lowering.Proofs.Tree.AllExprs

/-!
# Which calls are adapted

Adapting touches the calls of bridged methods and nothing else (`Block.adaptCalls_exact`). A call is looked
at after the calls in its receiver and its arguments were adapted, but that makes no difference: `this`
stays `this` and nothing else becomes it, and the number of arguments stays. So what counts is the call
as it was written.
-/

namespace Lowering

/-! ## The calls of a body -/

/-- The calls and method calls in a body, in pre-order, those of nested methods included. -/
def Block.calls (b : Block) : List Expr := b.allExprs.flatMap Expr.calls

/-- A call without its receiver and its arguments. -/
structure CallHead where
  /-- whether it is a method call -/
  onReceiver : Bool
  name : String
  /-- the number of arguments -/
  arity : Nat
deriving DecidableEq

/-- The head of a call. -/
def Expr.callHead? : Expr → Option CallHead
  | .call callee args => some ⟨false, callee, args.length⟩
  | .methodCall _ method args => some ⟨true, method, args.length⟩
  | _ => none

/-- Whether a call is one of a bridged method. -/
def Callees.isCalledBy (cs : Callees) (call : Expr) : Bool := (cs.calledBy? call).isSome

/-! ## The count -/

variable (cs : Callees)

/-- A call counts if it is one of a bridged method. -/
theorem Callees.count_convert (call : Expr) :
    (cs.convert call).count = if cs.isCalledBy call then 1 else 0 := by
  unfold Callees.convert Callees.isCalledBy
  cases cs.calledBy? call <;> rfl

mutual

/-- An expression counts the calls of bridged methods in it. -/
theorem Expr.count_adaptCalls (e : Expr) : (e.adaptCalls cs).count = e.calls.countP cs.isCalledBy := by
  cases e with
  | null | bool _ | int _ | str _ | var _ | this | wrapNone _ => rfl
  | assign _ value | not value | cast _ value | isType value _ | wrap _ value | unwrap _ value =>
    simp only [Expr.adaptCalls, Expr.calls, Counted.count_bind, Counted.count_pure,
      Expr.count_adaptCalls value, Nat.add_zero]
  | binary op left right =>
    simp only [Expr.adaptCalls, Expr.calls, Counted.count_bind, Counted.count_pure,
      Expr.count_adaptCalls left, Expr.count_adaptCalls right, List.countP_append, Nat.add_zero]
  | call callee args =>
    -- the call is looked at with its arguments adapted, and they are as many as before
    have hcalled : cs.isCalledBy (.call callee (Expr.adaptCallsAll cs args).value) =
        cs.isCalledBy (.call callee args) :=
      congrArg Option.isSome (Callees.calledBy?_call (Callees.length_adaptCallsAll args))
    rw [Expr.adaptCalls, Expr.calls, Counted.count_bind, Expr.count_adaptCallsAll args,
      Callees.count_convert, hcalled, List.countP_cons]
  | methodCall receiver method args =>
    have hcalled : cs.isCalledBy
        (.methodCall (receiver.adaptCalls cs).value method (Expr.adaptCallsAll cs args).value) =
          cs.isCalledBy (.methodCall receiver method args) :=
      congrArg Option.isSome (Callees.calledBy?_methodCall (Callees.length_adaptCallsAll args))
    rw [Expr.adaptCalls, Expr.calls, Counted.count_bind, Counted.count_bind,
      Expr.count_adaptCalls receiver, Expr.count_adaptCallsAll args, Callees.count_convert, hcalled,
      List.countP_cons, List.countP_append, Nat.add_assoc]

theorem Expr.count_adaptCallsAll (es : List Expr) :
    (Expr.adaptCallsAll cs es).count = (Expr.callsAll es).countP cs.isCalledBy := by
  cases es with
  | nil => rfl
  | cons e es =>
    simp only [Expr.adaptCallsAll, Expr.callsAll, Counted.count_bind, Counted.count_pure,
      Expr.count_adaptCalls e, Expr.count_adaptCallsAll es, List.countP_append, Nat.add_zero]

end

theorem Expr.count_adaptCallsOption (e : Option Expr) :
    (Expr.adaptCallsOption cs e).count = (e.toList.flatMap Expr.calls).countP cs.isCalledBy := by
  cases e with
  | none => rfl
  | some e =>
    simp only [Expr.adaptCallsOption, Counted.count_bind, Counted.count_pure, Expr.count_adaptCalls,
      Option.toList_some, List.flatMap_singleton, Nat.add_zero]

mutual

/-- A statement counts the calls in all its expressions, at any depth. -/
theorem Stmt.count_adaptCalls (s : Stmt) :
    (s.adaptCalls cs).count = (s.allExprs.flatMap Expr.calls).countP cs.isCalledBy := by
  cases s with
  | block body span =>
    simp only [Stmt.adaptCalls, Stmt.allExprs, Counted.count_bind, Counted.count_pure,
      Block.count_adaptCalls body, Nat.add_zero]
  | ite test yes no span =>
    simp only [Stmt.adaptCalls, Stmt.allExprs, Counted.count_bind, Counted.count_pure,
      Expr.count_adaptCalls, Stmt.count_adaptCalls yes, Stmt.count_adaptCallsOption no,
      List.flatMap_cons, List.flatMap_append, List.countP_append, Nat.add_zero]
  | loop test body span =>
    simp only [Stmt.adaptCalls, Stmt.allExprs, Counted.count_bind, Counted.count_pure,
      Expr.count_adaptCalls, Stmt.count_adaptCalls body, List.flatMap_cons, List.countP_append,
      Nat.add_zero]
  | attempt body handler cleanup span =>
    simp only [Stmt.adaptCalls, Stmt.allExprs, Counted.count_bind, Counted.count_pure,
      Block.count_adaptCalls body, Block.count_adaptCallsOption handler,
      Block.count_adaptCallsOption cleanup, List.flatMap_append, List.countP_append, Nat.add_zero]
  | labeled label body span =>
    simp only [Stmt.adaptCalls, Stmt.allExprs, Counted.count_bind, Counted.count_pure,
      Stmt.count_adaptCalls body, Nat.add_zero]
  | method decl span =>
    simp only [Stmt.adaptCalls, Stmt.allExprs, Counted.count_bind, Counted.count_pure,
      Method.count_adaptCalls decl, Nat.add_zero]
  | switch discriminant cases span =>
    simp only [Stmt.adaptCalls, Stmt.allExprs, Counted.count_bind, Counted.count_pure,
      Expr.count_adaptCalls, Case.count_adaptCallsAll cases, List.flatMap_cons, List.countP_append,
      Nat.add_zero]
  | goto _ _ | exit _ | next _ => rfl
  | eval _ _ | raise _ _ =>
    simp only [Stmt.adaptCalls, Stmt.allExprs, Counted.count_bind, Counted.count_pure,
      Expr.count_adaptCalls, List.flatMap_singleton, Nat.add_zero]
  | declare _ _ _ _ | ret _ _ | suspend _ _ _ =>
    simp only [Stmt.adaptCalls, Stmt.allExprs, Counted.count_bind, Counted.count_pure,
      Expr.count_adaptCallsOption, Nat.add_zero]

theorem Stmt.count_adaptCallsOption (s : Option Stmt) :
    (Stmt.adaptCallsOption cs s).count =
      ((Stmt.allExprsOption s).flatMap Expr.calls).countP cs.isCalledBy := by
  cases s with
  | none => rfl
  | some s =>
    simp only [Stmt.adaptCallsOption, Stmt.allExprsOption, Counted.count_bind, Counted.count_pure,
      Stmt.count_adaptCalls s, Nat.add_zero]

theorem Stmt.count_adaptCallsAll (ss : List Stmt) :
    (Stmt.adaptCallsAll cs ss).count = ((Stmt.allExprsAll ss).flatMap Expr.calls).countP cs.isCalledBy := by
  cases ss with
  | nil => rfl
  | cons s ss =>
    simp only [Stmt.adaptCallsAll, Stmt.allExprsAll, Counted.count_bind, Counted.count_pure,
      Stmt.count_adaptCalls s, Stmt.count_adaptCallsAll ss, List.flatMap_append, List.countP_append,
      Nat.add_zero]

/-- **A body counts the calls of bridged methods in it.** -/
theorem Block.count_adaptCalls (b : Block) :
    (b.adaptCalls cs).count = (b.allExprs.flatMap Expr.calls).countP cs.isCalledBy := by
  cases b with
  | mk stmts span =>
    simp only [Block.adaptCalls, Block.allExprs, Counted.count_bind, Counted.count_pure,
      Stmt.count_adaptCallsAll stmts, Nat.add_zero]

theorem Block.count_adaptCallsOption (b : Option Block) :
    (Block.adaptCallsOption cs b).count =
      ((Block.allExprsOption b).flatMap Expr.calls).countP cs.isCalledBy := by
  cases b with
  | none => rfl
  | some b =>
    simp only [Block.adaptCallsOption, Block.allExprsOption, Counted.count_bind, Counted.count_pure,
      Block.count_adaptCalls b, Nat.add_zero]

theorem Case.count_adaptCallsAll (cases : List Case) :
    (Case.adaptCallsAll cs cases).count =
      ((Case.allExprsAll cases).flatMap Expr.calls).countP cs.isCalledBy := by
  cases cases with
  | nil => rfl
  | cons case cases =>
    cases case with
    | mk test body =>
      simp only [Case.adaptCallsAll, Case.allExprsAll, Counted.count_bind, Counted.count_pure,
        Expr.count_adaptCallsOption, Block.count_adaptCalls body, Case.count_adaptCallsAll cases,
        List.flatMap_append, List.countP_append, Nat.add_zero]

theorem Method.count_adaptCalls (m : Method) :
    (m.adaptCalls cs).count = (m.allExprs.flatMap Expr.calls).countP cs.isCalledBy := by
  cases m with
  | mk name visibility isStatic params ret body span =>
    simp only [Method.adaptCalls, Method.allExprs, Counted.count_bind, Counted.count_pure,
      Block.count_adaptCalls body, Nat.add_zero]

end

/-! ## The heads -/

/-- A change of representation adds no call and loses none. -/
theorem Adaptation.calls_apply (a : Adaptation) (e : Expr) : (a.apply e).calls = e.calls := by
  obtain ⟨source, dest, ty⟩ := a
  unfold apply
  cases source with
  | native =>
    cases dest with
    | native => rfl
    | wrapper => cases e <;> rfl
  | wrapper =>
    cases dest with
    | native =>
      dsimp only
      split <;> rfl
    | wrapper => rfl

theorem Adaptation.callsAll_applyAll (as : List Adaptation) (es : List Expr) :
    Expr.callsAll (applyAll as es) = Expr.callsAll es := by
  induction as generalizing es with
  | nil => rfl
  | cons a as ih =>
    cases es with
    | nil => rfl
    | cons e es => rw [applyAll, Expr.callsAll, calls_apply, ih, Expr.callsAll]

theorem Adaptation.length_applyAll (as : List Adaptation) (es : List Expr) :
    (applyAll as es).length = es.length := by
  induction as generalizing es with
  | nil => rfl
  | cons a as ih =>
    cases es with
    | nil => rfl
    | cons e es => rw [applyAll, List.length_cons, ih, List.length_cons]

/-- Converting a call, its result included, adds no call, loses none and keeps their heads. -/
theorem BridgedCallee.heads_convert (c : BridgedCallee) (call : Expr) :
    (c.convert call).calls.map Expr.callHead? = call.calls.map Expr.callHead? := by
  cases call with
  | call callee args =>
    have hcalls : (c.convert (.call callee args)).calls =
        (Expr.call callee (Adaptation.applyAll c.args args)).calls := by
      unfold convert
      cases c.result <;> rfl
    rw [hcalls, Expr.calls, Expr.calls, Adaptation.callsAll_applyAll, List.map_cons, List.map_cons,
      Expr.callHead?, Expr.callHead?, Adaptation.length_applyAll]
  | methodCall receiver method args =>
    have hcalls : (c.convert (.methodCall receiver method args)).calls =
        (Expr.methodCall receiver method (Adaptation.applyAll c.args args)).calls := by
      unfold convert
      cases c.result <;> rfl
    rw [hcalls, Expr.calls, Expr.calls, Adaptation.callsAll_applyAll, List.map_cons, List.map_cons,
      Expr.callHead?, Expr.callHead?, Adaptation.length_applyAll]
  | _ =>
    unfold convert
    cases c.result <;> rfl

/-- A call that is converted is still the call of that method, with as many arguments. -/
theorem Callees.heads_adapt (call : Expr) :
    (cs.adapt call).calls.map Expr.callHead? = call.calls.map Expr.callHead? := by
  cases hcalled : cs.calledBy? call with
  | none => rw [Callees.adapt_of_none hcalled]
  | some c => rw [Callees.adapt_of_some hcalled, BridgedCallee.heads_convert]

theorem Expr.length_mapCallsAll (f : Expr → Expr) (es : List Expr) :
    (Expr.mapCallsAll f es).length = es.length := by
  induction es with
  | nil => rfl
  | cons e es ih => rw [Expr.mapCallsAll, List.length_cons, ih, List.length_cons]

mutual

/-- The heads of an expression stay if they do when a single call is rewritten. -/
theorem Expr.heads_mapCalls {f : Expr → Expr}
    (hf : ∀ call, (f call).calls.map Expr.callHead? = call.calls.map Expr.callHead?) (e : Expr) :
    (e.mapCalls f).calls.map Expr.callHead? = e.calls.map Expr.callHead? := by
  cases e with
  | null | bool _ | int _ | str _ | var _ | this | wrapNone _ => rfl
  | assign _ value | not value | cast _ value | isType value _ | wrap _ value | unwrap _ value =>
    rw [Expr.mapCalls, Expr.calls, Expr.heads_mapCalls hf value, Expr.calls]
  | binary op left right =>
    rw [Expr.mapCalls, Expr.calls, List.map_append, Expr.heads_mapCalls hf left,
      Expr.heads_mapCalls hf right, Expr.calls, List.map_append]
  | call callee args =>
    rw [Expr.mapCalls, hf, Expr.calls, List.map_cons, Expr.heads_mapCallsAll hf args, Expr.calls,
      List.map_cons, Expr.callHead?, Expr.callHead?, Expr.length_mapCallsAll]
  | methodCall receiver method args =>
    rw [Expr.mapCalls, hf, Expr.calls, List.map_cons, List.map_append, Expr.heads_mapCalls hf receiver,
      Expr.heads_mapCallsAll hf args, Expr.calls, List.map_cons, List.map_append, Expr.callHead?,
      Expr.callHead?, Expr.length_mapCallsAll]

theorem Expr.heads_mapCallsAll {f : Expr → Expr}
    (hf : ∀ call, (f call).calls.map Expr.callHead? = call.calls.map Expr.callHead?) (es : List Expr) :
    (Expr.callsAll (Expr.mapCallsAll f es)).map Expr.callHead? =
      (Expr.callsAll es).map Expr.callHead? := by
  cases es with
  | nil => rfl
  | cons e es =>
    rw [Expr.mapCallsAll, Expr.callsAll, List.map_append, Expr.heads_mapCalls hf e,
      Expr.heads_mapCallsAll hf es, Expr.callsAll, List.map_append]

end

/-! ## Bodies -/

/-- The heads of the calls of a body stay if they do when a single call is rewritten. -/
theorem Block.heads_mapCalls {f : Expr → Expr}
    (hf : ∀ call, (f call).calls.map Expr.callHead? = call.calls.map Expr.callHead?) (b : Block) :
    (b.mapExprs (Expr.mapCalls f)).calls.map Expr.callHead? = b.calls.map Expr.callHead? := by
  rw [Block.calls, Block.calls, Block.allExprs_mapExprs, List.flatMap_map, List.map_flatMap,
    List.map_flatMap]
  simp only [Expr.heads_mapCalls hf]

theorem Method.heads_mapCalls {f : Expr → Expr}
    (hf : ∀ call, (f call).calls.map Expr.callHead? = call.calls.map Expr.callHead?) (m : Method) :
    (m.mapCalls f).body.calls.map Expr.callHead? = m.body.calls.map Expr.callHead? := by
  rw [Method.mapCalls, Method.mapExprs_eq]
  exact m.body.heads_mapCalls hf

/-- A body without calls of bridged methods stays as it is. -/
theorem Block.adaptCalls_eq_self {cs : Callees} {b : Block}
    (h : ∀ call ∈ b.calls, cs.calledBy? call = none) : (b.adaptCalls cs).value = b := by
  rw [Block.adaptCalls_eq_mapExprs]
  refine b.mapExprs_eq_self fun e he => e.mapCalls_eq_self fun call hcall => ?_
  exact Callees.adapt_of_none (h call (List.mem_flatMap.mpr ⟨e, he, hcall⟩))

/-- **Adapting calls touches the calls of bridged methods and nothing else.** It counts them, it keeps the
heads of all calls, in order, it rewrites a body call by call inside its expressions, and if it counts
none the body stays as it is. -/
theorem Block.adaptCalls_exact (cs : Callees) (b : Block) :
    (b.adaptCalls cs).count = b.calls.countP (fun call => (cs.calledBy? call).isSome) ∧
      (b.adaptCalls cs).value.calls.map Expr.callHead? = b.calls.map Expr.callHead? ∧
      (b.adaptCalls cs).value = b.mapExprs (Expr.mapCalls cs.adapt) ∧
      ((b.adaptCalls cs).count = 0 → (b.adaptCalls cs).value = b) := by
  have hvalue := b.adaptCalls_eq_mapExprs cs
  have hheads := b.heads_mapCalls cs.heads_adapt
  refine ⟨b.count_adaptCalls cs, hvalue ▸ hheads, hvalue, fun hcount => ?_⟩
  refine Block.adaptCalls_eq_self fun call hcall => ?_
  rw [Block.count_adaptCalls] at hcount
  exact Option.not_isSome_iff_eq_none.mp (List.countP_eq_zero.mp hcount call hcall)

/-- An instance method `int f(int x)` whose bridge takes and gives a wrapper. -/
def BridgedCallee.wrappedF : BridgedCallee := ⟨false, [⟨.native, .wrapper, .optional .int⟩], some .int⟩

def Callees.wrappedF : Callees := Dict.empty.insert "f" .wrappedF

/-- `x.f(1); f(2); void g() { this.f(3, 4); }` has another receiver, another form, another number of
arguments. -/
def Block.nearMisses : Block :=
  ⟨[.eval (.methodCall (.var "x") "f" [.int 1]) .dummy, .eval (.call "f" [.int 2]) .dummy,
    .method ⟨"g", .pub, false, [], .void,
      ⟨[.eval (.methodCall .this "f" [.int 3, .int 4]) .dummy], .dummy⟩, .dummy⟩ .dummy], .dummy⟩

/-- `this.f(g(this.f(1)));` -/
def Block.nestedCalls : Block :=
  ⟨[.eval (.methodCall .this "f" [.call "g" [.methodCall .this "f" [.int 1]]]) .dummy], .dummy⟩

/-- `unwrap(this.f(wrap(g(unwrap(this.f(wrap(1)))))));` -/
def Block.nestedConversions : Block :=
  let inner := BridgedCallee.wrappedF.convert (.methodCall .this "f" [.int 1])
  ⟨[.eval (BridgedCallee.wrappedF.convert (.methodCall .this "f" [.call "g" [inner]])) .dummy], .dummy⟩

/-- Near misses stay as they are. Of two nested calls both are converted, and that changes them. -/
theorem Block.adaptCalls_exact_nearMisses :
    (nearMisses.calls.length = 3 ∧ (nearMisses.adaptCalls .wrappedF).count = 0 ∧
      (nearMisses.adaptCalls .wrappedF).value = nearMisses) ∧
    (nestedCalls.adaptCalls .wrappedF).count = 2 ∧
      (nestedCalls.adaptCalls .wrappedF).value = nestedConversions ∧ nestedConversions ≠ nestedCalls := by
  constructor
  · have hcount : (nearMisses.adaptCalls .wrappedF).count = 0 := by rfl
    exact ⟨rfl, hcount, (adaptCalls_exact .wrappedF nearMisses).2.2.2 hcount⟩
  · obtain ⟨hcount, -, hvalue, -⟩ := adaptCalls_exact .wrappedF nestedCalls
    exact ⟨hcount, hvalue.trans (by decide +kernel), by decide +kernel⟩

end Lowering
