import Lowering.Proofs.CallSite.Adapted
import Lowering.Proofs.Tree.Exprs

/-!
# Adapting calls is rewriting calls

`Method.mapCalls f` rewrites every call in the body of a method with `f`, the calls in the arguments of
a call before the call itself. Adapting the calls of a method is such a rewriting
(`Method.adaptCalls_eq_mapCalls`), and what becomes of a call depends on the callees alone.
-/

namespace Lowering

/-! ## Rewriting calls -/

section MapCalls

variable (f : Expr → Expr)

mutual

/-- Rewrites every call and method call in an expression, arguments first. -/
def Expr.mapCalls : Expr → Expr
  | .null => .null
  | .bool b => .bool b
  | .int n => .int n
  | .str s => .str s
  | .var name => .var name
  | .this => .this
  | .wrapNone ty => .wrapNone ty
  | .assign target value => .assign target value.mapCalls
  | .not value => .not value.mapCalls
  | .cast ty value => .cast ty value.mapCalls
  | .isType value ty => .isType value.mapCalls ty
  | .wrap ty value => .wrap ty value.mapCalls
  | .unwrap ty value => .unwrap ty value.mapCalls
  | .binary op left right => .binary op left.mapCalls right.mapCalls
  | .call callee args => f (.call callee (Expr.mapCallsAll args))
  | .methodCall receiver method args =>
    f (.methodCall receiver.mapCalls method (Expr.mapCallsAll args))

def Expr.mapCallsAll : List Expr → List Expr
  | [] => []
  | e :: es => e.mapCalls :: Expr.mapCallsAll es

end

/-- Rewrites every call in the body of a method, at any depth. -/
def Method.mapCalls (m : Method) : Method := m.mapExprs (Expr.mapCalls f)

variable {f}

mutual

/-- An expression stays as it is if its calls do. -/
theorem Expr.mapCalls_eq_self (e : Expr) (h : ∀ call ∈ e.calls, f call = call) : e.mapCalls f = e := by
  cases e with
  | null | bool _ | int _ | str _ | var _ | this | wrapNone _ => rw [Expr.mapCalls]
  | assign _ value | not value | cast _ value | isType value _ | wrap _ value | unwrap _ value =>
    rw [Expr.mapCalls, Expr.mapCalls_eq_self value h]
  | binary op left right =>
    rw [Expr.calls, List.forall_mem_append] at h
    rw [Expr.mapCalls, Expr.mapCalls_eq_self left h.1, Expr.mapCalls_eq_self right h.2]
  | call callee args =>
    rw [Expr.calls, List.forall_mem_cons] at h
    rw [Expr.mapCalls, Expr.mapCallsAll_eq_self args h.2, h.1]
  | methodCall receiver method args =>
    rw [Expr.calls, List.forall_mem_cons, List.forall_mem_append] at h
    rw [Expr.mapCalls, Expr.mapCalls_eq_self receiver h.2.1, Expr.mapCallsAll_eq_self args h.2.2, h.1]

theorem Expr.mapCallsAll_eq_self (es : List Expr) (h : ∀ call ∈ Expr.callsAll es, f call = call) :
    Expr.mapCallsAll f es = es := by
  cases es with
  | nil => rw [Expr.mapCallsAll]
  | cons e es =>
    rw [Expr.callsAll, List.forall_mem_append] at h
    rw [Expr.mapCallsAll, Expr.mapCalls_eq_self e h.1, Expr.mapCallsAll_eq_self es h.2]

end

end MapCalls

/-! ## Adapting calls -/

namespace Callees

variable (cs : Callees)

/-- What becomes of a call. -/
def adapt (call : Expr) : Expr := (cs.convert call).value

variable {cs} {call : Expr} {c : BridgedCallee}

theorem adapt_of_some (h : cs.calledBy? call = some c) : cs.adapt call = c.convert call := by
  rw [adapt, Callees.convert, h]

/-- Only calls of bridged methods are touched. -/
theorem adapt_of_none (h : cs.calledBy? call = none) : cs.adapt call = call := by
  rw [adapt, Callees.convert, h]
  rfl

end Callees

variable (cs : Callees)

mutual

/-- Adapting looks at a call after its arguments, as rewriting does, so the two are one. -/
theorem Expr.adaptCalls_eq_mapCalls (e : Expr) : (e.adaptCalls cs).value = e.mapCalls cs.adapt := by
  cases e with
  | null | bool _ | int _ | str _ | var _ | this | wrapNone _ =>
    rw [Expr.adaptCalls, Expr.mapCalls, Counted.value_pure]
  | assign _ value | not value | cast _ value | isType value _ | wrap _ value | unwrap _ value =>
    rw [Expr.adaptCalls, Expr.mapCalls, Counted.value_bind, Counted.value_pure,
      Expr.adaptCalls_eq_mapCalls value]
  | binary op left right =>
    rw [Expr.adaptCalls, Expr.mapCalls, Counted.value_bind, Counted.value_bind, Counted.value_pure,
      Expr.adaptCalls_eq_mapCalls left, Expr.adaptCalls_eq_mapCalls right]
  | call callee args =>
    rw [Expr.adaptCalls, Expr.mapCalls, Counted.value_bind, Expr.adaptCallsAll_eq_mapCalls args]
    rfl
  | methodCall receiver method args =>
    rw [Expr.adaptCalls, Expr.mapCalls, Counted.value_bind, Counted.value_bind,
      Expr.adaptCalls_eq_mapCalls receiver, Expr.adaptCallsAll_eq_mapCalls args]
    rfl

theorem Expr.adaptCallsAll_eq_mapCalls (es : List Expr) :
    (Expr.adaptCallsAll cs es).value = Expr.mapCallsAll cs.adapt es := by
  cases es with
  | nil => rw [Expr.adaptCallsAll, Expr.mapCallsAll, Counted.value_pure]
  | cons e es =>
    rw [Expr.adaptCallsAll, Expr.mapCallsAll, Counted.value_bind, Counted.value_bind,
      Counted.value_pure, Expr.adaptCalls_eq_mapCalls e, Expr.adaptCallsAll_eq_mapCalls es]

end

mutual

/-- A statement is adapted expression by expression. -/
theorem Stmt.adaptCalls_eq_mapExprs (s : Stmt) :
    (s.adaptCalls cs).value = s.mapExprs (Expr.mapCalls cs.adapt) := by
  cases s with
  | block body span =>
    simp only [Stmt.adaptCalls, Stmt.mapExprs, Counted.value_bind, Counted.value_pure,
      Block.adaptCalls_eq_mapExprs body]
  | ite test yes no span =>
    simp only [Stmt.adaptCalls, Stmt.mapExprs, Counted.value_bind, Counted.value_pure,
      Expr.adaptCalls_eq_mapCalls, Stmt.adaptCalls_eq_mapExprs yes, Stmt.adaptCallsOption_eq_mapExprs no]
  | loop test body span =>
    simp only [Stmt.adaptCalls, Stmt.mapExprs, Counted.value_bind, Counted.value_pure,
      Expr.adaptCalls_eq_mapCalls, Stmt.adaptCalls_eq_mapExprs body]
  | attempt body handler cleanup span =>
    simp only [Stmt.adaptCalls, Stmt.mapExprs, Counted.value_bind, Counted.value_pure,
      Block.adaptCalls_eq_mapExprs body, Block.adaptCallsOption_eq_mapExprs handler,
      Block.adaptCallsOption_eq_mapExprs cleanup]
  | labeled label body span =>
    simp only [Stmt.adaptCalls, Stmt.mapExprs, Counted.value_bind, Counted.value_pure,
      Stmt.adaptCalls_eq_mapExprs body]
  | method decl span =>
    simp only [Stmt.adaptCalls, Stmt.mapExprs, Counted.value_bind, Counted.value_pure,
      Method.adaptCalls_eq_mapCalls decl, Method.mapCalls]
  | switch discriminant cases span =>
    simp only [Stmt.adaptCalls, Stmt.mapExprs, Counted.value_bind, Counted.value_pure,
      Expr.adaptCalls_eq_mapCalls, Case.adaptCallsAll_eq_mapExprs cases]
  | goto _ _ | exit _ | next _ | eval _ _ | declare _ _ _ _ | ret _ _ | suspend _ _ _ | raise _ _ =>
    simp only [Stmt.adaptCalls, Stmt.mapExprs, Counted.value_bind, Counted.value_pure,
      Expr.adaptCalls_eq_mapCalls, Expr.value_adaptCallsOption]

theorem Stmt.adaptCallsOption_eq_mapExprs (s : Option Stmt) :
    (Stmt.adaptCallsOption cs s).value = Stmt.mapExprsOption (Expr.mapCalls cs.adapt) s := by
  cases s with
  | none => rw [Stmt.adaptCallsOption, Stmt.mapExprsOption, Counted.value_pure]
  | some s =>
    simp only [Stmt.adaptCallsOption, Stmt.mapExprsOption, Counted.value_bind, Counted.value_pure,
      Stmt.adaptCalls_eq_mapExprs s]

theorem Stmt.adaptCallsAll_eq_mapExprs (ss : List Stmt) :
    (Stmt.adaptCallsAll cs ss).value = Stmt.mapExprsAll (Expr.mapCalls cs.adapt) ss := by
  cases ss with
  | nil => rw [Stmt.adaptCallsAll, Stmt.mapExprsAll, Counted.value_pure]
  | cons s ss =>
    simp only [Stmt.adaptCallsAll, Stmt.mapExprsAll, Counted.value_bind, Counted.value_pure,
      Stmt.adaptCalls_eq_mapExprs s, Stmt.adaptCallsAll_eq_mapExprs ss]

/-- **Adapting the calls of a body rewrites its expressions and keeps its statements.** -/
theorem Block.adaptCalls_eq_mapExprs (b : Block) :
    (b.adaptCalls cs).value = b.mapExprs (Expr.mapCalls cs.adapt) := by
  cases b with
  | mk stmts span =>
    simp only [Block.adaptCalls, Block.mapExprs, Counted.value_bind, Counted.value_pure,
      Stmt.adaptCallsAll_eq_mapExprs stmts]

theorem Block.adaptCallsOption_eq_mapExprs (b : Option Block) :
    (Block.adaptCallsOption cs b).value = Block.mapExprsOption (Expr.mapCalls cs.adapt) b := by
  cases b with
  | none => rw [Block.adaptCallsOption, Block.mapExprsOption, Counted.value_pure]
  | some b =>
    simp only [Block.adaptCallsOption, Block.mapExprsOption, Counted.value_bind, Counted.value_pure,
      Block.adaptCalls_eq_mapExprs b]

theorem Case.adaptCallsAll_eq_mapExprs (cases : List Case) :
    (Case.adaptCallsAll cs cases).value = Case.mapExprsAll (Expr.mapCalls cs.adapt) cases := by
  cases cases with
  | nil => rw [Case.adaptCallsAll, Case.mapExprsAll, Counted.value_pure]
  | cons case cases =>
    cases case with
    | mk test body =>
      simp only [Case.adaptCallsAll, Case.mapExprsAll, Counted.value_bind, Counted.value_pure,
        Expr.adaptCalls_eq_mapCalls, Expr.value_adaptCallsOption, Block.adaptCalls_eq_mapExprs body,
        Case.adaptCallsAll_eq_mapExprs cases]

/-- **Adapting the calls of a method rewrites its calls**, and nothing else. -/
theorem Method.adaptCalls_eq_mapCalls (m : Method) : (m.adaptCalls cs).value = m.mapCalls cs.adapt := by
  cases m with
  | mk name visibility isStatic params ret body span =>
    simp only [Method.adaptCalls, Method.mapCalls, Method.mapExprs, Counted.value_bind,
      Counted.value_pure, Block.adaptCalls_eq_mapExprs body]

end

end Lowering
