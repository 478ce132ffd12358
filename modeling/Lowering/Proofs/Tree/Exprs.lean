import Lowering.Tree.Declared
import Lowering.Tree.Suspension

/-!
# Rewriting the expressions of a body

`Method.mapExprs g` rewrites every expression in the body of a method with `g`, the bodies of nested
methods included, and leaves all else: the heads of methods, the statements, their order and their
spans. So it keeps all that does not depend on expressions, such as where a body suspends and what it
declares.
-/

namespace Lowering

variable (g : Expr → Expr)

mutual

/-- Rewrites every expression in a statement, at any depth. -/
def Stmt.mapExprs : Stmt → Stmt
  | .block body span => .block body.mapExprs span
  | .ite test yes no span => .ite (g test) yes.mapExprs (Stmt.mapExprsOption no) span
  | .loop test body span => .loop (g test) body.mapExprs span
  | .attempt body handler cleanup span =>
    .attempt body.mapExprs (Block.mapExprsOption handler) (Block.mapExprsOption cleanup) span
  | .labeled label body span => .labeled label body.mapExprs span
  | .goto label span => .goto label span
  | .exit span => .exit span
  | .next span => .next span
  | .eval value span => .eval (g value) span
  | .declare name ty init span => .declare name ty (init.map g) span
  | .ret value span => .ret (value.map g) span
  | .suspend kind value span => .suspend kind (value.map g) span
  | .raise value span => .raise (g value) span
  | .method decl span => .method decl.mapExprs span
  | .switch discriminant cases span => .switch (g discriminant) (Case.mapExprsAll cases) span

def Stmt.mapExprsOption : Option Stmt → Option Stmt
  | none => none
  | some s => some s.mapExprs

def Stmt.mapExprsAll : List Stmt → List Stmt
  | [] => []
  | s :: ss => s.mapExprs :: Stmt.mapExprsAll ss

/-- Rewrites every expression in a block, at any depth. -/
def Block.mapExprs : Block → Block
  | ⟨stmts, span⟩ => ⟨Stmt.mapExprsAll stmts, span⟩

def Block.mapExprsOption : Option Block → Option Block
  | none => none
  | some b => some b.mapExprs

def Case.mapExprsAll : List Case → List Case
  | [] => []
  | ⟨test, body⟩ :: cases => ⟨test.map g, body.mapExprs⟩ :: Case.mapExprsAll cases

/-- Rewrites every expression in the body of a method, at any depth. -/
def Method.mapExprs : Method → Method
  | ⟨name, visibility, isStatic, params, ret, body, span⟩ =>
    ⟨name, visibility, isStatic, params, ret, body.mapExprs, span⟩

end

/-- Of a method only the body is rewritten. -/
theorem Method.mapExprs_eq (m : Method) : m.mapExprs g = { m with body := m.body.mapExprs g } := by
  cases m with
  | mk name visibility isStatic params ret body span => rw [Method.mapExprs]

/-! ## Where a body suspends -/

mutual

/-- Which suspension comes first depends on the statements alone, not on their expressions. -/
theorem Stmt.findSuspension_mapExprs (inside : Bool) (s : Stmt) :
    (s.mapExprs g).findSuspension inside = s.findSuspension inside := by
  cases s with
  | block body span =>
    simp only [Stmt.mapExprs, Stmt.findSuspension, Block.findSuspension_mapExprs inside body]
  | ite test yes no span =>
    simp only [Stmt.mapExprs, Stmt.findSuspension, Stmt.findSuspension_mapExprs inside yes,
      Stmt.findSuspension_mapExprsOption inside no]
  | loop test body span =>
    simp only [Stmt.mapExprs, Stmt.findSuspension, Stmt.findSuspension_mapExprs inside body]
  | labeled label body span =>
    simp only [Stmt.mapExprs, Stmt.findSuspension, Stmt.findSuspension_mapExprs inside body]
  | attempt body handler cleanup span =>
    -- whether there is a handler decides which suspensions count
    have hcaught : (Block.mapExprsOption g handler).isSome = handler.isSome := by
      cases handler with
      | none => rw [Block.mapExprsOption]
      | some handler =>
        rw [Block.mapExprsOption]
        rfl
    simp only [Stmt.mapExprs, Stmt.findSuspension, hcaught, Block.findSuspension_mapExprs _ body,
      Block.findSuspension_mapExprsOption _ handler, Block.findSuspension_mapExprsOption _ cleanup]
  | switch discriminant cases span =>
    simp only [Stmt.mapExprs, Stmt.findSuspension, Case.findSuspension_mapExprsAll inside cases]
  | goto _ _ | exit _ | next _ | eval _ _ | declare _ _ _ _ | ret _ _ | suspend _ _ _ | raise _ _
  | method _ _ => simp only [Stmt.mapExprs, Stmt.findSuspension]

theorem Stmt.findSuspension_mapExprsOption (inside : Bool) (s : Option Stmt) :
    Stmt.findSuspensionOption inside (Stmt.mapExprsOption g s) =
      Stmt.findSuspensionOption inside s := by
  cases s with
  | none => rw [Stmt.mapExprsOption]
  | some s =>
    simp only [Stmt.mapExprsOption, Stmt.findSuspensionOption, Stmt.findSuspension_mapExprs inside s]

theorem Stmt.findSuspension_mapExprsAll (inside : Bool) (ss : List Stmt) :
    Stmt.findSuspensionAny inside (Stmt.mapExprsAll g ss) = Stmt.findSuspensionAny inside ss := by
  cases ss with
  | nil => rw [Stmt.mapExprsAll]
  | cons s ss =>
    simp only [Stmt.mapExprsAll, Stmt.findSuspensionAny, Stmt.findSuspension_mapExprs inside s,
      Stmt.findSuspension_mapExprsAll inside ss]

/-- **A body with rewritten expressions suspends where the body does.** -/
theorem Block.findSuspension_mapExprs (inside : Bool) (b : Block) :
    (b.mapExprs g).findSuspension inside = b.findSuspension inside := by
  cases b with
  | mk stmts span =>
    simp only [Block.mapExprs, Block.findSuspension, Stmt.findSuspension_mapExprsAll inside stmts]

theorem Block.findSuspension_mapExprsOption (inside : Bool) (b : Option Block) :
    Block.findSuspensionOption inside (Block.mapExprsOption g b) =
      Block.findSuspensionOption inside b := by
  cases b with
  | none => rw [Block.mapExprsOption]
  | some b =>
    simp only [Block.mapExprsOption, Block.findSuspensionOption, Block.findSuspension_mapExprs inside b]

theorem Case.findSuspension_mapExprsAll (inside : Bool) (cases : List Case) :
    Case.findSuspensionAny inside (Case.mapExprsAll g cases) = Case.findSuspensionAny inside cases := by
  cases cases with
  | nil => rw [Case.mapExprsAll]
  | cons case cases =>
    cases case with
    | mk test body =>
      simp only [Case.mapExprsAll, Case.findSuspensionAny, Block.findSuspension_mapExprs inside body,
        Case.findSuspension_mapExprsAll inside cases]

end

/-! ## What it declares -/

mutual

/-- Names are declared by statements, so rewriting expressions adds and loses none. -/
theorem Stmt.declared_mapExprs (s : Stmt) : (s.mapExprs g).declared = s.declared := by
  cases s with
  | block body span => simp only [Stmt.mapExprs, Stmt.declared, Block.declared_mapExprs body]
  | ite test yes no span =>
    simp only [Stmt.mapExprs, Stmt.declared, Stmt.declared_mapExprs yes,
      Stmt.declared_mapExprsOption no]
  | loop test body span => simp only [Stmt.mapExprs, Stmt.declared, Stmt.declared_mapExprs body]
  | labeled label body span => simp only [Stmt.mapExprs, Stmt.declared, Stmt.declared_mapExprs body]
  | attempt body handler cleanup span =>
    simp only [Stmt.mapExprs, Stmt.declared, Block.declared_mapExprs body,
      Block.declared_mapExprsOption handler, Block.declared_mapExprsOption cleanup]
  | switch discriminant cases span =>
    simp only [Stmt.mapExprs, Stmt.declared, Case.declared_mapExprsAll cases]
  | method decl span => simp only [Stmt.mapExprs, Stmt.declared, Method.declared_mapExprs decl]
  | goto _ _ | exit _ | next _ | eval _ _ | declare _ _ _ _ | ret _ _ | suspend _ _ _ | raise _ _ =>
    simp only [Stmt.mapExprs, Stmt.declared]

theorem Stmt.declared_mapExprsOption (s : Option Stmt) :
    Stmt.declaredOption (Stmt.mapExprsOption g s) = Stmt.declaredOption s := by
  cases s with
  | none => rw [Stmt.mapExprsOption]
  | some s => simp only [Stmt.mapExprsOption, Stmt.declaredOption, Stmt.declared_mapExprs s]

theorem Stmt.declared_mapExprsAll (ss : List Stmt) :
    Stmt.declaredAll (Stmt.mapExprsAll g ss) = Stmt.declaredAll ss := by
  cases ss with
  | nil => rw [Stmt.mapExprsAll]
  | cons s ss =>
    simp only [Stmt.mapExprsAll, Stmt.declaredAll, Stmt.declared_mapExprs s,
      Stmt.declared_mapExprsAll ss]

/-- The names that a body declares stay, in their order. -/
theorem Block.declared_mapExprs (b : Block) : (b.mapExprs g).declared = b.declared := by
  cases b with
  | mk stmts span => simp only [Block.mapExprs, Block.declared, Stmt.declared_mapExprsAll stmts]

theorem Block.declared_mapExprsOption (b : Option Block) :
    Block.declaredOption (Block.mapExprsOption g b) = Block.declaredOption b := by
  cases b with
  | none => rw [Block.mapExprsOption]
  | some b => simp only [Block.mapExprsOption, Block.declaredOption, Block.declared_mapExprs b]

theorem Case.declared_mapExprsAll (cases : List Case) :
    Case.declaredAll (Case.mapExprsAll g cases) = Case.declaredAll cases := by
  cases cases with
  | nil => rw [Case.mapExprsAll]
  | cons case cases =>
    cases case with
    | mk test body =>
      simp only [Case.mapExprsAll, Case.declaredAll, Block.declared_mapExprs body,
        Case.declared_mapExprsAll cases]

/-- **Rewriting the expressions of a method keeps all names that it declares**, its own and its
parameters included. -/
theorem Method.declared_mapExprs (m : Method) : (m.mapExprs g).declared = m.declared := by
  cases m with
  | mk name visibility isStatic params ret body span =>
    simp only [Method.mapExprs, Method.declared, Block.declared_mapExprs body]

end

end Lowering
