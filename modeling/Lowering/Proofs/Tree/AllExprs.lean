import Lowering.Proofs.Tree.Exprs

/-!
# All expressions of a body

`Block.allExprs` lists the expressions of a body in pre-order, those of nested methods included: a
condition comes before what it decides. Rewriting the expressions of a body rewrites this list
(`Block.allExprs_mapExprs`), and a body stays as it is if its expressions do (`Block.mapExprs_eq_self`).
-/

namespace Lowering

mutual

/-- The expressions of a statement, at any depth. -/
def Stmt.allExprs : Stmt → List Expr
  | .block body _ => body.allExprs
  | .ite test yes no _ => test :: (yes.allExprs ++ Stmt.allExprsOption no)
  | .loop test body _ => test :: body.allExprs
  | .attempt body handler cleanup _ =>
    body.allExprs ++ (Block.allExprsOption handler ++ Block.allExprsOption cleanup)
  | .labeled _ body _ => body.allExprs
  | .eval value _ | .raise value _ => [value]
  | .declare _ _ value _ | .ret value _ | .suspend _ value _ => value.toList
  | .method decl _ => decl.allExprs
  | .switch discriminant cases _ => discriminant :: Case.allExprsAll cases
  | .goto .. | .exit .. | .next .. => []

def Stmt.allExprsOption : Option Stmt → List Expr
  | none => []
  | some s => s.allExprs

def Stmt.allExprsAll : List Stmt → List Expr
  | [] => []
  | s :: ss => s.allExprs ++ Stmt.allExprsAll ss

/-- The expressions of a block, at any depth. -/
def Block.allExprs : Block → List Expr
  | ⟨stmts, _⟩ => Stmt.allExprsAll stmts

def Block.allExprsOption : Option Block → List Expr
  | none => []
  | some b => b.allExprs

def Case.allExprsAll : List Case → List Expr
  | [] => []
  | ⟨test, body⟩ :: cases => test.toList ++ (body.allExprs ++ Case.allExprsAll cases)

/-- The expressions in the body of a method, at any depth. -/
def Method.allExprs : Method → List Expr
  | ⟨_, _, _, _, _, body, _⟩ => body.allExprs

end

/-! ## Rewriting them -/

section MapExprs

variable (g : Expr → Expr)

mutual

/-- The expressions of a rewritten statement are the rewritten ones, in the same order. -/
theorem Stmt.allExprs_mapExprs (s : Stmt) : (s.mapExprs g).allExprs = s.allExprs.map g := by
  cases s with
  | block body span => simp only [Stmt.mapExprs, Stmt.allExprs, Block.allExprs_mapExprs body]
  | ite test yes no span =>
    simp only [Stmt.mapExprs, Stmt.allExprs, Stmt.allExprs_mapExprs yes,
      Stmt.allExprs_mapExprsOption no, List.map_cons, List.map_append]
  | loop test body span =>
    simp only [Stmt.mapExprs, Stmt.allExprs, Stmt.allExprs_mapExprs body, List.map_cons]
  | attempt body handler cleanup span =>
    simp only [Stmt.mapExprs, Stmt.allExprs, Block.allExprs_mapExprs body,
      Block.allExprs_mapExprsOption handler, Block.allExprs_mapExprsOption cleanup, List.map_append]
  | labeled label body span => simp only [Stmt.mapExprs, Stmt.allExprs, Stmt.allExprs_mapExprs body]
  | method decl span => simp only [Stmt.mapExprs, Stmt.allExprs, Method.allExprs_mapExprs decl]
  | switch discriminant cases span =>
    simp only [Stmt.mapExprs, Stmt.allExprs, Case.allExprs_mapExprsAll cases, List.map_cons]
  | goto _ _ | exit _ | next _ | eval _ _ | raise _ _ =>
    simp only [Stmt.mapExprs, Stmt.allExprs, List.map_cons, List.map_nil]
  | declare _ _ _ _ | ret _ _ | suspend _ _ _ =>
    simp only [Stmt.mapExprs, Stmt.allExprs, Option.toList_map]

theorem Stmt.allExprs_mapExprsOption (s : Option Stmt) :
    Stmt.allExprsOption (Stmt.mapExprsOption g s) = (Stmt.allExprsOption s).map g := by
  cases s with
  | none => simp only [Stmt.mapExprsOption, Stmt.allExprsOption, List.map_nil]
  | some s => simp only [Stmt.mapExprsOption, Stmt.allExprsOption, Stmt.allExprs_mapExprs s]

theorem Stmt.allExprs_mapExprsAll (ss : List Stmt) :
    Stmt.allExprsAll (Stmt.mapExprsAll g ss) = (Stmt.allExprsAll ss).map g := by
  cases ss with
  | nil => simp only [Stmt.mapExprsAll, Stmt.allExprsAll, List.map_nil]
  | cons s ss =>
    simp only [Stmt.mapExprsAll, Stmt.allExprsAll, Stmt.allExprs_mapExprs s,
      Stmt.allExprs_mapExprsAll ss, List.map_append]

/-- **The expressions of a rewritten body are the rewritten expressions of the body.** -/
theorem Block.allExprs_mapExprs (b : Block) : (b.mapExprs g).allExprs = b.allExprs.map g := by
  cases b with
  | mk stmts span => simp only [Block.mapExprs, Block.allExprs, Stmt.allExprs_mapExprsAll stmts]

theorem Block.allExprs_mapExprsOption (b : Option Block) :
    Block.allExprsOption (Block.mapExprsOption g b) = (Block.allExprsOption b).map g := by
  cases b with
  | none => simp only [Block.mapExprsOption, Block.allExprsOption, List.map_nil]
  | some b => simp only [Block.mapExprsOption, Block.allExprsOption, Block.allExprs_mapExprs b]

theorem Case.allExprs_mapExprsAll (cases : List Case) :
    Case.allExprsAll (Case.mapExprsAll g cases) = (Case.allExprsAll cases).map g := by
  cases cases with
  | nil => simp only [Case.mapExprsAll, Case.allExprsAll, List.map_nil]
  | cons case cases =>
    cases case with
    | mk test body =>
      simp only [Case.mapExprsAll, Case.allExprsAll, Block.allExprs_mapExprs body,
        Case.allExprs_mapExprsAll cases, Option.toList_map, List.map_append]

/-- The body of a nested method is rewritten with all others. -/
theorem Method.allExprs_mapExprs (m : Method) : (m.mapExprs g).allExprs = m.allExprs.map g := by
  cases m with
  | mk name visibility isStatic params ret body span =>
    simp only [Method.mapExprs, Method.allExprs, Block.allExprs_mapExprs body]

end

end MapExprs

section Self

variable {g : Expr → Expr}

/-- A value that is missing stays missing. -/
theorem Expr.mapOption_eq_self {e : Option Expr} (h : ∀ e' ∈ e.toList, g e' = e') : e.map g = e := by
  cases e with
  | none => rfl
  | some e => exact congrArg some (h e (List.mem_singleton.mpr rfl))

mutual

/-- A statement stays as it is if all its expressions do, at any depth. -/
theorem Stmt.mapExprs_eq_self (s : Stmt) (h : ∀ e ∈ s.allExprs, g e = e) : s.mapExprs g = s := by
  cases s with
  | block body span => rw [Stmt.mapExprs, Block.mapExprs_eq_self body h]
  | ite test yes no span =>
    rw [Stmt.allExprs, List.forall_mem_cons, List.forall_mem_append] at h
    rw [Stmt.mapExprs, h.1, Stmt.mapExprs_eq_self yes h.2.1, Stmt.mapExprsOption_eq_self no h.2.2]
  | loop test body span =>
    rw [Stmt.allExprs, List.forall_mem_cons] at h
    rw [Stmt.mapExprs, h.1, Stmt.mapExprs_eq_self body h.2]
  | attempt body handler cleanup span =>
    rw [Stmt.allExprs, List.forall_mem_append, List.forall_mem_append] at h
    rw [Stmt.mapExprs, Block.mapExprs_eq_self body h.1, Block.mapExprsOption_eq_self handler h.2.1,
      Block.mapExprsOption_eq_self cleanup h.2.2]
  | labeled label body span => rw [Stmt.mapExprs, Stmt.mapExprs_eq_self body h]
  | method decl span => rw [Stmt.mapExprs, Method.mapExprs_eq_self decl h]
  | switch discriminant cases span =>
    rw [Stmt.allExprs, List.forall_mem_cons] at h
    rw [Stmt.mapExprs, h.1, Case.mapExprsAll_eq_self cases h.2]
  | goto _ _ | exit _ | next _ => rw [Stmt.mapExprs]
  | eval value _ | raise value _ => rw [Stmt.mapExprs, h value (List.mem_singleton.mpr rfl)]
  | declare _ _ _ _ | ret _ _ | suspend _ _ _ => rw [Stmt.mapExprs, Expr.mapOption_eq_self h]

theorem Stmt.mapExprsOption_eq_self (s : Option Stmt) (h : ∀ e ∈ Stmt.allExprsOption s, g e = e) :
    Stmt.mapExprsOption g s = s := by
  cases s with
  | none => rw [Stmt.mapExprsOption]
  | some s => rw [Stmt.mapExprsOption, Stmt.mapExprs_eq_self s h]

theorem Stmt.mapExprsAll_eq_self (ss : List Stmt) (h : ∀ e ∈ Stmt.allExprsAll ss, g e = e) :
    Stmt.mapExprsAll g ss = ss := by
  cases ss with
  | nil => rw [Stmt.mapExprsAll]
  | cons s ss =>
    rw [Stmt.allExprsAll, List.forall_mem_append] at h
    rw [Stmt.mapExprsAll, Stmt.mapExprs_eq_self s h.1, Stmt.mapExprsAll_eq_self ss h.2]

/-- **A body stays as it is if its expressions do.** -/
theorem Block.mapExprs_eq_self (b : Block) (h : ∀ e ∈ b.allExprs, g e = e) : b.mapExprs g = b := by
  cases b with
  | mk stmts span => rw [Block.mapExprs, Stmt.mapExprsAll_eq_self stmts h]

theorem Block.mapExprsOption_eq_self (b : Option Block) (h : ∀ e ∈ Block.allExprsOption b, g e = e) :
    Block.mapExprsOption g b = b := by
  cases b with
  | none => rw [Block.mapExprsOption]
  | some b => rw [Block.mapExprsOption, Block.mapExprs_eq_self b h]

theorem Case.mapExprsAll_eq_self (cases : List Case) (h : ∀ e ∈ Case.allExprsAll cases, g e = e) :
    Case.mapExprsAll g cases = cases := by
  cases cases with
  | nil => rw [Case.mapExprsAll]
  | cons case cases =>
    cases case with
    | mk test body =>
      rw [Case.allExprsAll, List.forall_mem_append, List.forall_mem_append] at h
      rw [Case.mapExprsAll, Expr.mapOption_eq_self h.1, Block.mapExprs_eq_self body h.2.1,
        Case.mapExprsAll_eq_self cases h.2.2]

/-- So does a method, for nothing but its body is rewritten. -/
theorem Method.mapExprs_eq_self (m : Method) (h : ∀ e ∈ m.allExprs, g e = e) : m.mapExprs g = m := by
  cases m with
  | mk name visibility isStatic params ret body span =>
    rw [Method.mapExprs, Block.mapExprs_eq_self body h]

end

end Self

end Lowering
