import Lowering.Tree.Stmt
import Lowering.Names

/-!
# Declared names

The names that a body declares: locals, labels, nested methods with their parameters and all that
their bodies declare. Names that a body only mentions are not among them.
-/

namespace Lowering

mutual

/-- The names a statement declares, at any depth. -/
def Stmt.declared : Stmt → List String
  | .block b _ => b.declared
  | .ite _ yes no _ => yes.declared ++ Stmt.declaredOption no
  | .loop _ body _ => body.declared
  | .attempt body handler cleanup _ =>
    body.declared ++ Block.declaredOption handler ++ Block.declaredOption cleanup
  | .labeled label body _ => label :: body.declared
  | .declare name _ _ _ => [name]
  | .method m _ => m.declared
  | .switch _ cases _ => Case.declaredAll cases
  | .goto .. | .exit .. | .next .. | .eval .. | .ret .. | .suspend .. | .raise .. => []

def Stmt.declaredOption : Option Stmt → List String
  | none => []
  | some s => s.declared

def Stmt.declaredAll : List Stmt → List String
  | [] => []
  | s :: ss => s.declared ++ Stmt.declaredAll ss

/-- The names a block declares, at any depth. -/
def Block.declared : Block → List String
  | ⟨stmts, _⟩ => Stmt.declaredAll stmts

def Block.declaredOption : Option Block → List String
  | none => []
  | some b => b.declared

def Case.declaredAll : List Case → List String
  | [] => []
  | ⟨_, body⟩ :: cases => body.declared ++ Case.declaredAll cases

/-- The method's own name, its parameters, and the names its body declares. -/
def Method.declared : Method → List String
  | ⟨name, _, _, params, _, body, _⟩ => name :: params.map Param.name ++ body.declared

end

/-- Marks every name that the block declares as used. -/
def Names.reserveBlock (names : Names) (block : Block) : Names := names.reserveAll block.declared

/-- Marks every name that the method declares as used. -/
def Names.reserveMethod (names : Names) (method : Method) : Names :=
  names.reserveAll method.declared

end Lowering
