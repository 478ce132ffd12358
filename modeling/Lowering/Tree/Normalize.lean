import Lowering.Tree.Stmt

/-!
# Blocks for branches and bodies

Normalizing makes blocks of the branches of `if`, the bodies of loops and the statements behind
labels, so that a pass can put statements beside them. Nested methods are left alone.
-/

namespace Lowering

/-- A block as it is, any other statement in a block of its own with the same span. -/
def Stmt.asBlock : Stmt → Stmt
  | .block body span => .block body span
  | s => .block ⟨[s], s.span⟩ s.span

mutual

/-- Makes blocks of branches and bodies, at any depth. -/
def Stmt.normalize : Stmt → Stmt
  | .block body span => .block body.normalize span
  | .ite test yes no span => .ite test yes.normalize.asBlock (Stmt.normalizeOption no) span
  | .loop test body span => .loop test body.normalize.asBlock span
  | .attempt body handler cleanup span =>
    .attempt body.normalize (Block.normalizeOption handler) (Block.normalizeOption cleanup) span
  | .labeled label body span => .labeled label body.normalize.asBlock span
  | .switch discriminant cases span => .switch discriminant (Case.normalizeAll cases) span
  | .goto label span => .goto label span
  | .exit span => .exit span
  | .next span => .next span
  | .eval value span => .eval value span
  | .declare name ty init span => .declare name ty init span
  | .ret value span => .ret value span
  | .suspend kind value span => .suspend kind value span
  | .raise value span => .raise value span
  | .method decl span => .method decl span

def Stmt.normalizeOption : Option Stmt → Option Stmt
  | none => none
  | some s => some s.normalize.asBlock

def Stmt.normalizeAll : List Stmt → List Stmt
  | [] => []
  | s :: ss => s.normalize :: Stmt.normalizeAll ss

/-- Makes blocks of branches and bodies, at any depth. -/
def Block.normalize : Block → Block
  | ⟨stmts, span⟩ => ⟨Stmt.normalizeAll stmts, span⟩

def Block.normalizeOption : Option Block → Option Block
  | none => none
  | some b => some b.normalize

def Case.normalizeAll : List Case → List Case
  | [] => []
  | ⟨test, body⟩ :: cases => ⟨test, body.normalize⟩ :: Case.normalizeAll cases

end

end Lowering
