import Lowering.Tree.Stmt

/-!
# Suspensions in a body

Whether a body suspends, and whether a suspension is *misplaced*: inside a try that has a handler,
be it in its body, in the handler or in the cleanup. Nested methods are bodies of their own and do
not count.
-/

namespace Lowering

/-! ## Does it suspend? -/

mutual

/-- Whether a statement holds a suspension. -/
def Stmt.suspends : Stmt → Bool
  | .suspend .. => true
  | .block body _ => body.suspends
  | .ite _ yes no _ => yes.suspends || Stmt.suspendsOption no
  | .loop _ body _ => body.suspends
  | .labeled _ body _ => body.suspends
  | .attempt body handler cleanup _ =>
    body.suspends || Block.suspendsOption handler || Block.suspendsOption cleanup
  | .switch _ cases _ => Case.suspendsAny cases
  | .method .. | .goto .. | .exit .. | .next .. | .eval .. | .declare .. | .ret .. | .raise .. =>
    false

def Stmt.suspendsOption : Option Stmt → Bool
  | none => false
  | some s => s.suspends

def Stmt.suspendsAny : List Stmt → Bool
  | [] => false
  | s :: ss => s.suspends || Stmt.suspendsAny ss

/-- Whether a block holds a suspension. -/
def Block.suspends : Block → Bool
  | ⟨stmts, _⟩ => Stmt.suspendsAny stmts

def Block.suspendsOption : Option Block → Bool
  | none => false
  | some b => b.suspends

def Case.suspendsAny : List Case → Bool
  | [] => false
  | ⟨_, body⟩ :: cases => body.suspends || Case.suspendsAny cases

end

/-! ## Where? -/

mutual

/-- The span of the first suspension that is inside a try with a handler. With `inside` the
statement itself already is, and then any suspension counts. -/
def Stmt.findSuspension (inside : Bool) : Stmt → Option Span
  | .suspend _ _ span => if inside then some span else none
  | .block body _ => body.findSuspension inside
  | .ite _ yes no _ => (yes.findSuspension inside).or (Stmt.findSuspensionOption inside no)
  | .loop _ body _ => body.findSuspension inside
  | .labeled _ body _ => body.findSuspension inside
  | .attempt body handler cleanup _ =>
    let inside := inside || handler.isSome
    (body.findSuspension inside).or
      ((Block.findSuspensionOption inside handler).or (Block.findSuspensionOption inside cleanup))
  | .switch _ cases _ => Case.findSuspensionAny inside cases
  | .method .. | .goto .. | .exit .. | .next .. | .eval .. | .declare .. | .ret .. | .raise .. =>
    none

def Stmt.findSuspensionOption (inside : Bool) : Option Stmt → Option Span
  | none => none
  | some s => s.findSuspension inside

def Stmt.findSuspensionAny (inside : Bool) : List Stmt → Option Span
  | [] => none
  | s :: ss => (s.findSuspension inside).or (Stmt.findSuspensionAny inside ss)

/-- The span of the first suspension of a block that is inside a try with a handler. -/
def Block.findSuspension (inside : Bool) : Block → Option Span
  | ⟨stmts, _⟩ => Stmt.findSuspensionAny inside stmts

def Block.findSuspensionOption (inside : Bool) : Option Block → Option Span
  | none => none
  | some b => b.findSuspension inside

def Case.findSuspensionAny (inside : Bool) : List Case → Option Span
  | [] => none
  | ⟨_, body⟩ :: cases => (body.findSuspension inside).or (Case.findSuspensionAny inside cases)

end

/-- The span of the first misplaced suspension. -/
def Block.misplaced? (b : Block) : Option Span := b.findSuspension false

end Lowering
