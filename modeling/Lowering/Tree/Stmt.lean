import Lowering.Span
import Lowering.Tree.Expr

/-!
# Statements, blocks and methods

A body is a block of statements. Statements nest through blocks (`Stmt.block`, the clauses of
`Stmt.attempt`, the cases of `Stmt.switch`) and directly (the branches of `Stmt.ite`, the bodies of
`Stmt.loop` and `Stmt.labeled`). A nested method is a body of its own.

A jump reaches a label that stands directly in an enclosing block.
-/

namespace Lowering

inductive Visibility where
  | pub
  | prot
  | priv
deriving DecidableEq, Repr

/-- Why a body suspends. -/
inductive SuspendKind where
  /-- a generator hands out a value -/
  | yield
  /-- a coroutine waits for a value -/
  | await
deriving DecidableEq, Repr

structure Param where
  name : String
  ty : TargetType
deriving DecidableEq

mutual

/-- A statement with the source range it comes from. -/
inductive Stmt where
  | block (body : Block) (span : Span)
  | ite (test : Expr) (yes : Stmt) (no : Option Stmt) (span : Span)
  | loop (test : Expr) (body : Stmt) (span : Span)
  /-- runs the body, on a throw the handler, and in the end always the cleanup -/
  | attempt (body : Block) (handler cleanup : Option Block) (span : Span)
  | labeled (label : String) (body : Stmt) (span : Span)
  | goto (label : String) (span : Span)
  /-- leaves the innermost loop or switch -/
  | exit (span : Span)
  /-- goes on with the next round of the innermost loop -/
  | next (span : Span)
  | eval (value : Expr) (span : Span)
  /-- declares a local, which is `null` without a start value -/
  | declare (name : String) (ty : TargetType) (init : Option Expr) (span : Span)
  | ret (value : Option Expr) (span : Span)
  | suspend (kind : SuspendKind) (value : Option Expr) (span : Span)
  | raise (value : Expr) (span : Span)
  | method (decl : Method) (span : Span)
  | switch (discriminant : Expr) (cases : List Case) (span : Span)

/-- Statements in order. -/
structure Block where
  stmts : List Stmt
  span : Span

/-- A case of a switch; without a test it is the default. -/
structure Case where
  test : Option Expr
  body : Block

/-- A method declaration. -/
structure Method where
  name : String
  visibility : Visibility
  isStatic : Bool
  params : List Param
  ret : TargetType
  body : Block
  span : Span

end

instance : Inhabited Block := ⟨⟨[], .dummy⟩⟩

instance : Inhabited Stmt := ⟨.exit .dummy⟩

instance : Inhabited Method := ⟨⟨"", .pub, false, [], .void, default, .dummy⟩⟩

namespace Stmt

/-- The source range of a statement. -/
def span : Stmt → Span
  | .block _ s | .ite _ _ _ s | .loop _ _ s | .attempt _ _ _ s | .labeled _ _ s | .goto _ s
  | .exit s | .next s | .eval _ s | .declare _ _ _ s | .ret _ s | .suspend _ _ s | .raise _ s
  | .method _ s | .switch _ _ s => s

/-- What kind of statement it is, for a message. -/
def describe : Stmt → String
  | .block .. => "block"
  | .ite .. => "if statement"
  | .loop .. => "while loop"
  | .attempt .. => "try statement"
  | .labeled .. => "labeled statement"
  | .goto .. => "goto"
  | .exit .. => "break"
  | .next .. => "continue"
  | .eval .. => "expression statement"
  | .declare .. => "local declaration"
  | .ret .. => "return"
  | .suspend .. => "suspension point"
  | .raise .. => "throw"
  | .method .. => "method declaration"
  | .switch .. => "switch statement"

/-- Whether the statement carries this label itself. -/
def hasLabel (label : String) : Stmt → Bool
  | .labeled l _ _ => l == label
  | _ => false

end Stmt

/-! ## Equality -/

mutual

/-- Equality of statements, ranges included, as a test. -/
def Stmt.beq : Stmt → Stmt → Bool
  | .block b s, .block c t => b.beq c && s == t
  | .ite e x x' s, .ite f y y' t => e == f && x.beq y && Stmt.beqOption x' y' && s == t
  | .loop e x s, .loop f y t => e == f && x.beq y && s == t
  | .attempt b h k s, .attempt c h' k' t =>
    b.beq c && Block.beqOption h h' && Block.beqOption k k' && s == t
  | .labeled l x s, .labeled m y t => l == m && x.beq y && s == t
  | .goto l s, .goto m t => l == m && s == t
  | .exit s, .exit t => s == t
  | .next s, .next t => s == t
  | .eval e s, .eval f t => e == f && s == t
  | .declare n a e s, .declare m b f t => n == m && a == b && e == f && s == t
  | .ret e s, .ret f t => e == f && s == t
  | .suspend k e s, .suspend l f t => k == l && e == f && s == t
  | .raise e s, .raise f t => e == f && s == t
  | .method m s, .method n t => m.beq n && s == t
  | .switch e xs s, .switch f ys t => e == f && Case.beqAll xs ys && s == t
  | _, _ => false

def Stmt.beqOption : Option Stmt → Option Stmt → Bool
  | none, none => true
  | some x, some y => x.beq y
  | _, _ => false

def Stmt.beqAll : List Stmt → List Stmt → Bool
  | [], [] => true
  | x :: xs, y :: ys => x.beq y && Stmt.beqAll xs ys
  | _, _ => false

/-- Equality of blocks, ranges included, as a test. -/
def Block.beq : Block → Block → Bool
  | ⟨xs, s⟩, ⟨ys, t⟩ => Stmt.beqAll xs ys && s == t

def Block.beqOption : Option Block → Option Block → Bool
  | none, none => true
  | some x, some y => x.beq y
  | _, _ => false

def Case.beqAll : List Case → List Case → Bool
  | [], [] => true
  | ⟨e, x⟩ :: xs, ⟨f, y⟩ :: ys => e == f && x.beq y && Case.beqAll xs ys
  | _, _ => false

/-- Equality of methods, ranges included, as a test. -/
def Method.beq : Method → Method → Bool
  | ⟨n, v, i, p, r, b, s⟩, ⟨n', v', i', p', r', b', s'⟩ =>
    n == n' && v == v' && i == i' && p == p' && r == r' && b.beq b' && s == s'

end

mutual

/-- The comparison decides equality of statements, spans included. -/
theorem Stmt.beq_iff_eq : ∀ a b : Stmt, a.beq b = true ↔ a = b
  | .goto .., b | .exit .., b | .next .., b | .eval .., b | .declare .., b | .ret .., b
  | .suspend .., b | .raise .., b => by cases b <;> simp [Stmt.beq, and_assoc]
  | .block x _, b => by cases b <;> simp [Stmt.beq, Block.beq_iff_eq x]
  | .ite _ x x' _, b => by
    cases b <;> simp [Stmt.beq, Stmt.beq_iff_eq x, Stmt.beqOption_iff_eq x', and_assoc]
  | .loop _ x _, b => by cases b <;> simp [Stmt.beq, Stmt.beq_iff_eq x, and_assoc]
  | .labeled _ x _, b => by cases b <;> simp [Stmt.beq, Stmt.beq_iff_eq x, and_assoc]
  | .attempt x h k _, b => by
    cases b <;> simp [Stmt.beq, Block.beq_iff_eq x, Block.beqOption_iff_eq h,
      Block.beqOption_iff_eq k, and_assoc]
  | .method m _, b => by cases b <;> simp [Stmt.beq, Method.beq_iff_eq m]
  | .switch _ xs _, b => by cases b <;> simp [Stmt.beq, Case.beqAll_iff_eq xs, and_assoc]

theorem Stmt.beqOption_iff_eq : ∀ a b : Option Stmt, Stmt.beqOption a b = true ↔ a = b
  | none, b => by cases b <;> simp [Stmt.beqOption]
  | some x, b => by cases b <;> simp [Stmt.beqOption, Stmt.beq_iff_eq x]

theorem Stmt.beqAll_iff_eq : ∀ as bs : List Stmt, Stmt.beqAll as bs = true ↔ as = bs
  | [], bs => by cases bs <;> simp [Stmt.beqAll]
  | a :: as, bs => by
    cases bs <;> simp [Stmt.beqAll, Stmt.beq_iff_eq a, Stmt.beqAll_iff_eq as]

/-- Blocks are equal if their statements and their spans are. -/
theorem Block.beq_iff_eq : ∀ a b : Block, a.beq b = true ↔ a = b
  | ⟨xs, _⟩, ⟨ys, _⟩ => by simp [Block.beq, Stmt.beqAll_iff_eq xs]

theorem Block.beqOption_iff_eq : ∀ a b : Option Block, Block.beqOption a b = true ↔ a = b
  | none, b => by cases b <;> simp [Block.beqOption]
  | some x, b => by cases b <;> simp [Block.beqOption, Block.beq_iff_eq x]

theorem Case.beqAll_iff_eq : ∀ as bs : List Case, Case.beqAll as bs = true ↔ as = bs
  | [], bs => by cases bs <;> simp [Case.beqAll]
  | ⟨_, x⟩ :: as, [] => by simp [Case.beqAll]
  | ⟨_, x⟩ :: as, ⟨_, _⟩ :: bs => by
    simp [Case.beqAll, Block.beq_iff_eq x, Case.beqAll_iff_eq as]

/-- Methods are compared with their bodies. -/
theorem Method.beq_iff_eq : ∀ a b : Method, a.beq b = true ↔ a = b
  | ⟨_, _, _, _, _, x, _⟩, ⟨_, _, _, _, _, y, _⟩ => by
    simp [Method.beq, Block.beq_iff_eq x, and_assoc]

end

instance : DecidableEq Stmt := fun a b => decidable_of_iff _ (Stmt.beq_iff_eq a b)

instance : DecidableEq Block := fun a b => decidable_of_iff _ (Block.beq_iff_eq a b)

instance : DecidableEq Method := fun a b => decidable_of_iff _ (Method.beq_iff_eq a b)

end Lowering
