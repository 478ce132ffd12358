import Lowering.Proofs.CallSite.Adapted
import Lowering.Proofs.Hoist.Refusals
import Lowering.Proofs.Tree.Normalize

/-!
# Calls, suspensions and nested methods of a body

`Block.landmarks` lists the calls, the suspensions and the nested methods of a body in pre-order. A call
comes before its receiver and its arguments, a suspension before the calls in its value, a condition
before what it decides. Nested methods are bodies of their own: they are listed and not entered.

Of these, calls and suspensions are *events* (`Block.events`); their order matters, that of methods does
not. `Landmark.Kept` says that two lists agree in this sense. Normalizing keeps all landmarks.
-/

namespace Lowering

/-- What is looked for in a body. -/
inductive Landmark where
  /-- a call of a function or a method, with its arguments -/
  | call (call : Expr)
  | suspension (kind : SuspendKind) (value : Option Expr) (span : Span)
  | method (decl : Method) (span : Span)
deriving DecidableEq

/-- Whether it is a call or a suspension. -/
def Landmark.isEvent : Landmark → Bool
  | .call _ | .suspension .. => true
  | .method .. => false

/-- The method that is declared. -/
def Landmark.method? : Landmark → Option (Method × Span)
  | .method decl span => some (decl, span)
  | .call _ | .suspension .. => none

/-- The calls in an expression, in pre-order. -/
def Expr.landmarks (e : Expr) : List Landmark := e.calls.map .call

/-- The landmarks of an expression that may be missing. -/
def Expr.landmarksOption : Option Expr → List Landmark
  | none => []
  | some e => e.landmarks

mutual

/-- The landmarks of a statement, in pre-order. -/
def Stmt.landmarks : Stmt → List Landmark
  | .block body _ => body.landmarks
  | .ite test yes no _ => test.landmarks ++ (yes.landmarks ++ Stmt.landmarksOption no)
  | .loop test body _ => test.landmarks ++ body.landmarks
  | .attempt body handler cleanup _ =>
    body.landmarks ++ (Block.landmarksOption handler ++ Block.landmarksOption cleanup)
  | .labeled _ body _ => body.landmarks
  | .eval value _ | .raise value _ => value.landmarks
  | .declare _ _ value _ | .ret value _ => Expr.landmarksOption value
  | .suspend kind value span => .suspension kind value span :: Expr.landmarksOption value
  | .method decl span => [.method decl span]
  | .switch discriminant cases _ => discriminant.landmarks ++ Case.landmarksAll cases
  | .goto .. | .exit .. | .next .. => []

def Stmt.landmarksOption : Option Stmt → List Landmark
  | none => []
  | some s => s.landmarks

def Stmt.landmarksAll : List Stmt → List Landmark
  | [] => []
  | s :: ss => s.landmarks ++ Stmt.landmarksAll ss

/-- The landmarks of a block, in pre-order. -/
def Block.landmarks : Block → List Landmark
  | ⟨stmts, _⟩ => Stmt.landmarksAll stmts

def Block.landmarksOption : Option Block → List Landmark
  | none => []
  | some b => b.landmarks

def Case.landmarksAll : List Case → List Landmark
  | [] => []
  | ⟨test, body⟩ :: cases =>
    Expr.landmarksOption test ++ (body.landmarks ++ Case.landmarksAll cases)

end

/-- The calls and suspensions of a body, in pre-order. -/
def Block.events (b : Block) : List Landmark := b.landmarks.filter Landmark.isEvent

/-- The nested methods of a body, with their ranges. -/
def Block.methods (b : Block) : List (Method × Span) := b.landmarks.filterMap Landmark.method?

@[simp] theorem Stmt.landmarksAll_nil : Stmt.landmarksAll [] = [] := rfl

@[simp] theorem Stmt.landmarksAll_cons (s : Stmt) (ss : List Stmt) :
    Stmt.landmarksAll (s :: ss) = s.landmarks ++ Stmt.landmarksAll ss := rfl

theorem Stmt.landmarksAll_singleton (s : Stmt) : Stmt.landmarksAll [s] = s.landmarks :=
  List.append_nil _

/-- Landmarks are listed in the order of the statements. -/
@[simp] theorem Stmt.landmarksAll_append (ss ts : List Stmt) :
    Stmt.landmarksAll (ss ++ ts) = Stmt.landmarksAll ss ++ Stmt.landmarksAll ts := by
  induction ss with
  | nil => rfl
  | cons s ss ih => rw [List.cons_append, landmarksAll_cons, landmarksAll_cons, ih, List.append_assoc]

/-- The landmarks of a block are those of its statements. -/
theorem Block.landmarks_eq (b : Block) : b.landmarks = Stmt.landmarksAll b.stmts := by
  cases b
  rfl

/-! ## Lists that agree -/

/-- The same events in the same order, and the same methods in any order. -/
structure Landmark.Kept (ls ls' : List Landmark) : Prop where
  events : ls.filter isEvent = ls'.filter isEvent
  perm : ls.Perm ls'

namespace Landmark.Kept

variable {ls ls' ls'' ms ms' : List Landmark}

theorem refl (ls : List Landmark) : Kept ls ls := ⟨rfl, .refl ls⟩

theorem trans (h : Kept ls ls') (h' : Kept ls' ls'') : Kept ls ls'' :=
  ⟨h.events.trans h'.events, h.perm.trans h'.perm⟩

/-- Lists that agree can be put one behind the other. -/
theorem append (h : Kept ls ls') (h' : Kept ms ms') : Kept (ls ++ ms) (ls' ++ ms') where
  events := by rw [List.filter_append, List.filter_append, h.events, h'.events]
  perm := h.perm.append h'.perm

/-- Methods may move. -/
theorem swap (hm : ∀ m ∈ ms, m.isEvent = false) : Kept (ms ++ ls) (ls ++ ms) where
  events := by
    have hnone : ms.filter isEvent = [] :=
      List.filter_eq_nil_iff.mpr fun m h => Bool.eq_false_iff.mp (hm m h)
    rw [List.filter_append, List.filter_append, hnone, List.nil_append, List.append_nil]
  perm := List.perm_append_comm

end Landmark.Kept

/-! ## Normalized bodies -/

/-- Braces are no landmark. -/
theorem Stmt.landmarks_asBlock (s : Stmt) : s.asBlock.landmarks = s.landmarks := by
  cases s with
  | block body span => rfl
  | _ => exact List.append_nil _

mutual

/-- Normalizing keeps all landmarks of a statement, in their order. -/
theorem Stmt.landmarks_normalize (s : Stmt) : s.normalize.landmarks = s.landmarks := by
  cases s with
  | block body span =>
    rw [Stmt.normalize, Stmt.landmarks, Block.landmarks_normalize body, Stmt.landmarks]
  | ite test yes no span =>
    rw [Stmt.normalize, Stmt.landmarks, Stmt.landmarks_asBlock, Stmt.landmarks_normalize yes,
      Stmt.landmarks_normalizeOption no, Stmt.landmarks]
  | loop test body span =>
    rw [Stmt.normalize, Stmt.landmarks, Stmt.landmarks_asBlock, Stmt.landmarks_normalize body,
      Stmt.landmarks]
  | labeled label body span =>
    rw [Stmt.normalize, Stmt.landmarks, Stmt.landmarks_asBlock, Stmt.landmarks_normalize body,
      Stmt.landmarks]
  | attempt body handler cleanup span =>
    rw [Stmt.normalize, Stmt.landmarks, Block.landmarks_normalize body,
      Block.landmarks_normalizeOption handler, Block.landmarks_normalizeOption cleanup,
      Stmt.landmarks]
  | switch discriminant cases span =>
    rw [Stmt.normalize, Stmt.landmarks, Case.landmarks_normalizeAll cases, Stmt.landmarks]
  | goto _ _ | exit _ | next _ | eval _ _ | declare _ _ _ _ | ret _ _ | suspend _ _ _ | raise _ _
  | method _ _ => rw [Stmt.normalize]

theorem Stmt.landmarks_normalizeOption (s : Option Stmt) :
    Stmt.landmarksOption (Stmt.normalizeOption s) = Stmt.landmarksOption s := by
  cases s with
  | none => rw [Stmt.normalizeOption]
  | some s =>
    rw [Stmt.normalizeOption, Stmt.landmarksOption, Stmt.landmarks_asBlock,
      Stmt.landmarks_normalize s, Stmt.landmarksOption]

theorem Stmt.landmarks_normalizeAll (ss : List Stmt) :
    Stmt.landmarksAll (Stmt.normalizeAll ss) = Stmt.landmarksAll ss := by
  cases ss with
  | nil => rw [Stmt.normalizeAll]
  | cons s ss =>
    rw [Stmt.normalizeAll, Stmt.landmarksAll, Stmt.landmarks_normalize s,
      Stmt.landmarks_normalizeAll ss, Stmt.landmarksAll]

/-- **Normalizing keeps the landmarks.** -/
theorem Block.landmarks_normalize (b : Block) : b.normalize.landmarks = b.landmarks := by
  cases b with
  | mk stmts span =>
    rw [Block.normalize, Block.landmarks, Stmt.landmarks_normalizeAll stmts, Block.landmarks]

theorem Block.landmarks_normalizeOption (b : Option Block) :
    Block.landmarksOption (Block.normalizeOption b) = Block.landmarksOption b := by
  cases b with
  | none => rw [Block.normalizeOption]
  | some b =>
    rw [Block.normalizeOption, Block.landmarksOption, Block.landmarks_normalize b,
      Block.landmarksOption]

theorem Case.landmarks_normalizeAll (cases : List Case) :
    Case.landmarksAll (Case.normalizeAll cases) = Case.landmarksAll cases := by
  cases cases with
  | nil => rw [Case.normalizeAll]
  | cons case rest =>
    cases case with
    | mk test body =>
      rw [Case.normalizeAll, Case.landmarksAll, Block.landmarks_normalize body,
        Case.landmarks_normalizeAll rest, Case.landmarksAll]

end

end Lowering
