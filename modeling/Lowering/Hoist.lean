import Lowering.Config
import Lowering.LowerError
import Lowering.Names
import Lowering.Tree.Normalize
import Lowering.Tree.Suspension

/-!
# Hoisting suspensions

No suspension may stand inside a try with a handler. Hoisting splits such a try: its body becomes a
block in which every run of statements without a suspension is a small try of its own that jumps to
the handler, and the suspensions stand between the runs.

```text
try { a(); yield x; b(); }        { try { a(); } catch { goto CATCH; }
catch { h(); }               =>     yield x;
                                    try { b(); } catch { goto CATCH; } }
                                  goto OK;
                                  CATCH: { h(); }
                                  OK: { }
```

What a resumption throws is caught by no handler.

Inside a split body a declaration moves in front of its run, so that what follows still sees it, and
its start value is assigned in the run. A label stays in its block, so that jumps still reach it. A
condition that can throw is evaluated in a run of its own, into a fresh local. A finally clause stays
around the split body and its handler.

A suspension in a finally clause is refused, and so is a switch that suspends inside the body of a
try with a handler.
-/

namespace Lowering

/-- What hoisting carries along. -/
structure HoistState (σ : Type) where
  names : σ
  /-- how many tries were split so far -/
  splits : Nat

/-- Hoisting: it asks for names, counts splits, and may give up. -/
abbrev HoistM (σ : Type) := EStateM LowerError (HoistState σ)

/-- A hoisted body. -/
structure Hoisted where
  body : Block
  /-- how many tries were split -/
  splits : Nat

/-! ## Protected runs -/

/-- The span from the first statement to the last. -/
def Stmt.cover (stmts : List Stmt) : Span :=
  match stmts.head?, stmts.getLast? with
  | some first, some last => first.span.join last.span
  | _, _ => .dummy

/-- `try { stmts } catch { goto label; }` -/
def Stmt.protect (label : String) (stmts : List Stmt) : Stmt :=
  .attempt ⟨stmts, Stmt.cover stmts⟩ (some ⟨[.goto label .dummy], .dummy⟩) none (Stmt.cover stmts)

/-- A try whose body is protected by runs that jump to `label`: the body, the handler behind that
label, and a jump over it. -/
def Stmt.splitTry (label done : String) (body handler : Block) : List Stmt :=
  [.block body body.span, .goto done .dummy,
    .labeled label (.block handler handler.span) .dummy,
    .labeled done (.block ⟨[], .dummy⟩ .dummy) .dummy]

/-- A loop whose condition is evaluated in its body: `before` evaluates it into `cond`. -/
def Stmt.splitLoop (before : List Stmt) (cond : Expr) (body : Stmt) (span : Span) : Stmt :=
  .loop (.bool true)
    (.block ⟨before ++
      [.ite (.not cond) (.block ⟨[.exit .dummy], .dummy⟩ .dummy) none .dummy, body], span⟩ span)
    span

/-- A run under protection, unless it is empty. -/
def Stmt.flush (label : String) (run : List Stmt) : List Stmt :=
  if run.isEmpty then [] else [Stmt.protect label run]

/-! ## The pass -/

variable {σ : Type} [NameSupply σ]

/-- A fresh name. -/
def HoistM.fresh (hint : String) (span : Span) : HoistM σ String := fun st =>
  let (name, names) := NameSupply.allocate hint span st.names
  .ok name { st with names }

/-- Counts a split. -/
def HoistM.countSplit : HoistM σ Unit := fun st => .ok () { st with splits := st.splits + 1 }

/-- Gives up on the try at `span` if its cleanup suspends. -/
def Block.refuseSuspension (span : Span) : Option Block → HoistM σ Unit
  | some cleanup =>
    if cleanup.suspends then
      throw (.suspensionInFinally ((cleanup.findSuspension true).getD cleanup.span) span)
    else return ()
  | none => return ()

/-- A condition for use under a handler: statements that evaluate it into a local under protection,
and that local. A condition that cannot throw is used as it is, and so is any without a handler. -/
def Expr.guard (hints : HoistHints) (handler : Option String) (span : Span) (test : Expr) :
    HoistM σ (List Stmt × Expr) :=
  match handler with
  | some label =>
    if test.isTrivial then return ([], test)
    else do
      let cond ← HoistM.fresh hints.condition span
      return ([.declare cond .bool none span,
        Stmt.protect label [.eval (.assign cond test) span]], .var cond)
  | none => return ([], test)

mutual

/-- The statements in place of a statement. `handler` is the label that a throw in it must reach,
if it stands in the body of a split try. -/
def Stmt.hoist (hints : HoistHints) (handler : Option String) (s : Stmt) : HoistM σ (List Stmt) :=
  if s.suspends then
    match s with
    | .block body span => do
      let body ← body.hoistIn hints handler
      return [.block body span]
    | .labeled label body span => do
      let body ← body.hoistBody hints handler
      return [.labeled label body span]
    | .ite test yes no span => do
      let (before, test) ← test.guard hints handler span
      let yes ← yes.hoistBody hints handler
      let no ← Stmt.hoistBodyOption hints handler no
      return before ++ [.ite test yes no span]
    | .loop test body span => do
      let body ← body.hoistBody hints handler
      if handler.isSome && !test.isTrivial then
        let (before, cond) ← test.guard hints handler span
        return [Stmt.splitLoop before cond body span]
      else return [.loop test body span]
    | .attempt body catcher cleanup span => do
      Block.refuseSuspension span cleanup
      match catcher with
      | some catcher =>
        let label ← HoistM.fresh hints.handler span
        let done ← HoistM.fresh hints.done span
        HoistM.countSplit
        let body ← body.hoistIn hints (some label)
        let catcher ← catcher.hoistIn hints handler
        let split := Stmt.splitTry label done body catcher
        match cleanup with
        | some cleanup =>
          let cleanup ← cleanup.hoistIn hints handler
          return [.attempt ⟨split, span⟩ none (some cleanup) span]
        | none => return split
      | none =>
        let body ← body.hoistIn hints handler
        let cleanup ← Block.hoistOption hints handler cleanup
        return [.attempt body none cleanup span]
    | .switch discriminant cases span =>
      if handler.isSome then throw (.suspendingSwitch span)
      else do
        let cases ← Case.hoistAll hints cases
        return [.switch discriminant cases span]
    | s => return [s]
  else return [s]

/-- A branch or a body, which must be a block. -/
def Stmt.hoistBody (hints : HoistHints) (handler : Option String) : Stmt → HoistM σ Stmt
  | .block body span => do
    let body ← body.hoistIn hints handler
    return .block body span
  | s => throw (.internal (.expectedBlock s.describe) s.span)

def Stmt.hoistBodyOption (hints : HoistHints) (handler : Option String) :
    Option Stmt → HoistM σ (Option Stmt)
  | none => return none
  | some s => do
    let s ← s.hoistBody hints handler
    return some s

/-- Statements without a handler around them. -/
def Stmt.hoistAll (hints : HoistHints) : List Stmt → HoistM σ (List Stmt)
  | [] => return []
  | s :: rest => do
    let out ← s.hoist hints none
    let more ← Stmt.hoistAll hints rest
    return out ++ more

/-- Statements under a handler; `run` is the run that is being collected. -/
def Stmt.hoistRun (hints : HoistHints) (label : String) (run : List Stmt) :
    List Stmt → HoistM σ (List Stmt)
  | [] => return Stmt.flush label run
  | s :: rest =>
    if s.suspends then do
      let out ← s.hoist hints (some label)
      let more ← Stmt.hoistRun hints label [] rest
      return Stmt.flush label run ++ out ++ more
    else
      match s with
      | .declare name ty init span => do
        let assigned := init.toList.map fun e => Stmt.eval (.assign name e) span
        let more ← Stmt.hoistRun hints label (run ++ assigned) rest
        return .declare name ty none span :: more
      | .method decl span => do
        let more ← Stmt.hoistRun hints label run rest
        return .method decl span :: more
      | .labeled target body span => do
        let body ← body.hoistBody hints (some label)
        let more ← Stmt.hoistRun hints label [] rest
        return Stmt.flush label run ++ .labeled target body span :: more
      | s => Stmt.hoistRun hints label (run ++ [s]) rest

def Block.hoistIn (hints : HoistHints) (handler : Option String) : Block → HoistM σ Block
  | ⟨stmts, span⟩ => do
    let stmts ←
      match handler with
      | none => Stmt.hoistAll hints stmts
      | some label => Stmt.hoistRun hints label [] stmts
    return ⟨stmts, span⟩

def Block.hoistOption (hints : HoistHints) (handler : Option String) :
    Option Block → HoistM σ (Option Block)
  | none => return none
  | some b => do
    let b ← b.hoistIn hints handler
    return some b

/-- Cases without a handler around them. -/
def Case.hoistAll (hints : HoistHints) : List Case → HoistM σ (List Case)
  | [] => return []
  | ⟨test, body⟩ :: cases => do
    let body ← body.hoistIn hints none
    let more ← Case.hoistAll hints cases
    return ⟨test, body⟩ :: more

end

/-- A statement that does not suspend stays as it is. -/
theorem Stmt.hoist_plain {hints : HoistHints} {handler : Option String} {s : Stmt}
    (hs : s.suspends = false) : (s.hoist hints handler : HoistM σ _) = pure [s] := by
  unfold Stmt.hoist
  rw [hs]
  rfl

/-- A run ends with its block. -/
theorem Stmt.hoistRun_nil {hints : HoistHints} {label : String} {run : List Stmt} :
    (Stmt.hoistRun hints label run [] : HoistM σ _) = pure (Stmt.flush label run) := by
  rw [Stmt.hoistRun]

/-- Moves every suspension out of tries with handlers. A body that does not suspend stays as it is.
The names that were asked for are used up even if hoisting gives up. -/
def Block.hoist (hints : HoistHints) (body : Block) (names : σ) : Except LowerError Hoisted × σ :=
  if body.suspends then
    match body.normalize.hoistIn hints none ⟨names, 0⟩ with
    | .ok hoisted st =>
      match hoisted.misplaced? with
      | some span => (.error (.internal .leftInside span), st.names)
      | none => (.ok ⟨hoisted, st.splits⟩, st.names)
    | .error e st => (.error e, st.names)
  else (.ok ⟨body, 0⟩, names)

end Lowering
