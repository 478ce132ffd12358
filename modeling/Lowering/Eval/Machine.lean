import Lowering.Dict
import Lowering.Eval.Value
import Lowering.Tree.Stmt

/-!
# The evaluating machine

A machine holds the locals of a run, what it has been told about the outside world, and what the
outside world has seen of it: the calls and suspensions, in order. It is set up before a run with
locals, with calls that throw, with results for calls, and with suspensions whose resumption
throws.

Evaluating ends in one of three ways (`Outcome`): with a result, with a thrown value, or because
the program is wrong (`EvalError`), which no clause of the program can catch. The machine is there
in each case, with all that happened before.
-/

namespace Lowering

/-! ## Events and errors -/

/-- What the outside world sees of a run. -/
inductive Event where
  | call (callee : String) (args : List Value)
  | suspend (kind : SuspendKind) (value : Option Value)
deriving DecidableEq, Repr

def Event.callee? : Event → Option String
  | .call callee _ => some callee
  | .suspend .. => none

/-- Why evaluating stopped for good. -/
inductive EvalError where
  /-- a local that was never declared -/
  | unbound (name : String)
  /-- a jump to a label that stands in no enclosing block -/
  | unknownLabel (label : String)
  | strayExit
  | strayNext
  /-- an operator that its operands do not fit -/
  | operands (op : BinaryOp) (left right : Value)
  /-- a value that is no wrapper was unwrapped -/
  | notOptional (value : Value)
  /-- an expression on its own threw -/
  | uncaught (value : Value)
  /-- more statements were started than the limit allows -/
  | stepLimit (limit : Nat)
  | addOverflow
  | subOverflow
deriving DecidableEq, Repr

/-- The text of an error. -/
def EvalError.message : EvalError → String
  | .unbound name => "use of undeclared local `" ++ name ++ "`"
  | .unknownLabel label => "jump to label `" ++ label ++ "` that is not in an enclosing block"
  | .strayExit => "`break` outside of a loop or switch"
  | .strayNext => "`continue` outside of a loop or switch"
  | .operands op left right =>
    "type error: " ++ op.render ++ " on " ++ left.render ++ " and " ++ right.render
  | .notOptional value => "type error: unwrap of non-optional " ++ value.render
  | .uncaught value => "uncaught exception " ++ value.render
  | .stepLimit limit => "step limit of " ++ toString limit ++ " exceeded"
  | .addOverflow => "attempt to add with overflow"
  | .subOverflow => "attempt to subtract with overflow"

/-! ## Machines -/

/-- The state of a run. -/
structure Machine where
  locals : Dict Value
  /-- calls that throw their own name -/
  failingCalls : List String
  /-- suspensions, counted from 0, whose resumption throws -/
  failingResumes : List Nat
  /-- the results of the next calls, by callee; a call without one gives `null` -/
  scripts : Dict (List Value)
  /-- what happened so far, the latest first -/
  log : List Event
  suspensions : Nat
  /-- how many statements were started -/
  steps : Nat
  /-- how many may be -/
  stepLimit : Nat
  /-- whether a clause can catch what a resumption throws -/
  resumeCatchable : Bool
  /-- whether a clause can catch what the value of a suspension throws -/
  valueCatchable : Bool
deriving DecidableEq, Repr

namespace Machine

/-- A machine before its setup. -/
def initial : Machine where
  locals := .empty
  failingCalls := []
  failingResumes := []
  scripts := .empty
  log := []
  suspensions := 0
  steps := 0
  stepLimit := 100000
  resumeCatchable := true
  valueCatchable := true

instance : Inhabited Machine := ⟨initial⟩

/-- Sets a local, which need not be declared. -/
def setLocal (m : Machine) (name : String) (value : Value) : Machine :=
  { m with locals := m.locals.insert name value }

/-- From now on every call of `callee` throws the text `callee`. -/
def failCall (m : Machine) (callee : String) : Machine :=
  { m with failingCalls := m.failingCalls.insert callee }

/-- Resuming from suspension `index` throws the text `resume<index>`. -/
def failResume (m : Machine) (index : Nat) : Machine :=
  { m with failingResumes := m.failingResumes.insert index }

/-- The next calls of `callee` give these values. -/
def scriptCall (m : Machine) (callee : String) (values : List Value) : Machine :=
  { m with scripts := m.scripts.insert callee values }

/-- What happened so far, in order. -/
def trace (m : Machine) : List Event := m.log.reverse

/-- The callees of the calls so far, in order. -/
def calls (m : Machine) : List String := m.trace.filterMap Event.callee?

def record (m : Machine) (event : Event) : Machine := { m with log := event :: m.log }

/-- Counts a statement. -/
def tick (m : Machine) : Machine := { m with steps := m.steps + 1 }

/-- What is recorded last stands last in the trace. -/
@[simp] theorem trace_record (m : Machine) (e : Event) : (m.record e).trace = m.trace ++ [e] := by
  simp [trace, record]

@[simp] theorem steps_tick (m : Machine) : m.tick.steps = m.steps + 1 := rfl

end Machine

/-! ## Outcomes -/

/-- A thrown value. -/
structure Thrown where
  value : Value
  /-- whether a clause can catch it -/
  catchable : Bool
deriving DecidableEq, Repr

/-- How evaluating ended, with the machine it left. -/
inductive Outcome (α : Type) where
  | done (result : α) (m : Machine)
  | thrown (what : Thrown) (m : Machine)
  | stopped (error : EvalError) (m : Machine)
deriving DecidableEq, Repr

namespace Outcome

variable {α β : Type}

/-- Goes on with a result; a throw or an error ends it. -/
@[inline] def bind (o : Outcome α) (f : α → Machine → Outcome β) : Outcome β :=
  match o with
  | .done a m => f a m
  | .thrown t m => .thrown t m
  | .stopped e m => .stopped e m

/-- The same outcome, in which a clause can catch what is thrown only if `allowed`. -/
def catchableIf (allowed : Bool) (o : Outcome α) : Outcome α :=
  match o with
  | .thrown t m => .thrown ⟨t.value, t.catchable && allowed⟩ m
  | o => o

@[simp] theorem bind_done (a : α) (m : Machine) (f : α → Machine → Outcome β) :
    (done a m).bind f = f a m := rfl

/-- What is thrown skips all that would have followed. -/
@[simp] theorem bind_thrown (t : Thrown) (m : Machine) (f : α → Machine → Outcome β) :
    (thrown t m).bind f = thrown t m := rfl

/-- So does what stops the run. -/
@[simp] theorem bind_stopped (e : EvalError) (m : Machine) (f : α → Machine → Outcome β) :
    (stopped e m).bind f = stopped e m := rfl

end Outcome

/-- Evaluating on a machine. -/
def Eval (α : Type) : Type := Machine → Outcome α

namespace Eval

variable {α β : Type}

@[inline] protected def pure (a : α) : Eval α := fun m => .done a m

@[inline] protected def bind (x : Eval α) (f : α → Eval β) : Eval β := fun m => (x m).bind f

instance : Monad Eval where
  pure := Eval.pure
  bind := Eval.bind

@[simp] theorem pure_apply (a : α) (m : Machine) : (pure a : Eval α) m = .done a m := rfl

/-- Evaluating goes on from the machine that the first part leaves. -/
@[simp] theorem bind_apply (x : Eval α) (f : α → Eval β) (m : Machine) :
    (x >>= f) m = (x m).bind f := rfl

/-- Throws a value that a clause can catch. -/
def raise (v : Value) : Eval α := fun m => .thrown ⟨v, true⟩ m

/-- Gives up. -/
def stop (e : EvalError) : Eval α := fun m => .stopped e m

@[simp] theorem raise_apply (v : Value) (m : Machine) :
    (raise v : Eval α) m = .thrown ⟨v, true⟩ m := rfl

@[simp] theorem stop_apply (e : EvalError) (m : Machine) :
    (stop e : Eval α) m = .stopped e m := rfl

end Eval

end Lowering
