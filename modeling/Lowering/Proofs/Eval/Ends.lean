import Lowering.Proofs.Eval.Clock

/-!
# How running ends, without steps

`Ends task m o` says that running `task` on the machine `m` ends with the outcome `o`, when nothing
counts steps. It has one rule for each way that a task can end, so that what a transformation does
to a run can be shown rule by rule. `Lowering.Proofs.Eval.Budget` ties it to running with a budget.
-/

namespace Lowering

/-! ## Tasks and their ends -/

/-- What can be run. -/
inductive Task where
  | stmt (s : Stmt)
  /-- the statements `rest` of the block `all`, from some point on -/
  | rest (all rest : List Stmt)
  /-- a loop, from its test on -/
  | loop (test : Expr) (body : Stmt)
  /-- a try without its cleanup -/
  | tried (body : Block) (handler : Option Block)

/-- The statements of a block from its first label `label` on. -/
def Stmt.seek (label : String) (all : List Stmt) : List Stmt :=
  all.dropWhile fun s => !s.hasLabel label

/-- What a statement does that holds no other statements. -/
def Stmt.leaf? : Stmt → Option (Eval Flow)
  | .goto label _ => some (pure (.goto label))
  | .exit _ => some (pure .exit)
  | .next _ => some (pure .next)
  | .method _ _ => some (pure .normal)
  | .eval value _ => some (value.eval >>= fun _ => pure .normal)
  | .declare name _ init _ =>
    some (Expr.evalOption init >>= fun v m => .done .normal (m.setLocal name (v.getD .null)))
  | .ret value _ => some (Expr.evalOption value >>= fun v => pure (.ret (v.getD .null)))
  | .suspend kind value _ => some (Expr.evalSuspended value >>= Machine.suspend kind)
  | .raise value _ => some (value.eval >>= Eval.raise)
  | .block .. | .ite .. | .loop .. | .attempt .. | .labeled .. | .switch .. => none

/-- The block that a switch runs. -/
def Case.choose (discriminant : Expr) (cases : List Case) : Eval (Option Block) :=
  discriminant.eval >>= fun v => Case.select v none cases

namespace Outcome

/-- A throw or an error, as an outcome of anything else. -/
def abrupt? {α β : Type} : Outcome α → Option (Outcome β)
  | .done _ _ => none
  | .thrown t m => some (.thrown t m)
  | .stopped e m => some (.stopped e m)

/-- Whether a handler takes over. -/
def catchable : Outcome Flow → Bool
  | .thrown t _ => t.catchable
  | _ => false

def isStopped : Outcome Flow → Bool
  | .stopped _ _ => true
  | _ => false

/-- Whether a loop whose body ends like this ends the same way. -/
def leavesLoop : Outcome Flow → Bool
  | .done .normal _ | .done .next _ | .done .exit _ => false
  | _ => true

/-- Whether a block one of whose statements ends like this ends the same way. -/
def leavesBlock : Outcome Flow → Bool
  | .done .normal _ | .done (.goto _) _ => false
  | _ => true

end Outcome

/-- Whether a loop goes on after its body ended like this. -/
def Flow.repeats : Flow → Bool
  | .normal | .next => true
  | _ => false

/-- Running a task ends with an outcome. -/
inductive Ends : Task → Machine → Outcome Flow → Prop where
  | leaf {s f m} (hs : s.leaf? = some f) : Ends (.stmt s) m (f m)
  | block {b span m o} (h : Ends (.rest b.stmts b.stmts) m o) : Ends (.stmt (.block b span)) m o
  | labeled {label body span m o} (h : Ends (.stmt body) m o) :
    Ends (.stmt (.labeled label body span)) m o
  | iteAbrupt {test yes no span m o} (ht : (test.eval m).abrupt? = some o) :
    Ends (.stmt (.ite test yes no span)) m o
  | iteYes {test yes no span m v m' o} (ht : test.eval m = .done v m') (hv : v.truthy = true)
    (h : Ends (.stmt yes) m' o) : Ends (.stmt (.ite test yes no span)) m o
  | iteNo {test yes no span m v m' o} (ht : test.eval m = .done v m') (hv : v.truthy = false)
    (h : Ends (.stmt no) m' o) : Ends (.stmt (.ite test yes (some no) span)) m o
  | iteSkip {test yes span m v m'} (ht : test.eval m = .done v m') (hv : v.truthy = false) :
    Ends (.stmt (.ite test yes none span)) m (.done .normal m')
  | loop {test body span m o} (h : Ends (.loop test body) m o) :
    Ends (.stmt (.loop test body span)) m o
  | loopAbrupt {test body m o} (ht : (test.eval m).abrupt? = some o) : Ends (.loop test body) m o
  | loopDone {test body m v m'} (ht : test.eval m = .done v m') (hv : v.truthy = false) :
    Ends (.loop test body) m (.done .normal m')
  | loopAgain {test body m v m' f m'' o} (ht : test.eval m = .done v m') (hv : v.truthy = true)
    (h : Ends (.stmt body) m' (.done f m'')) (hf : f.repeats = true)
    (h' : Ends (.loop test body) m'' o) : Ends (.loop test body) m o
  | loopExit {test body m v m' m''} (ht : test.eval m = .done v m') (hv : v.truthy = true)
    (h : Ends (.stmt body) m' (.done .exit m'')) : Ends (.loop test body) m (.done .normal m'')
  | loopLeave {test body m v m' o} (ht : test.eval m = .done v m') (hv : v.truthy = true)
    (h : Ends (.stmt body) m' o) (ho : o.leavesLoop = true) : Ends (.loop test body) m o
  | untried {body m o} (h : Ends (.rest body.stmts body.stmts) m o) : Ends (.tried body none) m o
  | uncaught {body handler m o} (h : Ends (.rest body.stmts body.stmts) m o)
    (ho : o.catchable = false) : Ends (.tried body (some handler)) m o
  | caught {body handler m t m' o} (h : Ends (.rest body.stmts body.stmts) m (.thrown t m'))
    (ht : t.catchable = true) (h' : Ends (.rest handler.stmts handler.stmts) m' o) :
    Ends (.tried body (some handler)) m o
  | attempt {body handler span m o} (h : Ends (.tried body handler) m o) :
    Ends (.stmt (.attempt body handler none span)) m o
  | attemptStopped {body handler cleanup span m o} (h : Ends (.tried body handler) m o)
    (ho : o.isStopped = true) : Ends (.stmt (.attempt body handler (some cleanup) span)) m o
  | attemptCleanup {body handler cleanup span m o o'} (h : Ends (.tried body handler) m o)
    (ho : o.isStopped = false) (h' : Ends (.rest cleanup.stmts cleanup.stmts) o.machine o') :
    Ends (.stmt (.attempt body handler (some cleanup) span)) m (o.andCleanup fun _ => o')
  | switchAbrupt {discriminant cases span m o}
    (hc : (Case.choose discriminant cases m).abrupt? = some o) :
    Ends (.stmt (.switch discriminant cases span)) m o
  | switchSkip {discriminant cases span m m'}
    (hc : Case.choose discriminant cases m = .done none m') :
    Ends (.stmt (.switch discriminant cases span)) m (.done .normal m')
  | switchRun {discriminant cases span m body m' o}
    (hc : Case.choose discriminant cases m = .done (some body) m')
    (h : Ends (.rest body.stmts body.stmts) m' o) :
    Ends (.stmt (.switch discriminant cases span)) m o.leaveSwitch
  | nil {all m} : Ends (.rest all []) m (.done .normal m)
  | step {all s rest m m' o} (h : Ends (.stmt s) m (.done .normal m'))
    (h' : Ends (.rest all rest) m' o) : Ends (.rest all (s :: rest)) m o
  | jump {all s rest m label m' o} (h : Ends (.stmt s) m (.done (.goto label) m'))
    (hl : Stmt.seek label all ≠ []) (h' : Ends (.rest all (Stmt.seek label all)) m' o) :
    Ends (.rest all (s :: rest)) m o
  | jumpOut {all s rest m label m'} (h : Ends (.stmt s) m (.done (.goto label) m'))
    (hl : Stmt.seek label all = []) : Ends (.rest all (s :: rest)) m (.done (.goto label) m')
  | leave {all s rest m o} (h : Ends (.stmt s) m o) (ho : o.leavesBlock = true) :
    Ends (.rest all (s :: rest)) m o

/-! ## Clocks and cuts -/

/-- A statement that holds no other does not look at the clock. -/
theorem Stmt.leaf?_timeless {s : Stmt} {f : Eval Flow} (hs : s.leaf? = some f) :
    Eval.Timeless f := by
  cases s <;> simp only [leaf?, Option.some.injEq, reduceCtorEq] at hs <;> subst hs
  case goto => exact .pure _
  case exit => exact .pure _
  case next => exact .pure _
  case method => exact .pure _
  case eval value _ => exact .bind (Expr.eval_timeless value) fun _ => .pure _
  case declare name _ init _ => exact .bind (Expr.evalOption_timeless init) fun _ _ _ _ => rfl
  case ret value _ => exact .bind (Expr.evalOption_timeless value) fun _ => .pure _
  case suspend kind value _ =>
    exact .bind (Expr.evalSuspended_timeless value) fun v => Machine.suspend_timeless kind v
  case raise value _ => exact .bind (Expr.eval_timeless value) fun v => .raise v

/-- Nor does the choice of a case. -/
theorem Case.choose_timeless (discriminant : Expr) (cases : List Case) :
    Eval.Timeless (Case.choose discriminant cases) :=
  .bind (Expr.eval_timeless discriminant) fun v => Case.select_timeless v cases none

namespace Outcome

variable {α β : Type}

/-- Whether evaluating was cut short does not depend on the clock. -/
theorem abrupt?_untimed (o : Outcome α) :
    (o.untimed.abrupt? : Option (Outcome β)) = o.abrupt?.map Outcome.untimed := by
  cases o <;> rfl

/-- What cuts evaluating short cuts short all that would have come behind it. -/
theorem bind_of_abrupt {o : Outcome α} {o' : Outcome β} (h : o.abrupt? = some o')
    (f : α → Machine → Outcome β) : o.bind f = o' ∧ o'.machine = o.machine := by
  cases o with
  | done a m => cases h
  | thrown t m => cases h; exact ⟨rfl, rfl⟩
  | stopped e m => cases h; exact ⟨rfl, rfl⟩

@[simp] theorem catchable_untimed (o : Outcome Flow) : o.untimed.catchable = o.catchable := by
  cases o <;> rfl

@[simp] theorem isStopped_untimed (o : Outcome Flow) : o.untimed.isStopped = o.isStopped := by
  cases o <;> rfl

@[simp] theorem leavesLoop_untimed (o : Outcome Flow) : o.untimed.leavesLoop = o.leavesLoop := by
  rcases o with ⟨_ | _, _⟩ | _ | _ <;> rfl

@[simp] theorem leavesBlock_untimed (o : Outcome Flow) :
    o.untimed.leavesBlock = o.leavesBlock := by
  rcases o with ⟨_ | _, _⟩ | _ | _ <;> rfl

/-- A `break` that leaves a switch does so at any time. -/
theorem leaveSwitch_untimed (o : Outcome Flow) : o.leaveSwitch.untimed = o.untimed.leaveSwitch := by
  rcases o with ⟨_ | _, _⟩ | _ | _ <;> rfl

/-- A cleanup runs on the machine that the try left. -/
theorem andCleanup_eq {o : Outcome Flow} (ho : o.isStopped = false) (c : Machine → Outcome Flow) :
    o.andCleanup c = o.andCleanup fun _ => c o.machine := by
  cases o with
  | done f m => rfl
  | thrown t m => rfl
  | stopped e m => cases ho

/-- A cleanup follows in the same cases, whatever the clock says. -/
theorem andCleanup_untimed (o o' : Outcome Flow) :
    (o.andCleanup fun _ => o').untimed = o.untimed.andCleanup fun _ => o'.untimed := by
  rcases o with _ | _ | _ <;> rcases o' with ⟨_ | _, _⟩ | _ | _ <;> rfl

end Outcome

end Lowering
