import Lowering.Proofs.Eval.Locked
import Lowering.Proofs.Eval.Parts

/-!
# Runs in lockstep

A rewriting that changes expressions and nothing else takes the same steps as the original, as long as
the expressions do. `Lockstep` says what has to be shown: of each expression that it evaluates alike on
related machines, and of each operation of the machine that it keeps machines related. Then every run
does (`Lockstep.exec`), with the very same budget.

The original may get *lost*, from where on nothing is promised; once lost, it stays lost.
-/

namespace Lowering

/-! ## Rewriting expressions -/

/-- Rewrites the statements of a block. -/
def Block.map (f : Stmt → Stmt) (b : Block) : Block := ⟨b.stmts.map f, b.span⟩

/-- Rewrites the test and the statements of a case. -/
def Case.map (f : Stmt → Stmt) (g : Expr → Expr) (case : Case) : Case :=
  ⟨case.test.map g, case.body.map f⟩

/-- The function `f` rewrites every expression of a statement with `g`, and leaves all else. -/
structure Stmt.Maps (f : Stmt → Stmt) (g : Expr → Expr) : Prop where
  block : ∀ b span, f (.block b span) = .block (b.map f) span
  labeled : ∀ label body span, f (.labeled label body span) = .labeled label (f body) span
  ite : ∀ test yes no span, f (.ite test yes no span) = .ite (g test) (f yes) (no.map f) span
  loop : ∀ test body span, f (.loop test body span) = .loop (g test) (f body) span
  attempt : ∀ body handler cleanup span, f (.attempt body handler cleanup span) =
    .attempt (body.map f) (handler.map (Block.map f)) (cleanup.map (Block.map f)) span
  switch : ∀ discriminant cases span, f (.switch discriminant cases span) =
    .switch (g discriminant) (cases.map (Case.map f g)) span
  goto : ∀ label span, f (.goto label span) = .goto label span
  exit : ∀ span, f (.exit span) = .exit span
  next : ∀ span, f (.next span) = .next span
  eval : ∀ value span, f (.eval value span) = .eval (g value) span
  declare : ∀ name ty init span, f (.declare name ty init span) = .declare name ty (init.map g) span
  ret : ∀ value span, f (.ret value span) = .ret (value.map g) span
  suspend : ∀ kind value span, f (.suspend kind value span) = .suspend kind (value.map g) span
  raise : ∀ value span, f (.raise value span) = .raise (g value) span
  /-- a nested method is not run -/
  method : ∀ decl span, ∃ decl', f (.method decl span) = .method decl' span

/-- Rewrites a task. -/
def Task.map (f : Stmt → Stmt) (g : Expr → Expr) : Task → Task
  | .stmt s => .stmt (f s)
  | .rest all ss => .rest (all.map f) (ss.map f)
  | .loop test body => .loop (g test) (f body)
  | .tried body handler => .tried (body.map f) (handler.map (Block.map f))

@[simp] theorem Block.map_id : Block.map id = id := by
  funext b
  cases b
  simp only [Block.map, List.map_id, id_eq]

@[simp] theorem Case.map_id : Case.map id id = id := by
  funext case
  cases case
  simp only [Case.map, Option.map_id, Block.map_id, id_eq]

theorem Stmt.Maps.id : Stmt.Maps id id := by
  constructor <;> intros <;>
    simp only [id_eq, Block.map_id, Case.map_id, List.map_id, Option.map_id]
  exact ⟨_, rfl⟩

namespace Stmt.Maps

variable {f : Stmt → Stmt} {g : Expr → Expr}

/-- Rewriting keeps the labels of statements. -/
theorem hasLabel (h : Stmt.Maps f g) (label : String) (s : Stmt) :
    (f s).hasLabel label = s.hasLabel label := by
  cases s with
  | method decl span =>
    obtain ⟨decl', he⟩ := h.method decl span
    rw [he]
    rfl
  | block b span => rw [h.block]; rfl
  | labeled l body span => rw [h.labeled]; rfl
  | ite test yes no span => rw [h.ite]; rfl
  | loop test body span => rw [h.loop]; rfl
  | attempt body handler cleanup span => rw [h.attempt]; rfl
  | switch discriminant cases span => rw [h.switch]; rfl
  | goto l span => rw [h.goto]
  | exit span => rw [h.exit]
  | next span => rw [h.next]
  | eval value span => rw [h.eval]; rfl
  | declare name ty init span => rw [h.declare]; rfl
  | ret value span => rw [h.ret]; rfl
  | suspend kind value span => rw [h.suspend]; rfl
  | raise value span => rw [h.raise]; rfl

/-- A jump goes to the same place in a rewritten block. -/
theorem seek (h : Stmt.Maps f g) (label : String) (all : List Stmt) :
    Stmt.seek label (all.map f) = (Stmt.seek label all).map f := by
  unfold Stmt.seek
  rw [List.dropWhile_map]
  congr 2
  funext s
  exact congrArg (!·) (h.hasLabel label s)

end Stmt.Maps

/-! ## Machines in lockstep -/

/-- Once a machine has the property, nothing that a run does takes it away. -/
structure Machine.Absorbing (P : Machine → Prop) : Prop where
  tick : ∀ {m}, P m → P m.tick
  setLocal : ∀ {m} name v, P m → P (m.setLocal name v)
  suspended : ∀ {m} kind v, P m → P (m.suspended kind v)
  call : ∀ {m} callee args, P m → P (Machine.call callee args m).machine

/-- What a machine cannot get rid of, it keeps through all that expressions are evaluated with. -/
theorem Machine.Absorbing.closed {P : Machine → Prop} (h : Machine.Absorbing P) :
    Eval.Closed (fun _ x => ∀ m, P m → P (x m).machine) (fun _ => True) false where
  pure _ _ := id
  bind hx hf m hm := Outcome.lost_bind (hx m hm) hf
  stop _ _ := id
  getLocal name _ m hm := by
    unfold Machine.getLocal
    split <;> exact hm
  assign name v _ m hm := by
    unfold Machine.assign
    split
    · exact h.setLocal name v hm
    · exact hm
  raise _ _ _ _ := id
  call _ callee args _ := h.call callee args

/-- So evaluating an expression keeps it. -/
theorem Machine.Absorbing.eval {P : Machine → Prop} (h : Machine.Absorbing P) (e : Expr) {m : Machine}
    (hm : P m) : P (e.eval m).machine :=
  Expr.eval_closed h.closed e (fun _ _ => trivial) Bool.noConfusion m hm

theorem Machine.Absorbing.select {P : Machine → Prop} (h : Machine.Absorbing P) (value : Value)
    (cases : List Case) (default : Option Block) {m : Machine} (hm : P m) :
    P (Case.select value default cases m).machine :=
  Case.select_closed h.closed value cases default (fun _ _ _ _ => trivial) m hm

/-- On machines in the relation `R`, the expressions of the statements `ps` and their rewritings do
the same, and so does every operation of the machine. -/
structure Lockstep (R : Machine → Machine → Prop) (Lost : Machine → Prop) (ps : List Stmt)
    (f : Stmt → Stmt) (g : Expr → Expr) : Prop where
  maps : Stmt.Maps f g
  steps : ∀ {m m'}, R m m' → m'.steps = m.steps
  stepLimit : ∀ {m m'}, R m m' → m'.stepLimit = m.stepLimit
  tick : ∀ {m m'}, R m m' → R m.tick m'.tick
  setLocal : ∀ {m m'} name v, R m m' → R (m.setLocal name v) (m'.setLocal name v)
  valueCatchable : ∀ {m m'}, R m m' → m'.valueCatchable = m.valueCatchable
  suspend : ∀ {m m'} kind v, R m m' →
    (Machine.suspend kind v m).Locked R Lost (Machine.suspend kind v m')
  eval : ∀ {m m'}, ∀ s ∈ ps, ∀ e ∈ s.exprs, R m m' → (e.eval m).Locked R Lost ((g e).eval m')
  lost : Machine.Absorbing Lost

/-- The suspension is recorded in either case. -/
theorem Machine.machine_suspend (kind : SuspendKind) (v : Option Value) (m : Machine) :
    (Machine.suspend kind v m).machine = m.suspended kind v := by
  rw [Machine.suspend_apply]
  split <;> rfl

namespace Stmt

variable {n : Nat} {m : Machine}

/-- The statements behind one have the steps that it has left. -/
theorem execFrom_cons {all rest : List Stmt} {s : Stmt} :
    execFrom (n + 1) all (s :: rest) m =
      (s.exec (n + 1) m).bind fun flow m' =>
        match flow with
        | .normal => execFrom (Machine.left n m.tick m') all rest m'
        | .goto label =>
          match seek label all with
          | [] => .done (.goto label) m'
          | target => execFrom (Machine.left n m.tick m') all target m'
        | flow => .done flow m' := by
  rw [execFrom_succ]
  rcases s.exec (n + 1) m with ⟨_ | _, m'⟩ | ⟨t, m'⟩ | ⟨e, m'⟩ <;> rfl

/-- A round of a loop and what follows it, with the steps that the round has left. -/
theorem execLoop_round {test : Expr} {body : Stmt} :
    execLoop (n + 1) test body m =
      (test.eval m).bind fun v m' =>
        if v.truthy then
          (body.exec (n + 1) m').bind fun flow m'' =>
            match flow with
            | .normal | .next => execLoop (Machine.left n m'.tick m'') test body m''
            | .exit => .done .normal m''
            | flow => .done flow m''
        else .done .normal m' := by
  rw [execLoop_succ]
  congr 1
  funext v m'
  rcases body.exec (n + 1) m' with ⟨_ | _, m''⟩ | ⟨t, m''⟩ | ⟨e, m''⟩ <;> rfl

end Stmt

theorem Block.execTried_none {n : Nat} {body : Block} {m : Machine} :
    body.execTried n none m = Stmt.execFrom n body.stmts body.stmts m := by
  unfold Block.execTried
  rw [Block.exec]
  cases Stmt.execFrom n body.stmts body.stmts m <;> rfl

theorem Block.execTried_some {n : Nat} {body catcher : Block} {m : Machine} :
    body.execTried n (some catcher) m =
      (Stmt.execFrom n body.stmts body.stmts m).rescue fun m' =>
        Stmt.execFrom (Machine.left n m m') catcher.stmts catcher.stmts m' := by
  unfold Block.execTried
  simp only [Block.exec]
  cases Stmt.execFrom n body.stmts body.stmts m <;> rfl

namespace Lockstep

open Outcome

variable {R : Machine → Machine → Prop} {Lost : Machine → Prop} {ps : List Stmt}
  {f : Stmt → Stmt} {g : Expr → Expr} {m m' : Machine} {s : Stmt}

/-- Machines in lockstep have equally many steps left. -/
theorem left (h : Lockstep R Lost ps f g) {m₁ m₁' : Machine} (hR : R m m') (hR₁ : R m₁ m₁')
    (n : Nat) : Machine.left n m' m₁' = Machine.left n m m₁ := by
  unfold Machine.left
  rw [h.steps hR, h.steps hR₁]

theorem evalOption (h : Lockstep R Lost ps f g) {value : Option Expr} (hs : s ∈ ps)
    (hv : value.toList ⊆ s.exprs) (hR : R m m') :
    (Expr.evalOption value m).Locked R Lost (Expr.evalOption (value.map g) m') := by
  cases value with
  | none => exact .done none hR
  | some e => exact (h.eval s hs e (hv List.mem_cons_self) hR).map some

/-- A statement without others inside does in one run what its rewritten form does in the other. -/
theorem leaf (h : Lockstep R Lost ps f g) {k : Eval Flow} (hk : s.leaf? = some k) (hs : s ∈ ps)
    (hR : R m m') : ∃ k', (f s).leaf? = some k' ∧ (k m).Locked R Lost (k' m') := by
  cases s <;> simp only [Stmt.leaf?, Option.some.injEq, reduceCtorEq] at hk <;> subst hk
  case goto label _ =>
    rw [h.maps.goto]
    exact ⟨_, rfl, .done _ hR⟩
  case exit =>
    rw [h.maps.exit]
    exact ⟨_, rfl, .done _ hR⟩
  case next =>
    rw [h.maps.next]
    exact ⟨_, rfl, .done _ hR⟩
  case method decl span =>
    obtain ⟨decl', he⟩ := h.maps.method decl span
    rw [he]
    exact ⟨_, rfl, .done _ hR⟩
  case eval value _ =>
    rw [h.maps.eval]
    exact ⟨_, rfl, (h.eval _ hs value List.mem_cons_self hR).map fun _ => Flow.normal⟩
  case declare name _ init _ =>
    rw [h.maps.declare]
    refine ⟨_, rfl, (h.evalOption hs (fun _ hv => hv) hR).bind ?_ fun v _ _ hR' => ?_⟩
    · exact fun v _ ho => h.lost.setLocal name _ ho
    · exact .done _ (h.setLocal name _ hR')
  case ret value _ =>
    rw [h.maps.ret]
    exact ⟨_, rfl, (h.evalOption hs (fun _ hv => hv) hR).map fun v => Flow.ret (v.getD .null)⟩
  case suspend kind value _ =>
    rw [h.maps.suspend]
    have hvalue : (Expr.evalSuspended value m).Locked R Lost (Expr.evalSuspended (value.map g) m') := by
      unfold Expr.evalSuspended
      rw [h.valueCatchable hR]
      exact (h.evalOption hs (fun _ hv => hv) hR).catchableIf m.valueCatchable
    refine ⟨_, rfl, hvalue.bind (fun v m₁ ho => ?_) fun v _ _ hR' => ?_⟩
    · rw [Machine.machine_suspend]
      exact h.lost.suspended kind v ho
    · exact h.suspend kind v hR'
  case raise value _ =>
    rw [h.maps.raise]
    refine ⟨_, rfl, (h.eval _ hs value List.mem_cons_self hR).bind (fun _ _ ho => ho) fun v _ _ hR' => ?_⟩
    exact .thrown _ hR'

theorem select (h : Lockstep R Lost ps f g) (hs : s ∈ ps) (value : Value) : ∀ (cases : List Case)
    (default : Option Block) {m m' : Machine}, cases.filterMap Case.test ⊆ s.exprs → R m m' →
    ((Case.select value default cases m).bind fun b n => .done (b.map (Block.map f)) n).Locked R Lost
      (Case.select value (default.map (Block.map f)) (cases.map (Case.map f g)) m')
  | [], default, m, m', _, hR => .done _ hR
  | ⟨none, body⟩ :: cases, default, m, m', hc, hR => by
    rw [Case.select, List.map_cons, Case.map, Option.map_none, Case.select]
    have ih := h.select hs value cases (default.or (some body)) hc hR
    cases default <;> exact ih
  | ⟨some test, body⟩ :: cases, default, m, m', hc, hR => by
    rw [Case.select, List.map_cons, Case.map, Option.map_some, Case.select]
    refine (h.eval s hs test (hc List.mem_cons_self) hR).bindBind (fun v n ho => ?_)
      fun v n n' hR' => ?_
    · refine lost_bind ?_ fun _ _ ho => ho
      split
      · exact ho
      · exact h.lost.select value cases default ho
    · by_cases hv : v = value
      · simp only [if_pos hv]
        exact .done _ hR'
      · simp only [if_neg hv]
        exact h.select hs value cases default (fun e he => hc (List.mem_cons_of_mem _ he)) hR'

/-- Both runs choose the same case. -/
theorem choose (h : Lockstep R Lost ps f g) {discriminant : Expr} {cases : List Case} {span : Span}
    (hs : .switch discriminant cases span ∈ ps) (hR : R m m') :
    ((Case.choose discriminant cases m).bind fun b n => .done (b.map (Block.map f)) n).Locked R Lost
      (Case.choose (g discriminant) (cases.map (Case.map f g)) m') := by
  refine (h.eval _ hs discriminant List.mem_cons_self hR).bindBind (fun v n ho => ?_)
    fun v n n' hR' => ?_
  · exact lost_bind (h.lost.select v cases none ho) fun _ _ ho => ho
  · exact h.select hs v cases none (fun _ he => List.mem_cons_of_mem _ he) hR'

/-! ## Runs in lockstep -/

/-- With this budget, every task and its rewriting run in lockstep. -/
def At (R : Machine → Machine → Prop) (Lost : Machine → Prop) (ps : List Stmt) (f : Stmt → Stmt)
    (g : Expr → Expr) (n : Nat) : Prop :=
  ∀ (task : Task) (m m' : Machine), task.Inside ps → R m m' →
    (task.exec n m).Locked R Lost ((task.map f g).exec n m')

/-- With this budget, every task stays lost. -/
def LostAt (Lost : Machine → Prop) (ps : List Stmt) (n : Nat) : Prop :=
  ∀ (task : Task) (m : Machine), task.Inside ps → Lost m → Lost (task.exec n m).machine

variable {n : Nat}

theorem exec_ite (h : Lockstep R Lost ps f g) (ho : LostAt Lost ps n) (ih : At R Lost ps f g n)
    {test : Expr} {yes : Stmt} {no : Option Stmt} {span : Span}
    (hp : (Stmt.ite test yes no span).parts ⊆ ps) (hR : R m m') :
    ((Stmt.ite test yes no span).exec (n + 1) m).Locked R Lost
      ((f (.ite test yes no span)).exec (n + 1) m') := by
  rw [Stmt.parts_ite, List.cons_subset, List.append_subset] at hp
  obtain ⟨hs, hyes, hno⟩ := hp
  rw [h.maps.ite, Stmt.exec_ite, Stmt.exec_ite]
  refine (h.eval _ hs test List.mem_cons_self (h.tick hR)).bind (fun v m₁ hm => ?_)
    fun v m₁ m₁' hm => ?_
  · split
    · exact ho (.stmt yes) m₁ hyes hm
    · cases no with
      | none => exact hm
      | some s' => exact ho (.stmt s') m₁ (fun p hp => hno (List.mem_append_left _ hp)) hm
  · split
    · exact ih (.stmt yes) m₁ m₁' hyes hm
    · cases no with
      | none => exact .done _ hm
      | some s' => exact ih (.stmt s') m₁ m₁' (fun p hp => hno (List.mem_append_left _ hp)) hm

theorem exec_cleanup (h : Lockstep R Lost ps f g) (ho : ∀ k, LostAt Lost ps k)
    (ih : ∀ k < n + 1, At R Lost ps f g k) {body cleanup : Block} {handler : Option Block} {span : Span}
    (hp : (Stmt.attempt body handler (some cleanup) span).parts ⊆ ps) (hR : R m m') :
    ((Stmt.attempt body handler (some cleanup) span).exec (n + 1) m).Locked R Lost
      ((f (.attempt body handler (some cleanup) span)).exec (n + 1) m') := by
  have hc := Task.inside_cleanup hp
  rw [h.maps.attempt, Option.map_some, Stmt.exec_attemptCleanup, Stmt.exec_attemptCleanup]
  have htried := ih n (Nat.lt_succ_self n) (.tried body handler) _ _ (Task.inside_tried hp) (h.tick hR)
  refine htried.andCleanup (fun m₁ hm => ?_) fun m₁ m₁' _ hm => ?_
  · exact ho _ (.rest cleanup.stmts cleanup.stmts) m₁ ⟨hc, hc⟩ hm
  · rw [h.left (h.tick hR) hm]
    exact ih _ (Nat.lt_succ_of_le (Machine.left_le n m.tick m₁)) (.rest cleanup.stmts cleanup.stmts)
      m₁ m₁' ⟨hc, hc⟩ hm

theorem exec_switch (h : Lockstep R Lost ps f g) (ho : LostAt Lost ps n) (ih : At R Lost ps f g n)
    {discriminant : Expr} {cases : List Case} {span : Span}
    (hp : (Stmt.switch discriminant cases span).parts ⊆ ps) (hR : R m m') :
    ((Stmt.switch discriminant cases span).exec (n + 1) m).Locked R Lost
      ((f (.switch discriminant cases span)).exec (n + 1) m') := by
  rw [h.maps.switch, Stmt.exec_switch, Stmt.exec_switch]
  refine (h.choose (hp (Stmt.self_mem_parts _)) (h.tick hR)).bindMap (fun chosen m₁ hc hm => ?_)
    fun chosen m₁ m₁' hc hm => ?_
  · cases chosen with
    | none => exact hm
    | some body =>
      obtain ⟨case, hmem, rfl⟩ := Case.choose_mem hc
      have hb := Task.inside_case hp hmem
      show Lost (leaveSwitch _).machine
      rw [machine_leaveSwitch]
      exact ho (.rest case.body.stmts case.body.stmts) m₁ ⟨hb, hb⟩ hm
  · cases chosen with
    | none => exact .done _ hm
    | some body =>
      obtain ⟨case, hmem, rfl⟩ := Case.choose_mem hc
      have hb := Task.inside_case hp hmem
      exact (ih (.rest case.body.stmts case.body.stmts) m₁ m₁' ⟨hb, hb⟩ hm).leaveSwitch

/-- **Each kind of statement keeps the runs in lockstep.** -/
theorem exec_stmt (h : Lockstep R Lost ps f g) (ho : ∀ k, LostAt Lost ps k)
    (ih : ∀ k < n, At R Lost ps f g k) (hp : s.parts ⊆ ps) (hR : R m m') :
    (s.exec n m).Locked R Lost ((f s).exec n m') := by
  cases n with
  | zero =>
    rw [Stmt.exec_zero, Stmt.exec_zero, h.stepLimit hR]
    exact .stopped _ (h.tick hR)
  | succ n =>
    have ihn := ih n (Nat.lt_succ_self n)
    cases hk : s.leaf? with
    | some k =>
      obtain ⟨k', hk', hl⟩ := h.leaf hk (hp (Stmt.self_mem_parts s)) (h.tick hR)
      rw [Stmt.exec_leaf hk, Stmt.exec_leaf hk']
      exact hl
    | none =>
      cases s with
      | block b span =>
        rw [Stmt.parts_block, List.cons_subset] at hp
        rw [h.maps.block, Stmt.exec_block, Stmt.exec_block]
        exact ihn (.rest b.stmts b.stmts) _ _ ⟨hp.2, hp.2⟩ (h.tick hR)
      | labeled label body span =>
        rw [Stmt.parts_labeled, List.cons_subset] at hp
        rw [h.maps.labeled, Stmt.exec_labeled, Stmt.exec_labeled]
        exact ihn (.stmt body) _ _ hp.2 (h.tick hR)
      | loop test body span =>
        rw [Stmt.parts_loop, List.cons_subset] at hp
        rw [h.maps.loop, Stmt.exec_loop, Stmt.exec_loop]
        exact ihn (.loop test body) _ _ ⟨⟨span, hp.1⟩, hp.2⟩ (h.tick hR)
      | ite test yes no span => exact h.exec_ite (ho n) ihn hp hR
      | switch discriminant cases span => exact h.exec_switch (ho n) ihn hp hR
      | attempt body handler cleanup span =>
        cases cleanup with
        | none =>
          rw [h.maps.attempt, Option.map_none, Stmt.exec_attempt, Stmt.exec_attempt]
          exact ihn (.tried body handler) _ _ (Task.inside_tried hp) (h.tick hR)
        | some cleanup => exact h.exec_cleanup ho ih hp hR
      | _ => cases hk

/-- The statements of a block one after the other, and a jump among them. -/
theorem exec_rest (h : Lockstep R Lost ps f g) (ho : ∀ k, LostAt Lost ps k)
    (ih : ∀ k < n, At R Lost ps f g k) {all ss : List Stmt} (hp : (Task.rest all ss).Inside ps)
    (hR : R m m') :
    (Stmt.execFrom n all ss m).Locked R Lost (Stmt.execFrom n (all.map f) (ss.map f) m') := by
  cases ss with
  | nil =>
    rw [List.map_nil, Stmt.execFrom_nil, Stmt.execFrom_nil]
    exact .done _ hR
  | cons s ss =>
    obtain ⟨hall, hss⟩ := hp
    rw [Stmt.partsAll_cons, List.append_subset] at hss
    cases n with
    | zero =>
      rw [List.map_cons, Stmt.execFrom_zero, Stmt.execFrom_zero, h.stepLimit hR]
      exact .stopped _ (h.tick hR)
    | succ n =>
      have hseek : ∀ label, Stmt.partsAll (Stmt.seek label all) ⊆ ps :=
        fun label => List.Subset.trans (Stmt.partsAll_seek_subset label all) hall
      rw [List.map_cons, Stmt.execFrom_cons, Stmt.execFrom_cons]
      refine (h.exec_stmt ho ih hss.1 hR).bind (fun flow m₁ hm => ?_) fun flow m₁ m₁' hm => ?_
      -- The left run is lost: whatever it runs next keeps it so.
      · cases flow with
        | normal => exact ho _ (.rest all ss) m₁ ⟨hall, hss.2⟩ hm
        | goto label =>
          have hjump := ho (Machine.left n m.tick m₁) (.rest all (Stmt.seek label all)) m₁
            ⟨hall, hseek label⟩ hm
          dsimp only
          cases hk : Stmt.seek label all with
          | nil => exact hm
          | cons t ts =>
            rw [hk] at hjump
            exact hjump
        | _ => exact hm
      -- Both runs go on with the same number of steps left, and a jump lands at the same place.
      · have hleft := h.left (h.tick hR) hm n
        have hlt := Nat.lt_succ_of_le (Machine.left_le n m.tick m₁)
        cases flow with
        | normal =>
          dsimp only
          rw [hleft]
          exact ih _ hlt (.rest all ss) m₁ m₁' ⟨hall, hss.2⟩ hm
        | goto label =>
          have hjump := ih _ hlt (.rest all (Stmt.seek label all)) m₁ m₁' ⟨hall, hseek label⟩ hm
          dsimp only
          rw [hleft, h.maps.seek]
          cases hk : Stmt.seek label all with
          | nil => exact .done _ hm
          | cons t ts =>
            rw [hk] at hjump
            exact hjump
        | _ => exact .done _ hm

/-- Round after round: the induction is on the steps that are left. -/
theorem exec_loop (h : Lockstep R Lost ps f g) (ho : ∀ k, LostAt Lost ps k)
    (ih : ∀ k < n, At R Lost ps f g k) {test : Expr} {body : Stmt}
    (hp : (Task.loop test body).Inside ps) (hR : R m m') :
    (Stmt.execLoop n test body m).Locked R Lost (Stmt.execLoop n (g test) (f body) m') := by
  have hb := hp.2
  obtain ⟨⟨span, hs⟩, -⟩ := id hp
  have ht := h.eval _ hs test List.mem_cons_self hR
  cases n with
  -- Only a further round needs a step, so the test is compared before the limit is.
  | zero =>
    rw [Stmt.execLoop_zero, Stmt.execLoop_zero]
    refine ht.bind (fun v m₁ hm => ?_) fun v m₁ m₁' hm => ?_
    · split
      · exact h.lost.tick hm
      · exact hm
    · split
      · rw [h.stepLimit hm]
        exact .stopped _ (h.tick hm)
      · exact .done _ hm
  | succ n =>
    rw [Stmt.execLoop_round, Stmt.execLoop_round]
    refine ht.bind (fun v m₁ hm => ?_) fun v m₁ m₁' hm => ?_
    · split
      · refine lost_bind (ho (n + 1) (.stmt body) m₁ hb hm) fun flow m₂ hm₂ => ?_
        cases flow with
        | normal => exact ho _ (.loop test body) m₂ hp hm₂
        | next => exact ho _ (.loop test body) m₂ hp hm₂
        | _ => exact hm₂
      · exact hm
    · split
      · refine (h.exec_stmt ho ih hb hm).bind (fun flow m₂ hm₂ => ?_) fun flow m₂ m₂' hm₂ => ?_
        · cases flow with
          | normal => exact ho _ (.loop test body) m₂ hp hm₂
          | next => exact ho _ (.loop test body) m₂ hp hm₂
          | _ => exact hm₂
        · have hleft := h.left (h.tick hm) hm₂ n
          have hlt := Nat.lt_succ_of_le (Machine.left_le n m₁.tick m₂)
          cases flow with
          | normal =>
            dsimp only
            rw [hleft]
            exact ih _ hlt (.loop test body) m₂ m₂' hp hm₂
          | next =>
            dsimp only
            rw [hleft]
            exact ih _ hlt (.loop test body) m₂ m₂' hp hm₂
          | _ => exact .done _ hm₂
      · exact .done _ hm

theorem exec_tried (h : Lockstep R Lost ps f g) (ho : ∀ k, LostAt Lost ps k)
    (ih : ∀ k ≤ n, ∀ (all ss : List Stmt) (m m' : Machine), (Task.rest all ss).Inside ps → R m m' →
      (Stmt.execFrom k all ss m).Locked R Lost (Stmt.execFrom k (all.map f) (ss.map f) m'))
    {body : Block} {handler : Option Block} (hp : (Task.tried body handler).Inside ps) (hR : R m m') :
    (body.execTried n handler m).Locked R Lost
      ((body.map f).execTried n (handler.map (Block.map f)) m') := by
  obtain ⟨hb, hh⟩ := id hp
  have hbody := ih n (Nat.le_refl n) body.stmts body.stmts m m' ⟨hb, hb⟩ hR
  cases handler with
  | none =>
    rw [Option.map_none, Block.execTried_none, Block.execTried_none]
    exact hbody
  | some catcher =>
    have hc := hh catcher rfl
    rw [Option.map_some, Block.execTried_some, Block.execTried_some]
    refine hbody.rescue (fun m₁ hm => ?_) fun m₁ m₁' hm => ?_
    · exact ho _ (.rest catcher.stmts catcher.stmts) m₁ ⟨hc, hc⟩ hm
    · rw [h.left hR hm]
      exact ih _ (Machine.left_le n m m₁) catcher.stmts catcher.stmts m₁ m₁' ⟨hc, hc⟩ hm

/-- A run stays in lockstep if it stays lost once it is. -/
theorem exec_of_lost (h : Lockstep R Lost ps f g) (ho : ∀ k, LostAt Lost ps k) (n : Nat) :
    At R Lost ps f g n := by
  induction n using Nat.strongRecOn with
  | ind n ih =>
    intro task m m' hp hR
    cases task with
    | stmt s => exact h.exec_stmt ho ih hp hR
    | rest all ss => exact h.exec_rest ho ih hp hR
    | loop test body => exact h.exec_loop ho ih hp hR
    | tried body handler =>
      refine h.exec_tried ho (fun k hk all ss m m' hp' hR' => ?_) hp hR
      exact h.exec_rest ho (fun j hj => ih j (Nat.lt_of_lt_of_le hj hk)) hp' hR'

end Lockstep

/-- A run on its own is in lockstep with itself. -/
theorem Machine.Absorbing.lockstep {P : Machine → Prop} (h : Machine.Absorbing P) (ps : List Stmt) :
    Lockstep (fun m m' => m' = m ∧ P m) (fun _ => False) ps id id where
  maps := .id
  steps := fun ⟨he, _⟩ => congrArg Machine.steps he
  stepLimit := fun ⟨he, _⟩ => congrArg Machine.stepLimit he
  tick := fun ⟨he, hm⟩ => ⟨congrArg Machine.tick he, h.tick hm⟩
  setLocal name v := fun ⟨he, hm⟩ => ⟨congrArg (Machine.setLocal · name v) he, h.setLocal name v hm⟩
  valueCatchable := fun ⟨he, _⟩ => congrArg Machine.valueCatchable he
  suspend kind v := by
    rintro ⟨rfl, hm⟩
    refine .refl ⟨rfl, ?_⟩
    rw [Machine.machine_suspend]
    exact h.suspended kind v hm
  eval := by
    rintro m _ s - e - ⟨rfl, hm⟩
    exact .refl ⟨rfl, h.eval e hm⟩
  lost := ⟨id, fun _ _ => id, fun _ _ => id, fun _ _ => id⟩

/-- **What the operations of a machine keep, a run keeps.** -/
theorem Machine.Absorbing.exec {P : Machine → Prop} (h : Machine.Absorbing P) {ps : List Stmt}
    (n : Nat) : Lockstep.LostAt P ps n := by
  intro task m hp hm
  have hlocked := (h.lockstep ps).exec_of_lost (fun _ _ _ _ => id) n task m m hp ⟨rfl, hm⟩
  rcases hlocked.related with hlost | hR
  · exact hlost.elim
  · exact hR.2

namespace Lockstep

variable {R : Machine → Machine → Prop} {Lost : Machine → Prop} {ps : List Stmt}
  {f : Stmt → Stmt} {g : Expr → Expr} {m m' : Machine}

/-- **A rewriting in lockstep does what the original does, until that is lost.** -/
theorem exec (h : Lockstep R Lost ps f g) (task : Task) (hp : task.Inside ps) (n : Nat) (hR : R m m') :
    (task.exec n m).Locked R Lost ((task.map f g).exec n m') :=
  h.exec_of_lost (fun k => h.lost.exec k) n task m m' hp hR

/-- A body in lockstep completes like the original, unless that is lost. -/
theorem run {b : Block} (h : Lockstep R Lost (Stmt.partsAll b.stmts) f g) (hR : R m m') :
    Lost (m.run b).2 ∨ (m'.run (b.map f)).1 = (m.run b).1 ∧ R (m.run b).2 (m'.run (b.map f)).2 := by
  have hlocked := h.exec (.rest b.stmts b.stmts) ⟨List.Subset.refl _, List.Subset.refl _⟩
    (m.stepLimit - m.steps) hR
  rw [Machine.run, Machine.run, h.steps hR, h.stepLimit hR, Block.exec, Block.exec]
  exact hlocked.complete

end Lockstep

end Lowering
