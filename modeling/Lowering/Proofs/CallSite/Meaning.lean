import Lowering.Proofs.Bridge.Transparent
import Lowering.Proofs.CallSite.Adapted
import Lowering.Proofs.Eval.Moments

/-!
# Adapted calls mean the same

A body whose calls are adapted runs like the body, provided that the bridged methods answer in wrappers
where they answered with native values before (`Callees.ScriptsWrapped`). What is seen of it differs in
the arguments that the bridged methods take in wrappers (`Callees.wrapEvent`), and in nothing else
(`Block.run_adaptCalls`).

A method without a result left answers `null`, which is no wrapper. So a body that calls a method more
often than its script provides for is no longer followed (`Callees.Overruns`).
-/

namespace Lowering

/-- How often a method was called, and may be called until its script ends. -/
def Machine.allowance (m : Machine) (callee : String) : Nat :=
  m.calls.count callee + (m.script callee).length

namespace Callees

variable {cs : Callees} {start m m' : Machine}

/-! ## Machines of a body and of its adapted form -/

/-- The results of a method, in wrappers if its bridge gives them so. -/
def wrapResults (cs : Callees) (callee : String) (results : List Value) : List Value :=
  if cs.wrapsResult callee then results.map Value.wrap else results

/-- What is seen of an event once the methods are bridged. -/
def wrapEvent (cs : Callees) : Event → Event
  | .call callee args => .call callee (cs.wrapArgs callee args)
  | .suspend kind value => .suspend kind value

/-- The second scripts hold the results of the first, as the bridged methods give them. -/
def ScriptsWrapped (cs : Callees) (scripts scripts' : Dict (List Value)) : Prop :=
  ∀ callee, scripts'.get? callee = (scripts.get? callee).map (cs.wrapResults callee)

/-- Scripts stay matched when one more method gets its results. -/
theorem ScriptsWrapped.insert {scripts scripts' : Dict (List Value)}
    (h : cs.ScriptsWrapped scripts scripts') (callee : String) (results : List Value) :
    cs.ScriptsWrapped (scripts.insert callee results)
      (scripts'.insert callee (cs.wrapResults callee results)) := by
  intro other
  by_cases he : other = callee
  · subst he
    rw [Dict.get?_insert_self, Dict.get?_insert_self, Option.map_some]
  · rw [Dict.get?_insert_ne _ _ he, Dict.get?_insert_ne _ _ he]
    exact h other

/-- The machines of a body and of its adapted form, since they were at `start`. -/
structure Tracks (cs : Callees) (start m m' : Machine) : Prop where
  same : m' = { m with scripts := m'.scripts, log := m'.log }
  failing : m.failingCalls = start.failingCalls
  scripts : cs.ScriptsWrapped m.scripts m'.scripts
  log : ∃ events, m.log = events ++ start.log ∧ m'.log = events.map cs.wrapEvent ++ start.log
  /-- every call that gives a result takes it from its script -/
  allowance : ∀ callee, cs.wrapsResult callee = true → callee ∉ start.failingCalls →
    m.allowance callee = start.allowance callee

/-- Since `start`, some method was called more often than its script provides for. -/
def Overruns (cs : Callees) (start m : Machine) : Prop :=
  ∃ callee, cs.wrapsResult callee = true ∧ callee ∉ start.failingCalls ∧
    start.allowance callee < m.calls.count callee

theorem wrapResults_nil (callee : String) : cs.wrapResults callee [] = [] := by
  unfold wrapResults
  split <;> rfl

/-- Each result of a bridged method is in a wrapper. -/
theorem wrapResults_cons (callee : String) (v : Value) (rest : List Value) :
    cs.wrapResults callee (v :: rest) =
      (if cs.wrapsResult callee then v.wrap else v) :: cs.wrapResults callee rest := by
  unfold wrapResults
  split <;> rfl

namespace Tracks

theorem failingCalls (h : cs.Tracks start m m') : m'.failingCalls = m.failingCalls := by
  rw [h.same]

theorem locals (h : cs.Tracks start m m') : m'.locals = m.locals := by
  rw [h.same]

/-- A method runs out of results on both sides at once. -/
theorem script_nil (h : cs.Tracks start m m') {callee : String} (hs : m.script callee = []) :
    m'.script callee = [] := by
  unfold Machine.script at hs ⊢
  rw [h.scripts callee]
  cases hg : m.scripts.get? callee with
  | none => rfl
  | some results =>
    rw [hg] at hs
    cases hs
    exact wrapResults_nil callee

theorem tick (h : cs.Tracks start m m') : cs.Tracks start m.tick m'.tick :=
  { h with same := congrArg Machine.tick h.same }

theorem setLocal (h : cs.Tracks start m m') (name : String) (v : Value) :
    cs.Tracks start (m.setLocal name v) (m'.setLocal name v) :=
  { h with same := congrArg (Machine.setLocal · name v) h.same }

/-- One more event is recorded on both sides, with its arguments wrapped on the other. -/
theorem log_cons (h : cs.Tracks start m m') (e : Event) :
    ∃ events, e :: m.log = events ++ start.log ∧
      cs.wrapEvent e :: m'.log = events.map cs.wrapEvent ++ start.log := by
  obtain ⟨events, hl, hl'⟩ := h.log
  exact ⟨e :: events, congrArg (e :: ·) hl, congrArg (cs.wrapEvent e :: ·) hl'⟩

theorem suspended (h : cs.Tracks start m m') (kind : SuspendKind) (v : Option Value) :
    cs.Tracks start (m.suspended kind v) (m'.suspended kind v) where
  same := congrArg (Machine.suspended · kind v) h.same
  failing := h.failing
  scripts := h.scripts
  log := h.log_cons (.suspend kind v)
  allowance callee hw hf := by
    rw [← h.allowance callee hw hf]
    show (m.record (.suspend kind v)).calls.count callee + _ = _
    rw [Machine.calls_record]
    show (m.calls ++ []).count callee + _ = _
    rw [List.append_nil]
    rfl

/-- A call that takes nothing from a script that is wrapped. -/
theorem record (h : cs.Tracks start m m') {callee : String}
    (hc : callee ∈ m.failingCalls ∨ cs.wrapsResult callee = false) (args : List Value) :
    cs.Tracks start (m.record (.call callee args))
      (m'.record (.call callee (cs.wrapArgs callee args))) where
  same := congrArg (Machine.record · (.call callee (cs.wrapArgs callee args))) h.same
  failing := h.failing
  scripts := h.scripts
  log := h.log_cons (.call callee args)
  allowance other hw hf := by
    have hne : callee ≠ other := by
      rintro rfl
      rcases hc with hc | hc
      · exact hf (h.failing ▸ hc)
      · rw [hw] at hc
        cases hc
    rw [← h.allowance other hw hf]
    show (m.record (.call callee args)).calls.count other + _ = _
    rw [Machine.calls_record]
    show (m.calls ++ [callee]).count other + _ = _
    rw [List.count_append, List.count_singleton, beq_eq_false_iff_ne.mpr hne]
    rfl

/-- A call that takes a result from its script. -/
theorem consume (h : cs.Tracks start m m') {callee : String} {v : Value} {rest : List Value}
    (hs : m.scripts.get? callee = some (v :: rest)) (args : List Value) :
    cs.Tracks start
      { m.record (.call callee args) with scripts := m.scripts.insert callee rest }
      { m'.record (.call callee (cs.wrapArgs callee args)) with
        scripts := m'.scripts.insert callee (cs.wrapResults callee rest) } where
  same := by
    show Machine.mk _ _ _ _ _ _ _ _ _ _ = _
    rw [h.same]
    rfl
  failing := h.failing
  scripts := h.scripts.insert callee rest
  log := h.log_cons (.call callee args)
  allowance other hw hf := by
    rw [← h.allowance other hw hf]
    unfold Machine.allowance Machine.script
    show (m.record (.call callee args)).calls.count other +
      (((m.scripts.insert callee rest).get? other).getD []).length = _
    rw [Machine.calls_record]
    show (m.calls ++ [callee]).count other + _ = _
    by_cases he : other = callee
    · subst he
      rw [Dict.get?_insert_self, hs, List.count_append, List.count_singleton_self]
      simp only [Option.getD_some, List.length_cons]
      omega
    · rw [Dict.get?_insert_ne _ _ he, List.count_append, List.count_singleton,
        beq_eq_false_iff_ne.mpr (Ne.symm he)]
      rfl

end Tracks

/-! ## Running on -/

/-- A script that was overrun stays overrun. -/
theorem Overruns.of_calls (h : cs.Overruns start m) {more : List String}
    (hc : m'.calls = m.calls ++ more) : cs.Overruns start m' := by
  obtain ⟨callee, hw, hf, hlt⟩ := h
  refine ⟨callee, hw, hf, ?_⟩
  rw [hc, List.count_append]
  omega

/-- Nothing that a machine does makes up for a script that was overrun. -/
theorem overruns_absorbing (cs : Callees) (start : Machine) : Machine.Absorbing (cs.Overruns start) where
  tick := id
  setLocal _ _ := id
  suspended kind v h := h.of_calls (Machine.calls_record _ (.suspend kind v))
  call {m} callee args h := by
    obtain ⟨scripts, hm⟩ := Machine.machine_call callee args m
    rw [hm]
    exact h.of_calls (Machine.calls_record m (.call callee args))

/-- A call overruns if there is no result left for it. -/
theorem Tracks.overruns (h : cs.Tracks start m m') {callee : String} (args : List Value)
    (hw : cs.wrapsResult callee = true) (hf : callee ∉ m.failingCalls) (hs : m.script callee = []) :
    cs.Overruns start (m.record (.call callee args)) := by
  rw [h.failing] at hf
  refine ⟨callee, hw, hf, ?_⟩
  rw [← h.allowance callee hw hf, Machine.calls_record]
  show _ < (m.calls ++ [callee]).count callee
  rw [List.count_append, List.count_singleton_self, Machine.allowance, hs]
  exact Nat.lt_succ_self _

/-- **A call and its adapted form are in lockstep.** -/
theorem invoke_locked (cs : Callees) (start : Machine) (callee : String) (vs : List Value) :
    Eval.Locked (cs.Tracks start) (cs.Overruns start) (Machine.call callee vs)
      (cs.invoke callee vs) where
  lost h := (cs.overruns_absorbing start).call callee vs h
  outcome {m m'} h := by
    have hinvoke : cs.invoke callee vs m' = (Machine.call callee (cs.wrapArgs callee vs) m').bind
        fun v n => if cs.wrapsResult callee then v.unwrap n else .done v n := by
      unfold invoke
      cases cs.wrapsResult callee <;> rfl
    rw [hinvoke]
    by_cases hf : callee ∈ m.failingCalls
    · rw [Machine.call_of_mem hf, Machine.call_of_mem (h.failingCalls ▸ hf)]
      exact .thrown _ (h.record (.inl hf) vs)
    · have hf' : callee ∉ m'.failingCalls := h.failingCalls ▸ hf
      rcases m.script_eq_nil_or_cons callee with hs | ⟨v, rest, hs⟩
      -- An exhausted script answers null, which is not a wrapped value: here the two runs part.
      · rw [Machine.call_of_script_nil hf hs, Machine.call_of_script_nil hf' (h.script_nil hs)]
        cases hw : cs.wrapsResult callee with
        | true => exact .lost (h.overruns vs hw hf hs)
        | false => exact .done _ (h.record (.inr hw) vs)
      · have hs' : m'.scripts.get? callee = some (cs.wrapResults callee (v :: rest)) := by
          rw [h.scripts callee, hs]
          rfl
        rw [wrapResults_cons] at hs'
        rw [Machine.call_of_script_cons hf hs, Machine.call_of_script_cons hf' hs', Outcome.bind_done]
        cases hw : cs.wrapsResult callee with
        | true =>
          rw [if_pos rfl, if_pos rfl, Value.unwrap_wrap]
          exact .done v (h.consume hs vs)
        | false => exact .done v (h.consume hs vs)

theorem getLocal_locked (cs : Callees) (start : Machine) (name : String) :
    Eval.Locked (cs.Tracks start) (cs.Overruns start) (Machine.getLocal name)
      (Machine.getLocal name) where
  lost h := (cs.overruns_absorbing start).closed.getLocal name trivial _ h
  outcome {m m'} h := by
    unfold Machine.getLocal
    rw [h.locals]
    cases m.locals.get? name with
    | none => exact .stopped _ h
    | some v => exact .done v h

theorem assign_locked (cs : Callees) (start : Machine) (name : String) (v : Value) :
    Eval.Locked (cs.Tracks start) (cs.Overruns start) (Machine.assign name v)
      (Machine.assign name v) where
  lost h := (cs.overruns_absorbing start).closed.assign name v trivial _ h
  outcome {m m'} h := by
    unfold Machine.assign
    rw [h.locals]
    cases m.locals.get? name with
    | none => exact .stopped _ h
    | some _ => exact .done v (h.setLocal name v)

/-- A suspension is the same on both sides. -/
theorem suspend_locked (cs : Callees) (start : Machine) (h : cs.Tracks start m m') (kind : SuspendKind)
    (v : Option Value) :
    (Machine.suspend kind v m).Locked (cs.Tracks start) (cs.Overruns start)
      (Machine.suspend kind v m') := by
  have hs := h.suspended kind v
  have hsame : m'.suspensions = m.suspensions ∧ m'.failingResumes = m.failingResumes ∧
      m'.resumeCatchable = m.resumeCatchable := by
    rw [h.same]
    exact ⟨rfl, rfl, rfl⟩
  rw [Machine.suspend_apply, Machine.suspend_apply, hsame.1, hsame.2.1, hsame.2.2]
  split
  · exact .thrown _ hs
  · exact .done _ hs

end Callees

/-! ## Expressions and bodies -/

mutual

/-- **An expression and its adapted form are in lockstep.** -/
theorem Expr.adaptCalls_locked {cs : Callees} (hcs : cs.Inward) (start : Machine) : ∀ e : Expr,
    cs.Covers e.calls →
    Eval.Locked (cs.Tracks start) (cs.Overruns start) e.eval (e.adaptCalls cs).value.eval
  | .null, _ | .bool _, _ | .int _, _ | .str _, _ | .this, _ | .wrapNone _, _ => by
    rw [Expr.adaptCalls, Counted.value_pure, Expr.eval]
    exact .pure _
  | .var name, _ => by
    rw [Expr.adaptCalls, Counted.value_pure, Expr.eval]
    exact cs.getLocal_locked start name
  | .assign target value, h => by
    have hv := value.adaptCalls_locked hcs start h
    rw [Expr.adaptCalls, Counted.value_bind, Counted.value_pure, Expr.eval, Expr.eval]
    exact .bind hv fun v => cs.assign_locked start target v
  | .call callee args, h => by
    have ha := Expr.adaptCallsAll_locked hcs start args fun c hc => h c (List.mem_cons_of_mem _ hc)
    rw [Callees.eval_adaptCalls_call hcs h, Expr.eval]
    exact .bind ha fun vs => cs.invoke_locked start callee vs
  | .methodCall receiver method args, h => by
    have hr := receiver.adaptCalls_locked hcs start fun c hc =>
      h c (List.mem_cons_of_mem _ (List.mem_append_left _ hc))
    have ha := Expr.adaptCallsAll_locked hcs start args fun c hc =>
      h c (List.mem_cons_of_mem _ (List.mem_append_right _ hc))
    rw [Callees.eval_adaptCalls_methodCall hcs h, Expr.eval]
    exact .bind hr fun _ => .bind ha fun vs => cs.invoke_locked start method vs
  | .not value, h => by
    have hv := value.adaptCalls_locked hcs start h
    rw [Expr.adaptCalls, Counted.value_bind, Counted.value_pure, Expr.eval, Expr.eval]
    exact .bind hv fun v => .pure _
  | .binary op left right, h => by
    have hl := left.adaptCalls_locked hcs start fun c hc => h c (List.mem_append_left _ hc)
    have hr := right.adaptCalls_locked hcs start fun c hc => h c (List.mem_append_right _ hc)
    rw [Expr.adaptCalls, Counted.value_bind, Counted.value_bind, Counted.value_pure]
    cases op <;> unfold Expr.eval <;> refine .bind hl fun a => ?_
    -- `and` and `or` may leave out their right operand; the other operators evaluate both.
    case and =>
      split
      · exact .bind hr fun _ => .pure _
      · exact .pure _
    case or =>
      split
      · exact .pure _
      · exact .bind hr fun _ => .pure _
    all_goals exact .bind hr fun b => BinaryOp.apply_closed Eval.Locked.closed _ a b
  | .cast ty value, h => by
    have hv := value.adaptCalls_locked hcs start h
    rw [Expr.adaptCalls, Counted.value_bind, Counted.value_pure, Expr.eval, Expr.eval]
    refine .bind hv fun v => ?_
    split
    · exact .pure _
    · exact .raise _
  | .isType value ty, h => by
    have hv := value.adaptCalls_locked hcs start h
    rw [Expr.adaptCalls, Counted.value_bind, Counted.value_pure, Expr.eval, Expr.eval]
    exact .bind hv fun v => .pure _
  | .wrap _ value, h => by
    have hv := value.adaptCalls_locked hcs start h
    rw [Expr.adaptCalls, Counted.value_bind, Counted.value_pure, Expr.eval, Expr.eval]
    exact .bind hv fun v => .pure _
  | .unwrap _ value, h => by
    have hv := value.adaptCalls_locked hcs start h
    rw [Expr.adaptCalls, Counted.value_bind, Counted.value_pure, Expr.eval, Expr.eval]
    exact .bind hv fun v => Value.unwrap_closed Eval.Locked.closed v

theorem Expr.adaptCallsAll_locked {cs : Callees} (hcs : cs.Inward) (start : Machine) :
    ∀ es : List Expr, cs.Covers (Expr.callsAll es) →
    Eval.Locked (cs.Tracks start) (cs.Overruns start) (Expr.evalAll es)
      (Expr.evalAll (Expr.adaptCallsAll cs es).value)
  | [], _ => by
    rw [Expr.adaptCallsAll, Counted.value_pure, Expr.evalAll]
    exact .pure _
  | e :: es, h => by
    have he := e.adaptCalls_locked hcs start fun c hc => h c (List.mem_append_left _ hc)
    have hes := Expr.adaptCallsAll_locked hcs start es fun c hc => h c (List.mem_append_right _ hc)
    rw [Expr.adaptCallsAll, Counted.value_bind, Counted.value_bind, Counted.value_pure, Expr.evalAll,
      Expr.evalAll]
    exact .bind he fun _ => .bind hes fun _ => .pure _

end

/-- A body and its adapted form are in lockstep. -/
theorem Callees.lockstep {cs : Callees} (hcs : cs.Inward) (start : Machine) {ps : List Stmt}
    (hps : ∀ s ∈ ps, ∀ e ∈ s.exprs, cs.Covers e.calls) :
    Lockstep (cs.Tracks start) (cs.Overruns start) ps (fun s => (s.adaptCalls cs).value)
      (fun e => (e.adaptCalls cs).value) where
  maps := Stmt.adaptCalls_maps cs
  steps h := by rw [h.same]
  stepLimit h := by rw [h.same]
  tick h := h.tick
  setLocal name v h := h.setLocal name v
  valueCatchable h := by rw [h.same]
  suspend kind v h := cs.suspend_locked start h kind v
  eval s hs e he h := (e.adaptCalls_locked hcs start (hps s hs e he)).outcome h
  lost := cs.overruns_absorbing start

/-- **Adapting the calls of bridged methods keeps the meaning of a body.** If the machines differ only in
that bridged methods answer in wrappers on the second, and no method with such an answer is called beyond
the end of its script, then the adapted body completes like the body, with the same locals and counters,
and what is seen of it differs only in the arguments that bridged methods take in wrappers. -/
theorem Block.run_adaptCalls {cs : Callees}
    (hcs : ∀ callee c, cs.get? callee = some c →
      ∃ (pair : BridgePair) (a : Adjustment), c = pair.callee a)
    {b : Block} (hb : ∀ s ∈ Stmt.partsAll b.stmts, ∀ e ∈ s.exprs, cs.Covers e.calls)
    {m m' : Machine} (hm : m' = { m with scripts := m'.scripts })
    (hs : cs.ScriptsWrapped m.scripts m'.scripts)
    (hend : ∀ callee, cs.wrapsResult callee = true → callee ∉ m.failingCalls →
      (m.run b).2.calls.count callee ≤ m.calls.count callee + (m.script callee).length) :
    (m'.run (b.adaptCalls cs).value).1 = (m.run b).1 ∧
      (m'.run (b.adaptCalls cs).value).2.locals = (m.run b).2.locals ∧
      (m'.run (b.adaptCalls cs).value).2.steps = (m.run b).2.steps ∧
      (m'.run (b.adaptCalls cs).value).2.suspensions = (m.run b).2.suspensions ∧
      ∃ events, (m.run b).2.trace = m.trace ++ events ∧
        (m'.run (b.adaptCalls cs).value).2.trace = m.trace ++ events.map cs.wrapEvent := by
  have hinward : cs.Inward := by
    intro callee c hc
    obtain ⟨pair, a, rfl⟩ := hcs callee c hc
    exact pair.callee_inward a
  have hlog : m'.log = m.log := by rw [hm]
  have hstart : cs.Tracks m m m' :=
    ⟨by rw [hlog]; exact hm, rfl, hs, ⟨[], rfl, hlog⟩, fun _ _ _ => rfl⟩
  rw [Block.value_adaptCalls]
  rcases (Callees.lockstep hinward m hb).run hstart with hlost | ⟨hsame, hend'⟩
  -- `hend` excludes a run that outlasts a script whose results are wrapped.
  · obtain ⟨callee, hw, hf, hlt⟩ := hlost
    exact absurd (hend callee hw hf) (Nat.not_le.mpr hlt)
  · obtain ⟨events, hl, hl'⟩ := hend'.log
    refine ⟨hsame, hend'.locals, by rw [hend'.same], by rw [hend'.same], events.reverse, ?_, ?_⟩
    · rw [Machine.trace, hl, List.reverse_append]
      rfl
    · rw [Machine.trace, hl', List.reverse_append, List.map_reverse]
      rfl

/-- The callers' view of `int f(int x)`, which is bridged. -/
def Callees.intCallees : Callees := Dict.empty.insert "f" (Method.intPair.callee Method.intAdjustment)

/-- `return this.f(this.f(1));` -/
def Block.nestedCall : Block :=
  ⟨[.ret (some (.methodCall .this "f" [.methodCall .this "f" [.int 1]])) .dummy], .dummy⟩

/-- The inner call answers 2 and the outer one nothing, and both are seen to take their argument in a
wrapper. -/
theorem Block.run_adaptCalls_nestedCall :
    ((Machine.initial.scriptCall "f" [.present (.int 2), .absent]).run
        (nestedCall.adaptCalls .intCallees).value).1 = .ok (.returned .null) ∧
      ((Machine.initial.scriptCall "f" [.present (.int 2), .absent]).run
        (nestedCall.adaptCalls .intCallees).value).2.trace =
          [.call "f" [.present (.int 1)], .call "f" [.present (.int 2)]] := by
  have hrun : ((Machine.initial.scriptCall "f" [.int 2, .null]).run nestedCall).1 =
        .ok (.returned .null) ∧
      ((Machine.initial.scriptCall "f" [.int 2, .null]).run nestedCall).2.trace =
        [.call "f" [.int 1], .call "f" [.int 2]] :=
    Machine.run_completes _ Machine.trace 20 (by decide +kernel)
  have hcs : ∀ callee c, Callees.intCallees.get? callee = some c →
      ∃ (pair : BridgePair) (a : Adjustment), c = pair.callee a := by
    intro callee c hc
    rw [Callees.intCallees, Dict.get?_insert] at hc
    split at hc
    · exact ⟨_, _, (Option.some.inj hc).symm⟩
    · cases hc
  have hscripts : Callees.intCallees.ScriptsWrapped
      (Machine.initial.scriptCall "f" [.int 2, .null]).scripts
      (Machine.initial.scriptCall "f" [.present (.int 2), .absent]).scripts :=
    Callees.ScriptsWrapped.insert (fun _ => rfl) "f" [.int 2, .null]
  have hmeaning := run_adaptCalls hcs (b := nestedCall) (by decide) rfl hscripts
    (by
      intro callee hw hf
      have hcalls : ((Machine.initial.scriptCall "f" [.int 2, .null]).run nestedCall).2.calls =
          ["f", "f"] := by
        rw [Machine.calls, hrun.2]
        rfl
      rw [hcalls]
      by_cases he : callee = "f"
      · subst he
        decide
      · rw [List.count_eq_zero_of_not_mem (by simp [he])]
        exact Nat.zero_le _)
  obtain ⟨hsame, -, -, -, events, hevents, htrace⟩ := hmeaning
  rw [hrun.2] at hevents
  cases hevents
  exact ⟨hsame.trans hrun.1, htrace⟩

end Lowering
