import Lowering.Proofs.Bridge.Adaptation
import Lowering.Proofs.Eval.Budget

/-!
# A call through a bridge is a call of its primary

A caller that adapts its arguments, the body of a bridge and the caller that adapts the result never
see each other. Together they do nothing: the primary gets the values that the caller has, and the
caller gets what the primary gives (`Method.bridge_transparent`).
-/

namespace Lowering

/-! ## Positions -/

/-- The values of arguments as the bridge takes them: wrapped at the positions that change. -/
def Adjustment.wrapArgs (a : Adjustment) (vs : List Value) : List Value :=
  vs.mapIdx fun i v => if (a.param? (i + 1)).isSome then v.wrap else v

/-- A position that changes has the native representation as written. -/
theorem Signature.native_of_adjust? {excluded : List String} {members : List OverriddenMember}
    {s : Signature} {a : Adjustment} (h : s.adjust? excluded members = some a) {i : Nat}
    (hi : (a.param? i).isSome = true) :
    ∃ own, a.unadjusted.params[i]? = some own ∧ Representation.of own = .native := by
  unfold Signature.adjust? at h
  simp only [Option.ite_none_left_eq_some, Option.some.injEq] at h
  obtain ⟨-, rfl⟩ := h
  rw [Adjustment.param?, List.getElem?_mapIdx] at hi
  cases hp : s.params[i]? with
  | none =>
    rw [hp] at hi
    cases hi
  | some own =>
    rw [hp] at hi
    refine ⟨own, rfl, ?_⟩
    rw [Representation.of, if_neg]
    intro hown
    simp [PassType.adjust, hown] at hi

/-- An argument is wrapped exactly at the positions that change. -/
theorem Adjustment.callArg_wraps {a : Adjustment} {i : Nat}
    (hn : (a.param? (i + 1)).isSome = true →
      ∃ own, a.unadjusted.params[i + 1]? = some own ∧ Representation.of own = .native) (p : Param) :
    (a.callArg i p).wraps = (a.param? (i + 1)).isSome := by
  by_cases hi : (a.param? (i + 1)).isSome = true
  · obtain ⟨own, hown, hrep⟩ := hn hi
    simp [Adaptation.wraps, Adjustment.callArg, hi, hown, hrep]
  · rw [Bool.eq_false_iff.mpr hi]
    simp only [Adaptation.wraps, Adjustment.callArg, hi]
    -- the source is the destination
    split
    · next h₁ h₂ => exact absurd (h₁.symm.trans h₂) nofun
    · rfl

/-! ## Frames -/

/-- Binds parameters to values. -/
def Machine.bindParams (m : Machine) : List Param → List Value → Machine
  | p :: ps, v :: vs => (m.setLocal p.name v).bindParams ps vs
  | _, _ => m

namespace Machine

/-- Binding parameters sets locals, and nothing else. -/
theorem bindParams_eq (m : Machine) (ps : List Param) (vs : List Value) :
    ∃ locals, m.bindParams ps vs = { m with locals } := by
  induction ps generalizing m vs with
  | nil => exact ⟨_, rfl⟩
  | cons p ps ih =>
    cases vs with
    | nil => exact ⟨_, rfl⟩
    | cons v vs =>
      obtain ⟨locals, h⟩ := ih (m.setLocal p.name v) vs
      exact ⟨locals, h⟩

theorem get?_bindParams_of_not_mem {name : String} {ps : List Param} (h : name ∉ ps.map Param.name)
    (m : Machine) (vs : List Value) : (m.bindParams ps vs).locals.get? name = m.locals.get? name := by
  induction ps generalizing m vs with
  | nil => rfl
  | cons p ps ih =>
    cases vs with
    | nil => rfl
    | cons v vs =>
      rw [List.map_cons, List.mem_cons, not_or] at h
      rw [bindParams, ih h.2]
      exact Dict.get?_insert_ne _ _ h.1

/-- Every parameter has its value if their names differ. -/
theorem get?_bindParams {ps : List Param} (hd : (ps.map Param.name).Nodup) (m : Machine)
    {vs : List Value} {i : Nat} {p : Param} {v : Value} (hp : ps[i]? = some p) (hv : vs[i]? = some v) :
    (m.bindParams ps vs).locals.get? p.name = some v := by
  induction ps generalizing m vs i with
  | nil => cases hp
  | cons q ps ih =>
    rw [List.map_cons, List.nodup_cons] at hd
    cases vs with
    | nil => cases hv
    | cons w vs =>
      cases i with
      | zero =>
        cases hp
        cases hv
        rw [bindParams, get?_bindParams_of_not_mem hd.1]
        exact Dict.get?_insert_self _ _ _
      | succ i => exact ih hd.2 _ hp hv

end Machine

/-! ## The body of a bridge -/

/-- A run of a single statement that holds no others and does not jump. -/
theorem Machine.run_leaf {m : Machine} {s : Stmt} {f : Eval Flow} {span : Span}
    (hs : s.leaf? = some f) (hsteps : m.steps < m.stepLimit)
    (hgoto : ∀ label m', f m.tick ≠ .done (.goto label) m') :
    m.run ⟨[s], span⟩ = (f m.tick).complete := by
  obtain ⟨n, hn⟩ : ∃ n, m.stepLimit - m.steps = n + 1 := ⟨m.stepLimit - m.steps - 1, by omega⟩
  rw [Machine.run, hn, Block.exec, Stmt.execFrom_succ, Stmt.exec_leaf hs]
  rcases hf : f m.tick with ⟨_ | _ | _ | _ | label, m'⟩ | _ | _
  · simp only [Stmt.execFrom_nil]
  · rfl
  · rfl
  · rfl
  · exact absurd hf (hgoto label m')
  · rfl
  · rfl

namespace Method

variable {method : Method} {a : Adjustment} {primary : String} {m : Machine} {vs : List Value}

/-- The call in the body of a bridge. -/
def bridgeCall (method : Method) (a : Adjustment) (primary : String) : Expr :=
  if method.isStatic then .call primary (method.params.mapIdx a.bridgeArg)
  else .methodCall .this primary (method.params.mapIdx a.bridgeArg)

/-- The bridge takes the values out of their wrappers. -/
theorem eval_bridgeCall (hl : vs.length = method.params.length)
    (hm : ∀ (i : Nat) (p : Param) (v : Value), method.params[i]? = some p →
      (a.wrapArgs vs)[i]? = some v → m.locals.get? p.name = some v) :
    (method.bridgeCall a primary).eval m = Machine.call primary vs m := by
  -- Each parameter holds the wrapped value or the plain one, and the argument unwraps it accordingly.
  have hargs : Expr.evalAll (method.params.mapIdx a.bridgeArg) m = .done vs m := by
    refine Expr.evalAll_eq_done (by rw [List.length_mapIdx, hl]) fun i e v he hv => ?_
    rw [List.getElem?_mapIdx, Option.map_eq_some_iff] at he
    obtain ⟨p, hp, rfl⟩ := he
    have hvar : ∀ w, (a.wrapArgs vs)[i]? = some w → (Expr.var p.name).eval m = .done w m := by
      intro w hw
      rw [Expr.eval, Machine.getLocal, hm i p w hp hw]
    rw [Adjustment.wrapArgs, List.getElem?_mapIdx, hv, Option.map_some] at hvar
    unfold Adjustment.bridgeArg
    cases hw : a.param? (i + 1) with
    | none =>
      rw [hw] at hvar
      exact hvar _ rfl
    | some w =>
      rw [hw] at hvar
      show ((Expr.var p.name).eval m).bind (fun v m' => v.unwrap m') = _
      rw [hvar _ rfl, Option.isSome_some, if_pos rfl, Outcome.bind_done, Value.unwrap_wrap]
      rfl
  unfold bridgeCall
  split
  · rw [Expr.eval]
    show (Expr.evalAll _ m).bind (fun vs m' => Machine.call primary vs m') = _
    rw [hargs, Outcome.bind_done]
  · rw [Expr.eval]
    show (Expr.evalAll _ m).bind (fun vs m' => Machine.call primary vs m') = _
    rw [hargs, Outcome.bind_done]

theorem bridgeCall_ne_null : method.bridgeCall a primary ≠ .null := by
  unfold bridgeCall
  split <;> exact nofun

/-- What the body of a bridge makes of a result of its primary. -/
def bridgeFlow (method : Method) (a : Adjustment) (r : Value) : Flow :=
  if a.ret.isSome then .ret r.wrap else if method.ret.isVoid then .normal else .ret r

/-- The body of a bridge is a single statement, which calls the primary. -/
theorem body_bridgeTo (method : Method) (a : Adjustment) (primary : String) :
    ∃ s f, (method.bridgeTo a primary).body = ⟨[s], method.span⟩ ∧ s.leaf? = some f ∧
      ∀ m, f m = ((method.bridgeCall a primary).eval m).bind fun r m' =>
        .done (method.bridgeFlow a r) m' := by
  unfold bridgeTo bridgeFlow
  cases hret : a.ret with
  | some w =>
    refine ⟨_, _, rfl, rfl, fun m => ?_⟩
    simp only [Option.isSome_some, if_true]
    show (Expr.evalOption (some (Adaptation.apply _ (method.bridgeCall a primary))) m).bind _ = _
    rw [Adaptation.apply_of_ne_null bridgeCall_ne_null, Expr.evalOption, Expr.eval]
    simp only [Eval.bind_apply]
    cases (method.bridgeCall a primary).eval m <;> rfl
  | none =>
    by_cases hv : method.ret.isVoid = true
    · simp only [Option.isSome_none, Bool.false_eq_true, if_false, hv, if_true]
      exact ⟨_, _, rfl, rfl, fun m => rfl⟩
    · simp only [Option.isSome_none, Bool.false_eq_true, if_false, hv]
      refine ⟨_, _, rfl, rfl, fun m => ?_⟩
      show (Expr.evalOption (some (method.bridgeCall a primary)) m).bind _ = _
      rw [Expr.evalOption]
      simp only [Eval.bind_apply]
      cases (method.bridgeCall a primary).eval m <;> rfl

theorem bridge_eq_ok {σ : Type} [NameSupply σ] {suffix : String} {names : σ} {pair : BridgePair}
    (h : (method.bridge suffix a names).1 = .ok pair) :
    pair.bridge = method.bridgeTo a pair.primary.name := by
  unfold bridge at h
  simp only at h
  split at h
  · cases h
  · cases h
    rfl

/-- The parameters of a bridge have the names of the method's. -/
theorem params_bridgeTo (a : Adjustment) (primary : String) {i : Nat} {p : Param}
    (hp : method.params[i]? = some p) :
    ∃ q, (method.bridgeTo a primary).params[i]? = some q ∧ q.name = p.name := by
  refine ⟨a.bridgeParam i p, ?_, ?_⟩
  · show (method.params.mapIdx a.bridgeParam)[i]? = _
    rw [List.getElem?_mapIdx, hp, Option.map_some]
  · unfold Adjustment.bridgeParam
    split <;> rfl

theorem names_bridgeTo :
    (method.bridgeTo a primary).params.map Param.name = method.params.map Param.name := by
  refine List.ext_getElem? fun i => ?_
  cases hp : method.params[i]? with
  | none =>
    have hq : (method.bridgeTo a primary).params[i]? = none := by
      show (method.params.mapIdx a.bridgeParam)[i]? = _
      rw [List.getElem?_mapIdx, hp, Option.map_none]
    rw [List.getElem?_map, List.getElem?_map, hp, hq]
  | some p =>
    obtain ⟨q, hq, hn⟩ := params_bridgeTo a primary hp
    rw [List.getElem?_map, List.getElem?_map, hp, hq, Option.map_some, Option.map_some, hn]

/-- Running the body of a bridge is calling its primary. -/
theorem run_bridgeTo (hd : (method.params.map Param.name).Nodup)
    (hl : vs.length = method.params.length) (hsteps : m.steps < m.stepLimit) :
    let frame := m.bindParams (method.bridgeTo a primary).params (a.wrapArgs vs)
    frame.run (method.bridgeTo a primary).body =
      ((Machine.call primary vs frame.tick).bind fun r m' =>
        .done (method.bridgeFlow a r) m').complete := by
  intro frame
  obtain ⟨s, f, hbody, hs, hf⟩ := body_bridgeTo method a primary
  have hcall : (method.bridgeCall a primary).eval frame.tick = Machine.call primary vs frame.tick := by
    refine eval_bridgeCall hl fun i p v hp hv => ?_
    obtain ⟨q, hq, hn⟩ := params_bridgeTo a primary hp
    rw [← hn]
    refine Machine.get?_bindParams ?_ m hq hv
    rw [names_bridgeTo]
    exact hd
  have hlt : frame.steps < frame.stepLimit := by
    obtain ⟨locals, he⟩ := m.bindParams_eq (method.bridgeTo a primary).params (a.wrapArgs vs)
    show (m.bindParams _ _).steps < (m.bindParams _ _).stepLimit
    rw [he]
    exact hsteps
  rw [hbody, Machine.run_leaf hs hlt, hf, hcall]
  -- The body's one statement never jumps, so no label has to be looked for.
  rw [hf, hcall]
  intro label m' h
  cases hc : Machine.call primary vs frame.tick with
  | done r m₁ =>
    rw [hc, Outcome.bind_done] at h
    unfold bridgeFlow at h
    split at h
    · cases h
    · split at h <;> cases h
  | thrown t m₁ =>
    rw [hc] at h
    cases h
  | stopped e m₁ =>
    rw [hc] at h
    cases h

/-- The values of adapted arguments are the values of the arguments, wrapped where the method changes. -/
theorem wrapAll_callee {excluded : List String} {members : List OverriddenMember} {s : Signature}
    {pair : BridgePair} (ha : s.adjust? excluded members = some a)
    (hpair : pair.bridge = method.bridgeTo a primary) (hl : vs.length = method.params.length) :
    Adaptation.wrapAll (pair.callee a).args vs = a.wrapArgs vs := by
  refine List.ext_getElem? fun i => ?_
  rw [Adaptation.getElem?_wrapAll, Adjustment.wrapArgs, List.getElem?_mapIdx]
  cases hv : vs[i]? with
  | none => rfl
  | some v =>
    obtain ⟨hi, -⟩ := List.getElem?_eq_some_iff.mp hv
    obtain ⟨q, hq, -⟩ := params_bridgeTo a primary (List.getElem?_eq_getElem (hl ▸ hi))
    have harg : (pair.callee a).args[i]? = some (a.callArg i q) := by
      show (pair.bridge.params.mapIdx a.callArg)[i]? = _
      rw [List.getElem?_mapIdx, hpair, hq, Option.map_some]
    rw [harg, Option.any_some, Adjustment.callArg_wraps fun h => Signature.native_of_adjust? ha h]

/-- **A call through a bridge is a call of its primary.** Evaluating adapted arguments is evaluating the
arguments, with values wrapped where the method changes. With these in its parameters, and a step left,
the body of the bridge calls the primary once with the values of the arguments, and what comes of that
is what the caller finds, after unwrapping where the result is a wrapper. -/
theorem bridge_transparent {σ : Type} [NameSupply σ] {excluded : List String}
    {members : List OverriddenMember} {s : Signature} {suffix : String} {names : σ} {pair : BridgePair}
    {args : List Expr} (ha : s.adjust? excluded members = some a)
    (hd : (method.params.map Param.name).Nodup) (hb : (method.bridge suffix a names).1 = .ok pair)
    (hargs : args.length = method.params.length) :
    (∀ m, Expr.evalAll (Adaptation.applyAll (pair.callee a).args args) m =
        (Expr.evalAll args m).bind fun vs m' => .done (a.wrapArgs vs) m') ∧
      ∀ (frame : Machine) (vs : List Value), vs.length = method.params.length →
        frame.steps < frame.stepLimit →
        let run := (frame.bindParams pair.bridge.params (a.wrapArgs vs)).run pair.bridge.body
        run.2.trace = frame.trace ++ [.call pair.primary.name vs] ∧
          match Machine.call pair.primary.name vs frame, (pair.callee a).result with
          | .done r _, some _ => ∃ v, run.1 = .ok (.returned v) ∧ v.unwrap = pure r
          | .done r _, none => run.1 = .ok (if method.ret.isVoid then .finished else .returned r)
          | .thrown t _, _ => run.1 = .ok (.threw t.value)
          | .stopped _ _, _ => False := by
  have hpair := bridge_eq_ok hb
  refine ⟨fun m => ?_, fun frame vs hl hsteps => ?_⟩
  · rw [Expr.evalAll_applyAll (pair.callee_inward a)]
    cases he : Expr.evalAll args m with
    | done vs m' =>
      rw [Outcome.bind_done, Outcome.bind_done,
        wrapAll_callee ha hpair ((Expr.length_evalAll he).trans hargs)]
    | thrown t m' => rfl
    | stopped e m' => rfl
  · have hrun := @run_bridgeTo method a pair.primary.name frame vs hd hl hsteps
    rw [← hpair] at hrun
    obtain ⟨locals, he⟩ := frame.bindParams_eq pair.bridge.params (a.wrapArgs vs)
    dsimp only at hrun ⊢
    rw [he] at hrun ⊢
    -- The bridge calls from a frame with other locals and one step later; neither is read by a call.
    have hcases := @Machine.call_cases pair.primary.name vs frame { frame with locals }.tick rfl rfl
    rcases hcases with ⟨t, n, n', hcall, hcall', hn⟩ | ⟨r, n, n', hcall, hcall', hn⟩
    · rw [hcall', Outcome.bind_thrown] at hrun
      rw [hrun, hcall]
      exact ⟨hn, rfl⟩
    · rw [hcall', Outcome.bind_done] at hrun
      rw [hrun, hcall]
      unfold bridgeFlow BridgePair.callee
      cases a.ret with
      | some w => exact ⟨hn, r.wrap, rfl, Value.unwrap_wrap r⟩
      | none =>
        by_cases hv : method.ret.isVoid = true
        · simp only [Option.isSome_none, Bool.false_eq_true, if_false, hv, if_true]
          exact ⟨hn, rfl⟩
        · simp only [Option.isSome_none, Bool.false_eq_true, if_false, hv]
          exact ⟨hn, rfl⟩

/-! ## An override -/

/-- `f(x: T?): T?` of a class `C<T>`. -/
def genericMember : OverriddenMember where
  owner := "C"
  signature :=
    ⟨[⟨.named "C", false⟩, ⟨.param ⟨"T", .type "C"⟩, true⟩], ⟨.param ⟨"T", .type "C"⟩, true⟩⟩
  bindings := .empty

/-- The signature of an override for `T = Int`. -/
def intSignature : Signature := ⟨[⟨.named "D", false⟩, ⟨.int, false⟩], ⟨.int, false⟩⟩

/-- `int f(int x) { }` -/
def intMethod : Method := ⟨"f", .pub, false, [⟨"x", .int⟩], .int, ⟨[], .dummy⟩, .dummy⟩

/-- Its parameter and its result change. -/
def intAdjustment : Adjustment := ⟨intSignature, [none, some ⟨⟨.int, false⟩⟩], some ⟨⟨.int, false⟩⟩⟩

def intPair : BridgePair :=
  ⟨intMethod.bridgeTo intAdjustment "f_", { intMethod with name := "f_", visibility := .priv }⟩

theorem bridge_transparent_intMethod :
    intSignature.adjust? [] [genericMember] = some intAdjustment ∧
      (intMethod.bridge "_" intAdjustment Names.empty).1 = .ok intPair ∧
      ((Machine.initial.bindParams intPair.bridge.params [.present (.int 1)]).run
        intPair.bridge.body).2.trace = [.call "f_" [.int 1]] := by
  have hadjust : intSignature.adjust? [] [genericMember] = some intAdjustment := rfl
  have hbridge : (intMethod.bridge "_" intAdjustment Names.empty).1 = .ok intPair := rfl
  have hargs : [Expr.int 1].length = intMethod.params.length := rfl
  have hcall := bridge_transparent hadjust (by decide) hbridge hargs
  exact ⟨hadjust, hbridge, (hcall.2 Machine.initial [.int 1] rfl (by decide)).1⟩

/-- Without a step left, a bridge does not call its primary. -/
theorem bridge_without_steps :
    intSignature.adjust? [] [genericMember] = some intAdjustment ∧
      (intMethod.bridge "_" intAdjustment Names.empty).1 = .ok intPair ∧
      (({ Machine.initial with steps := 100000 }.bindParams intPair.bridge.params
        [.present (.int 1)]).run intPair.bridge.body).2.trace ≠ [.call "f_" [.int 1]] := by
  refine ⟨rfl, rfl, ?_⟩
  rw [Machine.run, Block.exec]
  show (Outcome.complete (Stmt.execFrom 0 _ (_ :: _) _)).2.trace ≠ _
  rw [Stmt.execFrom_zero]
  decide

end Method

end Lowering
