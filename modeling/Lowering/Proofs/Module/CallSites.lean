import Lowering.Proofs.Bridge.Transparent
import Lowering.Proofs.Module.Lowered

/-!
# Which calls of bridged methods are converted

A call tells methods apart by name, by the number of arguments and by its form (`Method.CalledBy`). The
bridged methods are looked up by name alone, and of two with one name the later counts. So the calls of a
bridged method are converted exactly if no bridged method behind it has the same name
(`ModuleUnit.calls_converted_iff`); otherwise they are left as they are, although the method now takes
and gives wrappers.
-/

namespace Lowering

/-! ## Calls of a method -/

/-- The call is made with the name of the method, with as many arguments as it has parameters, and in
the form that it needs: `m(…)` for a static method, `this.m(…)` for any other. -/
inductive Method.CalledBy (m : Method) : Expr → Prop where
  | ofStatic {args : List Expr} (hs : m.isStatic = true) (hl : args.length = m.params.length) :
    CalledBy m (.call m.name args)
  | onThis {args : List Expr} (hs : m.isStatic = false) (hl : args.length = m.params.length) :
    CalledBy m (.methodCall .this m.name args)

/-- What a call tells methods apart by. -/
def Method.key (m : Method) : String × Bool × Nat := (m.name, m.isStatic, m.params.length)

theorem Method.CalledBy.of_key {m m' : Method} {call : Expr} (hkey : m.key = m'.key)
    (h : m.CalledBy call) : m'.CalledBy call := by
  obtain ⟨hname, hrest⟩ := Prod.mk.inj hkey
  obtain ⟨hstatic, hlength⟩ := Prod.mk.inj hrest
  cases h with
  | ofStatic hs hl =>
    rw [hname]
    exact .ofStatic (hstatic ▸ hs) (hl.trans hlength)
  | onThis hs hl =>
    rw [hname]
    exact .onThis (hstatic ▸ hs) (hl.trans hlength)

/-- A call of a method is taken for a call of the bridged method with its name, if that has the form and
the number of parameters, too. -/
theorem Callees.calledBy?_of_calledBy {cs : Callees} {c : BridgedCallee} {m : Method} {call : Expr}
    (hget : cs.get? m.name = some c) (hcall : m.CalledBy call) :
    cs.calledBy? call =
      if c.isStatic = m.isStatic ∧ c.args.length = m.params.length then some c else none := by
  cases hcall with
  | ofStatic hs hl =>
    rw [calledBy?, hget, hs, ← hl]
    simp [Option.filter]
  | onThis hs hl =>
    rw [calledBy?, hget, hs, ← hl]
    simp [Option.filter]

/-! ## Converting changes a call -/

theorem Adaptation.apply_ne {a : Adaptation} (h : a.wraps = true) (e : Expr) : a.apply e ≠ e := by
  obtain ⟨source, dest, ty⟩ := a
  cases source with
  | wrapper => cases h
  | native =>
    cases dest with
    | native => cases h
    | wrapper =>
      by_cases he : e = .null
      · subst he
        exact nofun
      · rw [apply_of_ne_null he]
        intro heq
        have hsize := congrArg sizeOf heq
        rw [Expr.wrap.sizeOf_spec] at hsize
        omega

theorem Adaptation.getElem?_applyAll {as : List Adaptation} {es : List Expr} {i : Nat} {a : Adaptation}
    {e : Expr} (ha : as[i]? = some a) (he : es[i]? = some e) :
    (applyAll as es)[i]? = some (a.apply e) := by
  induction as generalizing es i with
  | nil => cases ha
  | cons a' as ih =>
    cases es with
    | nil => cases he
    | cons e' es =>
      cases i with
      | zero =>
        cases ha
        cases he
        rfl
      | succ i => exact ih ha he

/-- An adjustment changes the result or a parameter. -/
theorem Signature.changes_of_adjust? {excluded : List String} {members : List OverriddenMember}
    {s : Signature} {a : Adjustment} (h : s.adjust? excluded members = some a) :
    a.ret.isSome = true ∨ ∃ i < a.unadjusted.arity, (a.param? (i + 1)).isSome = true := by
  unfold Signature.adjust? at h
  simp only [Option.ite_none_left_eq_some, Option.some.injEq] at h
  obtain ⟨hsome, rfl⟩ := h
  rw [Bool.and_eq_true, List.all_eq_true] at hsome
  by_cases hret : (s.ret.adjust excluded members fun m => some m.signature.ret).isSome = true
  · exact .inl hret
  · -- if no parameter changed either, there would be no adjustment
    refine .inr (Classical.byContradiction fun hnone => hsome ⟨?_, fun w hw => ?_⟩)
    · exact Option.isNone_iff_eq_none.mpr (Option.not_isSome_iff_eq_none.mp hret)
    · obtain ⟨j, hj, rfl⟩ := List.mem_mapIdx.mp hw
      cases j with
      | zero => rfl
      | succ i =>
        rw [Option.isNone_iff_eq_none, ← Option.not_isSome_iff_eq_none]
        refine fun hi => hnone ⟨i, Nat.lt_sub_of_add_lt hj, ?_⟩
        rw [Adjustment.param?, List.getElem?_mapIdx, List.getElem?_eq_getElem hj]
        exact hi

theorem MethodUnit.adjust?_of_adjustment? {config : Config} {unit : MethodUnit} {a : Adjustment}
    (h : unit.adjustment? config = some a) :
    ∃ s : Signature, s.adjust? config.excludedFormals unit.overrides = some a := by
  unfold MethodUnit.adjustment? at h
  split at h
  · next s _ =>
    split at h
    · cases h
    · exact ⟨s, h⟩
  · cases h

/-- Without a change of the result, some argument of a call is wrapped. -/
theorem BridgePair.applyAll_callee_ne {excluded : List String} {members : List OverriddenMember}
    {s : Signature} {a : Adjustment} {pair : BridgePair} {args : List Expr}
    (hs : s.adjust? excluded members = some a)
    (harity : pair.bridge.params.length = a.unadjusted.arity)
    (hlength : args.length = pair.bridge.params.length) (hret : a.ret = none) :
    Adaptation.applyAll (pair.callee a).args args ≠ args := by
  intro heq
  obtain ⟨i, hi, hchange⟩ := (Signature.changes_of_adjust? hs).resolve_left (by rw [hret]; nofun)
  rw [← harity] at hi
  have hwraps : (a.callArg i pair.bridge.params[i]).wraps = true := by
    rw [Adjustment.callArg_wraps (Signature.native_of_adjust? hs), hchange]
  have hadapt : (pair.callee a).args[i]? = some (a.callArg i pair.bridge.params[i]) := by
    rw [BridgePair.callee, List.getElem?_mapIdx, List.getElem?_eq_getElem hi, Option.map_some]
  have harg : args[i]? = some args[i] := List.getElem?_eq_getElem (hlength ▸ hi)
  have happly := Adaptation.getElem?_applyAll hadapt harg
  rw [heq, harg] at happly
  exact Adaptation.apply_ne hwraps _ (Option.some.inj happly).symm

/-- **A call in the form that the bridge needs is another one.** -/
theorem BridgePair.convert_callee_ne {config : Config} {unit : MethodUnit} {a : Adjustment}
    {pair : BridgePair} {call : Expr} (ha : unit.adjustment? config = some a)
    (harity : pair.bridge.params.length = a.unadjusted.arity) (hcall : pair.bridge.CalledBy call) :
    (pair.callee a).convert call ≠ call := by
  obtain ⟨s, hs⟩ := MethodUnit.adjust?_of_adjustment? ha
  intro heq
  have hresult : (pair.callee a).result = a.ret.map fun _ => pair.primary.ret := rfl
  unfold BridgedCallee.convert at heq
  rw [hresult] at heq
  cases hret : a.ret with
  | some w =>
    -- the result is taken out of its wrapper, which is no call
    rw [hret] at heq
    cases hcall with
    | ofStatic => cases heq
    | onThis => cases heq
  | none =>
    rw [hret] at heq
    cases hcall with
    | ofStatic _ hl => exact applyAll_callee_ne hs harity hl hret (Expr.call.inj heq).2
    | onThis _ hl => exact applyAll_callee_ne hs harity hl hret (Expr.methodCall.inj heq).2.2

/-! ## The bridged methods of a module -/

theorem MethodUnit.acceptedIn_units {σ : Type} [NameSupply σ] (config : Config)
    (units : List MethodUnit) (names : σ) :
    ((MethodUnit.acceptedIn (MethodUnit.lowerAll config units names)).map Prod.fst).Sublist units := by
  induction units generalizing names with
  | nil => exact List.Sublist.slnil
  | cons unit units ih =>
    rw [MethodUnit.lowerAll_cons]
    cases (unit.lower config names).1 with
    | error e => exact (ih _).cons unit
    | ok m => exact (ih _).cons_cons unit

theorem LoweredForm.isBridged_mapCalls (f : Expr → Expr) (form : LoweredForm) :
    (form.mapCalls f).isBridged = form.isBridged := by
  cases form with
  | plain decl => rfl
  | bridged pair a => rfl

/-- Rewriting calls leaves the heads of a bridge and its primary. -/
theorem LoweredForm.mapCalls_eq_bridged {f : Expr → Expr} {form : LoweredForm} {pair : BridgePair}
    {a : Adjustment} (h : form.mapCalls f = .bridged pair a) :
    ∃ built, form = .bridged built a ∧ pair.bridge.key = built.bridge.key ∧
      pair.callee a = built.callee a := by
  cases form with
  | plain decl => cases h
  | bridged built a =>
    cases h
    refine ⟨built, rfl, ?_, ?_⟩
    · rw [Method.mapCalls, Method.mapExprs_eq]
      rfl
    · rw [Method.mapCalls, Method.mapCalls, Method.mapExprs_eq, Method.mapExprs_eq]
      rfl

theorem LoweredMethod.calleeAt_eq_some {name : String} {m : LoweredMethod} {c : BridgedCallee} :
    m.calleeAt name = some c ↔
      ∃ pair a, m.form = .bridged pair a ∧ name = pair.bridge.name ∧ pair.callee a = c := by
  rw [calleeAt]
  cases m.form with
  | plain decl =>
    constructor
    · intro h
      cases h
    · rintro ⟨pair, a, h, -⟩
      cases h
  | bridged pair a =>
    dsimp only
    rw [Option.ite_none_right_eq_some, Option.some.injEq]
    constructor
    · exact fun h => ⟨pair, a, rfl, h⟩
    · rintro ⟨_, _, ⟨⟩, h⟩
      exact h

namespace ModuleUnit

variable {config : Config} {module : ModuleUnit}

theorem bridged_of_mem_accepted {u : MethodUnit × LoweredMethod} {pair : BridgePair} {a : Adjustment}
    (hu : u ∈ module.accepted config) (hform : u.2.form = .bridged pair a) :
    u.1.adjustment? config = some a ∧ pair.bridge.key = u.1.method.key ∧
      pair.bridge.params.length = a.unadjusted.arity ∧ u.2.name = pair.bridge.name := by
  obtain ⟨-, hname, hbecomes⟩ := module.becomes_of_mem_accepted config hu
  rw [hform] at hbecomes
  cases hbecomes with
  | bridged placed ha arity =>
    have hlength : ∀ primary, (u.1.method.bridgeTo a primary).params.length =
        u.1.method.params.length := fun _ => List.length_mapIdx
    refine ⟨ha, ?_, ?_, hname⟩
    · rw [Method.key, hlength]
      rfl
    · rw [hlength, arity]

variable {front back : List (MethodUnit × LoweredMethod)} {u : MethodUnit × LoweredMethod}
  {pair : BridgePair} {a : Adjustment}

theorem name_of_split (hsplit : module.accepted config = front ++ u :: back)
    {v : MethodUnit × LoweredMethod} (hv : v ∈ u :: back) (hform : v.2.form = .bridged pair a) :
    v.2.name = pair.bridge.name :=
  (bridged_of_mem_accepted (hsplit ▸ List.mem_append_right front hv) hform).2.2.2

theorem get?_callees_split (hsplit : module.accepted config = front ++ u :: back)
    (hform : u.2.form = .bridged pair a) :
    (module.callees config).get? pair.bridge.name =
      ((back.map Prod.snd).reverse.findSome? (LoweredMethod.calleeAt pair.bridge.name)).or
        (some (pair.callee a)) := by
  have hself : u.2.calleeAt pair.bridge.name = some (pair.callee a) :=
    LoweredMethod.calleeAt_eq_some.mpr ⟨pair, a, hform, rfl, rfl⟩
  rw [callees, LoweredMethod.get?_callees, hsplit, List.map_append, List.map_cons, List.reverse_append,
    List.reverse_cons, List.findSome?_append, List.findSome?_append, List.findSome?_singleton, hself,
    Option.or_assoc, Option.some_or]

/-- The last bridged method of a name is the one that is looked up. -/
theorem get?_callees_of_last (hsplit : module.accepted config = front ++ u :: back)
    (hform : u.2.form = .bridged pair a)
    (hlast : ∀ v ∈ back, v.2.form.isBridged = true → v.2.name ≠ u.2.name) :
    (module.callees config).get? pair.bridge.name = some (pair.callee a) := by
  have hback : (back.map Prod.snd).reverse.findSome? (LoweredMethod.calleeAt pair.bridge.name) = none := by
    refine List.findSome?_eq_none_iff.mpr fun m hm => ?_
    obtain ⟨v, hv, rfl⟩ := List.mem_map.mp (List.mem_reverse.mp hm)
    refine Option.eq_none_iff_forall_ne_some.mpr fun c hc => ?_
    obtain ⟨pair', a', hform', hname, -⟩ := LoweredMethod.calleeAt_eq_some.mp hc
    refine hlast v hv (by rw [hform']; rfl) ?_
    rw [name_of_split hsplit (.tail _ hv) hform', name_of_split hsplit (.head _) hform, hname]
  rw [get?_callees_split hsplit hform, hback, Option.none_or]

/-- Any other is hidden by one behind it. -/
theorem get?_callees_of_hidden (hsplit : module.accepted config = front ++ u :: back)
    (hform : u.2.form = .bridged pair a) {v : MethodUnit × LoweredMethod} (hv : v ∈ back)
    (hbridged : v.2.form.isBridged = true) (hname : v.2.name = u.2.name) :
    ∃ w ∈ back, ∃ pair' a', w.2.form = .bridged pair' a' ∧ pair.bridge.name = pair'.bridge.name ∧
      (module.callees config).get? pair.bridge.name = some (pair'.callee a') := by
  obtain ⟨pair', a', hform'⟩ : ∃ pair' a', v.2.form = .bridged pair' a' := by
    cases hform' : v.2.form with
    | plain decl =>
      rw [hform'] at hbridged
      cases hbridged
    | bridged pair' a' => exact ⟨pair', a', rfl⟩
  have hcallee : v.2.calleeAt pair.bridge.name = some (pair'.callee a') := by
    refine LoweredMethod.calleeAt_eq_some.mpr ⟨pair', a', hform', ?_, rfl⟩
    rw [← name_of_split hsplit (.tail _ hv) hform', hname, name_of_split hsplit (.head _) hform]
  have hv' : v.2 ∈ (back.map Prod.snd).reverse := List.mem_reverse.mpr (List.mem_map_of_mem hv)
  -- Some method of `back` answers to the name; the last one that does is the entry kept.
  cases hback : (back.map Prod.snd).reverse.findSome? (LoweredMethod.calleeAt pair.bridge.name) with
  | none =>
    rw [List.findSome?_eq_none_iff.mp hback _ hv'] at hcallee
    cases hcallee
  | some c =>
    obtain ⟨m, hm, hc⟩ := List.exists_of_findSome?_eq_some hback
    obtain ⟨w, hw, rfl⟩ := List.mem_map.mp (List.mem_reverse.mp hm)
    obtain ⟨pair'', a'', hform'', hname'', rfl⟩ := LoweredMethod.calleeAt_eq_some.mp hc
    refine ⟨w, hw, pair'', a'', hform'', hname'', ?_⟩
    rw [get?_callees_split hsplit hform, hback, Option.some_or]

theorem key_ne_of_split (hkeys : (module.methods.map fun unit => unit.method.key).Nodup)
    (hsplit : module.accepted config = front ++ u :: back) :
    ∀ v ∈ back, u.1.method.key ≠ v.1.method.key := by
  have hunits := (MethodUnit.acceptedIn_units config module.methods module.names).map
    fun unit => unit.method.key
  have hnodup := hkeys.sublist hunits
  rw [← accepted, hsplit, List.map_map, List.map_append, List.map_cons] at hnodup
  intro v hv heq
  have hnot := (List.nodup_cons.mp (List.nodup_append.mp hnodup).2.1).1
  exact hnot (List.mem_map.mpr ⟨v, hv, heq.symm⟩)

/-- Of the calls of a bridged method all are converted or none. -/
theorem adapt_iff (hkeys : (module.methods.map fun unit => unit.method.key).Nodup)
    (hsplit : module.accepted config = front ++ u :: back) (hform : u.2.form = .bridged pair a)
    {call : Expr} (hcall : pair.bridge.CalledBy call) :
    ((module.callees config).adapt call = (pair.callee a).convert call ∨
        (module.callees config).adapt call = call) ∧
      ((module.callees config).adapt call = (pair.callee a).convert call ↔
        ∀ v ∈ back, v.2.form.isBridged = true → v.2.name ≠ u.2.name) := by
  have hmem : ∀ v ∈ u :: back, v ∈ module.accepted config :=
    fun v hv => hsplit ▸ List.mem_append_right front hv
  obtain ⟨ha, hkey, harity, -⟩ := bridged_of_mem_accepted (hmem u (.head _)) hform
  by_cases hlast : ∀ v ∈ back, v.2.form.isBridged = true → v.2.name ≠ u.2.name
  · have hcalled := Callees.calledBy?_of_calledBy (get?_callees_of_last hsplit hform hlast) hcall
    rw [if_pos ⟨rfl, List.length_mapIdx⟩] at hcalled
    have hadapt := Callees.adapt_of_some hcalled
    exact ⟨.inl hadapt, fun _ => hlast, fun _ => hadapt⟩
  · have hkept : (module.callees config).adapt call = call := by
      simp only [ne_eq, Classical.not_forall, Classical.not_not] at hlast
      obtain ⟨v, hv, hbridged, hname⟩ := hlast
      obtain ⟨w, hw, pair', a', hform', hname', hget⟩ :=
        get?_callees_of_hidden hsplit hform hv hbridged hname
      have hkey' := (bridged_of_mem_accepted (hmem w (.tail _ hw)) hform').2.1
      refine Callees.adapt_of_none ?_
      rw [Callees.calledBy?_of_calledBy hget hcall, if_neg]
      -- two methods with the name, the form and the number of parameters would be one
      rintro ⟨hs, hl⟩
      refine key_ne_of_split hkeys hsplit w hw ?_
      rw [← hkey, ← hkey', Method.key, Method.key, hname', ← hs, ← hl]
      exact congrArg (Prod.mk _) (congrArg (Prod.mk _) List.length_mapIdx)
    have hne := BridgePair.convert_callee_ne ha harity hcall
    exact ⟨.inr hkept, fun h => absurd (h.symm.trans hkept) hne, fun h => absurd h hlast⟩

/-- **The calls of a bridged method are converted exactly if no bridged method behind it has the same
name.** -/
theorem calls_converted_iff (config : Config) (module : ModuleUnit)
    (hkeys : (module.methods.map fun unit => unit.method.key).Nodup) :
    ∃ f : Expr → Expr,
      (module.lower config).methods.map (·.form.decls) =
          (module.accepted config).map (fun u => u.2.form.decls.map (Method.mapCalls f)) ∧
        ∀ before m after pair a, (module.lower config).methods = before ++ m :: after →
          m.form = .bridged pair a → ∀ call, pair.bridge.CalledBy call →
            (f call = (pair.callee a).convert call ∨ f call = call) ∧
              (f call = (pair.callee a).convert call ↔
                ∀ later ∈ after, later.form.isBridged = true → later.name ≠ m.name) := by
  refine ⟨(module.callees config).adapt, ?_, ?_⟩
  · rw [methods_lower, List.map_map]
    refine List.map_congr_left fun u _ => ?_
    rw [Function.comp_apply, LoweredMethod.form_adaptCalls, LoweredForm.decls_mapCalls]
  · intro before m after pair a hmethods hform call hcall
    rw [methods_lower] at hmethods
    obtain ⟨front, rest, hsplit, -, hrest⟩ := List.map_eq_append_iff.mp hmethods
    obtain ⟨u, back, rfl, rfl, rfl⟩ := List.map_eq_cons_iff.mp hrest
    rw [LoweredMethod.form_adaptCalls] at hform
    obtain ⟨built, hbuilt, hkey, hcallee⟩ := LoweredForm.mapCalls_eq_bridged hform
    have hiff := adapt_iff hkeys hsplit hbuilt (hcall.of_key hkey)
    rw [← hcallee] at hiff
    refine ⟨hiff.1, hiff.2.trans ?_⟩
    simp only [List.forall_mem_map, LoweredMethod.form_adaptCalls, LoweredForm.isBridged_mapCalls]
    rfl

/-- `int f(int x) { }`, `int f(int x, int y) { }` and `void g() { this.f(1); this.f(1, 2); }` -/
def overloads : ModuleUnit where
  name := "M"
  methods := [.intOverride "f" ["x"] [], .intOverride "f" ["x", "y"] [],
    .procedure "g" [.callOnThis "f" [.int 1], .callOnThis "f" [.int 1, .int 2]]]

theorem calls_converted_iff_overloads :
    (overloads.methods.map fun unit => unit.method.key).Nodup ∧
      ∃ f : Expr → Expr,
        (overloads.lower {}).methods.map (·.form.decls) =
            (overloads.accepted {}).map (fun u => u.2.form.decls.map (Method.mapCalls f)) ∧
          ∀ before m after pair a, (overloads.lower {}).methods = before ++ m :: after →
            m.form = .bridged pair a → ∀ call, pair.bridge.CalledBy call →
              (f call = (pair.callee a).convert call ∨ f call = call) ∧
                (f call = (pair.callee a).convert call ↔
                  ∀ later ∈ after, later.form.isBridged = true → later.name ≠ m.name) := by
  have hkeys : (overloads.methods.map fun unit => unit.method.key).Nodup := by decide
  exact ⟨hkeys, calls_converted_iff {} overloads hkeys⟩

/-- The call of the first `f` is left as it is. -/
theorem calls_kept_overloads :
    (overloads.methods.map fun unit => unit.method.key).Nodup ∧
      ¬ ∃ f : Expr → Expr,
        (overloads.lower {}).methods.map (·.form.decls) =
            (overloads.accepted {}).map (fun u => u.2.form.decls.map (Method.mapCalls f)) ∧
          ∀ m ∈ (overloads.lower {}).methods, ∀ pair a, m.form = .bridged pair a →
            ∀ call, pair.bridge.CalledBy call → f call = (pair.callee a).convert call := by
  refine ⟨by decide, ?_⟩
  rintro ⟨f, hdecls, hconverted⟩
  -- the first statement of `g` in the output, and as a rewriting
  have hout : (((overloads.lower {}).methods.map (·.form.decls))[2]?.bind List.head?).bind
      (fun decl => decl.body.stmts.head?) = some (.callOnThis "f" [.int 1]) := by rfl
  have hin : (((overloads.accepted {}).map
      (fun u => u.2.form.decls.map (Method.mapCalls f)))[2]?.bind List.head?).bind
      (fun decl => decl.body.stmts.head?) =
        some (.eval (f (.methodCall .this "f" [.int 1])) .dummy) := by rfl
  have hcall := hconverted _ (.head _) _ _ rfl (.methodCall .this "f" [.int 1]) (.onThis rfl rfl)
  rw [hdecls, hin, hcall] at hout
  cases hout

end ModuleUnit

end Lowering
