import Lowering.Proofs.Hoist.Outcomes

/-!
# Rewritten blocks run like the source

A block of the source is followed statement by statement. Either the rewritten block stands at the
same point, or it is inside a protected run: then the statements of the run that are still to come
follow, and behind the run the rewritten block stands at the point where the source is by then.
`SimRest` has both, since the source passes from one to the other.

Inside a run the locals that are still to be declared are `null` already, since their declarations
stand in front of it.
-/

namespace Lowering

/-! ## What is to be shown -/

/-- The statement's rewriting ends like the statement. -/
def SimStmt (L : Lexicon) (s : Stmt) (m : Machine) (o : Outcome Flow) : Prop :=
  ∀ {handler Γ out m'}, Lowers L handler Γ s out → m.Agree L.escapes (L.Visible Γ) m' →
    ∃ o', Matches L handler Γ (s.binds ++ Γ) o o' ∧ Reaches L out m' o'

/-- The rewriting of a block, from the point on where `rest` is left of it, ends like the block. -/
structure SimRest (L : Lexicon) (all rest : List Stmt) (m : Machine) (o : Outcome Flow) :
    Prop where
  /-- at the same point -/
  between : ∀ {handler Γ before all' rest' m'}, all = before ++ rest →
    LowersBlock L handler Γ all all' → rest' <:+ all' →
    LowersAll L handler (Stmt.scopeAfter Γ before) rest rest' →
    m.Agree L.escapes (L.Visible (Stmt.scopeAfter Γ before)) m' →
    ∃ o', Matches L handler Γ Γ o o' ∧ Ends (.rest all' rest') m' o'
  /-- inside a run, of which `run` is left -/
  inside : ∀ {label Γ before run rest₂ all' rest₂' work m'}, all = before ++ rest →
    rest = run ++ rest₂ → LowersBlock L (some label) Γ all all' → rest₂' <:+ all' →
    LowersRun L (Stmt.scopeAfter Γ before) run →
    LowersAll L (some label) (Stmt.scopeAfter Γ (before ++ run)) rest₂ rest₂' →
    Stmt.labels work = [] → m.Agree L.escapes (L.Visible (Stmt.scopeAfter Γ before)) m' →
    (∀ x ∈ run.flatMap Stmt.binds, m'.locals.get? x = some .null) →
    ∃ ow o', Ends (.rest work (run.flatMap Stmt.runWork)) m' ow ∧
      Follows all' rest₂' (ow.protect label) o' ∧ Matches L (some label) Γ Γ o o'

/-- The same behind the statement `s`, which ended with `o₁`. -/
structure SimAfter (L : Lexicon) (before : List Stmt) (s : Stmt) (rest : List Stmt)
    (o₁ o : Outcome Flow) : Prop where
  between : ∀ {handler Γ all' rest' o₁'}, LowersBlock L handler Γ (before ++ s :: rest) all' →
    rest' <:+ all' → LowersAll L handler (s.binds ++ Stmt.scopeAfter Γ before) rest rest' →
    Matches L handler (Stmt.scopeAfter Γ before) (s.binds ++ Stmt.scopeAfter Γ before) o₁ o₁' →
    ∃ o', Matches L handler Γ Γ o o' ∧ Follows all' rest' o₁' o'
  inside : ∀ {label Γ run rest₂ all' rest₂' work o₁'},
    rest = run ++ rest₂ → LowersBlock L (some label) Γ (before ++ s :: rest) all' →
    rest₂' <:+ all' → LowersRun L (s.binds ++ Stmt.scopeAfter Γ before) run →
    LowersAll L (some label) (Stmt.scopeAfter (s.binds ++ Stmt.scopeAfter Γ before) run) rest₂ rest₂' →
    Stmt.labels work = [] → (∀ t m, o₁ = .thrown t m → t.catchable = true) →
    Matches L none (Stmt.scopeAfter Γ before) (s.binds ++ Stmt.scopeAfter Γ before) o₁ o₁' →
    (∀ x ∈ run.flatMap Stmt.binds, o₁'.machine.locals.get? x = some .null) →
    ∃ ow o', Follows work (run.flatMap Stmt.runWork) o₁' ow ∧
      Follows all' rest₂' (ow.protect label) o' ∧ Matches L (some label) Γ Γ o o'

/-! ## In front of a run -/

/-- The locals of a run are not visible in front of it. -/
theorem LowersRun.not_visible {L : Lexicon} : ∀ {Γ : List String} {run : List Stmt},
    LowersRun L Γ run → ∀ x ∈ run.flatMap Stmt.binds, ¬L.Visible Γ x
  | _, _, .nil, _, hx => nomatch hx
  | Γ, _, .cons _ _ _ hb _ hr, x, hx => by
    rw [List.flatMap_cons, List.mem_append] at hx
    rcases hx with hx | hx
    · exact fun hv => (hb x hx).2 (hv.2 (hb x hx).1)
    · exact fun hv => LowersRun.not_visible hr x hx
        (hv.mono fun _ _ hm => List.mem_append_right _ hm)

/-- What stands in front of a run makes its locals `null`. -/
theorem Ends.heads {all tail : List Stmt} (run : List Stmt) (m' : Machine) :
    ∃ m'', (∀ o, Ends (.rest all tail) m'' o →
        Ends (.rest all (run.flatMap Stmt.runHead ++ tail)) m' o) ∧
      (∀ x, x ∈ run.flatMap Stmt.binds ∨ m'.locals.get? x = some .null →
        m''.locals.get? x = some .null) ∧
      ∀ (E : Prop) (V : String → Prop) (m : Machine), (∀ x ∈ run.flatMap Stmt.binds, ¬V x) →
        m.Agree E V m' → m.Agree E V m'' := by
  induction run generalizing m' with
  | nil => exact ⟨m', fun _ h => h, fun x hx => hx.resolve_left (nomatch ·), fun _ _ _ _ h => h⟩
  | cons s run ih =>
    cases s with
    | declare name ty init span =>
      obtain ⟨m'', hends, hnull, hagree⟩ := ih (m'.setLocal name .null)
      refine ⟨m'', fun o h => .step .declareNull (hends o h), fun x hx => hnull x ?_,
        fun E V m hV h => ?_⟩
      · rw [List.flatMap_cons, List.mem_append] at hx
        by_cases hn : x = name
        · exact .inr (hn ▸ Dict.get?_insert_self ..)
        · rcases hx with (hx | hx) | hx
          · exact absurd (List.mem_singleton.mp hx) hn
          · exact .inl hx
          · exact .inr ((Dict.get?_insert_ne _ _ hn).trans hx)
      · refine hagree E V m (fun x hx => hV x (List.mem_append_right _ hx)) ?_
        exact h.setLocal_right .null (hV name (List.mem_append_left _ List.mem_cons_self))
    | method decl span =>
      obtain ⟨m'', hends, hnull, hagree⟩ := ih m'
      exact ⟨m'', fun o h => .step (.leaf_eq rfl rfl) (hends o h), hnull, hagree⟩
    | _ => exact ih m'

/-- A run as a whole, unless nothing of it is left. -/
theorem Ends.flush {all rest run : List Stmt} {label : String} {m : Machine} {ow o : Outcome Flow}
    (h : Ends (.rest run run) m ow) (ho : Follows all rest (ow.protect label) o) :
    Ends (.rest all (Stmt.flush label run ++ rest)) m o := by
  cases run with
  | nil =>
    cases h
    exact ho.ends
  | cons s run => exact (h.protect label).cons ho

/-! ## Inside a run -/

section Inside

variable {L : Lexicon} {Γ : List String} {s : Stmt} {run : List Stmt} {m m' : Machine}
  {o : Outcome Flow}

/-- What a run does in place of a statement: `o'` is how that ends. -/
def RunStep (L : Lexicon) (Γ : List String) (s : Stmt) (run : List Stmt) (m' : Machine)
    (o o' : Outcome Flow) : Prop :=
  Matches L none Γ (s.binds ++ Γ) o o' ∧
    (∀ x ∈ run.flatMap Stmt.binds, o'.machine.locals.get? x = some .null) ∧
    ∀ work ws ow, Follows work ws o' ow → Ends (.rest work (s.runWork ++ ws)) m' ow

theorem visible_cons {name : String} {x : String} (h : L.Visible (name :: Γ) x) :
    x = name ∨ L.Visible Γ x := by
  by_cases hn : x = name
  · exact .inl hn
  · exact .inr ⟨h.1, fun hk => (List.mem_cons.mp (h.2 hk)).resolve_left hn⟩

theorem Ends.eq_of_declare {name : String} {ty : TargetType} {e : Expr} {span : Span}
    (h : Ends (.stmt (.declare name ty (some e) span)) m o) :
    o = (e.eval m).bind fun v m' => .done .normal (m'.setLocal name v) := by
  cases h with | leaf hs =>
  cases hs
  show ((e.eval m).bind fun v m' => Outcome.done (some v) m').bind (fun v m' =>
    Outcome.done Flow.normal (m'.setLocal name (v.getD .null))) = _
  cases e.eval m <;> rfl

/-- The start value of a declaration is assigned where the declaration stood. -/
theorem runStep_init {name : String} {ty : TargetType} {e : Expr} {span : Span}
    (hv : ∀ x ∈ e.locals, L.Visible Γ x) (hn : ¬L.Visible Γ name)
    (ht : ∀ x ∈ run.flatMap Stmt.binds, x ∉ name :: e.locals) (ha : m.Agree L.escapes (L.Visible Γ) m')
    (hnull : ∀ x ∈ name :: run.flatMap Stmt.binds, m'.locals.get? x = some .null)
    (h : Ends (.stmt (.declare name ty (some e) span)) m o) :
    ∃ o', RunStep L Γ (.declare name ty (some e) span) run m' o o' := by
  have hne : name ∉ e.locals := fun hm => hn (hv name hm)
  have hkeep : ∀ x ∈ run.flatMap Stmt.binds, (e.eval m').machine.locals.get? x = some .null :=
    fun x hx => by
      rw [Expr.get?_eval fun hm => ht x hx (List.mem_cons_of_mem _ hm)]
      exact hnull x (List.mem_cons_of_mem _ hx)
  -- The declaration has become an assignment; when the initializer is abrupt, neither binds the name.
  have hcut : ∀ o, (e.eval m).abrupt? = some o →
      ∃ o', RunStep L Γ (.declare name ty (some e) span) run m' o o' := fun o ho => by
    obtain ⟨o', ho', hmatch⟩ := (Expr.eval_respects hv).abrupt
      (Expr.eval_keeps (List.mem_singleton_self e)) (fun hn => absurd rfl hn) ha ho
    refine ⟨o', hmatch, fun x hx => ?_, fun work ws ow hf => (Ends.assign_abrupt ho').cons hf⟩
    rw [Outcome.machine_of_abrupt? ho']
    exact hkeep x hx
  rw [h.eq_of_declare]
  cases hr : e.eval m with
  | done v m₁ =>
    obtain ⟨m₁', he, ha₁⟩ := (Expr.eval_respects hv).done ha hr
    refine ⟨.done .normal (m₁'.setLocal name v), .normal (ha₁.setLocal name v fun _ => visible_cons),
      fun x hx => ?_, fun work ws ow hf => ?_⟩
    · have hxn : x ≠ name := fun hx' => ht x hx (hx' ▸ List.mem_cons_self)
      have := hkeep x hx
      rw [he] at this
      exact (Dict.get?_insert_ne _ _ hxn).trans this
    · exact (Ends.assign (hnull name List.mem_cons_self) hne he).cons hf
  | thrown t m₁ => exact hcut _ (by rw [hr]; rfl)
  | stopped err m₁ => exact hcut _ (by rw [hr]; rfl)

theorem Stmt.mentions_subset_touched (s : Stmt) : s.mentions ⊆ s.touched :=
  fun _ hx => List.mem_flatMap.mpr ⟨s, s.self_mem_parts, hx⟩

/-- **In a run every statement does what it did**, and the locals to come stay `null`. -/
theorem exists_runStep (ih : SimStmt L s m o) (h : Ends (.stmt s) m o) (hs : Lowers L none Γ s [s])
    (hb : ∀ x ∈ s.binds, x ∈ L.kept ∧ x ∉ Γ) (ht : ∀ x ∈ run.flatMap Stmt.binds, x ∉ s.touched)
    (ha : m.Agree L.escapes (L.Visible Γ) m')
    (hnull : ∀ x ∈ (s :: run).flatMap Stmt.binds, m'.locals.get? x = some .null) :
    ∃ o', RunStep L Γ s run m' o o' := by
  -- A statement that declares nothing goes into the run as it is.
  have hstays : s.runWork = [s] → ∃ o', RunStep L Γ s run m' o o' := fun hw => by
    obtain ⟨o', hmatch, hreach⟩ := ih hs ha
    have hends := hreach.ends_of_one
    have hparts : (Task.stmt s).Inside s.parts := fun _ hp => hp
    refine ⟨o', hmatch, fun x hx => ?_, fun work ws ow hf => ?_⟩
    · have hframe := (hends.accounted hparts).frame x fun p hp hm =>
        ht x hx (List.mem_flatMap.mpr ⟨p, hp, hm⟩)
      exact hframe.trans (hnull x (List.mem_append_right _ hx))
    · rw [hw]
      exact hends.cons hf
  have hrest : ∀ x ∈ run.flatMap Stmt.binds, m'.locals.get? x = some .null := fun x hx =>
    hnull x (List.mem_append_right _ hx)
  cases s with
  | declare name ty init span =>
    cases init with
    | none =>
      cases h with | leaf hs =>
      cases hs
      refine ⟨.done .normal m', .normal ?_, hrest, fun work ws ow hf => hf.ends⟩
      exact ha.setLocal_left (hnull name List.mem_cons_self) fun _ => visible_cons
    | some e =>
      cases hs with | leaf _ hv =>
      refine runStep_init (hv e List.mem_cons_self) (fun hn => ?_) (fun x hx hm => ht x hx ?_) ha
        hnull h
      · exact (hb name List.mem_cons_self).2 (hn.2 (hb name List.mem_cons_self).1)
      · refine Stmt.mentions_subset_touched _ ?_
        show x ∈ name :: [e].flatMap Expr.locals
        rwa [List.flatMap_singleton]
  | method decl span =>
    cases h with | leaf hs =>
    cases hs
    exact ⟨.done .normal m', .normal ha, hrest, fun work ws ow hf => hf.ends⟩
  | _ => exact hstays rfl

end Inside

/-! ## Behind a statement -/

section After

variable {L : Lexicon} {before rest : List Stmt} {s : Stmt} {m m₁ : Machine} {o₁ o : Outcome Flow}

theorem visible_scopeAfter {Γ : List String} {x : String} (ss : List Stmt) (h : L.Visible Γ x) :
    L.Visible (Stmt.scopeAfter Γ ss) x :=
  h.mono fun _ _ hm => Stmt.mem_scopeAfter.mpr (.inl hm)

theorem SimAfter.of_cut (ho : o₁.fallsThrough = false)
    (h : ∀ {handler Γ all' o₁'}, LowersBlock L handler Γ (before ++ s :: rest) all' →
      Matches L handler (Stmt.scopeAfter Γ before) (s.binds ++ Stmt.scopeAfter Γ before) o₁ o₁' →
      ∃ o', Matches L handler Γ Γ o o' ∧ ∀ rest', Follows all' rest' o₁' o') :
    SimAfter L before s rest o₁ o where
  between hblock _ _ hmatch := by
    obtain ⟨o', hmatch', hf⟩ := h hblock hmatch
    exact ⟨o', hmatch', hf _⟩
  inside {label _ _ _ _ _ _ o₁'} _ hblock _ _ _ hwork hcatch hmatch _ := by
    obtain ⟨o', hmatch', hf⟩ := h hblock (hmatch.protect hcatch label)
    exact ⟨o₁', o', .of_labels hwork (hmatch.fallsThrough_eq.trans ho), hf _, hmatch'⟩

theorem simAfter_step (ih : SimRest L (before ++ s :: rest) rest m₁ o) :
    SimAfter L before s rest (.done .normal m₁) o := by
  have hall : before ++ s :: rest = before ++ [s] ++ rest := by
    rw [List.append_assoc, List.singleton_append]
  constructor
  · intro handler Γ all' rest' o₁' hblock hsuf hlow hmatch
    rw [← Stmt.scopeAfter_concat] at hlow hmatch
    cases hmatch with
    | leave hf _ => exact absurd rfl hf
    | normal ha =>
      obtain ⟨o', hmatch', hends⟩ := ih.between hall hblock hsuf hlow ha
      exact ⟨o', hmatch', .normal hends⟩
  · intro label Γ run rest₂ all' rest₂' work o₁' hrest hblock hsuf hrun hlow hwork _ hmatch hnull
    rw [← Stmt.scopeAfter_concat] at hrun hlow hmatch
    rw [← Stmt.scopeAfter_append] at hlow
    cases hmatch with
    | leave hf _ => exact absurd rfl hf
    | normal ha =>
      obtain ⟨ow, o', hends, hf, hmatch'⟩ :=
        ih.inside hall hrest hblock hsuf hrun hlow hwork ha hnull
      exact ⟨ow, o', .normal hends, hf, hmatch'⟩

theorem Matches.leaveScope {handler : Option String} {Γ Γ' : List String} {o' : Outcome Flow}
    (ss : List Stmt) (h : Matches L handler (Stmt.scopeAfter Γ ss) Γ' o o')
    (ho : o.fallsThrough = false) : Matches L handler Γ Γ o o' := by
  cases h with
  | normal h => cases ho
  | leave hf h => exact .leave hf (h.mono fun _ => visible_scopeAfter ss)
  | caught hh ht h => exact .caught hh ht (h.mono fun _ => visible_scopeAfter ss)
  | thrown hh hv hc h => exact .thrown hh hv hc (h.mono fun _ => visible_scopeAfter ss)
  | stopped h => exact .stopped h

theorem simAfter_leave (ho : o.leavesBlock = true) : SimAfter L before s rest o o := by
  have hfall : o.fallsThrough = false := by
    rcases o with ⟨_ | _, _⟩ | _ | _ <;> first | rfl | cases ho
  refine .of_cut hfall fun hblock hmatch => ⟨_, hmatch.leaveScope before hfall, fun rest' => ?_⟩
  cases hmatch with
  | normal h => cases ho
  | @leave f m m' hf h => exact .leave (by cases f <;> first | rfl | cases ho)
  | caught hh ht h =>
    obtain ⟨_, _, hfresh⟩ := hblock
    exact .jumpOut (Stmt.seek_eq_nil (hfresh.apart _ hh))
  | thrown hh hv hc h => exact .leave rfl
  | stopped h => exact .leave rfl

/-- A jump goes to the label of some statement inside. -/
theorem Ends.mem_targets {label : String} (h : Ends (.stmt s) m (.done (.goto label) m₁)) :
    label ∈ s.targets := by
  have hparts : (Task.stmt s).Inside s.parts := fun _ hp => hp
  obtain ⟨p, hp, ht⟩ := (h.accounted hparts).jump label m₁ rfl
  exact List.mem_filterMap.mpr ⟨p, hp, ht⟩

theorem simAfter_jumpOut {label : String} (h : Ends (.stmt s) m (.done (.goto label) m₁))
    (hl : Stmt.seek label (before ++ s :: rest) = []) :
    SimAfter L before s rest (.done (.goto label) m₁) (.done (.goto label) m₁) := by
  refine .of_cut rfl fun hblock hmatch => ⟨_, hmatch.leaveScope before rfl, fun rest' => ?_⟩
  obtain ⟨hlow, hjumps, -⟩ := hblock
  have htaken := (hjumps before s rest rfl label h.mem_targets).1
  cases hmatch with
  | leave hf ha =>
    rcases hlow.align htaken with ⟨-, hl'⟩ | ⟨hne, -⟩
    · exact .jumpOut hl'
    · exact absurd hl hne

/-- A local declared in front of the target of a jump is declared in front of the jump, unless the jump
goes forward. -/
theorem Stmt.mem_binds_takeWhile {label x : String}
    (hx : x ∈ ((before ++ s :: rest).takeWhile fun s => !s.hasLabel label).flatMap Stmt.binds) :
    x ∈ before.flatMap Stmt.binds ∨ before.any (Stmt.hasLabel label) = false ∧
      s.hasLabel label = false ∧
      x ∈ s.binds ++ (rest.takeWhile fun s => !s.hasLabel label).flatMap Stmt.binds := by
  induction before with
  | nil =>
    rw [List.nil_append, List.takeWhile_cons] at hx
    cases hl : s.hasLabel label with
    | true =>
      rw [hl] at hx
      cases hx
    | false =>
      rw [hl] at hx
      exact .inr ⟨rfl, rfl, hx⟩
  | cons t before ih =>
    rw [List.cons_append, List.takeWhile_cons] at hx
    cases hl : t.hasLabel label with
    | true =>
      rw [hl] at hx
      cases hx
    | false =>
      rw [hl] at hx
      rcases List.mem_append.mp (List.flatMap_cons ▸ hx) with hx | hx
      · exact .inl (List.mem_append_left _ hx)
      · refine (ih hx).imp (List.mem_append_right _) (And.imp_left fun hb => ?_)
        rw [List.any_cons, hl, hb]
        rfl

theorem Stmt.any_of_seek_ne_nil {label : String} {ss : List Stmt} (h : Stmt.seek label ss ≠ []) :
    ss.any (Stmt.hasLabel label) = true := by
  induction ss with
  | nil => exact absurd rfl h
  | cons s ss ih =>
    rw [List.any_cons]
    cases hl : s.hasLabel label with
    | true => rfl
    | false =>
      rw [Stmt.seek, List.dropWhile_cons_of_pos (by rw [hl]; rfl)] at h
      exact ih h

/-- A jump leaves every local visible that is visible where it goes. -/
theorem Stmt.Jumps.visible {label : String} (hj : Stmt.Jumps L (before ++ s :: rest))
    (hs : label ∈ s.targets) (hl : Stmt.seek label (before ++ s :: rest) ≠ []) {Γ : List String}
    {x : String} (hx : L.Visible (Stmt.scopeAfter Γ
      ((before ++ s :: rest).takeWhile fun s => !s.hasLabel label)) x) :
    L.Visible (Stmt.scopeAfter Γ before) x := by
  refine hx.mono fun y hy hm => ?_
  rw [Stmt.mem_scopeAfter] at hm ⊢
  refine hm.imp_right fun hm => ?_
  rcases Stmt.mem_binds_takeWhile hm with hm | ⟨hbefore, hself, hm⟩
  · exact hm
  -- the jump goes forward, and is to skip no declaration that may move
  · exfalso
    have hcond := (hj before s rest rfl label hs).2
    rw [hbefore, hself] at hcond
    have hhides := (hcond.resolve_left Bool.false_ne_true).resolve_left Bool.false_ne_true
    have hbinds : s.binds = [] := by
      cases s with
      | declare name ty init span => cases hs
      | _ => rfl
    rw [hbinds, List.nil_append] at hm
    obtain ⟨t, ht, hyt⟩ := List.mem_flatMap.mp hm
    refine Bool.false_ne_true (hhides.symm.trans (Bool.and_eq_true_iff.mpr ⟨?_, ?_⟩))
    · have hany := Stmt.any_of_seek_ne_nil hl
      rwa [List.any_append, List.any_cons, hbefore, hself] at hany
    · exact List.any_eq_true.mpr ⟨t, ht, List.any_eq_true.mpr ⟨y, hyt, List.contains_iff_mem.mpr hy⟩⟩

theorem simAfter_jump {label : String} (h : Ends (.stmt s) m (.done (.goto label) m₁))
    (hl : Stmt.seek label (before ++ s :: rest) ≠ [])
    (ih : SimRest L (before ++ s :: rest) (Stmt.seek label (before ++ s :: rest)) m₁ o) :
    SimAfter L before s rest (.done (.goto label) m₁) o := by
  refine .of_cut rfl fun hblock hmatch => ?_
  have hsplit := (List.takeWhile_append_dropWhile (p := fun s => !Stmt.hasLabel label s)
    (l := before ++ s :: rest)).symm
  obtain ⟨hlow, hjumps, -⟩ := id hblock
  have htargets := h.mem_targets
  have htaken := (hjumps before s rest rfl label htargets).1
  cases hmatch with
  | leave hf ha =>
    rcases hlow.align htaken with ⟨hl', -⟩ | ⟨-, hl', hlow'⟩
    · exact absurd hl' hl
    · obtain ⟨o', hmatch', hends⟩ := ih.between hsplit hblock (List.dropWhile_suffix _) hlow'
        (ha.mono fun _ => hjumps.visible htargets hl)
      exact ⟨o', hmatch', fun rest' => .jump hl' hends⟩

end After

/-! ## Blocks -/

section Rest

variable {L : Lexicon} {all rest : List Stmt} {s : Stmt} {m : Machine} {o₁ o : Outcome Flow}

theorem simRest_nil : SimRest L all [] m (.done .normal m) where
  between {_ _ before _ _ _} _ _ _ hlow ha := by
    cases hlow with
    | nil => exact ⟨_, .normal (ha.mono fun _ => visible_scopeAfter before), .nil⟩
  inside {_ _ before _ _ _ _ _ _} _ hrest _ _ _ hlow _ ha _ := by
    obtain ⟨rfl, rfl⟩ := List.append_eq_nil_iff.mp hrest.symm
    cases hlow with
    | nil =>
      refine ⟨_, _, .nil, .normal .nil, .normal (ha.mono fun _ => visible_scopeAfter before)⟩

/-- The part of `SimRest.inside` where something of the run is left. -/
theorem simRest_inside (ih : SimStmt L s m o₁) (h : Ends (.stmt s) m o₁)
    (hafter : ∀ before, all = before ++ s :: rest → SimAfter L before s rest o₁ o)
    {label : String} {Γ : List String} {before run rest₂ all' rest₂' work : List Stmt} {m' : Machine}
    (hall : all = before ++ s :: rest) (hrest : rest = run ++ rest₂)
    (hblock : LowersBlock L (some label) Γ all all') (hsuf : rest₂' <:+ all')
    (hrun : LowersRun L (Stmt.scopeAfter Γ before) (s :: run))
    (hlow : LowersAll L (some label) (Stmt.scopeAfter Γ (before ++ s :: run)) rest₂ rest₂')
    (hwork : Stmt.labels work = []) (ha : m.Agree L.escapes (L.Visible (Stmt.scopeAfter Γ before)) m')
    (hnull : ∀ x ∈ (s :: run).flatMap Stmt.binds, m'.locals.get? x = some .null) :
    ∃ ow o', Ends (.rest work ((s :: run).flatMap Stmt.runWork)) m' ow ∧
      Follows all' rest₂' (ow.protect label) o' ∧ Matches L (some label) Γ Γ o o' := by
  cases hrun with
  | cons hs hp hl hb ht hr =>
    obtain ⟨o₁', hmatch, hnull', hends⟩ := exists_runStep ih h hs hb ht ha hnull
    have hparts : (Task.stmt s).Inside s.parts := fun _ hp => hp
    have hcatch : ∀ t m₁, o₁ = .thrown t m₁ → t.catchable = true := fun t m₁ he => by
      refine Decidable.byContradiction fun hn => ?_
      obtain ⟨p, hmem, hsus⟩ := (h.accounted hparts).fault t m₁ he (Bool.eq_false_iff.mpr hn)
      exact Bool.false_ne_true ((hp p hmem).symm.trans hsus)
    rw [Stmt.scopeAfter_append, Stmt.scopeAfter] at hlow
    subst hall
    obtain ⟨ow, o', hf, hf', hmatch'⟩ := (hafter before rfl).inside hrest hblock hsuf hr hlow hwork
      hcatch hmatch hnull'
    exact ⟨ow, o', hends work _ ow hf, hf', hmatch'⟩

theorem simRest_cons (ih : SimStmt L s m o₁) (h : Ends (.stmt s) m o₁)
    (hafter : ∀ before, all = before ++ s :: rest → SimAfter L before s rest o₁ o) :
    SimRest L all (s :: rest) m o := by
  -- Between runs the next output is that of `s` or that of a run that starts with `s`.
  have hbetween : ∀ {handler Γ before all' rest' m'}, all = before ++ s :: rest →
      LowersBlock L handler Γ all all' → rest' <:+ all' →
      LowersAll L handler (Stmt.scopeAfter Γ before) (s :: rest) rest' →
      m.Agree L.escapes (L.Visible (Stmt.scopeAfter Γ before)) m' →
      ∃ o', Matches L handler Γ Γ o o' ∧ Ends (.rest all' rest') m' o' := by
    intro handler Γ before all' rest' m' hall hblock hsuf hlow ha
    obtain ⟨-, -, hfresh⟩ := id hblock
    cases hlow with
    | @cons _ _ _ out _ out' hs hss =>
      obtain ⟨o₁', hmatch, hreach⟩ := ih hs ha
      subst hall
      obtain ⟨o', hmatch', hf⟩ :=
        (hafter before rfl).between hblock ((List.suffix_append out out').trans hsuf) hss hmatch
      obtain ⟨pre, hpre⟩ := hsuf
      exact ⟨o', hmatch', hreach.ends hpre.symm hfresh hf⟩
    | @run label _ _ run ss out' hr hss =>
      obtain ⟨m'', hends, hnull, hagree⟩ := Ends.heads (s :: run) m'
      have hsuf' : out' <:+ all' :=
        ((List.suffix_append _ out').trans (List.suffix_append _ _)).trans hsuf
      rw [← Stmt.scopeAfter_append] at hss
      obtain ⟨ow, o', hwork, hf, hmatch⟩ := simRest_inside ih h hafter hall rfl hblock hsuf' hr hss
        (Stmt.labels_flatMap_runWork hr.labels) (hagree _ _ m hr.not_visible ha)
        fun x hx => hnull x (.inl hx)
      exact ⟨o', hmatch, hends o' (hwork.flush hf)⟩
  refine ⟨hbetween, ?_⟩
  intro label Γ before run rest₂ all' rest₂' work m' hall hrest hblock hsuf hrun hlow hwork ha hnull
  -- Inside a run whose work is done the next statement stands between runs again.
  cases run with
  | nil =>
    rw [List.nil_append] at hrest
    rw [List.append_nil] at hlow
    subst hrest
    obtain ⟨o', hmatch, hends⟩ := hbetween hall hblock hsuf hlow ha
    exact ⟨_, o', .nil, .normal hends, hmatch⟩
  | cons s' run =>
    obtain ⟨rfl, rfl⟩ := List.cons.inj hrest
    exact simRest_inside ih h hafter hall rfl hblock hsuf hrun hlow hwork ha hnull

end Rest

end Lowering
