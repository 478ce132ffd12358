import Lowering.Proofs.Hoist.Lowers

/-!
# How a rewritten statement ends

A throw that a handler would catch becomes a jump to the label of that handler, and everything else
ends as before: `Matches` relates the two outcomes. `Follows` says how the rest of a block goes on
after a statement, and `Reaches` how several statements end that stand in place of one.
-/

namespace Lowering

/-! ## Going on in a block -/

/-- After a statement of the block `all` ended with an outcome, the block ends with another one;
`rest` stands behind the statement. -/
inductive Follows (all rest : List Stmt) : Outcome Flow → Outcome Flow → Prop where
  | normal {m o} (h : Ends (.rest all rest) m o) : Follows all rest (.done .normal m) o
  | jump {label m o} (hl : Stmt.seek label all ≠ [])
    (h : Ends (.rest all (Stmt.seek label all)) m o) : Follows all rest (.done (.goto label) m) o
  | jumpOut {label m} (hl : Stmt.seek label all = []) :
    Follows all rest (.done (.goto label) m) (.done (.goto label) m)
  | leave {o} (ho : o.leavesBlock = true) : Follows all rest o o

/-- Whether the statement behind is next. -/
def Outcome.fallsThrough : Outcome Flow → Bool
  | .done .normal _ => true
  | _ => false

/-- In every block in which the labels that are not of the source stand once, the statements end with
an outcome. -/
inductive Reaches (L : Lexicon) : List Stmt → Machine → Outcome Flow → Prop where
  | one {s m o} (h : Ends (.stmt s) m o) : Reaches L [s] m o
  | cons {s out m m' o} (h : Ends (.stmt s) m (.done .normal m')) (h' : Reaches L out m' o) :
    Reaches L (s :: out) m o
  | cut {s out m o} (h : Ends (.stmt s) m o) (ho : o.fallsThrough = false) :
    Reaches L (s :: out) m o
  /-- a split try whose body falls through -/
  | through {label done body catcher m m'} (hd : done ∉ L.taken) (hne : label ≠ done)
    (h : Ends (.stmt (.block body body.span)) m (.done .normal m')) :
    Reaches L (Stmt.splitTry label done body catcher) m (.done .normal m')
  /-- a split try whose body jumps to the handler -/
  | handled {label done body catcher m m' o} (hl : label ∉ L.taken)
    (h : Ends (.stmt (.block body body.span)) m (.done (.goto label) m'))
    (h' : Ends (.stmt (.block catcher catcher.span)) m' o) :
    Reaches L (Stmt.splitTry label done body catcher) m o

variable {all rest rest' : List Stmt} {s : Stmt} {m m' : Machine} {o o' oo : Outcome Flow}

theorem Ends.leaf_eq {f : Eval Flow} (hs : s.leaf? = some f) (ho : f m = o) :
    Ends (.stmt s) m o := ho ▸ .leaf hs

theorem Ends.declareNull {name : String} {ty : TargetType} {span : Span} :
    Ends (.stmt (.declare name ty none span)) m (.done .normal (m.setLocal name .null)) :=
  .leaf_eq rfl rfl

/-- A statement and what follows it in its block. -/
theorem Ends.cons (h : Ends (.stmt s) m o) (h' : Follows all rest o oo) :
    Ends (.rest all (s :: rest)) m oo := by
  cases h' with
  | normal h' => exact .step h h'
  | jump hl h' => exact .jump h hl h'
  | jumpOut hl => exact .jumpOut h hl
  | leave ho => exact .leave h ho

theorem Outcome.eq_of_fallsThrough (h : o.fallsThrough = true) : ∃ m, o = .done .normal m := by
  rcases o with ⟨_ | _, m⟩ | _ | _
  · exact ⟨m, rfl⟩
  all_goals cases h

/-- A cleanup that does not fall through takes over. -/
theorem Outcome.andCleanup_of_cut (ho : o.isStopped = false) (ho' : o'.fallsThrough = false) :
    (o.andCleanup fun _ => o') = o' := by
  rcases o with _ | _ | _
  · rcases o' with ⟨_ | _, _⟩ | _ | _ <;> first | rfl | cases ho'
  · rcases o' with ⟨_ | _, _⟩ | _ | _ <;> first | rfl | cases ho'
  · cases ho

theorem Follows.ends (h : Follows all rest (.done .normal m) oo) : Ends (.rest all rest) m oo := by
  cases h with
  | normal h => exact h
  | leave ho => cases ho

/-- What stands behind does not matter to a statement that does not fall through. -/
theorem Follows.cut (h : Follows all rest o oo) (ho : o.fallsThrough = false) :
    Follows all rest' o oo := by
  cases h with
  | normal h => cases ho
  | jump hl h => exact .jump hl h
  | jumpOut hl => exact .jumpOut hl
  | leave ho => exact .leave ho

/-- A block is left by a statement that does not fall through, and does not jump inside the block. -/
theorem Follows.out (h : ∀ label m, o = .done (.goto label) m → label ∉ Stmt.labels all)
    (ho : o.fallsThrough = false) : Follows all rest o o := by
  rcases o with ⟨_ | _ | _ | v | label, m⟩ | _ | _
  · cases ho
  · exact .leave rfl
  · exact .leave rfl
  · exact .leave rfl
  · exact .jumpOut (Stmt.seek_eq_nil (h label m rfl))
  · exact .leave rfl
  · exact .leave rfl

/-- In a block without labels no jump finds its target. -/
theorem Follows.of_labels (h : Stmt.labels all = []) (ho : o.fallsThrough = false) :
    Follows all rest o o :=
  .out (fun _ _ _ => by rw [h]; exact List.not_mem_nil) ho

/-- At the end of a block. -/
theorem Follows.last (h : ∀ label m, o = .done (.goto label) m → label ∉ Stmt.labels all) :
    Follows all [] o o := by
  by_cases ho : o.fallsThrough = true
  · obtain ⟨m₁, rfl⟩ := Outcome.eq_of_fallsThrough ho
    exact .normal .nil
  · exact .out h (Bool.eq_false_iff.mpr ho)

/-! ## Statements in place of one -/

/-- A single statement in place of one ends like it. -/
theorem Reaches.ends_of_one {L : Lexicon} (h : Reaches L [s] m o) : Ends (.stmt s) m o := by
  cases h with
  | one h => exact h
  | cons h h' => cases h'
  | cut h ho => exact h

/-- A fresh label that stands behind some point of a block does not stand before it. -/
theorem Stmt.FreshLabels.not_mem {L : Lexicon} {handler : Option String} {pre ss : List Stmt}
    (h : FreshLabels L handler (pre ++ ss)) {label : String} (hl : label ∉ L.taken)
    (hs : label ∈ labels ss) : label ∉ labels pre := by
  have hn := h.nodup
  rw [labels_append, L.madeUp_append, List.nodup_append] at hn
  have hc : (!L.taken.contains label) = true := by simpa using hl
  exact fun hp => hn.2.2 label (List.mem_filter.mpr ⟨hp, hc⟩) label
    (List.mem_filter.mpr ⟨hs, hc⟩) rfl

/-- The empty block behind a split try. -/
theorem Ends.landing {done : String} {rest : List Stmt} (h : Ends (.rest all rest) m o) :
    Ends (.rest all (.labeled done (.block ⟨[], .dummy⟩ .dummy) .dummy :: rest)) m o :=
  .step (.labeled (.block .nil)) h

section Split

variable {L : Lexicon} {handler : Option String} {label done : String} {body catcher : Block}
  {pre tail : List Stmt}

/-- **A jump to the label of a handler finds the handler**, for no other statement has this label. -/
theorem Stmt.seek_label (hall : all = pre ++ (splitTry label done body catcher ++ tail))
    (hf : FreshLabels L handler all) (hl : label ∉ L.taken) :
    seek label all =
      .labeled label (.block catcher catcher.span) .dummy ::
        .labeled done (.block ⟨[], .dummy⟩ .dummy) .dummy :: tail := by
  subst hall
  have hm : label ∈ labels (splitTry label done body catcher ++ tail) := by
    rw [labels_append, labels_splitTry]
    exact List.mem_cons_self
  rw [seek_of_not_mem (hf.not_mem hl hm)]
  exact seek_of_hasLabel (hasLabel_self label _ _) _

/-- A jump over the handler finds the end of what the try became. -/
theorem Stmt.seek_done (hall : all = pre ++ (splitTry label done body catcher ++ tail))
    (hf : FreshLabels L handler all) (hd : done ∉ L.taken) (hne : label ≠ done) :
    seek done all = .labeled done (.block ⟨[], .dummy⟩ .dummy) .dummy :: tail := by
  subst hall
  have hm : done ∈ labels (splitTry label done body catcher ++ tail) := by
    rw [labels_append, labels_splitTry]
    exact List.mem_cons_of_mem _ List.mem_cons_self
  have hlab : Stmt.hasLabel done (.labeled label (.block catcher catcher.span) .dummy) = false :=
    beq_false_of_ne hne
  rw [seek_of_not_mem (hf.not_mem hd hm)]
  have hskip := seek_of_not_mem (not_mem_labels hlab)
    (.labeled done (.block ⟨[], .dummy⟩ .dummy) .dummy :: tail)
  exact hskip.trans (seek_of_hasLabel (hasLabel_self done _ _) _)

end Split

/-- Statements in place of one go on like it, wherever they stand in a block with fresh labels. -/
theorem Reaches.ends {L : Lexicon} {handler : Option String} {out pre tail : List Stmt}
    (h : Reaches L out m o) (hall : all = pre ++ (out ++ tail))
    (hf : Stmt.FreshLabels L handler all) (hoo : Follows all tail o oo) :
    Ends (.rest all (out ++ tail)) m oo := by
  induction h generalizing pre with
  | one h => exact h.cons hoo
  | @cons s out m m' o h _ ih =>
    refine .step h (@ih (pre ++ [s]) ?_ hoo)
    rw [hall, List.append_assoc]
    rfl
  | cut h ho => exact h.cons (hoo.cut ho)
  | @through label done body catcher m m' hd hne h =>
    refine .step h (.jump (.leaf rfl) ?_ ?_) <;> rw [Stmt.seek_done hall hf hd hne]
    · exact List.cons_ne_nil _ _
    · exact .landing hoo.ends
  | @handled label done body catcher m m' o hl h h' =>
    refine .jump h ?_ ?_ <;> rw [Stmt.seek_label hall hf hl]
    · exact List.cons_ne_nil _ _
    · refine Ends.cons (.labeled h') ?_
      by_cases ho : o.fallsThrough = true
      · obtain ⟨m₁, rfl⟩ := Outcome.eq_of_fallsThrough ho
        exact .normal (.landing hoo.ends)
      · exact hoo.cut (Bool.eq_false_iff.mpr ho)

/-! ## Matching outcomes -/

/-- The second outcome is what the first becomes where throws must reach `handler`. The machines agree
on what is visible with `Γ` in scope, or with `Γ'` if the statement falls through. -/
inductive Matches (L : Lexicon) (handler : Option String) (Γ Γ' : List String) :
    Outcome Flow → Outcome Flow → Prop where
  | normal {m m' : Machine} (h : m.Agree L.escapes (L.Visible Γ') m') :
    Matches L handler Γ Γ' (.done .normal m) (.done .normal m')
  | leave {f : Flow} {m m' : Machine} (hf : f ≠ .normal) (h : m.Agree L.escapes (L.Visible Γ) m') :
    Matches L handler Γ Γ' (.done f m) (.done f m')
  | caught {label : String} {t : Thrown} {m m' : Machine} (hh : handler = some label)
    (ht : t.catchable = true) (h : m.Agree L.escapes (L.Visible Γ) m') :
    Matches L handler Γ Γ' (.thrown t m) (.done (.goto label) m')
  | thrown {t t' : Thrown} {m m' : Machine} (hh : handler = none ∨ t.catchable = false)
    (hv : t'.value = t.value) (hc : t.catchable = true → t'.catchable = true)
    (h : m.Agree L.escapes (L.Visible Γ) m') : Matches L handler Γ Γ' (.thrown t m) (.thrown t' m')
  | stopped {e : EvalError} {m m' : Machine} (h : m.log = m'.log) :
    Matches L handler Γ Γ' (.stopped e m) (.stopped e m')

namespace Matches

variable {L : Lexicon} {handler : Option String} {Γ Γ' Δ Δ' : List String}

theorem mono (h : Matches L handler Γ Γ' o o') (hΔ : ∀ x, L.Visible Δ x → L.Visible Γ x)
    (hΔ' : ∀ x, L.Visible Δ' x → L.Visible Γ' x) : Matches L handler Δ Δ' o o' := by
  cases h with
  | normal h => exact .normal (h.mono hΔ')
  | leave hf h => exact .leave hf (h.mono hΔ)
  | caught hh ht h => exact .caught hh ht (h.mono hΔ)
  | thrown hh hv hc h => exact .thrown hh hv hc (h.mono hΔ)
  | stopped h => exact .stopped h

/-- A run is stopped if and only if the other one is. -/
theorem isStopped_eq (h : Matches L handler Γ Γ' o o') : o'.isStopped = o.isStopped := by
  cases h <;> rfl

theorem machine (h : Matches L handler Γ Γ o o') (ho : o.isStopped = false) :
    o.machine.Agree L.escapes (L.Visible Γ) o'.machine := by
  cases h with
  | normal h => exact h
  | leave hf h => exact h
  | caught hh ht h => exact h
  | thrown hh hv hc h => exact h
  | stopped h => cases ho

theorem fallsThrough_eq (h : Matches L handler Γ Γ' o o') : o'.fallsThrough = o.fallsThrough := by
  cases h with
  | @leave f m m' hf h => cases f <;> rfl
  | _ => rfl

/-- A cleanup falls through or takes over. -/
theorem andCleanup {c c' : Outcome Flow} (h : Matches L handler Γ Γ o o')
    (ho : o.isStopped = false) (hc : Matches L handler Γ Γ c c') :
    Matches L handler Γ Γ (o.andCleanup fun _ => c) (o'.andCleanup fun _ => c') := by
  by_cases hn : c.fallsThrough = true
  · cases hc with
    | normal hm =>
      cases h with
      | normal h => exact .normal hm
      | leave hf h => exact .leave hf hm
      | caught hh ht h => exact .caught hh ht hm
      | thrown hh hv hc h => exact .thrown hh hv hc hm
      | stopped h => cases ho
    | @leave f m m' hf hm => cases f <;> first | exact absurd rfl hf | cases hn
    | caught hh ht hm => cases hn
    | thrown hh hv hc hm => cases hn
    | stopped hm => cases hn
  · have hn : c.fallsThrough = false := Bool.eq_false_iff.mpr hn
    rw [Outcome.andCleanup_of_cut ho hn, Outcome.andCleanup_of_cut (h.isStopped_eq.trans ho)
      (hc.fallsThrough_eq.trans hn)]
    exact hc

/-- A `break` that leaves a switch does so on both sides. -/
theorem leaveSwitch (h : Matches L handler Γ Γ o o') :
    Matches L handler Γ Γ o.leaveSwitch o'.leaveSwitch := by
  cases h with
  | normal h => exact .normal h
  | @leave f m m' hf h =>
    cases f with
    | exit => exact .normal h
    | normal => exact absurd rfl hf
    | next => exact .leave hf h
    | ret v => exact .leave hf h
    | goto l => exact .leave hf h
  | caught hh ht h => exact .caught hh ht h
  | thrown hh hv hc h => exact .thrown hh hv hc h
  | stopped h => exact .stopped h

end Matches

/-! ## Protected runs and evaluations -/

/-- The outcome of statements that jump to `label` where they throw. -/
def Outcome.protect (label : String) : Outcome Flow → Outcome Flow
  | .thrown t m => if t.catchable then .done (.goto label) m else .thrown t m
  | o => o

theorem Outcome.fallsThrough_protect (h : o.fallsThrough = false) (label : String) :
    (o.protect label).fallsThrough = false := by
  rcases o with _ | _ | _
  · exact h
  · rw [Outcome.protect]
    split <;> rfl
  · rfl

theorem Outcome.fallsThrough_of_abrupt? {α : Type} {r : Outcome α} (h : r.abrupt? = some o) :
    o.fallsThrough = false := by
  cases r with
  | done a m => cases h
  | thrown t m => cases h; rfl
  | stopped e m => cases h; rfl

theorem Outcome.leavesLoop_of_abrupt? {α : Type} {r : Outcome α} (h : r.abrupt? = some o) :
    o.leavesLoop = true := by
  cases r with
  | done a m => cases h
  | thrown t m => cases h; rfl
  | stopped e m => cases h; rfl

/-- What is cut short leaves its machine to what it is cut short with. -/
theorem Outcome.machine_of_abrupt? {α : Type} {r : Outcome α} (h : r.abrupt? = some o) :
    o.machine = r.machine := by
  cases r with
  | done a m => cases h
  | thrown t m => cases h; rfl
  | stopped e m => cases h; rfl

theorem Outcome.eq_thrown_of_abrupt? {α : Type} {r : Outcome α} {t : Thrown}
    (h : r.abrupt? = some (.thrown t m : Outcome Flow)) : r = .thrown t m := by
  cases r with
  | done a m => cases h
  | thrown t m => cases h; rfl
  | stopped e m => cases h

/-- A protected run ends like the run, but for a jump in place of what is thrown. -/
theorem Ends.protect {run : List Stmt} (h : Ends (.rest run run) m o) (label : String) :
    Ends (.stmt (Stmt.protect label run)) m (o.protect label) := by
  refine .attempt ?_
  rcases o with ⟨f, m'⟩ | ⟨t, m'⟩ | ⟨e, m'⟩
  · exact .uncaught h rfl
  · by_cases ht : t.catchable = true
    · rw [Outcome.protect, if_pos ht]
      exact .caught h ht (.jumpOut (.leaf rfl) rfl)
    · rw [Outcome.protect, if_neg ht]
      exact .uncaught h (Bool.eq_false_iff.mpr ht)
  · exact .uncaught h rfl

/-- Under protection, what the source throws is a jump to the label of its handler. -/
theorem Matches.protect {L : Lexicon} {Γ Γ' : List String} (h : Matches L none Γ Γ' o o')
    (hc : ∀ t m, o = .thrown t m → t.catchable = true) (label : String) :
    Matches L (some label) Γ Γ' o (o'.protect label) := by
  cases h with
  | normal h => exact .normal h
  | leave hf h => exact .leave hf h
  | caught hh ht h => cases hh
  | thrown hh hv hcatch h =>
    have ht := hc _ _ rfl
    rw [Outcome.protect, if_pos (hcatch ht)]
    exact .caught rfl ht h
  | stopped h => exact .stopped h

namespace Eval.Respects

variable {V : String → Prop} {α : Type} {x : Eval α}

theorem done {E : Prop} (hx : Respects V x) (h : m.Agree E V m') {a : α} {m₁ : Machine}
    (hd : x m = .done a m₁) : ∃ m₁', x m' = .done a m₁' ∧ m₁.Agree E V m₁' := by
  have hr := hx E m m' h
  rw [hd] at hr
  generalize x m' = r at hr
  cases hr with
  | done _ hm => exact ⟨_, rfl, hm⟩

/-- An evaluation that is cut short is so on both machines. Under a handler it must not throw. -/
theorem abrupt {L : Lexicon} {handler : Option String} {Γ Γ' : List String} {S : String → Prop}
    (hx : Respects (L.Visible Γ) x) (hk : Keeps S x) (hc : handler ≠ none → Calm x)
    (h : m.Agree L.escapes (L.Visible Γ) m') (ho : (x m).abrupt? = some o) :
    ∃ o', (x m').abrupt? = some o' ∧ Matches L handler Γ Γ' o o' := by
  have hr := hx L.escapes m m' h
  have hcatch := hk.catchable m
  have hcalm := fun hn => hc hn m
  generalize x m' = r at hr
  generalize x m = r' at hr ho hcatch hcalm
  cases hr with
  | done a hm => cases ho
  | thrown t hm =>
    cases ho
    refine ⟨_, rfl, .thrown (.inl ?_) rfl (fun ht => ht) hm⟩
    exact Decidable.byContradiction fun hn => hcalm hn t _ rfl
  | stopped e hm =>
    cases ho
    exact ⟨_, rfl, .stopped hm.log⟩

end Eval.Respects

/-! ## Assignments -/

section Assign

variable {L : Lexicon} {Γ Γ' : List String} {test : Expr} {v w : Value} {name : String} {span : Span}

/-- An expression leaves alone the locals that are not in it. -/
theorem Expr.get?_eval {e : Expr} (he : name ∉ e.locals) :
    (e.eval m).machine.locals.get? name = m.locals.get? name := by
  refine (Expr.eval_keeps (List.mem_singleton_self e)).frame m name fun h => he ?_
  rwa [List.flatMap_singleton] at h

/-- Assigning to a local that is bound and that the value does not touch. -/
theorem Ends.assign (hbound : m.locals.get? name = some w) (hn : name ∉ test.locals)
    (ht : test.eval m = .done v m') :
    Ends (.stmt (.eval (.assign name test) span)) m (.done .normal (m'.setLocal name v)) := by
  have hb : m'.locals.get? name = some w := by
    have := Expr.get?_eval hn (m := m)
    rwa [ht, hbound] at this
  have hr : (Expr.assign name test).eval m = .done v (m'.setLocal name v) := by
    rw [Expr.eval, Eval.bind_apply, ht]
    show Machine.assign name v m' = _
    rw [Machine.assign, hb]
  refine .leaf_eq rfl ?_
  rw [Eval.bind_apply, hr]
  rfl

theorem Ends.assign_abrupt (ht : (test.eval m).abrupt? = some o) :
    Ends (.stmt (.eval (.assign name test) span)) m o := by
  refine .leaf_eq rfl ?_
  rw [Eval.bind_apply, Expr.eval, Eval.bind_apply]
  cases hr : test.eval m with
  | done v m' => rw [hr] at ht; cases ht
  | thrown t m' => rw [hr] at ht; cases ht; rfl
  | stopped e m' => rw [hr] at ht; cases ht; rfl

/-- A run of one statement. -/
theorem Ends.protect_one (h : Ends (.stmt s) m o) (hs : Stmt.labels [s] = []) (label : String) :
    Ends (.stmt (Stmt.protect label [s])) m (o.protect label) := by
  refine Ends.protect (h.cons (.last fun _ _ _ => ?_)) label
  rw [hs]
  exact List.not_mem_nil

variable {label cond : String}

/-- The local that holds a condition is none of the source, so nobody there sees it. -/
theorem Machine.Agree.guard (h : m.Agree L.escapes (L.Visible Γ) m') (hcond : cond ∉ L.taken) (v : Value) :
    m.Agree L.escapes (L.Visible Γ) (m'.setLocal cond v) :=
  h.setLocal_right v fun hv => hcond hv.1

/-- A guarded condition has its value in a local. -/
theorem Reaches.guard (hv : ∀ x ∈ test.locals, L.Visible Γ x) (hcond : cond ∉ L.taken)
    (h : m.Agree L.escapes (L.Visible Γ) m') {m₁ : Machine} (ht : test.eval m = .done v m₁) :
    ∃ m₁', (∀ out o, Reaches L out m₁' o → Reaches L (test.guarding label cond span ++ out) m' o) ∧
      m₁.Agree L.escapes (L.Visible Γ) m₁' ∧ m₁'.locals.get? cond = some v := by
  obtain ⟨m₂, ht₂, hm₂⟩ := (Expr.eval_respects hv).done (h.guard hcond .null) ht
  refine ⟨m₂.setLocal cond v, fun out o hout => ?_, hm₂.guard hcond v, Dict.get?_insert_self ..⟩
  refine .cons .declareNull (.cons ?_ hout)
  have hn : cond ∉ test.locals := fun hm => hcond (hv cond hm).1
  exact (Ends.assign (Dict.get?_insert_self ..) hn ht₂).protect_one rfl label

/-- A guarded condition jumps to the handler where it throws. -/
theorem Reaches.guard_abrupt (hv : ∀ x ∈ test.locals, L.Visible Γ x) (hcond : cond ∉ L.taken)
    (h : m.Agree L.escapes (L.Visible Γ) m') (ho : (test.eval m).abrupt? = some o) (out : List Stmt) :
    ∃ o', Matches L (some label) Γ Γ' o o' ∧ Reaches L (test.guarding label cond span ++ out) m' o' := by
  have hk := Expr.eval_keeps (List.mem_singleton_self test)
  obtain ⟨o', ho', hmatch⟩ := (Expr.eval_respects hv).abrupt hk (fun hn => absurd rfl hn)
    (h.guard hcond .null) ho
  refine ⟨o'.protect label, hmatch.protect (fun t m₁ he => ?_) label, ?_⟩
  · exact hk.catchable m t m₁ (Outcome.eq_thrown_of_abrupt? (he ▸ ho))
  · refine .cons .declareNull (.cut ((Ends.assign_abrupt ho').protect_one rfl label) ?_)
    exact Outcome.fallsThrough_protect (Outcome.fallsThrough_of_abrupt? ho') label

end Assign

end Lowering
