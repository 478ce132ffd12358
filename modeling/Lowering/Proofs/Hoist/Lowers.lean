import Lowering.Hoist
import Lowering.Proofs.Eval.Parts

/-!
# What hoisting makes of a statement

`Lowers L handler Γ s out` says that the statements `out` may stand in place of `s`, where throws must
reach the label `handler` if there is one, and where the locals `Γ` are in scope. It is the rewriting
that hoisting does, without the order in which hoisting asks for names, and with all that a rewritten
statement needs for its meaning to stay: the names that are fresh, the locals that are in scope, and
the jumps that skip no declaration.

A statement without suspensions is `Lowers`-related to itself, part by part.
-/

namespace Lowering

/-! ## Names -/

/-- What is known of the names in a body, and of the run that it is compared with. -/
structure Lexicon where
  /-- the names in use before the pass -/
  taken : List String
  /-- the locals whose declarations may move -/
  kept : List String
  /-- whether no clause catches what the value of a suspension throws -/
  escapes : Prop

/-- Whether a local has its value where the locals `Γ` are in scope: one whose declaration may move
has it only in its scope. -/
def Lexicon.Visible (L : Lexicon) (Γ : List String) (x : String) : Prop :=
  x ∈ L.taken ∧ (x ∈ L.kept → x ∈ Γ)

/-- A local stays visible where more of those that may move are in scope. -/
theorem Lexicon.Visible.mono {L : Lexicon} {Γ Δ : List String} {x : String} (h : L.Visible Γ x)
    (hΓ : ∀ x ∈ L.kept, x ∈ Γ → x ∈ Δ) : L.Visible Δ x :=
  ⟨h.1, fun hx => hΓ x hx (h.2 hx)⟩

/-- The labels among these that are not of the source. -/
def Lexicon.madeUp (L : Lexicon) (labels : List String) : List String :=
  labels.filter fun l => !L.taken.contains l

theorem Lexicon.madeUp_append (L : Lexicon) (labels labels' : List String) :
    L.madeUp (labels ++ labels') = L.madeUp labels ++ L.madeUp labels' := List.filter_append _ _

/-- Labels of the source are not made up. -/
theorem Lexicon.madeUp_eq_nil {L : Lexicon} {labels : List String} (h : labels ⊆ L.taken) :
    L.madeUp labels = [] := by
  refine List.filter_eq_nil_iff.mpr fun l hl => ?_
  rw [List.contains_iff_mem.mpr (h hl)]
  exact Bool.false_ne_true

namespace Stmt

/-- The locals in scope behind statements of a block. -/
def scopeAfter (Γ : List String) : List Stmt → List String
  | [] => Γ
  | s :: ss => scopeAfter (s.binds ++ Γ) ss

@[simp] theorem scopeAfter_nil (Γ : List String) : scopeAfter Γ [] = Γ := rfl

/-- Scopes grow statement by statement. -/
theorem scopeAfter_append (Γ : List String) (ss ts : List Stmt) :
    scopeAfter Γ (ss ++ ts) = scopeAfter (scopeAfter Γ ss) ts := by
  induction ss generalizing Γ with
  | nil => rfl
  | cons s ss ih => exact ih (s.binds ++ Γ)

theorem scopeAfter_concat (Γ : List String) (ss : List Stmt) (s : Stmt) :
    scopeAfter Γ (ss ++ [s]) = s.binds ++ scopeAfter Γ ss :=
  scopeAfter_append Γ ss [s]

/-- A local is in scope behind statements if it was before or one of them declares it. -/
theorem mem_scopeAfter {Γ : List String} {ss : List Stmt} {x : String} :
    x ∈ scopeAfter Γ ss ↔ x ∈ Γ ∨ x ∈ ss.flatMap binds := by
  induction ss generalizing Γ with
  | nil => simp
  | cons s ss ih =>
    rw [scopeAfter, ih, List.mem_append, List.flatMap_cons, List.mem_append]
    rw [or_comm (a := x ∈ s.binds), or_assoc]

/-- The labels that statements of a block carry themselves. -/
def labels (ss : List Stmt) : List String := ss.filterMap fun
  | .labeled label _ _ => some label
  | _ => none

@[simp] theorem labels_append (ss ts : List Stmt) : labels (ss ++ ts) = labels ss ++ labels ts :=
  List.filterMap_append

@[simp] theorem labels_nil : labels [] = [] := rfl

/-- The labels of a block are those of its statements, in order. -/
theorem labels_cons (s : Stmt) (ss : List Stmt) : labels (s :: ss) = labels [s] ++ labels ss :=
  labels_append [s] ss

/-- A label that is none of a block is on none of its statements. -/
theorem hasLabel_eq_false {label : String} {ss : List Stmt} (h : label ∉ labels ss) {s : Stmt}
    (hs : s ∈ ss) : s.hasLabel label = false := by
  cases s with
  | labeled l body span =>
    refine beq_false_of_ne fun he => h (List.mem_filterMap.mpr ⟨_, hs, ?_⟩)
    rw [he]
  | _ => rfl

theorem hasLabel_self (label : String) (body : Stmt) (span : Span) :
    (labeled label body span).hasLabel label = true := beq_self_eq_true label

/-- Looking for a label passes over statements without it. -/
theorem seek_of_not_mem {label : String} {ss : List Stmt} (h : label ∉ labels ss) (ts : List Stmt) :
    seek label (ss ++ ts) = seek label ts := by
  induction ss with
  | nil => rfl
  | cons s ss ih =>
    have hs := hasLabel_eq_false h List.mem_cons_self
    rw [labels_cons, List.mem_append, not_or] at h
    rw [List.cons_append, seek, List.dropWhile_cons_of_pos (by rw [hs]; rfl)]
    exact ih h.2

theorem seek_of_hasLabel {label : String} {s : Stmt} (h : s.hasLabel label = true)
    (ss : List Stmt) : seek label (s :: ss) = s :: ss := by
  rw [seek, List.dropWhile_cons_of_neg]
  rw [h]
  exact Bool.false_ne_true

/-- A jump to a label that a block does not have leaves the block. -/
theorem seek_eq_nil {label : String} {ss : List Stmt} (h : label ∉ labels ss) :
    seek label ss = [] := by
  have := seek_of_not_mem h []
  rwa [List.append_nil] at this

/-- Whether a jump to the first of the statements with the label skips a declaration of one of the
locals `kept`. -/
def hides (kept : List String) (label : String) (ss : List Stmt) : Bool :=
  ss.any (hasLabel label) &&
    (ss.takeWhile fun s => !s.hasLabel label).any fun s => s.binds.any kept.contains

/-! ## Protected runs -/

/-- What of a statement stands in front of its run. -/
def runHead : Stmt → List Stmt
  | .declare name ty _ span => [.declare name ty none span]
  | .method decl span => [.method decl span]
  | _ => []

/-- What of a statement stands in its run. -/
def runWork : Stmt → List Stmt
  | .declare name _ init span => init.toList.map fun e => .eval (.assign name e) span
  | .method .. => []
  | s => [s]

end Stmt

/-! ## The relation -/

/-- Every jump in the statements of a block goes to a label of the source, and if it goes forward in
this block, it skips no declaration that may move. -/
def Stmt.Jumps (L : Lexicon) (all : List Stmt) : Prop :=
  ∀ before s behind, all = before ++ s :: behind → ∀ label ∈ s.targets, label ∈ L.taken ∧
    (before.any (hasLabel label) = true ∨ s.hasLabel label = true ∨
      hides L.kept label behind = false)

/-- The labels of a block that are not of the source stand there once, and none of them is the label
that throws must reach. -/
structure Stmt.FreshLabels (L : Lexicon) (handler : Option String) (all : List Stmt) : Prop where
  nodup : (L.madeUp (labels all)).Nodup
  apart : ∀ h ∈ handler, h ∉ labels all

/-- The two labels of a split try. -/
structure Lexicon.FreshPair (L : Lexicon) (handler : Option String) (label done : String) :
    Prop where
  label_fresh : label ∉ L.taken
  done_fresh : done ∉ L.taken
  ne : label ≠ done
  apart : ∀ h ∈ handler, h ≠ label ∧ h ≠ done

/-- `int cond; try { cond = test; } catch { goto h; }` -/
def Expr.guarding (h cond : String) (test : Expr) (span : Span) : List Stmt :=
  [.declare cond .bool none span, Stmt.protect h [.eval (.assign cond test) span]]

mutual

/-- The statements `out` may stand in place of `s`. -/
inductive Lowers (L : Lexicon) : Option String → List String → Stmt → List Stmt → Prop where
  | leaf {Γ s f} (hs : s.leaf? = some f) (hv : ∀ e ∈ s.exprs, ∀ x ∈ e.locals, L.Visible Γ x) :
    Lowers L none Γ s [s]
  | suspend {handler Γ kind value span}
    (hv : ∀ e ∈ value.toList, ∀ x ∈ e.locals, L.Visible Γ x)
    (hc : handler ≠ none → ¬L.escapes → ∀ e ∈ value.toList, e.calm = true) :
    Lowers L handler Γ (.suspend kind value span) [.suspend kind value span]
  | block {handler Γ b b' span span'} (hb : LowersBlock L handler Γ b.stmts b'.stmts) :
    Lowers L handler Γ (.block b span) [.block b' span']
  | labeled {handler Γ label body body' span span'} (hb : Lowers L handler Γ body [body']) :
    Lowers L handler Γ (.labeled label body span) [.labeled label body' span']
  | ite {handler Γ test yes yes' no no' span span'} (hv : ∀ x ∈ test.locals, L.Visible Γ x)
    (hc : handler ≠ none → test.calm = true) (hyes : Lowers L handler Γ yes [yes'])
    (hno : LowersOption L handler Γ no no') :
    Lowers L handler Γ (.ite test yes no span) [.ite test yes' no' span']
  | iteGuarded {h Γ test yes yes' no no' span span' cond} (hv : ∀ x ∈ test.locals, L.Visible Γ x)
    (hcond : cond ∉ L.taken) (hyes : Lowers L (some h) Γ yes [yes'])
    (hno : LowersOption L (some h) Γ no no') :
    Lowers L (some h) Γ (.ite test yes no span)
      (test.guarding h cond span' ++ [.ite (.var cond) yes' no' span'])
  | loop {handler Γ test body body' span span'} (hv : ∀ x ∈ test.locals, L.Visible Γ x)
    (hc : handler ≠ none → test.calm = true) (hb : Lowers L handler Γ body [body']) :
    Lowers L handler Γ (.loop test body span) [.loop test body' span']
  | loopGuarded {h Γ test body b' span span' span'' cond} (hv : ∀ x ∈ test.locals, L.Visible Γ x)
    (hcond : cond ∉ L.taken) (hb : Lowers L (some h) Γ body [.block b' span'']) :
    Lowers L (some h) Γ (.loop test body span)
      [Stmt.splitLoop (test.guarding h cond span') (.var cond) (.block b' span'') span']
  | attempt {handler Γ body body' cleanup cleanup' span span'}
    (hb : LowersBlock L handler Γ body.stmts body'.stmts)
    (hk : LowersBlockOption L handler Γ cleanup cleanup') :
    Lowers L handler Γ (.attempt body none cleanup span) [.attempt body' none cleanup' span']
  | attemptPlain {Γ body body' catcher catcher' cleanup cleanup' span span'}
    (hp : ∀ p ∈ Stmt.partsAll body.stmts, p.suspends = false)
    (hb : LowersBlock L none Γ body.stmts body'.stmts)
    (hc : LowersBlock L none Γ catcher.stmts catcher'.stmts)
    (hk : LowersBlockOption L none Γ cleanup cleanup') :
    Lowers L none Γ (.attempt body (some catcher) cleanup span)
      [.attempt body' (some catcher') cleanup' span']
  | split {handler Γ label done body body' catcher catcher' span}
    (hn : L.FreshPair handler label done)
    (hb : LowersBlock L (some label) Γ body.stmts body'.stmts)
    (hc : LowersBlock L handler Γ catcher.stmts catcher'.stmts) :
    Lowers L handler Γ (.attempt body (some catcher) none span)
      (Stmt.splitTry label done body' catcher')
  | splitCleanup {handler Γ label done body body' catcher catcher' cleanup cleanup' span span'}
    (hn : L.FreshPair handler label done)
    (hb : LowersBlock L (some label) Γ body.stmts body'.stmts)
    (hc : LowersBlock L handler Γ catcher.stmts catcher'.stmts)
    (hk : LowersBlock L handler Γ cleanup.stmts cleanup'.stmts) :
    Lowers L handler Γ (.attempt body (some catcher) (some cleanup) span)
      [.attempt ⟨Stmt.splitTry label done body' catcher', span'⟩ none (some cleanup') span']
  | switch {Γ discriminant cases cases' span span'}
    (hv : ∀ e ∈ discriminant :: cases.filterMap Case.test, ∀ x ∈ e.locals, L.Visible Γ x)
    (hc : LowersCases L Γ cases cases') :
    Lowers L none Γ (.switch discriminant cases span) [.switch discriminant cases' span']

inductive LowersOption (L : Lexicon) :
    Option String → List String → Option Stmt → Option Stmt → Prop where
  | none {handler Γ} : LowersOption L handler Γ none none
  | some {handler Γ s s'} (h : Lowers L handler Γ s [s']) :
    LowersOption L handler Γ (some s) (some s')

/-- The statements `out` may stand in place of the rest `ss` of a block. -/
inductive LowersAll (L : Lexicon) :
    Option String → List String → List Stmt → List Stmt → Prop where
  | nil {handler Γ} : LowersAll L handler Γ [] []
  | cons {handler Γ s out ss out'} (h : Lowers L handler Γ s out)
    (hs : LowersAll L handler (s.binds ++ Γ) ss out') : LowersAll L handler Γ (s :: ss) (out ++ out')
  | run {h Γ s run ss out'} (hr : LowersRun L Γ (s :: run))
    (hs : LowersAll L (some h) (Stmt.scopeAfter Γ (s :: run)) ss out') :
    LowersAll L (some h) Γ (s :: run ++ ss)
      ((s :: run).flatMap Stmt.runHead ++ (Stmt.flush h ((s :: run).flatMap Stmt.runWork) ++ out'))

/-- The statements form a run: none suspends or carries a label, and until a declaration is reached
nothing touches its local. -/
inductive LowersRun (L : Lexicon) : List String → List Stmt → Prop where
  | nil {Γ} : LowersRun L Γ []
  | cons {Γ s run} (hs : Lowers L none Γ s [s]) (hp : ∀ p ∈ s.parts, p.suspends = false)
    (hl : Stmt.labels [s] = []) (hb : ∀ x ∈ s.binds, x ∈ L.kept ∧ x ∉ Γ)
    (ht : ∀ x ∈ run.flatMap Stmt.binds, x ∉ s.touched) (hr : LowersRun L (s.binds ++ Γ) run) :
    LowersRun L Γ (s :: run)

/-- The statements `all'` may stand in place of the statements `all` of a block. -/
inductive LowersBlock (L : Lexicon) :
    Option String → List String → List Stmt → List Stmt → Prop where
  | mk {handler Γ all all'} (h : LowersAll L handler Γ all all') (hj : Stmt.Jumps L all)
    (hf : Stmt.FreshLabels L handler all') : LowersBlock L handler Γ all all'

inductive LowersBlockOption (L : Lexicon) :
    Option String → List String → Option Block → Option Block → Prop where
  | none {handler Γ} : LowersBlockOption L handler Γ none none
  | some {handler Γ b b'} (h : LowersBlock L handler Γ b.stmts b'.stmts) :
    LowersBlockOption L handler Γ (some b) (some b')

inductive LowersCases (L : Lexicon) : List String → List Case → List Case → Prop where
  | nil {Γ} : LowersCases L Γ [] []
  | cons {Γ test b b' cases cases'} (h : LowersBlock L none Γ b.stmts b'.stmts)
    (hs : LowersCases L Γ cases cases') : LowersCases L Γ (⟨test, b⟩ :: cases) (⟨test, b'⟩ :: cases')

end

/-! ## Labels -/

namespace Stmt

@[simp] theorem labels_protect (h : String) (run : List Stmt) : labels [protect h run] = [] := rfl

/-- A split try brings its two labels and no other. -/
@[simp] theorem labels_splitTry (label done : String) (body catcher : Block) :
    labels (splitTry label done body catcher) = [label, done] := rfl

@[simp] theorem labels_flush (h : String) (run : List Stmt) : labels (flush h run) = [] := by
  unfold flush
  split <;> rfl

/-- What is put in front of a run has no label. -/
@[simp] theorem labels_runHead (s : Stmt) : labels s.runHead = [] := by
  cases s <;> rfl

theorem labels_flatMap_runHead (run : List Stmt) : labels (run.flatMap runHead) = [] := by
  induction run with
  | nil => rfl
  | cons s run ih => rw [List.flatMap_cons, labels_append, labels_runHead, ih, List.append_nil]

/-- A run without labels has none under protection either. -/
theorem labels_flatMap_runWork {run : List Stmt} (h : labels run = []) :
    labels (run.flatMap runWork) = [] := by
  induction run with
  | nil => rfl
  | cons s run ih =>
    rw [labels_cons, List.append_eq_nil_iff] at h
    rw [List.flatMap_cons, labels_append, ih h.2, List.append_nil]
    cases s with
    | declare name ty init span => cases init <;> rfl
    | method decl span => rfl
    | _ => exact h.1

theorem not_mem_labels {label : String} {s : Stmt} (h : s.hasLabel label = false) :
    label ∉ labels [s] := by
  cases s with
  | labeled l body span =>
    intro hm
    rcases List.mem_singleton.mp hm with rfl
    rw [hasLabel, beq_self_eq_true] at h
    cases h
  | _ => exact List.not_mem_nil

end Stmt

/-- There are no labels in a run: each one ends it. -/
theorem LowersRun.labels {L : Lexicon} : ∀ {Γ : List String} {run : List Stmt}, LowersRun L Γ run →
    Stmt.labels run = []
  | _, _, .nil => rfl
  | _, _, .cons _ _ hl _ _ hr => by rw [Stmt.labels_cons, hl, LowersRun.labels hr, List.append_nil]

/-- A label of the source stands where it stood, and nowhere else. -/
theorem Lowers.labels {L : Lexicon} {handler : Option String} {Γ : List String} {s : Stmt}
    {out : List Stmt} (h : Lowers L handler Γ s out) {label : String} (hl : label ∈ L.taken) :
    (s.hasLabel label = true ∧ ∃ s', out = [s'] ∧ s'.hasLabel label = true) ∨
      s.hasLabel label = false ∧ label ∉ Stmt.labels out := by
  cases h with
  | leaf hs hv =>
    right
    have : s.hasLabel label = false := by
      cases s with
      | labeled l body span => cases hs
      | _ => rfl
    exact ⟨this, Stmt.not_mem_labels this⟩
  | @labeled _ _ l body body' span span' hb =>
    by_cases he : l = label
    · exact .inl ⟨beq_iff_eq.mpr he, _, rfl, beq_iff_eq.mpr he⟩
    · have : (Stmt.labeled l body' span').hasLabel label = false := beq_false_of_ne he
      exact .inr ⟨beq_false_of_ne he, Stmt.not_mem_labels this⟩
  | split hn hb hc =>
    refine .inr ⟨rfl, fun hm => ?_⟩
    rcases List.mem_cons.mp hm with rfl | hm
    · exact hn.label_fresh hl
    · rcases List.mem_singleton.mp hm with rfl
      exact hn.done_fresh hl
  | _ => exact .inr ⟨rfl, List.not_mem_nil⟩

/-- A jump to a label of the source goes to the same point. -/
theorem LowersAll.align {L : Lexicon} {handler : Option String} {label : String}
    (hl : label ∈ L.taken) : ∀ {Γ : List String} {ss out : List Stmt}, LowersAll L handler Γ ss out →
    (Stmt.seek label ss = [] ∧ Stmt.seek label out = []) ∨
      Stmt.seek label ss ≠ [] ∧ Stmt.seek label out ≠ [] ∧
        LowersAll L handler (Stmt.scopeAfter Γ (ss.takeWhile fun s => !s.hasLabel label))
          (Stmt.seek label ss) (Stmt.seek label out)
  | _, _, _, .nil => .inl ⟨rfl, rfl⟩
  | _, _, _, @LowersAll.cons _ _ _ s _ ss _ h hs => by
    rcases h.labels hl with ⟨hs₁, s', rfl, hs₂⟩ | ⟨hs₁, hout⟩
    · right
      rw [Stmt.seek_of_hasLabel hs₁, List.singleton_append, Stmt.seek_of_hasLabel hs₂,
        List.takeWhile_cons_of_neg (by rw [hs₁]; exact Bool.false_ne_true)]
      exact ⟨List.cons_ne_nil _ _, List.cons_ne_nil _ _, .cons h hs⟩
    · have hseek : Stmt.seek label (s :: ss) = Stmt.seek label ss :=
        Stmt.seek_of_not_mem (Stmt.not_mem_labels hs₁) ss
      rw [hseek, Stmt.seek_of_not_mem hout, List.takeWhile_cons_of_pos (by rw [hs₁]; rfl)]
      exact LowersAll.align hl hs
  -- A run holds no label, neither in the source nor in the output, so the search passes over it.
  | _, _, _, @LowersAll.run _ _ _ s seg _ _ hr hs => by
    have hrun : Stmt.labels (s :: seg) = [] := hr.labels
    have hne : ∀ t ∈ s :: seg, (!t.hasLabel label) = true := fun t ht => by
      rw [Stmt.hasLabel_eq_false (by rw [hrun]; exact List.not_mem_nil) ht]
      rfl
    rw [Stmt.seek_of_not_mem (by rw [hrun]; exact List.not_mem_nil),
      Stmt.seek_of_not_mem (by rw [Stmt.labels_flatMap_runHead]; exact List.not_mem_nil),
      Stmt.seek_of_not_mem (by rw [Stmt.labels_flush]; exact List.not_mem_nil),
      List.takeWhile_append_of_pos hne, Stmt.scopeAfter_append]
    exact LowersAll.align hl hs

end Lowering
