import Lowering.Proofs.Hoist.Runs

/-!
# Rewritten statements run like the source

For each rule by which a run of the source can end, the rewriting ends with a matching outcome, given
that the parts of the run do. `Ends.sim` puts the rules together, by induction over the run.
-/

namespace Lowering

/-! ## What is to be shown -/

/-- One round of a loop whose condition is evaluated in its body. -/
def Stmt.splitRound (before : List Stmt) (cond : Expr) (body : Stmt) (span : Span) : Stmt :=
  .block ⟨before ++ [.ite (.not cond) (.block ⟨[.exit .dummy], .dummy⟩ .dummy) none .dummy, body],
    span⟩ span

/-- The rewriting of a loop, from its test on, ends like the loop. -/
structure SimLoop (L : Lexicon) (test : Expr) (body : Stmt) (m : Machine) (o : Outcome Flow) :
    Prop where
  /-- where the loop stays -/
  stays : ∀ {handler Γ body' m'}, (∀ x ∈ test.locals, L.Visible Γ x) →
    (handler ≠ none → test.calm = true) → Lowers L handler Γ body [body'] →
    m.Agree L.escapes (L.Visible Γ) m' → ∃ o', Matches L handler Γ Γ o o' ∧ Ends (.loop test body') m' o'
  /-- where its condition moves into its body -/
  split : ∀ {label Γ b span span' cond m'}, (∀ x ∈ test.locals, L.Visible Γ x) → cond ∉ L.taken →
    Lowers L (some label) Γ body [.block b span'] → m.Agree L.escapes (L.Visible Γ) m' →
    ∃ o', Matches L (some label) Γ Γ o o' ∧ Ends (.loop (.bool true)
      (Stmt.splitRound (test.guarding label cond span) (.var cond) (.block b span') span)) m' o'

/-- The rewriting of a try, without its cleanup, ends like the try. -/
structure SimTried (L : Lexicon) (body : Block) (catcher : Option Block) (m : Machine)
    (o : Outcome Flow) : Prop where
  /-- where there is no handler -/
  bare : ∀ {handler Γ body' m'}, catcher = none →
    LowersBlock L handler Γ body.stmts body'.stmts → m.Agree L.escapes (L.Visible Γ) m' →
    ∃ o', Matches L handler Γ Γ o o' ∧ Ends (.tried body' none) m' o'
  /-- where the try stays -/
  stays : ∀ {c Γ body' c' m'}, catcher = some c →
    (∀ p ∈ Stmt.partsAll body.stmts, p.suspends = false) →
    LowersBlock L none Γ body.stmts body'.stmts → LowersBlock L none Γ c.stmts c'.stmts →
    m.Agree L.escapes (L.Visible Γ) m' → ∃ o', Matches L none Γ Γ o o' ∧ Ends (.tried body' (some c')) m' o'
  /-- where the try is split -/
  split : ∀ {handler Γ label done c body' c' m'}, catcher = some c →
    L.FreshPair handler label done → LowersBlock L (some label) Γ body.stmts body'.stmts →
    LowersBlock L handler Γ c.stmts c'.stmts → m.Agree L.escapes (L.Visible Γ) m' →
    ∃ o', Matches L handler Γ Γ o o' ∧ Reaches L (Stmt.splitTry label done body' c') m' o'

/-- The rewriting of a task ends like the task. -/
def Sim (L : Lexicon) : Task → Machine → Outcome Flow → Prop
  | .stmt s, m, o => SimStmt L s m o
  | .rest all ss, m, o => SimRest L all ss m o
  | .loop test body, m, o => SimLoop L test body m o
  | .tried body catcher, m, o => SimTried L body catcher m o

section Rules

variable {L : Lexicon} {handler : Option String} {Γ Γ' : List String} {m m' : Machine}
  {o o' : Outcome Flow}

/-! ## Statements without parts -/

/-- Behind a block the locals that it declares are not looked at. -/
theorem Matches.narrow {binds : List String} (h : Matches L handler Γ (binds ++ Γ) o o') :
    Matches L handler Γ Γ o o' :=
  h.mono (fun _ hx => hx) fun _ hx => hx.mono fun _ _ hm => List.mem_append_right _ hm

theorem Matches.done {f : Flow} (h : Matches L handler Γ Γ (.done f m) o') :
    ∃ m', o' = .done f m' ∧ m.Agree L.escapes (L.Visible Γ) m' := by
  cases h with
  | normal h => exact ⟨_, rfl, h⟩
  | leave hf h => exact ⟨_, rfl, h⟩

/-- Evaluating one thing after the other matches if the first throws nothing under a handler. -/
theorem Matches.bind {α : Type} {x : Eval α} {g : α → Eval Flow} {S : String → Prop}
    (hx : x.Respects (L.Visible Γ)) (hk : x.Keeps S) (hc : handler ≠ none → x.Calm)
    (hg : ∀ a m m', m.Agree L.escapes (L.Visible Γ) m' → Matches L handler Γ Γ' (g a m) (g a m'))
    (ha : m.Agree L.escapes (L.Visible Γ) m') : Matches L handler Γ Γ' ((x >>= g) m) ((x >>= g) m') := by
  have hcut : ∀ o, (x m).abrupt? = some o →
      Matches L handler Γ Γ' ((x m).bind g) ((x m').bind g) := fun o ho => by
    obtain ⟨o', ho', hmatch⟩ := hx.abrupt hk hc ha ho
    rw [(Outcome.bind_of_abrupt ho g).1, (Outcome.bind_of_abrupt ho' g).1]
    exact hmatch
  show Matches L handler Γ Γ' ((x m).bind g) ((x m').bind g)
  cases hr : x m with
  | done a m₁ =>
    obtain ⟨m₁', he, ha₁⟩ := hx.done ha hr
    rw [he]
    exact hg a m₁ m₁' ha₁
  | thrown t m₁ => exact hr ▸ hcut (.thrown t m₁) (by rw [hr]; rfl)
  | stopped e m₁ => exact hr ▸ hcut (.stopped e m₁) (by rw [hr]; rfl)

/-- **A suspension stays a suspension.** It is recorded on both sides, with the same value. -/
theorem sim_suspend {kind : SuspendKind} {value : Option Expr}
    (hv : ∀ e ∈ value.toList, ∀ x ∈ e.locals, L.Visible Γ x)
    (hc : handler ≠ none → ¬L.escapes → ∀ e ∈ value.toList, e.calm = true)
    (ha : m.Agree L.escapes (L.Visible Γ) m') :
    Matches L handler Γ Γ ((Expr.evalSuspended value >>= Machine.suspend kind) m)
      ((Expr.evalSuspended value >>= Machine.suspend kind) m') := by
  have hvalue := Expr.evalOption_respects hv L.escapes m m' ha
  have hcalm := fun hn he => Expr.evalOption_calm (hc hn he) m
  rw [Eval.bind_apply, Eval.bind_apply, Expr.evalSuspended, Expr.evalSuspended]
  generalize Expr.evalOption value m = o at hvalue hcalm ⊢
  generalize Expr.evalOption value m' = o' at hvalue ⊢
  cases hvalue with
  | done v ha =>
    show Matches L handler Γ Γ (Machine.suspend kind v _) (Machine.suspend kind v _)
    rw [Machine.suspend_apply, Machine.suspend_apply, ← ha.suspensions, ← ha.failingResumes]
    split
    · exact .thrown (.inr ha.resume) rfl (fun ht => absurd ht (by rw [ha.resume]; exact nofun))
        (ha.suspended kind v)
    · exact .normal (ha.suspended kind v)
  | thrown t hm =>
    -- a value that throws does so under no handler, or where none catches it
    have hescapes : handler = none ∨ (t.catchable && m.valueCatchable) = false := by
      by_cases hn : handler = none
      · exact .inl hn
      · have he : L.escapes := Classical.byContradiction fun he => hcalm hn he t _ rfl
        exact .inr (by rw [ha.escape he, Bool.and_false])
    refine .thrown hescapes rfl (fun ht => ?_) hm
    rw [Bool.and_eq_true] at ht ⊢
    exact ⟨ht.1, ha.value ht.2⟩
  | stopped e hm => exact .stopped hm.log

/-- A statement that holds no other does the same on both sides. -/
theorem matches_leaf {s : Stmt} {f : Eval Flow} (hs : s.leaf? = some f)
    (hv : ∀ e ∈ s.exprs, ∀ x ∈ e.locals, L.Visible Γ x) (ha : m.Agree L.escapes (L.Visible Γ) m') :
    Matches L none Γ (s.binds ++ Γ) (f m) (f m') := by
  cases s <;> simp only [Stmt.leaf?, Option.some.injEq, reduceCtorEq] at hs <;> subst hs
  case goto => exact .leave (by simp) ha
  case exit => exact .leave (by simp) ha
  case next => exact .leave (by simp) ha
  case method => exact .normal ha
  case eval value _ =>
    exact .bind (Expr.eval_respects (hv value List.mem_cons_self))
      (Expr.eval_keeps (List.mem_singleton_self value)) (fun hn => absurd rfl hn)
      (fun _ _ _ ha => .normal ha) ha
  case declare name _ init _ =>
    exact .bind (Expr.evalOption_respects hv) (Expr.evalOption_keeps init)
      (fun hn => absurd rfl hn)
      (fun v _ _ ha => .normal (ha.setLocal name (v.getD .null) fun _ => visible_cons)) ha
  case ret value _ =>
    exact .bind (Expr.evalOption_respects hv) (Expr.evalOption_keeps value)
      (fun hn => absurd rfl hn) (fun _ _ _ ha => .leave (by simp) ha) ha
  case suspend kind value _ => exact sim_suspend hv (fun hn => absurd rfl hn) ha
  case raise value _ =>
    exact .bind (Expr.eval_respects (hv value List.mem_cons_self))
      (Expr.eval_keeps (List.mem_singleton_self value)) (fun hn => absurd rfl hn)
      (fun _ _ _ ha => .thrown (.inl rfl) rfl (fun ht => ht) ha) ha

theorem sim_leaf {s : Stmt} {f : Eval Flow} (hs : s.leaf? = some f) : SimStmt L s m (f m) := by
  intro handler Γ out m' hlow ha
  cases hlow with
  | leaf hs' hv => exact ⟨f m', matches_leaf hs hv ha, .one (.leaf hs)⟩
  | suspend hv hc =>
    cases hs
    exact ⟨_, sim_suspend hv hc ha, .one (.leaf rfl)⟩
  | _ => cases hs

/-! ## Blocks, labels and branches -/

/-- A whole block. -/
theorem SimRest.block {all all' : List Stmt} (h : SimRest L all all m o)
    (hb : LowersBlock L handler Γ all all') (ha : m.Agree L.escapes (L.Visible Γ) m') :
    ∃ o', Matches L handler Γ Γ o o' ∧ Ends (.rest all' all') m' o' := by
  obtain ⟨hlow, -, -⟩ := id hb
  exact h.between (List.nil_append all).symm hb (List.suffix_refl all') hlow ha

/-- What holds of the statements of a block from its beginning holds of the block. -/
theorem sim_block {b : Block} {span : Span} (ih : SimRest L b.stmts b.stmts m o) :
    SimStmt L (.block b span) m o := by
  intro handler Γ out m' hlow ha
  cases hlow with
  | leaf hs => cases hs
  | block hb =>
    obtain ⟨o', hmatch, hends⟩ := ih.block hb ha
    exact ⟨o', hmatch, .one (.block hends)⟩

theorem sim_labeled {label : String} {body : Stmt} {span : Span} (ih : SimStmt L body m o) :
    SimStmt L (.labeled label body span) m o := by
  intro handler Γ out m' hlow ha
  cases hlow with
  | leaf hs => cases hs
  | labeled hb =>
    obtain ⟨o', hmatch, hreach⟩ := ih hb ha
    exact ⟨o', hmatch.narrow, .one (.labeled hreach.ends_of_one)⟩

/-- The value of a condition's local. -/
theorem Expr.eval_var {name : String} {v : Value} (h : m.locals.get? name = some v) :
    (Expr.var name).eval m = .done v m := by
  rw [Expr.eval, Machine.getLocal, h]

section Branch

variable {test : Expr} {yes : Stmt} {no : Option Stmt} {span : Span} {v : Value} {m₁ : Machine}

/-- A condition that throws does so in front of the `if`, under protection. -/
theorem sim_iteAbrupt (ht : (test.eval m).abrupt? = some o) :
    SimStmt L (.ite test yes no span) m o := by
  intro handler Γ out m' hlow ha
  cases hlow with
  | leaf hs => cases hs
  | ite hv hc hyes hno =>
    obtain ⟨o', ho', hmatch⟩ := (Expr.eval_respects hv).abrupt
      (Expr.eval_keeps (List.mem_singleton_self test)) (fun hn => Expr.eval_calm (hc hn)) ha ht
    exact ⟨o', hmatch, .one (.iteAbrupt ho')⟩
  | iteGuarded hv hcond hyes hno => exact Reaches.guard_abrupt hv hcond ha ht _

/-- The branch that is chosen is the same on both sides. -/
theorem sim_iteYes (ht : test.eval m = .done v m₁) (hv : v.truthy = true)
    (ih : SimStmt L yes m₁ o) : SimStmt L (.ite test yes no span) m o := by
  intro handler Γ out m' hlow ha
  cases hlow with
  | leaf hs => cases hs
  | ite hvis hc hyes hno =>
    obtain ⟨m₁', he, ha₁⟩ := (Expr.eval_respects hvis).done ha ht
    obtain ⟨o', hmatch, hreach⟩ := ih hyes ha₁
    exact ⟨o', hmatch.narrow, .one (.iteYes he hv hreach.ends_of_one)⟩
  | iteGuarded hvis hcond hyes hno =>
    obtain ⟨m₁', hguard, ha₁, hget⟩ := Reaches.guard hvis hcond ha ht
    obtain ⟨o', hmatch, hreach⟩ := ih hyes ha₁
    exact ⟨o', hmatch.narrow,
      hguard _ _ (.one (.iteYes (Expr.eval_var hget) hv hreach.ends_of_one))⟩

theorem sim_iteNo {no : Stmt} (ht : test.eval m = .done v m₁) (hv : v.truthy = false)
    (ih : SimStmt L no m₁ o) : SimStmt L (.ite test yes (some no) span) m o := by
  intro handler Γ out m' hlow ha
  cases hlow with
  | leaf hs => cases hs
  | ite hvis hc hyes hno =>
    cases hno with | some hno =>
    obtain ⟨m₁', he, ha₁⟩ := (Expr.eval_respects hvis).done ha ht
    obtain ⟨o', hmatch, hreach⟩ := ih hno ha₁
    exact ⟨o', hmatch.narrow, .one (.iteNo he hv hreach.ends_of_one)⟩
  | iteGuarded hvis hcond hyes hno =>
    cases hno with | some hno =>
    obtain ⟨m₁', hguard, ha₁, hget⟩ := Reaches.guard hvis hcond ha ht
    obtain ⟨o', hmatch, hreach⟩ := ih hno ha₁
    exact ⟨o', hmatch.narrow,
      hguard _ _ (.one (.iteNo (Expr.eval_var hget) hv hreach.ends_of_one))⟩

theorem sim_iteSkip (ht : test.eval m = .done v m₁) (hv : v.truthy = false) :
    SimStmt L (.ite test yes none span) m (.done .normal m₁) := by
  intro handler Γ out m' hlow ha
  cases hlow with
  | leaf hs => cases hs
  | ite hvis hc hyes hno =>
    cases hno with | none =>
    obtain ⟨m₁', he, ha₁⟩ := (Expr.eval_respects hvis).done ha ht
    exact ⟨_, .normal ha₁, .one (.iteSkip he hv)⟩
  | iteGuarded hvis hcond hyes hno =>
    cases hno with | none =>
    obtain ⟨m₁', hguard, ha₁, hget⟩ := Reaches.guard hvis hcond ha ht
    exact ⟨_, .normal ha₁, hguard _ _ (.one (.iteSkip (Expr.eval_var hget) hv))⟩

end Branch

/-! ## Loops -/

/-- Statements as a block, if no jump goes to their labels. -/
theorem Reaches.rest {out : List Stmt} (h : Reaches L out m o)
    (hf : Stmt.FreshLabels L handler out)
    (hl : ∀ label m', o = .done (.goto label) m' → label ∉ Stmt.labels out) :
    Ends (.rest out out) m o := by
  have hall : out = [] ++ (out ++ []) := by rw [List.nil_append, List.append_nil]
  have hends := h.ends hall hf (.last hl)
  rwa [List.append_nil] at hends

theorem Reaches.block {out : List Stmt} {span span' : Span} (h : Reaches L out m o)
    (hl : Stmt.labels out = []) : Ends (.stmt (.block ⟨out, span⟩ span')) m o := by
  have hfresh : Stmt.FreshLabels L none out := ⟨by rw [hl]; exact .nil, nofun⟩
  exact .block (h.rest hfresh fun _ _ _ => by rw [hl]; exact List.not_mem_nil)

/-- What leaves a loop leaves the loop that it became. -/
theorem Matches.leavesLoop (h : Matches L handler Γ Γ' o o') (ho : o.leavesLoop = true) :
    o'.leavesLoop = true := by
  cases h with
  | normal h => cases ho
  | @leave f m m' hf h => cases f <;> first | rfl | cases ho
  | _ => rfl

section Loop

variable {test : Expr} {body : Stmt} {span span' : Span} {v : Value} {m₁ m₂ : Machine}
  {label cond : String} {b : Block}

/-- The test of a split loop. -/
theorem Expr.eval_true : (Expr.bool true).eval m = .done (.bool true) m := by
  rw [Expr.eval]
  rfl

/-- The test of a loop that was taken apart negates the local that holds the condition. -/
theorem Expr.eval_not_var (h : m.locals.get? cond = some v) :
    (Expr.not (.var cond)).eval m = .done (.bool (!v.truthy)) m := by
  rw [Expr.eval, Eval.bind_apply, Expr.eval_var h]
  rfl

/-- A round of a split loop is left where its condition fails. -/
theorem splitRound_exit (hvis : ∀ x ∈ test.locals, L.Visible Γ x) (hcond : cond ∉ L.taken)
    (ha : m.Agree L.escapes (L.Visible Γ) m') (ht : test.eval m = .done v m₁) (hv : v.truthy = false) :
    ∃ m₁', m₁.Agree L.escapes (L.Visible Γ) m₁' ∧ Ends (.stmt (Stmt.splitRound
      (test.guarding label cond span) (.var cond) (.block b span') span)) m' (.done .exit m₁') := by
  obtain ⟨m₁', hguard, ha₁, hget⟩ := Reaches.guard hvis hcond ha ht
  refine ⟨m₁', ha₁, (hguard _ _ (.cut (.iteYes (Expr.eval_not_var hget) ?_ ?_) rfl)).block rfl⟩
  · rw [hv]
    rfl
  · exact .block (.leave (.leaf rfl) rfl)

/-- A round of a split loop ends like its body where its condition holds. -/
theorem splitRound_body (hvis : ∀ x ∈ test.locals, L.Visible Γ x) (hcond : cond ∉ L.taken)
    (ha : m.Agree L.escapes (L.Visible Γ) m') (ht : test.eval m = .done v m₁) (hv : v.truthy = true)
    (ih : SimStmt L body m₁ o) (hb : Lowers L (some label) Γ body [.block b span']) :
    ∃ o', Matches L (some label) Γ Γ o o' ∧ Ends (.stmt (Stmt.splitRound
      (test.guarding label cond span) (.var cond) (.block b span') span)) m' o' := by
  obtain ⟨m₁', hguard, ha₁, hget⟩ := Reaches.guard hvis hcond ha ht
  obtain ⟨o', hmatch, hreach⟩ := ih hb ha₁
  refine ⟨o', hmatch.narrow, (hguard _ _ (.cons (.iteSkip (Expr.eval_not_var hget) ?_)
    (.one hreach.ends_of_one))).block rfl⟩
  rw [hv]
  rfl

/-- A loop is followed round by round. -/
theorem sim_loop (ih : SimLoop L test body m o) : SimStmt L (.loop test body span) m o := by
  intro handler Γ out m' hlow ha
  cases hlow with
  | leaf hs => cases hs
  | loop hv hc hb =>
    obtain ⟨o', hmatch, hends⟩ := ih.stays hv hc hb ha
    exact ⟨o', hmatch, .one (.loop hends)⟩
  | loopGuarded hv hcond hb =>
    obtain ⟨o', hmatch, hends⟩ := ih.split hv hcond hb ha
    exact ⟨o', hmatch, .one (.loop hends)⟩

theorem sim_loopAbrupt (ht : (test.eval m).abrupt? = some o) : SimLoop L test body m o where
  stays hv hc _ ha := by
    obtain ⟨o', ho', hmatch⟩ := (Expr.eval_respects hv).abrupt
      (Expr.eval_keeps (List.mem_singleton_self test)) (fun hn => Expr.eval_calm (hc hn)) ha ht
    exact ⟨o', hmatch, .loopAbrupt ho'⟩
  split {label Γ b span span' cond m'} hv hcond _ ha := by
    obtain ⟨o', hmatch, hreach⟩ := Reaches.guard_abrupt hv hcond ha ht _
    exact ⟨o', hmatch, .loopLeave Expr.eval_true rfl (hreach.block rfl)
      (hmatch.leavesLoop (Outcome.leavesLoop_of_abrupt? ht))⟩

theorem sim_loopDone (ht : test.eval m = .done v m₁) (hv : v.truthy = false) :
    SimLoop L test body m (.done .normal m₁) where
  stays hvis _ _ ha := by
    obtain ⟨m₁', he, ha₁⟩ := (Expr.eval_respects hvis).done ha ht
    exact ⟨_, .normal ha₁, .loopDone he hv⟩
  split hvis hcond _ ha := by
    obtain ⟨m₁', ha₁, hround⟩ := splitRound_exit hvis hcond ha ht hv
    exact ⟨_, .normal ha₁, .loopExit Expr.eval_true rfl hround⟩

/-- A further round: the induction hypotheses are those of the body and of the rest of the loop. -/
theorem sim_loopAgain {f : Flow} (ht : test.eval m = .done v m₁) (hv : v.truthy = true)
    (ih : SimStmt L body m₁ (.done f m₂)) (hf : f.repeats = true) (ih' : SimLoop L test body m₂ o) :
    SimLoop L test body m o where
  stays hvis hc hb ha := by
    obtain ⟨m₁', he, ha₁⟩ := (Expr.eval_respects hvis).done ha ht
    obtain ⟨o₁, hmatch, hreach⟩ := ih hb ha₁
    obtain ⟨m₂', rfl, ha₂⟩ := hmatch.narrow.done
    obtain ⟨o', hmatch', hends⟩ := ih'.stays hvis hc hb ha₂
    exact ⟨o', hmatch', .loopAgain he hv hreach.ends_of_one hf hends⟩
  split hvis hcond hb ha := by
    obtain ⟨o₁, hmatch, hround⟩ := splitRound_body hvis hcond ha ht hv ih hb
    obtain ⟨m₂', rfl, ha₂⟩ := hmatch.done
    obtain ⟨o', hmatch', hends⟩ := ih'.split hvis hcond hb ha₂
    exact ⟨o', hmatch', .loopAgain Expr.eval_true rfl hround hf hends⟩

theorem sim_loopExit (ht : test.eval m = .done v m₁) (hv : v.truthy = true)
    (ih : SimStmt L body m₁ (.done .exit m₂)) : SimLoop L test body m (.done .normal m₂) where
  stays hvis _ hb ha := by
    obtain ⟨m₁', he, ha₁⟩ := (Expr.eval_respects hvis).done ha ht
    obtain ⟨o₁, hmatch, hreach⟩ := ih hb ha₁
    obtain ⟨m₂', rfl, ha₂⟩ := hmatch.narrow.done
    exact ⟨_, .normal ha₂, .loopExit he hv hreach.ends_of_one⟩
  split hvis hcond hb ha := by
    obtain ⟨o₁, hmatch, hround⟩ := splitRound_body hvis hcond ha ht hv ih hb
    obtain ⟨m₂', rfl, ha₂⟩ := hmatch.done
    exact ⟨_, .normal ha₂, .loopExit Expr.eval_true rfl hround⟩

theorem sim_loopLeave (ht : test.eval m = .done v m₁) (hv : v.truthy = true)
    (ih : SimStmt L body m₁ o) (ho : o.leavesLoop = true) : SimLoop L test body m o where
  stays hvis _ hb ha := by
    obtain ⟨m₁', he, ha₁⟩ := (Expr.eval_respects hvis).done ha ht
    obtain ⟨o', hmatch, hreach⟩ := ih hb ha₁
    exact ⟨o', hmatch.narrow, .loopLeave he hv hreach.ends_of_one (hmatch.leavesLoop ho)⟩
  split hvis hcond hb ha := by
    obtain ⟨o', hmatch, hround⟩ := splitRound_body hvis hcond ha ht hv ih hb
    exact ⟨o', hmatch, .loopLeave Expr.eval_true rfl hround (hmatch.leavesLoop ho)⟩

end Loop

/-! ## Tries -/

section Try

variable {body : Block} {catcher : Option Block} {c : Block} {t : Thrown} {m₁ : Machine}

/-- Without a handler the body stands for itself. -/
theorem sim_untried (ih : SimRest L body.stmts body.stmts m o) : SimTried L body none m o where
  bare _ hb ha := by
    obtain ⟨o', hmatch, hends⟩ := ih.block hb ha
    exact ⟨o', hmatch, .untried hends⟩
  stays hc := nomatch hc
  split hc := nomatch hc

/-- Where nothing suspends, what is thrown can be caught. -/
theorem Ends.catchable_of_plain {all : List Stmt} (h : Ends (.rest all all) m (.thrown t m₁))
    (hp : ∀ p ∈ Stmt.partsAll all, p.suspends = false) : t.catchable = true := by
  refine Decidable.byContradiction fun hn => ?_
  have hin : (Task.rest all all).Inside (Stmt.partsAll all) := ⟨fun _ hp => hp, fun _ hp => hp⟩
  obtain ⟨p, hmem, hsus⟩ := (h.accounted hin).fault t m₁ rfl (Bool.eq_false_iff.mpr hn)
  exact Bool.false_ne_true ((hp p hmem).symm.trans hsus)

/-- An outcome that no handler takes over is the same under every handler. -/
theorem Matches.uncaught {handler' : Option String} (h : Matches L handler Γ Γ o o')
    (ho : o.catchable = false) : Matches L handler' Γ Γ o o' := by
  cases h with
  | normal h => exact .normal h
  | leave hf h => exact .leave hf h
  | caught hh ht h => exact absurd ht (Bool.eq_false_iff.mp ho)
  | thrown hh hv hc h => exact .thrown (.inr ho) hv hc h
  | stopped h => exact .stopped h

theorem sim_uncaught (ih : SimRest L body.stmts body.stmts m o)
    (h : Ends (.rest body.stmts body.stmts) m o) (ho : o.catchable = false) :
    SimTried L body (some c) m o where
  bare hc := nomatch hc
  stays _ hp hb _ ha := by
    obtain ⟨o', hmatch, hends⟩ := ih.block hb ha
    refine ⟨o', hmatch, .uncaught hends ?_⟩
    cases hmatch with
    | thrown hh hv hc hm => exact absurd (h.catchable_of_plain hp) (Bool.eq_false_iff.mp ho)
    | _ => rfl
  split _ hn hb _ ha := by
    obtain ⟨o', hmatch, hends⟩ := ih.block hb ha
    refine ⟨o', hmatch.uncaught ho, ?_⟩
    by_cases hf : o'.fallsThrough = true
    · obtain ⟨m₁', rfl⟩ := Outcome.eq_of_fallsThrough hf
      exact .through hn.done_fresh hn.ne (.block hends)
    · exact .cut (.block hends) (Bool.eq_false_iff.mpr hf)

/-- **A handler that runs in the source runs in the output**: the protected run jumps to its label. -/
theorem sim_caught (ih : SimRest L body.stmts body.stmts m (.thrown t m₁))
    (ht : t.catchable = true) (ih' : SimRest L c.stmts c.stmts m₁ o) :
    SimTried L body (some c) m o where
  bare hc := nomatch hc
  stays hc _ hb hcatch ha := by
    cases hc
    obtain ⟨o₁, hmatch, hends⟩ := ih.block hb ha
    cases hmatch with
    | caught hh _ _ => cases hh
    | thrown hh hv hc ha₁ =>
      obtain ⟨o', hmatch', hends'⟩ := ih'.block hcatch ha₁
      exact ⟨o', hmatch', .caught hends (hc ht) hends'⟩
  -- The split body does not throw what can be caught: it jumps to the handler's label.
  split hc hn hb hcatch ha := by
    cases hc
    obtain ⟨o₁, hmatch, hends⟩ := ih.block hb ha
    cases hmatch with
    | caught hh _ ha₁ =>
      cases hh
      obtain ⟨o', hmatch', hends'⟩ := ih'.block hcatch ha₁
      exact ⟨o', hmatch', .handled hn.label_fresh (.block hends) (.block hends')⟩
    | thrown hh hv hc ha₁ =>
      rcases hh with hh | hh
      · cases hh
      · exact absurd ht (Bool.eq_false_iff.mp hh)

variable {cleanup : Block} {span : Span}

theorem sim_attempt (ih : SimTried L body catcher m o) :
    SimStmt L (.attempt body catcher none span) m o := by
  intro handler Γ out m' hlow ha
  cases hlow with
  | leaf hs => cases hs
  | attempt hb hk =>
    cases hk
    obtain ⟨o', hmatch, hends⟩ := ih.bare rfl hb ha
    exact ⟨o', hmatch, .one (.attempt hends)⟩
  | attemptPlain hp hb hc hk =>
    cases hk
    obtain ⟨o', hmatch, hends⟩ := ih.stays rfl hp hb hc ha
    exact ⟨o', hmatch, .one (.attempt hends)⟩
  | split hn hb hc => exact ih.split rfl hn hb hc ha

/-- Jumps in a block go to labels of the source. -/
theorem LowersBlock.target_mem {all all' : List Stmt} (h : LowersBlock L handler Γ all all')
    {p : Stmt} (hp : p ∈ Stmt.partsAll all) {label : String} (ht : p.target? = some label) :
    label ∈ L.taken := by
  obtain ⟨-, hj, -⟩ := h
  obtain ⟨s, hs, hps⟩ := Stmt.mem_partsAll.mp hp
  obtain ⟨before, behind, rfl⟩ := List.append_of_mem hs
  exact (hj before s behind rfl label (List.mem_filterMap.mpr ⟨p, hps, ht⟩)).1

/-- A split try in a block of its own. -/
theorem SimTried.splitBlock {label done : String} {body' c' : Block} (ih : SimTried L body (some c) m o)
    (h : Ends (.tried body (some c)) m o) (hn : L.FreshPair handler label done)
    (hb : LowersBlock L (some label) Γ body.stmts body'.stmts)
    (hc : LowersBlock L handler Γ c.stmts c'.stmts) (ha : m.Agree L.escapes (L.Visible Γ) m') :
    ∃ o', Matches L handler Γ Γ o o' ∧
      Ends (.tried ⟨Stmt.splitTry label done body' c', span⟩ none) m' o' := by
  obtain ⟨o', hmatch, hreach⟩ := ih.split rfl hn hb hc ha
  have hmem : ∀ l, l ∈ Stmt.labels (Stmt.splitTry label done body' c') → l = label ∨ l = done := by
    intro l hl
    simpa using hl
  have hfresh : Stmt.FreshLabels L handler (Stmt.splitTry label done body' c') := by
    constructor
    · rw [Stmt.labels_splitTry]
      exact List.Pairwise.filter _ (by simpa using hn.ne)
    · intro l hl hl'
      rcases hmem l hl' with rfl | rfl
      · exact (hn.apart l hl).1 rfl
      · exact (hn.apart l hl).2 rfl
  refine ⟨o', hmatch, .untried (hreach.rest hfresh fun l m₁ he hl => ?_)⟩
  subst he
  cases hmatch with
  | leave hf _ =>
    -- a jump of the source, and its label is not fresh
    have hin : (Task.tried body (some c)).Inside
        (Stmt.partsAll body.stmts ++ Stmt.partsAll c.stmts) := by
      refine ⟨List.subset_append_left _ _, fun b hb => ?_⟩
      cases hb
      exact List.subset_append_right _ _
    obtain ⟨p, hp, ht⟩ := (h.accounted hin).jump l _ rfl
    have htaken : l ∈ L.taken :=
      (List.mem_append.mp hp).elim (fun hp => hb.target_mem hp ht) fun hp => hc.target_mem hp ht
    rcases hmem l hl with rfl | rfl
    · exact hn.label_fresh htaken
    · exact hn.done_fresh htaken
  | caught hh _ _ => exact hfresh.apart l hh hl

theorem sim_attemptStopped (ih : SimTried L body catcher m o) (h : Ends (.tried body catcher) m o)
    (ho : o.isStopped = true) : SimStmt L (.attempt body catcher (some cleanup) span) m o := by
  intro handler Γ out m' hlow ha
  cases hlow with
  | leaf hs => cases hs
  | attempt hb hk =>
    cases hk with | some hk =>
    obtain ⟨o', hmatch, hends⟩ := ih.bare rfl hb ha
    exact ⟨o', hmatch, .one (.attemptStopped hends (hmatch.isStopped_eq.trans ho))⟩
  | attemptPlain hp hb hc hk =>
    cases hk with | some hk =>
    obtain ⟨o', hmatch, hends⟩ := ih.stays rfl hp hb hc ha
    exact ⟨o', hmatch, .one (.attemptStopped hends (hmatch.isStopped_eq.trans ho))⟩
  | splitCleanup hn hb hc hk =>
    obtain ⟨o', hmatch, hends⟩ := ih.splitBlock h hn hb hc ha
    exact ⟨o', hmatch, .one (.attemptStopped hends (hmatch.isStopped_eq.trans ho))⟩

/-- A cleanup behind a try. -/
theorem sim_cleanup {oc : Outcome Flow} {body' cleanup' : Block} {catcher' : Option Block}
    {span' : Span} (hmatch : Matches L handler Γ Γ o o') (hends : Ends (.tried body' catcher') m' o')
    (ho : o.isStopped = false) (ih : SimRest L cleanup.stmts cleanup.stmts o.machine oc)
    (hk : LowersBlock L handler Γ cleanup.stmts cleanup'.stmts) :
    ∃ o', Matches L handler Γ Γ (o.andCleanup fun _ => oc) o' ∧
      Reaches L [.attempt body' catcher' (some cleanup') span'] m' o' := by
  obtain ⟨oc', hmatch', hends'⟩ := ih.block hk (hmatch.machine ho)
  exact ⟨_, hmatch.andCleanup ho hmatch',
    .one (.attemptCleanup hends (hmatch.isStopped_eq.trans ho) hends')⟩

/-- The cleanup runs behind all that the try became. -/
theorem sim_attemptCleanup {oc : Outcome Flow} (ih : SimTried L body catcher m o)
    (h : Ends (.tried body catcher) m o) (ho : o.isStopped = false)
    (ih' : SimRest L cleanup.stmts cleanup.stmts o.machine oc) :
    SimStmt L (.attempt body catcher (some cleanup) span) m (o.andCleanup fun _ => oc) := by
  intro handler Γ out m' hlow ha
  cases hlow with
  | leaf hs => cases hs
  | attempt hb hk =>
    cases hk with | some hk =>
    obtain ⟨o', hmatch, hends⟩ := ih.bare rfl hb ha
    exact sim_cleanup hmatch hends ho ih' hk
  | attemptPlain hp hb hc hk =>
    cases hk with | some hk =>
    obtain ⟨o', hmatch, hends⟩ := ih.stays rfl hp hb hc ha
    exact sim_cleanup hmatch hends ho ih' hk
  | splitCleanup hn hb hc hk =>
    obtain ⟨o', hmatch, hends⟩ := ih.splitBlock h hn hb hc ha
    exact sim_cleanup hmatch hends ho ih' hk

end Try

/-! ## Switches -/

section Switch

variable {discriminant : Expr} {span : Span} {m₁ : Machine}

theorem LowersBlockOption.or {d d' : Option Block} {b b' : Block}
    (hd : LowersBlockOption L handler Γ d d') (hb : LowersBlock L handler Γ b.stmts b'.stmts) :
    LowersBlockOption L handler Γ (d.or (Option.some b)) (d'.or (Option.some b')) := by
  cases hd with
  | none => exact .some hb
  | some hd => exact .some hd

/-- The same case is selected on both sides. -/
theorem LowersCases.select_done {v : Value} {b : Option Block} {cases cases' : List Case}
    {d d' : Option Block} {m : Machine} (hs : LowersCases L Γ cases cases')
    (hd : LowersBlockOption L none Γ d d') (h : Case.select v d cases m = .done b m₁) :
    ∃ b', Case.select v d' cases' m = .done b' m₁ ∧ LowersBlockOption L none Γ b b' := by
  induction cases generalizing cases' d d' m with
  | nil =>
    cases hs
    rw [Case.select, Eval.pure_apply, Outcome.done.injEq] at h
    obtain ⟨rfl, rfl⟩ := h
    rw [Case.select]
    exact ⟨d', rfl, hd⟩
  | cons case cases ih =>
    obtain ⟨test, body⟩ := case
    cases hs with
    | cons hb hs =>
      cases test with
      -- A default is only remembered: a later case may still match.
      | none =>
        rw [Case.select] at h ⊢
        exact ih hs (hd.or hb) h
      | some test =>
        rw [Case.select, Eval.bind_apply] at h ⊢
        cases ht : test.eval m with
        | done w m₂ =>
          rw [ht] at h
          by_cases hw : w = v
          · simp only [Outcome.bind, if_pos hw, Eval.pure_apply, Outcome.done.injEq] at h ⊢
            obtain ⟨rfl, rfl⟩ := h
            exact ⟨_, ⟨rfl, rfl⟩, .some hb⟩
          · simp only [Outcome.bind, if_neg hw] at h ⊢
            exact ih hs hd h
        | thrown t m₂ =>
          rw [ht] at h
          cases h
        | stopped e m₂ =>
          rw [ht] at h
          cases h

theorem LowersCases.select_abrupt {v : Value} {cases cases' : List Case} {d d' : Option Block}
    {m : Machine} (hs : LowersCases L Γ cases cases')
    (h : (Case.select v d cases m).abrupt? = some o) : (Case.select v d' cases' m).abrupt? = some o := by
  induction cases generalizing cases' d d' m with
  | nil =>
    rw [Case.select] at h
    cases h
  | cons case cases ih =>
    obtain ⟨test, body⟩ := case
    cases hs with
    | cons hb hs =>
      cases test with
      | none =>
        rw [Case.select] at h ⊢
        exact ih hs h
      | some test =>
        rw [Case.select, Eval.bind_apply] at h ⊢
        cases ht : test.eval m with
        | done w m₂ =>
          rw [ht] at h
          by_cases hw : w = v
          · simp only [Outcome.bind, if_pos hw] at h
            cases h
          · simp only [Outcome.bind, if_neg hw] at h ⊢
            exact ih hs h
        | thrown t m₂ =>
          rw [ht] at h
          exact h
        | stopped e m₂ =>
          rw [ht] at h
          exact h

/-- A rewritten switch runs the rewritten block. -/
theorem LowersCases.choose_done {cases cases' : List Case} {b : Option Block}
    (hs : LowersCases L Γ cases cases') (h : Case.choose discriminant cases m = .done b m₁) :
    ∃ b', Case.choose discriminant cases' m = .done b' m₁ ∧ LowersBlockOption L none Γ b b' := by
  rw [Case.choose, Eval.bind_apply] at h ⊢
  cases hd : discriminant.eval m with
  | done v m₂ =>
    rw [hd] at h
    exact hs.select_done .none h
  | thrown t m₂ =>
    rw [hd] at h
    cases h
  | stopped e m₂ =>
    rw [hd] at h
    cases h

theorem LowersCases.choose_abrupt {cases cases' : List Case} (hs : LowersCases L Γ cases cases')
    (h : (Case.choose discriminant cases m).abrupt? = some o) :
    (Case.choose discriminant cases' m).abrupt? = some o := by
  rw [Case.choose, Eval.bind_apply] at h ⊢
  cases hd : discriminant.eval m with
  | done v m₂ =>
    rw [hd] at h
    exact hs.select_abrupt h
  | thrown t m₂ =>
    rw [hd] at h
    exact h
  | stopped e m₂ =>
    rw [hd] at h
    exact h

variable {cases : List Case}

theorem sim_switchAbrupt (hc : (Case.choose discriminant cases m).abrupt? = some o) :
    SimStmt L (.switch discriminant cases span) m o := by
  intro handler Γ out m' hlow ha
  cases hlow with
  | leaf hs => cases hs
  | switch hv hcases =>
    obtain ⟨o', ho', hmatch⟩ := (Case.choose_respects hv).abrupt (Case.choose_keeps _ _)
      (fun hn => absurd rfl hn) ha hc
    exact ⟨o', hmatch, .one (.switchAbrupt (hcases.choose_abrupt ho'))⟩

theorem sim_switchSkip (hc : Case.choose discriminant cases m = .done none m₁) :
    SimStmt L (.switch discriminant cases span) m (.done .normal m₁) := by
  intro handler Γ out m' hlow ha
  cases hlow with
  | leaf hs => cases hs
  | switch hv hcases =>
    obtain ⟨m₁', he, ha₁⟩ := (Case.choose_respects hv).done ha hc
    obtain ⟨b', he', hb⟩ := hcases.choose_done he
    cases hb
    exact ⟨_, .normal ha₁, .one (.switchSkip he')⟩

/-- The case that is selected runs, and a `break` in it leaves the switch. -/
theorem sim_switchRun {b : Block} (hc : Case.choose discriminant cases m = .done (some b) m₁)
    (ih : SimRest L b.stmts b.stmts m₁ o) :
    SimStmt L (.switch discriminant cases span) m o.leaveSwitch := by
  intro handler Γ out m' hlow ha
  cases hlow with
  | leaf hs => cases hs
  | switch hv hcases =>
    obtain ⟨m₁', he, ha₁⟩ := (Case.choose_respects hv).done ha hc
    obtain ⟨b', he', hb⟩ := hcases.choose_done he
    cases hb with | some hb =>
    obtain ⟨o', hmatch, hends⟩ := ih.block hb ha₁
    exact ⟨_, hmatch.leaveSwitch, .one (.switchRun he' hends)⟩

end Switch

end Rules

/-! ## All runs -/

/-- **The rewriting of whatever ends, ends with a matching outcome.** -/
theorem Ends.sim (L : Lexicon) {task : Task} {m : Machine} {o : Outcome Flow} (h : Ends task m o) :
    Sim L task m o := by
  induction h with
  | leaf hs => exact sim_leaf hs
  | block _ ih => exact sim_block ih
  | labeled _ ih => exact sim_labeled ih
  | iteAbrupt ht => exact sim_iteAbrupt ht
  | iteYes ht hv _ ih => exact sim_iteYes ht hv ih
  | iteNo ht hv _ ih => exact sim_iteNo ht hv ih
  | iteSkip ht hv => exact sim_iteSkip ht hv
  | loop _ ih => exact sim_loop ih
  | loopAbrupt ht => exact sim_loopAbrupt ht
  | loopDone ht hv => exact sim_loopDone ht hv
  | loopAgain ht hv _ hf _ ih ih' => exact sim_loopAgain ht hv ih hf ih'
  | loopExit ht hv _ ih => exact sim_loopExit ht hv ih
  | loopLeave ht hv _ ho ih => exact sim_loopLeave ht hv ih ho
  | untried _ ih => exact sim_untried ih
  | uncaught h ho ih => exact sim_uncaught ih h ho
  | caught _ ht _ ih ih' => exact sim_caught ih ht ih'
  | attempt _ ih => exact sim_attempt ih
  | attemptStopped h ho ih => exact sim_attemptStopped ih h ho
  | attemptCleanup h ho _ ih ih' => exact sim_attemptCleanup ih h ho ih'
  | switchAbrupt hc => exact sim_switchAbrupt hc
  | switchSkip hc => exact sim_switchSkip hc
  | switchRun hc _ ih => exact sim_switchRun hc ih
  -- Within a list the first statement's outcome decides what may follow it.
  | nil => exact simRest_nil
  | step h _ ih ih' => exact simRest_cons ih h fun _ hall => simAfter_step (hall ▸ ih')
  | jump h hl _ ih ih' =>
    refine simRest_cons ih h fun before hall => ?_
    subst hall
    exact simAfter_jump h hl ih'
  | jumpOut h hl ih =>
    refine simRest_cons ih h fun before hall => ?_
    subst hall
    exact simAfter_jumpOut h hl
  | leave h ho ih => exact simRest_cons ih h fun _ _ => simAfter_leave ho

end Lowering
