import Lowering.Proofs.Hoist.Refusals
import Lowering.Proofs.Names

/-!
# What hoisting does to a body, rule by rule

`Hoists handler s coined out` says that hoisting makes the statements `out` of the statement `s`, where
throws must reach the label `handler` if there is one. There is a rule for each way that the pass can
go. The names that it asks for on its way are `coined`, in this order; the rules know nothing else of
the supply of names, and nothing of the hints.

A pass that succeeds follows the rules (`Block.hoist_hoists`). What holds of every hoisted body is shown
by induction on them.
-/

namespace Lowering

/-! ## Names that are asked for -/

/-- What hoisting asks for at one point. -/
inductive Coined where
  /-- the label of a handler, and the label behind it -/
  | split (label done : String)
  /-- the local that holds a condition -/
  | condition (name : String)

namespace Coined

/-- The names, in the order in which they are asked for. -/
def names : Coined → List String
  | split label done => [label, done]
  | condition name => [name]

/-- Whether the names are for a try that is split. -/
def isSplit : Coined → Bool
  | split .. => true
  | condition _ => false

/-- How many tries are split. -/
def splits (coined : List Coined) : Nat := coined.countP isSplit

theorem splits_append (coined coined' : List Coined) :
    splits (coined ++ coined') = splits coined + splits coined' := List.countP_append

theorem splits_split (label done : String) (coined : List Coined) :
    splits (split label done :: coined) = splits coined + 1 := List.countP_cons_of_pos rfl

end Coined

/-- The supply `s` hands out the names, one after the other, and is `s'` then. -/
inductive NameSupply.Gives {σ : Type} [NameSupply σ] : σ → List String → σ → Prop where
  | nil (s : σ) : Gives s [] s
  | cons {s s' : σ} {names : List String} (hint : String) (span : Span)
    (h : Gives (allocate hint span s).2 names s') : Gives s ((allocate hint span s).1 :: names) s'

theorem NameSupply.Gives.append {σ : Type} [NameSupply σ] {s s₁ s₂ : σ} {names names' : List String}
    (h : Gives s names s₁) (h' : Gives s₁ names' s₂) : Gives s (names ++ names') s₂ := by
  induction h with
  | nil s => exact h'
  | cons hint span _ ih => exact .cons hint span (ih h')

/-- What the names of a module give was not in use, and no two of it are the same. -/
theorem NameSupply.Gives.fresh {s s' : Names} {names : List String} (h : Gives s names s') :
    names.Nodup ∧ ∀ x ∈ names, x ∉ s.taken := by
  induction h with
  | nil => exact ⟨List.nodup_nil, List.forall_mem_nil _⟩
  | @cons s s' names hint span _ ih =>
    obtain ⟨hfree, hself, hgrown⟩ := s.allocate_fresh hint
    refine ⟨List.nodup_cons.mpr ⟨fun hm => ih.2 _ hm hself, ih.1⟩, List.forall_mem_cons.mpr ⟨hfree, ?_⟩⟩
    exact fun x hx hm => ih.2 x hx (hgrown hm)

/-! ## The rules -/

/-- Behind the statements `before`, `test'` is the value of the condition `test`. -/
inductive Guards : Option String → Span → Expr → List Coined → List Stmt → Expr → Prop where
  | same {handler : Option String} {span : Span} {test : Expr}
    (h : (handler.isSome && !test.isTrivial) = false) : Guards handler span test [] [] test
  | fresh {label cond : String} {span : Span} {test : Expr} (h : test.isTrivial = false) :
    Guards (some label) span test [.condition cond] (test.guarding label cond span) (.var cond)

mutual

/-- Hoisting makes the statements `out` of the statement. -/
inductive Hoists : Option String → Stmt → List Coined → List Stmt → Prop where
  | plain {handler s} (hs : s.suspends = false) : Hoists handler s [] [s]
  | suspend {handler kind value span} :
    Hoists handler (.suspend kind value span) [] [.suspend kind value span]
  | block {handler b span coined out} (hs : b.suspends = true)
    (hb : HoistsAll handler [] b.stmts coined out) :
    Hoists handler (.block b span) coined [.block ⟨out, b.span⟩ span]
  | labeled {handler label b bspan span coined out} (hs : b.suspends = true)
    (hb : HoistsAll handler [] b.stmts coined out) :
    Hoists handler (.labeled label (.block b bspan) span) coined
      [.labeled label (.block ⟨out, b.span⟩ bspan) span]
  | ite {handler test b bspan span coined before test' coined' out}
    (hs : (Stmt.ite test (.block b bspan) none span).suspends = true)
    (hg : Guards handler span test coined before test')
    (hb : HoistsAll handler [] b.stmts coined' out) :
    Hoists handler (.ite test (.block b bspan) none span) (coined ++ coined')
      (before ++ [.ite test' (.block ⟨out, b.span⟩ bspan) none span])
  | iteElse {handler test b bspan c cspan span coined before test' coined' out coined'' out'}
    (hs : (Stmt.ite test (.block b bspan) (some (.block c cspan)) span).suspends = true)
    (hg : Guards handler span test coined before test')
    (hb : HoistsAll handler [] b.stmts coined' out) (hc : HoistsAll handler [] c.stmts coined'' out') :
    Hoists handler (.ite test (.block b bspan) (some (.block c cspan)) span)
      (coined ++ (coined' ++ coined''))
      (before ++ [.ite test' (.block ⟨out, b.span⟩ bspan) (some (.block ⟨out', c.span⟩ cspan)) span])
  | loop {handler test b bspan span coined out} (hs : b.suspends = true)
    (ht : (handler.isSome && !test.isTrivial) = false)
    (hb : HoistsAll handler [] b.stmts coined out) :
    Hoists handler (.loop test (.block b bspan) span) coined
      [.loop test (.block ⟨out, b.span⟩ bspan) span]
  | splitLoop {label test b bspan span coined out cond} (hs : b.suspends = true)
    (ht : test.isTrivial = false) (hb : HoistsAll (some label) [] b.stmts coined out) :
    Hoists (some label) (.loop test (.block b bspan) span) (coined ++ [.condition cond])
      [Stmt.splitLoop (test.guarding label cond span) (.var cond) (.block ⟨out, b.span⟩ bspan) span]
  | attempt {handler b span coined out} (hs : b.suspends = true)
    (hb : HoistsAll handler [] b.stmts coined out) :
    Hoists handler (.attempt b none none span) coined [.attempt ⟨out, b.span⟩ none none span]
  | attemptCleanup {handler b cleanup span coined out coined' out'} (hs : b.suspends = true)
    (hk : cleanup.suspends = false) (hb : HoistsAll handler [] b.stmts coined out)
    (hc : HoistsAll handler [] cleanup.stmts coined' out') :
    Hoists handler (.attempt b none (some cleanup) span) (coined ++ coined')
      [.attempt ⟨out, b.span⟩ none (some ⟨out', cleanup.span⟩) span]
  | split {handler b catcher span label done coined out coined' out'}
    (hs : (b.suspends || catcher.suspends) = true)
    (hb : HoistsAll (some label) [] b.stmts coined out)
    (hc : HoistsAll handler [] catcher.stmts coined' out') :
    Hoists handler (.attempt b (some catcher) none span) (.split label done :: (coined ++ coined'))
      (Stmt.splitTry label done ⟨out, b.span⟩ ⟨out', catcher.span⟩)
  | splitCleanup {handler b catcher cleanup span label done coined out coined' out' coined'' out''}
    (hs : (b.suspends || catcher.suspends) = true) (hk : cleanup.suspends = false)
    (hb : HoistsAll (some label) [] b.stmts coined out)
    (hc : HoistsAll handler [] catcher.stmts coined' out')
    (hc' : HoistsAll handler [] cleanup.stmts coined'' out'') :
    Hoists handler (.attempt b (some catcher) (some cleanup) span)
      (.split label done :: (coined ++ (coined' ++ coined'')))
      [.attempt ⟨Stmt.splitTry label done ⟨out, b.span⟩ ⟨out', catcher.span⟩, span⟩ none
        (some ⟨out'', cleanup.span⟩) span]
  | switch {discriminant cases span coined cases'} (hs : Case.suspendsAny cases = true)
    (hc : HoistsCases cases coined cases') :
    Hoists none (.switch discriminant cases span) coined [.switch discriminant cases' span]

/-- Hoisting makes the statements `out` of the statements of a block. Under a handler, a run has been
collected from those in front of them. -/
inductive HoistsAll :
    Option String → List Stmt → List Stmt → List Coined → List Stmt → Prop where
  | nil : HoistsAll none [] [] [] []
  | cons {s ss coined out coined' more} (hs : Hoists none s coined out)
    (hss : HoistsAll none [] ss coined' more) :
    HoistsAll none [] (s :: ss) (coined ++ coined') (out ++ more)
  | flush {label run} : HoistsAll (some label) run [] [] (Stmt.flush label run)
  | suspends {label run s ss coined out coined' more} (h : s.suspends = true)
    (hs : Hoists (some label) s coined out) (hss : HoistsAll (some label) [] ss coined' more) :
    HoistsAll (some label) run (s :: ss) (coined ++ coined') (Stmt.flush label run ++ (out ++ more))
  | labeled {label run target b bspan span ss coined out coined' more} (h : b.suspends = false)
    (hb : HoistsAll (some label) [] b.stmts coined out)
    (hss : HoistsAll (some label) [] ss coined' more) :
    HoistsAll (some label) run (.labeled target (.block b bspan) span :: ss) (coined ++ coined')
      (Stmt.flush label run ++ .labeled target (.block ⟨out, b.span⟩ bspan) span :: more)
  | collect {label run s ss coined more} (h : s.suspends = false) (hl : Stmt.labels [s] = [])
    (hss : HoistsAll (some label) (run ++ s.runWork) ss coined more) :
    HoistsAll (some label) run (s :: ss) coined (s.runHead ++ more)

inductive HoistsCases : List Case → List Coined → List Case → Prop where
  | nil : HoistsCases [] [] []
  | cons {test b cases coined out coined' cases'} (hb : HoistsAll none [] b.stmts coined out)
    (hcs : HoistsCases cases coined' cases') :
    HoistsCases (⟨test, b⟩ :: cases) (coined ++ coined') (⟨test, ⟨out, b.span⟩⟩ :: cases')

end

/-! ## Steps that follow the rules -/

section Steps

variable {σ : Type} {α β : Type} {good : List Coined → α → Prop} {good' : List Coined → β → Prop}

section Makes

variable [NameSupply σ]

/-- Every result of the step is good, together with what the step has asked for. -/
def HoistM.Makes (x : HoistM σ α) (good : List Coined → α → Prop) : Prop :=
  ∀ st a st', x st = .ok a st' → ∃ coined, good coined a ∧
    NameSupply.Gives st.names (coined.flatMap Coined.names) st'.names ∧
    st'.splits = st.splits + Coined.splits coined

namespace HoistM.Makes

theorem pure {a : α} (h : good [] a) : Makes (Pure.pure a : HoistM σ α) good := by
  intro st b st' hok
  obtain ⟨rfl, rfl⟩ := HoistM.pure_eq_ok.mp hok
  exact ⟨[], h, .nil _, rfl⟩

theorem throw (e : LowerError) : Makes (MonadExcept.throw e : HoistM σ α) good := by
  intro st a st' hok
  cases hok

/-- What the second step asks for comes behind. -/
theorem bind {x : HoistM σ α} {f : α → HoistM σ β} (hx : x.Makes good)
    (hf : ∀ coined a, good coined a → (f a).Makes fun coined' => good' (coined ++ coined')) :
    (x >>= f).Makes good' := by
  intro st b st' hok
  obtain ⟨a, st₁, ha, hb⟩ := HoistM.bind_eq_ok.mp hok
  obtain ⟨coined, hgood, hgives, hsplits⟩ := hx st a st₁ ha
  obtain ⟨coined', hgood', hgives', hsplits'⟩ := hf coined a hgood st₁ b st' hb
  refine ⟨coined ++ coined', hgood', ?_, ?_⟩
  · rw [List.flatMap_append]
    exact hgives.append hgives'
  · rw [hsplits', hsplits, Coined.splits_append, Nat.add_assoc]

theorem map {x : HoistM σ α} {g : α → β} (hx : x.Makes good)
    (hg : ∀ coined a, good coined a → good' coined (g a)) :
    (x >>= fun a => Pure.pure (g a)).Makes good' := by
  refine hx.bind fun coined a ha => .pure ?_
  rw [List.append_nil]
  exact hg coined a ha

/-- A first step that asks for nothing. -/
theorem before {x : HoistM σ α} {f : α → HoistM σ β} {holds : α → Prop}
    (hx : x.Makes fun coined a => coined = [] ∧ holds a) (hf : ∀ a, holds a → (f a).Makes good') :
    (x >>= f).Makes good' := by
  refine hx.bind ?_
  rintro _ a ⟨rfl, ha⟩
  exact hf a ha

/-- The names for a try that is split. -/
theorem split {hint hint' : String} {span : Span} {f : String → String → HoistM σ α}
    (hf : ∀ label done, (f label done).Makes fun coined => good (.split label done :: coined)) :
    Makes (do
      let label ← HoistM.fresh hint span
      let done ← HoistM.fresh hint' span
      HoistM.countSplit
      f label done) good := by
  intro st a st' hok
  obtain ⟨label, st₁, hlabel, hok⟩ := HoistM.bind_eq_ok.mp hok
  obtain ⟨done, st₂, hdone, hok⟩ := HoistM.bind_eq_ok.mp hok
  obtain ⟨_, st₃, hcount, hok⟩ := HoistM.bind_eq_ok.mp hok
  obtain ⟨rfl, rfl⟩ := HoistM.fresh_eq_ok.mp hlabel
  obtain ⟨rfl, rfl⟩ := HoistM.fresh_eq_ok.mp hdone
  obtain rfl := HoistM.countSplit_eq_ok.mp hcount
  obtain ⟨coined, hgood, hgives, hsplits⟩ := hf _ _ _ a st' hok
  refine ⟨_, hgood, .cons hint span (.cons hint' span hgives), ?_⟩
  have hcount : st'.splits = st.splits + 1 + Coined.splits coined := hsplits
  rw [hcount, Coined.splits_split]
  omega

/-- The name of a condition. -/
theorem condition {hint : String} {span : Span} {f : String → HoistM σ α}
    (hf : ∀ name, (f name).Makes fun coined => good (.condition name :: coined)) :
    Makes (HoistM.fresh hint span >>= f) good := by
  intro st a st' hok
  obtain ⟨name, st₁, hname, hok⟩ := HoistM.bind_eq_ok.mp hok
  obtain ⟨rfl, rfl⟩ := HoistM.fresh_eq_ok.mp hname
  obtain ⟨coined, hgood, hgives, hsplits⟩ := hf _ _ a st' hok
  exact ⟨_, hgood, .cons hint span hgives, hsplits⟩

end HoistM.Makes

theorem Block.refuseSuspension_makes (span : Span) (cleanup : Option Block) :
    (Block.refuseSuspension span cleanup : HoistM σ Unit).Makes fun coined _ =>
      coined = [] ∧ ∀ k ∈ cleanup, k.suspends = false := by
  cases cleanup with
  | none =>
    refine .pure ⟨rfl, ?_⟩
    intro k hk
    cases hk
  | some cleanup =>
    rw [Block.refuseSuspension]
    by_cases hc : cleanup.suspends = true
    · rw [if_pos hc]
      exact .throw _
    · rw [if_neg hc]
      refine .pure ⟨rfl, ?_⟩
      rintro _ ⟨⟩
      exact Bool.eq_false_iff.mpr hc

end Makes

end Steps

/-! ## The pass -/

section Pass

variable {σ : Type} [NameSupply σ] (hints : HoistHints)

/-- Hoisting makes the block `b'` of the block. -/
def HoistsBlock (handler : Option String) (b : Block) (coined : List Coined) (b' : Block) : Prop :=
  ∃ out, HoistsAll handler [] b.stmts coined out ∧ b' = ⟨out, b.span⟩

/-- Hoisting makes the statement `s'` of a branch or a body, which is a block. -/
def HoistsBody (handler : Option String) (s : Stmt) (coined : List Coined) (s' : Stmt) : Prop :=
  ∃ b span out, s = .block b span ∧ HoistsAll handler [] b.stmts coined out ∧
    s' = .block ⟨out, b.span⟩ span

theorem Expr.guard_makes (handler : Option String) (span : Span) (test : Expr) :
    (test.guard hints handler span : HoistM σ _).Makes fun coined out =>
      Guards handler span test coined out.1 out.2 := by
  cases handler with
  | none => exact .pure (.same rfl)
  | some label =>
    rw [Expr.guard]
    by_cases ht : test.isTrivial = true
    · rw [if_pos ht]
      refine .pure (.same ?_)
      rw [ht]
      rfl
    · rw [if_neg ht]
      exact .condition fun cond => .pure (.fresh (Bool.eq_false_iff.mpr ht))

section Compound

variable {hints} {handler : Option String} {span : Span}

theorem Stmt.hoist_makes_ite {test : Expr} {yes : Stmt} {no : Option Stmt}
    (hs : (Stmt.ite test yes no span).suspends = true)
    (hyes : (yes.hoistBody hints handler : HoistM σ _).Makes (HoistsBody handler yes))
    (hno : ∀ t ∈ no, (t.hoistBody hints handler : HoistM σ _).Makes (HoistsBody handler t)) :
    ((Stmt.ite test yes no span).hoist hints handler : HoistM σ _).Makes
      (Hoists handler (.ite test yes no span)) := by
  rw [Stmt.hoist_ite hs]
  refine (Expr.guard_makes hints handler span test).bind fun coined out hg => ?_
  cases no with
  | none =>
    refine hyes.map ?_
    rintro coined' _ ⟨b, bspan, out', rfl, hb, rfl⟩
    exact .ite hs hg hb
  | some no =>
    refine hyes.bind ?_
    rintro coined' _ ⟨b, bspan, out', rfl, hb, rfl⟩
    simp only [Stmt.hoistBodyOption, bind_assoc, pure_bind]
    refine (hno no rfl).map ?_
    rintro coined'' _ ⟨c, cspan, out'', rfl, hc, rfl⟩
    exact .iteElse hs hg hb hc

/-- The name of the condition is asked for behind those of the body. -/
theorem Stmt.hoist_makes_loop {test : Expr} {body : Stmt}
    (hs : (Stmt.loop test body span).suspends = true)
    (hbody : (body.hoistBody hints handler : HoistM σ _).Makes (HoistsBody handler body)) :
    ((Stmt.loop test body span).hoist hints handler : HoistM σ _).Makes
      (Hoists handler (.loop test body span)) := by
  rw [Stmt.hoist_loop hs]
  refine hbody.bind ?_
  rintro coined _ ⟨b, bspan, out, rfl, hb, rfl⟩
  by_cases hsplit : (handler.isSome && !test.isTrivial) = true
  · rw [if_pos hsplit]
    refine (Expr.guard_makes hints handler span test).map ?_
    rintro coined' ⟨before, cond⟩ hg
    cases hg with
    | same h =>
      rw [hsplit] at h
      cases h
    | fresh ht => exact .splitLoop hs ht hb
  · rw [if_neg hsplit]
    refine .pure ?_
    rw [List.append_nil]
    exact .loop hs (Bool.eq_false_iff.mpr hsplit) hb

/-- A try without a handler stays a try. -/
theorem Stmt.hoist_makes_attempt {body : Block} {cleanup : Option Block}
    (hs : (Stmt.attempt body none cleanup span).suspends = true)
    (hbody : (body.hoistIn hints handler : HoistM σ _).Makes (HoistsBlock handler body))
    (hcleanup : ∀ k ∈ cleanup, (k.hoistIn hints handler : HoistM σ _).Makes (HoistsBlock handler k)) :
    ((Stmt.attempt body none cleanup span).hoist hints handler : HoistM σ _).Makes
      (Hoists handler (.attempt body none cleanup span)) := by
  rw [Stmt.hoist_attempt hs]
  refine (Block.refuseSuspension_makes span cleanup).before fun _ hk => ?_
  cases cleanup with
  | none =>
    refine hbody.map ?_
    rintro coined _ ⟨out, hb, rfl⟩
    rw [Stmt.suspends, Block.suspendsOption, Bool.or_false, Bool.or_false] at hs
    exact .attempt hs hb
  | some cleanup =>
    have hplain := hk cleanup rfl
    refine hbody.bind ?_
    rintro coined _ ⟨out, hb, rfl⟩
    simp only [Block.hoistOption, bind_assoc, pure_bind]
    refine (hcleanup _ rfl).map ?_
    rintro coined' _ ⟨out', hc, rfl⟩
    rw [Stmt.suspends, Block.suspendsOption, Block.suspendsOption, hplain, Bool.or_false,
      Bool.or_false] at hs
    exact .attemptCleanup hs hplain hb hc

/-- A try with a handler is split. Its body is hoisted under the label of the new handler, and its handler
and its cleanup where it stood itself. -/
theorem Stmt.hoist_makes_split {body catcher : Block} {cleanup : Option Block}
    (hs : (Stmt.attempt body (some catcher) cleanup span).suspends = true)
    (hbody : ∀ handler, (body.hoistIn hints handler : HoistM σ _).Makes (HoistsBlock handler body))
    (hcatcher : (catcher.hoistIn hints handler : HoistM σ _).Makes (HoistsBlock handler catcher))
    (hcleanup : ∀ k ∈ cleanup, (k.hoistIn hints handler : HoistM σ _).Makes (HoistsBlock handler k)) :
    ((Stmt.attempt body (some catcher) cleanup span).hoist hints handler : HoistM σ _).Makes
      (Hoists handler (.attempt body (some catcher) cleanup span)) := by
  have hrefuse := @Block.refuseSuspension_makes σ _ span cleanup
  cases cleanup with
  | none =>
    rw [Stmt.hoist_split hs]
    refine hrefuse.before fun _ _ => .split fun label done => (hbody (some label)).bind ?_
    rintro coined _ ⟨out, hb, rfl⟩
    refine hcatcher.map ?_
    rintro coined' _ ⟨out', hc, rfl⟩
    rw [Stmt.suspends, Block.suspendsOption, Block.suspendsOption, Bool.or_false] at hs
    exact .split hs hb hc
  | some cleanup =>
    rw [Stmt.hoist_splitCleanup hs]
    refine hrefuse.before fun _ hk => .split fun label done => (hbody (some label)).bind ?_
    have hplain := hk cleanup rfl
    rintro coined _ ⟨out, hb, rfl⟩
    refine hcatcher.bind ?_
    rintro coined' _ ⟨out', hc, rfl⟩
    refine (hcleanup _ rfl).map ?_
    rintro coined'' _ ⟨out'', hc', rfl⟩
    rw [Stmt.suspends, Block.suspendsOption, Block.suspendsOption, hplain, Bool.or_false] at hs
    exact .splitCleanup hs hplain hb hc hc'

end Compound

mutual

/-- **A statement that is hoisted follows the rules.** -/
theorem Stmt.hoist_makes (handler : Option String) (s : Stmt) :
    (s.hoist hints handler : HoistM σ _).Makes (Hoists handler s) := by
  by_cases hs : s.suspends = true
  · cases s with
    | block body span =>
      rw [Stmt.hoist_block hs]
      refine (Block.hoistIn_makes handler body).map ?_
      rintro coined _ ⟨out, hb, rfl⟩
      exact .block hs hb
    | labeled label body span =>
      rw [Stmt.hoist_labeled hs]
      refine (Stmt.hoistBody_makes handler body).map ?_
      rintro coined _ ⟨b, bspan, out, rfl, hb, rfl⟩
      exact .labeled hs hb
    | ite test yes no span =>
      exact Stmt.hoist_makes_ite hs (Stmt.hoistBody_makes handler yes) (Stmt.hoistEach_makes handler no)
    | loop test body span => exact Stmt.hoist_makes_loop hs (Stmt.hoistBody_makes handler body)
    | attempt body catcher cleanup span =>
      have hbody := fun handler => Block.hoistIn_makes handler body
      have hcatcher := Block.hoistEach_makes handler catcher
      have hcleanup := Block.hoistEach_makes handler cleanup
      cases catcher with
      | none => exact Stmt.hoist_makes_attempt hs (hbody handler) hcleanup
      | some catcher => exact Stmt.hoist_makes_split hs hbody (hcatcher _ rfl) hcleanup
    | switch discriminant cases span =>
      rw [Stmt.hoist_switch hs]
      cases handler with
      | some label => exact .throw _
      | none =>
        refine (Case.hoistAll_makes cases).map fun coined cases' hc => ?_
        exact .switch hs hc
    | suspend kind value span =>
      rw [Stmt.hoist_suspend]
      exact .pure .suspend
    | goto _ _ | exit _ | next _ | eval _ _ | declare _ _ _ _ | ret _ _ | raise _ _ | method _ _ =>
      cases hs
  · rw [Stmt.hoist_plain (Bool.eq_false_iff.mpr hs)]
    exact .pure (.plain (Bool.eq_false_iff.mpr hs))

theorem Stmt.hoistBody_makes (handler : Option String) (s : Stmt) :
    (s.hoistBody hints handler : HoistM σ _).Makes (HoistsBody handler s) := by
  cases s with
  | block body span =>
    rw [Stmt.hoistBody]
    refine (Block.hoistIn_makes handler body).map ?_
    rintro coined _ ⟨out, hb, rfl⟩
    exact ⟨body, span, out, rfl, hb, rfl⟩
  | _ =>
    simp only [Stmt.hoistBody]
    exact .throw _

theorem Stmt.hoistEach_makes (handler : Option String) (s : Option Stmt) :
    ∀ t ∈ s, (t.hoistBody hints handler : HoistM σ _).Makes (HoistsBody handler t) := by
  cases s with
  | none =>
    intro t ht
    cases ht
  | some s =>
    rintro _ ⟨⟩
    exact Stmt.hoistBody_makes handler s

theorem Stmt.hoistAll_makes (ss : List Stmt) :
    (Stmt.hoistAll hints ss : HoistM σ _).Makes (HoistsAll none [] ss) := by
  cases ss with
  | nil =>
    rw [Stmt.hoistAll]
    exact .pure .nil
  | cons s ss =>
    rw [Stmt.hoistAll]
    refine (Stmt.hoist_makes none s).bind fun coined out hs => ?_
    exact (Stmt.hoistAll_makes ss).map fun coined' more hss => .cons hs hss

theorem Stmt.hoistRun_makes (label : String) (run ss : List Stmt) :
    (Stmt.hoistRun hints label run ss : HoistM σ _).Makes (HoistsAll (some label) run ss) := by
  cases ss with
  | nil =>
    rw [Stmt.hoistRun_nil]
    exact .pure .flush
  | cons s ss =>
    -- A statement that suspends or is labeled ends the run; any other one is collected.
    by_cases hs : s.suspends = true
    · rw [Stmt.hoistRun_suspends hs]
      refine (Stmt.hoist_makes (some label) s).bind fun coined out hout => ?_
      refine (Stmt.hoistRun_makes label [] ss).map fun coined' more hss => ?_
      rw [List.append_assoc]
      exact .suspends hs hout hss
    · have hplain := Bool.eq_false_iff.mpr hs
      cases s with
      | labeled target body span =>
        rw [Stmt.hoistRun_labeled (show body.suspends = false from hplain)]
        refine (Stmt.hoistBody_makes (some label) body).bind ?_
        rintro coined _ ⟨b, bspan, out, rfl, hb, rfl⟩
        refine (Stmt.hoistRun_makes label [] ss).map fun coined' more hss => ?_
        exact .labeled hplain hb hss
      | _ =>
        rw [Stmt.hoistRun_plain hplain rfl]
        exact (Stmt.hoistRun_makes label _ ss).map fun coined more hss => .collect hplain rfl hss

theorem Block.hoistIn_makes (handler : Option String) (b : Block) :
    (b.hoistIn hints handler : HoistM σ _).Makes (HoistsBlock handler b) := by
  cases b with
  | mk stmts span =>
    cases handler with
    | none =>
      rw [Block.hoistIn]
      exact (Stmt.hoistAll_makes stmts).map fun coined out hout => ⟨out, hout, rfl⟩
    | some label =>
      rw [Block.hoistIn]
      exact (Stmt.hoistRun_makes label [] stmts).map fun coined out hout => ⟨out, hout, rfl⟩

theorem Block.hoistEach_makes (handler : Option String) (b : Option Block) :
    ∀ k ∈ b, (k.hoistIn hints handler : HoistM σ _).Makes (HoistsBlock handler k) := by
  cases b with
  | none =>
    intro k hk
    cases hk
  | some b =>
    rintro _ ⟨⟩
    exact Block.hoistIn_makes handler b

theorem Case.hoistAll_makes (cases : List Case) :
    (Case.hoistAll hints cases : HoistM σ _).Makes (HoistsCases cases) := by
  cases cases with
  | nil =>
    rw [Case.hoistAll]
    exact .pure .nil
  | cons case rest =>
    cases case with
    | mk test body =>
      rw [Case.hoistAll]
      refine (Block.hoistIn_makes none body).bind ?_
      rintro coined _ ⟨out, hb, rfl⟩
      exact (Case.hoistAll_makes rest).map fun coined' rest' hrest => .cons hb hrest

end

/-- **A body that is hoisted follows the rules**, if it suspends at all. -/
theorem Block.hoist_hoists {body : Block} {names : σ} {hoisted : Hoisted}
    (h : (body.hoist hints names).1 = .ok hoisted) :
    (body.suspends = false ∧ hoisted = ⟨body, 0⟩ ∧ (body.hoist hints names).2 = names) ∨
      body.suspends = true ∧ ∃ coined, HoistsBlock none body.normalize coined hoisted.body ∧
        NameSupply.Gives names (coined.flatMap Coined.names) (body.hoist hints names).2 ∧
        hoisted.splits = Coined.splits coined := by
  unfold Block.hoist at h ⊢
  by_cases hs : body.suspends = true
  · rw [if_pos hs] at h ⊢
    refine .inr ⟨hs, ?_⟩
    cases hr : body.normalize.hoistIn hints none (⟨names, 0⟩ : HoistState σ) with
    | error e st =>
      rw [hr] at h
      cases h
    | ok b st =>
      rw [hr] at h
      obtain ⟨coined, hb, hgives, hsplits⟩ := Block.hoistIn_makes hints none body.normalize _ b st hr
      rw [Nat.zero_add] at hsplits
      dsimp only at h ⊢
      -- the last check has passed
      cases hm : b.misplaced? with
      | some span =>
        rw [hm] at h
        cases h
      | none =>
        rw [hm] at h
        cases h
        exact ⟨coined, hb, hgives, hsplits⟩
  · rw [if_neg hs] at h ⊢
    cases h
    exact .inl ⟨Bool.eq_false_iff.mpr hs, rfl, rfl⟩

end Pass

/-! ## Statements that do not suspend -/

/-- A statement that does not suspend stays, and nothing is asked for. -/
theorem Hoists.of_plain {handler : Option String} {s : Stmt} {coined : List Coined} {out : List Stmt}
    (h : Hoists handler s coined out) (hs : s.suspends = false) : coined = [] ∧ out = [s] := by
  cases h with
  | plain => exact ⟨rfl, rfl⟩
  | suspend => cases hs
  | _ => simp_all [Stmt.suspends, Block.suspendsOption]

end Lowering
