import Lowering.Proofs.Hoist.Cases
import Lowering.Proofs.Hoist.Plain
import Lowering.Proofs.Tree.Suspensions

/-!
# What hoisting refuses

Hoisting refuses a suspension in a cleanup, and a switch that suspends in the body of a try with a
handler, and nothing else. It names the statement that it refuses. What it accepts, it leaves without
a suspension inside a try with a handler (`Block.hoist_exact`). All of this holds for any supply of
names.

`HoistM.Answers` says this of a step of the pass, for the sites that the step deals with.
-/

namespace Lowering

/-- Hoisting refuses a statement at its place. -/
inductive Site.Refused : Site → LowerError → Prop where
  /-- the cleanup of a try suspends; the first suspension in it is named -/
  | cleanup {body handler cleanup span c first rest} (h : Block.suspensions cleanup = first :: rest) :
    Refused ⟨.attempt body handler (some cleanup) span, c⟩ (.suspensionInFinally first span)
  /-- a switch suspends in the body of a try with a handler -/
  | switch {discriminant cases span c} (hg : Context.guarded c = true)
    (hs : (Stmt.switch discriminant cases span).suspensions ≠ []) :
    Refused ⟨.switch discriminant cases span, c⟩ (.suspendingSwitch span)

/-- Nothing is refused at these sites. -/
def Site.AllAccepted (sites : List Site) : Prop := ∀ site ∈ sites, ∀ e, ¬site.Refused e

/-! ## Steps that answer -/

section Steps

variable {σ α β : Type} {x : HoistM σ α} {f : α → HoistM σ β} {sites sites' : List Site} {site : Site}
  {good : α → Prop} {good' : β → Prop}

/-- A step that gives up exactly if one of the sites is refused, for what it is refused for, and whose
result is good otherwise. -/
def HoistM.Answers (x : HoistM σ α) (sites : List Site) (good : α → Prop) : Prop :=
  ∀ st, match x st with
    | .ok a _ => Site.AllAccepted sites ∧ good a
    | .error e _ => ∃ site ∈ sites, site.Refused e

namespace HoistM.Answers

theorem pure {a : α} (hs : Site.AllAccepted sites) (ha : good a) :
    Answers (Pure.pure a : HoistM σ α) sites good := fun _ => ⟨hs, ha⟩

/-- Two steps answer for the sites of both: if the first gives up, the second is not reached. -/
theorem bind (hx : x.Answers sites good) (hf : ∀ a, good a → (f a).Answers sites' good') :
    (x >>= f).Answers (sites ++ sites') good' := by
  intro st
  have hst := hx st
  show match EStateM.bind x f st with
    | .ok a _ => _
    | .error e _ => _
  unfold EStateM.bind
  cases hr : x st with
  | error e st₁ =>
    rw [hr] at hst
    obtain ⟨site, hsite, he⟩ := hst
    exact ⟨site, List.mem_append_left _ hsite, he⟩
  | ok a st₁ =>
    rw [hr] at hst
    have hst' := hf a hst.2 st₁
    dsimp only
    cases hr' : f a st₁ with
    | error e st₂ =>
      rw [hr'] at hst'
      obtain ⟨site, hsite, he⟩ := hst'
      exact ⟨site, List.mem_append_right _ hsite, he⟩
    | ok b st₂ =>
      rw [hr'] at hst'
      exact ⟨List.forall_mem_append.mpr ⟨hst.1, hst'.1⟩, hst'.2⟩

/-- A first step that deals with no sites. -/
theorem before (hx : x.Answers [] good) (hf : ∀ a, good a → (f a).Answers sites good') :
    (x >>= f).Answers sites good' := hx.bind hf

/-- A second step that deals with no sites. -/
theorem andThen (hx : x.Answers sites good) (hf : ∀ a, good a → (f a).Answers [] good') :
    (x >>= f).Answers sites good' := by
  have h := hx.bind hf
  rwa [List.append_nil] at h

theorem map {g : α → β} (hx : x.Answers sites good) (hg : ∀ a, good a → good' (g a)) :
    (x >>= fun a => Pure.pure (g a)).Answers sites good' :=
  hx.andThen fun a ha => .pure nofun (hg a ha)

/-- A site that is not refused may be added. -/
theorem skip (hx : x.Answers sites good) (hs : ∀ e, ¬site.Refused e) :
    x.Answers (site :: sites) good := by
  intro st
  have hst := hx st
  cases hr : x st with
  | error e st₁ =>
    rw [hr] at hst
    obtain ⟨site', hsite, he⟩ := hst
    exact ⟨site', List.mem_cons_of_mem _ hsite, he⟩
  | ok a st₁ =>
    rw [hr] at hst
    exact ⟨List.forall_mem_cons.mpr ⟨hs, hst.1⟩, hst.2⟩

/-- Sites that are not refused may be added. -/
theorem skipAll (hx : x.Answers sites' good) (hs : Site.AllAccepted sites) :
    x.Answers (sites ++ sites') good := by
  have hskip : Answers (Pure.pure () : HoistM σ Unit) sites fun _ => True := .pure hs trivial
  exact hskip.bind fun _ _ => hx

/-- Giving up for a site that is refused is the right answer for it. -/
theorem throw {e : LowerError} (h : site.Refused e) :
    Answers (MonadExcept.throw e : HoistM σ α) [site] good :=
  fun _ => ⟨site, List.mem_singleton_self _, h⟩

end HoistM.Answers

variable [NameSupply σ]

/-- Asking for a name is never refused. -/
theorem HoistM.fresh_answers (hint : String) (span : Span) :
    (HoistM.fresh hint span : HoistM σ String).Answers [] fun _ => True :=
  fun _ => ⟨nofun, trivial⟩

omit [NameSupply σ] in
theorem HoistM.countSplit_answers : (HoistM.countSplit : HoistM σ Unit).Answers [] fun _ => True :=
  fun _ => ⟨nofun, trivial⟩

end Steps

/-! ## Sites -/

/-- A suspension in the cleanup of a try is one in the try. -/
theorem Stmt.suspends_attempt_of_cleanup {body cleanup : Block} {handler : Option Block} {span : Span}
    (h : cleanup.suspends = true) : (Stmt.attempt body handler (some cleanup) span).suspends = true :=
  Bool.or_eq_true_iff.mpr (.inr h)

/-- Only what suspends is refused. -/
theorem Site.Refused.suspends {site : Site} {e : LowerError} (h : site.Refused e) :
    site.stmt.suspends = true := by
  cases h with
  | cleanup h =>
    refine Stmt.suspends_attempt_of_cleanup (Block.suspends_iff.mpr ?_)
    rw [h]
    exact List.cons_ne_nil _ _
  | switch hg hs => exact Stmt.suspends_iff.mpr hs

/-- Nothing is refused where nothing suspends. -/
theorem Stmt.allAccepted_of_plain {s : Stmt} (hs : s.suspends = false) (c : Context) :
    Site.AllAccepted (s.sites c) := by
  intro site hsite e he
  have hp : site.stmt ∈ s.parts := by
    rw [← Stmt.map_stmt_sites_eq c]
    exact List.mem_map_of_mem hsite
  have hfalse := s.suspends_parts hs _ hp
  rw [he.suspends] at hfalse
  cases hfalse

theorem Block.allAccepted_of_plain {b : Block} (hb : b.suspends = false) (c : Context) :
    Site.AllAccepted (b.sites c) := by
  intro site hsite e he
  have hp : site.stmt ∈ Stmt.partsAll b.stmts := by
    rw [← Stmt.map_stmt_sites_block c]
    exact List.mem_map_of_mem hsite
  have hfalse := b.suspends_parts hb _ hp
  rw [he.suspends] at hfalse
  cases hfalse

/-! ## Suspensions outside tries -/

/-- No suspension of the statements is inside a try with a handler. -/
def Stmt.AllPlaced (ss : List Stmt) : Prop := Stmt.findSuspensionAny false ss = none

namespace Stmt

theorem allPlaced_nil : AllPlaced [] := rfl

theorem allPlaced_cons {s : Stmt} {ss : List Stmt} :
    AllPlaced (s :: ss) ↔ s.findSuspension false = none ∧ AllPlaced ss :=
  Option.or_eq_none_iff

/-- Suspensions are placed statement by statement. -/
theorem allPlaced_append {ss ts : List Stmt} : AllPlaced (ss ++ ts) ↔ AllPlaced ss ∧ AllPlaced ts := by
  induction ss with
  | nil => exact (and_iff_right allPlaced_nil).symm
  | cons s ss ih => rw [List.cons_append, allPlaced_cons, allPlaced_cons, ih, and_assoc]

/-- Where nothing suspends no suspension is misplaced. -/
theorem findSuspension_of_plain {s : Stmt} (hs : s.suspends = false) :
    s.findSuspension false = none := by
  have hnone : s.suspensions = [] := Decidable.byContradiction fun hne => by
    rw [suspends_iff.mpr hne] at hs
    cases hs
  rw [← findSome?_misplaced s {}, List.findSome?_eq_none_iff]
  intro site hsite
  have hp : site.stmt ∈ s.parts := List.mem_map_of_mem hsite
  exact Site.misplaced?_of_not_suspension (List.filterMap_eq_nil_iff.mp hnone _ hp)

theorem suspendsAny_append (ss ts : List Stmt) :
    suspendsAny (ss ++ ts) = (suspendsAny ss || suspendsAny ts) := by
  induction ss with
  | nil => rfl
  | cons s ss ih => rw [List.cons_append, suspendsAny, suspendsAny, ih, Bool.or_assoc]

/-- What is left of a plain statement in its run does not suspend. -/
theorem suspends_runWork {s : Stmt} (hs : s.suspends = false) : suspendsAny s.runWork = false := by
  cases s with
  | declare name ty init span => cases init <;> rfl
  | method decl span => rfl
  | _ => exact Bool.or_eq_false_iff.mpr ⟨hs, rfl⟩

/-- What is put in front of a run is a declaration, so nothing suspends there. -/
theorem allPlaced_runHead (s : Stmt) : AllPlaced s.runHead := by
  cases s <;> rfl

/-- A run is placed under protection, where nothing may suspend. -/
theorem allPlaced_flush (label : String) {run : List Stmt} (h : suspendsAny run = false) :
    AllPlaced (flush label run) := by
  unfold flush
  split
  · exact allPlaced_nil
  · rw [suspends_eqAny, Option.isSome_eq_false_iff, Option.isNone_iff_eq_none] at h
    refine allPlaced_cons.mpr ⟨?_, allPlaced_nil⟩
    rw [protect, findSuspension]
    exact Option.or_eq_none_iff.mpr ⟨h, rfl⟩

/-- A split try is a try no more, so its body and its handler may suspend. -/
theorem allPlaced_splitTry {label done : String} {body handler : Block}
    (hb : body.findSuspension false = none) (hh : handler.findSuspension false = none) :
    AllPlaced (splitTry label done body handler) := by
  refine allPlaced_cons.mpr ⟨hb, allPlaced_cons.mpr ⟨rfl, allPlaced_cons.mpr ⟨hh, ?_⟩⟩⟩
  exact allPlaced_cons.mpr ⟨rfl, allPlaced_nil⟩

end Stmt

/-! ## Statements -/

section Pass

variable (σ : Type) [NameSupply σ] (hints : HoistHints)

/-- Hoisting the normalized statement answers for the sites of the statement. -/
def Stmt.Answers (s : Stmt) : Prop :=
  ∀ ⦃c : Context⦄ ⦃handler : Option String⦄, c.guarded = handler.isSome →
    (s.normalize.hoist hints handler : HoistM σ _).Answers (s.sites c) Stmt.AllPlaced

/-- The same of a branch or a body. -/
def Stmt.AnswersBody (s : Stmt) : Prop :=
  ∀ ⦃c : Context⦄ ⦃handler : Option String⦄, c.guarded = handler.isSome →
    (s.normalize.asBlock.hoistBody hints handler : HoistM σ _).Answers (s.sites c.alone)
      fun s' => s'.findSuspension false = none

/-- The same of a block. -/
def Block.Answers (b : Block) : Prop :=
  ∀ ⦃c : Context⦄ ⦃handler : Option String⦄, c.guarded = handler.isSome →
    (b.normalize.hoistIn hints handler : HoistM σ _).Answers (b.sites c)
      fun b' => b'.findSuspension false = none

/-- The same of what is behind the label of a statement, if it has one. -/
def Stmt.AnswersLabeled (s : Stmt) : Prop :=
  ∀ label body span, s = .labeled label body span → body.AnswersBody σ hints

variable {σ hints} {span : Span} {handler : Option String} {c : Context}

theorem Stmt.answers_plain {s : Stmt} (hs : s.suspends = false) : s.Answers σ hints := by
  intro c handler hc
  have hs' : s.normalize.suspends = false := by rw [Stmt.suspends_normalize, hs]
  rw [Stmt.hoist_plain hs']
  exact .pure (Stmt.allAccepted_of_plain hs c)
    (Stmt.allPlaced_cons.mpr ⟨Stmt.findSuspension_of_plain hs', Stmt.allPlaced_nil⟩)

/-- A suspension by itself is always accepted: only what stands around it is refused. -/
theorem Stmt.answers_suspend {kind : SuspendKind} {value : Option Expr} :
    (Stmt.suspend kind value span).Answers σ hints := by
  intro c handler hc
  rw [Stmt.normalize, Stmt.hoist_suspend, Stmt.sites]
  refine .pure (List.forall_mem_singleton.mpr nofun) ?_
  exact Stmt.allPlaced_cons.mpr ⟨rfl, Stmt.allPlaced_nil⟩

theorem Stmt.allPlaced_singleton {s : Stmt} (h : s.findSuspension false = none) : Stmt.AllPlaced [s] :=
  Stmt.allPlaced_cons.mpr ⟨h, Stmt.allPlaced_nil⟩

/-- A block is refused for what stands in it. -/
theorem Stmt.answers_block {b : Block} (hs : (Stmt.block b span).suspends = true)
    (hb : b.Answers σ hints) : (Stmt.block b span).Answers σ hints := by
  intro c handler hc
  have hs' : (Stmt.block b span).normalize.suspends = true := by rw [Stmt.suspends_normalize, hs]
  rw [Stmt.normalize] at hs' ⊢
  rw [Stmt.hoist_block hs', Stmt.sites]
  refine .skip (.map (hb hc) fun b' hb' => ?_) fun e he => nomatch he
  exact Stmt.allPlaced_singleton hb'

theorem Stmt.answers_labeled {label : String} {body : Stmt}
    (hs : (Stmt.labeled label body span).suspends = true) (hbody : body.AnswersBody σ hints) :
    (Stmt.labeled label body span).Answers σ hints := by
  intro c handler hc
  have hs' : (Stmt.labeled label body span).normalize.suspends = true := by
    rw [Stmt.suspends_normalize, hs]
  rw [Stmt.normalize] at hs' ⊢
  rw [Stmt.hoist_labeled hs', Stmt.sites]
  refine .skip (.map (hbody hc) fun s' hs' => ?_) fun e he => nomatch he
  exact Stmt.allPlaced_singleton hs'

/-- A condition that is evaluated ahead is never refused. -/
theorem Expr.guard_answers (span : Span) (test : Expr) :
    (test.guard hints handler span : HoistM σ _).Answers [] fun out => Stmt.AllPlaced out.1 := by
  unfold Expr.guard
  cases handler with
  | none => exact .pure nofun Stmt.allPlaced_nil
  | some label =>
    by_cases ht : test.isTrivial = true
    · simp only [if_pos ht]
      exact .pure nofun Stmt.allPlaced_nil
    · simp only [if_neg ht]
      exact (HoistM.fresh_answers _ _).map fun cond _ => rfl

theorem Stmt.answersOption {no : Option Stmt} (hno : ∀ s ∈ no, s.AnswersBody σ hints)
    (hc : c.guarded = handler.isSome) :
    (Stmt.hoistBodyOption hints handler (Stmt.normalizeOption no) : HoistM σ _).Answers
      (Stmt.sitesOption c.alone no) fun no' => Stmt.findSuspensionOption false no' = none := by
  cases no with
  | none =>
    rw [Stmt.normalizeOption, Stmt.hoistBodyOption]
    exact .pure nofun rfl
  | some s =>
    rw [Stmt.normalizeOption, Stmt.hoistBodyOption]
    exact (hno s rfl hc).map fun s' hs' => hs'

/-- An `if` is refused for what stands in its branches. -/
theorem Stmt.answers_ite {test : Expr} {yes : Stmt} {no : Option Stmt}
    (hs : (Stmt.ite test yes no span).suspends = true) (hyes : yes.AnswersBody σ hints)
    (hno : ∀ s ∈ no, s.AnswersBody σ hints) : (Stmt.ite test yes no span).Answers σ hints := by
  intro c handler hc
  have hs' : (Stmt.ite test yes no span).normalize.suspends = true := by
    rw [Stmt.suspends_normalize, hs]
  rw [Stmt.normalize] at hs' ⊢
  rw [Stmt.hoist_ite hs', Stmt.sites]
  refine .skip (.before (Expr.guard_answers span test) fun out hout => ?_) fun e he => nomatch he
  refine (hyes hc).bind fun yes' hyes' => (Stmt.answersOption hno hc).map fun no' hno' => ?_
  refine Stmt.allPlaced_append.mpr ⟨hout, Stmt.allPlaced_singleton ?_⟩
  exact Option.or_eq_none_iff.mpr ⟨hyes', hno'⟩

theorem Stmt.answers_loop {test : Expr} {body : Stmt} (hs : (Stmt.loop test body span).suspends = true)
    (hbody : body.AnswersBody σ hints) : (Stmt.loop test body span).Answers σ hints := by
  intro c handler hc
  have hs' : (Stmt.loop test body span).normalize.suspends = true := by rw [Stmt.suspends_normalize, hs]
  rw [Stmt.normalize] at hs' ⊢
  rw [Stmt.hoist_loop hs', Stmt.sites]
  refine .skip (.andThen (hbody hc) fun body' hbody' => ?_) fun e he => nomatch he
  by_cases hsplit : (handler.isSome && !test.isTrivial) = true
  · rw [if_pos hsplit]
    refine (Expr.guard_answers span test).map fun out hout => Stmt.allPlaced_singleton ?_
    refine Stmt.allPlaced_append.mpr ⟨hout, Stmt.allPlaced_cons.mpr ⟨rfl, ?_⟩⟩
    exact Stmt.allPlaced_singleton hbody'
  · rw [if_neg hsplit]
    exact .pure nofun (Stmt.allPlaced_singleton hbody')

/-! ## Tries -/

omit [NameSupply σ] in
/-- **A try is refused if its cleanup suspends**, before anything else of it is looked at. -/
theorem Block.refuseSuspension_answers (body : Block) (catcher cleanup : Option Block) :
    (Block.refuseSuspension span (Block.normalizeOption cleanup) : HoistM σ Unit).Answers
      [⟨.attempt body catcher cleanup span, c⟩] fun _ => True := by
  cases cleanup with
  | none => exact .pure (List.forall_mem_singleton.mpr nofun) trivial
  | some k =>
    rw [Block.normalizeOption, Block.refuseSuspension, Block.suspends_normalize,
      Block.findSuspension_normalize, Block.findSuspension_true]
    by_cases hk : k.suspends = true
    · rw [if_pos hk]
      obtain ⟨first, rest, hsus⟩ := List.exists_cons_of_ne_nil (Block.suspends_iff.mp hk)
      rw [hsus, List.head?_cons, Option.getD_some]
      exact .throw (.cleanup hsus)
    · rw [if_neg hk]
      refine .pure (List.forall_mem_singleton.mpr fun e he => ?_) trivial
      cases he with
      | cleanup h =>
        refine hk (Block.suspends_iff.mpr ?_)
        rw [h]
        exact List.cons_ne_nil _ _

theorem Block.answersOption {b : Option Block} (hb : ∀ k ∈ b, k.Answers σ hints)
    (hc : c.guarded = handler.isSome) :
    (Block.hoistOption hints handler (Block.normalizeOption b) : HoistM σ _).Answers
      (Block.sitesOption c b) fun b' => Block.findSuspensionOption false b' = none := by
  cases b with
  | none =>
    rw [Block.normalizeOption, Block.hoistOption]
    exact .pure nofun rfl
  | some b =>
    rw [Block.normalizeOption, Block.hoistOption]
    exact (hb b rfl hc).map fun b' hb' => hb'

/-- A try without a handler protects nothing, so nothing changes for its body. -/
theorem Stmt.answers_attempt {body : Block} {cleanup : Option Block}
    (hs : (Stmt.attempt body none cleanup span).suspends = true) (hbody : body.Answers σ hints)
    (hcleanup : ∀ k ∈ cleanup, k.Answers σ hints) :
    (Stmt.attempt body none cleanup span).Answers σ hints := by
  intro c handler hc
  have hs' : (Stmt.attempt body none cleanup span).normalize.suspends = true := by
    rw [Stmt.suspends_normalize, hs]
  rw [Stmt.normalize, Block.normalizeOption] at hs' ⊢
  rw [Stmt.hoist_attempt hs', Stmt.sites]
  refine .bind (Block.refuseSuspension_answers body none cleanup) fun _ _ => ?_
  have hc' : (c.inBody false).guarded = handler.isSome := hc ▸ Bool.or_false _
  refine .bind (hbody hc') fun body' hbody' => .map (Block.answersOption hcleanup ?_)
    fun cleanup' hcleanup' => Stmt.allPlaced_singleton ?_
  · exact hc
  · exact Option.or_eq_none_iff.mpr ⟨hbody', Option.or_eq_none_iff.mpr ⟨rfl, hcleanup'⟩⟩

/-- The body of a try that is split is looked at as standing under a handler. -/
theorem Stmt.answers_split {body catcher : Block}
    (hs : (Stmt.attempt body (some catcher) none span).suspends = true)
    (hbody : body.Answers σ hints) (hcatcher : catcher.Answers σ hints) :
    (Stmt.attempt body (some catcher) none span).Answers σ hints := by
  intro c handler hc
  have hs' : (Stmt.attempt body (some catcher) none span).normalize.suspends = true := by
    rw [Stmt.suspends_normalize, hs]
  rw [Stmt.normalize, Block.normalizeOption] at hs' ⊢
  rw [Block.normalizeOption] at hs' ⊢
  rw [Stmt.hoist_split hs', Stmt.sites]
  refine .bind (Block.refuseSuspension_answers body (some catcher) none) fun _ _ => ?_
  refine .before (HoistM.fresh_answers _ _) fun label _ => ?_
  refine .before (HoistM.fresh_answers _ _) fun done _ => .before HoistM.countSplit_answers fun _ _ => ?_
  refine .bind (hbody (Bool.or_true _)) fun body' hbody' => ?_
  rw [Block.sitesOption, Block.sitesOption, List.append_nil]
  exact .map (hcatcher hc) fun catcher' hcatcher' => Stmt.allPlaced_splitTry hbody' hcatcher'

theorem Stmt.answers_splitCleanup {body catcher cleanup : Block}
    (hs : (Stmt.attempt body (some catcher) (some cleanup) span).suspends = true)
    (hbody : body.Answers σ hints) (hcatcher : catcher.Answers σ hints)
    (hcleanup : cleanup.Answers σ hints) :
    (Stmt.attempt body (some catcher) (some cleanup) span).Answers σ hints := by
  intro c handler hc
  have hs' : (Stmt.attempt body (some catcher) (some cleanup) span).normalize.suspends = true := by
    rw [Stmt.suspends_normalize, hs]
  rw [Stmt.normalize, Block.normalizeOption] at hs' ⊢
  rw [Block.normalizeOption] at hs' ⊢
  rw [Stmt.hoist_splitCleanup hs', Stmt.sites]
  refine .bind (Block.refuseSuspension_answers body (some catcher) (some cleanup)) fun _ _ => ?_
  refine .before (HoistM.fresh_answers _ _) fun label _ => ?_
  refine .before (HoistM.fresh_answers _ _) fun done _ => .before HoistM.countSplit_answers fun _ _ => ?_
  refine .bind (hbody (Bool.or_true _)) fun body' hbody' => ?_
  refine .bind (hcatcher hc) fun catcher' hcatcher' => .map (hcleanup hc) fun cleanup' hcleanup' => ?_
  exact Stmt.allPlaced_singleton (Option.or_eq_none_iff.mpr
    ⟨Stmt.allPlaced_splitTry hbody' hcatcher', hcleanup'⟩)

/-! ## Switches and blocks -/

theorem Case.answersAll {cases : List Case} (hcases : ∀ case ∈ cases, case.body.Answers σ hints)
    (hc : c.guarded = false) :
    (Case.hoistAll hints (Case.normalizeAll cases) : HoistM σ _).Answers (Case.sitesAll c cases)
      fun cases' => Case.findSuspensionAny false cases' = none := by
  induction cases with
  | nil =>
    rw [Case.normalizeAll, Case.hoistAll]
    exact .pure nofun rfl
  | cons case rest ih =>
    obtain ⟨test, body⟩ := case
    rw [List.forall_mem_cons] at hcases
    rw [Case.normalizeAll, Case.hoistAll, Case.sitesAll]
    refine .bind (hcases.1 hc) fun body' hbody' => .map (ih hcases.2) fun rest' hrest' => ?_
    exact Option.or_eq_none_iff.mpr ⟨hbody', hrest'⟩

/-- **A switch that suspends is refused under a handler** and nowhere else. -/
theorem Stmt.answers_switch {discriminant : Expr} {cases : List Case}
    (hs : (Stmt.switch discriminant cases span).suspends = true)
    (hcases : ∀ case ∈ cases, case.body.Answers σ hints) :
    (Stmt.switch discriminant cases span).Answers σ hints := by
  intro c handler hc
  have hs' : (Stmt.switch discriminant cases span).normalize.suspends = true := by
    rw [Stmt.suspends_normalize, hs]
  rw [Stmt.normalize] at hs' ⊢
  rw [Stmt.hoist_switch hs', Stmt.sites]
  by_cases hh : handler.isSome = true
  · rw [if_pos hh]
    exact fun _ => ⟨_, List.mem_cons_self, .switch (hc.trans hh) (Stmt.suspends_iff.mp hs)⟩
  · rw [if_neg hh]
    have hfree : c.guarded = false := hc.trans (Bool.eq_false_iff.mpr hh)
    refine .skip (.map (Case.answersAll hcases hfree) fun cases' hcases' => ?_) fun e he => ?_
    · exact Stmt.allPlaced_singleton hcases'
    · cases he with
      | switch hg _ =>
        rw [hfree] at hg
        cases hg

/-- Statements under no handler answer one after the other. -/
theorem Stmt.answersAll {ss before : List Stmt} (hss : ∀ s ∈ ss, s.Answers σ hints)
    (hc : c.guarded = false) :
    (Stmt.hoistAll hints (Stmt.normalizeAll ss) : HoistM σ _).Answers (Stmt.sitesFrom c before ss)
      Stmt.AllPlaced := by
  induction ss generalizing c before with
  | nil =>
    rw [Stmt.normalizeAll, Stmt.hoistAll]
    exact .pure nofun Stmt.allPlaced_nil
  | cons s ss ih =>
    rw [List.forall_mem_cons] at hss
    rw [Stmt.normalizeAll, Stmt.hoistAll, Stmt.sitesFrom]
    refine .bind (hss.1 hc) fun out hout => .map (ih hss.2 hc) fun more hmore => ?_
    exact Stmt.allPlaced_append.mpr ⟨hout, hmore⟩

/-- Under a handler the run that was collected suspends nowhere, so it may be put under protection. -/
theorem Stmt.answersRun {ss before run : List Stmt} {label : String}
    (hss : ∀ s ∈ ss, s.Answers σ hints ∧ s.AnswersLabeled σ hints) (hc : c.guarded = true)
    (hrun : Stmt.suspendsAny run = false) :
    (Stmt.hoistRun hints label run (Stmt.normalizeAll ss) : HoistM σ _).Answers
      (Stmt.sitesFrom c before ss) Stmt.AllPlaced := by
  -- The invariant is that nothing collected in `run` suspends.
  induction ss generalizing c before run with
  | nil =>
    rw [Stmt.normalizeAll, Stmt.hoistRun_nil]
    exact .pure nofun (Stmt.allPlaced_flush label hrun)
  | cons s ss ih =>
    rw [List.forall_mem_cons] at hss
    obtain ⟨⟨hanswers, hlabeled⟩, hss⟩ := hss
    rw [Stmt.normalizeAll, Stmt.sitesFrom]
    by_cases hsus : s.suspends = true
    · rw [Stmt.hoistRun_suspends (by rw [Stmt.suspends_normalize, hsus])]
      refine .bind (@hanswers _ (some label) hc) fun out hout => ?_
      refine .map (ih hss hc rfl) fun more hmore => ?_
      exact Stmt.allPlaced_append.mpr
        ⟨Stmt.allPlaced_append.mpr ⟨Stmt.allPlaced_flush label hrun, hout⟩, hmore⟩
    · have hplain := Bool.eq_false_iff.mpr hsus
      have hplain' : s.normalize.suspends = false := by rw [Stmt.suspends_normalize, hplain]
      -- Of the statements that do not suspend only a labeled one ends the run.
      by_cases hl : Stmt.labels [s.normalize] = []
      · rw [Stmt.hoistRun_plain hplain' hl]
        have hrun' : Stmt.suspendsAny (run ++ s.normalize.runWork) = false := by
          rw [Stmt.suspendsAny_append, hrun, Stmt.suspends_runWork hplain', Bool.or_false]
        refine .skipAll (.map (ih hss hc hrun') fun more hmore => ?_) (Stmt.allAccepted_of_plain hplain _)
        exact Stmt.allPlaced_append.mpr ⟨Stmt.allPlaced_runHead _, hmore⟩
      · cases s with
        | labeled target body span =>
          have hbody : body.normalize.asBlock.suspends = false := by
            rw [Stmt.normalize] at hplain'
            exact hplain'
          rw [Stmt.normalize, Stmt.hoistRun_labeled hbody, Stmt.sites]
          refine .skip (.bind (@hlabeled _ _ _ rfl _ (some label) hc) fun body' hbody' => ?_)
            fun e he => nomatch he
          refine .map (ih hss hc rfl) fun more hmore => ?_
          exact Stmt.allPlaced_append.mpr
            ⟨Stmt.allPlaced_flush label hrun, Stmt.allPlaced_cons.mpr ⟨hbody', hmore⟩⟩
        | _ =>
          rw [Stmt.normalize] at hl
          exact absurd rfl hl

theorem Block.answers_mk {stmts : List Stmt}
    (hss : ∀ s ∈ stmts, s.Answers σ hints ∧ s.AnswersLabeled σ hints) :
    (Block.mk stmts span).Answers σ hints := by
  intro c handler hc
  rw [Block.normalize, Block.sites]
  cases handler with
  | none =>
    rw [Block.hoistIn]
    exact .map (Stmt.answersAll (fun s hs => (hss s hs).1) hc) fun out hout => hout
  | some label =>
    rw [Block.hoistIn]
    exact .map (Stmt.answersRun hss hc rfl) fun out hout => hout

theorem Stmt.answersBody_block {b : Block} (hb : b.Answers σ hints) :
    (Stmt.block b span).AnswersBody σ hints := by
  intro c handler hc
  rw [Stmt.normalize, Stmt.asBlock, Stmt.hoistBody, Stmt.sites]
  exact .skip (.map (hb hc) fun b' hb' => hb') fun e he => nomatch he

/-- A statement that is no block is put into one. -/
theorem Stmt.answersBody_of_asBlock {s : Stmt} {span : Span}
    (hs : s.normalize.asBlock = .block (Block.mk [s] span).normalize span)
    (hb : (Block.mk [s] span).Answers σ hints) : s.AnswersBody σ hints := by
  intro c handler hc
  have hsites : (Block.mk [s] span).sites c.alone = s.sites c.alone := List.append_nil _
  rw [hs, Stmt.hoistBody, ← hsites]
  exact .map (hb hc) fun b' hb' => hb'

end Pass

/-! ## The pass -/

section Whole

variable (σ : Type) [NameSupply σ] (hints : HoistHints)

mutual

/-- **Every statement answers**, by its kind. -/
theorem Stmt.answers (s : Stmt) : s.Answers σ hints := by
  by_cases hs : s.suspends = true
  · cases s with
    | block body span => exact Stmt.answers_block hs (Block.answers body)
    | labeled label body span => exact Stmt.answers_labeled hs (Stmt.answersBody body)
    | ite test yes no span =>
      exact Stmt.answers_ite hs (Stmt.answersBody yes) (Stmt.answersBodyOption no)
    | loop test body span => exact Stmt.answers_loop hs (Stmt.answersBody body)
    | attempt body catcher cleanup span =>
      have hbody := Block.answers body
      have hcatcher := Block.answersEach catcher
      have hcleanup := Block.answersEach cleanup
      cases catcher with
      | none => exact Stmt.answers_attempt hs hbody hcleanup
      | some catcher =>
        cases cleanup with
        | none => exact Stmt.answers_split hs hbody (hcatcher _ rfl)
        | some cleanup => exact Stmt.answers_splitCleanup hs hbody (hcatcher _ rfl) (hcleanup _ rfl)
    | switch discriminant cases span => exact Stmt.answers_switch hs (Case.answersEach cases)
    | suspend kind value span => exact Stmt.answers_suspend
    | goto _ _ | exit _ | next _ | eval _ _ | declare _ _ _ _ | ret _ _ | raise _ _ | method _ _ =>
      cases hs
  · exact Stmt.answers_plain (Bool.eq_false_iff.mpr hs)

/-- A branch that is no block is put into one first. -/
theorem Stmt.answersBody (s : Stmt) : s.AnswersBody σ hints := by
  have hmk : (Block.mk [s] s.span).Answers σ hints := Block.answers_mk (List.forall_mem_singleton.mpr
    ⟨Stmt.answers s, Stmt.answersLabeled s⟩)
  cases s with
  | block body span => exact Stmt.answersBody_block (Block.answers body)
  | _ =>
    refine Stmt.answersBody_of_asBlock ?_ hmk
    rw [Block.normalize, Stmt.normalizeAll, Stmt.normalizeAll, Stmt.normalize]
    rfl

theorem Stmt.answersBodyOption (s : Option Stmt) : ∀ t ∈ s, t.AnswersBody σ hints := by
  cases s with
  | none => exact nofun
  | some s =>
    rintro _ ⟨⟩
    exact Stmt.answersBody s

theorem Stmt.answersLabeled (s : Stmt) : s.AnswersLabeled σ hints := by
  cases s with
  | labeled label body span =>
    rintro _ _ _ ⟨⟩
    exact Stmt.answersBody body
  | _ => exact fun _ _ _ => nofun

theorem Stmt.answersEach (ss : List Stmt) :
    ∀ s ∈ ss, s.Answers σ hints ∧ s.AnswersLabeled σ hints := by
  cases ss with
  | nil => exact nofun
  | cons s ss =>
    exact List.forall_mem_cons.mpr ⟨⟨Stmt.answers s, Stmt.answersLabeled s⟩, Stmt.answersEach ss⟩

/-- **Hoisting answers for the sites of a body.** -/
theorem Block.answers (b : Block) : b.Answers σ hints := by
  cases b with
  | mk stmts span => exact Block.answers_mk (Stmt.answersEach stmts)

theorem Block.answersEach (b : Option Block) : ∀ k ∈ b, k.Answers σ hints := by
  cases b with
  | none => exact nofun
  | some b =>
    rintro _ ⟨⟩
    exact Block.answers b

theorem Case.answersEach (cases : List Case) : ∀ case ∈ cases, case.body.Answers σ hints := by
  cases cases with
  | nil => exact nofun
  | cons case rest =>
    cases case with
    | mk test body => exact List.forall_mem_cons.mpr ⟨Block.answers body, Case.answersEach rest⟩

end

end Whole

/-- Hoisting a body gives up for a site that is refused, or else it accepts all sites and misplaces no
suspension. -/
theorem Block.hoist_answers {σ : Type} [NameSupply σ] (hints : HoistHints) (body : Block) (names : σ) :
    (∃ e site, (body.hoist hints names).1 = .error e ∧ site ∈ body.sites {} ∧ site.Refused e) ∨
      ∃ h, (body.hoist hints names).1 = .ok h ∧ Site.AllAccepted (body.sites {}) ∧
        h.body.misplaced? = none := by
  unfold Block.hoist
  by_cases hs : body.suspends = true
  · rw [if_pos hs]
    have hanswer := @Block.answers σ _ hints body {} none rfl ⟨names, 0⟩
    cases hr : body.normalize.hoistIn hints none ⟨names, 0⟩ with
    | error e st =>
      rw [hr] at hanswer
      obtain ⟨site, hsite, he⟩ := hanswer
      exact .inl ⟨e, site, rfl, hsite, he⟩
    | ok b' st =>
      rw [hr] at hanswer
      have hplaced : b'.misplaced? = none := hanswer.2
      dsimp only
      rw [hplaced]
      exact .inr ⟨_, rfl, hanswer.1, hplaced⟩
  · rw [if_neg hs]
    have hplain := Bool.eq_false_iff.mpr hs
    refine .inr ⟨_, rfl, Block.allAccepted_of_plain hplain {}, ?_⟩
    exact Stmt.findSuspension_of_plain (s := .block body .dummy) hplain

/-- **Hoisting refuses what it must, and misplaces nothing.** It gives up exactly if a cleanup suspends
or a switch suspends in the body of a try with a handler, for one of these. In what it returns no
suspension is inside a try with a handler. -/
theorem Block.hoist_exact {σ : Type} [NameSupply σ] (hints : HoistHints) (body : Block) (names : σ) :
    ((∃ e, (body.hoist hints names).1 = .error e) ↔ ∃ site ∈ body.sites {}, ∃ e, site.Refused e) ∧
      (∀ e, (body.hoist hints names).1 = .error e → ∃ site ∈ body.sites {}, site.Refused e) ∧
      ∀ h, (body.hoist hints names).1 = .ok h →
        ∀ site ∈ h.body.sites {}, site.stmt.suspension? ≠ none → site.context.inside = false := by
  rcases Block.hoist_answers hints body names with ⟨e, site, he, hsite, hrefused⟩ | ⟨h, hh, hall, hplaced⟩
  · rw [he]
    refine ⟨⟨fun _ => ⟨site, hsite, e, hrefused⟩, fun _ => ⟨e, rfl⟩⟩, ?_, nofun⟩
    rintro _ ⟨⟩
    exact ⟨site, hsite, hrefused⟩
  · rw [hh]
    refine ⟨⟨nofun, fun ⟨site, hsite, e, hrefused⟩ => absurd hrefused (hall site hsite e)⟩, nofun, ?_⟩
    rintro _ ⟨⟩ site hsite hsus
    have hnone : (h.body.sites {}).findSome? Site.misplaced? = none :=
      (Block.findSome?_misplaced h.body {}).trans hplaced
    have hsite' := List.findSome?_eq_none_iff.mp hnone site hsite
    -- a suspension that is inside would be found
    refine Bool.eq_false_iff.mpr fun hinside => hsus ?_
    rwa [Site.misplaced?, if_pos hinside] at hsite'

end Lowering
