import Lowering.Proofs.Hoist.Refusals
import Lowering.Proofs.Hoist.WellFormed
import Lowering.Proofs.Tree.Normal

/-!
# Hoisting twice is hoisting once

A hoisted body is *settled*: it is normalized, and the pass leaves each of its statements as it is, for
any supply of names and any hints. So hoisting it again changes nothing and asks for nothing
(`Block.hoist_hoisted`).

`Stmt.Settled` says this of a statement. It is shown for each kind of statement from its parts, and from
there for all that the rules of hoisting make.
-/

namespace Lowering

section Kinds

variable (σ : Type) [NameSupply σ] (hints : HoistHints)

/-- Neither normalizing nor hoisting changes the statement. -/
structure Stmt.Settled (s : Stmt) : Prop where
  normal : s.Normal
  stays : (s.hoist hints none : HoistM σ _) = pure [s]

/-- Neither normalizing nor hoisting changes a statement of the block. -/
def Block.Settled (b : Block) : Prop := ∀ s ∈ b.stmts, s.Settled σ hints

variable {σ hints}

theorem Block.Settled.normal {b : Block} (h : b.Settled σ hints) : Stmt.AllNormal b.stmts :=
  fun s hs => (h s hs).normal

/-- Statements that are settled are left as they are, one by one. -/
theorem Stmt.hoistAll_settled {ss : List Stmt} (h : ∀ s ∈ ss, s.Settled σ hints) :
    (Stmt.hoistAll hints ss : HoistM σ _) = pure ss := by
  induction ss with
  | nil => rw [Stmt.hoistAll]
  | cons s ss ih =>
    rw [List.forall_mem_cons] at h
    rw [Stmt.hoistAll, h.1.stays, pure_bind, ih h.2, pure_bind, List.singleton_append]

/-- A settled block is left as it is outside of all handlers. -/
theorem Block.Settled.hoistIn {b : Block} (h : b.Settled σ hints) :
    (b.hoistIn hints none : HoistM σ _) = pure b := by
  cases b with
  | mk stmts span => rw [Block.hoistIn, Stmt.hoistAll_settled h, pure_bind]

namespace Stmt.Settled

variable {b c : Block} {span bspan cspan : Span} {test : Expr} {s : Stmt}

/-- A normal statement that does not suspend is settled. -/
theorem plain (hs : s.suspends = false) (hn : s.Normal) : s.Settled σ hints :=
  ⟨hn, Stmt.hoist_plain hs⟩

/-- Of a statement that suspends it must be shown that hoisting leaves it. -/
theorem of_stays (hn : s.Normal)
    (h : s.suspends = true → (s.hoist hints none : HoistM σ _) = pure [s]) : s.Settled σ hints := by
  by_cases hs : s.suspends = true
  · exact ⟨hn, h hs⟩
  · exact plain (Bool.eq_false_iff.mpr hs) hn

theorem block (hb : b.Settled σ hints) : (Stmt.block b span).Settled σ hints :=
  of_stays (normal_block.mpr hb.normal) fun hs => by
    rw [Stmt.hoist_block hs, hb.hoistIn, pure_bind]

theorem hoistBody (hb : b.Settled σ hints) :
    ((Stmt.block b bspan).hoistBody hints none : HoistM σ _) = pure (.block b bspan) := by
  rw [Stmt.hoistBody, hb.hoistIn, pure_bind]

/-- A statement is settled if the block in it is: so for labels, loops and branches. -/
theorem labeled {label : String} (hb : b.Settled σ hints) :
    (Stmt.labeled label (.block b bspan) span).Settled σ hints :=
  of_stays (normal_labeled.mpr hb.normal) fun hs => by
    rw [Stmt.hoist_labeled hs, hoistBody hb, pure_bind]

theorem loop (hb : b.Settled σ hints) : (Stmt.loop test (.block b bspan) span).Settled σ hints :=
  of_stays (normal_loop.mpr hb.normal) fun hs => by
    rw [Stmt.hoist_loop hs, hoistBody hb, pure_bind]
    rfl

theorem ite (hb : b.Settled σ hints) : (Stmt.ite test (.block b bspan) none span).Settled σ hints :=
  of_stays (normal_ite.mpr hb.normal) fun hs => by
    rw [Stmt.hoist_ite hs, hoistBody hb]
    rfl

theorem iteElse (hb : b.Settled σ hints) (hc : c.Settled σ hints) :
    (Stmt.ite test (.block b bspan) (some (.block c cspan)) span).Settled σ hints :=
  of_stays (normal_iteElse.mpr ⟨hb.normal, hc.normal⟩) fun hs => by
    rw [Stmt.hoist_ite hs, hoistBody hb, Stmt.hoistBodyOption, hoistBody hc]
    rfl

/-- A try without a handler, whose cleanup does not suspend. -/
theorem attempt {cleanup : Option Block} (hb : b.Settled σ hints)
    (hk : ∀ k ∈ cleanup, k.Settled σ hints ∧ k.suspends = false) :
    (Stmt.attempt b none cleanup span).Settled σ hints := by
  have hn : (Stmt.attempt b none cleanup span).Normal :=
    normal_attempt.mpr ⟨hb.normal, fun k hk => absurd hk (Option.not_mem_none k),
      fun k h => (hk k h).1.normal⟩
  refine of_stays hn fun hs => ?_
  rw [Stmt.hoist_attempt hs, hb.hoistIn]
  cases cleanup with
  | none => rfl
  | some k =>
    obtain ⟨hsettled, hplain⟩ := hk k rfl
    rw [Block.refuseSuspension, if_neg (Bool.eq_false_iff.mp hplain), Block.hoistOption, hsettled.hoistIn]
    rfl

theorem switch {discriminant : Expr} {cases : List Case}
    (hc : ∀ case ∈ cases, case.body.Settled σ hints) :
    (Stmt.switch discriminant cases span).Settled σ hints := by
  have hcases : (Case.hoistAll hints cases : HoistM σ _) = pure cases := by
    induction cases with
    | nil => rw [Case.hoistAll]
    | cons case rest ih =>
      rw [List.forall_mem_cons] at hc
      cases case with
      | mk test body => rw [Case.hoistAll, hc.1.hoistIn, pure_bind, ih hc.2, pure_bind]
  refine of_stays (normal_switch.mpr fun case h => (hc case h).normal) fun hs => ?_
  rw [Stmt.hoist_switch hs, hcases]
  rfl

end Stmt.Settled

end Kinds

/-! ## Runs -/

namespace Stmt

/-- The statements may be collected into a run: they are normal, and none of them suspends. -/
structure IsRun (run : List Stmt) : Prop where
  normal : AllNormal run
  plain : suspendsAny run = false

variable {label : String} {run : List Stmt}

theorem IsRun.nil : IsRun [] := ⟨List.forall_mem_nil _, rfl⟩

/-- A run goes on with a plain statement and still does not suspend. -/
theorem suspendsAny_collect {s : Stmt} (hr : suspendsAny run = false) (hs : s.suspends = false) :
    suspendsAny (run ++ s.runWork) = false := by
  rw [suspendsAny_append, hr, suspends_runWork hs, Bool.or_false]

/-- What is collected in a run is normal. -/
theorem IsRun.collect {s : Stmt} (hr : IsRun run) (hs : s.suspends = false) (hn : s.Normal) :
    IsRun (run ++ s.runWork) := by
  refine ⟨List.forall_mem_append.mpr ⟨hr.normal, ?_⟩, suspendsAny_collect hr.plain hs⟩
  cases s with
  | declare name ty init span =>
    intro r hr
    obtain ⟨e, -, rfl⟩ := List.mem_map.mp hr
    rw [Normal, normalize]
  | method decl span => exact List.forall_mem_nil _
  | _ => exact List.forall_mem_singleton.mpr hn

/-- A protected run does not suspend. -/
theorem suspends_protect (h : suspendsAny run = false) : (protect label run).suspends = false := by
  rw [protect, suspends, Block.suspends, h]
  rfl

theorem suspendsAny_flush (h : suspendsAny run = false) : suspendsAny (flush label run) = false := by
  unfold flush
  split
  · rfl
  · rw [suspendsAny, suspends_protect h]
    rfl

theorem suspends_runHead (s : Stmt) : suspendsAny s.runHead = false := by
  cases s <;> rfl

section Settled

variable {σ : Type} [NameSupply σ] {hints : HoistHints}

/-- Of a run, one plain try is made. -/
theorem IsRun.settled_protect (h : IsRun run) : (protect label run).Settled σ hints := by
  refine .plain (suspends_protect h.plain) (normal_attempt.mpr ⟨h.normal, ?_, ?_⟩)
  · rintro _ ⟨⟩
    exact List.forall_mem_singleton.mpr (by rw [Normal, normalize])
  · intro k hk
    cases hk

/-- A run under protection has a handler, but nothing in it suspends, so it is settled. -/
theorem IsRun.settled_flush (h : IsRun run) : ∀ o ∈ flush label run, o.Settled σ hints := by
  unfold flush
  split
  · exact List.forall_mem_nil _
  · exact List.forall_mem_singleton.mpr h.settled_protect

theorem settled_runHead (s : Stmt) : ∀ o ∈ s.runHead, o.Settled σ hints := by
  cases s with
  | declare name ty init span =>
    exact List.forall_mem_singleton.mpr (.plain rfl (by rw [Normal, normalize]))
  | method decl span =>
    exact List.forall_mem_singleton.mpr (.plain rfl (by rw [Normal, normalize]))
  | _ => exact List.forall_mem_nil _

end Settled

end Stmt

/-- Where nothing suspends, nothing does afterwards. -/
theorem HoistsAll.plain : ∀ {handler run ss coined out}, HoistsAll handler run ss coined out →
    Stmt.suspendsAny run = false → Stmt.suspendsAny ss = false → Stmt.suspendsAny out = false
  | _, _, _, _, _, .nil, _, _ => rfl
  | _, _, _, _, _, .cons hs hss, _, h => by
    obtain ⟨h, h'⟩ := Bool.or_eq_false_iff.mp h
    rw [(hs.of_plain h).2, Stmt.suspendsAny_append, hss.plain rfl h', Bool.or_false]
    exact Bool.or_eq_false_iff.mpr ⟨h, rfl⟩
  | _, _, _, _, _, .flush, hr, _ => Stmt.suspendsAny_flush hr
  | _, _, _, _, _, .suspends hs _ _, _, h => by
    rw [Stmt.suspendsAny, hs] at h
    cases h
  | _, _, _, _, _, @HoistsAll.labeled label run target b _ _ ss _ out _ more hb hout hss, hr, h => by
    have hout' : Stmt.suspendsAny out = false := hout.plain rfl (by cases b; exact hb)
    have hmore : Stmt.suspendsAny more = false := hss.plain rfl (Bool.or_eq_false_iff.mp h).2
    rw [Stmt.suspendsAny_append, Stmt.suspendsAny_flush hr, Bool.false_or]
    exact Bool.or_eq_false_iff.mpr ⟨hout', hmore⟩
  | _, _, _, _, _, .collect hs _ hss, hr, h => by
    have hrun := Stmt.suspendsAny_collect hr hs
    rw [Stmt.suspendsAny_append, Stmt.suspends_runHead, hss.plain hrun (Bool.or_eq_false_iff.mp h).2,
      Bool.or_false]

/-! ## What the rules make -/

section Pass

variable {σ : Type} [NameSupply σ] {hints : HoistHints}

theorem Expr.settled_guarding (label cond : String) (test : Expr) (span : Span) :
    ∀ o ∈ test.guarding label cond span, o.Settled σ hints := by
  refine List.forall_mem_cons.mpr ⟨.plain rfl (by rw [Stmt.Normal, Stmt.normalize]), ?_⟩
  refine List.forall_mem_singleton.mpr (Stmt.IsRun.settled_protect ⟨?_, rfl⟩)
  exact List.forall_mem_singleton.mpr (by rw [Stmt.Normal, Stmt.normalize])

/-- The statements that evaluate a condition ahead are settled. -/
theorem Guards.settled {handler : Option String} {span : Span} {test test' : Expr}
    {coined : List Coined} {before : List Stmt} (h : Guards handler span test coined before test') :
    ∀ o ∈ before, o.Settled σ hints := by
  cases h with
  | same => exact List.forall_mem_nil _
  | fresh => exact Expr.settled_guarding _ _ _ _

/-- A split try is no try: what it was made into is settled if its body and its handler are. -/
theorem Stmt.settled_splitTry {label done : String} {body handler : Block}
    (hb : body.Settled σ hints) (hh : handler.Settled σ hints) :
    ∀ o ∈ Stmt.splitTry label done body handler, o.Settled σ hints := by
  refine List.forall_mem_cons.mpr ⟨.block hb, List.forall_mem_cons.mpr ⟨?_, ?_⟩⟩
  · exact .plain rfl (by rw [Stmt.Normal, Stmt.normalize])
  · exact List.forall_mem_cons.mpr
      ⟨.labeled hh, List.forall_mem_singleton.mpr (.labeled (List.forall_mem_nil _))⟩

theorem Stmt.settled_splitLoop {before : List Stmt} {cond : Expr} {body : Block} {bspan span : Span}
    (hbefore : ∀ o ∈ before, o.Settled σ hints) (hb : body.Settled σ hints) :
    (Stmt.splitLoop before cond (.block body bspan) span).Settled σ hints := by
  refine .loop (List.forall_mem_append.mpr ⟨hbefore, List.forall_mem_cons.mpr ⟨.ite ?_, ?_⟩⟩)
  · exact List.forall_mem_singleton.mpr (.plain rfl (by rw [Stmt.Normal, Stmt.normalize]))
  · exact List.forall_mem_singleton.mpr (.block hb)

-- The second pass has no handler around `out`, whatever the first one had: the tries that jump to the
-- handler protect plain runs. A cleanup must stay plain too, or the second pass would give up on it.
mutual

/-- All that comes of a normal statement is settled. -/
theorem Hoists.settled : ∀ {handler s coined out}, Hoists handler s coined out → s.Normal →
    ∀ o ∈ out, o.Settled σ hints
  | _, _, _, _, .plain hs, hn => List.forall_mem_singleton.mpr (.plain hs hn)
  | _, _, _, _, .suspend, hn => List.forall_mem_singleton.mpr ⟨hn, Stmt.hoist_suspend⟩
  | _, _, _, _, .block _ hb, hn =>
    List.forall_mem_singleton.mpr (.block (hb.settled .nil (Stmt.normal_block.mp hn)))
  | _, _, _, _, .labeled _ hb, hn =>
    List.forall_mem_singleton.mpr (.labeled (hb.settled .nil (Stmt.normal_labeled.mp hn)))
  | _, _, _, _, .ite _ hg hb, hn => by
    have hyes := hb.settled .nil (Stmt.normal_ite.mp hn)
    exact List.forall_mem_append.mpr ⟨hg.settled, List.forall_mem_singleton.mpr (.ite hyes)⟩
  | _, _, _, _, .iteElse _ hg hb hc, hn => by
    obtain ⟨hny, hnn⟩ := Stmt.normal_iteElse.mp hn
    have hyes := hb.settled .nil hny
    have hno := hc.settled .nil hnn
    exact List.forall_mem_append.mpr ⟨hg.settled, List.forall_mem_singleton.mpr (.iteElse hyes hno)⟩
  | _, _, _, _, .loop _ _ hb, hn =>
    List.forall_mem_singleton.mpr (.loop (hb.settled .nil (Stmt.normal_loop.mp hn)))
  | _, _, _, _, .splitLoop _ _ hb, hn => by
    have hbody := hb.settled .nil (Stmt.normal_loop.mp hn)
    exact List.forall_mem_singleton.mpr
      (Stmt.settled_splitLoop (Expr.settled_guarding _ _ _ _) hbody)
  | _, _, _, _, .attempt _ hb, hn => by
    have hbody := hb.settled .nil (Stmt.normal_attempt.mp hn).1
    exact List.forall_mem_singleton.mpr (.attempt hbody fun k hk => absurd hk (Option.not_mem_none k))
  | _, _, _, _, @Hoists.attemptCleanup _ _ cleanup _ _ _ _ _ _ hk hb hc, hn => by
    obtain ⟨hnb, -, hnk⟩ := Stmt.normal_attempt.mp hn
    have hbody := hb.settled .nil hnb
    have hcleanup := hc.settled .nil (hnk cleanup rfl)
    refine List.forall_mem_singleton.mpr (.attempt hbody ?_)
    rintro _ ⟨⟩
    -- A cleanup that suspends would have been refused, so hoisting again leaves it alone.
    exact ⟨hcleanup, hc.plain rfl (by cases cleanup; exact hk)⟩
  | _, _, _, _, @Hoists.split _ _ catcher _ _ _ _ _ _ _ _ hb hc, hn => by
    obtain ⟨hnb, hnc, -⟩ := Stmt.normal_attempt.mp hn
    have hbody := hb.settled .nil hnb
    have hcatcher := hc.settled .nil (hnc catcher rfl)
    exact Stmt.settled_splitTry hbody hcatcher
  | _, _, _, _, @Hoists.splitCleanup _ _ catcher cleanup _ _ _ _ _ _ _ _ _ _ hk hb hc hc', hn => by
    obtain ⟨hnb, hnc, hnk⟩ := Stmt.normal_attempt.mp hn
    have hbody := hb.settled .nil hnb
    have hcatcher := hc.settled .nil (hnc catcher rfl)
    have hcleanup := hc'.settled .nil (hnk cleanup rfl)
    refine List.forall_mem_singleton.mpr (.attempt (Stmt.settled_splitTry hbody hcatcher) ?_)
    rintro _ ⟨⟩
    exact ⟨hcleanup, hc'.plain rfl (by cases cleanup; exact hk)⟩
  | _, _, _, _, .switch _ hc, hn =>
    List.forall_mem_singleton.mpr (.switch (hc.settled (Stmt.normal_switch.mp hn)))

/-- The run that was collected ends up under protection, before a label or at the end. -/
theorem HoistsAll.settled : ∀ {handler run ss coined out}, HoistsAll handler run ss coined out →
    Stmt.IsRun run → Stmt.AllNormal ss → ∀ o ∈ out, o.Settled σ hints
  | _, _, _, _, _, .nil, _, _ => List.forall_mem_nil _
  | _, _, _, _, _, .cons hs hss, _, hn => by
    obtain ⟨hn₁, hn₂⟩ := List.forall_mem_cons.mp hn
    exact List.forall_mem_append.mpr ⟨hs.settled hn₁, hss.settled .nil hn₂⟩
  | _, _, _, _, _, .flush, hr, _ => hr.settled_flush
  | _, _, _, _, _, .suspends _ hs hss, hr, hn => by
    obtain ⟨hn₁, hn₂⟩ := List.forall_mem_cons.mp hn
    have hmore := hss.settled .nil hn₂
    exact List.forall_mem_append.mpr ⟨hr.settled_flush,
      List.forall_mem_append.mpr ⟨hs.settled hn₁, hmore⟩⟩
  | _, _, _, _, _, .labeled _ hb hss, hr, hn => by
    obtain ⟨hn₁, hn₂⟩ := List.forall_mem_cons.mp hn
    have hbody := hb.settled .nil (Stmt.normal_labeled.mp hn₁)
    have hmore := hss.settled .nil hn₂
    exact List.forall_mem_append.mpr ⟨hr.settled_flush, List.forall_mem_cons.mpr ⟨.labeled hbody, hmore⟩⟩
  | _, _, _, _, _, .collect hs _ hss, hr, hn => by
    obtain ⟨hn₁, hn₂⟩ := List.forall_mem_cons.mp hn
    have hmore := hss.settled (hr.collect hs hn₁) hn₂
    exact List.forall_mem_append.mpr ⟨Stmt.settled_runHead _, hmore⟩

theorem HoistsCases.settled : ∀ {cases coined cases'}, HoistsCases cases coined cases' →
    (∀ case ∈ cases, Stmt.AllNormal case.body.stmts) →
    ∀ case ∈ cases', case.body.Settled σ hints
  | _, _, _, .nil, _ => List.forall_mem_nil _
  | _, _, _, .cons hb hcs, hn => by
    obtain ⟨hn₁, hn₂⟩ := List.forall_mem_cons.mp hn
    have hbody := hb.settled .nil hn₁
    exact List.forall_mem_cons.mpr ⟨hbody, hcs.settled hn₂⟩

end

/-- A settled body without misplaced suspensions is hoisted to itself, and no name is asked for. -/
theorem Block.Settled.hoist {body : Block} (h : body.Settled σ hints) (hplaced : body.misplaced? = none)
    (names : σ) : body.hoist hints names = (.ok ⟨body, 0⟩, names) := by
  have hin : body.normalize.hoistIn hints none (⟨names, 0⟩ : HoistState σ) = .ok body ⟨names, 0⟩ := by
    rw [Block.normalize_eq_self.mpr h.normal, h.hoistIn]
    rfl
  unfold Block.hoist
  split
  · rw [hin]
    dsimp only
    rw [hplaced]
  · rfl

end Pass

/-- **Hoisting twice is hoisting once**, whatever supply and hints the second pass has: no suspension is
misplaced any more, and all the rest is settled. -/
theorem Block.hoist_hoisted {σ τ : Type} [NameSupply σ] [NameSupply τ] {hints : HoistHints} {body : Block}
    {names : σ} {hoisted : Hoisted} (h : (body.hoist hints names).1 = .ok hoisted)
    (hints' : HoistHints) (names' : τ) :
    hoisted.body.misplaced? = none ∧
      hoisted.body.hoist hints' names' = (.ok ⟨hoisted.body, 0⟩, names') := by
  have hplaced : hoisted.body.misplaced? = none := by
    rcases Block.hoist_answers hints body names with ⟨e, _, he, -⟩ | ⟨_, hok, -, hplaced⟩
    · rw [h] at he
      cases he
    · rw [h] at hok
      cases hok
      exact hplaced
  refine ⟨hplaced, ?_⟩
  rcases Block.hoist_hoists hints h with ⟨hs, rfl, -⟩ | ⟨-, coined, ⟨out, hout, hbody⟩, -⟩
  · exact if_neg (Bool.eq_false_iff.mp hs)
  · have hnormal := Block.normalize_eq_self.mp (Block.normalize_normalize body)
    have hsettled : hoisted.body.Settled τ hints' := hbody ▸ hout.settled .nil hnormal
    exact hsettled.hoist hplaced names'

/-- The second pass may have a supply that knows of no name, and hints that are in use. -/
theorem Block.hoist_hoisted_retryLoop :
    ∃ hoisted, (retryLoop.hoist {} (Names.empty.reserve "x")).1 = .ok hoisted ∧ hoisted.splits = 1 ∧
      hoisted.body.misplaced? = none ∧
      hoisted.body.hoist ⟨"x", "again", "x"⟩ Names.empty = (.ok ⟨hoisted.body, 0⟩, Names.empty) := by
  obtain ⟨hoisted, hok, hone⟩ : ∃ hoisted,
      (retryLoop.hoist {} (Names.empty.reserve "x")).1 = .ok hoisted ∧ hoisted.splits = 1 := ⟨_, rfl, rfl⟩
  exact ⟨hoisted, hok, hone, Block.hoist_hoisted hok ⟨"x", "again", "x"⟩ Names.empty⟩

end Lowering
