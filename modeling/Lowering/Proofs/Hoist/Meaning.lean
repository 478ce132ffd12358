import Lowering.Proofs.Eval.Moments
import Lowering.Proofs.Hoist.Simulation
import Lowering.Proofs.Hoist.Translation

/-!
# Hoisting keeps the meaning of a body

Running a hoisted body ends like running the body, and the outside world sees the same, if no clause
of the body catches what a resumption throws: after hoisting none can.
-/

namespace Lowering

/-- With enough steps, running `body'` completes like running `body` does where no clause catches what
a resumption throws, and the outside world sees the same. -/
def Machine.KeepsMeaning (m : Machine) (body body' : Block) : Prop :=
  ∃ least, ∀ limit ≥ least,
    ({ m with stepLimit := limit }.run body').1 = ({ m with resumeCatchable := false }.run body).1 ∧
      ({ m with stepLimit := limit }.run body').2.trace =
        ({ m with resumeCatchable := false }.run body).2.trace

/-- Without a handler around them, bodies with matching outcomes complete alike. -/
theorem Matches.complete {L : Lexicon} {Γ Γ' : List String} {o o' : Outcome Flow}
    (h : Matches L none Γ Γ' o o') :
    o'.complete.1 = o.complete.1 ∧ o'.complete.2.log = o.complete.2.log := by
  cases h with
  | normal h => exact ⟨rfl, h.log.symm⟩
  | @leave f m m' hf h => cases f <;> exact ⟨rfl, h.log.symm⟩
  | caught hh => cases hh
  | thrown hh hv hc h =>
    refine ⟨?_, h.log.symm⟩
    rw [Outcome.complete, Outcome.complete, hv]
  | stopped h => exact ⟨rfl, h.symm⟩

section Hoist

variable {hints : HoistHints} {body : Block} {names : Names} {h : Hoisted}

/-- What the rewriting needs of a body, gathered. -/
theorem Block.fit_of_sites {escapes : Prop}
    (hcalm : ¬escapes → ∀ site ∈ body.sites {}, site.calm = true)
    (hknown : ∀ site ∈ body.sites {}, ∀ x ∈ site.stmt.names, x ∈ names.taken)
    (hscoped : ∀ site ∈ body.sites {}, site.Scoped body.movable) :
    ∀ site ∈ body.sites {}, site.Fit ⟨names.taken, body.movable, escapes⟩ := by
  intro site hsite
  refine ⟨fun he => hcalm he site hsite, hknown site hsite, hscoped site hsite, fun x hx => ?_⟩
  rw [Block.movable, ← Stmt.map_stmt_sites_block {}]
  exact List.mem_flatMap.mpr ⟨site.stmt, List.mem_map_of_mem hsite, hx⟩

/-- A hoisted body may stand in place of the normalized body. -/
theorem Block.hoist_lowers {L : Lexicon} (hL : L.taken ⊆ names.taken)
    (hf : ∀ site ∈ body.sites {}, site.Fit L) (hsus : body.suspends = true)
    (hok : (body.hoist hints names).1 = .ok h) :
    LowersBlock L none [] body.normalize.stmts h.body.stmts := by
  rcases Block.hoist_hoists hints hok with ⟨hplain, -⟩ | ⟨-, coined, ⟨out, hout, hbody⟩, hgives, -⟩
  · rw [hplain] at hsus
    cases hsus
  · obtain ⟨hnodup, hfresh⟩ := hgives.fresh
    have hapart : Coined.Apart L none coined := ⟨hnodup, fun x hx hm => hfresh x hx (hL hm)⟩
    have hfits : ∀ site ∈ body.normalize.sites {}, site.FitUnder L none := fun site hsite =>
      ⟨Block.fit_normalize hf site hsite, fun hn => absurd rfl hn⟩
    rw [hbody]
    exact hout.lowersBlock hapart (hout.lowers hapart) hfits fun hn => absurd rfl hn

/-- With enough steps, a hoisted body completes like the body does on a machine that agrees, and the
outside world sees the same. -/
theorem Block.run_hoisted {m start : Machine} {escapes : Prop}
    (hagree : ∀ V, start.untimed.Agree escapes V m.untimed) (hok : (body.hoist hints names).1 = .ok h)
    (hf : ∀ site ∈ body.sites {}, site.Fit ⟨names.taken, body.movable, escapes⟩)
    (hbraced : ∀ site ∈ body.sites {}, site.stmt.braced = true)
    (hlimit : ∀ limit, (start.run body).1 ≠ .error (.stepLimit limit)) :
    ∃ least, ∀ limit ≥ least, ({ m with stepLimit := limit }.run h.body).1 = (start.run body).1 ∧
      ({ m with stepLimit := limit }.run h.body).2.trace = (start.run body).2.trace := by
  obtain ⟨o, hends, ho⟩ := Block.ends_of_run hlimit
  obtain ⟨o', hmatch, hends'⟩ : ∃ o', Matches ⟨names.taken, body.movable, escapes⟩ none [] [] o o' ∧
      Ends (.rest h.body.stmts h.body.stmts) m.untimed o' := by
    -- A body that suspends is normalized before it is hoisted; any other one comes back as it was.
    by_cases hsus : body.suspends = true
    · have hinside : (Task.rest body.stmts body.stmts).Inside (Stmt.partsAll body.stmts) :=
        ⟨List.Subset.refl _, List.Subset.refl _⟩
      have hnormal := hends.normalize hinside fun p hp => by
        rw [← Stmt.map_stmt_sites_block {}] at hp
        obtain ⟨site, hsite, rfl⟩ := List.mem_map.mp hp
        exact hbraced site hsite
      rw [Task.normalize, ← Block.stmts_normalize] at hnormal
      exact (hnormal.sim _).block (Block.hoist_lowers (List.Subset.refl _) hf hsus hok) (hagree _)
    · have hplain := Bool.eq_false_iff.mpr hsus
      rw [Block.hoist, if_neg hsus] at hok
      cases hok
      exact (hends.sim _).block (body.lowers_plain {} hplain hf) (hagree _)
  obtain ⟨least, hleast⟩ := Block.run_of_ends hends'
  refine ⟨least, fun limit hl => ?_⟩
  have hrun := hleast limit hl
  have hcomplete := hmatch.complete
  rw [← hrun, ho] at hcomplete
  exact ⟨hcomplete.1, congrArg List.reverse hcomplete.2⟩

/-- **Hoisting keeps the meaning of a body** in which

* the value of a suspension throws nothing in the body of a try with a handler,
* no label stands on a branch or on a loop body that is no block, and
* the locals that are declared in the body of a try that is split are used in their scope only.

All names of the body are known to the supply of names. Where no try is split, nothing is asked of the
locals. -/
theorem Block.keepsMeaning_hoist (m : Machine) (hok : (body.hoist hints names).1 = .ok h)
    (hknown : ∀ site ∈ body.sites {}, ∀ x ∈ site.stmt.names, x ∈ names.taken)
    (hcalm : ∀ site ∈ body.sites {}, site.calm = true)
    (hbraced : ∀ site ∈ body.sites {}, site.stmt.braced = true)
    (hscoped : ∀ site ∈ body.sites {}, site.Scoped body.movable)
    (hlimit : ∀ limit, ({ m with resumeCatchable := false }.run body).1 ≠ .error (.stepLimit limit)) :
    m.KeepsMeaning body h.body := by
  -- a machine agrees with itself, whatever a resumption throws
  have hagree : ∀ V, ({ m with resumeCatchable := false } : Machine).untimed.Agree False V m.untimed :=
    fun V => ⟨fun _ _ => rfl, rfl, rfl, rfl, rfl, rfl, rfl, id, False.elim⟩
  exact Block.run_hoisted hagree hok (Block.fit_of_sites (fun _ => hcalm) hknown hscoped) hbraced
    hlimit

end Hoist

/-! ## A body that is hoisted -/

/-- `try { int x = a(); if (b(x)) { yield x; } } catch { c(); }` -/
def Block.guardedYield : Block :=
  ⟨[.attempt ⟨[.declare "x" .int (some (.call "a" [])) .dummy,
      .ite (.call "b" [.var "x"])
        (.block ⟨[.suspend .yield (some (.var "x")) .dummy], .dummy⟩ .dummy) none .dummy], .dummy⟩
    (some ⟨[.eval (.call "c" []) .dummy], .dummy⟩) none .dummy], .dummy⟩

theorem Block.keepsMeaning_hoist_guardedYield :
    ∃ h, (guardedYield.hoist {} (Names.empty.reserve "x")).1 = .ok h ∧
      (Machine.initial.failCall "b").KeepsMeaning guardedYield h.body := by
  have hrun : ({ Machine.initial.failCall "b" with resumeCatchable := false }.run guardedYield).1 =
      .ok .finished := (Machine.run_completes _ (fun _ => ()) (x := ()) 40 (by decide +kernel)).1
  obtain ⟨h, hok⟩ : ∃ h, (guardedYield.hoist {} (Names.empty.reserve "x")).1 = .ok h := ⟨_, rfl⟩
  refine ⟨h, hok, keepsMeaning_hoist (Machine.initial.failCall "b") hok ?_ ?_ ?_ ?_ fun limit => ?_⟩
  · decide
  · decide
  · decide
  · decide
  · rw [hrun]
    simp

/-! ## Bodies whose meaning changes -/

/-- Hoisting changes the meaning of the body, though it meets all conditions but the one on scopes. -/
def Block.ChangesMeaning (names : Names) (m : Machine) (body : Block) : Prop :=
  ∃ h, (body.hoist {} names).1 = .ok h ∧
    (∀ site ∈ body.sites {}, ∀ x ∈ site.stmt.names, x ∈ names.taken) ∧
    (∀ site ∈ body.sites {}, site.calm = true) ∧ (∀ site ∈ body.sites {}, site.stmt.braced = true) ∧
    (∀ limit, ({ m with resumeCatchable := false }.run body).1 ≠ .error (.stepLimit limit)) ∧
    ¬m.KeepsMeaning body h.body

/-- A run that did not need all its steps ends the same way with more of them. -/
theorem Block.run_stable {b : Block} {m : Machine}
    (h : ∀ limit, (m.run b).1 ≠ .error (.stepLimit limit)) :
    ∃ least, ∀ limit ≥ least, ({ m with stepLimit := limit }.run b).2.trace = (m.run b).2.trace := by
  obtain ⟨o, hends, ho⟩ := Block.ends_of_run h
  obtain ⟨least, hleast⟩ := Block.run_of_ends hends
  refine ⟨least, fun limit hl => ?_⟩
  have hrun := (hleast limit hl).trans ho
  have hlog := congrArg (fun r => r.2.log) hrun
  exact congrArg List.reverse hlog

theorem Block.changesMeaning_of_trace {names : Names} {m : Machine} {body : Block} {h : Hoisted}
    (events events' : List Event) (hok : (body.hoist {} names).1 = .ok h)
    (hsites : ∀ site ∈ body.sites {}, (∀ x ∈ site.stmt.names, x ∈ names.taken) ∧
      site.calm = true ∧ site.stmt.braced = true)
    (hrun : ({ m with resumeCatchable := false }.run body).1 = .ok .finished ∧
      ({ m with resumeCatchable := false }.run body).2.trace = events)
    (hrun' : (m.run h.body).1 = .ok .finished ∧ (m.run h.body).2.trace = events')
    (hne : events' ≠ events) : body.ChangesMeaning names m := by
  refine ⟨h, hok, fun site hs => (hsites site hs).1, fun site hs => (hsites site hs).2.1,
    fun site hs => (hsites site hs).2.2, fun limit => ?_, fun hkeeps => ?_⟩
  · rw [hrun.1]
    simp
  · obtain ⟨least, hleast⟩ := hkeeps
    obtain ⟨least', hleast'⟩ := Block.run_stable (b := h.body) (m := m) (by rw [hrun'.1]; exact nofun)
    have hl := hleast (max least least') (Nat.le_max_left _ _)
    have hl' := hleast' (max least least') (Nat.le_max_right _ _)
    refine hne ?_
    rw [← hrun.2, ← hrun'.2]
    exact hl'.symm.trans hl.2

/-- `try { stmts; yield; } catch { }` -/
def Block.yieldBehind (stmts : List Stmt) : Block :=
  ⟨[.attempt ⟨stmts ++ [.suspend .yield none .dummy], .dummy⟩ (some ⟨[], .dummy⟩) none .dummy], .dummy⟩

/-- `f(x);` -/
def Stmt.callOnX : Stmt := .eval (.call "f" [.var "x"]) .dummy

/-- What is recorded of `f(x); yield;` if `x` has the value `v`. -/
def Event.callOnValue (v : Value) : List Event := [.call "f" [v], .suspend .yield none]

/-- A local that is used in front of its declaration, one that is declared twice in a block, one that
is declared again behind a block, and one whose declaration is jumped over. -/
theorem Block.changesMeaning_unscoped :
    let names := Names.empty.reserveAll ["x", "L"]
    let m := Machine.initial.setLocal "x" (.str "start")
    (yieldBehind [.callOnX, .declare "x" .int (some (.int 1)) .dummy]).ChangesMeaning names m ∧
    (yieldBehind [.declare "x" .int (some (.int 1)) .dummy, .declare "x" .int none .dummy,
      .callOnX]).ChangesMeaning names m ∧
    (yieldBehind [.block ⟨[.declare "x" .int (some (.int 1)) .dummy], .dummy⟩ .dummy,
      .declare "x" .int none .dummy, .callOnX]).ChangesMeaning names m ∧
    (yieldBehind [.goto "L" .dummy, .declare "x" .int none .dummy,
      .labeled "L" (.block ⟨[.callOnX], .dummy⟩ .dummy) .dummy]).ChangesMeaning names m := by
  refine ⟨?_, ?_, ?_, ?_⟩
  · exact changesMeaning_of_trace (Event.callOnValue (.str "start")) (Event.callOnValue .null) rfl (by decide)
      (Machine.run_completes _ Machine.trace 60 (by decide +kernel))
      (Machine.run_completes _ Machine.trace 60 (by decide +kernel)) (by decide)
  · exact changesMeaning_of_trace (Event.callOnValue .null) (Event.callOnValue (.int 1)) rfl (by decide)
      (Machine.run_completes _ Machine.trace 60 (by decide +kernel))
      (Machine.run_completes _ Machine.trace 60 (by decide +kernel)) (by decide)
  · exact changesMeaning_of_trace (Event.callOnValue .null) (Event.callOnValue (.int 1)) rfl (by decide)
      (Machine.run_completes _ Machine.trace 60 (by decide +kernel))
      (Machine.run_completes _ Machine.trace 60 (by decide +kernel)) (by decide)
  · exact changesMeaning_of_trace (Event.callOnValue (.str "start")) (Event.callOnValue .null) rfl (by decide)
      (Machine.run_completes _ Machine.trace 60 (by decide +kernel))
      (Machine.run_completes _ Machine.trace 60 (by decide +kernel)) (by decide)

end Lowering
