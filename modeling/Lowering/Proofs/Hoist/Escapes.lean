import Lowering.Proofs.Hoist.Meaning

/-!
# What a suspension throws escapes

A hoisted suspension stands in no try with a handler, and neither does the expression that gives its
value. So a handler of the body catches nothing that a suspension throws, be it in front of the
suspension, where its value is evaluated, or behind it, where it is resumed. Nothing else changes: the
condition on the values of suspensions that `Lowering.Proofs.Hoist.Meaning` has can be traded for a
machine on which they throw past all handlers.
-/

namespace Lowering

/-- The machine on which no clause catches what a suspension throws, neither from its value nor from
its resumption. Clauses for cleanup run as ever. -/
def Machine.escaping (m : Machine) : Machine :=
  { m with valueCatchable := false, resumeCatchable := false }

section Hoist

variable {hints : HoistHints} {body : Block} {names : Names} {h : Hoisted}

/-- **What the value of a suspension throws escapes from a hoisted body**: with enough steps the hoisted
body completes like the body does where no handler catches what a suspension throws, and the outside
world sees the same, whatever the values of its suspensions are and whichever handlers and cleanups
stand around them. -/
theorem Block.run_hoist_escaping (m : Machine) (hok : (body.hoist hints names).1 = .ok h)
    (hknown : ∀ site ∈ body.sites {}, ∀ x ∈ site.stmt.names, x ∈ names.taken)
    (hbraced : ∀ site ∈ body.sites {}, site.stmt.braced = true)
    (hscoped : ∀ site ∈ body.sites {}, site.Scoped body.movable)
    (hlimit : ∀ limit, (m.escaping.run body).1 ≠ .error (.stepLimit limit)) :
    ∃ least, ∀ limit ≥ least,
      ({ m with stepLimit := limit }.run h.body).1 = (m.escaping.run body).1 ∧
        ({ m with stepLimit := limit }.run h.body).2.trace = (m.escaping.run body).2.trace := by
  -- on the escaping machine nothing is asked of the values of suspensions
  have hagree : ∀ V, m.escaping.untimed.Agree True V m.untimed :=
    fun V => ⟨fun _ _ => rfl, rfl, rfl, rfl, rfl, rfl, rfl, nofun, fun _ => rfl⟩
  exact Block.run_hoisted hagree hok (Block.fit_of_sites (absurd trivial) hknown hscoped) hbraced
    hlimit

end Hoist

/-- `try { try { yield f(); } catch { g(); } finally { c(); } } catch { h(); }` -/
def Block.nestedYield : Block :=
  ⟨[.attempt ⟨[.attempt ⟨[.suspend .yield (some (.call "f" [])) .dummy], .dummy⟩
      (some ⟨[.eval (.call "g" []) .dummy], .dummy⟩) (some ⟨[.eval (.call "c" []) .dummy], .dummy⟩)
      .dummy], .dummy⟩
    (some ⟨[.eval (.call "h" []) .dummy], .dummy⟩) none .dummy], .dummy⟩

/-- The cleanup runs, and none of the handlers. -/
theorem Block.run_hoist_escaping_nestedYield :
    ∃ h, (nestedYield.hoist {} Names.empty).1 = .ok h ∧ ∃ least, ∀ limit ≥ least,
      ({ Machine.initial.failCall "f" with stepLimit := limit }.run h.body).1 =
        .ok (.threw (.str "f")) ∧
      ({ Machine.initial.failCall "f" with stepLimit := limit }.run h.body).2.trace =
        [.call "f" [], .call "c" []] := by
  obtain ⟨hrun, htrace⟩ : ((Machine.initial.failCall "f").escaping.run nestedYield).1 =
        .ok (.threw (.str "f")) ∧
      ((Machine.initial.failCall "f").escaping.run nestedYield).2.trace =
        [.call "f" [], .call "c" []] :=
    Machine.run_completes _ Machine.trace 40 (by decide +kernel)
  obtain ⟨h, hok⟩ : ∃ h, (nestedYield.hoist {} Names.empty).1 = .ok h := ⟨_, rfl⟩
  refine ⟨h, hok, ?_⟩
  rw [← hrun, ← htrace]
  refine run_hoist_escaping (Machine.initial.failCall "f") hok ?_ ?_ ?_ fun limit => ?_
  · decide
  · decide
  · decide
  · rw [hrun]
    simp

/-- `try { yield f(); } catch { h(); }` -/
def Block.yieldCall : Block :=
  ⟨[.attempt ⟨[.suspend .yield (some (.call "f" [])) .dummy], .dummy⟩
    (some ⟨[.eval (.call "h" []) .dummy], .dummy⟩) none .dummy], .dummy⟩

/-- If the call that gives the value of a suspension throws, the handler of the body runs, and that of
the hoisted body does not. -/
theorem Block.run_yieldCall :
    ∃ h, (yieldCall.hoist {} Names.empty).1 = .ok h ∧
      ((Machine.initial.failCall "f").run yieldCall).1 = .ok .finished ∧
      ((Machine.initial.failCall "f").run yieldCall).2.trace = [.call "f" [], .call "h" []] ∧
      ((Machine.initial.failCall "f").run h.body).1 = .ok (.threw (.str "f")) ∧
      ((Machine.initial.failCall "f").run h.body).2.trace = [.call "f" []] := by
  obtain ⟨hrun, htrace⟩ : ((Machine.initial.failCall "f").run yieldCall).1 = .ok .finished ∧
      ((Machine.initial.failCall "f").run yieldCall).2.trace = [.call "f" [], .call "h" []] :=
    Machine.run_completes _ Machine.trace 40 (by decide +kernel)
  exact ⟨_, rfl, hrun, htrace, Machine.run_completes _ Machine.trace 40 (by decide +kernel)⟩

end Lowering
