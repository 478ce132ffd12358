import Lowering.Proofs.Eval.Budget
import Lowering.Proofs.Eval.Calls

/-!
# Outcomes in lockstep

Two outcomes are *locked* if they are the same up to a relation on machines. Whatever goes on alike from
locked outcomes ends in locked outcomes: with what follows, with a handler, with a cleanup.
`Eval.Locked` says the same of what two expressions do.

The first of the two may get *lost*, from where on nothing is promised.
-/

namespace Lowering

/-- Outcomes with the same result, throw or error, on machines in the relation `R`, unless the first is
lost. -/
inductive Outcome.Locked (R : Machine → Machine → Prop) (Lost : Machine → Prop) {α : Type} :
    Outcome α → Outcome α → Prop where
  | lost {o o'} (h : Lost o.machine) : Locked R Lost o o'
  | done (a : α) {m m'} (h : R m m') : Locked R Lost (.done a m) (.done a m')
  | thrown (t : Thrown) {m m'} (h : R m m') : Locked R Lost (.thrown t m) (.thrown t m')
  | stopped (e : EvalError) {m m'} (h : R m m') : Locked R Lost (.stopped e m) (.stopped e m')

namespace Outcome

variable {R : Machine → Machine → Prop} {Lost : Machine → Prop} {α β : Type}

/-- What is lost stays lost. -/
theorem lost_bind {o : Outcome α} {f : α → Machine → Outcome β} (ho : Lost o.machine)
    (hf : ∀ a m, Lost m → Lost (f a m).machine) : Lost (o.bind f).machine := by
  cases o with
  | done a m => exact hf a m ho
  | thrown t m => exact ho
  | stopped e m => exact ho

theorem Locked.refl {o : Outcome α} (h : R o.machine o.machine) : Locked R Lost o o := by
  cases o with
  | done a m => exact .done a h
  | thrown t m => exact .thrown t h
  | stopped e m => exact .stopped e h

/-- Runs in lockstep end with related machines, unless one was lost. -/
theorem Locked.related {o o' : Outcome α} (h : Locked R Lost o o') :
    Lost o.machine ∨ R o.machine o'.machine := by
  cases h with
  | lost h => exact .inl h
  | done a h => exact .inr h
  | thrown t h => exact .inr h
  | stopped e h => exact .inr h

/-- Lockstep goes on behind a first part that keeps it. -/
theorem Locked.bind {o o' : Outcome α} {f f' : α → Machine → Outcome β} (h : Locked R Lost o o')
    (hlost : ∀ a m, Lost m → Lost (f a m).machine)
    (hf : ∀ a m m', R m m' → Locked R Lost (f a m) (f' a m')) :
    Locked R Lost (o.bind f) (o'.bind f') := by
  cases h with
  | lost h => exact .lost (lost_bind h hlost)
  | done a h => exact hf a _ _ h
  | thrown t h => exact .thrown t h
  | stopped e h => exact .stopped e h

/-- What comes of a result changes no machine. -/
theorem Locked.map {o o' : Outcome α} (h : Locked R Lost o o') (f : α → β) :
    Locked R Lost (o.bind fun a m => .done (f a) m) (o'.bind fun a m => .done (f a) m) :=
  h.bind (fun _ _ h => h) fun a _ _ h => .done (f a) h

theorem Locked.bindBind {γ : Type} {o o' : Outcome α} {f : α → Machine → Outcome β}
    {k : β → Machine → Outcome γ} {f' : α → Machine → Outcome γ} (h : Locked R Lost o o')
    (hlost : ∀ a m, Lost m → Lost ((f a m).bind k).machine)
    (hf : ∀ a m m', R m m' → Locked R Lost ((f a m).bind k) (f' a m')) :
    Locked R Lost ((o.bind f).bind k) (o'.bind f') := by
  rw [bind_assoc]
  exact h.bind hlost hf

/-- Results that correspond are gone on with alike. -/
theorem Locked.bindMap {γ : Type} {o : Outcome α} {o' : Outcome γ} {r : α → γ}
    {f : α → Machine → Outcome β} {f' : γ → Machine → Outcome β}
    (h : Locked R Lost (o.bind fun a m => .done (r a) m) o')
    (hlost : ∀ a m, o = .done a m → Lost m → Lost (f a m).machine)
    (hf : ∀ a m m', o = .done a m → R m m' → Locked R Lost (f a m) (f' (r a) m')) :
    Locked R Lost (o.bind f) (o'.bind f') := by
  cases o with
  | done a m =>
    cases h with
    | lost h => exact .lost (hlost a m rfl h)
    | done a h => exact hf _ m _ rfl h
  | thrown t m =>
    cases h with
    | lost h => exact .lost h
    | thrown t h => exact .thrown t h
  | stopped e m =>
    cases h with
    | lost h => exact .lost h
    | stopped e h => exact .stopped e h

/-- Whether a throw can be caught changes no machine. -/
theorem Locked.catchableIf {o o' : Outcome α} (h : Locked R Lost o o') (allowed : Bool) :
    Locked R Lost (o.catchableIf allowed) (o'.catchableIf allowed) := by
  cases h with
  | lost h =>
    refine .lost ?_
    cases o <;> exact h
  | done a h => exact .done a h
  | thrown t h => exact .thrown _ h
  | stopped e h => exact .stopped e h

/-- Goes on after a throw that can be caught. -/
def rescue (o : Outcome α) (handler : Machine → Outcome α) : Outcome α :=
  match o with
  | .thrown t m => if t.catchable then handler m else .thrown t m
  | o => o

/-- If one run is caught, so is the other. -/
theorem Locked.rescue {o o' : Outcome α} {k k' : Machine → Outcome α} (h : Locked R Lost o o')
    (hlost : ∀ m, Lost m → Lost (k m).machine)
    (hk : ∀ m m', R m m' → Locked R Lost (k m) (k' m')) :
    Locked R Lost (o.rescue k) (o'.rescue k') := by
  cases h with
  | lost h =>
    refine .lost ?_
    cases o with
    | done a m => exact h
    | thrown t m =>
      unfold Outcome.rescue
      dsimp only
      split
      · exact hlost m h
      · exact h
    | stopped e m => exact h
  | done a h => exact .done a h
  | thrown t h =>
    unfold Outcome.rescue
    dsimp only
    split
    · exact hk _ _ h
    · exact .thrown t h
  | stopped e h => exact .stopped e h

theorem lost_andCleanup {o : Outcome Flow} {c : Machine → Outcome Flow} (ho : Lost o.machine)
    (hc : ∀ m, Lost m → Lost (c m).machine) : Lost (o.andCleanup c).machine := by
  cases hs : o.isStopped with
  | true =>
    cases o with
    | stopped e m => exact ho
    | done f m => cases hs
    | thrown t m => cases hs
  | false =>
    rw [andCleanup_eq hs, machine_andCleanup hs]
    exact hc _ ho

/-- The cleanup of a try runs in both. -/
theorem Locked.andCleanup {o o' : Outcome Flow} {c c' : Machine → Outcome Flow}
    (h : Locked R Lost o o') (hlost : ∀ m, Lost m → Lost (c m).machine)
    (hc : ∀ m m', o.machine = m → R m m' → Locked R Lost (c m) (c' m')) :
    Locked R Lost (o.andCleanup c) (o'.andCleanup c') := by
  cases h with
  | lost h => exact .lost (lost_andCleanup h hlost)
  | stopped e h => exact .stopped e h
  -- The cleanup decides, unless it ends normally: then the outcome it followed comes back.
  | @done f m m' h =>
    have hm := hc m m' rfl h
    rw [andCleanup_eq rfl c, andCleanup_eq rfl c']
    dsimp only [machine]
    generalize c m = r at hm ⊢
    generalize c' m' = r' at hm ⊢
    cases hm with
    | lost h =>
      refine .lost ?_
      rw [machine_andCleanup rfl]
      exact h
    | done f' h => cases f' <;> exact .done _ h
    | thrown t h => exact .thrown t h
    | stopped e h => exact .stopped e h
  | @thrown t m m' h =>
    have hm := hc m m' rfl h
    rw [andCleanup_eq rfl c, andCleanup_eq rfl c']
    dsimp only [machine]
    generalize c m = r at hm ⊢
    generalize c' m' = r' at hm ⊢
    cases hm with
    | lost h =>
      refine .lost ?_
      rw [machine_andCleanup rfl]
      exact h
    | done f' h =>
      cases f' with
      | normal => exact .thrown t h
      | _ => exact .done _ h
    | thrown t h => exact .thrown t h
    | stopped e h => exact .stopped e h

theorem Locked.leaveSwitch {o o' : Outcome Flow} (h : Locked R Lost o o') :
    Locked R Lost o.leaveSwitch o'.leaveSwitch := by
  cases h with
  | lost h =>
    refine .lost ?_
    rw [machine_leaveSwitch]
    exact h
  | done f h => cases f <;> exact .done _ h
  | thrown t h => exact .thrown t h
  | stopped e h => exact .stopped e h

/-- Bodies in lockstep complete alike. -/
theorem Locked.complete {o o' : Outcome Flow} (h : Locked R Lost o o') :
    Lost o.complete.2 ∨ o'.complete.1 = o.complete.1 ∧ R o.complete.2 o'.complete.2 := by
  have hmachine : ∀ o : Outcome Flow, o.complete.2 = o.machine := by
    rintro (⟨_ | _, _⟩ | _ | _) <;> rfl
  rw [hmachine, hmachine]
  cases h with
  | lost h => exact .inl h
  | done flow h => cases flow <;> exact .inr ⟨rfl, h⟩
  | thrown t h => exact .inr ⟨rfl, h⟩
  | stopped e h => exact .inr ⟨rfl, h⟩

end Outcome

/-! ## Evaluating in lockstep -/

/-- On related machines the two evaluate alike, and the first stays lost once it is. -/
structure Eval.Locked (R : Machine → Machine → Prop) (Lost : Machine → Prop) {α : Type}
    (x x' : Eval α) : Prop where
  outcome : ∀ {m m'}, R m m' → (x m).Locked R Lost (x' m')
  lost : ∀ {m}, Lost m → Lost (x m).machine

namespace Eval.Locked

variable {R : Machine → Machine → Prop} {Lost : Machine → Prop} {α β : Type}

theorem pure (a : α) : Locked R Lost (Pure.pure a) (Pure.pure a) := ⟨.done a, id⟩

theorem stop (e : EvalError) : Locked R Lost (Eval.stop e : Eval α) (Eval.stop e) := ⟨.stopped e, id⟩

theorem raise (v : Value) : Locked R Lost (Eval.raise v : Eval α) (Eval.raise v) := ⟨.thrown _, id⟩

theorem bind {x x' : Eval α} {f f' : α → Eval β} (hx : Locked R Lost x x')
    (hf : ∀ a, Locked R Lost (f a) (f' a)) : Locked R Lost (x >>= f) (x' >>= f') where
  outcome hR := (hx.outcome hR).bind (fun a _ => (hf a).lost) fun a _ _ => (hf a).outcome
  lost hm := Outcome.lost_bind (hx.lost hm) fun a _ => (hf a).lost

/-- What neither touches locals nor calls out is in lockstep with itself. -/
theorem closed : Eval.Closed (fun _ x => Locked R Lost x x) (fun _ => False) true where
  pure := pure
  bind := bind
  stop := stop
  getLocal _ h := h.elim
  assign _ _ h := h.elim
  raise h := nomatch h
  call h := nomatch h

end Eval.Locked

end Lowering
