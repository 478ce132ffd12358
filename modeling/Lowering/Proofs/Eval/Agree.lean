import Lowering.Proofs.Eval.Ends

/-!
# Machines that agree on some locals

Two machines agree on the locals in `V` if those have the same values, and if all else that a run can
observe is the same. Evaluating an expression that touches only locals in `V` then ends the same way
on both, and they still agree (`Expr.eval_respects`).

Of a single machine, evaluating keeps the locals that it does not touch, and what it throws can be
caught (`Expr.eval_keeps`).
-/

namespace Lowering

/-! ## Agreement -/

/-- The machines agree on the locals in `V`, and on the outside world. The first of them lets no
clause catch what a resumption throws and, if `E` holds, what the value of a suspension throws. -/
structure Machine.Agree (E : Prop) (V : String → Prop) (m m' : Machine) : Prop where
  locals : ∀ x, V x → m.locals.get? x = m'.locals.get? x
  failingCalls : m.failingCalls = m'.failingCalls
  failingResumes : m.failingResumes = m'.failingResumes
  scripts : m.scripts = m'.scripts
  log : m.log = m'.log
  suspensions : m.suspensions = m'.suspensions
  resume : m.resumeCatchable = false
  value : m.valueCatchable = true → m'.valueCatchable = true
  escape : E → m.valueCatchable = false

namespace Machine.Agree

variable {E : Prop} {V W : String → Prop} {m m' : Machine}

/-- Machines that agree on some locals agree on fewer of them. -/
theorem mono (h : Agree E V m m') (hWV : ∀ x, W x → V x) : Agree E W m m' :=
  { h with locals := fun x hx => h.locals x (hWV x hx) }

/-- Setting a local to the same value on both sides makes them agree on it. -/
theorem setLocal (h : Agree E V m m') (name : String) (v : Value)
    (hW : ∀ x, W x → x = name ∨ V x) : Agree E W (m.setLocal name v) (m'.setLocal name v) := by
  refine { h with locals := fun x hx => ?_ }
  show (m.locals.insert name v).get? x = (m'.locals.insert name v).get? x
  rw [Dict.get?_insert, Dict.get?_insert]
  by_cases hn : x = name
  · rw [if_pos hn, if_pos hn]
  · rw [if_neg hn, if_neg hn]
    exact h.locals x ((hW x hx).resolve_left hn)

/-- Setting a local that does not count changes nothing. -/
theorem setLocal_right (h : Agree E V m m') {name : String} (v : Value) (hn : ¬V name) :
    Agree E V m (m'.setLocal name v) := by
  refine { h with locals := fun x hx => ?_ }
  have hne : x ≠ name := fun he => hn (he ▸ hx)
  show m.locals.get? x = (m'.locals.insert name v).get? x
  rw [Dict.get?_insert_ne _ _ hne]
  exact h.locals x hx

/-- A local that one side sets to the value that it has on the other side is agreed on. -/
theorem setLocal_left (h : Agree E V m m') {name : String} {v : Value}
    (hv : m'.locals.get? name = some v) (hW : ∀ x, W x → x = name ∨ V x) :
    Agree E W (m.setLocal name v) m' := by
  refine { h with locals := fun x hx => ?_ }
  show (m.locals.insert name v).get? x = m'.locals.get? x
  rw [Dict.get?_insert]
  by_cases hn : x = name
  · rw [if_pos hn, hn, hv]
  · rw [if_neg hn]
    exact h.locals x ((hW x hx).resolve_left hn)

/-- Machines that agree do so after they have recorded the same event. -/
theorem record (h : Agree E V m m') (e : Event) : Agree E V (m.record e) (m'.record e) :=
  { h with log := congrArg (e :: ·) h.log }

/-- A suspension is counted on both sides. -/
theorem suspended (h : Agree E V m m') (kind : SuspendKind) (value : Option Value) :
    Agree E V (m.suspended kind value) (m'.suspended kind value) :=
  { h.record (.suspend kind value) with suspensions := congrArg (· + 1) h.suspensions }

end Machine.Agree

/-- Outcomes with the same result or error, on machines that agree. -/
inductive Outcome.Agree (E : Prop) (V : String → Prop) {α : Type} : Outcome α → Outcome α → Prop where
  | done (a : α) {m m' : Machine} (h : m.Agree E V m') : Agree E V (.done a m) (.done a m')
  | thrown (t : Thrown) {m m' : Machine} (h : m.Agree E V m') : Agree E V (.thrown t m) (.thrown t m')
  | stopped (e : EvalError) {m m' : Machine} (h : m.Agree E V m') :
    Agree E V (.stopped e m) (.stopped e m')

/-- Evaluating that ends the same way on machines that agree on `V`. -/
def Eval.Respects (V : String → Prop) {α : Type} (x : Eval α) : Prop :=
  ∀ (E : Prop) (m m' : Machine), m.Agree E V m' → (x m).Agree E V (x m')

namespace Eval.Respects

variable {V : String → Prop} {α β : Type}

theorem pure (a : α) : Respects V (Pure.pure a) := fun _ _ _ h => .done a h

theorem stop (e : EvalError) : Respects V (Eval.stop e : Eval α) := fun _ _ _ h => .stopped e h

theorem raise (v : Value) : Respects V (Eval.raise v : Eval α) := fun _ _ _ h => .thrown _ h

/-- Evaluating one thing after the other respects agreement if both do. -/
theorem bind {x : Eval α} {f : α → Eval β} (hx : Respects V x) (hf : ∀ a, Respects V (f a)) :
    Respects V (x >>= f) := by
  intro E m m' h
  rw [bind_apply, bind_apply]
  have h' := hx E m m' h
  generalize x m = o at h' ⊢
  generalize x m' = o' at h' ⊢
  cases h' with
  | done a h' => exact hf a E _ _ h'
  | thrown t h' => exact .thrown t h'
  | stopped e h' => exact .stopped e h'

/-- A local that the machines agree on has one value. -/
theorem getLocal {name : String} (hn : V name) : Respects V (Machine.getLocal name) := by
  intro E m m' h
  unfold Machine.getLocal
  rw [← h.locals name hn]
  cases m.locals.get? name with
  | some v => exact .done v h
  | none => exact .stopped _ h

/-- Assigning a local keeps agreement, on this local as well. -/
theorem assign {name : String} (v : Value) (hn : V name) :
    Respects V (Machine.assign name v) := by
  intro E m m' h
  unfold Machine.assign
  rw [← h.locals name hn]
  cases m.locals.get? name with
  | some w => exact .done v (h.setLocal name v fun x hx => .inr hx)
  | none => exact .stopped _ h

/-- A call takes its result from the script that both machines have. -/
theorem call (callee : String) (args : List Value) : Respects V (Machine.call callee args) := by
  intro E m m' h
  have hr := h.record (.call callee args)
  unfold Machine.call
  simp only
  rw [← hr.failingCalls]
  by_cases hf : callee ∈ (m.record (.call callee args)).failingCalls
  · rw [if_pos hf, if_pos hf]
    exact .thrown _ hr
  · rw [if_neg hf, if_neg hf]
    unfold Machine.nextResult
    rw [← hr.scripts]
    rcases (m.record (.call callee args)).scripts.get? callee with _ | _ | ⟨v, rest⟩
    · exact .done _ hr
    · exact .done _ hr
    · exact .done _ { hr with scripts := rfl }

/-- All that expressions are evaluated with respects agreement on the locals in them. -/
theorem closed (calm : Bool) : Eval.Closed (fun _ x => Respects V x) V calm where
  pure := .pure
  bind := .bind
  stop := .stop
  getLocal _ := .getLocal
  assign _ := .assign
  raise _ _ := .raise
  call _ := .call

end Eval.Respects

/-- **An expression ends the same way on machines that agree on its locals.** -/
theorem Expr.eval_respects {V : String → Prop} {e : Expr} (hV : ∀ x ∈ e.locals, V x) :
    Eval.Respects V e.eval :=
  Expr.eval_closed (Eval.Respects.closed false) e hV Bool.noConfusion

theorem Expr.evalOption_respects {V : String → Prop} {e : Option Expr}
    (hV : ∀ e' ∈ e.toList, ∀ x ∈ e'.locals, V x) : Eval.Respects V (Expr.evalOption e) :=
  Expr.evalOption_closed (Eval.Respects.closed false) e hV Bool.noConfusion

/-- The same case is chosen if the locals in all tests agree. -/
theorem Case.choose_respects {V : String → Prop} {discriminant : Expr} {cases : List Case}
    (hV : ∀ e ∈ discriminant :: cases.filterMap Case.test, ∀ x ∈ e.locals, V x) :
    Eval.Respects V (Case.choose discriminant cases) :=
  .bind (Expr.eval_respects (hV _ List.mem_cons_self)) fun v =>
    Case.select_closed (Eval.Respects.closed false) v cases none fun e he => hV e (List.mem_cons_of_mem _ he)

/-! ## What evaluating keeps -/

/-- Evaluating that changes no local outside `S`, and that throws nothing that cannot be caught. -/
structure Eval.Keeps (S : String → Prop) {α : Type} (x : Eval α) : Prop where
  frame : ∀ m y, ¬S y → (x m).machine.locals.get? y = m.locals.get? y
  catchable : ∀ m t m', x m = .thrown t m' → t.catchable = true

namespace Eval.Keeps

variable {S : String → Prop} {α β : Type}

theorem pure (a : α) : Keeps S (Pure.pure a) := ⟨fun _ _ _ => rfl, fun _ _ _ h => nomatch h⟩

theorem stop (e : EvalError) : Keeps S (Eval.stop e : Eval α) :=
  ⟨fun _ _ _ => rfl, fun _ _ _ h => nomatch h⟩

theorem raise (v : Value) : Keeps S (Eval.raise v : Eval α) := by
  refine ⟨fun _ _ _ => rfl, fun m t m' h => ?_⟩
  rw [raise_apply, Outcome.thrown.injEq] at h
  rw [← h.1]

theorem bind {x : Eval α} {f : α → Eval β} (hx : Keeps S x) (hf : ∀ a, Keeps S (f a)) :
    Keeps S (x >>= f) := by
  refine ⟨fun m y hy => ?_, fun m t m' h => ?_⟩
  · have hm := hx.frame m y hy
    rw [bind_apply]
    generalize x m = o at hm ⊢
    cases o with
    | done a m₁ => exact ((hf a).frame m₁ y hy).trans hm
    | thrown t m₁ => exact hm
    | stopped e m₁ => exact hm
  · have hm := hx.catchable m
    rw [bind_apply] at h
    generalize x m = o at hm h
    cases o with
    | done a m₁ => exact (hf a).catchable m₁ t m' h
    | thrown t' m₁ =>
      obtain ⟨rfl, -⟩ := Outcome.thrown.inj h
      exact hm t' m₁ rfl
    | stopped e m₁ => cases h

theorem getLocal (name : String) : Keeps S (Machine.getLocal name) := by
  refine ⟨fun m y _ => ?_, fun m t m' h => ?_⟩ <;> unfold Machine.getLocal at *
  · cases m.locals.get? name <;> rfl
  · split at h <;> cases h

theorem assign {name : String} (v : Value) (hn : S name) : Keeps S (Machine.assign name v) := by
  refine ⟨fun m y hy => ?_, fun m t m' h => ?_⟩ <;> unfold Machine.assign at *
  · cases m.locals.get? name with
    | some w => exact Dict.get?_insert_ne _ _ fun he => hy (he ▸ hn)
    | none => rfl
  · split at h <;> cases h

theorem call (callee : String) (args : List Value) : Keeps S (Machine.call callee args) := by
  refine ⟨fun m y _ => ?_, fun m t m' h => ?_⟩ <;> unfold Machine.call Machine.nextResult at *
  · simp only
    split
    · rfl
    · split <;> rfl
  · simp only at h
    split at h
    · cases h
      rfl
    · cases h

theorem closed (calm : Bool) : Eval.Closed (fun _ x => Keeps S x) S calm where
  pure := .pure
  bind := .bind
  stop := .stop
  getLocal name _ := .getLocal name
  assign _ := .assign
  raise _ _ := .raise
  call _ := .call

end Eval.Keeps

/-- An expression changes no local but its own. -/
theorem Expr.eval_keeps {e : Expr} {es : List Expr} (he : e ∈ es) :
    Eval.Keeps (· ∈ es.flatMap Expr.locals) e.eval :=
  Expr.eval_closed (Eval.Keeps.closed false) e (fun _ hx => List.mem_flatMap.mpr ⟨e, he, hx⟩)
    Bool.noConfusion

theorem Expr.evalOption_keeps (e : Option Expr) :
    Eval.Keeps (· ∈ e.toList.flatMap Expr.locals) (Expr.evalOption e) :=
  Expr.evalOption_closed (Eval.Keeps.closed false) e
    (fun _ he _ hx => List.mem_flatMap.mpr ⟨_, he, hx⟩) Bool.noConfusion

theorem Case.choose_keeps (discriminant : Expr) (cases : List Case) :
    Eval.Keeps (· ∈ (discriminant :: cases.filterMap Case.test).flatMap Expr.locals)
      (Case.choose discriminant cases) := by
  refine .bind (Expr.eval_closed (Eval.Keeps.closed false) discriminant (fun x hx => ?_)
    Bool.noConfusion) fun v => Case.select_closed (Eval.Keeps.closed false) v cases none
      fun e he x hx => ?_
  · exact List.mem_flatMap.mpr ⟨_, List.mem_cons_self, hx⟩
  · exact List.mem_flatMap.mpr ⟨e, List.mem_cons_of_mem _ he, hx⟩

/-! ## What throws nothing -/

/-- Evaluating that throws nothing. -/
def Eval.Calm {α : Type} (x : Eval α) : Prop := ∀ m t m', x m ≠ .thrown t m'

/-- Nothing that a calm expression is evaluated with throws. -/
theorem Eval.Calm.closed : Eval.Closed (fun _ x => Eval.Calm x) (fun _ => True) true where
  pure _ _ _ _ h := nomatch h
  bind {_ _ x f} hx hf m t m' h := by
    have hm := hx m
    rw [Eval.bind_apply] at h
    generalize x m = o at hm h
    cases o with
    | done a m₁ => exact hf a m₁ t m' h
    | thrown t' m₁ => exact hm t' m₁ rfl
    | stopped e m₁ => cases h
  stop _ _ _ _ h := nomatch h
  getLocal name _ m t m' h := by
    unfold Machine.getLocal at h
    split at h <;> cases h
  assign name v _ m t m' h := by
    unfold Machine.assign at h
    split at h <;> cases h
  raise := Bool.noConfusion
  call := Bool.noConfusion

/-- A calm expression throws nothing, and a missing one does not either. -/
theorem Expr.evalOption_calm {e : Option Expr} (h : ∀ e' ∈ e.toList, e'.calm = true) :
    Eval.Calm (Expr.evalOption e) :=
  Expr.evalOption_closed Eval.Calm.closed e (fun _ _ _ _ => trivial) fun _ => h

theorem Expr.eval_calm {e : Expr} (h : e.calm = true) : Eval.Calm e.eval :=
  Expr.eval_closed Eval.Calm.closed e (fun _ _ => trivial) fun _ => h

/-- Literals and locals throw nothing. -/
theorem Expr.calm_of_isTrivial {e : Expr} (h : e.isTrivial = true) : e.calm = true := by
  cases e <;> first | rfl | cases h

end Lowering
