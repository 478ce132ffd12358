import Lowering.Proofs.Eval.Clock

/-!
# Calls and their arguments

Arguments are evaluated one after the other. A call is recorded, and then it throws or gives the next
result of its script.
-/

namespace Lowering

@[simp] theorem Outcome.bind_done_right {α : Type} (o : Outcome α) : o.bind .done = o := by
  cases o <;> rfl

/-- What comes one after the other can be grouped in any way. -/
theorem Outcome.bind_assoc {α β γ : Type} (o : Outcome α) (f : α → Machine → Outcome β)
    (g : β → Machine → Outcome γ) : (o.bind f).bind g = o.bind fun a m => (f a m).bind g := by
  cases o <;> rfl

instance : LawfulMonad Eval :=
  .mk' Eval (fun _ => funext fun _ => Outcome.bind_done_right _) (fun _ _ => rfl)
    (fun _ _ _ => funext fun _ => Outcome.bind_assoc _ _ _)

/-! ## Arguments -/

/-- Arguments are evaluated from left to right. -/
theorem Expr.evalAll_cons (e : Expr) (es : List Expr) (m : Machine) :
    Expr.evalAll (e :: es) m =
      (e.eval m).bind fun v m' => (Expr.evalAll es m').bind fun vs m'' => .done (v :: vs) m'' := by
  rw [Expr.evalAll]
  rfl

/-- There are as many values as arguments. -/
theorem Expr.length_evalAll {es : List Expr} {m m' : Machine} {vs : List Value}
    (h : Expr.evalAll es m = .done vs m') : vs.length = es.length := by
  induction es generalizing m vs with
  | nil =>
    cases h
    rfl
  | cons e es ih =>
    rw [Expr.evalAll_cons] at h
    cases he : e.eval m with
    | done v m₁ =>
      rw [he, Outcome.bind_done] at h
      cases hes : Expr.evalAll es m₁ with
      | done vs₁ m₂ =>
        rw [hes] at h
        cases h
        rw [List.length_cons, List.length_cons, ih hes]
      | thrown t m₂ =>
        rw [hes] at h
        cases h
      | stopped err m₂ =>
        rw [hes] at h
        cases h
    | thrown t m₁ =>
      rw [he] at h
      cases h
    | stopped err m₁ =>
      rw [he] at h
      cases h

/-- Arguments that leave the machine as it is are evaluated each by itself. -/
theorem Expr.evalAll_eq_done {es : List Expr} {vs : List Value} {m : Machine}
    (hl : es.length = vs.length)
    (h : ∀ (i : Nat) (e : Expr) (v : Value), es[i]? = some e → vs[i]? = some v → e.eval m = .done v m) :
    Expr.evalAll es m = .done vs m := by
  induction es generalizing vs with
  | nil =>
    cases vs with
    | nil => rfl
    | cons v vs => cases hl
  | cons e es ih =>
    cases vs with
    | nil => cases hl
    | cons v vs =>
      have hes := ih (Nat.succ.inj hl) fun i e' v' => h (i + 1) e' v'
      rw [Expr.evalAll_cons, h 0 e v rfl rfl, Outcome.bind_done, hes, Outcome.bind_done]

/-! ## Calls -/

namespace Machine

variable {m : Machine} {callee : String} {args : List Value}

/-- A call that is to fail is recorded and throws its name. -/
theorem call_of_mem (h : callee ∈ m.failingCalls) :
    Machine.call callee args m = .thrown ⟨.str callee, true⟩ (m.record (.call callee args)) :=
  if_pos h

theorem call_of_not_mem (h : callee ∉ m.failingCalls) :
    Machine.call callee args m = .done ((m.record (.call callee args)).nextResult callee).1
      ((m.record (.call callee args)).nextResult callee).2 :=
  if_neg h

/-- What is left of the script of a callee. -/
def script (m : Machine) (callee : String) : List Value := (m.scripts.get? callee).getD []

/-- A call without results left answers `null`, and nothing but the scripts changes. -/
theorem nextResult_eq (m : Machine) (callee : String) :
    (m.nextResult callee).1 = (m.script callee).headD .null ∧
      ∃ scripts, (m.nextResult callee).2 = { m with scripts } := by
  unfold nextResult script
  rcases m.scripts.get? callee with _ | _ | ⟨v, rest⟩
  · exact ⟨rfl, _, rfl⟩
  · exact ⟨rfl, _, rfl⟩
  · exact ⟨rfl, _, rfl⟩

theorem script_eq_nil_or_cons (m : Machine) (callee : String) :
    m.script callee = [] ∨ ∃ v rest, m.scripts.get? callee = some (v :: rest) := by
  unfold script
  rcases m.scripts.get? callee with _ | _ | ⟨v, rest⟩
  · exact .inl rfl
  · exact .inl rfl
  · exact .inr ⟨v, rest, rfl⟩

theorem call_of_script_nil (hf : callee ∉ m.failingCalls) (hs : m.script callee = []) :
    Machine.call callee args m = .done .null (m.record (.call callee args)) := by
  have hscripts : (m.record (.call callee args)).scripts = m.scripts := rfl
  rw [call_of_not_mem hf]
  unfold nextResult
  unfold script at hs
  rw [hscripts]
  rcases hg : m.scripts.get? callee with _ | _ | ⟨v, rest⟩
  · rfl
  · rfl
  · rw [hg] at hs
    cases hs

theorem call_of_script_cons {v : Value} {rest : List Value} (hf : callee ∉ m.failingCalls)
    (hs : m.scripts.get? callee = some (v :: rest)) :
    Machine.call callee args m = .done v
      { m.record (.call callee args) with scripts := m.scripts.insert callee rest } := by
  have hscripts : (m.record (.call callee args)).scripts = m.scripts := rfl
  rw [call_of_not_mem hf]
  unfold nextResult
  rw [hscripts, hs]

/-- A call is recorded, and takes at most a result from its script. -/
theorem machine_call (callee : String) (args : List Value) (m : Machine) :
    ∃ scripts, (Machine.call callee args m).machine =
      { m.record (.call callee args) with scripts } := by
  by_cases hf : callee ∈ m.failingCalls
  · exact ⟨m.scripts, by rw [call_of_mem hf]; rfl⟩
  · obtain ⟨-, scripts, hm⟩ := (m.record (.call callee args)).nextResult_eq callee
    exact ⟨scripts, by rw [call_of_not_mem hf]; exact hm⟩

/-- Of the events that are recorded, only calls are listed. -/
theorem calls_record (m : Machine) (e : Event) : (m.record e).calls = m.calls ++ e.callee?.toList := by
  unfold calls
  rw [trace_record, List.filterMap_append]
  cases e <;> rfl

/-- What a call gives depends on the calls that throw and on the scripts, and it is recorded. -/
theorem call_cases (callee : String) (args : List Value) {m m' : Machine}
    (hf : m'.failingCalls = m.failingCalls) (hs : m'.scripts = m.scripts) :
    (∃ t n n', Machine.call callee args m = .thrown t n ∧ Machine.call callee args m' = .thrown t n' ∧
        n'.trace = m'.trace ++ [.call callee args]) ∨
      ∃ r n n', Machine.call callee args m = .done r n ∧ Machine.call callee args m' = .done r n' ∧
        n'.trace = m'.trace ++ [.call callee args] := by
  by_cases h : callee ∈ m.failingCalls
  · exact .inl ⟨_, _, _, call_of_mem h, call_of_mem (hf ▸ h), trace_record _ _⟩
  · obtain ⟨hr, -⟩ := (m.record (.call callee args)).nextResult_eq callee
    obtain ⟨hr', scripts, hm'⟩ := (m'.record (.call callee args)).nextResult_eq callee
    have hscript : (m'.record (.call callee args)).script callee =
        (m.record (.call callee args)).script callee := by
      show (m'.scripts.get? callee).getD [] = (m.scripts.get? callee).getD []
      rw [hs]
    rw [hscript, ← hr] at hr'
    refine .inr ⟨_, _, ((m'.record (.call callee args)).nextResult callee).2, call_of_not_mem h, ?_, ?_⟩
    · rw [call_of_not_mem (hf ▸ h), hr']
    · rw [hm']
      exact trace_record m' _

end Machine

end Lowering
