import Lowering.Proofs.Hoist.Independence
import Lowering.Proofs.Module.CallSites

/-!
# What becomes of a method depends on that method alone

All methods of a module draw their names from one supply, also those that fail halfway. Still each
of them is accepted or refused on its own account: the *verdict* on a method is the same for every
supply in every state (`MethodUnit.verdict_lower`). So the reports and the lowered methods of a module
are those of its methods one by one, in their order (`ModuleUnit.reports_lower`).
-/

namespace Lowering

/-! ## Verdicts -/

/-- What of a lowered method shows no name that was made up: the report if it was refused, and
otherwise how many of its tries were split and how its signature changes. -/
def LoweredMethod.verdict : Except LowerError LoweredMethod → Except Diagnostic (Nat × Option Adjustment)
  | .ok m => .ok (m.splits, m.form.adjustment?)
  | .error e => .error e.toDiagnostic

/-- The verdict on a method, lowered where no name is in use. -/
def MethodUnit.verdict (config : Config) (unit : MethodUnit) : Except Diagnostic (Nat × Option Adjustment) :=
  LoweredMethod.verdict (unit.lower config Names.empty).1

section Supplies

variable {σ τ : Type} [NameSupply σ] [NameSupply τ] (config : Config)

/-- Two supplies lead to one verdict. -/
theorem MethodUnit.verdict_alike (unit : MethodUnit) (s : σ) (t : τ) :
    LoweredMethod.verdict (unit.lower config s).1 = LoweredMethod.verdict (unit.lower config t).1 := by
  have hdecision := Block.hoist_decision config.hints config.hints unit.method.body s t
  unfold MethodUnit.lower
  generalize unit.method.body.hoist config.hints s = r at hdecision ⊢
  generalize unit.method.body.hoist config.hints t = r' at hdecision ⊢
  obtain ⟨result, s₁⟩ := r
  obtain ⟨result', t₁⟩ := r'
  cases result with
  | error e =>
    cases result' with
    | ok hoisted' => cases hdecision
    | error e' =>
      cases hdecision
      rfl
  | ok hoisted =>
    cases result' with
    | error e' => cases hdecision
    | ok hoisted' =>
      have hsplits : hoisted.splits = hoisted'.splits := Except.ok.inj hdecision
      cases unit.adjustment? config with
      | none =>
        dsimp only
        rw [hsplits]
        rfl
      | some a =>
        -- bridging looks at the number of parameters only
        dsimp only [Method.bridge]
        rw [hsplits]
        by_cases hl : unit.method.params.length ≠ a.unadjusted.arity
        · rw [if_pos hl, if_pos hl]
        · rw [if_neg hl, if_neg hl]
          rfl

/-- **The verdict on a method is the same for every supply of names, in every state.** -/
theorem MethodUnit.verdict_lower (unit : MethodUnit) (names : σ) :
    LoweredMethod.verdict (unit.lower config names).1 = unit.verdict config :=
  unit.verdict_alike config names Names.empty

end Supplies

/-! ## Reports -/

theorem LowerError.isError_toDiagnostic (e : LowerError) : e.toDiagnostic.isError = true := by
  cases e <;> rfl

theorem Diagnostic.not_isError_of_isHint {d : Diagnostic} (h : d.isHint = true) : ¬d.isError = true := by
  intro he
  have hhint : d.severity = .hint := beq_iff_eq.mp h
  rw [Diagnostic.isError, hhint] at he
  cases he

/-- The codes of the hints on a lowered method: one if tries were split, one if it is bridged. -/
def LoweredMethod.hintCodes (m : LoweredMethod) : List String :=
  (if 0 < m.splits then ["H001"] else []) ++ if 1 < m.form.decls.length then ["H002"] else []

/-- A method leaves the hints that are due, each with its code. -/
theorem LoweredMethod.codes_notes (m : LoweredMethod) (span : Span) :
    (m.notes span).map (fun d => d.code.render) = m.hintCodes := by
  unfold LoweredMethod.notes LoweredMethod.hintCodes
  rw [List.map_append]
  congr 1
  · split
    · rfl
    · rfl
  · cases m.form with
    | plain decl => rfl
    | bridged pair a => rfl

/-- All notes on a method are hints at its own place. -/
theorem LoweredMethod.mem_notes {m : LoweredMethod} {span : Span} {d : Diagnostic}
    (hd : d ∈ m.notes span) : d.isHint = true ∧ d.span = span := by
  unfold LoweredMethod.notes at hd
  rcases List.mem_append.mp hd with hd | hd
  · split at hd
    · obtain rfl := List.mem_singleton.mp hd
      exact ⟨rfl, rfl⟩
    · cases hd
  · cases hp : m.form.primary? with
    | none =>
      rw [hp] at hd
      cases hd
    | some primary =>
      rw [hp] at hd
      obtain rfl := List.mem_singleton.mp hd
      exact ⟨rfl, rfl⟩

/-- Converting calls changes neither the splits nor the adjustment. -/
theorem LoweredMethod.verdict_adaptCalls (cs : Callees) (m : LoweredMethod) :
    LoweredMethod.verdict (.ok (m.adaptCalls cs)) = LoweredMethod.verdict (.ok m) := by
  have hadjustment : (m.adaptCalls cs).form.adjustment? = m.form.adjustment? := by
    rw [m.form_adaptCalls cs]
    cases m.form with
    | plain decl => rfl
    | bridged pair a => rfl
  exact congrArg (fun a => Except.ok (m.splits, a)) hadjustment

theorem LoweredMethod.hintCodes_adaptCalls (cs : Callees) (m : LoweredMethod) :
    (m.adaptCalls cs).hintCodes = m.hintCodes := by
  unfold LoweredMethod.hintCodes
  rw [m.form_adaptCalls cs, LoweredForm.decls_mapCalls, List.length_map]
  rfl

/-- What comes of methods, in their order: the lowered ones and the reports. A refused method leaves one
error, and an accepted one leaves its hints, all at its own place. -/
inductive MethodUnit.Reports (config : Config) :
    List MethodUnit → List LoweredMethod → List Diagnostic → Prop where
  | nil : Reports config [] [] []
  | refused {unit : MethodUnit} {report : Diagnostic} {units : List MethodUnit} {ms : List LoweredMethod}
    {reports : List Diagnostic} (verdict : unit.verdict config = .error report)
    (error : report.isError = true) (rest : Reports config units ms reports) :
    Reports config (unit :: units) ms (report :: reports)
  | accepted {unit : MethodUnit} {m : LoweredMethod} {hints : List Diagnostic} {units : List MethodUnit}
    {ms : List LoweredMethod} {reports : List Diagnostic}
    (verdict : unit.verdict config = LoweredMethod.verdict (.ok m)) (name : m.name = unit.method.name)
    (codes : hints.map (fun d => d.code.render) = m.hintCodes)
    (places : ∀ d ∈ hints, d.isHint = true ∧ d.span = unit.method.span)
    (rest : Reports config units ms reports) :
    Reports config (unit :: units) (m :: ms) (hints ++ reports)

theorem MethodUnit.name_of_lower {σ : Type} [NameSupply σ] {config : Config} {unit : MethodUnit} {names : σ}
    {m : LoweredMethod} (h : (unit.lower config names).1 = .ok m) : m.name = unit.method.name := by
  obtain ⟨hoisted, names₁, -, hname, -⟩ := MethodUnit.lower_cases (Prod.ext h rfl)
  exact hname

/-- **Methods are reported on one after the other**: the induction is on the methods, with any supply of
names. -/
theorem MethodUnit.reports_lowerAll {σ : Type} [NameSupply σ] (config : Config) (cs : Callees)
    (units : List MethodUnit) (names : σ) :
    MethodUnit.Reports config units
      ((MethodUnit.acceptedIn (MethodUnit.lowerAll config units names)).map fun u => u.2.adaptCalls cs)
      ((MethodUnit.lowerAll config units names).flatMap fun (unit, r) => unit.report r) := by
  induction units generalizing names with
  | nil => exact .nil
  | cons unit units ih =>
    have hverdict := unit.verdict_lower config names
    rw [MethodUnit.lowerAll_cons, List.flatMap_cons]
    cases hr : (unit.lower config names).1 with
    | error e =>
      rw [hr] at hverdict
      rw [MethodUnit.acceptedIn_error]
      exact .refused hverdict.symm e.isError_toDiagnostic (ih _)
    | ok m =>
      rw [hr] at hverdict
      rw [MethodUnit.acceptedIn_ok, List.map_cons]
      have hname : m.name = unit.method.name := MethodUnit.name_of_lower hr
      refine .accepted ?_ hname ?_ ?_ (ih _)
      · rw [m.verdict_adaptCalls, hverdict]
      · rw [m.hintCodes_adaptCalls]
        exact m.codes_notes unit.method.span
      · exact fun d hd => LoweredMethod.mem_notes hd

theorem ModuleUnit.reports_lower (config : Config) (module : ModuleUnit) :
    MethodUnit.Reports config module.methods (module.lower config).methods
      (module.lower config).diagnostics := by
  rw [ModuleUnit.methods_lower]
  exact MethodUnit.reports_lowerAll config _ module.methods module.names

/-! ## Other methods of the module -/

/-- What of a lowered method is decided by the method alone. -/
def LoweredMethod.view (m : LoweredMethod) : String × Nat × Option Adjustment :=
  (m.name, m.splits, m.form.adjustment?)

/-- The view of a method once it is lowered, if it is accepted. -/
def MethodUnit.view? (config : Config) (unit : MethodUnit) : Option (String × Nat × Option Adjustment) :=
  (unit.verdict config).toOption.map (unit.method.name, ·)

/-- The report on a method, if it is refused. -/
def MethodUnit.refusal? (config : Config) (unit : MethodUnit) : Option Diagnostic :=
  match unit.verdict config with
  | .error report => some report
  | .ok _ => none

namespace MethodUnit.Reports

variable {config : Config} {units : List MethodUnit} {ms : List LoweredMethod} {reports : List Diagnostic}

/-- The lowered methods are those that are accepted, in order. -/
theorem views (h : Reports config units ms reports) :
    ms.map LoweredMethod.view = units.filterMap (MethodUnit.view? config) := by
  induction h with
  | nil => rfl
  | refused verdict error rest ih =>
    rw [ih, List.filterMap_cons_none]
    rw [MethodUnit.view?, verdict]
    rfl
  | accepted verdict name codes places rest ih =>
    rw [List.map_cons, ih, List.filterMap_cons_some]
    rw [MethodUnit.view?, verdict, ← name]
    rfl

/-- The errors are the reports on those that are refused, in order. -/
theorem errors (h : Reports config units ms reports) :
    reports.filter Diagnostic.isError = units.filterMap (MethodUnit.refusal? config) := by
  induction h with
  | nil => rfl
  | refused verdict error rest ih =>
    rw [List.filter_cons_of_pos error, ih, List.filterMap_cons_some]
    rw [MethodUnit.refusal?, verdict]
  | accepted verdict name codes places rest ih =>
    have hhints : List.filter Diagnostic.isError _ = [] :=
      List.filter_eq_nil_iff.mpr fun d hd => Diagnostic.not_isError_of_isHint (places d hd).1
    rw [List.filter_append, hhints, List.nil_append, ih, List.filterMap_cons_none]
    rw [MethodUnit.refusal?, verdict]
    rfl

end MethodUnit.Reports

/-- **What becomes of a method depends on that method alone.** The verdict on it is the same for every
supply of names. What a module gives is what its methods give, in their order. With the methods in
another order the lowered methods and the errors are the same up to order, and with some methods left
out, those of the others stay. -/
theorem ModuleUnit.lower_independent (config : Config) (module : ModuleUnit) :
    (∀ (σ : Type) [NameSupply σ] (unit : MethodUnit) (names : σ),
      LoweredMethod.verdict (unit.lower config names).1 = unit.verdict config) ∧
    MethodUnit.Reports config module.methods (module.lower config).methods
      (module.lower config).diagnostics ∧
    ∀ module' : ModuleUnit,
      (module'.methods.Perm module.methods →
        ((module'.lower config).methods.map LoweredMethod.view).Perm
            ((module.lower config).methods.map LoweredMethod.view) ∧
          ((module'.lower config).diagnostics.filter Diagnostic.isError).Perm
            ((module.lower config).diagnostics.filter Diagnostic.isError)) ∧
      (module'.methods.Sublist module.methods →
        ((module'.lower config).methods.map LoweredMethod.view).Sublist
            ((module.lower config).methods.map LoweredMethod.view) ∧
          ((module'.lower config).diagnostics.filter Diagnostic.isError).Sublist
            ((module.lower config).diagnostics.filter Diagnostic.isError)) := by
  refine ⟨fun σ _ unit names => unit.verdict_lower config names, module.reports_lower config,
    fun module' => ?_⟩
  have hviews := (module.reports_lower config).views
  have hviews' := (module'.reports_lower config).views
  have herrors := (module.reports_lower config).errors
  have herrors' := (module'.reports_lower config).errors
  rw [hviews, hviews', herrors, herrors']
  exact ⟨fun h => ⟨h.filterMap _, h.filterMap _⟩, fun h => ⟨h.filterMap _, h.filterMap _⟩⟩

/-- `void k() { try { } finally { yield; } }`, which is refused -/
def MethodUnit.yieldInFinally : MethodUnit :=
  .procedure "k" [.attempt ⟨[], .dummy⟩ none (some ⟨[.suspend .yield none .dummy], .dummy⟩) .dummy]

/-- What is reported of it. -/
def Diagnostic.yieldInFinally : Diagnostic where
  code := .suspensionInFinally
  severity := .error
  message := "suspension point inside a finally block"
  help := some "move the suspension out of the finally block"
  span := .dummy
  labels := [⟨.dummy, "in the finally clause of this try"⟩]

/-- A method that is refused, in front of others. -/
def ModuleUnit.retryBehindRefused : ModuleUnit :=
  { retry with methods := MethodUnit.yieldInFinally :: retry.methods }

/-- With every supply of names the first method is refused with one report, and the others are lowered
as they are without it. -/
theorem ModuleUnit.lower_independent_refused :
    (∀ (σ : Type) [NameSupply σ] (names : σ),
      LoweredMethod.verdict (MethodUnit.yieldInFinally.lower {} names).1 = .error .yieldInFinally) ∧
    (retryBehindRefused.lower {}).diagnostics.filter Diagnostic.isError = [.yieldInFinally] ∧
    (retryBehindRefused.lower {}).diagnostics.map (fun d => d.code.render) = ["U001", "H001", "H002"] ∧
    (retryBehindRefused.lower {}).methods.map LoweredMethod.name = ["f", "g"] ∧
    retry.methods.Sublist retryBehindRefused.methods ∧
    ((retry.lower {}).methods.map LoweredMethod.view).Sublist
      ((retryBehindRefused.lower {}).methods.map LoweredMethod.view) ∧
    ((retry.lower {}).diagnostics.filter Diagnostic.isError).Sublist
      ((retryBehindRefused.lower {}).diagnostics.filter Diagnostic.isError) := by
  obtain ⟨hverdict, -, hothers⟩ := lower_independent {} retryBehindRefused
  have hrefused : MethodUnit.yieldInFinally.verdict {} = .error .yieldInFinally := by rfl
  have hsub : retry.methods.Sublist retryBehindRefused.methods := List.sublist_cons_self _ _
  exact ⟨fun σ _ names => (hverdict σ _ names).trans hrefused, by decide +kernel, by decide +kernel,
    by decide +kernel, hsub, (hothers retry).2 hsub⟩

end Lowering
