import Lowering.CallSite
import Lowering.Hoist
import Lowering.Tree.Declared

/-!
# Lowering a module

A method is lowered in two steps: its suspensions are hoisted, and then it is bridged if it is an
override that needs a bridge. All methods of a module draw their names from one supply, in which
every name that the module declares is taken beforehand. A method that cannot be lowered is reported
and left out; the others are lowered all the same. In the end the module's own calls of bridged
methods are converted.
-/

namespace Lowering

/-! ## Input and output -/

/-- A method with what is known about it. -/
structure MethodUnit where
  method : Method
  /-- its types before lowering -/
  signature : Option Signature
  overrides : List OverriddenMember

/-- The methods that are lowered together. -/
structure ModuleUnit where
  name : String
  methods : List MethodUnit

/-- What became of a method. -/
inductive LoweredForm where
  | plain (decl : Method)
  | bridged (pair : BridgePair) (adjustment : Adjustment)

/-- A lowered method. -/
structure LoweredMethod where
  /-- the name before lowering -/
  name : String
  form : LoweredForm
  /-- how many tries were split -/
  splits : Nat
  /-- how many calls of bridged methods were converted -/
  callsAdapted : Nat

/-- A lowered module with what there is to report. -/
structure LoweredModule where
  name : String
  methods : List LoweredMethod
  diagnostics : List Diagnostic

namespace LoweredForm

/-- The declarations of the output; a bridge stands before its primary. -/
def decls : LoweredForm → List Method
  | .plain decl => [decl]
  | .bridged pair _ => [pair.bridge, pair.primary]

def adjustment? : LoweredForm → Option Adjustment
  | .plain _ => none
  | .bridged _ a => some a

def isBridged (f : LoweredForm) : Bool := f.adjustment?.isSome

/-- The name of the primary of a bridged method. -/
def primary? : LoweredForm → Option String
  | .plain _ => none
  | .bridged pair _ => some pair.primary.name

/-- Converts the calls of bridged methods in every declaration. -/
def adaptCalls (cs : Callees) : LoweredForm → Counted LoweredForm
  | .plain decl => do
    let decl ← decl.adaptCalls cs
    return .plain decl
  | .bridged pair a => do
    let bridge ← pair.bridge.adaptCalls cs
    let primary ← pair.primary.adaptCalls cs
    return .bridged ⟨bridge, primary⟩ a

end LoweredForm

/-! ## Methods -/

variable {σ : Type} [NameSupply σ]

/-- The changes that a method needs as an override. -/
def MethodUnit.adjustment? (config : Config) (unit : MethodUnit) : Option Adjustment :=
  match unit.signature with
  | some s =>
    if unit.overrides.isEmpty then none else s.adjust? config.excludedFormals unit.overrides
  | none => none

/-- Lowers a method. -/
def MethodUnit.lower (config : Config) (unit : MethodUnit) (names : σ) :
    Except LowerError LoweredMethod × σ :=
  match unit.method.body.hoist config.hints names with
  | (.error e, names) => (.error e, names)
  | (.ok hoisted, names) =>
    let method := { unit.method with body := hoisted.body }
    match unit.adjustment? config with
    | none => (.ok ⟨method.name, .plain method, hoisted.splits, 0⟩, names)
    | some a =>
      match method.bridge config.primarySuffix a names with
      | (.error e, names) => (.error e, names)
      | (.ok pair, names) => (.ok ⟨method.name, .bridged pair a, hoisted.splits, 0⟩, names)

/-- What there is to report of a method that was lowered. -/
def LoweredMethod.notes (m : LoweredMethod) (span : Span) : List Diagnostic :=
  (if m.splits > 0 then
    [Diagnostic.ofCode .tryRegionSplit span
      ("split " ++ toString m.splits ++ " try region(s) around suspension points in `" ++
        m.name ++ "`")]
  else []) ++
  match m.form.primary? with
  | some primary =>
    [Diagnostic.ofCode .bridgeSynthesized span
      ("`" ++ m.name ++ "` now forwards to private `" ++ primary ++
        "` with native parameter types")]
  | none => []

/-- Lowers methods one after the other. -/
def MethodUnit.lowerAll (config : Config) :
    List MethodUnit → σ → List (MethodUnit × Except LowerError LoweredMethod)
  | [], _ => []
  | unit :: units, names =>
    let (result, names) := unit.lower config names
    (unit, result) :: MethodUnit.lowerAll config units names

/-! ## Modules -/

/-- The bridged methods among lowered ones. Of two with one name the later counts. -/
def LoweredMethod.callees (methods : List LoweredMethod) : Callees :=
  methods.foldl (fun cs m =>
    match m.form with
    | .plain _ => cs
    | .bridged pair a => cs.insert pair.bridge.name (pair.callee a)) .empty

/-- Converts the calls of bridged methods in a method. -/
def LoweredMethod.adaptCalls (cs : Callees) (m : LoweredMethod) : LoweredMethod :=
  let form := m.form.adaptCalls cs
  { m with form := form.value, callsAdapted := form.count }

/-- The names that the methods of a module declare, all taken. -/
def ModuleUnit.names (module : ModuleUnit) : Names :=
  module.methods.foldl (fun names unit => names.reserveMethod unit.method) .empty

/-- What there is to report of one method. -/
def MethodUnit.report (unit : MethodUnit) : Except LowerError LoweredMethod → List Diagnostic
  | .ok lowered => lowered.notes unit.method.span
  | .error e => [e.toDiagnostic]

/-- Lowers a module. -/
def ModuleUnit.lower (config : Config) (module : ModuleUnit) : LoweredModule :=
  let results := MethodUnit.lowerAll config module.methods module.names
  let methods := results.filterMap fun (_, r) => r.toOption
  let callees := LoweredMethod.callees methods
  { name := module.name
    methods := methods.map (·.adaptCalls callees)
    diagnostics := results.flatMap fun (unit, r) => unit.report r }

end Lowering
