import Lowering.Span

/-!
# Diagnostics

What lowering reports: an error for a method that cannot be lowered, a hint for a change that a
reader of the output may want to know. Every report has a code, and the code has a severity.
-/

namespace Lowering

inductive Severity where
  | hint
  /-- the method is left out of the output -/
  | error
deriving DecidableEq, Repr

def Severity.render : Severity → String
  | .hint => "hint"
  | .error => "error"

/-- What a diagnostic is about. -/
inductive Code where
  | suspensionInFinally
  | unsupportedSuspensionSite
  | tryRegionSplit
  | bridgeSynthesized
  | internalError
  | signatureMismatch
deriving DecidableEq, Repr

namespace Code

/-- The code as users know it: `U` for unsupported input, `H` for hints, `I` for faults of the
lowering itself or of its input's form. -/
def render : Code → String
  | .suspensionInFinally => "U001"
  | .unsupportedSuspensionSite => "U002"
  | .tryRegionSplit => "H001"
  | .bridgeSynthesized => "H002"
  | .internalError => "I001"
  | .signatureMismatch => "I002"

def severity : Code → Severity
  | .tryRegionSplit | .bridgeSynthesized => .hint
  | .suspensionInFinally | .unsupportedSuspensionSite | .internalError | .signatureMismatch =>
    .error

/-- All codes, in the order in which they are listed. -/
def all : List Code :=
  [.suspensionInFinally, .unsupportedSuspensionSite, .tryRegionSplit, .bridgeSynthesized,
    .internalError, .signatureMismatch]

/-- The code that a text names; capital and small ASCII letters count as the same. -/
def parse? (text : String) : Option Code :=
  all.find? fun c => c.render.toList.map Char.toLower == text.toList.map Char.toLower

end Code

/-- A place that belongs to a diagnostic. -/
structure Label where
  span : Span
  message : String
deriving DecidableEq, Repr

/-- A report. -/
structure Diagnostic where
  code : Code
  severity : Severity
  message : String
  help : Option String
  span : Span
  labels : List Label
deriving DecidableEq, Repr

namespace Diagnostic

/-- A report with the severity of its code. -/
def ofCode (code : Code) (span : Span) (message : String) : Diagnostic :=
  ⟨code, code.severity, message, none, span, []⟩

def isError (d : Diagnostic) : Bool := d.severity == .error

def isHint (d : Diagnostic) : Bool := d.severity == .hint

/-- How many reports are errors. -/
def errorCount (ds : List Diagnostic) : Nat := ds.countP isError

/-- How many reports are hints. -/
def hintCount (ds : List Diagnostic) : Nat := ds.countP isHint

end Diagnostic

end Lowering
