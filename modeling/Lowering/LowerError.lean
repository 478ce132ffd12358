import Lowering.Diagnostic

/-!
# Why a method cannot be lowered
-/

namespace Lowering

/-- A fault of hoisting itself. -/
inductive HoistFault where
  /-- a branch or a loop body that is no block -/
  | expectedBlock (found : String)
  /-- a suspension that is inside a try with a handler after all -/
  | leftInside
deriving DecidableEq, Repr

def HoistFault.message : HoistFault → String
  | .expectedBlock found => "expected a block, found a " ++ found
  | .leftInside => "suspension point still inside a try with a catch clause after hoisting"

/-- Why a method cannot be lowered. -/
inductive LowerError where
  /-- a suspension in the cleanup of a try -/
  | suspensionInFinally (span trySpan : Span)
  /-- a switch that suspends, in the body of a try with a handler -/
  | suspendingSwitch (span : Span)
  /-- a method whose parameters are not as many as its signature has -/
  | signatureMismatch (method : String) (expected found : Nat) (span : Span)
  | internal (fault : HoistFault) (span : Span)
deriving DecidableEq, Repr

namespace LowerError

def message : LowerError → String
  | .suspensionInFinally .. => "suspension point inside a finally block"
  | .suspendingSwitch .. =>
    "suspension inside a switch under an active catch handler is not yet supported"
  | .signatureMismatch method expected found _ =>
    "method `" ++ method ++ "` declares " ++ toString found ++
      " parameter(s) but its signature has " ++ toString expected
  | .internal fault _ => "internal error: " ++ fault.message

def span : LowerError → Span
  | .suspensionInFinally s _ | .suspendingSwitch s | .signatureMismatch _ _ _ s | .internal _ s => s

def code : LowerError → Code
  | .suspensionInFinally .. => .suspensionInFinally
  | .suspendingSwitch .. => .unsupportedSuspensionSite
  | .signatureMismatch .. => .signatureMismatch
  | .internal .. => .internalError

/-- The error as a report. -/
def toDiagnostic (e : LowerError) : Diagnostic :=
  let d := Diagnostic.ofCode e.code e.span e.message
  match e with
  | .suspensionInFinally _ trySpan =>
    { d with
      labels := [⟨trySpan, "in the finally clause of this try"⟩]
      help := some "move the suspension out of the finally block" }
  | .suspendingSwitch _ =>
    { d with help := some "move the suspension out of the construct or out of the try body" }
  | .signatureMismatch .. | .internal .. => d

end LowerError

end Lowering
