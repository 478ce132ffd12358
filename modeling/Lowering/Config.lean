/-!
# Configuration

The names that lowering makes up start from hints, and some formals can be kept out of the wrapper
representation.
-/

namespace Lowering

/-- Hints for the names that hoisting makes up. -/
structure HoistHints where
  /-- the label of a handler -/
  handler : String := "__catch"
  /-- the label behind a handler -/
  done : String := "__ok"
  /-- the local that holds a condition -/
  condition : String := "__cond"
deriving DecidableEq, Repr

/-- The configuration of a lowering. -/
structure Config where
  hints : HoistHints := {}
  /-- what the name of a bridged method gets for its primary -/
  primarySuffix : String := "_"
  /-- formals, by qualified name, that are never wrapped -/
  excludedFormals : List String := ["Comparable.T"]
deriving DecidableEq, Repr

instance : Inhabited Config := ⟨{}⟩

end Lowering
