import Lowering.Text.Quoted
import Lowering.Tree.Expr

/-!
# Values

What expressions evaluate to. An `Optional<T>` is a value of its own, apart from the value it wraps
and from `null`.
-/

namespace Lowering

/-- A value. -/
inductive Value where
  | null
  | bool (b : Bool)
  | int (n : Int64)
  | str (s : String)
  | object (name : String)
  /-- the empty wrapper -/
  | absent
  /-- a wrapper around a value -/
  | present (inner : Value)
deriving DecidableEq, Repr

instance : Inhabited Value := ⟨.null⟩

namespace Value

/-- Whether a test with this value holds. -/
def truthy : Value → Bool
  | .null => false
  | .bool b => b
  | .int n => n != 0
  | _ => true

/-- Whether a value belongs to a type. -/
def hasType : Value → TargetType → Bool
  | .null, .nullable _ => true
  | .null, _ => false
  | _, .object => true
  | .bool _, .bool => true
  | .int _, .int => true
  | .str _, .string => true
  | .absent, .optional _ => true
  | .present _, .optional _ => true
  | v, .nullable t => v.hasType t
  | _, _ => false

/-- The value in a wrapper; `null` has the empty one. -/
def wrap : Value → Value
  | .null => .absent
  | v => .present v

/-- The value in a message. -/
def render : Value → String
  | .null => "Null"
  | .bool true => "Bool(true)"
  | .bool false => "Bool(false)"
  | .int n => "Int(" ++ toString n.toInt ++ ")"
  | .str s => "Str(" ++ Text.quote s ++ ")"
  | .object s => "Object(" ++ Text.quote s ++ ")"
  | .absent => "Wrapped(None)"
  | .present v => "Wrapped(Some(" ++ v.render ++ "))"

end Value

/-- The operator in a message. -/
def BinaryOp.render : BinaryOp → String
  | .add => "Add"
  | .sub => "Sub"
  | .lt => "Lt"
  | .eq => "Eq"
  | .and => "And"
  | .or => "Or"

end Lowering
