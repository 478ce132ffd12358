/-!
# JSON values

The values that the formats of this library use: texts, whole numbers, truth values, `null`, and
arrays and objects of them. An object keeps its fields in order, and a field may be there twice.

A JSON text can hold values that no format here uses: numbers with a fraction or an exponent,
strings whose escapes name no character, objects with such a string as a key. They are read as
`Json.other`, so that they can be skipped where a format skips values; nothing decodes them.
-/

namespace Lowering

/-- A JSON value. -/
inductive Json where
  | null
  | bool (b : Bool)
  | int (n : Int)
  | str (s : String)
  | arr (items : List Json)
  | obj (fields : List (String × Json))
  /-- a value that no format here uses -/
  | other

instance : Inhabited Json := ⟨.null⟩

namespace Json

/-- A number that is not negative. -/
def nat (n : Nat) : Json := .int n

def isNull : Json → Bool
  | .null => true
  | _ => false

/-- `null` for nothing. -/
def ofOption {α : Type} (f : α → Json) : Option α → Json
  | none => .null
  | some a => f a

/-- A tagged value: an object whose only field is the tag. -/
def tagged (tag : String) (content : Json) : Json := .obj [(tag, content)]

/-- A tagged record. -/
def variant (tag : String) (fields : List (String × Json)) : Json := .obj [(tag, .obj fields)]

/-! ## Depth -/

mutual

/-- How deep arrays and objects are nested. -/
def depth : Json → Nat
  | .arr items => depthItems items + 1
  | .obj fields => depthFields fields + 1
  | .null | .bool _ | .int _ | .str _ | .other => 0

def depthItems : List Json → Nat
  | [] => 0
  | j :: js => max j.depth (depthItems js)

def depthFields : List (String × Json) → Nat
  | [] => 0
  | (_, j) :: fs => max j.depth (depthFields fs)

end

/-! ## Order of fields -/

/-- Puts a field before the first one with a greater key. -/
def insertField (f : String × Json) : List (String × Json) → List (String × Json)
  | [] => [f]
  | g :: gs => if f.1 < g.1 then f :: g :: gs else g :: insertField f gs

mutual

/-- The same value, the fields of every object in the order of their keys. -/
def sortKeys : Json → Json
  | .arr items => .arr (sortKeysItems items)
  | .obj fields => .obj (sortKeysFields fields)
  | .null => .null
  | .bool b => .bool b
  | .int n => .int n
  | .str s => .str s
  | .other => .other

def sortKeysItems : List Json → List Json
  | [] => []
  | j :: js => j.sortKeys :: sortKeysItems js

def sortKeysFields : List (String × Json) → List (String × Json)
  | [] => []
  | (k, j) :: fs => insertField (k, j.sortKeys) (sortKeysFields fs)

end

end Json

end Lowering
