import Lowering.Json
import Lowering.Word

/-!
# Decoding JSON values

The parts from which decoders are built. A decoder gives nothing for a value of another form.

* A *record* is an object, whose unknown fields are skipped and whose known fields are there at most
  once, or an array of the fields in their order. Fields at the end of an array may be missing; an
  array with too many items is no record.
* A *variant* is a tag alone, or an object whose only field is the tag.

Every array and every object that is decoded costs one level of depth, and what it holds is decoded
with the levels that are left. Skipped values cost nothing.
-/

namespace Lowering.Json

/-- How many levels of arrays and objects are decoded. -/
def maxDepth : Nat := 127

/-! ## Values without parts -/

def string? : Json → Option String
  | .str s => some s
  | _ => none

def bool? : Json → Option Bool
  | .bool b => some b
  | _ => none

def int64? : Json → Option Int64
  | .int n => Word.int64? n
  | _ => none

def uint32? : Json → Option UInt32
  | .int n => Word.uint32? n
  | _ => none

/-! ## Lists, options and dictionaries -/

/-- An array, each item by the same decoder. -/
def list? {α : Type} (depth : Nat) (item : Json → Option α) : Json → Option (List α)
  | .arr items => if depth = 0 then none else items.mapM item
  | _ => none

/-- `null`, or a value. -/
def option? {α : Type} (value : Json → Option α) : Json → Option (Option α)
  | .null => some none
  | j => (value j).map some

/-- An object with arbitrary keys, as its fields in order. -/
def entries? {α : Type} (depth : Nat) (value : Json → Option α) : Json → Option (List (String × α))
  | .obj fields =>
    if depth = 0 then none else fields.mapM fun (k, j) => (value j).map fun v => (k, v)
  | _ => none

/-! ## Records -/

/-- The known fields that a record has. -/
structure Fields where
  values : List (String × Json)
  /-- whether the record was an array -/
  positional : Bool

/-- Whether no name is there twice. -/
def distinctNames : List (String × Json) → Bool
  | [] => true
  | (k, _) :: rest => !(rest.any fun f => f.1 == k) && distinctNames rest

/-- The fields of a record with the given names. -/
def fields? (depth : Nat) (names : List String) (j : Json) : Option Fields :=
  if depth = 0 then none
  else
    match j with
    | .obj fields =>
      let known := fields.filter fun f => names.contains f.1
      if distinctNames known then some ⟨known, false⟩ else none
    | .arr items => if items.length ≤ names.length then some ⟨names.zip items, true⟩ else none
    | _ => none

namespace Fields

variable {α : Type}

def get? (f : Fields) (name : String) : Option Json := f.values.lookup name

/-- A field that must be there. -/
def required (f : Fields) (name : String) (value : Json → Option α) : Option α :=
  (f.get? name).bind value

/-- A field that is `null` if it is left out; an array leaves out none. -/
def optional (f : Fields) (name : String) (value : Json → Option α) : Option (Option α) :=
  match f.get? name with
  | some j => option? value j
  | none => if f.positional then none else some none

/-- A field with a value of its own if it is left out. -/
def defaulted (f : Fields) (name : String) (default : α) (value : Json → Option α) : Option α :=
  match f.get? name with
  | some j => value j
  | none => some default

end Fields

/-! ## Variants -/

/-- A variant without content: its tag alone, or with `null`. -/
def unitTag? (depth : Nat) : Json → Option String
  | .str tag => some tag
  | .obj [(tag, .null)] => if depth = 0 then none else some tag
  | _ => none

/-- The tag and the content of a variant. -/
def variant? (depth : Nat) : Json → Option (String × Json)
  | .obj [(tag, content)] => if depth = 0 then none else some (tag, content)
  | _ => none

end Lowering.Json
