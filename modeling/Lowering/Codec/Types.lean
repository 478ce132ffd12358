import Lowering.Json.Decode
import Lowering.Span
import Lowering.TargetType

/-!
# Types and spans in JSON
-/

namespace Lowering

open Json (fields? list? option? unitTag? variant?)

/-! ## Spans -/

def Span.encode (s : Span) : Json :=
  .obj [("file_id", .nat s.file.toNat), ("start", .nat s.start.toNat), ("end", .nat s.stop.toNat)]

def Span.decode (depth : Nat) (j : Json) : Option Span := do
  let f ← fields? depth ["file_id", "start", "end"] j
  let file ← f.required "file_id" Json.uint32?
  let start ← f.required "start" Json.uint32?
  let stop ← f.required "end" Json.uint32?
  return ⟨file, start, stop⟩

/-! ## Source types -/

def FormalOwner.encode : FormalOwner → Json
  | .type n => .tagged "Type" (.str n)
  | .method n => .tagged "Method" (.str n)

def FormalOwner.decode (depth : Nat) (j : Json) : Option FormalOwner := do
  match ← variant? depth j with
  | ("Type", c) => .type <$> c.string?
  | ("Method", c) => .method <$> c.string?
  | _ => none

def Formal.encode (f : Formal) : Json := .obj [("name", .str f.name), ("owner", f.owner.encode)]

def Formal.decode (depth : Nat) (j : Json) : Option Formal := do
  let f ← fields? depth ["name", "owner"] j
  let name ← f.required "name" Json.string?
  let owner ← f.required "owner" (FormalOwner.decode (depth - 1))
  return ⟨name, owner⟩

mutual

def Ty.encode : Ty → Json
  | .void => .str "Void"
  | .bool => .str "Bool"
  | .int => .str "Int"
  | .float => .str "Float"
  | .string => .str "String"
  | .any => .str "Any"
  | .named n => .tagged "Named" (.str n)
  | .param f => .tagged "Param" f.encode
  | .generic base args =>
    .variant "Generic" [("base", .str base), ("type_args", .arr (Ty.encodeAll args))]
  | .array t => .tagged "Array" t.encode
  | .nullable t => .tagged "Nullable" t.encode

def Ty.encodeAll : List Ty → List Json
  | [] => []
  | t :: ts => t.encode :: Ty.encodeAll ts

end

/-- The types that are a tag alone. -/
def Ty.ofTag? : String → Option Ty
  | "Void" => some .void
  | "Bool" => some .bool
  | "Int" => some .int
  | "Float" => some .float
  | "String" => some .string
  | "Any" => some .any
  | _ => none

def Ty.decode : Nat → Json → Option Ty
  | _, .str tag => Ty.ofTag? tag
  | n + 1, .obj [(tag, c)] =>
    match tag with
    | "Named" => .named <$> c.string?
    | "Param" => .param <$> Formal.decode n c
    | "Generic" => do
      let f ← fields? n ["base", "type_args"] c
      let base ← f.required "base" Json.string?
      let args ← f.required "type_args" (list? (n - 1) (Ty.decode (n - 2)))
      return .generic base args
    | "Array" => .array <$> Ty.decode n c
    | "Nullable" => .nullable <$> Ty.decode n c
    | tag => if c.isNull then Ty.ofTag? tag else none
  | _, _ => none
termination_by depth => depth

def PassType.encode (p : PassType) : Json :=
  .obj [("ty", p.ty.encode), ("nullable", .bool p.nullable)]

def PassType.decode (depth : Nat) (j : Json) : Option PassType := do
  let f ← fields? depth ["ty", "nullable"] j
  let ty ← f.required "ty" (Ty.decode (depth - 1))
  let nullable ← f.required "nullable" Json.bool?
  return ⟨ty, nullable⟩

def Signature.encode (s : Signature) : Json :=
  .obj [("params", .arr (s.params.map PassType.encode)), ("ret", s.ret.encode)]

def Signature.decode (depth : Nat) (j : Json) : Option Signature := do
  let f ← fields? depth ["params", "ret"] j
  let params ← f.required "params" (list? (depth - 1) (PassType.decode (depth - 2)))
  let ret ← f.required "ret" (PassType.decode (depth - 1))
  return ⟨params, ret⟩

/-! ## Target types -/

mutual

def TargetType.encode : TargetType → Json
  | .void => .str "Void"
  | .bool => .str "Bool"
  | .int => .str "Int"
  | .float => .str "Float"
  | .string => .str "String"
  | .object => .str "Object"
  | .named n => .tagged "Class" (.str n)
  | .param n => .tagged "Param" (.str n)
  | .generic base args =>
    .variant "Generic" [("base", .str base), ("args", .arr (TargetType.encodeAll args))]
  | .array t => .tagged "Array" t.encode
  | .nullable t => .tagged "Nullable" t.encode
  | .optional t => .tagged "Optional" t.encode

def TargetType.encodeAll : List TargetType → List Json
  | [] => []
  | t :: ts => t.encode :: TargetType.encodeAll ts

end

/-- The target types that are a tag alone. -/
def TargetType.ofTag? : String → Option TargetType
  | "Void" => some .void
  | "Bool" => some .bool
  | "Int" => some .int
  | "Float" => some .float
  | "String" => some .string
  | "Object" => some .object
  | _ => none

def TargetType.decode : Nat → Json → Option TargetType
  | _, .str tag => TargetType.ofTag? tag
  | n + 1, .obj [(tag, c)] =>
    match tag with
    | "Class" => .named <$> c.string?
    | "Param" => .param <$> c.string?
    | "Generic" => do
      let f ← fields? n ["base", "args"] c
      let base ← f.required "base" Json.string?
      let args ← f.required "args" (list? (n - 1) (TargetType.decode (n - 2)))
      return .generic base args
    | "Array" => .array <$> TargetType.decode n c
    | "Nullable" => .nullable <$> TargetType.decode n c
    | "Optional" => .optional <$> TargetType.decode n c
    | tag => if c.isNull then TargetType.ofTag? tag else none
  | _, _ => none
termination_by depth => depth

end Lowering
