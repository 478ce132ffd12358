import Lowering.Codec.Tree
import Lowering.Json.Reader
import Lowering.Module

/-!
# Modules in JSON

A module is read as a list of methods with their signatures and the members that they override, and
written as a list of lowered methods.
-/

namespace Lowering

open Json (fields? list? entries? variant?)

/-! ## Overrides -/

/-- A member with its bindings in the order of `entries`. -/
def OverriddenMember.encodeWith (m : OverriddenMember) (entries : List (String × Ty)) : Json :=
  .obj [("owner", .str m.owner), ("signature", m.signature.encode),
    ("bindings", .obj (entries.map fun (k, t) => (k, t.encode)))]

/-- Of all the orders in which the bindings may be written, the one with ascending keys. -/
def OverriddenMember.encode (m : OverriddenMember) : Json :=
  m.encodeWith m.bindings.toList

def OverriddenMember.decode (depth : Nat) (j : Json) : Option OverriddenMember := do
  let f ← fields? depth ["owner", "signature", "bindings"] j
  let owner ← f.required "owner" Json.string?
  let signature ← f.required "signature" (Signature.decode (depth - 1))
  let bindings ← f.defaulted "bindings" .empty fun j =>
    (entries? (depth - 1) (Ty.decode (depth - 2)) j).map Dict.ofList
  return ⟨owner, signature, bindings⟩

def WrappedPosition.encode (w : WrappedPosition) : Json :=
  .variant "Wrapped" [("native", w.native.encode)]

def WrappedPosition.decode (depth : Nat) (j : Json) : Option WrappedPosition := do
  match ← variant? depth j with
  | ("Wrapped", c) => do
    let f ← fields? (depth - 1) ["native"] c
    let native ← f.required "native" (PassType.decode (depth - 2))
    return ⟨native⟩
  | _ => none

def Adjustment.encode (a : Adjustment) : Json :=
  .obj [("unadjusted", a.unadjusted.encode),
    ("params", .arr (a.params.map (.ofOption WrappedPosition.encode))),
    ("ret", .ofOption WrappedPosition.encode a.ret)]

def Adjustment.decode (depth : Nat) (j : Json) : Option Adjustment := do
  let f ← fields? depth ["unadjusted", "params", "ret"] j
  let unadjusted ← f.required "unadjusted" (Signature.decode (depth - 1))
  let params ← f.required "params"
    (list? (depth - 1) (Json.option? (WrappedPosition.decode (depth - 2))))
  let ret ← f.optional "ret" (WrappedPosition.decode (depth - 1))
  return ⟨unadjusted, params, ret⟩

/-! ## Modules before lowering -/

/-- A method with its overridden members as they are given. -/
def MethodUnit.encodeWith (u : MethodUnit) (overrides : List Json) : Json :=
  .obj [("method", u.method.encode), ("signature", .ofOption Signature.encode u.signature),
    ("overrides", .arr overrides)]

def MethodUnit.encode (u : MethodUnit) : Json :=
  u.encodeWith (u.overrides.map OverriddenMember.encode)

def MethodUnit.decode (depth : Nat) (j : Json) : Option MethodUnit := do
  let f ← fields? depth ["method", "signature", "overrides"] j
  let method ← f.required "method" (Method.decode (depth - 1))
  let signature ← f.defaulted "signature" none (Json.option? (Signature.decode (depth - 1)))
  let overrides ← f.defaulted "overrides" []
    (list? (depth - 1) (OverriddenMember.decode (depth - 2)))
  return ⟨method, signature, overrides⟩

/-- A module with its methods as they are given. -/
def ModuleUnit.encodeWith (u : ModuleUnit) (methods : List Json) : Json :=
  .obj [("name", .str u.name), ("methods", .arr methods)]

def ModuleUnit.encode (u : ModuleUnit) : Json :=
  u.encodeWith (u.methods.map MethodUnit.encode)

def ModuleUnit.decode (depth : Nat) (j : Json) : Option ModuleUnit := do
  let f ← fields? depth ["name", "methods"] j
  let name ← f.required "name" Json.string?
  let methods ← f.required "methods" (list? (depth - 1) (MethodUnit.decode (depth - 2)))
  return ⟨name, methods⟩

/-- The method that a JSON text writes. -/
def MethodUnit.parse? (text : String) : Option MethodUnit :=
  (Json.read text).bind (MethodUnit.decode Json.maxDepth)

/-- The module that a JSON text writes. -/
def ModuleUnit.parse? (text : String) : Option ModuleUnit :=
  (Json.read text).bind (ModuleUnit.decode Json.maxDepth)

/-! ## Modules after lowering -/

/-- A method without an adjustment has no field for it. -/
def LoweredMethod.encode (m : LoweredMethod) : Json :=
  .obj ([("name", .str m.name), ("decls", .arr (m.form.decls.map Method.encode)),
    ("regions_split", .nat m.splits), ("calls_adapted", .nat m.callsAdapted)] ++
    m.form.adjustment?.toList.map fun a => ("adjustment", a.encode))

def LoweredModule.encode (m : LoweredModule) : Json :=
  .obj [("name", .str m.name), ("methods", .arr (m.methods.map LoweredMethod.encode))]

end Lowering
