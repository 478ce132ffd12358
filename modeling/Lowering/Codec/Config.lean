import Lowering.Config
import Lowering.Json
import Lowering.Toml.Reader

/-!
# The configuration as text

A configuration is a TOML text with the tables `suspend`, `bridge` and `covariance`. Every table and
every key may be left out, and others are skipped. A table may also be given as an array of its
values in order; values at its end may be missing, and more than there are keys are skipped.
-/

namespace Lowering

namespace Toml

/-- What is given for a key of a table with these keys. -/
def field? (keys : List String) (k : String) (t : Toml) : Option Toml :=
  match t with
  | .table _ entries => entries.lookup k
  | .arr items => (keys.zip items).lookup k
  | .tables items => (keys.zip items).lookup k
  | _ => none

/-- Whether the value can stand for a table. A date counts as a table with none of its keys. -/
def isRecord : Toml → Bool
  | .table .. | .arr _ | .tables _ | .dateTime => true
  | .str _ | .int _ | .float | .bool _ => false

def string? : Toml → Option String
  | .str s => some s
  | _ => none

def strings? : Toml → Option (List String)
  | .arr items => items.mapM string?
  | _ => none

/-- The value of a key, or a default if it is left out. -/
def fieldOr {α : Type} (keys : List String) (k : String) (default : α) (value : Toml → Option α)
    (t : Toml) : Option α :=
  match field? keys k t with
  | some v => value v
  | none => some default

end Toml

def HoistHints.ofToml? (t : Toml) : Option HoistHints := do
  if !t.isRecord then none
  let keys := ["catch_hint", "ok_hint", "cond_hint"]
  let d : HoistHints := {}
  let handler ← t.fieldOr keys "catch_hint" d.handler Toml.string?
  let done ← t.fieldOr keys "ok_hint" d.done Toml.string?
  let condition ← t.fieldOr keys "cond_hint" d.condition Toml.string?
  return ⟨handler, done, condition⟩

def Config.ofToml? (t : Toml) : Option Config := do
  let keys := ["suspend", "bridge", "covariance"]
  let d : Config := {}
  let hints ← t.fieldOr keys "suspend" d.hints HoistHints.ofToml?
  let primarySuffix ← t.fieldOr keys "bridge" d.primarySuffix fun b =>
    if b.isRecord then b.fieldOr ["primary_suffix"] "primary_suffix" d.primarySuffix Toml.string?
    else none
  let excludedFormals ← t.fieldOr keys "covariance" d.excludedFormals fun c =>
    if c.isRecord then
      c.fieldOr ["excluded_formals"] "excluded_formals" d.excludedFormals Toml.strings?
    else none
  return ⟨hints, primarySuffix, excludedFormals⟩

/-- The configuration that a text gives. -/
def Config.parse? (text : String) : Option Config := (Toml.read text).bind Config.ofToml?

def Config.encode (c : Config) : Json :=
  .obj [("suspend", .obj [("catch_hint", .str c.hints.handler), ("ok_hint", .str c.hints.done),
      ("cond_hint", .str c.hints.condition)]),
    ("bridge", .obj [("primary_suffix", .str c.primarySuffix)]),
    ("covariance", .obj [("excluded_formals", .arr (c.excludedFormals.map .str))])]

end Lowering
