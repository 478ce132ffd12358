import Lowering.Codec.Module
import Lowering.Json.Writer
import Lowering.Proofs.Codec.Tree

/-!
# Modules out of JSON

A module that is written and read again is the same module (`ModuleUnit.parse?_written`), whichever
layout it is written in, unless it is nested too deep to be decoded.

The bindings of an overridden member are kept in no order, and a writer may put them in any. So a module
is written as one of several values, and `WrittenAs` says which: each member has its bindings in an order
of its own. Nothing else is left open.
-/

namespace Lowering

open Json (Decodes fields?_bind)

/-! ## What a module is written as -/

/-- The bindings stand in any order. -/
inductive OverriddenMember.WrittenAs (m : OverriddenMember) : Json → Prop where
  | mk {entries : List (String × Ty)} (h : entries.Perm m.bindings.toList) :
    m.WrittenAs (m.encodeWith entries)

/-- Each overridden member is written in one of its ways. -/
inductive MethodUnit.WrittenAs (u : MethodUnit) : Json → Prop where
  | mk {overrides : List Json} (h : List.Forall₂ OverriddenMember.WrittenAs u.overrides overrides) :
    u.WrittenAs (u.encodeWith overrides)

/-- Each method is written in one of its ways. -/
inductive ModuleUnit.WrittenAs (u : ModuleUnit) : Json → Prop where
  | mk {methods : List Json} (h : List.Forall₂ MethodUnit.WrittenAs u.methods methods) :
    u.WrittenAs (u.encodeWith methods)

/-- The bindings in ascending order are one of the orders. -/
theorem OverriddenMember.writtenAs_encode (m : OverriddenMember) : m.WrittenAs m.encode :=
  .mk (List.Perm.refl _)

theorem MethodUnit.writtenAs_encode (u : MethodUnit) : u.WrittenAs u.encode :=
  .mk (List.forall₂_map_right_iff.mpr (List.forall₂_same.mpr fun m _ => m.writtenAs_encode))

/-- A module may be written with all keys ascending. -/
theorem ModuleUnit.writtenAs_encode (u : ModuleUnit) : u.WrittenAs u.encode :=
  .mk (List.forall₂_map_right_iff.mpr (List.forall₂_same.mpr fun m _ => m.writtenAs_encode))

/-! ## Dictionaries -/

/-- A dictionary whose values can be decoded, with its entries in any order. -/
theorem Dict.decodes {α : Type} {dec : Nat → Json → Option α} {enc : α → Json} {d : Dict α}
    {entries : List (String × α)} (hperm : entries.Perm d.toList) (h : ∀ a, Decodes dec (enc a) a) :
    Decodes (fun n j => (Json.entries? n (dec (n - 1)) j).map Dict.ofList)
      (.obj (entries.map fun e => (e.1, enc e.2))) d := by
  refine .record ?_ fun n hn => ?_
  · rw [List.forall_mem_map]
    exact fun e _ => (h e.2).plain
  · rw [List.forall_mem_map] at hn
    have hentries : (entries.map fun e => (e.1, enc e.2)).mapM
        (fun f => (dec n f.2).map fun a => (f.1, a)) = some entries := by
      refine Json.mapM_map_eq_some fun e he => ?_
      rw [(h e.2).decode n (hn e he), Option.map_some]
    rw [Json.entries?, if_neg (Nat.succ_ne_zero n)]
    calc Option.map Dict.ofList _
        = Option.map Dict.ofList (some entries) := congrArg (Option.map Dict.ofList) hentries
      _ = some d := by rw [Option.map_some, Dict.ofList_of_perm hperm]

/-! ## Units -/

/-- **A member is read back from its bindings in any order.** -/
theorem OverriddenMember.WrittenAs.decodes {m : OverriddenMember} {j : Json} (hj : m.WrittenAs j) :
    Decodes OverriddenMember.decode j m := by
  obtain @⟨entries, hperm⟩ := hj
  have hsignature := m.signature.decodes
  have hbindings := Dict.decodes hperm Ty.decodes
  have hencode : m.encodeWith entries = .obj [("owner", .str m.owner),
    ("signature", m.signature.encode),
    ("bindings", .obj (entries.map fun e => (e.1, e.2.encode)))] := rfl
  rw [hencode]
  refine .record (by simp [hsignature.plain, hbindings.plain]) fun n hn => ?_
  simp only [List.forall_mem_cons] at hn
  refine fields?_bind rfl (by decide) ?_
  simp [Json.Fields.required, Json.Fields.defaulted, hsignature.decode n hn.2.1,
    hbindings.decode n hn.2.2.1]

theorem MethodUnit.WrittenAs.decodes {u : MethodUnit} {j : Json} (hj : u.WrittenAs j) :
    Decodes MethodUnit.decode j u := by
  obtain ⟨hmembers⟩ := hj
  have hmethod := u.method.decodes
  have hsignature := fun s (_ : s ∈ u.signature) => s.decodes
  have hoverrides := Decodes.arr (hmembers.imp fun _ _ hm => hm.decodes)
  refine .record ?_ fun n hn => ?_
  · simp [hmethod.plain, Json.Plain.ofOption hsignature, hoverrides.plain]
  · simp only [List.forall_mem_cons] at hn
    refine fields?_bind rfl (by decide) ?_
    simp [Json.Fields.required, Json.Fields.defaulted, hmethod.decode n hn.1,
      Json.option?_ofOption hsignature hn.2.1, hoverrides.decode n hn.2.2.1]

/-- A module is read back from each way to write it. -/
theorem ModuleUnit.WrittenAs.decodes {u : ModuleUnit} {j : Json} (hj : u.WrittenAs j) :
    Decodes ModuleUnit.decode j u := by
  obtain ⟨hunits⟩ := hj
  have hmethods := Decodes.arr (hunits.imp fun _ _ hm => hm.decodes)
  refine .record (by simp [hmethods.plain]) fun n hn => ?_
  simp only [List.forall_mem_cons] at hn
  refine fields?_bind rfl (by decide) ?_
  simp [Json.Fields.required, hmethods.decode n hn.2.1]

/-- **A module that is written, in either layout and with the bindings of each member in any order, and
read again is the same module.** -/
theorem ModuleUnit.parse?_written (u : ModuleUnit) :
    u.WrittenAs u.encode ∧ ∀ j, u.WrittenAs j → j.depth ≤ Json.maxDepth →
      ModuleUnit.parse? j.compact = some u ∧ ModuleUnit.parse? j.pretty = some u := by
  refine ⟨u.writtenAs_encode, fun j hj hdepth => ?_⟩
  unfold ModuleUnit.parse?
  rw [Json.read_compact hj.decodes.plain, Json.read_pretty hj.decodes.plain, Option.bind_some]
  exact ⟨hj.decodes.decode _ hdepth, hj.decodes.decode _ hdepth⟩

/-- A member of a class with two formals. -/
def OverriddenMember.ofPair : OverriddenMember :=
  ⟨"Pair", ⟨[⟨.param ⟨"A", .type "Pair"⟩, false⟩], ⟨.void, false⟩⟩,
    (Dict.empty.insert "Pair.A" .int).insert "Pair.B" .string⟩

/-- A method with the least and the greatest number, and with nothing where something may be missing. -/
def MethodUnit.awkward : MethodUnit where
  method := ⟨"f", .priv, true, [⟨"x", .nullable .int⟩], .generic "List" [.param "T"],
    ⟨[.declare "y" .string none ⟨4294967295, 0, 1⟩,
      .ite (.isType (.var "x") .int) (.ret none .dummy) none .dummy,
      .switch (.int (-9223372036854775808)) [⟨none, ⟨[.exit .dummy], .dummy⟩⟩] .dummy], .dummy⟩,
    .dummy⟩
  signature := some ⟨[⟨.nullable .int, true⟩], ⟨.param ⟨"T", .type "C"⟩, false⟩⟩
  overrides := [.ofPair, .ofPair]

/-- A module whose name needs escapes. -/
def ModuleUnit.awkward : ModuleUnit := ⟨"\"M\\\n\x01é", [.awkward]⟩

/-- The same module, where one of two equal members has its bindings in descending order. -/
def ModuleUnit.awkwardJson : Json :=
  awkward.encodeWith [MethodUnit.awkward.encodeWith
    [OverriddenMember.ofPair.encodeWith [("Pair.B", .string), ("Pair.A", .int)],
      OverriddenMember.ofPair.encodeWith [("Pair.A", .int), ("Pair.B", .string)]]]

theorem ModuleUnit.parse?_written_awkward :
    OverriddenMember.ofPair.bindings.toList = [("Pair.A", .int), ("Pair.B", .string)] ∧
      awkward.WrittenAs awkwardJson ∧ awkwardJson.depth ≤ Json.maxDepth ∧
      ModuleUnit.parse? awkwardJson.compact = some awkward ∧
      ModuleUnit.parse? awkwardJson.pretty = some awkward :=
  have hwritten : awkward.WrittenAs awkwardJson :=
    .mk (.cons (.mk (.cons (.mk (.swap _ _ _)) (.cons (.mk (.refl _)) .nil))) .nil)
  have hdepth : awkwardJson.depth ≤ Json.maxDepth := by decide
  ⟨rfl, hwritten, hdepth, (parse?_written awkward).2 _ hwritten hdepth⟩

end Lowering
