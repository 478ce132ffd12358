import Lowering.Diagnostic
import Lowering.Json.Writer
import Lowering.Text.Style

/-!
# Explanations of diagnostic codes
-/

namespace Lowering

open Text (Style paint)

/-- What there is to say about a code. -/
structure Explanation where
  title : String
  description : String
  /-- lines of code -/
  example? : Option (List String)
  suggestion : Option String
  related : List Code

namespace Code

/-- The explanation of a code. -/
def explanation : Code → Explanation
  | .suspensionInFinally =>
    { title := "Suspension Inside Finally"
      description := "A yield or await appears inside a finally block. The target cannot resume " ++
        "a method inside a finally block, and moving the suspension out would change when the " ++
        "cleanup runs."
      example? := some ["try \x7b work(); \x7d finally \x7b yield return 1; \x7d"]
      suggestion := some ("Move the suspension after the try statement, or compute the value in " ++
        "the finally block and yield it afterwards.")
      related := [.unsupportedSuspensionSite, .tryRegionSplit] }
  | .unsupportedSuspensionSite =>
    { title := "Unsupported Suspension Site"
      description := "A suspension point sits in a construct the hoisting pass cannot " ++
        "restructure while it is inside a try statement with a catch clause, such as a switch " ++
        "section."
      example? := some
        ["try \x7b switch (k) \x7b case 1: yield return 1; break; \x7d \x7d catch \x7b \x7d"]
      suggestion := some ("Replace the switch with if/else statements, or move the suspension " ++
        "out of the try statement.")
      related := [.suspensionInFinally, .tryRegionSplit] }
  | .tryRegionSplit =>
    { title := "Try Region Split"
      description := "A try statement with a catch clause contained suspension points. Its body " ++
        "was split into protected runs between the suspensions; faults in any run jump to a " ++
        "shared handler label, and locals were hoisted so they stay in scope across the split."
      example? := some
        ["try \x7b a(); yield return 1; b(); \x7d catch \x7b handle(); \x7d",
          "// becomes: try \x7b a(); \x7d catch \x7b goto __catch; \x7d yield return 1;",
          "//          try \x7b b(); \x7d catch \x7b goto __catch; \x7d goto __ok;",
          "//          __catch: \x7b handle(); \x7d __ok: ;"]
      suggestion := none
      related := [.suspensionInFinally] }
  | .bridgeSynthesized =>
    { title := "Bridge Method Synthesized"
      description := "An override uses a native representation for a position that the " ++
        "overridden member exposes through the Optional<T> wrapper. A public bridge with the " ++
        "wrapped signature now forwards to a private primary method that keeps the native types."
      example? := some
        ["interface I<T> \x7b void f(T? x); \x7d",
          "class C : I<int> \x7b void f(int x) \x7b ... \x7d \x7d",
          "// C.f(Optional<int> x) => this.f_(x.Value)"]
      suggestion :=
        some "Call sites that know the receiver is C may call the primary directly."
      related := [.signatureMismatch] }
  | .internalError =>
    { title := "Internal Error"
      description := "A backend pass found its input in a shape it should never see, for " ++
        "example a child statement that normalization should have wrapped in a block."
      example? := none
      suggestion := some "Report this with the input unit attached."
      related := [] }
  | .signatureMismatch =>
    { title := "Signature Mismatch"
      description := "The method declaration and the signature handed to override analysis " ++
        "disagree on the number of parameters, so no bridge can be built."
      example? := some ["method f(x) with signature (C, Int, Int) -> Void"]
      suggestion := some ("Regenerate the method unit so the signature lists the receiver " ++
        "followed by exactly the declared parameters.")
      related := [.bridgeSynthesized] }

/-- The explanation as text, with an underlined head. -/
def explainText (colored : Bool) (c : Code) : String :=
  let e := c.explanation
  let underline := List.replicate (c.render.utf8ByteSize + e.title.utf8ByteSize + 2) '='
  let sample :=
    match e.example? with
    | some lines =>
      paint colored [.bold] "Example" ++ ":\n" ++
        String.join (lines.map fun l => "  " ++ l ++ "\n") ++ "\n"
    | none => ""
  let suggestion :=
    match e.suggestion with
    | some text => paint colored [.green, .bold] "Suggestion" ++ ":\n  " ++ text ++ "\n\n"
    | none => ""
  let related :=
    if e.related.isEmpty then ""
    else
      paint colored [.dim] "Related" ++ ": " ++ ", ".intercalate (e.related.map render) ++ "\n"
  "\n" ++ paint colored [.cyan, .bold] c.render ++ ": " ++ paint colored [.bold] e.title ++ "\n" ++
    String.ofList underline ++ "\n\n" ++ e.description ++ "\n\n" ++ sample ++ suggestion ++ related

/-- The explanation as JSON. -/
def explainJson (c : Code) : Json :=
  let e := c.explanation
  .obj [("code", .str c.render),
    ("description", .str e.description),
    ("example", .ofOption (fun lines => .str ("\n".intercalate lines)) e.example?),
    ("related", .arr (e.related.map fun c => .str c.render)),
    ("severity", .str c.severity.render),
    ("suggestion", .ofOption .str e.suggestion),
    ("title", .str e.title)]

end Code

end Lowering
