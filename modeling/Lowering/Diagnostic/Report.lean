import Lowering.Diagnostic
import Lowering.Json.Writer
import Lowering.Source
import Lowering.Text.Style

/-!
# Reports as text

Three layouts for a list of diagnostics, each with a summary:

* for a terminal, with the line of the source and marks under the span
* one JSON object a line, its keys in alphabetical order
* one line each, `file:line:column: severity: message [code]`
-/

namespace Lowering.Report

open Text (Style)

/-- A layout. -/
inductive Layout where
  | terminal (colored : Bool)
  | records
  | lines
deriving DecidableEq, Repr

/-! ## For a terminal -/

/-- The colour of a severity. -/
def severityStyle : Severity → Style
  | .error => .red
  | .hint => .blue

/-- How many marks stand under a line of `width` bytes for a span that starts at `column`: one for
each of its bytes on the line, and at least one. -/
def markCount (span : Span) (column width : Nat) : Nat :=
  max 1 (min span.length (width - (column - 1)))

def blanks (n : Nat) : String := String.ofList (List.replicate n ' ')

/-- The source line of a span with marks under the span. -/
def snippet (colored : Bool) (severity : Severity) (span : Span) (loc : Location)
    (line : String) : String :=
  let cyan := Style.cyan.codeIf colored
  let reset := Style.reset.codeIf colored
  let color := (severityStyle severity).codeIf colored
  let gutter := toString loc.line
  let margin := blanks gutter.length
  let marks := String.ofList (List.replicate (markCount span loc.column line.utf8ByteSize) '^')
  margin ++ " " ++ cyan ++ "|" ++ reset ++ "\n" ++
  cyan ++ gutter ++ " |" ++ reset ++ " " ++ line ++ "\n" ++
  margin ++ " " ++ cyan ++ "|" ++ reset ++ " " ++ blanks (loc.column - 1) ++ color ++ marks ++
    reset ++ "\n"

def terminalOne (colored : Bool) (sources : SourceCache) (d : Diagnostic) : String :=
  let cyan := Style.cyan.codeIf colored
  let reset := Style.reset.codeIf colored
  let head := Style.bold.codeIf colored ++ (severityStyle d.severity).codeIf colored ++
    d.severity.render ++ "[" ++ d.code.render ++ "]" ++ reset ++ ": " ++ d.message ++ "\n"
  let place :=
    match sources.location? d.span with
    | some loc =>
      "  " ++ cyan ++ "-->" ++ reset ++ " " ++ loc.render ++ "\n" ++
      match sources.lineText? d.span with
      | some line => snippet colored d.severity d.span loc line
      | none => ""
    | none => ""
  let note := fun (l : Label) =>
    "  " ++ cyan ++ "note" ++ reset ++ ": " ++ l.message ++
    (match sources.location? l.span with
    | some loc => " (" ++ loc.render ++ ")"
    | none => "") ++ "\n"
  let help :=
    match d.help with
    | some text => "  " ++ cyan ++ "= help:" ++ reset ++ " " ++ text ++ "\n"
    | none => ""
  head ++ place ++ String.join (d.labels.map note) ++ help ++ "\n"

/-- The ending of a noun that is counted. -/
def plural (n : Nat) : String := if n = 1 then "" else "s"

def terminalSummary (colored : Bool) (ds : List Diagnostic) : String :=
  let errors := Diagnostic.errorCount ds
  let hints := Diagnostic.hintCount ds
  let reset := Style.reset.codeIf colored
  if errors > 0 then
    Style.red.codeIf colored ++ toString errors ++ " error" ++ plural errors ++ " emitted" ++
      reset ++ "\n"
  else if hints > 0 then
    Style.blue.codeIf colored ++ toString hints ++ " rewrite" ++ plural hints ++ " noted" ++
      reset ++ "\n"
  else ""

/-! ## As JSON -/

def recordOne (sources : SourceCache) (d : Diagnostic) : Json :=
  .obj [("code", .str d.code.render),
    ("help", .ofOption .str d.help),
    ("location", .ofOption (fun (l : Location) => .obj [("column", .nat l.column),
      ("file", .str l.file), ("line", .nat l.line)]) (sources.location? d.span)),
    ("message", .str d.message),
    ("notes", .arr (d.labels.map fun l => .str l.message)),
    ("severity", .str d.severity.render),
    ("span", if d.span.isDummy then .null
      else .obj [("end", .nat d.span.stop.toNat), ("start", .nat d.span.start.toNat)])]

def recordSummary (ds : List Diagnostic) : Json :=
  .obj [("errors", .nat (Diagnostic.errorCount ds)), ("hints", .nat (Diagnostic.hintCount ds)),
    ("total", .nat ds.length), ("type", .str "summary")]

/-! ## One line each -/

def lineOne (sources : SourceCache) (d : Diagnostic) : String :=
  let place :=
    match sources.location? d.span with
    | some loc => loc.render ++ ": "
    | none => ""
  place ++ d.severity.render ++ ": " ++ d.message ++ " [" ++ d.code.render ++ "]\n"

def lineSummary (ds : List Diagnostic) : String :=
  toString (Diagnostic.errorCount ds) ++ " error(s), " ++ toString (Diagnostic.hintCount ds) ++
    " hint(s)\n"

/-! ## All layouts -/

/-- One diagnostic. -/
def one (layout : Layout) (sources : SourceCache) (d : Diagnostic) : String :=
  match layout with
  | .terminal colored => terminalOne colored sources d
  | .records => (recordOne sources d).compact ++ "\n"
  | .lines => lineOne sources d

/-- The diagnostics in their order. -/
def all (layout : Layout) (sources : SourceCache) (ds : List Diagnostic) : String :=
  String.join (ds.map (one layout sources))

/-- What stands at the end. -/
def summary (layout : Layout) (ds : List Diagnostic) : String :=
  match layout with
  | .terminal colored => terminalSummary colored ds
  | .records => (recordSummary ds).compact ++ "\n"
  | .lines => lineSummary ds

end Lowering.Report
