import Lowering.Cli.Line
import Lowering.Text.Style

/-!
# Help and version texts

Help lists the commands, the operand and the options in columns, each as wide as its longest entry.
On a terminal the headings are underlined, and what is to be typed as it stands is bold.
-/

namespace Lowering.Cli

/-- The name of the program. -/
def programName : String := "tern"

def programVersion : String := "0.2.117"

/-- The name and the version; a command has the program's name before its own. -/
def versionText (of : Option Verb) : String :=
  let name :=
    match of with
    | some v => programName ++ "-" ++ v.name
    | none => programName
  name ++ " " ++ programVersion ++ "\n"

/-! ## What things are for -/

def Verb.about : Verb → String
  | .hoist => "Hoist suspension points out of try/catch regions in one method"
  | .bridge => "Analyze an override and synthesize its bridge method"
  | .lower => "Run every backend pass over a module file or a directory of modules"
  | .explain => "Explain a diagnostic code"

def Verb.operandAbout : Verb → String
  | .hoist => "Method unit to rewrite (JSON)"
  | .bridge => "Method unit with its signature and overridden members (JSON)"
  | .lower => "Module file (JSON) or a directory of module files [default: .]"
  | .explain => "Diagnostic code to explain (e.g., U001, H002)"

/-- What an option does; `emit` prints other bodies in every command. -/
def Opt.about (v : Option Verb) : Opt → String
  | .format => "Output format [default: text] [possible values: text, json]"
  | .verbose => "Increase verbosity (-v, -vv, -vvv)"
  | .quiet => "Suppress non-error output"
  | .noColor => "Disable colored output"
  | .config => "Backend configuration file (defaults to tern.toml next to the input)"
  | .emit =>
    match v with
    | some .bridge => "Print the bridge and primary bodies"
    | some .lower => "Print the lowered method bodies"
    | _ => "Print the rewritten body"
  | .outDir => "Write `<module>.lowered.json` files into this directory"
  | .all => "Show rewrite notes as well as errors"
  | .help => "Print help"
  | .version => "Print version"

def helpAbout : String := "Print this message or the help of the given subcommand(s)"

/-! ## Layout -/

/-- A piece of a help text. -/
inductive Piece where
  | plain (text : String)
  /-- to be typed as it stands -/
  | literal (text : String)
  | heading (text : String)
deriving DecidableEq, Repr

namespace Piece

def text : Piece → String
  | .plain text => text
  | .literal text => text
  | .heading text => text

def render (styled : Bool) : Piece → String
  | .plain text => text
  | .literal text => Text.paint styled [.bold] text
  | .heading text => Text.paint styled [.bold, .underline] text

end Piece

/-- How many characters pieces take, their styles apart. -/
def width (pieces : List Piece) : Nat := (String.join (pieces.map Piece.text)).length

/-- Lines of two columns. -/
def columns (rows : List (List Piece × String)) : List Piece :=
  let widest := (rows.map fun row => width row.1).foldl max 0
  rows.flatMap fun (left, right) =>
    let gap := String.ofList (List.replicate (widest - width left + 2) ' ')
    [.plain "  "] ++ left ++ [.plain (gap ++ right ++ "\n")]

/-- How an option is written. -/
def Opt.synopsis (o : Opt) : List Piece :=
  (match o.letter? with
  | some c => [.literal (String.ofList ['-', c]), .plain ", "]
  | none => [.plain "    "]) ++
  [.literal ("--" ++ o.name),
    .plain (match o.value? with
      | some value => " <" ++ value ++ ">"
      | none => if o.counts then "..." else "")]

def optionTable (v : Option Verb) (options : List Opt) : List Piece :=
  [.plain "\n", .heading "Options:", .plain "\n"] ++
    columns (options.map fun o => (o.synopsis, o.about v))

/-- The operand, in brackets if it can be left out. -/
def Verb.operandSynopsis (v : Verb) : String :=
  if v.defaultOperand?.isSome then "[" ++ v.operand ++ "]" else "<" ++ v.operand ++ ">"

/-- How a help text starts: what the topic is for, and how it is used. -/
def usage (about command arguments : String) : List Piece :=
  [.plain (about ++ "\n\n"), .heading "Usage:", .plain " ", .literal command,
    .plain (" " ++ arguments ++ "\n\n")]

/-- The pieces of the help on a topic. -/
def Topic.pieces : Topic → List Piece
  | .program =>
    usage "Run tern backend passes over lowered methods" programName "[OPTIONS] [COMMAND]" ++
    [.heading "Commands:", .plain "\n"] ++
    columns (Verb.list.map (fun v => ([.literal v.name], v.about)) ++
      [([.literal "help"], helpAbout)]) ++
    optionTable none (Opt.globals ++ Opt.queries)
  | .verb v =>
    usage v.about (programName ++ " " ++ v.name) ("[OPTIONS] " ++ v.operandSynopsis) ++
    [.heading "Arguments:", .plain "\n"] ++
    columns [([.plain v.operandSynopsis], v.operandAbout)] ++
    optionTable (some v) v.options
  | .help =>
    usage helpAbout (programName ++ " help") "[COMMAND]..." ++
    [.heading "Arguments:", .plain "\n"] ++
    columns [([.plain "[COMMAND]..."], "Print help for the subcommand(s)")]

/-- The help on a topic. -/
def helpText (styled : Bool) (topic : Topic) : String :=
  String.join (topic.pieces.map (Piece.render styled))

end Lowering.Cli
