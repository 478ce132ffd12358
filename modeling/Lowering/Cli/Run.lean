import Lowering.Cli.Explain
import Lowering.Cli.Listing
import Lowering.Cli.Session
import Lowering.Cli.Usage
import Lowering.Text.Capital

/-!
# Running commands

* `hoist` hoists the suspensions of one method.
* `bridge` analyses one override and bridges it if need be.
* `lower` lowers a module, or all modules in a folder, and can write the results to files.
* `explain` explains a diagnostic code.

A command writes text for readers, or one JSON value a line.
-/

namespace Lowering.Cli

open Text (paint)

variable {m : Type → Type} [Monad m]

/-! ## Explain -/

def runExplain (s : Surroundings) (code : String) : Session m Unit := do
  match Code.parse? code with
  | none => throw (.unknownCode (Text.upper code))
  | some c =>
    match s.settings.format with
    | .text => printText (c.explainText s.colored)
    | .json => printLine c.explainJson.pretty

variable [FileSystem m]

/-! ## Hoist -/

def runHoist (s : Surroundings) (input : String) (emit : Bool) : Session m Unit := do
  let config ← loadConfig s.settings.config input
  let unit ← loadMethod input
  let method := unit.method
  match (method.body.hoist config.hints (Names.empty.reserveMethod method)).1 with
  | .error e =>
    report s false input [e.toDiagnostic]
    throw (.hoistFailed method.name)
  | .ok hoisted =>
    let method := { method with body := hoisted.body }
    match s.settings.format with
    | .text =>
      if !s.settings.quiet then
        printText (Text.checked s.colored
          (method.header ++ ": " ++ toString hoisted.splits ++ " try region(s) split"))
      if emit then printText method.listing
    | .json =>
      printJson (.obj [("type", .str "hoist"), ("method", method.encode),
        ("regions_split", .nat hoisted.splits)])

/-! ## Bridge -/

/-- A position that changes, in words. -/
def describeWrapped (position : String) (w : WrappedPosition) : String :=
  position ++ " (" ++ w.native.render ++ ") exposed as " ++ w.outer.render ++ "\n"

/-- The positions that change, one a line. -/
def describeAdjustment (a : Adjustment) : String :=
  let params := a.params.mapIdx fun i w =>
    (w.map (describeWrapped ("param " ++ toString i))).getD ""
  String.join params ++ (a.ret.map (describeWrapped "return")).getD ""

def runBridge (s : Surroundings) (input : String) (emit : Bool) : Session m Unit := do
  let config ← loadConfig s.settings.config input
  let unit ← loadMethod input
  let method := unit.method
  match unit.signature with
  | none => throw (.noSignature method.name)
  | some signature =>
    match signature.adjust? config.excludedFormals unit.overrides with
    | none =>
      match s.settings.format with
      | .text => if !s.settings.quiet then printLine (method.header ++ ": no bridge needed")
      | .json =>
        printJson (.obj [("type", .str "bridge"), ("name", .str method.name),
          ("adjustment", .null)])
    | some a =>
      match (method.bridge config.primarySuffix a (Names.empty.reserveMethod method)).1 with
      | .error e =>
        report s false input [e.toDiagnostic]
        throw (.bridgeFailed method.name)
      | .ok pair =>
        match s.settings.format with
        | .text =>
          if !s.settings.quiet then
            printText (describeAdjustment a)
            printLine ("bridge  " ++ pair.bridge.header)
            printLine ("   " ++ paint s.colored [.cyan] "->" ++ "   " ++ pair.primary.header)
          if emit then printText (pair.bridge.listing ++ pair.primary.listing)
        | .json =>
          printJson (.obj [("type", .str "bridge"), ("name", .str method.name),
            ("adjustment", a.encode), ("bridge", pair.bridge.encode),
            ("primary", pair.primary.encode)])

/-! ## Lower -/

/-- How the files end that `lower` writes. -/
def loweredEnding : String := ".lowered.json"

/-- Whether `lower` takes a file in a folder for a module. -/
def isModulePath (path : String) : Bool :=
  Path.extension? path = some "json" && !path.endsWith loweredEnding

/-- The modules that an input stands for: itself, or those in a folder. -/
def modulePaths (input : String) : Session m (List String) := do
  if ← isFile input then return [input]
  let paths ← liftM (FileSystem.filesIn input : m (List String))
  return Path.sort (paths.filter isModulePath)

def printModule (s : Surroundings) (emit : Bool) (lowered : LoweredModule) : Session m Unit := do
  if !s.settings.quiet then
    printLine (paint s.colored [.bold] lowered.name)
    for method in lowered.methods do
      printText (Text.checked s.colored (method.summary))
  if emit then
    for method in lowered.methods do
      printText (String.join (method.form.decls.map Method.listing))

/-- Writes a lowered module into a folder, which is made if need be. -/
def writeLowered (folder : String) (lowered : LoweredModule) : Session m Unit := do
  if !(← liftM (FileSystem.makeFolders folder : m Bool)) then throw (.folderNotMade folder)
  let path := Path.join folder (lowered.name ++ loweredEnding)
  if !(← liftM (FileSystem.write path lowered.encode.pretty : m Bool)) then
    throw (.fileNotWritten path)

/-- What has been counted over all modules. -/
structure Totals where
  modules : Nat
  methods : Nat
  errors : Nat
  hints : Nat
deriving DecidableEq, Repr

def lowerOne (s : Surroundings) (config : Config) (outDir : Option String) (emit showHints : Bool)
    (totals : Totals) (path : String) : Session m Totals := do
  let module ← loadModule path
  let lowered := module.lower config
  report s showHints path lowered.diagnostics
  match outDir with
  | some folder => writeLowered folder lowered
  | none => pure ()
  match s.settings.format with
  | .text => printModule s emit lowered
  | .json =>
    printJson (.obj [("type", .str "module"), ("file", .str path), ("module", lowered.encode)])
  return { modules := totals.modules + 1
           methods := totals.methods + lowered.methods.length
           errors := totals.errors + Diagnostic.errorCount lowered.diagnostics
           hints := totals.hints + Diagnostic.hintCount lowered.diagnostics }

def printTotals (s : Surroundings) (t : Totals) : Session m Unit := do
  match s.settings.format with
  | .text =>
    if !s.settings.quiet || t.errors > 0 then
      let verdict :=
        if t.errors > 0 then paint s.colored [.red, .bold] "Lowering failed"
        else paint s.colored [.green, .bold] "Lowering finished"
      printText ("\n" ++ verdict ++ ": " ++ toString t.modules ++ " module(s), " ++
        toString t.methods ++ " method(s), " ++ toString t.errors ++ " error(s)\n")
  | .json =>
    printJson (.obj [("type", .str "summary"), ("success", .bool (t.errors = 0)),
      ("modules", .nat t.modules), ("methods", .nat t.methods), ("errors", .nat t.errors),
      ("hints", .nat t.hints)])

def runLower (s : Surroundings) (input : String) (outDir : Option String) (emit showHints : Bool) :
    Session m Unit := do
  let config ← loadConfig s.settings.config input
  let paths ← modulePaths input
  if paths.isEmpty then
    match s.settings.format with
    | .text => printLine "No module files found."
    | .json =>
      printJson (.obj [("type", .str "summary"), ("modules", .nat 0), ("errors", .nat 0)])
  else
    let totals ← paths.foldlM (lowerOne s config outDir emit showHints) ⟨0, 0, 0, 0⟩
    printTotals s totals
    if totals.errors > 0 then throw .errorsFound

/-! ## All commands -/

def Command.run (s : Surroundings) : Command → Session m Unit
  | .hoist input emit => runHoist s input emit
  | .bridge input emit => runBridge s input emit
  | .lower input outDir emit showHints => runLower s input outDir emit showHints
  | .explain code => runExplain s code

/-- How the program ends: with a status and what it has printed. -/
structure Ending where
  status : Nat
  output : Output
deriving DecidableEq, Repr

/-- The program prints a text and is done. -/
def Ending.ofText (text : String) : Ending := ⟨0, ⟨text, ""⟩⟩

/-- What the program does for a request. A failure is told on the error stream. Help on a terminal has
styles whatever the options say. -/
def Request.answer (terminal : Bool) : Request → m Ending
  | .help topic => pure (.ofText (helpText terminal topic))
  | .version verb => pure (.ofText (versionText verb))
  | .overview => pure (.ofText (helpText terminal .program ++ "\n"))
  | .run settings command => do
    let (result, output) ← (command.run ⟨settings, terminal⟩).run.run ⟨"", ""⟩
    match result with
    | .ok () => return ⟨0, output⟩
    | .error e =>
      return ⟨1, { output with stderr := output.stderr ++ "Error: " ++ e.message ++ "\n" }⟩

end Lowering.Cli
