import Lowering.Cli.Line
import Lowering.Codec.Config
import Lowering.Codec.Module
import Lowering.Diagnostic.Report
import Lowering.Disk

/-!
# Sessions of a command

A session runs on a file system. It collects what is printed, and ends early if something fails. What
was printed and written before a failure stays.
-/

namespace Lowering.Cli

open Text (Style paint)

/-! ## Output and failures -/

/-- What has been printed. -/
structure Output where
  stdout : String
  stderr : String
deriving DecidableEq, Repr

/-- Why a command failed. -/
inductive Failure where
  | configNotFound (path : String)
  | unreadable (path : String)
  | badConfig (path : String)
  | badMethod (path : String)
  | badModule (path : String)
  | folderNotMade (path : String)
  | fileNotWritten (path : String)
  /-- the code in capital letters -/
  | unknownCode (code : String)
  | noSignature (method : String)
  | hoistFailed (method : String)
  | bridgeFailed (method : String)
  | errorsFound
deriving DecidableEq, Repr

def Failure.message : Failure → String
  | .configNotFound path => "config file not found: " ++ path
  | .unreadable path => "failed to read " ++ path
  | .badConfig path => "invalid config " ++ path
  | .badMethod path => "failed to parse method " ++ path
  | .badModule path => "failed to parse module " ++ path
  | .folderNotMade path => "failed to create " ++ path
  | .fileNotWritten path => "failed to write " ++ path
  | .unknownCode code => "Unknown diagnostic code: " ++ code
  | .noSignature method => "`" ++ method ++ "` has no signature to analyze"
  | .hoistFailed method => "Hoisting failed for `" ++ method ++ "`"
  | .bridgeFailed method => "Bridge synthesis failed for `" ++ method ++ "`"
  | .errorsFound => "Lowering failed with errors"

/-- A session on the file system of `m`. -/
abbrev Session (m : Type → Type) := ExceptT Failure (StateT Output m)

/-- What a session knows from its command line and its surroundings. -/
structure Surroundings where
  settings : Settings
  /-- whether the output goes to a terminal -/
  terminal : Bool

/-- Whether texts are coloured. -/
def Surroundings.colored (s : Surroundings) : Bool :=
  s.terminal && !s.settings.noColor && !s.settings.quiet

variable {m : Type → Type} [Monad m]

def printText (text : String) : Session m Unit :=
  modify fun o => { o with stdout := o.stdout ++ text }

def printLine (line : String) : Session m Unit := printText (line ++ "\n")

/-- Prints a value on one line, its fields in the order of their keys. -/
def printJson (j : Json) : Session m Unit := printLine j.sortKeys.compact

def printError (text : String) : Session m Unit :=
  modify fun o => { o with stderr := o.stderr ++ text }

/-! ## Reading -/

variable [FileSystem m]

def isFile (path : String) : Session m Bool := liftM (FileSystem.isFile path : m Bool)

def isFolder (path : String) : Session m Bool := liftM (FileSystem.isFolder path : m Bool)

def read? (path : String) : Session m (Option String) :=
  liftM (FileSystem.read? path : m (Option String))

/-- Whether there is anything at a path. -/
def isThere (path : String) : Session m Bool := do
  if ← isFile path then return true
  isFolder path

/-- The text of a file, read by a reader. -/
def load {α : Type} (parse? : String → Option α) (bad : String → Failure) (path : String) :
    Session m α := do
  match ← read? path with
  | none => throw (.unreadable path)
  | some text =>
    match parse? text with
    | none => throw (bad path)
    | some a => return a

def loadMethod (path : String) : Session m MethodUnit := load MethodUnit.parse? .badMethod path

def loadModule (path : String) : Session m ModuleUnit := load ModuleUnit.parse? .badModule path

/-- The name of the configuration file that is used without being named. -/
def configName : String := "tern.toml"

/-- The configuration for an input: the file that is named, which must be there, or else the one next
to the input, or in it if it is a folder. -/
def loadConfig (named : Option String) (input : String) : Session m Config := do
  match named with
  | some path =>
    if ← isThere path then load Config.parse? .badConfig path
    else throw (.configNotFound path)
  | none =>
    let folder := if ← isFolder input then input else (Path.parent? input).getD "."
    let path := Path.join folder configName
    if ← isThere path then load Config.parse? .badConfig path
    else return {}

/-! ## Reports -/

/-- Prints diagnostics on the text of an input. As text they go to the error stream, with a
summary. -/
def report (s : Surroundings) (showHints : Bool) (input : String) (ds : List Diagnostic) :
    Session m Unit := do
  let text := (← read? input).getD ""
  let sources := (SourceCache.empty.add input text).2
  let shown := ds.filter fun d => showHints || !d.isHint
  match s.settings.format with
  | .text =>
    let layout := Report.Layout.terminal s.colored
    printError (Report.all layout sources shown ++ Report.summary layout shown)
  | .json => printText (Report.all .records sources shown)

end Lowering.Cli
