/-!
# The command line

A command line is a command with its options and its operand. Some options are global: they may stand
before the command and behind it, and behind it they count more.

* An option is written `--name` or with its letter, `-n`. Letters can be put together: `-vq`.
* A value follows as the next word, after a `=`, or right after the letter. The next word is no value
  if it starts with a dash and has more than the dash.
* Behind `--` there are only operands.
* An option is given at most once on either side of the command, unless it counts.

Words are read from left to right, and the first thing that is wrong, or that asks for help or for
the version, decides. A value in a word of its own is looked at only when the next option or operand
comes. So if an option with such a value stands right before the command, what is behind the command
decides first.
-/

namespace Lowering.Cli

/-! ## Options and commands -/

/-- An option. -/
inductive Opt where
  | format
  | verbose
  | quiet
  | noColor
  | config
  | emit
  | outDir
  | all
  | help
  | version
deriving DecidableEq, Repr

namespace Opt

def name : Opt → String
  | .format => "format"
  | .verbose => "verbose"
  | .quiet => "quiet"
  | .noColor => "no-color"
  | .config => "config"
  | .emit => "emit"
  | .outDir => "out-dir"
  | .all => "all"
  | .help => "help"
  | .version => "version"

def letter? : Opt → Option Char
  | .verbose => some 'v'
  | .quiet => some 'q'
  | .outDir => some 'o'
  | .help => some 'h'
  | .version => some 'V'
  | .format | .noColor | .config | .emit | .all => none

/-- What the value of an option is called, if it has one. -/
def value? : Opt → Option String
  | .format => some "FORMAT"
  | .config => some "CONFIG"
  | .outDir => some "OUT_DIR"
  | .verbose | .quiet | .noColor | .emit | .all | .help | .version => none

/-- Whether an option may be given more than once. -/
def counts (o : Opt) : Bool := o = .verbose

/-- The options that may stand on both sides of the command. -/
def globals : List Opt := [.format, .verbose, .quiet, .noColor, .config]

/-- The options that end the reading. -/
def queries : List Opt := [.help, .version]

end Opt

/-- A command without its arguments. -/
inductive Verb where
  | hoist
  | bridge
  | lower
  | explain
deriving DecidableEq, Repr

namespace Verb

def name : Verb → String
  | .hoist => "hoist"
  | .bridge => "bridge"
  | .lower => "lower"
  | .explain => "explain"

def list : List Verb := [.hoist, .bridge, .lower, .explain]

def ofName? (name : String) : Option Verb := list.find? fun v => v.name = name

/-- The options that only this command has. -/
def ownOptions : Verb → List Opt
  | .hoist | .bridge => [.emit]
  | .lower => [.outDir, .emit, .all]
  | .explain => []

def options (v : Verb) : List Opt := v.ownOptions ++ Opt.globals ++ Opt.queries

/-- What the operand is called. -/
def operand : Verb → String
  | .hoist | .bridge | .lower => "INPUT"
  | .explain => "CODE"

/-- Whether the operand is a path; the code of `explain` is any text. -/
def takesPath (v : Verb) : Bool := v ≠ .explain

/-- What stands for the operand if there is none. -/
def defaultOperand? : Verb → Option String
  | .lower => some "."
  | .hoist | .bridge | .explain => none

end Verb

/-! ## Requests -/

/-- How a command writes its results. -/
inductive Format where
  | text
  | json
deriving DecidableEq, Repr

def Format.ofName? : String → Option Format
  | "text" => some .text
  | "json" => some .json
  | _ => none

/-- What the global options say. -/
structure Settings where
  format : Format
  quiet : Bool
  noColor : Bool
  /-- the configuration file -/
  config : Option String
deriving DecidableEq, Repr

/-- A command. -/
inductive Command where
  | hoist (input : String) (emit : Bool)
  | bridge (input : String) (emit : Bool)
  | lower (input : String) (outDir : Option String) (emit all : Bool)
  | explain (code : String)
deriving DecidableEq, Repr

/-- What help is about. -/
inductive Topic where
  | program
  | verb (v : Verb)
  /-- the command that gives help -/
  | help
deriving DecidableEq, Repr

/-- What a command line asks for. -/
inductive Request where
  | help (topic : Topic)
  | version (of : Option Verb)
  /-- there is no command -/
  | overview
  | run (settings : Settings) (command : Command)
deriving DecidableEq, Repr

/-- What is wrong with a command line. -/
inductive UsageError where
  | unknownCommand (word : String)
  | unknownOption (word : String)
  | repeated (o : Opt)
  | missingValue (o : Opt)
  | unexpectedValue (o : Opt)
  | badValue (o : Opt) (value : String)
  | emptyOperand (v : Verb)
  | missingOperand (v : Verb)
  | unexpectedOperand (word : String)
deriving DecidableEq, Repr

def UsageError.message : UsageError → String
  | .unknownCommand word => "unknown command '" ++ word ++ "'"
  | .unknownOption word => "unknown option '" ++ word ++ "'"
  | .repeated o => "option '--" ++ o.name ++ "' is given more than once"
  | .missingValue o => "option '--" ++ o.name ++ "' needs a value"
  | .unexpectedValue o => "option '--" ++ o.name ++ "' takes no value"
  | .badValue o value => "bad value '" ++ value ++ "' for option '--" ++ o.name ++ "'"
  | .emptyOperand v => "<" ++ v.operand ++ "> is empty"
  | .missingOperand v => "<" ++ v.operand ++ "> is missing"
  | .unexpectedOperand word => "unexpected argument '" ++ word ++ "'"

/-! ## Words -/

/-- A word of a command line. -/
inductive Word where
  /-- `--name` or `--name=value` -/
  | long (name : String) (value : Option String)
  /-- a dash and letters -/
  | letters (cs : List Char)
  /-- `--` alone -/
  | ending
  | operand
deriving DecidableEq, Repr

/-- The kind of a word. A dash alone is an operand. -/
def Word.of (word : String) : Word :=
  match word.toList with
  | ['-', '-'] => .ending
  | '-' :: '-' :: cs =>
    let name := String.ofList (cs.takeWhile (· ≠ '='))
    match cs.dropWhile (· ≠ '=') with
    | _ :: value => .long name (some (String.ofList value))
    | [] => .long name none
  | '-' :: c :: cs => .letters (c :: cs)
  | _ => .operand

/-! ## Reading one side of the command -/

/-- What has been read on one side of the command. A flag has an empty value. -/
structure Scope where
  given : List (Opt × String)
  /-- an option whose value has not been looked at yet -/
  pending : Option (Opt × String)
  operand : Option String
deriving DecidableEq, Repr

/-- Why reading stops before the end. -/
inductive Stop where
  | refused (e : UsageError)
  | help
  | version
deriving DecidableEq, Repr

namespace Scope

def empty : Scope := ⟨[], none, none⟩

def has (s : Scope) (o : Opt) : Bool := s.given.any fun g => g.1 = o

def value? (s : Scope) (o : Opt) : Option String := s.given.lookup o

/-- Whether a value is right for an option. Paths are not empty, and flags have no value. -/
def fits (o : Opt) (value : String) : Bool :=
  match o with
  | .format => (Format.ofName? value).isSome
  | .config | .outDir => value ≠ ""
  | .verbose | .quiet | .noColor | .emit | .all | .help | .version => value = ""

/-- Adds an option with its value. -/
def add (s : Scope) (o : Opt) (value : String) : Except Stop Scope :=
  if o = .help then .error .help
  else if o = .version then .error .version
  else if !fits o value then .error (.refused (.badValue o value))
  else if s.has o && !o.counts then .error (.refused (.repeated o))
  else .ok { s with given := (o, value) :: s.given }

/-- Looks at the value that is pending. -/
def settle (s : Scope) : Except Stop Scope :=
  match s.pending with
  | some (o, value) => add { s with pending := none } o value
  | none => .ok s

/-- Adds an option with its value, once the one before is settled. -/
def give (s : Scope) (o : Opt) (value : String) : Except Stop Scope := do
  let s ← s.settle
  s.add o value

/-- Adds the operand of a command. Without a command there is none. -/
def addOperand (verb : Option Verb) (s : Scope) (word : String) : Except Stop Scope := do
  let s ← s.settle
  match verb, s.operand with
  | some v, none =>
    if v.takesPath && word = "" then .error (.refused (.emptyOperand v))
    else .ok { s with operand := some word }
  | _, _ => .error (.refused (.unexpectedOperand word))

end Scope

/-- Reads letters after a dash, and gives the option that still needs its value. -/
def readLetters (options : List Opt) (s : Scope) : List Char → Except Stop (Scope × Option Opt)
  | [] => .ok (s, none)
  | c :: cs =>
    match options.find? fun o => o.letter? = some c with
    | none => .error (.refused (.unknownOption (String.ofList ['-', c])))
    | some o =>
      if o.value?.isNone then do
        let s ← s.give o ""
        readLetters options s cs
      else
        match cs with
        | [] => do
          let s ← s.settle
          return (s, some o)
        | '=' :: value => do
          let s ← s.give o (String.ofList value)
          return (s, none)
        | value => do
          let s ← s.give o (String.ofList value)
          return (s, none)

/-- Reads words up to the command, if none has been read yet, and else up to the end. The rest starts
with the command's name. A value can still be pending. -/
def readWords (verb : Option Verb) (options : List Opt) :
    Scope → Option Opt → List String → Except Stop (Scope × List String)
  | s, none, [] => .ok (s, [])
  | _, some o, [] => .error (.refused (.missingValue o))
  | s, some o, word :: rest =>
    if Word.of word = .operand then
      readWords verb options { s with pending := some (o, word) } none rest
    else .error (.refused (.missingValue o))
  | s, none, word :: rest =>
    match Word.of word with
    | .ending => do
      let s ← rest.foldlM (Scope.addOperand verb) s
      return (s, [])
    | .long name value =>
      match options.find? fun o => o.name = name with
      | none => .error (.refused (.unknownOption word))
      | some o =>
        match o.value?.isSome, value with
        | true, some v => do
          let s ← s.give o v
          readWords verb options s none rest
        | true, none => do
          let s ← s.settle
          readWords verb options s (some o) rest
        | false, some _ => .error (.refused (.unexpectedValue o))
        | false, none => do
          let s ← s.give o ""
          readWords verb options s none rest
    | .letters cs => do
      let (s, pending) ← readLetters options s cs
      readWords verb options s pending rest
    | .operand =>
      if verb.isNone then .ok (s, word :: rest)
      else do
        let s ← s.addOperand verb word
        readWords verb options s none rest

/-! ## Reading a command line -/

/-- What the global options of both sides say together. -/
def Settings.of (before behind : Scope) : Settings where
  format := ((behind.value? .format).orElse fun _ => before.value? .format).bind Format.ofName?
    |>.getD .text
  quiet := before.has .quiet || behind.has .quiet
  noColor := before.has .noColor || behind.has .noColor
  config := (behind.value? .config).orElse fun _ => before.value? .config

/-- The command with what stands behind its name. -/
def Command.of (v : Verb) (s : Scope) : Except UsageError Command :=
  match s.operand.orElse fun _ => v.defaultOperand? with
  | none => .error (.missingOperand v)
  | some operand =>
    .ok <|
      match v with
      | .hoist => .hoist operand (s.has .emit)
      | .bridge => .bridge operand (s.has .emit)
      | .lower => .lower operand (s.value? .outDir) (s.has .emit) (s.has .all)
      | .explain => .explain operand

/-- What help is asked for by the words behind `help`. -/
def Topic.ofWords : List String → Except UsageError Topic
  | [] => .ok .program
  | word :: rest =>
    let topic? := if word = "help" then some .help else (Verb.ofName? word).map .verb
    match topic?, rest with
    | none, _ => .error (.unknownCommand word)
    | some topic, [] => .ok topic
    | some _, word :: _ => .error (.unknownCommand word)

/-- What it means that reading stops, before the command or behind it. -/
def Stop.request (verb : Option Verb) : Stop → Except UsageError Request
  | .refused e => .error e
  | .help => .ok (.help (verb.elim .program .verb))
  | .version => .ok (.version verb)

/-- What a side of the command asks for: `next` tells it, unless reading stops before. -/
def Request.ofSide {α : Type} (verb : Option Verb) (side : Except Stop α)
    (next : α → Except UsageError Request) : Except UsageError Request :=
  match side with
  | .error stop => stop.request verb
  | .ok a => next a

/-- What a command line asks for. -/
def Request.parse (words : List String) : Except UsageError Request :=
  ofSide none (readWords none (Opt.globals ++ Opt.queries) .empty none words) fun
    | (before, []) => ofSide none before.settle fun _ => .ok .overview
    | (_, "help" :: rest) => (Topic.ofWords rest).map .help
    | (before, word :: rest) =>
      match Verb.ofName? word with
      | none => .error (.unknownCommand word)
      | some v =>
        ofSide (some v) (readWords (some v) v.options .empty none rest) fun (behind, _) =>
          ofSide (some v) behind.settle fun behind => do
            let command ← Command.of v behind
            ofSide none before.settle fun before => .ok (.run (.of before behind) command)

end Lowering.Cli
