import Lowering.Cli.Run

/-!
# The program

Commands on the files of the operating system. Everything that is decided is decided elsewhere; here
files are read and written, and what a command has printed is sent to its streams.
-/

namespace Lowering

/-- What there is at a path. -/
inductive EntryKind where
  | nothing
  | file
  | folder
  | special
deriving DecidableEq, Repr

def entryKind (path : String) : IO EntryKind := do
  try
    let place ← IO.FS.realPath path
    match (← place.metadata).type with
    | .file => return .file
    | .dir => return .folder
    | _ => return .special
  catch _ => return .nothing

/-- The files in a folder and its folders. A folder that cannot be read has none. -/
partial def filesBelow (path : String) : IO (List String) := do
  let names ←
    try
      let place ← IO.FS.realPath path
      pure ((← place.readDir).toList.map fun entry => entry.fileName)
    catch _ => pure []
  let nested ← names.mapM fun name => do
    let path := Path.join path name
    match ← entryKind path with
    | .file => return [path]
    | .folder => filesBelow path
    | .nothing | .special => return []
  return nested.flatten

/-- Whether an action succeeds. -/
def succeeds (action : IO Unit) : IO Bool := do
  try
    action
    return true
  catch _ => return false

instance : FileSystem IO where
  isFile path := return (← entryKind path) == .file
  isFolder path := return (← entryKind path) == .folder
  read? path := do
    try
      return some (← IO.FS.readFile path)
    catch _ => return none
  filesIn := filesBelow
  makeFolder path := do
    if (← entryKind path) == .folder then return true
    succeeds (IO.FS.createDir path)
  write path text := succeeds (IO.FS.writeFile path text)

end Lowering

open Lowering in
def main (args : List String) : IO UInt32 := do
  match Cli.Request.parse args with
  | .error e =>
    IO.eprintln ("error: " ++ e.message ++ "\n\nFor more information, try '--help'.")
    return 2
  | .ok request =>
    let stdout ← IO.getStdout
    let ending : Cli.Ending ← request.answer (← stdout.isTty)
    IO.eprint ending.output.stderr
    IO.print ending.output.stdout
    stdout.flush
    return ending.status.toUInt32
