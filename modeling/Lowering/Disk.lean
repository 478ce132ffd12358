import Lowering.Path

/-!
# Files and folders

Commands read and write files through `FileSystem`, so that they can run on any. `Disk` is a file
system in memory.

A path is followed piece by piece, and everything that is gone through on the way must be a folder.
This includes a file before a slash at the end of a path: `a.json/` leads nowhere.
-/

namespace Lowering

/-- What commands do with files. -/
class FileSystem (m : Type → Type) where
  isFile : String → m Bool
  isFolder : String → m Bool
  /-- the text of a file, if there is a file and it can be read -/
  read? : String → m (Option String)
  /-- the paths of the files in a folder and its folders, each behind the folder's own path, in any
  order -/
  filesIn : String → m (List String)
  /-- makes a folder if there is none; `false` if this fails -/
  makeFolder : String → m Bool
  /-- makes or replaces a file; `false` if this fails -/
  write : String → String → m Bool

/-- Makes a folder and those that it is in; `false` if this fails. -/
def FileSystem.makeFolders {m : Type → Type} [Monad m] [FileSystem m] (path : String) : m Bool :=
  (Path.ancestors path).allM FileSystem.makeFolder

/-- A place on a disk: the names that lead there from the root. -/
abbrev Place := List String

/-- A file system in memory. The root is always a folder. -/
structure Disk where
  files : List (Place × String)
  folders : List Place
  /-- where paths that are not absolute start -/
  here : Place

namespace Disk

/-- A disk on which `here` is the only folder, with those that it is in. -/
def blank (here : Place) : Disk :=
  ⟨[], (List.range (here.length + 1)).map here.take, here⟩

def hasFolder (d : Disk) (p : Place) : Bool := p.isEmpty || d.folders.contains p

def fileAt? (d : Disk) (p : Place) : Option String := d.files.lookup p

def hasFile (d : Disk) (p : Place) : Bool := (d.fileAt? p).isSome

/-- Whether something can have this name: at most 255 bytes, and none of them zero. -/
def isName (name : String) : Bool :=
  name.utf8ByteSize ≤ 255 && !name.toList.contains (Char.ofNat 0)

/-! ## Following paths -/

/-- Goes from a place over one piece of a path. -/
def step (d : Disk) (p : Place) (piece : String) : Option Place :=
  if !d.hasFolder p then none
  else if piece = "" ∨ piece = "." then some p
  else if piece = ".." then some p.dropLast
  else some (p ++ [piece])

/-- Where a path starts. -/
def start (d : Disk) (path : String) : Place :=
  if path.toList.head? = some '/' then [] else d.here

/-- Whether a path can be followed at all: it is not empty and has at most 4095 bytes. -/
def isPath (path : String) : Bool := path ≠ "" && path.utf8ByteSize ≤ 4095

/-- The pieces of a path that can be followed. -/
def pieces? (path : String) : Option (List String) :=
  if isPath path then some ((Path.pieces path.toList).map String.ofList) else none

/-- Where a path leads. There need not be anything. -/
def locate? (d : Disk) (path : String) : Option Place :=
  (pieces? path).bind (·.foldlM d.step (d.start path))

/-! ## Operations -/

def isFile (d : Disk) (path : String) : Bool := (d.locate? path).any d.hasFile

def isFolder (d : Disk) (path : String) : Bool := (d.locate? path).any d.hasFolder

def read? (d : Disk) (path : String) : Option String := (d.locate? path).bind d.fileAt?

/-- What a place is called from a folder that it is in. -/
def below? : Place → Place → Option Place
  | [], p => some p
  | _ :: _, [] => none
  | a :: as, b :: bs => if a = b then below? as bs else none

def filesIn (d : Disk) (path : String) : List String :=
  match (d.locate? path).filter d.hasFolder with
  | none => []
  | some folder => d.files.filterMap fun (p, _) =>
    ((below? folder p).map fun rest => Path.join path ("/".intercalate rest)).filter isPath

/-- Makes a folder if there is none. The path has to end in the folder's name, slashes apart; behind
a dot no folder can be made. -/
def makeFolder (d : Disk) (path : String) : Option Disk := do
  if d.isFolder path then return d
  match (← pieces? path).reverse.dropWhile (· = "") with
  | [] => none
  | name :: way =>
    let p ← way.reverse.foldlM d.step (d.start path)
    let place := p ++ [name]
    if name = "." ∨ name = ".." ∨ !isName name ∨ !d.hasFolder p ∨ d.hasFile place then none
    return { d with folders := place :: d.folders }

/-- Puts a text at a place, in the place of one that is there. -/
def putFile (p : Place) (text : String) : List (Place × String) → List (Place × String)
  | [] => [(p, text)]
  | (q, old) :: rest => if q = p then (p, text) :: rest else (q, old) :: putFile p text rest

def write (d : Disk) (path text : String) : Option Disk := do
  let p ← d.locate? path
  if d.hasFolder p || !p.getLast?.any isName then none
  return { d with files := putFile p text d.files }

/-- The outcome of an operation that changes the disk unless it fails. -/
def attempt (change : Disk → Option Disk) : StateM Disk Bool := fun d =>
  match change d with
  | some d => (true, d)
  | none => (false, d)

instance : FileSystem (StateM Disk) where
  isFile path := fun d => (d.isFile path, d)
  isFolder path := fun d => (d.isFolder path, d)
  read? path := fun d => (d.read? path, d)
  filesIn path := fun d => (d.filesIn path, d)
  makeFolder path := attempt (·.makeFolder path)
  write path text := attempt (·.write path text)

end Disk

end Lowering
