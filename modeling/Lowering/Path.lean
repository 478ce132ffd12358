/-!
# Paths

A path is compared by its components. Slashes in a row count once, a slash at the end counts
nothing, and a `.` counts only at the very beginning of a relative path. A `..` is a component like
any other, since nothing is known of the directories.

Paths are ordered component by component, and components by their bytes.
-/

namespace Lowering

/-- A part of a path. -/
inductive Component where
  | root
  /-- a `.` at the beginning -/
  | current
  | parent
  | name (text : String)
deriving DecidableEq, Repr

/-- The place of a component's kind in the order. -/
def Component.rank : Component → Nat
  | .root => 0
  | .current => 1
  | .parent => 2
  | .name _ => 3

/-- Whether one component comes before another. -/
def Component.before : Component → Component → Bool
  | .name a, .name b => a < b
  | a, b => a.rank < b.rank

namespace Path

/-- The pieces between slashes. -/
def pieces (path : List Char) : List (List Char) :=
  path.foldr (fun c acc =>
    match c, acc with
    | '/', acc => [] :: acc
    | c, p :: ps => (c :: p) :: ps
    | c, [] => [[c]]) [[]]

/-- The components of a path. -/
def components (path : String) : List Component :=
  let cs := path.toList
  let front : List Component :=
    match cs with
    | '/' :: _ => [.root]
    | ['.'] => [.current]
    | '.' :: '/' :: _ => [.current]
    | _ => []
  front ++ (pieces cs).filterMap fun p =>
    if p = [] ∨ p = ['.'] then none
    else if p = ['.', '.'] then some .parent
    else some (.name (String.ofList p))

/-- Whether two paths have the same components. -/
def same (p q : String) : Bool := components p == components q

/-- Puts a path behind a directory. An absolute path replaces it. -/
def join (dir path : String) : String :=
  if path.toList.head? = some '/' then path
  else if dir = "" ∨ dir.toList.getLast? = some '/' then dir ++ path
  else dir ++ "/" ++ path

/-- Whether one list of components comes before another. -/
def before : List Component → List Component → Bool
  | [], [] => false
  | [], _ :: _ => true
  | _ :: _, [] => false
  | a :: as, b :: bs => if a = b then before as bs else a.before b

/-- The last component, if it is a name. -/
def fileName? (path : String) : Option String :=
  match (components path).getLast? with
  | some (.name n) => some n
  | _ => none

/-- What follows the last dot of a file's name, unless the name starts with that dot. -/
def extension? (path : String) : Option String := do
  let name ← fileName? path
  let ext := name.toList.reverse.takeWhile (· ≠ '.')
  if ext.length + 1 < name.length then some (String.ofList ext.reverse) else none

/-- Whether a piece between slashes is no component. -/
def isSkipped (piece : List Char) : Bool := piece = [] || piece = ['.']

/-- The path without its last component and without the slashes before it. -/
def parent? (path : String) : Option String :=
  let (front, body) : List Char × List Char :=
    match path.toList with
    | '/' :: body => (['/'], body)
    | ['.'] => (['.'], [])
    | '.' :: '/' :: body => (['.'], '/' :: body)
    | body => ([], body)
  match (pieces body).reverse.dropWhile isSkipped with
  | _ :: before =>
    some (String.ofList (front ++ ['/'].intercalate (before.dropWhile isSkipped).reverse))
  | [] => if front = ['.'] then some "" else none

/-- A path behind those that it is in, the outermost first. The root, and what a relative path starts
from, are left out. -/
def ancestors (path : String) : List String :=
  match parent? path with
  | none => []
  | some parent =>
    if parent ≠ "" ∧ parent.length < path.length then ancestors parent ++ [path] else [path]
termination_by path.length

/-- Paths in their order. -/
def sort (paths : List String) : List String :=
  paths.mergeSort fun p q => !before (components q) (components p)

end Path

end Lowering
