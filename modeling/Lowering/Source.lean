import Lowering.Path
import Lowering.Span

/-!
# Source texts

The texts that spans point into, and where in them a span is: a line and a column, both counted from
1, the column in bytes. An offset past the end of a text counts as its end.

A text with `n` newlines has `n + 1` lines; each but the last ends with its newline.
-/

namespace Lowering

/-- How many bytes characters take. -/
def byteLength : List Char → Nat
  | [] => 0
  | c :: cs => c.utf8Size + byteLength cs

/-- A text with the path it was read from. -/
structure SourceText where
  path : String
  text : String
deriving DecidableEq, Repr

namespace SourceText

/-- The lines of a text, each with its newline. -/
def splitLines (cs : List Char) : List (List Char) :=
  cs.foldr (fun c lines =>
    if c = '\n' then [c] :: lines
    else
      match lines with
      | l :: ls => (c :: l) :: ls
      | [] => [[c]]) [[]]

def lines (s : SourceText) : List (List Char) := splitLines s.text.toList

/-- The line and the column of a byte, when the first of these lines has number `line`. -/
def locate : List (List Char) → Nat → Nat → Nat × Nat
  | l :: l' :: ls, line, offset =>
    if offset < byteLength l then (line, offset + 1)
    else locate (l' :: ls) (line + 1) (offset - byteLength l)
  | _, line, offset => (line, offset + 1)

/-- The line and the column of an offset. -/
def lineColumn (s : SourceText) (offset : Nat) : Nat × Nat :=
  locate s.lines 1 (min offset s.text.utf8ByteSize)

/-- A line without its newline and the carriage returns right before it. -/
def trimLine (l : List Char) : List Char :=
  match l.reverse with
  | '\n' :: rest => (rest.dropWhile (· = '\r')).reverse
  | _ => l

/-- The text of a line. -/
def lineText? (s : SourceText) (line : Nat) : Option String :=
  if line = 0 then none else s.lines[line - 1]?.map fun l => String.ofList (trimLine l)

end SourceText

/-- Where a span starts. -/
structure Location where
  file : String
  line : Nat
  column : Nat
deriving DecidableEq, Repr

def Location.render (l : Location) : String :=
  l.file ++ ":" ++ toString l.line ++ ":" ++ toString l.column

/-- The texts that are known, by the number that spans use. -/
structure SourceCache where
  files : List SourceText
deriving DecidableEq, Repr

namespace SourceCache

def empty : SourceCache := ⟨[]⟩

instance : Inhabited SourceCache := ⟨empty⟩

/-- Adds a text and gives its number. A path that is known already keeps its text. -/
def add (c : SourceCache) (path text : String) : Nat × SourceCache :=
  match c.files.findIdx? fun f => Path.same f.path path with
  | some i => (i, c)
  | none => (c.files.length, ⟨c.files ++ [⟨path, text⟩]⟩)

def file? (c : SourceCache) (id : Nat) : Option SourceText := c.files[id]?

/-- The text that a span points into. -/
def fileOf? (c : SourceCache) (span : Span) : Option SourceText :=
  if span.isDummy then none else c.file? span.file.toNat

/-- Where a span starts, if its text is known. -/
def location? (c : SourceCache) (span : Span) : Option Location :=
  (c.fileOf? span).map fun f =>
    let (line, column) := f.lineColumn span.start.toNat
    ⟨f.path, line, column⟩

/-- The text of the line that a span starts on. -/
def lineText? (c : SourceCache) (span : Span) : Option String :=
  (c.fileOf? span).bind fun f => f.lineText? (f.lineColumn span.start.toNat).1

end SourceCache

end Lowering
