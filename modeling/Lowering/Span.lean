/-!
# Byte ranges of a source file

Every statement carries the range of the source it comes from. A statement that a pass makes up has
the dummy range, which belongs to no file.
-/

namespace Lowering

/-- The bytes `start`, …, `stop - 1` of the file with number `file`. -/
structure Span where
  file : UInt32
  start : UInt32
  stop : UInt32
deriving DecidableEq, Repr

namespace Span

/-- The file number that stands for no file. -/
def noFile : UInt32 := 4294967295

/-- The range of a statement that comes from no source. -/
def dummy : Span := ⟨noFile, 0, 0⟩

instance : Inhabited Span := ⟨dummy⟩

def isDummy (s : Span) : Bool := s.file == noFile

/-- The number of bytes; a range that ends before it starts has none. -/
def length (s : Span) : Nat := s.stop.toNat - s.start.toNat

def isEmpty (s : Span) : Bool := s.length == 0

/-- The smallest range that covers both. Ranges of two files have none, and the first is kept. -/
def join (s t : Span) : Span :=
  if s.file = t.file then ⟨s.file, min s.start t.start, max s.stop t.stop⟩ else s

end Span

end Lowering
