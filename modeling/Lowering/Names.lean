import Lowering.Dict
import Lowering.Span

/-!
# Fresh names

Labels, locals and methods that a pass makes up must not collide with any name of the output. A
pass asks a *supply* for a name and gives a hint; `NameSupply` is all that it knows of the supply.

`Names` is the supply in use. It hands out the hint itself if that is free, and otherwise the hint
followed by a number. The search for the number starts where the last search for the same hint
ended, and every candidate that it meets is struck from the names still to be avoided, so it ends
after at most as many steps as there are names.
-/

namespace Lowering

/-- A source of names. `allocate hint span` gives a name for the node at `span`. -/
class NameSupply (σ : Type) where
  allocate : String → Span → σ → String × σ

/-- The names in use, and for each hint the number that its next search starts from. -/
structure Names where
  taken : List String
  next : Dict Nat

namespace Names

/-- No name is in use. -/
def empty : Names := ⟨[], .empty⟩

instance : Inhabited Names := ⟨empty⟩

def isTaken (names : Names) (name : String) : Bool := names.taken.contains name

/-- Marks a name as used. -/
def reserve (names : Names) (name : String) : Names :=
  { names with taken := names.taken.insert name }

def reserveAll (names : Names) (more : List String) : Names := more.foldl reserve names

/-- The hint with a number. -/
def numbered (hint : String) (k : Nat) : String := hint ++ k.repr

/-- The first number from `k` on whose name is not to be avoided. -/
def firstFree (hint : String) (k : Nat) (avoid : List String) : Nat :=
  if numbered hint k ∈ avoid then firstFree hint (k + 1) (avoid.erase (numbered hint k)) else k
termination_by avoid.length
decreasing_by
  rw [List.length_erase_of_mem ‹_›]
  have := List.length_pos_of_mem ‹numbered hint k ∈ avoid›
  omega

/-- The hint itself if it is free, else the hint with the first number that is free. -/
def allocate (names : Names) (hint : String) : String × Names :=
  if names.isTaken hint then
    let k := firstFree hint ((names.next.get? hint).getD 1) names.taken
    let name := numbered hint k
    (name, ⟨names.taken.insert name, names.next.insert hint (k + 1)⟩)
  else (hint, names.reserve hint)

instance : NameSupply Names where
  allocate hint _ names := names.allocate hint

end Names

end Lowering
