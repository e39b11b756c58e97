import TokenNet.Handle
import TokenNet.Primitive
import TokenNet.Store

/-!
# Cells

A cell is the value that a class of wired data ports shares.  It knows the inlets that read it
and the outlets that write it, so that a whole class can be moved to another cell at once.
Readers and writers are listed in order of arrival, and none of them twice.
-/

namespace TokenNet

/-- The key of a cell among the cells of a graph. -/
abbrev CellId := Store.Key

/-- A shared value and the data ports that share it. -/
structure Cell where
  value : Value := 0
  readers : List InletId := []
  writers : List OutletId := []
deriving DecidableEq, Repr, Inhabited

namespace Cell

/-- A list with one more last member, unless it is a member already. -/
def joined {α : Type} [DecidableEq α] (members : List α) (newcomer : α) : List α :=
  if newcomer ∈ members then members else members ++ [newcomer]

/-- Adds a reader. -/
def addReader (cell : Cell) (inlet : InletId) : Cell :=
  { cell with readers := joined cell.readers inlet }

/-- Adds a writer. -/
def addWriter (cell : Cell) (outlet : OutletId) : Cell :=
  { cell with writers := joined cell.writers outlet }

/-- Drops a reader. -/
def dropReader (cell : Cell) (inlet : InletId) : Cell :=
  { cell with readers := cell.readers.filter (· ≠ inlet) }

/-- Drops a writer. -/
def dropWriter (cell : Cell) (outlet : OutletId) : Cell :=
  { cell with writers := cell.writers.filter (· ≠ outlet) }

/-- Takes over the readers and writers of another cell and keeps its own value. -/
def absorb (cell other : Cell) : Cell :=
  { cell with
    readers := other.readers.foldl joined cell.readers
    writers := other.writers.foldl joined cell.writers }

/-- Whether no data port shares the cell any more. -/
def isOrphan (cell : Cell) : Bool :=
  cell.readers.isEmpty && cell.writers.isEmpty

end Cell

end TokenNet
