/-!
# Matrices

A network of equal nodes can be written as a matrix of small numbers in which a cell equal to one
stands for an edge.  Every other cell, and every cell outside the matrix, stands for none, so the
rows need not be equally long.  The number of columns is that of the first row.
-/

namespace TokenNet

/-- Rows of small numbers. -/
abbrev Matrix := List (List UInt8)

namespace Matrix

/-- Whether a cell marks an edge. -/
def marked (matrix : Matrix) (row column : Nat) : Bool :=
  (matrix[row]?.bind fun cells => cells[column]?) == some 1

/-- The number of columns. -/
def columns (matrix : Matrix) : Nat :=
  match matrix with
  | [] => 0
  | first :: _ => first.length

/-- The positions below a bound that have a property, in ascending order. -/
def positions (bound : Nat) (property : Nat → Bool) : List Nat :=
  (List.range bound).filter property

/-- The marked cells of a row among the first columns, from left to right. -/
def markedColumns (matrix : Matrix) (row columns : Nat) : List Nat :=
  positions columns fun column => matrix.marked row column

end Matrix

end TokenNet
