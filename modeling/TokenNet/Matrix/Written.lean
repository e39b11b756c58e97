import TokenNet.Matrix.Basic
import TokenNet.Primitive
import TokenNet.Text.Blank
import TokenNet.Text.Numeral

/-!
# Written matrices

A matrix is written row by row with semicolons between the rows and commas between the cells, and a
list of values with commas between the values.  White space around a cell, a value or a row does
not count, and neither does a blank segment where a row or a value could stand.
-/

namespace TokenNet.Matrix

open TokenNet.Text

/-- Why a text is not a matrix, or not a list of values. -/
inductive WrittenError where
  | cell (found : String)
  | ragged
  | value (found : String)
deriving DecidableEq, Repr, Inhabited

/-- The wording of a fault in a written matrix. -/
def WrittenError.message : WrittenError → String
  | cell found => "Matrix cells must be 0 or 1, got '" ++ found ++ "'"
  | ragged => "Matrix rows have different lengths"
  | value found => "Invalid value '" ++ found ++ "'"

/-! ## Segments -/

/-- The segments of a text between separators, without white space at their ends. -/
def segments (separator : Char) (text : List Char) : List (List Char) :=
  (fields separator text).map (trimBy isBlank)

/-- The segments of a text that are not blank. -/
def filledSegments (separator : Char) (text : List Char) : List (List Char) :=
  (segments separator text).filter fun segment => !segment.isEmpty

/-! ## Reading -/

/-- The cell that a segment stands for. -/
def readCell : List Char → Except WrittenError UInt8
  | ['0'] => .ok 0
  | ['1'] => .ok 1
  | other => .error (.cell (String.ofList other))

/-- The row that a segment stands for. -/
def readRow (segment : List Char) : Except WrittenError (List UInt8) :=
  (segments ',' segment).mapM readCell

/-- The matrix that a text stands for. -/
def ofText (text : String) : Except WrittenError Matrix := do
  let rows : Matrix ← (filledSegments ';' text.toList).mapM readRow
  if rows.all fun row => row.length == rows.columns then return rows else throw .ragged

/-- The value that a segment stands for. -/
def readValue (segment : List Char) : Except WrittenError Value :=
  match int64? (String.ofList segment) with
  | some value => .ok value
  | none => .error (.value (String.ofList segment))

/-- The values that a text stands for. -/
def valuesOfText (text : String) : Except WrittenError (List Value) :=
  (filledSegments ',' text.toList).mapM readValue

end TokenNet.Matrix
