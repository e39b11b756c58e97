import TokenNet.Text.Field

/-!
# Lines

A line ends with a line feed, before which a carriage return may stand; both belong to the end of
the line.  The last line has no end, so a carriage return there is a character like any other.
-/

namespace TokenNet.Text

/-- Pieces between line feeds, without the carriage returns before the line feeds. -/
def withoutReturns : List (List Char) → List (List Char)
  | [] => []
  | [last] => [last]
  | line :: next :: rest =>
    (if line.getLast? = some '\r' then line.dropLast else line) :: withoutReturns (next :: rest)

/-- The lines of a text. -/
def lines (text : List Char) : List (List Char) :=
  withoutReturns (fields '\n' text)

/-- The first line of a text. -/
def firstLine (text : String) : String :=
  match lines text.toList with
  | [] => ""
  | first :: _ => String.ofList first

end TokenNet.Text
