/-!
# Fields

A text is cut into fields at every occurrence of one separator.  There is one field more than
there are separators, so the empty text has a single empty field.
-/

namespace TokenNet.Text

/-- The fields of a list of characters. -/
def fields (separator : Char) : List Char → List (List Char)
  | [] => [[]]
  | c :: rest =>
    if c = separator then [] :: fields separator rest
    else
      match fields separator rest with
      | [] => [[c]]
      | field :: later => (c :: field) :: later

/-- The fields of a text. -/
def split (separator : Char) (text : String) : List String :=
  (fields separator text.toList).map String.ofList

/-- Fields joined with the separator between them. -/
def unfields (separator : Char) : List (List Char) → List Char
  | [] => []
  | [field] => field
  | field :: next :: later => field ++ separator :: unfields separator (next :: later)

/-- There is always at least one field. -/
theorem fields_ne_nil (separator : Char) (text : List Char) : fields separator text ≠ [] := by
  cases text with
  | nil => simp [fields]
  | cons c rest =>
      unfold fields
      split
      · simp
      · split <;> simp

/-- Joining the fields of a text gives the text back. -/
theorem unfields_fields (separator : Char) (text : List Char) :
    unfields separator (fields separator text) = text := by
  induction text with
  | nil => rfl
  | cons c rest ih =>
      unfold fields
      have hne := fields_ne_nil separator rest
      cases hf : fields separator rest with
      | nil => exact absurd hf hne
      | cons field later =>
          rw [hf] at ih
          -- A separator closes an empty first field, any other character goes into the first field
          by_cases hc : c = separator
          · simp [hc, unfields, ih]
          · cases later with
            | nil => simpa [hc, unfields] using ih
            | cons next later => simpa [hc, unfields] using ih

end TokenNet.Text
