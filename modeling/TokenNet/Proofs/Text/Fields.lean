import TokenNet.Text.Field

/-!
# Cutting and joining

Cutting a text into fields and joining fields to a text undo each other.  The fields of a text hold
no separator, and there is always one; any such fields are the fields of the text that they join to.

## Main statements

- `fields_eq_iff`: which fields a list of characters has.
- `split_eq_iff`: which fields a text has.
-/

namespace TokenNet.Text

variable {separator : Char}

/-! ## Cutting -/

theorem fields_separator (separator : Char) (text : List Char) :
    fields separator (separator :: text) = [] :: fields separator text := by
  rw [fields, if_pos rfl]

/-- A character that is no separator stands at the front of the first field. -/
theorem exists_fields_cons {c : Char} (hc : c ≠ separator) (text : List Char) :
    ∃ field later, fields separator text = field :: later ∧
      fields separator (c :: text) = (c :: field) :: later := by
  obtain ⟨field, later, hfields⟩ := List.exists_cons_of_ne_nil (fields_ne_nil separator text)
  refine ⟨field, later, hfields, ?_⟩
  rw [fields, if_neg hc, hfields]

/-- **No field holds a separator.** -/
theorem not_mem_of_mem_fields {text field : List Char} (h : field ∈ fields separator text) :
    separator ∉ field := by
  induction text generalizing field with
  | nil =>
    rw [fields, List.mem_singleton] at h
    simp [h]
  | cons c rest ih =>
    -- A separator opens an empty field in front; any other character goes into the first field.
    by_cases hc : c = separator
    · subst hc
      rw [fields_separator, List.mem_cons] at h
      rcases h with rfl | h
      · exact List.not_mem_nil
      · exact ih h
    · obtain ⟨first, later, hrest, hfields⟩ := exists_fields_cons hc rest
      rw [hfields, List.mem_cons] at h
      rcases h with rfl | h
      · rw [List.mem_cons, not_or]
        exact ⟨Ne.symm hc, ih (hrest ▸ List.mem_cons_self)⟩
      · exact ih (hrest ▸ List.mem_cons_of_mem first h)

/-! ## Joining -/

/-- A text without separators is its only field. -/
theorem fields_of_not_mem {field : List Char} (h : separator ∉ field) :
    fields separator field = [field] := by
  induction field with
  | nil => rfl
  | cons c rest ih =>
    rw [List.mem_cons, not_or] at h
    rw [fields, if_neg (Ne.symm h.1), ih h.2]

/-- A field in front of a separator is the first field. -/
theorem fields_append {field : List Char} (h : separator ∉ field) (text : List Char) :
    fields separator (field ++ separator :: text) = field :: fields separator text := by
  induction field with
  | nil => exact fields_separator separator text
  | cons c rest ih =>
    rw [List.mem_cons, not_or] at h
    rw [List.cons_append, fields, if_neg (Ne.symm h.1), ih h.2]

/-- **Cutting undoes joining**, if there is a field and none holds the separator. -/
theorem fields_unfields : ∀ {parts : List (List Char)}, parts ≠ [] →
    (∀ part ∈ parts, separator ∉ part) → fields separator (unfields separator parts) = parts
  | [], hne, _ => absurd rfl hne
  | [part], _, hfree => fields_of_not_mem (hfree part List.mem_cons_self)
  | part :: next :: later, _, hfree => by
    rw [unfields, fields_append (hfree part List.mem_cons_self),
      fields_unfields (List.cons_ne_nil next later) fun other hother =>
        hfree other (List.mem_cons_of_mem part hother)]

/-- A joined text holds what its fields hold, and the separator. -/
theorem not_mem_unfields {separator c : Char} (hc : c ≠ separator) :
    ∀ {parts : List (List Char)}, (∀ part ∈ parts, c ∉ part) → c ∉ unfields separator parts
  | [], _ => List.not_mem_nil
  | [part], h => h part List.mem_cons_self
  | part :: next :: later, h => by
    have hlater := not_mem_unfields hc fun other hother =>
      h other (List.mem_cons_of_mem part hother)
    rw [unfields, List.mem_append, List.mem_cons, not_or, not_or]
    exact ⟨h part List.mem_cons_self, hc, hlater⟩

/-- **The fields of a text** are those that hold no separator and join to the text. -/
theorem fields_eq_iff {text : List Char} {parts : List (List Char)} :
    fields separator text = parts ↔ parts ≠ [] ∧ (∀ part ∈ parts, separator ∉ part) ∧
      unfields separator parts = text := by
  constructor
  · rintro rfl
    exact ⟨fields_ne_nil separator text, fun _ hpart => not_mem_of_mem_fields hpart,
      unfields_fields separator text⟩
  · rintro ⟨hne, hfree, rfl⟩
    exact fields_unfields hne hfree

/-! ## Texts -/

/-- Joining puts a separator between the fields. -/
theorem unfields_eq_intercalate (separator : Char) : ∀ parts : List (List Char),
    unfields separator parts = [separator].intercalate parts
  | [] => rfl
  | [part] => by simp [unfields]
  | part :: next :: later => by
    rw [unfields, unfields_eq_intercalate separator (next :: later)]
    simp

/-- **The fields of a text**, as texts. -/
theorem split_eq_iff {text : String} {parts : List String} :
    split separator text = parts ↔ parts ≠ [] ∧ (∀ part ∈ parts, separator ∉ part.toList) ∧
      (String.singleton separator).intercalate parts = text := by
  -- Texts are the same as their lists of characters, so both sides can be read as lists
  have hlists : split separator text = parts ↔
      fields separator text.toList = parts.map String.toList := by
    unfold split
    constructor
    · rintro rfl
      simp [Function.comp_def]
    · intro h
      simp [h, Function.comp_def]
  rw [hlists, fields_eq_iff, ← String.toList_inj, String.toList_intercalate,
    unfields_eq_intercalate]
  simp

end TokenNet.Text
