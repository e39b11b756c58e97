import Mathlib.Data.List.TakeWhile
import TokenNet.Proofs.Text.Fields
import TokenNet.Text.Blank

/-!
# Blanks around a text

Trimming takes away the blanks at both ends of a text and nothing else.  The fields of a text have
the same cores whether or not the text has been trimmed before it is cut.

## Main statements

- `trimBy_eq_iff`: which texts are trimmed to a core without blanks.
- `map_trimBy_fields_trimBy`: trimming a text before its fields.
-/

namespace TokenNet.Text

variable {blank : Char → Bool}

/-- A text of blanks only. -/
def AllBlank (blank : Char → Bool) (text : List Char) : Prop :=
  ∀ c ∈ text, blank c = true

instance (blank : Char → Bool) (text : List Char) : Decidable (AllBlank blank text) :=
  List.decidableBAll (fun c => blank c = true) text

theorem AllBlank.not_mem {text : List Char} (h : AllBlank blank text) {c : Char}
    (hc : blank c = false) : c ∉ text :=
  fun hmem => Bool.false_ne_true (hc.symm.trans (h c hmem))

/-- A core with blanks around it. -/
def Padded (blank : Char → Bool) (core text : List Char) : Prop :=
  ∃ before after, AllBlank blank before ∧ AllBlank blank after ∧ text = before ++ core ++ after

theorem padded_self (blank : Char → Bool) (core : List Char) : Padded blank core core :=
  ⟨[], [], nofun, nofun, (List.append_nil core).symm⟩

/-! ## Trimming -/

theorem trimBy_append_left {before : List Char} (h : AllBlank blank before) (text : List Char) :
    trimBy blank (before ++ text) = trimBy blank text := by
  rw [trimBy, List.dropWhile_append_of_pos h, trimBy]

theorem trimBy_append_right {after : List Char} (h : AllBlank blank after) (text : List Char) :
    trimBy blank (text ++ after) = trimBy blank text := by
  have hafter : ∀ c ∈ after.reverse, blank c = true := fun c hc => h c (List.mem_reverse.mp hc)
  unfold trimBy
  rw [List.dropWhile_append]
  -- Either nothing but blanks is left of the text, or its last core character stops the trimming
  split
  next hempty =>
    rw [List.dropWhile_eq_nil_iff.mpr h, List.isEmpty_iff.mp hempty]
  next => rw [List.reverse_append, List.dropWhile_append_of_pos hafter]

/-- **Trimming** leaves a core with the blanks around it taken away. -/
theorem padded_trimBy (blank : Char → Bool) (text : List Char) :
    Padded blank (trimBy blank text) text := by
  -- What the second pass drops stands at the end of what the first pass left
  have hback : text.dropWhile blank = trimBy blank text ++
      ((text.dropWhile blank).reverse.takeWhile blank).reverse := by
    rw [trimBy, ← List.reverse_append, List.takeWhile_append_dropWhile, List.reverse_reverse]
  refine ⟨text.takeWhile blank, ((text.dropWhile blank).reverse.takeWhile blank).reverse,
    fun c hc => ?_, fun c hc => ?_, ?_⟩
  · exact List.mem_takeWhile_imp hc
  · exact List.mem_takeWhile_imp (List.mem_reverse.mp hc)
  · rw [List.append_assoc, ← hback, List.takeWhile_append_dropWhile]

/-- Nothing is left of a blank text, and of no other. -/
theorem trimBy_eq_nil_iff {text : List Char} : trimBy blank text = [] ↔ AllBlank blank text := by
  constructor
  · intro h
    obtain ⟨before, after, hbefore, hafter, htext⟩ := padded_trimBy blank text
    rw [h, List.append_nil] at htext
    rw [htext]
    exact fun c hc => (List.mem_append.mp hc).elim (hbefore c) (hafter c)
  · intro h
    have hleft := trimBy_append_left h []
    rwa [List.append_nil] at hleft

theorem trimBy_eq_self {core : List Char} (h : ∀ c ∈ core, blank c = false) :
    trimBy blank core = core := by
  have hkept : ∀ {text : List Char}, (∀ c ∈ text, blank c = false) →
      text.dropWhile blank = text := by
    intro text htext
    cases text with
    | nil => rfl
    | cons c rest => rw [List.dropWhile_cons_of_neg (by simp [htext c List.mem_cons_self])]
  rw [trimBy, hkept h, hkept fun c hc => h c (List.mem_reverse.mp hc), List.reverse_reverse]

/-- **A core without blanks** is what is left of the texts that have it with blanks around it. -/
theorem trimBy_eq_iff {core text : List Char} (h : ∀ c ∈ core, blank c = false) :
    trimBy blank text = core ↔ Padded blank core text := by
  constructor
  · rintro rfl
    exact padded_trimBy blank text
  · rintro ⟨before, after, hbefore, hafter, rfl⟩
    rw [trimBy_append_right hafter, trimBy_append_left hbefore, trimBy_eq_self h]

/-! ## Fields -/

variable {separator : Char}

/-- What stands behind a text and has no separator comes into the last field. -/
theorem exists_fields_append {after : List Char} (h : separator ∉ after) (text : List Char) :
    ∃ front last, fields separator text = front ++ [last] ∧
      fields separator (text ++ after) = front ++ [last ++ after] := by
  induction text with
  | nil => exact ⟨[], [], rfl, fields_of_not_mem h⟩
  | cons c rest ih =>
    obtain ⟨front, last, hrest, happend⟩ := ih
    by_cases hc : c = separator
    · subst hc
      refine ⟨[] :: front, last, ?_, ?_⟩
      · rw [fields_separator, hrest, List.cons_append]
      · rw [List.cons_append, fields_separator, happend, List.cons_append]
    · rw [List.cons_append, fields, fields, if_neg hc, if_neg hc, hrest, happend]
      -- The character goes to the front of the first field, which may be the last one, too
      cases front with
      | nil => exact ⟨[], c :: last, rfl, rfl⟩
      | cons field later => exact ⟨(c :: field) :: later, last, rfl, rfl⟩

/-- Blanks in front of a text come into the first field. -/
theorem map_trimBy_fields_append_left (h : blank separator = false) {before : List Char}
    (hbefore : AllBlank blank before) (text : List Char) :
    (fields separator (before ++ text)).map (trimBy blank) =
      (fields separator text).map (trimBy blank) := by
  induction before with
  | nil => rfl
  -- A blank is no separator, so it is part of the first field, and trimmed off it
  | cons c before ih =>
    obtain ⟨hc, hrest⟩ := List.forall_mem_cons.mp hbefore
    have hne : c ≠ separator := by
      rintro rfl
      exact Bool.false_ne_true (h.symm.trans hc)
    obtain ⟨field, later, hfields, hcons⟩ := exists_fields_cons hne (before ++ text)
    have hfield : trimBy blank (c :: field) = trimBy blank field :=
      trimBy_append_left (List.forall_mem_singleton.mpr hc) field
    rw [← ih hrest, hfields, List.cons_append, hcons, List.map_cons, List.map_cons, hfield]

/-- Blanks behind a text come into the last field. -/
theorem map_trimBy_fields_append_right (h : blank separator = false) {after : List Char}
    (hafter : AllBlank blank after) (text : List Char) :
    (fields separator (text ++ after)).map (trimBy blank) =
      (fields separator text).map (trimBy blank) := by
  obtain ⟨front, last, hfields, happend⟩ := exists_fields_append (hafter.not_mem h) text
  rw [hfields, happend, List.map_append, List.map_append, List.map_singleton, List.map_singleton,
    trimBy_append_right hafter]

/-- **Trimming a text** changes nothing about its trimmed fields. -/
theorem map_trimBy_fields_trimBy (h : blank separator = false) (text : List Char) :
    (fields separator (trimBy blank text)).map (trimBy blank) =
      (fields separator text).map (trimBy blank) := by
  obtain ⟨before, after, hbefore, hafter, htext⟩ := padded_trimBy blank text
  calc (fields separator (trimBy blank text)).map (trimBy blank)
    _ = (fields separator (before ++ trimBy blank text ++ after)).map (trimBy blank) := by
      rw [map_trimBy_fields_append_right h hafter, map_trimBy_fields_append_left h hbefore]
    _ = (fields separator text).map (trimBy blank) := by rw [← htext]

end TokenNet.Text
