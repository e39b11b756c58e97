import Mathlib.Data.List.Forall2
import TokenNet.Matrix.Written
import TokenNet.Proofs.Change.Build
import TokenNet.Proofs.Text.Blank
import TokenNet.Proofs.Text.Numeral

/-!
# Reading what is written

A matrix can be written in many ways: with white space around its cells and with blank segments
among its rows.  Every way of writing a matrix of zeros and ones in equally long rows is read as that
matrix, and nothing else is read as a matrix.  A list of values is read in the same way, whatever its
values.

## Main statements

- `Segmented`: segments that stand for the parts of a list, with blank ones among them.
- `Written`, `WrittenValues`: the ways of writing a matrix and a list of values.
- `mapM_filled_eq_ok_iff`: reading the segments that are not blank.
- `ofText_eq_ok_iff`, `valuesOfText_of_written`: reading a matrix and a list of values.
- `written_is_read`: both together, with one way of writing each of them.
-/

namespace TokenNet.Matrix

open TokenNet.Text

variable {α ε : Type}

/-! ## Ways of writing -/

/-- Segments that stand for the parts of a list one after another, with blank ones anywhere among
them. -/
inductive Segmented (written : α → List Char → Prop) : List α → List (List Char) → Prop where
  | nil : Segmented written [] []
  | blank {parts : List α} {segments : List (List Char)} (segment : List Char)
      (hblank : AllBlank isBlank segment) (hrest : Segmented written parts segments) :
      Segmented written parts (segment :: segments)
  | part {parts : List α} {segments : List (List Char)} (part : α) (segment : List Char)
      (hpart : written part segment) (hrest : Segmented written parts segments) :
      Segmented written (part :: parts) (segment :: segments)

/-- A number in decimal form with white space around it. -/
def WrittenNumber (n : Int) (text : List Char) : Prop :=
  Padded isBlank (toString n).toList text

/-- The cells of a row with commas between them. -/
def WrittenRow (row : List UInt8) (text : List Char) : Prop :=
  ∃ cells, List.Forall₂ (fun cell => WrittenNumber cell.toNat) row cells ∧ unfields ',' cells = text

/-- The rows of a matrix with semicolons between them, and blank segments anywhere among them. -/
def Written (matrix : Matrix) (text : String) : Prop :=
  ∃ segments, Segmented WrittenRow matrix segments ∧ unfields ';' segments = text.toList

/-- Values with commas between them, and blank segments anywhere among them. -/
def WrittenValues (values : List Value) (text : String) : Prop :=
  ∃ segments, Segmented (fun value => WrittenNumber value.toInt) values segments ∧
    unfields ',' segments = text.toList

/-- A matrix of zeros and ones in equally long rows that are not empty. -/
structure Binary (matrix : Matrix) : Prop where
  rectangular : ∃ width, 0 < width ∧ ∀ row ∈ matrix, row.length = width
  bits : ∀ row ∈ matrix, ∀ cell ∈ row, cell = 0 ∨ cell = 1

/-! ## Segments -/

namespace Segmented

variable {written : α → List Char → Prop} {parts : List α} {segments : List (List Char)}

/-- What holds of all parts can be said beside how they are written. -/
theorem and_left_iff {P : α → Prop} :
    Segmented (fun part segment => P part ∧ written part segment) parts segments ↔
      (∀ part ∈ parts, P part) ∧ Segmented written parts segments := by
  -- Blanks say nothing about the parts
  constructor
  · intro h
    induction h with
    | nil => exact ⟨nofun, .nil⟩
    | blank segment hblank _ ih => exact ⟨ih.1, .blank segment hblank ih.2⟩
    | part part segment hpart _ ih =>
      exact ⟨List.forall_mem_cons.mpr ⟨hpart.1, ih.1⟩, .part part segment hpart.2 ih.2⟩
  · rintro ⟨hall, h⟩
    induction h with
    | nil => exact .nil
    | blank segment hblank _ ih => exact .blank segment hblank (ih hall)
    | part part segment hpart _ ih =>
      obtain ⟨hfirst, hrest⟩ := List.forall_mem_cons.mp hall
      exact .part part segment ⟨hfirst, hpart⟩ (ih hrest)

theorem imp {written' : α → List Char → Prop}
    (himp : ∀ part segment, written part segment → written' part segment)
    (h : Segmented written parts segments) : Segmented written' parts segments := by
  induction h with
  | nil => exact .nil
  | blank segment hblank _ ih => exact .blank segment hblank ih
  | part part segment hpart _ ih => exact .part part segment (himp part segment hpart) ih

/-- Parts can be written one behind the other. -/
theorem map {write : α → List Char} (h : ∀ part, written part (write part)) :
    ∀ parts : List α, Segmented written parts (parts.map write)
  | [] => .nil
  | first :: rest => .part first (write first) (h first) (map h rest)

theorem not_mem_segment {separator : Char} (hseparator : isBlank separator = false)
    (hfree : ∀ part segment, written part segment → separator ∉ segment)
    (h : Segmented written parts segments) : ∀ segment ∈ segments, separator ∉ segment := by
  induction h with
  | nil => exact nofun
  | blank segment hblank _ ih =>
    exact List.forall_mem_cons.mpr ⟨hblank.not_mem hseparator, ih⟩
  | part part segment hpart _ ih => exact List.forall_mem_cons.mpr ⟨hfree part segment hpart, ih⟩

/-- **The fields of a text** are the segments that it was joined from, and one blank field if there
are none. -/
theorem fields_iff {separator : Char} (hseparator : isBlank separator = false)
    (hfree : ∀ part segment, written part segment → separator ∉ segment) {text : List Char} :
    Segmented written parts (fields separator text) ↔
      ∃ segments, Segmented written parts segments ∧ unfields separator segments = text := by
  constructor
  · intro h
    exact ⟨_, h, unfields_fields separator text⟩
  · rintro ⟨segments, h, rfl⟩
    by_cases hnone : segments = []
    · subst hnone
      cases h
      exact .blank [] nofun .nil
    · rwa [fields_unfields hnone (h.not_mem_segment hseparator hfree)]

end Segmented

/-! ## Reading segments -/

variable {read : List Char → Except ε α}

/-- **Reading segments** gives one part for each of them. -/
theorem mapM_eq_ok_iff {segments : List (List Char)} {parts : List α} :
    segments.mapM read = .ok parts ↔
      List.Forall₂ (fun part segment => read segment = .ok part) parts segments := by
  induction segments generalizing parts with
  | nil => simp [List.mapM_nil, pure, Except.pure, eq_comm]
  | cons segment rest ih =>
    rw [List.mapM_cons, Except.bind_eq_ok_iff, List.forall₂_cons_right_iff]
    constructor
    · rintro ⟨part, hpart, hrest⟩
      obtain ⟨others, hothers, hparts⟩ := Except.bind_eq_ok_iff.mp hrest
      exact ⟨part, others, hpart, ih.mp hothers, (Except.ok.inj hparts).symm⟩
    · rintro ⟨part, others, hpart, hothers, rfl⟩
      exact ⟨part, hpart, Except.bind_eq_ok_iff.mpr ⟨others, ih.mpr hothers, rfl⟩⟩

/-- **Reading the segments that are not blank** gives a part for each of them, if a blank segment
stands for none. -/
theorem mapM_filled_eq_ok_iff (hnil : ∀ part, read [] ≠ .ok part) {segments : List (List Char)}
    {parts : List α} :
    ((segments.map (trimBy isBlank)).filter fun segment => !segment.isEmpty).mapM read = .ok parts ↔
      Segmented (fun part segment => read (trimBy isBlank segment) = .ok part) parts segments := by
  induction segments generalizing parts with
  | nil =>
    constructor
    · rintro ⟨⟩
      exact .nil
    · rintro ⟨⟩
      rfl
  | cons segment rest ih =>
    rw [List.map_cons]
    -- A blank segment is filtered out, and no part is read from it
    by_cases hblank : trimBy isBlank segment = []
    · rw [List.filter_cons_of_neg (by simp [hblank]), ih]
      constructor
      · exact .blank segment (trimBy_eq_nil_iff.mp hblank)
      · intro h
        cases h with
        | blank _ _ hrest => exact hrest
        | part part _ hpart _ => exact absurd (hblank ▸ hpart) (hnil part)
    · rw [List.filter_cons_of_pos (by simp [hblank]), List.mapM_cons, Except.bind_eq_ok_iff]
      constructor
      · rintro ⟨part, hpart, hrest⟩
        obtain ⟨others, hothers, hparts⟩ := Except.bind_eq_ok_iff.mp hrest
        obtain rfl := Except.ok.inj hparts
        exact .part part segment hpart (ih.mp hothers)
      · intro h
        cases h with
        | blank _ hnone _ => exact absurd (trimBy_eq_nil_iff.mpr hnone) hblank
        | part part _ hpart hrest =>
          exact ⟨part, hpart, Except.bind_eq_ok_iff.mpr ⟨_, ih.mpr hrest, rfl⟩⟩

/-! ## Reading rows -/

/-- A written number holds digits, minus signs and white space. -/
theorem not_mem_of_writtenNumber {separator : Char} (hblank : isBlank separator = false)
    (hdigit : separator.isDigit = false) (hminus : separator ≠ '-') {n : Int} {text : List Char}
    (h : WrittenNumber n text) : separator ∉ text := by
  obtain ⟨before, after, hbefore, hafter, rfl⟩ := h
  rw [List.mem_append, List.mem_append, not_or, not_or]
  refine ⟨⟨hbefore.not_mem hblank, fun hmem => ?_⟩, hafter.not_mem hblank⟩
  obtain h | h := isDigit_of_mem_toString hmem
  · exact Bool.false_ne_true (hdigit.symm.trans h)
  · exact hminus h

/-- Every part that is written has a property that holds of each way of writing one. -/
theorem forall_mem_of_forall₂ {written : α → List Char → Prop} {P : List Char → Prop}
    (hwritten : ∀ part segment, written part segment → P segment) {parts : List α}
    {segments : List (List Char)} (h : List.Forall₂ written parts segments) :
    ∀ segment ∈ segments, P segment := by
  induction h with
  | nil => exact nofun
  | cons hpart _ ih => exact List.forall_mem_cons.mpr ⟨hwritten _ _ hpart, ih⟩

theorem not_mem_of_writtenRow {row : List UInt8} {text : List Char} (h : WrittenRow row text) :
    ';' ∉ text := by
  obtain ⟨cells, hcells, rfl⟩ := h
  refine not_mem_unfields (by decide) (forall_mem_of_forall₂ (fun cell segment hcell => ?_) hcells)
  exact not_mem_of_writtenNumber (by decide) (by decide) (by decide) hcell

/-- A cell is a zero or a one. -/
theorem readCell_eq_ok_iff {segment : List Char} {cell : UInt8} :
    readCell segment = .ok cell ↔
      (cell = 0 ∨ cell = 1) ∧ segment = (toString (cell.toNat : Int)).toList := by
  unfold readCell
  constructor
  · intro h
    -- Only the two digits are read
    split at h
    · obtain rfl := Except.ok.inj h
      exact ⟨Or.inl rfl, by decide⟩
    · obtain rfl := Except.ok.inj h
      exact ⟨Or.inr rfl, by decide⟩
    · cases h
  · rintro ⟨rfl | rfl, rfl⟩
    · rfl
    · rfl

/-- **Reading a row**: it has a cell, and all are zeros and ones with white space around them. -/
theorem readRow_eq_ok_iff {segment : List Char} {row : List UInt8} :
    readRow (trimBy isBlank segment) = .ok row ↔
      (row ≠ [] ∧ ∀ cell ∈ row, cell = 0 ∨ cell = 1) ∧ WrittenRow row segment := by
  have hcell (cell : UInt8) (field : List Char) : readCell (trimBy isBlank field) = .ok cell ↔
      (cell = 0 ∨ cell = 1) ∧ WrittenNumber cell.toNat field := by
    rw [readCell_eq_ok_iff, trimBy_eq_iff fun _ => isBlank_of_mem_toString, WrittenNumber]
  have hfields : readRow (trimBy isBlank segment) = .ok row ↔
      (∀ cell ∈ row, cell = 0 ∨ cell = 1) ∧
        List.Forall₂ (fun cell => WrittenNumber cell.toNat) row (fields ',' segment) := by
    unfold readRow segments
    rw [map_trimBy_fields_trimBy (by decide), mapM_eq_ok_iff, List.forall₂_map_right_iff]
    simp only [hcell, List.forall₂_and_left]
  rw [hfields]
  constructor
  · rintro ⟨hbits, hcells⟩
    refine ⟨⟨?_, hbits⟩, _, hcells, unfields_fields ',' segment⟩
    rintro rfl
    exact fields_ne_nil ',' segment (List.forall₂_nil_left_iff.mp hcells)
  · rintro ⟨⟨hne, hbits⟩, cells, hcells, rfl⟩
    refine ⟨hbits, ?_⟩
    -- Cutting undoes joining for a row that has a cell
    have hsome : cells ≠ [] := by
      rintro rfl
      exact hne (List.forall₂_nil_right_iff.mp hcells)
    rwa [fields_unfields hsome (forall_mem_of_forall₂ (fun cell field hwritten => ?_) hcells)]
    exact not_mem_of_writtenNumber (by decide) (by decide) (by decide) hwritten

/-! ## Reading matrices -/

/-- The rows of a binary matrix, and the check of their lengths. -/
theorem binary_iff {matrix : Matrix} :
    Binary matrix ↔ (∀ row ∈ matrix, row ≠ [] ∧ ∀ cell ∈ row, cell = 0 ∨ cell = 1) ∧
      (matrix.all fun row => row.length == matrix.columns) = true := by
  rw [List.all_eq_true]
  simp only [beq_iff_eq]
  constructor
  · rintro ⟨⟨width, hwidth, hrows⟩, hbits⟩
    -- All rows are as wide as the first
    refine ⟨fun row hrow => ⟨?_, hbits row hrow⟩, fun row hrow => ?_⟩
    · rw [← List.length_pos_iff, hrows row hrow]
      exact hwidth
    · cases matrix with
      | nil => cases hrow
      | cons first rest => rw [hrows row hrow, columns, hrows first List.mem_cons_self]
  · rintro ⟨hrows, hlengths⟩
    refine ⟨?_, fun row hrow => (hrows row hrow).2⟩
    -- The matrix without rows has any width
    cases matrix with
    | nil => exact ⟨1, Nat.one_pos, nofun⟩
    | cons first rest =>
      exact ⟨first.length, List.length_pos_iff.mpr (hrows first List.mem_cons_self).1, hlengths⟩

/-- **Reading a matrix** succeeds for the ways of writing a binary matrix, and for no other text. -/
theorem ofText_eq_ok_iff {matrix : Matrix} {text : String} :
    ofText text = .ok matrix ↔ Binary matrix ∧ Written matrix text := by
  -- A row is never read from nothing, so blank segments are exactly those left out
  have hnil (row : List UInt8) : readRow [] ≠ .ok row := nofun
  have hrows : (filledSegments ';' text.toList).mapM readRow = .ok matrix ↔
      (∀ row ∈ matrix, row ≠ [] ∧ ∀ cell ∈ row, cell = 0 ∨ cell = 1) ∧ Written matrix text := by
    unfold filledSegments segments Written
    rw [mapM_filled_eq_ok_iff hnil]
    simp only [readRow_eq_ok_iff]
    rw [Segmented.and_left_iff,
      Segmented.fields_iff (by decide) fun row segment => not_mem_of_writtenRow]
  rw [binary_iff, and_right_comm, ← hrows]
  unfold ofText
  rw [Except.bind_eq_ok_iff]
  constructor
  -- Reading gives rows of bits, and the check is left that all of them have one width
  · rintro ⟨rows, hread, hcheck⟩
    split at hcheck
    next hlengths =>
      obtain rfl := Except.ok.inj hcheck
      exact ⟨hread, hlengths⟩
    next => cases hcheck
  · rintro ⟨hread, hlengths⟩
    exact ⟨matrix, hread, if_pos hlengths⟩

/-! ## Reading values -/

/-- A number in decimal form is read as a value, white space around it or not. -/
theorem readValue_of_written {value : Value} {segment : List Char}
    (h : WrittenNumber value.toInt segment) :
    readValue (trimBy isBlank segment) = .ok value := by
  rw [(trimBy_eq_iff fun _ => isBlank_of_mem_toString).mpr h, readValue, String.ofList_toList,
    int64?_toString]

/-- **Reading a list of values** succeeds for all ways of writing it. -/
theorem valuesOfText_of_written {values : List Value} {text : String}
    (h : WrittenValues values text) : valuesOfText text = .ok values := by
  have hnil (value : Value) : readValue [] ≠ .ok value := nofun
  have hfields : Segmented (fun value => WrittenNumber value.toInt) values
      (fields ',' text.toList) :=
    (Segmented.fields_iff (by decide) fun _ _ =>
      not_mem_of_writtenNumber (by decide) (by decide) (by decide)).mpr h
  exact (mapM_filled_eq_ok_iff hnil).mpr (hfields.imp fun _ _ => readValue_of_written)

/-! ## One way of writing -/

/-- A matrix written without white space and blank segments. -/
def plain (matrix : Matrix) : String :=
  String.ofList (unfields ';' (matrix.map fun row =>
    unfields ',' (row.map fun cell => (toString (cell.toNat : Int)).toList)))

/-- Values written without white space and blank segments. -/
def plainValues (values : List Value) : String :=
  String.ofList (unfields ',' (values.map fun value => (toString value.toInt).toList))

theorem written_plain (matrix : Matrix) : Written matrix matrix.plain := by
  refine ⟨_, Segmented.map (fun row => ⟨_, ?_, rfl⟩) matrix, (String.toList_ofList).symm⟩
  rw [List.forall₂_map_right_iff]
  exact List.forall₂_same.mpr fun cell _ => padded_self isBlank _

theorem writtenValues_plainValues (values : List Value) :
    WrittenValues values (plainValues values) :=
  ⟨_, Segmented.map (fun _ => padded_self isBlank _) values, (String.toList_ofList).symm⟩

/-- **What is written is read.**  A text is read as a matrix exactly if the matrix is one of zeros
and ones in equally long rows that are not empty, and the text is a way of writing it; and a list of
values is read from every way of writing it. -/
theorem written_is_read :
    (∀ (matrix : Matrix) (text : String),
      ofText text = .ok matrix ↔ Binary matrix ∧ Written matrix text) ∧
    (∀ (values : List Value) (text : String), WrittenValues values text →
      valuesOfText text = .ok values) ∧
    (∀ matrix : Matrix, Written matrix matrix.plain) ∧
    ∀ values : List Value, WrittenValues values (plainValues values) :=
  ⟨fun _ _ => ofText_eq_ok_iff, fun _ _ => valuesOfText_of_written, written_plain,
    writtenValues_plainValues⟩

/-! ### White space and blank segments -/

/-- A square over several lines, and the ends of the range of values with blank segments around. -/
theorem square_and_range_are_read :
    ofText ";\n 0 ,\t1 ;\u00a0; 1,0\n;" = .ok [[0, 1], [1, 0]] ∧
      valuesOfText ", -9223372036854775808 ,,0,\n9223372036854775807" =
        .ok [Int64.minValue, 0, Int64.maxValue] := by
  -- How the rows and the values are written: blanks around the cells, and blank segments around the
  -- rows
  have hfirst : WrittenRow [0, 1] "\n 0 ,\t1 ".toList :=
    ⟨["\n 0 ".toList, "\t1 ".toList],
      .cons ⟨"\n ".toList, [' '], by decide, by decide, by decide⟩
        (.cons ⟨['\t'], [' '], by decide, by decide, by decide⟩ .nil), by decide⟩
  have hsecond : WrittenRow [1, 0] " 1,0\n".toList :=
    ⟨[" 1".toList, "0\n".toList],
      .cons ⟨[' '], [], by decide, by decide, by decide⟩
        (.cons ⟨[], ['\n'], by decide, by decide, by decide⟩ .nil), by decide⟩
  have hmatrix : Written [[0, 1], [1, 0]] ";\n 0 ,\t1 ;\u00a0; 1,0\n;" :=
    ⟨_, .blank [] (by decide) (.part _ _ hfirst (.blank ['\u00a0'] (by decide)
      (.part _ _ hsecond (.blank [] (by decide) .nil)))), by decide⟩
  have hvalues : WrittenValues [Int64.minValue, 0, Int64.maxValue]
      ", -9223372036854775808 ,,0,\n9223372036854775807" :=
    ⟨_, .blank [] (by decide)
      (.part _ " -9223372036854775808 ".toList ⟨[' '], [' '], by decide, by decide, by decide⟩
        (.blank [] (by decide)
          (.part _ ['0'] (padded_self isBlank _)
            (.part _ "\n9223372036854775807".toList
              ⟨['\n'], [], by decide, by decide, by decide⟩ .nil)))), by decide⟩
  have hbinary : Binary [[0, 1], [1, 0]] := ⟨⟨2, Nat.two_pos, by simp⟩, by simp⟩
  obtain ⟨hread, hreadValues, _⟩ := written_is_read
  exact ⟨(hread _ _).mpr ⟨hbinary, hmatrix⟩, hreadValues _ _ hvalues⟩

end TokenNet.Matrix
