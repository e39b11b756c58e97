import Mathlib.Algebra.Group.Nat.Defs
import TokenNet.Matrix.Bits

/-!
# Isolation at every position

The check for an isolated bit looks up the row of a position as it is, and finds its two columns by
doubling the position as a machine word.  In the lower half of the range of words the columns are
the right ones.  In the upper half the double wraps around, and its columns are those of the bit
that stands half the range before, so that a position without a bit can be taken for a bit with
edges.

## Main statements

- `Connected`: the edges of a bit, said without words.
- `isIsolated?`: the check where an overflow is trapped; `isIsolated?_of_lt` and
  `isIsolated?_of_le` say when that happens.
- `isIsolated_eq_false_iff`: the marks that the check looks at.
- `isolation_at_every_position`: what the check tells in each half of the range.
-/

namespace TokenNet.Matrix

variable {matrix : Matrix} {row column bit : Nat} {position : UInt64}

/-! ## Marks -/

/-- Some cell of a row is marked. -/
def RowMarked (matrix : Matrix) (row : Nat) : Prop :=
  ∃ cells ∈ matrix[row]?, 1 ∈ cells

/-- Some cell of a column is marked. -/
def ColumnMarked (matrix : Matrix) (column : Nat) : Prop :=
  ∃ cells ∈ matrix, cells[column]? = some 1

/-- Some cell of the two columns of a bit is marked. -/
def EitherMarked (matrix : Matrix) (bit : Nat) : Prop :=
  matrix.ColumnMarked (2 * bit) ∨ matrix.ColumnMarked (2 * bit + 1)

/-- A bit of the matrix has an edge: its row is marked, or one of its columns is. -/
def Connected (matrix : Matrix) (bit : Nat) : Prop :=
  bit < matrix.length ∧ (matrix.RowMarked bit ∨ matrix.EitherMarked bit)

instance (matrix : Matrix) (row : Nat) : Decidable (matrix.RowMarked row) :=
  inferInstanceAs (Decidable (∃ cells ∈ matrix[row]?, 1 ∈ cells))

instance (matrix : Matrix) (column : Nat) : Decidable (matrix.ColumnMarked column) :=
  inferInstanceAs (Decidable (∃ cells ∈ matrix, cells[column]? = some 1))

instance (matrix : Matrix) (bit : Nat) : Decidable (matrix.EitherMarked bit) :=
  inferInstanceAs (Decidable (_ ∨ _))

instance (matrix : Matrix) (bit : Nat) : Decidable (matrix.Connected bit) :=
  inferInstanceAs (Decidable (_ ∧ _))

theorem marked_iff :
    matrix.marked row column = true ↔ ∃ cells ∈ matrix[row]?, cells[column]? = some 1 := by
  unfold marked
  rw [beq_iff_eq, Option.bind_eq_some_iff]
  rfl

/-- A column is marked if one of the rows is marked there. -/
theorem columnMarked_iff :
    matrix.ColumnMarked column ↔ ∃ row < matrix.length, matrix.marked row column = true := by
  constructor
  · rintro ⟨cells, hcells, hmark⟩
    obtain ⟨row, hrow, hfound⟩ := List.mem_iff_getElem.mp hcells
    exact ⟨row, hrow, marked_iff.mpr ⟨cells, List.getElem?_eq_some_iff.mpr ⟨hrow, hfound⟩, hmark⟩⟩
  · rintro ⟨row, _, hmarked⟩
    obtain ⟨cells, hcells, hmark⟩ := marked_iff.mp hmarked
    exact ⟨cells, List.mem_of_getElem? hcells, hmark⟩

/-- **The marks that the check looks at**, whatever the shape of the matrix is: those in the row of
the position, and those in the two columns from its double on. -/
theorem isIsolated_eq_false_iff : matrix.isIsolated position = false ↔
    (∃ column < 2 * matrix.length, matrix.marked position.toNat column = true) ∨
      matrix.ColumnMarked (2 * position).toNat ∨ matrix.ColumnMarked (2 * position + 1).toNat := by
  rw [columnMarked_iff, columnMarked_iff, ← exists_or]
  unfold isIsolated
  simp only [Bool.and_eq_false_iff, List.all_eq_false, List.mem_range, Bool.not_eq_true',
    Bool.and_eq_true, Classical.not_and_iff_not_or_not, Bool.not_eq_false, and_or_left]

/-- A marked row is a row of the matrix. -/
theorem RowMarked.lt_length (h : matrix.RowMarked row) : row < matrix.length := by
  obtain ⟨cells, hcells, _⟩ := h
  exact (List.getElem?_eq_some_iff.mp hcells).1

section Shape

variable (hshape : ∀ cells ∈ matrix, cells.length = 2 * matrix.length)
include hshape

/-- A row is marked if it is marked in one of the columns of the bits. -/
theorem rowMarked_iff :
    matrix.RowMarked row ↔ ∃ column < 2 * matrix.length, matrix.marked row column = true := by
  constructor
  · rintro ⟨cells, hcells, hmark⟩
    obtain ⟨column, hcolumn, hfound⟩ := List.mem_iff_getElem.mp hmark
    -- No cell of the row stands behind the columns of the last bit
    have hinside := hshape cells (List.mem_of_getElem? hcells)
    exact ⟨column, hinside ▸ hcolumn,
      marked_iff.mpr ⟨cells, hcells, List.getElem?_eq_some_iff.mpr ⟨hcolumn, hfound⟩⟩⟩
  · rintro ⟨column, _, hmarked⟩
    obtain ⟨cells, hcells, hmark⟩ := marked_iff.mp hmarked
    exact ⟨cells, hcells, List.mem_of_getElem? hmark⟩

/-- A marked column is a column of a bit. -/
theorem ColumnMarked.lt (h : matrix.ColumnMarked column) : column < 2 * matrix.length := by
  obtain ⟨cells, hcells, hmark⟩ := h
  exact hshape cells hcells ▸ (List.getElem?_eq_some_iff.mp hmark).1

/-- Marks belong to bits of the matrix, so a connected bit can be told by its marks alone. -/
theorem connected_iff :
    matrix.Connected bit ↔ matrix.RowMarked bit ∨ matrix.EitherMarked bit := by
  refine ⟨And.right, fun hmarked => ⟨?_, hmarked⟩⟩
  rcases hmarked with hrow | hfirst | hsecond
  · exact hrow.lt_length
  · have hcolumn := hfirst.lt hshape
    omega
  · have hcolumn := hsecond.lt hshape
    omega

end Shape

/-! ## Doubled words -/

/-- The double of a word is that of its lower bits, and the next number is a word, too. -/
theorem toNat_double (position : UInt64) :
    (2 * position).toNat = 2 * (position.toNat % 2 ^ 63) ∧
      (2 * position + 1).toNat = 2 * (position.toNat % 2 ^ 63) + 1 := by
  -- A double is even, so it is not the last word, and adding one to it cannot wrap around
  have htwo : (2 : UInt64).toNat = 2 := rfl
  have hone : (1 : UInt64).toNat = 1 := rfl
  rw [UInt64.toNat_add, UInt64.toNat_mul, htwo, hone]
  omega

/-- The check looks at the columns of the bit that the position comes to within half the range. -/
theorem columnsMarked_double_iff (matrix : Matrix) (position : UInt64) :
    (matrix.ColumnMarked (2 * position).toNat ∨ matrix.ColumnMarked (2 * position + 1).toNat) ↔
      matrix.EitherMarked (position.toNat % 2 ^ 63) := by
  obtain ⟨hfirst, hsecond⟩ := toNat_double position
  rw [hfirst, hsecond]
  rfl

/-! ## Trapped overflows -/

/-- The product of two words, if it is a word. -/
def times? (x y : UInt64) : Option UInt64 :=
  if x.toNat * y.toNat < UInt64.size then some (x * y) else none

/-- The sum of two words, if it is a word. -/
def plus? (x y : UInt64) : Option UInt64 :=
  if x.toNat + y.toNat < UInt64.size then some (x + y) else none

/-- Whether a row is not marked in the two columns of a position.  The second column is worked out
only if the first one is not marked. -/
def isClear? (matrix : Matrix) (position : UInt64) (row : Nat) : Option Bool := do
  if matrix.marked row (← times? 2 position).toNat then return false
  return !matrix.marked row (← plus? (← times? 2 position) 1).toNat

/-- The check for an isolated bit where an overflow stops the evaluation. -/
def isIsolated? (matrix : Matrix) (position : UInt64) : Option Bool := do
  let leadsNowhere := (List.range (2 * matrix.length)).all fun column =>
    !matrix.marked position.toNat column
  let neverReached ← (List.range matrix.length).allM (matrix.isClear? position)
  return leadsNowhere && neverReached

theorem isClear?_eq {first second : UInt64} (hfirst : times? 2 position = some first)
    (hsecond : plus? first 1 = some second) (row : Nat) : matrix.isClear? position row =
      pure (!matrix.marked row first.toNat && !matrix.marked row second.toNat) := by
  unfold isClear?
  rw [hfirst]
  cases hmarked : matrix.marked row first.toNat <;> simp [hmarked, hsecond]

/-- In the lower half of the range no step of the check overflows. -/
theorem isIsolated?_of_lt (h : position.toNat < 2 ^ 63) :
    matrix.isIsolated? position = some (matrix.isIsolated position) := by
  obtain ⟨hfirst, -⟩ := toNat_double position
  have hsize : UInt64.size = 2 ^ 64 := rfl
  have htimes : times? 2 position = some (2 * position) :=
    if_pos (show 2 * position.toNat < UInt64.size by omega)
  have hplus : plus? (2 * position) 1 = some (2 * position + 1) :=
    if_pos (show (2 * position).toNat + 1 < UInt64.size by omega)
  unfold isIsolated?
  rw [funext (isClear?_eq htimes hplus), List.allM_pure]
  rfl

/-- In the upper half the first row makes the check overflow. -/
theorem isIsolated?_of_le (h : 2 ^ 63 ≤ position.toNat) : matrix.isIsolated? position =
    if matrix = [] then some (matrix.isIsolated position) else none := by
  have hsize : UInt64.size = 2 ^ 64 := rfl
  have htimes : times? 2 position = none :=
    if_neg (show ¬ 2 * position.toNat < UInt64.size by omega)
  have hclear : matrix.isClear? position = fun _ => none := by
    funext row
    unfold isClear?
    rw [htimes]
    rfl
  cases matrix with
  | nil => rfl
  | cons first rest =>
    -- The columns are worked out for the first row whatever its marks are
    unfold isIsolated?
    rw [hclear, List.length_cons, List.range_succ_eq_map, List.allM_cons]
    rfl

/-! ## The check -/

/-- **In the lower half of the range the check for an isolated bit is exact**: no step of it
overflows, and it fails just for the bits of the matrix that have a mark in their row or in one of
their two columns, so it passes every position without a bit.  In the upper half every matrix with
a row makes it overflow; where the double wraps around instead, the check looks at the row of the
position and at the columns of the bit that stands half the range before. -/
theorem isolation_at_every_position (matrix : Matrix)
    (hshape : ∀ cells ∈ matrix, cells.length = 2 * matrix.length) (position : UInt64) :
    (position.toNat < 2 ^ 63 →
      matrix.isIsolated? position = some (matrix.isIsolated position) ∧
      (matrix.isIsolated position = false ↔ matrix.Connected position.toNat)) ∧
    (2 ^ 63 ≤ position.toNat →
      matrix.isIsolated? position =
        (if matrix = [] then some (matrix.isIsolated position) else none) ∧
      (matrix.isIsolated position = false ↔
        matrix.RowMarked position.toNat ∨ matrix.EitherMarked (position.toNat - 2 ^ 63))) := by
  -- Both halves are read off one description, with the position folded into the lower half
  have hfails : matrix.isIsolated position = false ↔
      matrix.RowMarked position.toNat ∨ matrix.EitherMarked (position.toNat % 2 ^ 63) := by
    rw [rowMarked_iff hshape, ← columnsMarked_double_iff]
    exact isIsolated_eq_false_iff
  constructor
  · intro hlower
    rw [Nat.mod_eq_of_lt hlower, ← connected_iff hshape] at hfails
    exact ⟨isIsolated?_of_lt hlower, hfails⟩
  · intro hupper
    have hword := position.toNat_lt
    have hfolded : position.toNat % 2 ^ 63 = position.toNat - 2 ^ 63 := by omega
    rw [hfolded] at hfails
    exact ⟨isIsolated?_of_le hupper, hfails⟩

/-- Two bits of which the first hands over to the second. -/
def oneWayPair : Matrix := [[0, 0, 0, 0], [0, 1, 0, 0]]

/-- The second bit has an edge.  The position half the range behind it is passed, because only the
columns of the second bit are looked at there, and not its row. -/
theorem isolation_of_oneWayPair :
    (∀ cells ∈ oneWayPair, cells.length = 2 * oneWayPair.length) ∧
      ((1 : UInt64).toNat < 2 ^ 63 ∧ oneWayPair.isIsolated? 1 = some false) ∧
      (2 ^ 63 ≤ (9223372036854775809 : UInt64).toNat ∧
        oneWayPair.isIsolated 9223372036854775809 = true) := by
  have hshape : ∀ cells ∈ oneWayPair, cells.length = 2 * oneWayPair.length := by decide
  have hlower : (1 : UInt64).toNat < 2 ^ 63 := by decide
  have hupper : 2 ^ 63 ≤ (9223372036854775809 : UInt64).toNat := by decide
  obtain ⟨hfits, hexact⟩ := (isolation_at_every_position oneWayPair hshape 1).1 hlower
  obtain ⟨_, hwraps⟩ :=
    (isolation_at_every_position oneWayPair hshape 9223372036854775809).2 hupper
  have hconnected : oneWayPair.Connected (1 : UInt64).toNat := by decide
  have hclear : ¬ (oneWayPair.RowMarked (9223372036854775809 : UInt64).toNat ∨
      oneWayPair.EitherMarked ((9223372036854775809 : UInt64).toNat - 2 ^ 63)) := by decide
  -- Below the bound the answer is exact, above it the position is read with its top bit gone
  refine ⟨hshape, ⟨hlower, ?_⟩, hupper, eq_true_of_ne_false fun h => hclear (hwraps.mp h)⟩
  rw [hfits, hexact.mpr hconnected]

/-- The first position of the upper half names no bit, and still the check fails there: its double
wraps around to the columns of the first bit. -/
theorem wrapped_position_not_isolated :
    (∀ cells ∈ oneWayPair, cells.length = 2 * oneWayPair.length) ∧
      oneWayPair.length ≤ (9223372036854775808 : UInt64).toNat ∧
      ¬ oneWayPair.Connected (9223372036854775808 : UInt64).toNat ∧
      oneWayPair.isIsolated 9223372036854775808 = false ∧
      oneWayPair.isIsolated? 9223372036854775808 = none := by
  have hfar : oneWayPair.length ≤ (9223372036854775808 : UInt64).toNat := by decide
  exact ⟨by decide, hfar, fun h => absurd h.1 (Nat.not_lt.mpr hfar), by decide, by decide⟩

end TokenNet.Matrix
