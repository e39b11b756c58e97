import Mathlib.Logic.Function.Basic
import TokenNet.Matrix.Bits

/-!
# Toggling bits

What a bit matrix means, said without networks.  The matrix has one bit for each row.  Bits toggle
one after another, bit 0 first, and the matrix says which bit follows: behind bit k that has become
b it is the last marked row of column 2k + b, and behind a column without a mark there is none.

Toggling stops early at a bit that is not binary, at a bit that was toggled too often, and when the
budget is spent.

## Main statements

- `follower?_eq_some_iff`: the follower is the largest marked row of a column of the matrix.
- `toggleBits`: how toggling ends.
-/

namespace TokenNet.Matrix

/-! ## Followers -/

/-- The last of the first rows that is marked in a column.  A column beyond the first row of the
matrix counts for nothing. -/
def lastMarked? (matrix : Matrix) (rows column : Nat) : Option Nat :=
  if column < matrix.columns then
    (positions rows fun row => matrix.marked row column).getLast?
  else none

/-- The bit that follows a column. -/
def follower? (matrix : Matrix) (column : Nat) : Option Nat :=
  matrix.lastMarked? matrix.length column

theorem mem_positions {bound n : Nat} {property : Nat → Bool} :
    n ∈ positions bound property ↔ n < bound ∧ property n = true := by
  unfold positions
  rw [List.mem_filter, List.mem_range]

theorem positions_succ (bound : Nat) (property : Nat → Bool) :
    positions (bound + 1) property =
      positions bound property ++ if property bound then [bound] else [] := by
  unfold positions
  rw [List.range_succ, List.filter_append, List.filter_cons, List.filter_nil]

/-- A row that is marked comes after all rows above it. -/
theorem lastMarked?_succ (matrix : Matrix) (rows column : Nat) :
    matrix.lastMarked? (rows + 1) column =
      if column < matrix.columns ∧ matrix.marked rows column = true then some rows
      else matrix.lastMarked? rows column := by
  unfold lastMarked?
  rw [positions_succ]
  -- The new row is the last one that can be marked
  cases hmarked : matrix.marked rows column with
  | true => by_cases hcolumn : column < matrix.columns <;> simp [hcolumn]
  | false => simp

/-- The last marked row is the largest. -/
theorem lastMarked?_eq_some_iff {matrix : Matrix} {rows column row : Nat} :
    matrix.lastMarked? rows column = some row ↔ column < matrix.columns ∧
      (row < rows ∧ matrix.marked row column = true) ∧
        ∀ other < rows, matrix.marked other column = true → other ≤ row := by
  induction rows with
  | zero => simp [lastMarked?, positions]
  | succ rows ih =>
    rw [lastMarked?_succ]
    split
    next hlast =>
      rw [Option.some.injEq]
      constructor
      · rintro rfl
        exact ⟨hlast.1, ⟨Nat.lt_succ_self _, hlast.2⟩, fun _ hlt _ => Nat.le_of_lt_succ hlt⟩
      · rintro ⟨_, ⟨hlt, _⟩, hmax⟩
        exact Nat.le_antisymm (hmax rows (Nat.lt_succ_self _) hlast.2) (Nat.le_of_lt_succ hlt)
    -- The last row is not marked, so it changes nothing about the maximum
    next hother =>
      rw [ih]
      constructor
      · rintro ⟨hcolumn, ⟨hlt, hrow⟩, hmax⟩
        refine ⟨hcolumn, ⟨Nat.lt_succ_of_lt hlt, hrow⟩, fun other hle hmarked => ?_⟩
        rcases Nat.lt_succ_iff_lt_or_eq.mp hle with hbefore | rfl
        · exact hmax other hbefore hmarked
        · exact absurd ⟨hcolumn, hmarked⟩ hother
      · rintro ⟨hcolumn, ⟨hlt, hrow⟩, hmax⟩
        refine ⟨hcolumn, ⟨?_, hrow⟩, fun other hbefore => hmax other (Nat.lt_succ_of_lt hbefore)⟩
        rcases Nat.lt_succ_iff_lt_or_eq.mp hlt with hbefore | rfl
        · exact hbefore
        · exact absurd ⟨hcolumn, hrow⟩ hother

/-- **The follower is the largest marked row** of a column of the matrix. -/
theorem follower?_eq_some_iff {matrix : Matrix} {column row : Nat} :
    matrix.follower? column = some row ↔ column < matrix.columns ∧
      (row < matrix.length ∧ matrix.marked row column = true) ∧
        ∀ other < matrix.length, matrix.marked other column = true → other ≤ row :=
  lastMarked?_eq_some_iff

/-! ## Toggling -/

/-- The bits of a matrix and how often each was toggled. -/
structure Toggles where
  bits : Nat → Value
  calls : Nat → Nat

/-- Why toggling stops early. -/
inductive Stop where
  /-- There is no bit to begin with. -/
  | noBits
  /-- A bit is neither zero nor one. -/
  | invalid (bit : Nat) (value : Value)
  /-- A bit was toggled too often. -/
  | tooOften (bit : Nat)
  /-- The budget is spent. -/
  | exhausted
deriving DecidableEq, Repr

namespace Toggles

/-- The given bits in order, and zero behind the last. -/
def start (seeds : List Value) : Toggles where
  bits bit := seeds.getD bit 0
  calls _ := 0

/-- Gives a bit a value. -/
def set (toggles : Toggles) (bit : Nat) (value : Value) : Toggles :=
  { toggles with bits := Function.update toggles.bits bit value }

/-- Counts that a bit was toggled. -/
def count (toggles : Toggles) (bit : Nat) : Toggles :=
  { toggles with calls := Function.update toggles.calls bit (toggles.calls bit + 1) }

/-- Toggles a bit. -/
def toggle (toggles : Toggles) (bit : Nat) : Toggles :=
  (toggles.set bit (1 - toggles.bits bit)).count bit

@[simp] theorem bits_toggle (toggles : Toggles) (bit : Nat) :
    (toggles.toggle bit).bits bit = 1 - toggles.bits bit :=
  Function.update_self _ _ _

@[simp] theorem calls_toggle (toggles : Toggles) (bit : Nat) :
    (toggles.toggle bit).calls bit = toggles.calls bit + 1 :=
  Function.update_self _ _ _

/-- Toggles a bit and tells which bit follows. -/
def fire (matrix : Matrix) (callLimit : Nat) (toggles : Toggles) (bit : Nat) :
    Except Stop (Toggles × Option Nat) :=
  if toggles.bits bit = 0 ∨ toggles.bits bit = 1 then
    let toggled := toggles.toggle bit
    if callLimit ≤ toggled.calls bit then .error (.tooOften bit)
    else .ok (toggled, matrix.follower? (2 * bit + (toggled.bits bit).toInt.toNat))
  else .error (.invalid bit (toggles.bits bit))

/-- The bit that follows is a bit of the matrix. -/
theorem lt_length_of_fire {matrix : Matrix} {callLimit : Nat} {toggles toggled : Toggles}
    {bit next : Nat} (h : fire matrix callLimit toggles bit = .ok (toggled, some next)) :
    next < matrix.length := by
  unfold fire at h
  split at h
  · dsimp only at h
    split at h
    · cases h
    -- The bit toggled leads to a marked row, and rows are bits
    · have hnext := congrArg Prod.snd (Except.ok.inj h)
      exact (follower?_eq_some_iff.mp hnext).2.1.1
  · cases h

/-- Toggles from a bit on until none follows, at most as often as the budget says.  Tells the bits
at the end and how often one was toggled. -/
def run (matrix : Matrix) (callLimit : Nat) :
    Nat → Toggles → Nat → Except Stop (Toggles × Nat)
  -- The budget is spent before a bit leads nowhere
  | 0, _, _ => .error .exhausted
  | budget + 1, toggles, bit => do
    match ← fire matrix callLimit toggles bit with
    | (toggled, none) => return (toggled, 1)
    | (toggled, some next) =>
      let (ending, firings) ← run matrix callLimit budget toggled next
      return (ending, firings + 1)

end Toggles

/-- The bits at the end, how often each was toggled, and how often any was. -/
@[ext] structure Tally where
  bits : List Value
  calls : List Nat
  firings : Nat
deriving DecidableEq, Repr

/-- Toggles the bits of a matrix, from the first bit and given values on. -/
def toggleBits (matrix : Matrix) (seeds : List Value) (callLimit budget : Nat) :
    Except Stop Tally :=
  if 0 < matrix.length then do
    let (ending, firings) ← Toggles.run matrix callLimit budget (.start seeds) 0
    let rows := List.range matrix.length
    return ⟨rows.map ending.bits, rows.map ending.calls, firings⟩
  else .error .noBits

end TokenNet.Matrix
