import Mathlib.Data.List.Basic

/-!
# Series

A series stands for an array and is meant for evaluation by the kernel: its members are listed from
the newest to the oldest beside their number, so a new member is put in front in one step, and what
was added last is close at hand.

## Main statements

- `Series.toArray_push`, `Series.toArray_modify`, `Series.getElem?_toArray`: a series answers as the
  array that it stands for.
-/

namespace TokenNet

/-- The members of an array, newest first, and their number. -/
structure Series (α : Type) where
  newest : List α := []
  size : Nat := 0
  size_eq : newest.length = size := by rfl

namespace Series

variable {α : Type}

/-- The array that a series stands for. -/
def toArray (series : Series α) : Array α :=
  series.newest.reverse.toArray

/-! ## Operations -/

/-- The member at a position. -/
def get? (series : Series α) (i : Nat) : Option α :=
  if i < series.size then series.newest[series.size - 1 - i]? else none

/-- A series with one more member. -/
def push (series : Series α) (a : α) : Series α where
  newest := a :: series.newest
  size := series.size + 1
  size_eq := congrArg (· + 1) series.size_eq

/-- Changes the member at a position; a position outside changes nothing. -/
def modify (series : Series α) (i : Nat) (change : α → α) : Series α where
  newest := if i < series.size then series.newest.modify (series.size - 1 - i) change
    else series.newest
  size := series.size
  size_eq := by split <;> simp [series.size_eq]

/-! ## The array behind a series -/

@[simp] theorem size_toArray (series : Series α) : series.toArray.size = series.size := by
  simp [toArray, series.size_eq]

@[simp] theorem toArray_push (series : Series α) (a : α) :
    (series.push a).toArray = series.toArray.push a := by
  simp [toArray, push]

theorem getElem?_toArray (series : Series α) (i : Nat) : series.toArray[i]? = series.get? i := by
  unfold get? toArray
  rw [List.getElem?_toArray]
  split
  next hinside => rw [List.getElem?_reverse (by rwa [series.size_eq]), series.size_eq]
  next houtside => rw [List.getElem?_eq_none]; simpa [series.size_eq] using houtside

@[simp] theorem toArray_modify (series : Series α) (i : Nat) (change : α → α) :
    (series.modify i change).toArray = series.toArray.modify i change := by
  apply Array.ext_getElem?
  intro j
  rw [getElem?_toArray, Array.getElem?_modify, getElem?_toArray]
  unfold get? modify
  -- Positions count from the other end in a series, so both indices are turned round
  by_cases hj : j < series.size
  · by_cases hi : i < series.size
    · simp only [hj, hi, if_true, List.getElem?_modify]
      by_cases hij : i = j
      · simp [hij]
      · have hapart : ¬ series.size - 1 - i = series.size - 1 - j := by omega
        simp [hij, hapart]
    · simp only [hj, hi, if_true, if_false]
      rw [if_neg (by omega)]
  · simp [hj]

end Series

end TokenNet
