import Mathlib.Algebra.Group.Int.Defs
import Mathlib.Tactic.Common
import TokenNet.Primitive

/-!
# Values and integers

Adders count modulo 2⁶⁴.  A counter is followed as an integer of which only the value is shown, so
that what it has counted is not lost when the value wraps around; as long as the integer is below
2⁶⁴ in size, the value is zero just when the integer is.
-/

namespace TokenNet.Value

theorem toInt_bounds (x : Value) : -2 ^ 63 ≤ x.toInt ∧ x.toInt < 2 ^ 63 :=
  ⟨x.le_toInt, x.toInt_lt⟩

/-- An integer below 2⁶⁴ in size is zero if its value is. -/
theorem ofInt_eq_zero_iff {n : Int} (hlow : -2 ^ 64 < n) (hhigh : n < 2 ^ 64) :
    Int64.ofInt n = 0 ↔ n = 0 := by
  rw [Int64.ofInt_eq_iff_bmod_eq_toInt, Int64.toInt_zero, ← Int.dvd_iff_bmod_eq_zero]
  constructor
  · rintro ⟨k, hk⟩
    omega
  · rintro rfl
    exact Int.dvd_zero _

/-- Doubling a value that is neither zero nor the least one does not wrap around to zero. -/
theorem add_self_eq_zero_iff (x : Value) : x + x = 0 ↔ x.toInt = 0 ∨ x.toInt = -2 ^ 63 := by
  have hbounds := toInt_bounds x
  -- Twice a value is below 2⁶⁴ in size, so a multiple of 2⁶⁴ is zero or -2⁶⁴
  have hdouble : x + x = Int64.ofInt (x.toInt + x.toInt) := by
    rw [Int64.ofInt_add, Int64.ofInt_toInt]
  rw [hdouble, Int64.ofInt_eq_iff_bmod_eq_toInt, Int64.toInt_zero, ← Int.dvd_iff_bmod_eq_zero]
  constructor
  · rintro ⟨k, hk⟩
    omega
  · rintro (hzero | hleast)
    · rw [hzero]
      exact Int.dvd_zero _
    · rw [hleast]
      exact ⟨-1, by decide⟩

/-- A difference that is out of range wraps around, which turns its sign. -/
theorem sub_pos_iff (x y : Value) : 0 < (x - y).toInt ↔
    x.toInt - y.toInt < -2 ^ 63 ∨ 0 < x.toInt - y.toInt ∧ x.toInt - y.toInt < 2 ^ 63 := by
  have hx := toInt_bounds x
  have hy := toInt_bounds y
  -- The exact difference is off by 2⁶⁴ at most, in one direction or the other
  rw [Int64.toInt_sub, Int.bmod_def]
  split <;> omega

/-! ## Counting from zero -/

/-- Counting up from zero comes to any value, as if it were unsigned. -/
theorem ofNat_toNat (x : Value) : Int64.ofNat x.toUInt64.toNat = x := by
  rw [← UInt64.toNat_toBitVec, x.toBitVec_toUInt64, Int64.ofNat_bitVecToNat,
    Int64.ofBitVec_toBitVec]

/-- On the way no number is taken for the value too early. -/
theorem eq_ofNat_iff (x : Value) {k : Nat} (hk : k ≤ x.toUInt64.toNat) :
    x = Int64.ofNat k ↔ k = x.toUInt64.toNat := by
  have hlt := x.toUInt64.toNat_lt
  constructor
  · intro h
    rw [h, Int64.toUInt64_ofNat', UInt64.toNat_ofNat', Nat.mod_eq_of_lt (by omega)]
  · rintro rfl
    exact (ofNat_toNat x).symm

theorem natAbs_toInt_ofNat_le (k : Nat) : (Int64.ofNat k).toInt.natAbs ≤ k := by
  have hsize : Int64.size = 2 ^ 64 := rfl
  rw [Int64.toInt_ofNat', hsize, Int.bmod_def]
  split <;> omega

end TokenNet.Value

namespace TokenNet

/-- The two ways of counting. -/
inductive Way where
  | up
  | down

namespace Way

/-- What is added at every step. -/
def step : Way → Int
  | up => 1
  | down => -1

def opposite : Way → Way
  | up => down
  | down => up

theorem ofInt_add_step (way : Way) (n : Int) :
    Int64.ofInt n + Int64.ofInt way.step = Int64.ofInt (n + way.step) :=
  (Int64.ofInt_add n way.step).symm

end Way

end TokenNet
