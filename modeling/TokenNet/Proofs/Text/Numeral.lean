import TokenNet.Proofs.Graph.Strict
import TokenNet.Text.Blank
import TokenNet.Text.Numeral

/-!
# Decimal numerals

The decimal form of a number is read back as that number, and there is no white space in it.

## Main statements

- `natural?_toDigits`, `signed?_toString`, `int64?_toString`: reading a decimal form.
- `isDigit_of_mem_toString`: the characters of a decimal form.
-/

namespace TokenNet.Text

/-! ## Digits -/

/-- A digit has its number above that of zero. -/
theorem toNat_of_isDigit {c : Char} (h : c.isDigit = true) : 48 ≤ c.toNat ∧ c.toNat ≤ 57 := by
  simp only [Char.isDigit, Bool.and_eq_true, decide_eq_true_eq] at h
  exact h

theorem digit?_of_isDigit {c : Char} (h : c.isDigit = true) :
    digit? 10 c = some (c.toNat - '0'.toNat) := by
  obtain ⟨hzero, hnine⟩ := toNat_of_isDigit h
  have hrange : '0' ≤ c ∧ c ≤ '9' := ⟨hzero, hnine⟩
  have hsmall : c.toNat - '0'.toNat < 10 := by
    change c.toNat - 48 < 10
    omega
  simp only [digit?, if_pos hrange, Option.filter_some, decide_eq_true hsmall, if_true]

theorem isBlank_of_isDigit {c : Char} (h : c.isDigit = true) : isBlank c = false := by
  have hrange := toNat_of_isDigit h
  simp only [isBlank, Bool.or_eq_false_iff, Bool.and_eq_false_iff, beq_eq_false_iff_ne,
    decide_eq_false_iff_not]
  omega

/-! ## Reading decimal forms -/

theorem natural?_toDigits (n : Nat) : natural? 10 (Nat.toDigits 10 n) = some n := by
  have hdigits : (Nat.toDigits 10 n).mapM (digit? 10) =
      some ((Nat.toDigits 10 n).map fun c => c.toNat - '0'.toNat) :=
    mapM_eq_some_map _ fun c hc =>
      digit?_of_isDigit (Nat.isDigit_of_mem_toDigits (by decide) (by decide) hc)
  have hempty : ¬ (Nat.toDigits 10 n).isEmpty = true := by
    simp [Nat.toDigits_ne_nil]
  -- Reading the digits from the left multiplies by ten before each of them
  unfold natural?
  rw [if_neg hempty, hdigits, Option.map_some, List.foldl_map]
  simp only [Nat.mul_comm _ 10]
  exact congrArg some Nat.ofDigitChars_ten_toDigits

/-- A numeral that begins with a digit has no sign. -/
theorem signed?_toDigits (n : Nat) : signed? (Nat.toDigits 10 n) = some (n : Int) := by
  -- A sign is no digit, so the first two cases of the reading cannot occur
  have hfirst : ∀ c digits, Nat.toDigits 10 n = c :: digits → c.isDigit = true := by
    intro c digits hdigits
    exact Nat.isDigit_of_mem_toDigits (by decide) (by decide) (hdigits ▸ List.mem_cons_self)
  unfold signed?
  split
  next digits hdigits => cases hfirst _ _ hdigits
  next digits hdigits => cases hfirst _ _ hdigits
  next => rw [natural?_toDigits]; rfl

theorem toList_toString_ofNat (n : Nat) : (toString (Int.ofNat n)).toList = Nat.toDigits 10 n :=
  Nat.toList_repr

theorem toList_toString_negSucc (n : Nat) :
    (toString (Int.negSucc n)).toList = '-' :: Nat.toDigits 10 (n + 1) := by
  rw [Int.toString_eq_repr, Int.repr, String.toList_append, Nat.toList_repr]
  rfl

/-- **Decimal forms** of integers are read back. -/
theorem signed?_toString (n : Int) : signed? (toString n).toList = some n := by
  cases n with
  | ofNat n =>
    rw [toList_toString_ofNat, signed?_toDigits]
    rfl
  | negSucc n =>
    rw [toList_toString_negSucc, signed?, natural?_toDigits]
    rfl

/-- **Decimal forms** of values are read back, at the ends of the range too. -/
theorem int64?_toString (value : Int64) : int64? (toString value.toInt) = some value := by
  unfold int64?
  rw [signed?_toString, Option.bind_some,
    if_pos ⟨value.minValue_le_toInt, value.toInt_le⟩, Int64.ofInt_toInt]

/-! ## Characters of decimal forms -/

/-- A decimal form is made of digits and a minus sign. -/
theorem isDigit_of_mem_toString {n : Int} {c : Char} (h : c ∈ (toString n).toList) :
    c.isDigit = true ∨ c = '-' := by
  have hdigits {n : Nat} (h : c ∈ Nat.toDigits 10 n) : c.isDigit = true :=
    Nat.isDigit_of_mem_toDigits (by decide) (by decide) h
  cases n with
  | ofNat n =>
    rw [toList_toString_ofNat] at h
    exact Or.inl (hdigits h)
  | negSucc n =>
    rw [toList_toString_negSucc, List.mem_cons] at h
    exact h.symm.imp_left hdigits

theorem isBlank_of_mem_toString {n : Int} {c : Char} (h : c ∈ (toString n).toList) :
    isBlank c = false := by
  obtain hdigit | rfl := isDigit_of_mem_toString h
  · exact isBlank_of_isDigit hdigit
  · decide

end TokenNet.Text
