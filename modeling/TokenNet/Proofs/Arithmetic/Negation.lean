import TokenNet.Proofs.Arithmetic.SignTest

/-!
# The negation

A negation first has the sign of its input tested.  Then it counts the input towards zero and, at
the same pace, the result away from zero: upwards for a negative input, downwards for a positive
one.  The result always differs from what is left of the input by the input itself, so it is the
negation when nothing is left.

The input is given out as it is if doubling it gives zero, and it is its own negation then.

## Main statements

- `Negation.ends_counting`: counting, from any point on.
- `Negation.ends`: the whole negation.
-/

namespace TokenNet.Negation

/-- The sign test as a part of the negation. -/
def signTest : Placement := ⟨11, 16, 65, [], [.row 59, .row 62]⟩

/-- The chart of the negation. -/
def rows : Listing := [
  -- The input is added to itself; if this gives zero, the input is the result
  (4, ⟨.sum 4 5, [], false, ⟨.row 7, 1⟩, ⟨.row 10, 1⟩⟩),
  (7, ⟨.sum 9 10, [], true, ⟨.exit 0, 2⟩, ⟨.exit 0, 2⟩⟩),
  -- Both results are set to zero, and the sign is tested
  (10, ⟨.sum 14 15, [91, 97, 98, 104], false, ⟨.row 14, 1⟩, ⟨.row 14, 1⟩⟩),
  (59, ⟨.sum 84 85, [105, 110], false, ⟨.row 65, 1⟩, ⟨.row 65, 1⟩⟩),
  (62, ⟨.sum 89 90, [112, 117], false, ⟨.row 69, 1⟩, ⟨.row 69, 1⟩⟩),
  -- Counting up
  (65, ⟨.constant 1, [96], false, ⟨.row 66, 0⟩, ⟨.row 66, 0⟩⟩),
  (66, ⟨.sum 96 97, [97], true, ⟨.row 74, 1⟩, ⟨.row 74, 1⟩⟩),
  (74, ⟨.constant 1, [111], false, ⟨.row 75, 0⟩, ⟨.row 75, 0⟩⟩),
  (75, ⟨.sum 110 111, [105, 110], false, ⟨.exit 0, 2⟩, ⟨.row 65, 1⟩⟩),
  -- Counting down
  (69, ⟨.constant (-1), [103], false, ⟨.row 70, 0⟩, ⟨.row 70, 0⟩⟩),
  (70, ⟨.sum 103 104, [104], true, ⟨.row 79, 1⟩, ⟨.row 79, 1⟩⟩),
  (79, ⟨.constant (-1), [118], false, ⟨.row 80, 0⟩, ⟨.row 80, 0⟩⟩),
  (80, ⟨.sum 117 118, [112, 117], false, ⟨.exit 0, 2⟩, ⟨.row 69, 1⟩⟩)] ++
  signTest.listing SignTest.rows

theorem signTest_fits : signTest.Fits SignTest.rows rows :=
  ⟨by decide, by decide⟩

/-! ## What a run keeps -/

/-- The slots that show the input, besides those of the sign test. -/
def inputSlots : List Nat := [4, 5, 9, 84, 89]

/-- The slots of constant zeros, besides those of the sign test. -/
def zeroSlots : List Nat := [10, 14, 15, 85, 90]

/-- What holds between runs, and at every moment of a run. -/
structure Steady (x : Value) (memory : Memory) : Prop where
  input : memory.Shows inputSlots x
  zeros : memory.Shows zeroSlots 0
  part : SignTest.Steady x (signTest.view memory)

/-- All slots that show the input. -/
def allInputSlots : List Nat := inputSlots ++ SignTest.inputSlots.map (· + signTest.slots)

/-- The slots that a new input leaves alone. -/
def otherSlots : List Nat :=
  zeroSlots ++ (SignTest.zeroSlots ++ SignTest.turnSlots).map (· + signTest.slots)

/-- The slots that only the sign test or the outside writes. -/
def steadySlots : List Nat :=
  inputSlots ++ zeroSlots ++ SignTest.steadySlots.map (· + signTest.slots)

variable {x : Value} {memory : Memory}

/-- A new input in the place of the old one. -/
theorem Steady.renew (h : Steady x memory) {later : Memory} {y : Value}
    (hinput : later.Shows allInputSlots y) (hother : later.Agrees memory otherSlots) :
    Steady y later := by
  refine ⟨fun s hs => hinput s (List.mem_append_left _ hs),
    h.zeros.congr (hother.mono fun s hs => List.mem_append_left _ hs), h.part.renew ?_ ?_⟩
  · exact Placement.shows_view fun s hs => hinput s (List.mem_append_right _ hs)
  · exact Placement.agrees_view (hother.mono fun s hs => List.mem_append_right _ hs)

theorem Steady.congr (h : Steady x memory) {later : Memory}
    (hsame : later.Agrees memory steadySlots) : Steady x later := by
  refine ⟨h.input.congr (hsame.mono ?_), h.zeros.congr (hsame.mono ?_), h.part.congr ?_⟩
  · exact fun s hs => by simp [steadySlots, hs]
  · exact fun s hs => by simp [steadySlots, hs]
  · exact Placement.agrees_view (hsame.mono fun s hs => List.mem_append_right _ hs)

theorem Steady.write (h : Steady x memory) {written : List Nat}
    (hother : ∀ s ∈ steadySlots, s ∉ written) (emits : Bool) (value : Value) :
    Steady x (memory.write written emits value) :=
  h.congr (memory.agrees_write hother emits value)

/-- The sign test keeps what the negation keeps. -/
theorem Steady.of_views {frame outer inner : Memory} (h : Steady x frame)
    (hviews : signTest.Views frame outer inner) (hinner : SignTest.Steady x inner) :
    Steady x outer := by
  have hframe : ∀ slots : List Nat, (∀ s ∈ slots, ¬ signTest.Inside s) →
      outer.Agrees frame slots := by
    intro slots houtside s hs
    exact hviews.elsewhere s (houtside s hs) List.not_mem_nil
  refine ⟨h.input.congr (hframe _ (by decide)), h.zeros.congr (hframe _ (by decide)), ?_⟩
  refine hinner.congr fun s hs => hviews.slots s ?_
  revert s
  decide

/-- From all zeros on, everything is steady. -/
theorem steady_zero (h : ∀ s, memory.slot s = 0) : Steady 0 memory :=
  ⟨fun s _ => h s, fun s _ => h s, SignTest.steady_zero fun s => h (s + signTest.slots)⟩

/-- From a place the negation comes to its exit with the right result. -/
abbrev Negates (x : Value) (bound : Nat) (place : Place) (memory : Memory) : Prop :=
  Ends rows (Steady x) (fun exit memory => exit = 0 ∧ memory.out = -x) bound place memory

/-! ## Counting -/

/-- Where a step begins. -/
def stepEntry : Way → Nat
  | .up => 65
  | .down => 69

/-- The slot that shows what is left of the input. -/
def restSlot : Way → Nat
  | .up => 110
  | .down => 117

/-- The slot that shows the result so far. -/
def resultSlot : Way → Nat
  | .up => 97
  | .down => 104

/-- Zero is still ahead of what is left of the input. -/
def Ahead : Way → Int → Prop
  | .up, left => -2 ^ 63 ≤ left ∧ left < 0
  | .down, left => 0 < left ∧ left < 2 ^ 63

variable {way : Way} {left : Int}

theorem Ahead.wrap (h : Ahead way left) :
    Int64.ofInt (left + way.step) = 0 ↔ left + way.step = 0 := by
  apply Value.ofInt_eq_zero_iff <;> cases way <;> simp only [Ahead, Way.step] at * <;> omega

/-- The counters at the beginning of a step.  The result is ahead of what is left of the input by
the negation of the input. -/
structure Counting (x : Value) (way : Way) (left : Int) (memory : Memory) : Prop where
  steady : Steady x memory
  rest : memory.slot (restSlot way) = Int64.ofInt left
  result : memory.slot (resultSlot way) = Int64.ofInt (left - x.toInt)

/-- When nothing is left, the result is the negation of the input. -/
theorem ofInt_zero_sub (x : Value) : Int64.ofInt (0 - x.toInt) = -x := by
  rw [Int.zero_sub, Int64.ofInt_neg, Int64.ofInt_toInt]

/-- **A step** brings the input one closer to zero and the result one further away. -/
theorem ends_step (bound : Nat) (h : Counting x way left memory) (hahead : Ahead way left)
    (hnext : ∀ {later}, left + way.step ≠ 0 → Counting x way (left + way.step) later →
      Negates x (bound + 1) (.row (stepEntry way)) later) :
    Negates x (bound + 7) (.row (stepEntry way)) memory := by
  have hwrap := hahead.wrap
  have hrest := h.rest
  have hresult := h.result
  have hleft := way.ofInt_add_step left
  have hmoved : Int64.ofInt (left - x.toInt) + Int64.ofInt way.step =
      Int64.ofInt (left + way.step - x.toInt) := by
    rw [way.ofInt_add_step, show left - x.toInt + way.step = left + way.step - x.toInt by omega]
  generalize left + way.step = next at hwrap hleft hmoved hnext
  -- The rows of the two ways differ only in their numbers
  cases way <;>
  · simp only [Way.step, restSlot, resultSlot] at hrest hresult hleft hmoved
    -- The step is put where the result reads it, and the result moves by it
    refine .constant (bound + 6) rfl h.steady (h.steady.write (by decide) _ _) (fun h₁ => ?_)
      (Nat.le_refl _)
    refine .straight (v := Int64.ofInt (next - x.toInt)) (bound + 4) rfl h₁ ?_
      (h₁.write (by decide) _ _) (fun h₂ => ?_) (Nat.le_refl _)
    · rw [← hmoved, Int64.add_comm]
      simp [Source.value, hresult]
    -- The same for the rest, whose new value tells whether to stop
    refine .constant (bound + 3) rfl h₂ (h₂.write (by decide) _ _) (fun h₃ => ?_) (Nat.le_refl _)
    by_cases hzero : next = 0
    · refine .zero bound rfl h₃ ?_ (h₃.write (by decide) _ _) (fun h₄ => .exit h₄ ⟨rfl, ?_⟩)
        (Nat.le_refl _)
      · rw [← hwrap.mpr hzero, ← hleft]
        simp [Source.value, hrest]
      · rw [← ofInt_zero_sub x, ← hzero]
        simp
    · refine .other (v := Int64.ofInt next) (bound + 1) rfl h₃ ?_ (mt hwrap.mp hzero)
        (h₃.write (by decide) _ _) (fun h₄ => hnext hzero ⟨h₄, ?_, ?_⟩) (Nat.le_refl _)
      · rw [← hleft]
        simp [Source.value, hrest]
      · simp [restSlot]
      · simp [resultSlot]

/-- **Counting comes to an end** when nothing of the input is left. -/
theorem ends_counting (way : Way) : ∀ (steps : Nat) {left : Int} {memory : Memory},
    Counting x way left memory → Ahead way left → left.natAbs ≤ steps →
    Negates x (6 * steps + 1) (.row (stepEntry way)) memory := by
  intro steps
  induction steps with
  | zero =>
    intro left memory _ hahead hsteps
    exfalso
    cases way <;> simp only [Ahead] at hahead <;> omega
  | succ steps ih =>
    intro left memory h hahead hsteps
    refine ends_step (6 * steps) h hahead fun hne hlater => ih hlater ?_ ?_ <;>
      cases way <;> simp only [Ahead, Way.step] at * <;> omega

/-! ## The whole negation -/

/-- After the sign test the input is copied, and counting begins. -/
theorem ends_tested (h : Steady x memory) (hx : x ≠ 0) (hrise : memory.slot 97 = 0)
    (hfall : memory.slot 104 = 0) : Negates x (6 * x.toInt.natAbs + 3)
      (signTest.place (.exit (SignTest.answer x))) memory := by
  have hrange := Value.toInt_bounds x
  have hint : x.toInt ≠ 0 := by
    rw [Ne, ← Int64.toInt_zero, Int64.toInt_inj]
    exact hx
  -- A positive input is counted down to zero, a negative one up
  unfold SignTest.answer
  split
  next hpositive =>
    have hahead : Ahead .down x.toInt := ⟨hpositive, hrange.2⟩
    refine .straight (v := x) (6 * x.toInt.natAbs + 1) rfl h ?_ (h.write (by decide) _ _)
      (fun h₁ => ends_counting .down _ ⟨h₁, ?_, ?_⟩ hahead (Nat.le_refl _)) (Nat.le_refl _)
    · rw [Source.value, h.input 89 (by decide), h.zeros 90 (by decide), Int64.add_zero]
    · simp [restSlot]
    · simp [resultSlot, hfall]
  next =>
    have hahead : Ahead .up x.toInt := ⟨hrange.1, by omega⟩
    refine .straight (v := x) (6 * x.toInt.natAbs + 1) rfl h ?_ (h.write (by decide) _ _)
      (fun h₁ => ends_counting .up _ ⟨h₁, ?_, ?_⟩ hahead (Nat.le_refl _)) (Nat.le_refl _)
    · rw [Source.value, h.input 84 (by decide), h.zeros 85 (by decide), Int64.add_zero]
    · simp [restSlot]
    · simp [resultSlot, hrise]

/-- A value whose double is zero is its own negation. -/
theorem eq_neg_self (hx : x + x = 0) : x = -x := by
  grind

/-- The number of firings that a negation may need: few if doubling the input gives zero. -/
def cost (x : Value) : Nat :=
  if x + x = 0 then 5 else 22 * x.toInt.natAbs + 17

theorem cost_le (x : Value) : cost x ≤ 22 * x.toInt.natAbs + 17 := by
  unfold cost
  split <;> omega

/-- **The negation is right**, from any steady memory. -/
theorem ends (h : Steady x memory) : Negates x (cost x) (.row 4) memory := by
  have hdouble : Source.value memory (.sum 4 5) = x + x := by
    rw [Source.value, h.input 4 (by decide), h.input 5 (by decide)]
  unfold cost
  -- A value whose double is zero is its own negation, and so it is given out as it is
  by_cases hzero : x + x = 0
  · rw [if_pos hzero]
    refine .zero 3 rfl h (hdouble.trans hzero) (h.write (by decide) _ _) (fun h₁ => ?_)
      (Nat.le_refl _)
    refine .straight (v := x) 0 rfl h₁ ?_ (h₁.write (by decide) _ _)
      (fun h₂ => .exit h₂ ⟨rfl, ?_⟩) (Nat.le_refl _)
    · rw [Source.value, h₁.input 9 (by decide), h₁.zeros 10 (by decide), Int64.add_zero]
    · simpa using eq_neg_self hzero
  · rw [if_neg hzero]
    have htest := SignTest.cost_le x
    refine .other (22 * x.toInt.natAbs + 15) rfl h hdouble hzero (h.write (by decide) _ _)
      (fun h₁ => ?_) (Nat.le_refl _)
    refine .straight (v := 0) (22 * x.toInt.natAbs + 13) rfl h₁ ?_ (h₁.write (by decide) _ _)
      (fun h₂ => ?_) (Nat.le_refl _)
    · rw [Source.value, h₁.zeros 14 (by decide), h₁.zeros 15 (by decide), Int64.add_zero]
    have hx : x ≠ 0 := by
      rintro rfl
      exact hzero rfl
    refine Ends.inside (6 * x.toInt.natAbs + 3) signTest_fits (SignTest.ends h₂.part) ?_ ?_
      (signTest.views_view _ (by decide)) (by omega)
    · exact fun hviews hinner => h₂.of_views hviews hinner
    · rintro exit outer inner hviews hinner rfl
      -- The sign is known now, and counting starts in its direction
      apply ends_tested (h₂.of_views hviews hinner) hx
      · exact hviews.elsewhere 97 (by decide) (by decide)
      · exact hviews.elsewhere 104 (by decide) (by decide)

/-! ## The network -/

/-- The chart of a network of its own. -/
def chart : Chart where
  inputs := [[0, 3, 4, 5, 6, 9, 16, 21, 22, 23, 29, 32, 34, 37, 81, 84, 86, 89]]
  exits := 1
  gives := true
  start := 4
  rows

/-- The library builds what the chart says. -/
theorem follows : Arithmetic.library.follows "-x" chart = true :=
  Library.follows_of_sketched (by decide +kernel)

/-- **The network negates its input.** -/
theorem meets : chart.Meets (fun inputs => Steady (inputs 0))
    (fun inputs exit memory => exit = 0 ∧ memory.out = -inputs 0)
    fun inputs => cost (inputs 0) where
  fresh := steady_zero
  idle h hsame := hsame 0 (by decide) ▸ h
  write {_ _ index _} emits value hslots h := by
    match index, hslots with
    | 0, rfl =>
      exact h.renew (Memory.shows_write _ (by decide) emits value)
        (Memory.agrees_write _ (by decide) emits value)
  ends := ends
  exits h := by
    rw [h.1]
    decide

end TokenNet.Negation
