import Mathlib.Tactic.Ring
import TokenNet.Proofs.Arithmetic.Comparison

/-!
# The product

A product counts from zero up to its first input, which is taken as unsigned, and adds the second
input once at every step.  Before a step the counter is compared with the first input, and then the
second input with zero.

The adder that adds the second input has a wire behind one of its exits only.  If a partial sum is
zero the token leaves by the other one, and the run ends there: not at the exit of the network, and
without a result.  The second input is not zero then, so this takes a sum that wraps around.

## Main statements

- `Product.ends_counting`: counting, from any point on.
- `Product.ends`: the whole product.
-/

namespace TokenNet.Product

/-- The comparison of the first input with the counter. -/
def counting : Placement := ⟨4, 8, 139, [], [.row 104, .row 100]⟩

/-- The comparison of the second input with zero. -/
def checking : Placement := ⟨101, 152, 139, [], [.row 195, .row 100]⟩

/-- The slots that show the counter. -/
def counterSlots : List Nat :=
  [9, 15, 16, 19, 20, 21, 22, 25, 32, 37, 38, 39, 45, 48, 50, 53, 97, 100, 102, 105, 293, 299]

/-- The slots that show the partial sum. -/
def sumSlots : List Nat := [147, 150, 292]

/-- The slots with which the second input is compared. -/
def blankSlots : List Nat :=
  [153, 159, 160, 163, 164, 165, 166, 169, 176, 181, 182, 183, 189, 192, 194, 197, 241, 244, 246,
    249]

/-- The chart of the product. -/
def rows : Listing := [
  -- The counter and the partial sum begin at zero
  (1, ⟨.constant 0, counterSlots, false, ⟨.row 2, 0⟩, ⟨.row 2, 0⟩⟩),
  (2, ⟨.constant 0, sumSlots, false, ⟨.row 3, 0⟩, ⟨.row 3, 0⟩⟩),
  (3, ⟨.constant 0, blankSlots, false, ⟨.row 7, 0⟩, ⟨.row 7, 0⟩⟩),
  -- The partial sum is given out
  (100, ⟨.sum 150 151, [], true, ⟨.exit 0, 2⟩, ⟨.exit 0, 2⟩⟩),
  -- The second input is added, and the counter goes up; nothing follows on a sum of zero
  (195, ⟨.sum 291 292, sumSlots, false, ⟨.exit 312, 0⟩, ⟨.row 198, 0⟩⟩),
  (198, ⟨.constant 1, [298], false, ⟨.row 199, 0⟩, ⟨.row 199, 0⟩⟩),
  (199, ⟨.sum 298 299, counterSlots, false, ⟨.row 7, 1⟩, ⟨.row 7, 1⟩⟩)] ++
  counting.listing Comparison.rows ++ checking.listing Comparison.rows

theorem counting_fits : counting.Fits Comparison.rows rows :=
  ⟨by decide, by decide⟩

theorem checking_fits : checking.Fits Comparison.rows rows :=
  ⟨by decide, by decide⟩

/-! ## What a run keeps -/

/-- What holds between runs, and at every moment of a run.  The first comparison has taken in a
counter, wherever an earlier run was stopped. -/
structure Steady (x y : Value) (memory : Memory) : Prop where
  summand : memory.slot 291 = y
  zero : memory.slot 151 = 0
  counted : ∃ c, Comparison.Steady x c (counting.view memory)
  checked : Comparison.Steady y 0 (checking.view memory)

/-- The slots that only the comparisons or the outside write. -/
def steadySlots : List Nat :=
  [151, 291] ++ Comparison.steadySlots.map (· + counting.slots) ++
    Comparison.steadySlots.map (· + checking.slots)

variable {x y c : Value} {memory later : Memory}

/-- New inputs of the first comparison in the place of the old ones. -/
theorem Steady.recount (h : Steady x y memory)
    (hcounted : Comparison.Steady x c (counting.view later))
    (hother : later.Agrees memory ([151, 291] ++ Comparison.steadySlots.map (· + checking.slots))) :
    Steady x y later := by
  refine ⟨(hother 291 (by decide)).trans h.summand, (hother 151 (by decide)).trans h.zero,
    ⟨c, hcounted⟩, h.checked.congr (Placement.agrees_view (hother.mono ?_))⟩
  exact fun _ => List.mem_append_right _

theorem Steady.write (h : Steady x y memory) {written : List Nat}
    (hother : ∀ s ∈ steadySlots, s ∉ written) (emits : Bool) (value : Value) :
    Steady x y (memory.write written emits value) := by
  have hsame := memory.agrees_write hother emits value
  obtain ⟨c, hcounted⟩ := h.counted
  refine h.recount (hcounted.congr (Placement.agrees_view (hsame.mono ?_))) (hsame.mono ?_)
  · decide
  · decide

/-- A new first input in the place of the old one. -/
theorem Steady.renewLeft (h : Steady x y memory) {x' : Value} (hinput : later.slot 135 = x')
    (hother : later.Agrees memory ([151, 291] ++
      Comparison.leftOtherSlots.map (· + counting.slots) ++
      Comparison.steadySlots.map (· + checking.slots))) : Steady x' y later := by
  obtain ⟨c, hcounted⟩ := h.counted
  refine ⟨(hother 291 (by decide)).trans h.summand, (hother 151 (by decide)).trans h.zero,
    ⟨c, hcounted.renewLeft hinput (Placement.agrees_view (hother.mono ?_))⟩,
    h.checked.congr (Placement.agrees_view (hother.mono ?_))⟩
  · decide
  · decide

/-- A new second input in the place of the old one. -/
theorem Steady.renewRight (h : Steady x y memory) {y' : Value} (hsummand : later.slot 291 = y')
    (hinput : later.slot 279 = y') (hother : later.Agrees memory (151 ::
      Comparison.steadySlots.map (· + counting.slots) ++
      Comparison.leftOtherSlots.map (· + checking.slots))) : Steady x y' later := by
  obtain ⟨c, hcounted⟩ := h.counted
  refine ⟨hsummand, (hother 151 (by decide)).trans h.zero,
    ⟨c, hcounted.congr (Placement.agrees_view (hother.mono ?_))⟩,
    h.checked.renewLeft hinput (Placement.agrees_view (hother.mono ?_))⟩
  · decide
  · decide

/-- The counter is set. -/
theorem Steady.count (h : Steady x y memory) (value : Value) :
    Steady x y (memory.write counterSlots false value) ∧
      Comparison.Steady x value (counting.view (memory.write counterSlots false value)) := by
  obtain ⟨c, hcounted⟩ := h.counted
  have hcounted' : Comparison.Steady x value
      (counting.view (memory.write counterSlots false value)) :=
    hcounted.renewRight (Placement.shows_view (Memory.shows_write _ (by decide) false value))
      (Placement.agrees_view (Memory.agrees_write _ (by decide) false value))
  exact ⟨h.recount hcounted' (Memory.agrees_write _ (by decide) false value), hcounted'⟩

/-- What the second input is compared with is set to zero. -/
theorem Steady.blank (h : Steady x y memory)
    (hcounted : Comparison.Steady x c (counting.view memory)) :
    Steady x y (memory.write blankSlots false 0) ∧
      Comparison.Steady x c (counting.view (memory.write blankSlots false 0)) := by
  have hown : (memory.write blankSlots false 0).Agrees memory [151, 291] :=
    Memory.agrees_write _ (by decide) false 0
  have hcounted' : Comparison.Steady x c (counting.view (memory.write blankSlots false 0)) :=
    hcounted.congr (Placement.agrees_view (Memory.agrees_write _ (by decide) false 0))
  refine ⟨⟨(hown 291 (by decide)).trans h.summand, (hown 151 (by decide)).trans h.zero,
    ⟨c, hcounted'⟩, h.checked.renewRight ?_ ?_⟩, hcounted'⟩
  · exact Placement.shows_view (Memory.shows_write _ (by decide) false 0)
  · exact Placement.agrees_view (Memory.agrees_write _ (by decide) false 0)

/-- The first comparison keeps what the product keeps. -/
theorem Steady.of_counting {frame outer inner : Memory} (h : Steady x y frame)
    (hviews : counting.Views frame outer inner) (hinner : Comparison.Steady x c inner) :
    Steady x y outer ∧ Comparison.Steady x c (counting.view outer) := by
  have hcounted := hinner.congr (hviews.agrees_inside (by decide))
  exact ⟨h.recount hcounted (hviews.agrees_elsewhere (by decide)), hcounted⟩

/-- The second comparison keeps what the product keeps, and the counter. -/
theorem Steady.of_checking {frame outer inner : Memory} (h : Steady x y frame)
    (hcounted : Comparison.Steady x c (counting.view frame))
    (hviews : checking.Views frame outer inner) (hinner : Comparison.Steady y 0 inner) :
    Steady x y outer ∧ Comparison.Steady x c (counting.view outer) := by
  have hown : outer.Agrees frame [151, 291] := hviews.agrees_elsewhere (by decide)
  have hcounted' := hcounted.congr (Placement.agrees_view (hviews.agrees_elsewhere (by decide)))
  exact ⟨⟨(hown 291 (by decide)).trans h.summand, (hown 151 (by decide)).trans h.zero,
    ⟨c, hcounted'⟩, hinner.congr (hviews.agrees_inside (by decide))⟩, hcounted'⟩

/-- From all zeros on, everything is steady. -/
theorem steady_zero (h : ∀ s, memory.slot s = 0) : Steady 0 0 memory :=
  ⟨h 291, h 151, ⟨0, Comparison.steady_zero fun s => h (s + counting.slots)⟩,
    Comparison.steady_zero fun s => h (s + checking.slots)⟩

/-! ## The answer -/

/-- How far a product counts. -/
def target (x : Value) : Nat :=
  x.toUInt64.toNat

/-- A partial sum of a second input that is not zero wraps around to zero. -/
def Vanishes (x y : Value) : Prop :=
  y ≠ 0 ∧ ∃ k, 0 < k ∧ k ≤ target x ∧ Int64.ofNat k * y = 0

/-- How a product ends that began with some output: with the result at its exit, or with the old
output elsewhere. -/
inductive Done (x y before : Value) : Nat → Memory → Prop where
  | right {memory : Memory} : ¬ Vanishes x y → memory.out = x * y → Done x y before 0 memory
  | lost {memory : Memory} : Vanishes x y → memory.out = before → Done x y before 312 memory

/-- From a place the product comes to its end. -/
abbrev Multiplies (x y before : Value) (bound : Nat) (place : Place) (memory : Memory) : Prop :=
  Ends rows (Steady x y) (Done x y before) bound place memory

/-! ## Counting -/

/-- The counter and the partial sum before a step.  No partial sum before was zero. -/
structure Counting (x y before : Value) (k : Nat) (memory : Memory) : Prop where
  steady : Steady x y memory
  counted : Comparison.Steady x (Int64.ofNat k) (counting.view memory)
  counter : memory.slot 299 = Int64.ofNat k
  sum : memory.Shows [150, 292] (Int64.ofNat k * y)
  out : memory.out = before
  small : k ≤ target x
  sound : y ≠ 0 → ∀ j, 0 < j → j ≤ k → Int64.ofNat j * y ≠ 0

variable {before : Value} {k : Nat}

/-- The comparisons do not touch what is counted. -/
theorem Counting.congr (h : Counting x y before k memory)
    (hsteady : Steady x y later ∧ Comparison.Steady x (Int64.ofNat k) (counting.view later))
    (hsame : later.Agrees memory [150, 292, 299]) (hout : later.out = memory.out) :
    Counting x y before k later :=
  ⟨hsteady.1, hsteady.2, (hsame 299 (by decide)).trans h.counter,
    h.sum.congr (hsame.mono (by decide)), hout.trans h.out, h.small, h.sound⟩

/-- Once the counter is at its target, or there is nothing to add, the partial sum is given out. -/
theorem Counting.ends_given (h : Counting x y before k memory)
    (hlast : y = 0 ∨ k = target x) : Multiplies x y before 3 (.row 100) memory := by
  have hproduct : Int64.ofNat k * y = x * y := by
    rcases hlast with rfl | rfl
    · rw [Int64.mul_zero, Int64.mul_zero]
    · rw [target, Value.ofNat_toNat]
  refine .straight (v := x * y) 0 rfl h.steady ?_ (h.steady.write (by decide) _ _)
    (fun h₁ => .exit h₁ (.right ?_ rfl)) (Nat.le_refl _)
  · rw [Source.value, h.sum 150 (by decide), h.steady.zero, Int64.add_zero, hproduct]
  · rintro ⟨hy, j, hpos, hle, hzero⟩
    rcases hlast with rfl | rfl
    · exact hy rfl
    · exact h.sound hy j hpos hle hzero

/-- A step adds the second input once more.  If the sum is zero, the run is over. -/
theorem Counting.ends_added (h : Counting x y before k memory) (hy : y ≠ 0) (hk : k < target x)
    {bound : Nat} (hnext : ∀ {later}, Counting x y before (k + 1) later →
      Multiplies x y before bound (.row 7) later) :
    Multiplies x y before (bound + 4) (.row 195) memory := by
  -- The sum of the first counts and one more summand
  have hsum : Source.value memory (.sum 291 292) = Int64.ofNat (k + 1) * y := by
    rw [Source.value, h.steady.summand, h.sum 292 (by decide), Int64.ofNat_add]
    grind
  have hsteady := h.steady.write (show ∀ s ∈ steadySlots, s ∉ sumSlots by decide) false
    (Int64.ofNat (k + 1) * y)
  by_cases hzero : Int64.ofNat (k + 1) * y = 0
  -- A sum that is zero leaves by an exit that is not wired, so the product is lost
  · rw [hzero] at hsteady
    refine .zero 0 rfl h.steady (hsum.trans hzero) hsteady (fun h₁ => .exit h₁ (.lost ?_ h.out))
      (by omega)
    exact ⟨hy, k + 1, Nat.succ_pos k, hk, hzero⟩
  · refine .other (bound + 3) rfl h.steady hsum hzero hsteady (fun h₁ => ?_) (Nat.le_refl _)
    -- Otherwise the counter goes up by one, and the comparison is given its new value
    refine .constant (bound + 2) rfl h₁ (h₁.write (by decide) _ _) (fun h₂ => ?_) (Nat.le_refl _)
    obtain ⟨h₃, hcounted⟩ := h₂.count (Int64.ofNat (k + 1))
    refine .straight (v := Int64.ofNat (k + 1)) bound rfl h₂ ?_ h₃ (fun _ => hnext ?_)
      (Nat.le_refl _)
    · rw [Source.value, Int64.ofNat_add]
      simp [h.counter, sumSlots, Int64.add_comm]
    · refine ⟨h₃, hcounted, by simp [counterSlots], ?_, h.out, hk, fun _ j hpos hle => ?_⟩
      · exact ((Memory.shows_write _ (by decide) false _).write (by decide) _ _).write (by decide)
          _ _
      -- No sum up to the new count is zero, because the last one was just found not to be
      · rcases Nat.le_succ_iff.mp hle with hless | rfl
        · exact h.sound hy j hpos hless
        · exact hzero

/-- The first comparison tells whether the counter is at its target. -/
theorem Counting.ends_compared (h : Counting x y before k memory) {bound : Nat}
    (hlast : ∀ {later}, Counting x y before k later → k = target x →
      Multiplies x y before bound (.row 100) later)
    (hmore : ∀ {later}, Counting x y before k later → k < target x →
      Multiplies x y before bound (.row 104) later) :
    Multiplies x y before (22 * k + 23 + bound) (.row 7) memory := by
  -- A comparison costs what its negation of the counter costs
  have hcost : Negation.cost (Int64.ofNat k) + 6 ≤ 22 * k + 23 := by
    have hnegation := Negation.cost_le (Int64.ofNat k)
    have hcounter := Value.natAbs_toInt_ofNat_le k
    omega
  -- The token is inside the comparison until that tells whether the counter is at its target
  refine Ends.inside bound counting_fits (Comparison.ends h.counted) ?_ ?_
    (counting.views_view memory (by decide)) (by omega)
  · exact fun hviews hinner => (h.steady.of_counting hviews hinner).1
  · rintro exit outer inner hviews hinner ⟨rfl, _⟩
    have hlater : Counting x y before k outer :=
      h.congr (h.steady.of_counting hviews hinner) (hviews.agrees_elsewhere (by decide)) hviews.out
    have hequal := Value.eq_ofNat_iff x h.small
    unfold Comparison.answer
    split
    next hsame => exact hlast hlater (hequal.mp hsame)
    next hapart => exact hmore hlater (Nat.lt_of_le_of_ne h.small (mt hequal.mpr hapart))

/-- The second comparison tells whether there is anything to add. -/
theorem Counting.ends_checked (h : Counting x y before k memory) {bound : Nat}
    (hnothing : ∀ {later}, Counting x y before k later → y = 0 →
      Multiplies x y before bound (.row 100) later)
    (hsomething : ∀ {later}, Counting x y before k later → y ≠ 0 →
      Multiplies x y before bound (.row 195) later) :
    Multiplies x y before (11 + bound) (.row 104) memory := by
  -- The token is inside the second comparison, which holds the summand against zero
  refine Ends.inside bound checking_fits (Comparison.ends h.steady.checked) ?_ ?_
    (checking.views_view memory (by decide)) (Nat.le_refl (Negation.cost 0 + 6 + bound))
  · exact fun hviews hinner => (h.steady.of_checking h.counted hviews hinner).1
  · rintro exit outer inner hviews hinner ⟨rfl, _⟩
    have hlater : Counting x y before k outer :=
      h.congr (h.steady.of_checking h.counted hviews hinner)
        (hviews.agrees_elsewhere (by decide)) hviews.out
    unfold Comparison.answer
    split
    next hsame => exact hnothing hlater hsame
    next hapart => exact hsomething hlater hapart

/-- The number of firings that may be needed for some more steps after the first `k`. -/
def costFrom (k : Nat) : Nat → Nat
  | 0 => 22 * k + 26
  | rest + 1 => 22 * k + 38 + costFrom (k + 1) rest

theorem costFrom_eq (k rest : Nat) :
    costFrom k rest = 11 * rest * rest + (22 * k + 49) * rest + 22 * k + 26 := by
  induction rest generalizing k with
  | zero => simp [costFrom]
  | succ rest ih =>
    unfold costFrom
    rw [ih]
    ring

/-- **Counting comes to the product**, or to a partial sum of zero. -/
theorem ends_counting : ∀ (rest : Nat) {k : Nat} {memory : Memory}, k + rest = target x →
    Counting x y before k memory → Multiplies x y before (costFrom k rest) (.row 7) memory := by
  intro rest
  -- On the counts that are left: compare, check, add, and go on with one count more
  induction rest with
  | zero =>
    intro k memory htarget h
    refine h.ends_compared (fun h₁ hlast => h₁.ends_given (.inr hlast)) fun _ hmore => ?_
    omega
  | succ rest ih =>
    intro k memory htarget h
    have hcost : costFrom k (rest + 1) = 22 * k + 23 + (11 + (costFrom (k + 1) rest + 4)) := by
      change 22 * k + 38 + costFrom (k + 1) rest = _
      omega
    rw [hcost]
    refine h.ends_compared (fun _ hlast => ?_) fun h₁ hmore => ?_
    · omega
    refine h₁.ends_checked (fun h₂ hy => ?_) fun h₂ hy => ?_
    · exact (h₂.ends_given (.inl hy)).mono (by omega)
    · exact h₂.ends_added hy hmore fun h₃ => ih (by omega) h₃

/-! ## The whole product -/

/-- The number of firings that a product may need. -/
def cost (x : Value) : Nat :=
  costFrom 0 (target x) + 3

/-- **The product is right unless a partial sum vanishes**, from any steady memory. -/
theorem ends (h : Steady x y memory) :
    Multiplies x y memory.out (cost x) (.row 1) memory := by
  -- Three constants come first: the counter, the sum and the blank are set to zero
  obtain ⟨h₁, hcounted⟩ := h.count 0
  refine .constant (costFrom 0 (target x) + 2) rfl h h₁ (fun _ => ?_) (Nat.le_refl _)
  have h₂ := h₁.write (show ∀ s ∈ steadySlots, s ∉ sumSlots by decide) false 0
  have hcounted₂ := hcounted.congr (Placement.agrees_view
    (Memory.agrees_write _ (show ∀ s ∈ _, s ∉ sumSlots by decide) false 0))
  refine .constant (costFrom 0 (target x) + 1) rfl h₁ h₂ (fun _ => ?_) (Nat.le_refl _)
  obtain ⟨h₃, hcounted₃⟩ := h₂.blank hcounted₂
  refine .constant (costFrom 0 (target x)) rfl h₂ h₃ (fun _ => ?_) (Nat.le_refl _)
  refine ends_counting (target x) (Nat.zero_add _) ⟨h₃, hcounted₃, ?_, ?_, rfl, Nat.zero_le _, ?_⟩
  · simp [counterSlots, sumSlots, blankSlots]
  · have hshows : Int64.ofNat 0 * y = 0 := Int64.zero_mul
    rw [hshows]
    exact (Memory.shows_write _ (by decide) false 0).write (by decide) _ _
  · intro _ j hpos hle
    omega

/-! ## The network -/

/-- The chart of a network of its own. -/
def chart : Chart where
  inputs := [[0, 8, 14, 135], [1, 152, 158, 279, 291]]
  exits := 1
  gives := true
  start := 1
  rows

/-- The library builds what the chart says. -/
theorem follows : Arithmetic.library.follows "*" chart = true :=
  Library.follows_of_sketched (by decide +kernel)

/-- **The network multiplies its inputs, or loses a run.** -/
theorem works : chart.Works (fun inputs => Steady (inputs 0) (inputs 1))
    (fun inputs memory => Done (inputs 0) (inputs 1) memory.out) fun inputs => cost (inputs 0) where
  fresh := steady_zero
  idle h hsame := hsame 0 (by decide) ▸ hsame 1 (by decide) ▸ h
  write {_ _ index _} emits value hslots h := by
    match index, hslots with
    | 0, rfl =>
      exact h.renewLeft (by simp [Use.inputs]) (Memory.agrees_write _ (by decide) emits value)
    | 1, rfl =>
      exact h.renewRight (by simp [Use.inputs]) (by simp [Use.inputs])
        (Memory.agrees_write _ (by decide) emits value)
  ends := ends

end TokenNet.Product
