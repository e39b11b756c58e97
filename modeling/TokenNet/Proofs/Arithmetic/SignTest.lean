import TokenNet.Arithmetic
import TokenNet.Proofs.Sketch.Chart
import TokenNet.Proofs.Value

/-!
# The sign test

The sign test copies its input into two counters, one that counts up and one that counts down, and
lets them take turns until one of them comes to zero.  Counting down ends first for a positive
input and counting up for a negative one.  Whose turn it is is kept from run to run, so a run may
begin with either counter; this makes no difference, because the two never differ by more than one
step.

Zero and the least value are sorted out before the counters are set: doubling them gives zero.

## Main statements

- `SignTest.ends_counting`: the counters from any point on.
- `SignTest.ends`: the whole test.
- `SignTest.meets`: the network of its own.
-/

namespace TokenNet.SignTest

/-- The chart of the sign test. -/
def rows : Listing := [
  (3, ⟨.constant 1, [8, 11, 60, 63], false, ⟨.row 6, 0⟩, ⟨.row 6, 0⟩⟩),
  -- The input is added to itself; if this gives zero, the test is over
  (6, ⟨.sum 6 7, [], false, ⟨.row 9, 1⟩, ⟨.row 12, 1⟩⟩),
  (9, ⟨.sum 11 12, [], true, ⟨.exit 0, 2⟩, ⟨.exit 0, 2⟩⟩),
  -- The counters are set
  (12, ⟨.sum 16 17, [41, 46], false, ⟨.row 15, 1⟩, ⟨.row 15, 1⟩⟩),
  (15, ⟨.sum 21 22, [48, 53], false, ⟨.row 18, 1⟩, ⟨.row 18, 1⟩⟩),
  -- The turn
  (18, ⟨.sum 23 24, [], false, ⟨.row 22, 0⟩, ⟨.row 27, 0⟩⟩),
  (22, ⟨.constant 1, [31], false, ⟨.row 23, 0⟩, ⟨.row 23, 0⟩⟩),
  (23, ⟨.sum 30 31, [24, 25, 30, 32, 37], false, ⟨.row 33, 2⟩, ⟨.row 33, 2⟩⟩),
  (27, ⟨.constant (-1), [38], false, ⟨.row 28, 0⟩, ⟨.row 28, 0⟩⟩),
  (28, ⟨.sum 37 38, [24, 25, 30, 32, 37], false, ⟨.row 38, 2⟩, ⟨.row 38, 2⟩⟩),
  -- Counting up and counting down
  (33, ⟨.constant 1, [47], false, ⟨.row 34, 0⟩, ⟨.row 34, 0⟩⟩),
  (34, ⟨.sum 46 47, [41, 46], false, ⟨.row 42, 1⟩, ⟨.row 18, 1⟩⟩),
  (38, ⟨.constant (-1), [54], false, ⟨.row 39, 0⟩, ⟨.row 39, 0⟩⟩),
  (39, ⟨.sum 53 54, [48, 53], false, ⟨.row 45, 1⟩, ⟨.row 18, 1⟩⟩),
  -- The answers
  (42, ⟨.sum 58 59, [], true, ⟨.exit 0, 2⟩, ⟨.exit 0, 2⟩⟩),
  (45, ⟨.sum 63 64, [], true, ⟨.exit 1, 2⟩, ⟨.exit 1, 2⟩⟩)]

/-! ## What a run keeps -/

/-- The slots that show the input. -/
def inputSlots : List Nat := [0, 5, 6, 7, 13, 16, 18, 21]

/-- The slots of constant zeros. -/
def zeroSlots : List Nat := [12, 17, 22, 23, 58, 59, 64]

/-- The slots that show whose turn it is: zero if it is for counting up, one for counting down. -/
def turnSlots : List Nat := [24, 30, 37]

/-- What holds between runs, and at every moment of a run. -/
structure Steady (x : Value) (memory : Memory) : Prop where
  input : memory.Shows inputSlots x
  zeros : memory.Shows zeroSlots 0
  turn : memory.Shows turnSlots 0 ∨ memory.Shows turnSlots 1

/-- The slots that only the turn or the outside writes. -/
def steadySlots : List Nat := inputSlots ++ zeroSlots ++ turnSlots

variable {x : Value} {memory : Memory}

/-- A new input in the place of the old one. -/
theorem Steady.renew (h : Steady x memory) {later : Memory} {y : Value}
    (hinput : later.Shows inputSlots y) (hother : later.Agrees memory (zeroSlots ++ turnSlots)) :
    Steady y later := by
  have hzeros : later.Agrees memory zeroSlots := hother.mono fun s hs => by simp [hs]
  have hturn : later.Agrees memory turnSlots := hother.mono fun s hs => by simp [hs]
  exact ⟨hinput, h.zeros.congr hzeros, h.turn.imp (fun h => h.congr hturn) fun h => h.congr hturn⟩

theorem Steady.congr (h : Steady x memory) {later : Memory}
    (hsame : later.Agrees memory steadySlots) : Steady x later := by
  refine h.renew (h.input.congr (hsame.mono fun s hs => ?_)) (hsame.mono fun s hs => ?_)
  · simp [steadySlots, hs]
  · rw [steadySlots, List.append_assoc]
    exact List.mem_append_right _ hs

theorem Steady.write (h : Steady x memory) {written : List Nat}
    (hother : ∀ s ∈ steadySlots, s ∉ written) (emits : Bool) (value : Value) :
    Steady x (memory.write written emits value) :=
  h.congr (memory.agrees_write hother emits value)

/-- From all zeros on, everything is steady. -/
theorem steady_zero (h : ∀ s, memory.slot s = 0) : Steady 0 memory :=
  ⟨fun s _ => h s, fun s _ => h s, .inl fun s _ => h s⟩

/-- The turn goes to the other counter. -/
theorem Steady.turnOver (h : Steady x memory) {value : Value} (hvalue : value = 0 ∨ value = 1) :
    Steady x (memory.write [24, 25, 30, 32, 37] false value) := by
  refine ⟨h.input.write (by decide) _ _, h.zeros.write (by decide) _ _, ?_⟩
  have hturn : (memory.write [24, 25, 30, 32, 37] false value).Shows turnSlots value :=
    Memory.shows_write memory (by decide) false value
  rcases hvalue with rfl | rfl
  · exact .inl hturn
  · exact .inr hturn

/-- The exit of the test. -/
def answer (x : Value) : Nat :=
  if 0 < x.toInt then 1 else 0

/-- From a place the test comes to the right exit. -/
abbrev Answers (x : Value) (bound : Nat) (place : Place) (memory : Memory) : Prop :=
  Ends rows (Steady x) (fun exit _ => exit = answer x) bound place memory

/-! ## Single turns -/

/-- The number that stands for the turn of a counter. -/
def turnOf : Way → Int
  | .up => 0
  | .down => 1

/-- The slot of a counter. -/
def counterSlot : Way → Nat
  | .up => 46
  | .down => 53

/-- The exit of the test when a counter has come to zero. -/
def exitOf : Way → Nat
  | .up => 0
  | .down => 1

/-- Where a turn goes on once it is known whose turn it is. -/
def turnEntry : Way → Nat
  | .up => 22
  | .down => 27

theorem ends_turn (way : Way) (bound : Nat) (h : Steady x memory)
    (hturn : memory.Shows turnSlots (Int64.ofInt (turnOf way)))
    (hrest : Steady x (memory.write [] false (Int64.ofInt (turnOf way))) →
      Answers x bound (.row (turnEntry way))
        (memory.write [] false (Int64.ofInt (turnOf way)))) :
    Answers x (bound + 1) (.row 18) memory := by
  have hsum : Source.value memory (.sum 23 24) = Int64.ofInt (turnOf way) := by
    rw [Source.value, h.zeros 23 (by decide), hturn 24 (by decide), Int64.zero_add]
  have hkept := h.write (show ∀ s ∈ steadySlots, s ∉ [] by decide) false (Int64.ofInt (turnOf way))
  cases way with
  | up => exact .zero bound rfl h hsum hkept hrest (Nat.le_refl _)
  | down => exact .other bound rfl h hsum (by decide) hkept hrest (Nat.le_refl _)

/-- **A turn** passes the turn to the other counter and lets its own counter count one step.  If
this brings the counter to zero, the test is over. -/
theorem ends_count (way : Way) (bound : Nat) (h : Steady x memory)
    (hturn : memory.Shows turnSlots (Int64.ofInt (turnOf way))) {count : Int}
    (hcount : memory.slot (counterSlot way) = Int64.ofInt count)
    (hlast : Int64.ofInt (count + way.step) = 0 → exitOf way = answer x)
    (hnext : ∀ {later}, Int64.ofInt (count + way.step) ≠ 0 → Steady x later →
      later.Shows turnSlots (Int64.ofInt (turnOf way.opposite)) →
      later.slot (counterSlot way) = Int64.ofInt (count + way.step) →
      later.slot (counterSlot way.opposite) = memory.slot (counterSlot way.opposite) →
      Answers x (bound + 3) (.row 18) later) :
    Answers x (bound + 11) (.row 18) memory := by
  refine ends_turn way (bound + 10) h hturn fun h₁ => ?_
  have hstep := way.ofInt_add_step count
  have hpass : Int64.ofInt (turnOf way) + Int64.ofInt way.step =
      Int64.ofInt (turnOf way.opposite) := by
    cases way <;> rfl
  have hturns : Int64.ofInt (turnOf way.opposite) = 0 ∨ Int64.ofInt (turnOf way.opposite) = 1 := by
    cases way
    · exact .inr rfl
    · exact .inl rfl
  -- From here on only the sums matter, not what they were counted from
  generalize Int64.ofInt (count + way.step) = next at hstep hlast hnext
  generalize Int64.ofInt (turnOf way.opposite) = passed at hpass hturns hnext
  generalize Int64.ofInt (turnOf way) = turn at hturn hpass h₁ ⊢
  -- The rows of the two counters differ only in their numbers
  cases way <;>
  · simp only [counterSlot, exitOf, Way.step, Way.opposite] at hcount hstep hpass hlast hnext
    refine .constant (bound + 9) rfl h₁ (h₁.write (by decide) _ _) (fun h₂ => ?_) (Nat.le_refl _)
    refine .straight (v := passed) (bound + 6) rfl h₂ ?_ (h₂.turnOver hturns) (fun h₃ => ?_)
      (Nat.le_refl _)
    · rw [← hpass]
      simp [Source.value, hturn 30 (by decide), hturn 37 (by decide)]
    refine .constant (bound + 5) rfl h₃ (h₃.write (by decide) _ _) (fun h₄ => ?_) (Nat.le_refl _)
    -- The counter of this turn has come to zero, so the test is over
    by_cases hzero : next = 0
    · refine .zero (bound + 3) rfl h₄ ?_ (h₄.write (by decide) _ _) (fun h₅ => ?_) (Nat.le_refl _)
      · rw [← hzero, ← hstep]
        simp [Source.value, hcount]
      exact .straight bound rfl h₅ rfl (h₅.write (by decide) _ _)
        (fun h₆ => .exit h₆ (hlast hzero)) (Nat.le_refl _)
    -- Otherwise the other counter has the next turn
    · refine .other (bound + 3) rfl h₄ ?_ hzero (h₄.write (by decide) _ _) (fun h₅ => ?_)
        (Nat.le_refl _)
      · rw [← hstep]
        simp [Source.value, hcount]
      refine hnext hzero h₅ ?_ ?_ ?_
      · exact ((Memory.shows_write _ (by decide) false _).write (by decide) _ _).write (by decide)
          _ _
      · simp
      · simp

/-! ## Counting -/

/-- The counters at the beginning of a turn, followed as integers.  They take turns, so the sum of
what they have counted is that of the beginning or one off; and the counter that goes towards zero
is still between its beginning and zero. -/
structure Counting (x : Value) (way : Way) (up down : Int) (memory : Memory) : Prop where
  steady : Steady x memory
  turn : memory.Shows turnSlots (Int64.ofInt (turnOf way))
  showsUp : memory.slot 46 = Int64.ofInt up
  showsDown : memory.slot 53 = Int64.ofInt down
  least : 2 * x.toInt + turnOf way - 1 ≤ up + down
  most : up + down ≤ 2 * x.toInt + turnOf way
  positive : 0 < x.toInt → 0 < down ∧ down ≤ x.toInt
  negative : x.toInt < 0 → x.toInt ≤ up ∧ up < 0

/-- The number of turns before the counter that goes towards zero comes there. -/
def turnsLeft (x : Value) (way : Way) (up down : Int) : Int :=
  if 0 < x.toInt then 2 * down - turnOf way else -2 * up - (1 - turnOf way)

/-- **The counters find the sign**, from any point on and whoever's turn it is. -/
theorem ends_counting (hx : x + x ≠ 0) : ∀ (turns : Nat) {way : Way} {up down : Int}
    {memory : Memory}, Counting x way up down memory → turnsLeft x way up down ≤ turns →
    Answers x (8 * turns + 3) (.row 18) memory := by
  have hrange := Value.toInt_bounds x
  rw [Ne, Value.add_self_eq_zero_iff, not_or] at hx
  intro turns
  -- Induction on the turns that may still be left; the counter of the other way is up next
  induction turns with
  | zero =>
    intro way up down memory h hleft
    -- The counter that goes towards zero is not there, so some turn is left
    exfalso
    have := h.positive
    have := h.negative
    unfold turnsLeft at hleft
    cases way <;> simp only [turnOf] at hleft <;> split at hleft <;> omega
  | succ turns ih =>
    intro way up down memory h hleft
    obtain ⟨hsteady, hturn, hup, hdown, hleast, hmost, hpositive, hnegative⟩ := h
    unfold turnsLeft at hleft ih
    cases way with
    | up =>
      simp only [turnOf] at hleast hmost hleft
      -- The next value does not wrap, because the counter has not passed zero
      have hwrap : Int64.ofInt (up + 1) = 0 ↔ up + 1 = 0 := by
        apply Value.ofInt_eq_zero_iff <;> omega
      refine (ends_count .up (8 * turns) hsteady hturn hup ?_ ?_).mono (by omega)
      · intro hzero
        have hgone := hwrap.mp hzero
        rw [answer, if_neg (by omega)]
        rfl
      · intro later hzero hsteady' hturn' hup' hdown'
        have hleft' := mt hwrap.mpr hzero
        -- The counter stands one nearer to zero, and the other one is due
        have hlater : Counting x .down (up + 1) down later :=
          ⟨hsteady', hturn', hup', hdown'.trans hdown, by rw [turnOf]; omega,
            by rw [turnOf]; omega, by omega, by omega⟩
        refine ih hlater ?_
        simp only [turnOf]
        split at hleft <;> split <;> omega
    | down =>
      simp only [turnOf] at hleast hmost hleft
      have hwrap : Int64.ofInt (down + -1) = 0 ↔ down + -1 = 0 := by
        apply Value.ofInt_eq_zero_iff <;> omega
      refine (ends_count .down (8 * turns) hsteady hturn hdown ?_ ?_).mono (by omega)
      · intro hzero
        have hgone := hwrap.mp hzero
        rw [answer, if_pos (by omega)]
        rfl
      · intro later hzero hsteady' hturn' hdown' hup'
        have hleft' := mt hwrap.mpr hzero
        have hlater : Counting x .up up (down + -1) later :=
          ⟨hsteady', hturn', hup'.trans hup, hdown', by rw [turnOf]; omega,
            by rw [turnOf]; omega, by omega, by omega⟩
        refine ih hlater ?_
        simp only [turnOf]
        split at hleft <;> split <;> omega

/-- Both counters begin at the input, and it may be the turn of either. -/
theorem ends_set (h : Steady x memory) (hx : x + x ≠ 0) (hup : memory.slot 46 = x)
    (hdown : memory.slot 53 = x) :
    Answers x (16 * x.toInt.natAbs + 3) (.row 18) memory := by
  -- Both counters start at the tested value, whichever of them is due
  obtain ⟨way, hway⟩ : ∃ way, memory.Shows turnSlots (Int64.ofInt (turnOf way)) := by
    rcases h.turn with hfirst | hsecond
    · exact ⟨.up, hfirst⟩
    · exact ⟨.down, hsecond⟩
  have hshows : x = Int64.ofInt x.toInt := x.ofInt_toInt.symm
  have hcounting : Counting x way x.toInt x.toInt memory := by
    have hturn : turnOf way = 0 ∨ turnOf way = 1 := by cases way <;> simp [turnOf]
    exact ⟨h, hway, hup.trans hshows, hdown.trans hshows, by omega, by omega, by omega, by omega⟩
  refine (ends_counting hx (2 * x.toInt.natAbs) hcounting ?_).mono (by omega)
  -- Of the two counters one reaches zero within as many turns as the value has
  unfold turnsLeft
  cases way <;> simp only [turnOf] <;> split <;> omega

/-! ## The whole test -/

/-- The number of firings that a test may need: few if doubling the input gives zero. -/
def cost (x : Value) : Nat :=
  if x + x = 0 then 6 else 16 * x.toInt.natAbs + 10

theorem cost_le (x : Value) : cost x ≤ 16 * x.toInt.natAbs + 10 := by
  unfold cost
  split <;> omega

/-- **The sign test answers right**, from any steady memory. -/
theorem ends (h : Steady x memory) : Answers x (cost x) (.row 3) memory := by
  have hdouble : Source.value (memory.write [8, 11, 60, 63] false 1) (.sum 6 7) = x + x := by
    simp [Source.value, h.input 6 (by decide), h.input 7 (by decide)]
  unfold cost
  -- Zero and the least value are answered at once, every other value is counted
  by_cases hzero : x + x = 0
  · rw [if_pos hzero]
    refine .constant 5 rfl h (h.write (by decide) _ _) (fun h₁ => ?_) (Nat.le_refl _)
    refine .zero 3 rfl h₁ (hdouble.trans hzero) (h₁.write (by decide) _ _) (fun h₂ => ?_)
      (Nat.le_refl _)
    refine .straight 0 rfl h₂ rfl (h₂.write (by decide) _ _) (fun h₃ => .exit h₃ ?_)
      (Nat.le_refl _)
    rw [Value.add_self_eq_zero_iff] at hzero
    rw [answer, if_neg (by omega)]
  · rw [if_neg hzero]
    refine .constant (16 * x.toInt.natAbs + 9) rfl h (h.write (by decide) _ _) (fun h₁ => ?_)
      (Nat.le_refl _)
    refine .other (16 * x.toInt.natAbs + 7) rfl h₁ hdouble hzero (h₁.write (by decide) _ _)
      (fun h₂ => ?_) (Nat.le_refl _)
    refine .straight (v := x) (16 * x.toInt.natAbs + 5) rfl h₂ ?_ (h₂.write (by decide) _ _)
      (fun h₃ => ?_) (Nat.le_refl _)
    · rw [Source.value, h₂.input 16 (by decide), h₂.zeros 17 (by decide), Int64.add_zero]
    refine .straight (v := x) (16 * x.toInt.natAbs + 3) rfl h₃ ?_ (h₃.write (by decide) _ _)
      (fun h₄ => ?_) (Nat.le_refl _)
    · rw [Source.value, h₃.input 21 (by decide), h₃.zeros 22 (by decide), Int64.add_zero]
    exact ends_set h₄ hzero (by simp) (by simp)

/-! ## The network -/

/-- The chart of a network of its own. -/
def chart : Chart where
  inputs := [[0, 5, 6, 7, 13, 16, 18, 21]]
  exits := 2
  gives := true
  start := 3
  rows

/-- The library builds what the chart says. -/
theorem follows : Arithmetic.library.follows "?+" chart = true :=
  Library.follows_of_sketched (by decide +kernel)

/-- **The network tells whether its input is positive.** -/
theorem meets : chart.Meets (fun inputs => Steady (inputs 0))
    (fun inputs exit _ => exit = answer (inputs 0))
    fun inputs => cost (inputs 0) where
  fresh := steady_zero
  idle h hsame := hsame 0 (by decide) ▸ h
  write {_ _ index _} emits value hslots h := by
    -- The tested value is the only input, and writing it leaves the state between runs alone
    match index, hslots with
    | 0, rfl =>
      exact h.renew (Memory.shows_write _ (by decide) emits value)
        (Memory.agrees_write _ (by decide) emits value)
  ends := ends
  exits h := by
    rw [h, answer]
    split <;> decide

end TokenNet.SignTest
