import TokenNet.Proofs.Arithmetic.Difference

/-!
# The comparison

A comparison subtracts its inputs and only tells whether the difference is zero.

## Main statements

- `Comparison.ends`: the answer and its exit.
-/

namespace TokenNet.Comparison

/-- The difference as a part of the comparison. -/
def difference : Placement := ⟨4, 6, 123, [], [.row 90, .row 93]⟩

/-- The chart of the comparison. -/
def rows : Listing := [
  (3, ⟨.constant 1, [129, 132], false, ⟨.row 10, 0⟩, ⟨.row 10, 0⟩⟩),
  (90, ⟨.sum 132 133, [], true, ⟨.exit 1, 2⟩, ⟨.exit 1, 2⟩⟩),
  (93, ⟨.sum 137 138, [], true, ⟨.exit 0, 2⟩, ⟨.exit 0, 2⟩⟩)] ++
  difference.listing Difference.rows

theorem difference_fits : difference.Fits Difference.rows rows :=
  ⟨by decide, by decide⟩

/-! ## What a run keeps -/

/-- The slots of constant zeros, besides those of the difference. -/
def zeroSlots : List Nat := [133, 137, 138]

/-- What holds between runs, and at every moment of a run. -/
structure Steady (x y : Value) (memory : Memory) : Prop where
  zeros : memory.Shows zeroSlots 0
  part : Difference.Steady x y (difference.view memory)

/-- The slots that only the difference or the outside writes. -/
def steadySlots : List Nat := zeroSlots ++ Difference.steadySlots.map (· + difference.slots)

variable {x y : Value} {memory : Memory}

theorem Steady.congr (h : Steady x y memory) {later : Memory}
    (hsame : later.Agrees memory steadySlots) : Steady x y later :=
  ⟨h.zeros.congr (hsame.mono fun _ => List.mem_append_left _),
    h.part.congr (Placement.agrees_view (hsame.mono fun _ => List.mem_append_right _))⟩

theorem Steady.write (h : Steady x y memory) {written : List Nat}
    (hother : ∀ s ∈ steadySlots, s ∉ written) (emits : Bool) (value : Value) :
    Steady x y (memory.write written emits value) :=
  h.congr (memory.agrees_write hother emits value)

/-- The slots that a new first input leaves alone. -/
def leftOtherSlots : List Nat :=
  zeroSlots ++
    (Negation.steadySlots.map (· + Difference.negation.slots)).map (· + difference.slots)

/-- The slots that show the second input. -/
def rightSlots : List Nat :=
  (Negation.allInputSlots.map (· + Difference.negation.slots)).map (· + difference.slots)

/-- The slots that a new second input leaves alone. -/
def rightOtherSlots : List Nat :=
  zeroSlots ++
    (121 :: Negation.otherSlots.map (· + Difference.negation.slots)).map (· + difference.slots)

/-- A new first input in the place of the old one. -/
theorem Steady.renewLeft (h : Steady x y memory) {later : Memory} {x' : Value}
    (hminuend : later.slot 127 = x') (hother : later.Agrees memory leftOtherSlots) :
    Steady x' y later := by
  refine ⟨h.zeros.congr (hother.mono fun _ => List.mem_append_left _),
    h.part.renewLeft hminuend (Placement.agrees_view (hother.mono fun _ => ?_))⟩
  exact List.mem_append_right _

/-- A new second input in the place of the old one. -/
theorem Steady.renewRight (h : Steady x y memory) {later : Memory} {y' : Value}
    (hinput : later.Shows rightSlots y') (hother : later.Agrees memory rightOtherSlots) :
    Steady x y' later := by
  -- The first input and all inner slots of the difference are what they were
  have hpart : (difference.view later).Agrees (difference.view memory)
      (121 :: Negation.otherSlots.map (· + Difference.negation.slots)) :=
    Placement.agrees_view (hother.mono fun _ => List.mem_append_right _)
  refine ⟨h.zeros.congr (hother.mono fun _ => List.mem_append_left _), h.part.renewRight ?_ ?_ ?_⟩
  · exact hpart 121 List.mem_cons_self
  · exact Placement.shows_view hinput
  · exact hpart.mono fun _ => List.mem_cons_of_mem 121

/-- The difference keeps what the comparison keeps. -/
theorem Steady.of_views {frame outer inner : Memory} (h : Steady x y frame)
    (hviews : difference.Views frame outer inner) (hinner : Difference.Steady x y inner) :
    Steady x y outer := by
  have houtside : ∀ s ∈ zeroSlots, ¬ difference.Inside s := by decide
  refine ⟨h.zeros.congr fun s hs => hviews.elsewhere s (houtside s hs) List.not_mem_nil, ?_⟩
  refine hinner.congr fun s hs => hviews.slots s ?_
  revert s
  decide

/-- From all zeros on, everything is steady. -/
theorem steady_zero (h : ∀ s, memory.slot s = 0) : Steady 0 0 memory :=
  ⟨fun s _ => h s, Difference.steady_zero fun s => h (s + difference.slots)⟩

/-- The answer, which is both the exit and the output of the comparison. -/
def answer (x y : Value) : Nat :=
  if x = y then 1 else 0

/-- From a place the comparison comes to the right exit with the right answer. -/
abbrev Compares (x y : Value) (bound : Nat) (place : Place) (memory : Memory) : Prop :=
  Ends rows (Steady x y)
    (fun exit memory => exit = answer x y ∧ memory.out = if x = y then 1 else 0) bound place memory

theorem sub_eq_zero_iff (x y : Value) : x - y = 0 ↔ x = y := by
  constructor
  · intro h
    grind
  · rintro rfl
    exact Int64.sub_self x

/-- Once the inputs are subtracted, the answer is given. -/
theorem ends_subtracted (h : Steady x y memory) (hone : memory.slot 132 = 1) :
    Compares x y 3 (difference.place (.exit (Difference.answer x y))) memory := by
  rw [Difference.answer]
  -- The difference leaves by one exit or the other, and each leads to a row of its own
  by_cases hsame : x = y
  · rw [if_pos ((sub_eq_zero_iff x y).mpr hsame)]
    refine .straight (v := 1) 0 rfl h ?_ (h.write (by decide) _ _) (fun h₁ => .exit h₁ ?_)
      (Nat.le_refl _)
    · rw [Source.value, hone, h.zeros 133 (by decide), Int64.add_zero]
    · rw [answer, if_pos hsame, if_pos hsame]
      exact ⟨rfl, rfl⟩
  · rw [if_neg (mt (sub_eq_zero_iff x y).mp hsame)]
    refine .straight (v := 0) 0 rfl h ?_ (h.write (by decide) _ _) (fun h₁ => .exit h₁ ?_)
      (Nat.le_refl _)
    · rw [Source.value, h.zeros 137 (by decide), h.zeros 138 (by decide), Int64.add_zero]
    · rw [answer, if_neg hsame, if_neg hsame]
      exact ⟨rfl, rfl⟩

/-- **The comparison is right**, from any steady memory. -/
theorem ends (h : Steady x y memory) :
    Compares x y (Negation.cost y + 6) (.row 3) memory := by
  refine .constant (Negation.cost y + 5) rfl h (h.write (by decide) _ _) (fun h₁ => ?_)
    (Nat.le_refl _)
  -- The one is written first; then the token is inside the difference until that ends.
  refine Ends.inside 3 difference_fits (Difference.ends h₁.part) ?_ ?_
    (difference.views_view _ (by decide)) (Nat.le_refl _)
  · exact fun hviews hinner => h₁.of_views hviews hinner
  · rintro exit outer inner hviews hinner ⟨rfl, _⟩
    refine ends_subtracted (h₁.of_views hviews hinner) ?_
    exact hviews.elsewhere 132 (by decide) List.not_mem_nil

/-! ## The network -/

/-- The chart of a network of its own. -/
def chart : Chart where
  inputs := [[0, 6, 127],
    [1, 7, 8, 11, 12, 13, 14, 17, 24, 29, 30, 31, 37, 40, 42, 45, 89, 92, 94, 97]]
  exits := 2
  gives := true
  start := 3
  rows

/-- The library builds what the chart says. -/
theorem follows : Arithmetic.library.follows "==" chart = true :=
  Library.follows_of_sketched (by decide +kernel)

/-- **The network tells whether its inputs are equal.** -/
theorem meets : chart.Meets (fun inputs => Steady (inputs 0) (inputs 1))
    (fun inputs exit memory => exit = answer (inputs 0) (inputs 1) ∧
      memory.out = if inputs 0 = inputs 1 then 1 else 0)
    fun inputs => Negation.cost (inputs 1) + 6 where
  fresh := steady_zero
  idle h hsame := hsame 0 (by decide) ▸ hsame 1 (by decide) ▸ h
  write {_ _ index _} emits value hslots h := by
    -- The first input shows at the minuend only, the second one inside the negation
    match index, hslots with
    | 0, rfl =>
      exact h.renewLeft (by simp [Use.inputs]) (Memory.agrees_write _ (by decide) emits value)
    | 1, rfl =>
      exact h.renewRight (Memory.shows_write _ (by decide) emits value)
        (Memory.agrees_write _ (by decide) emits value)
  ends := ends
  exits h := by
    rw [h.1, answer]
    split <;> decide

end TokenNet.Comparison
