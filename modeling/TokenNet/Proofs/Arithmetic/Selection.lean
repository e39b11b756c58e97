import TokenNet.Proofs.Arithmetic.Difference

/-!
# The selection by sign

A selection subtracts its second input from its first, tests the sign of the difference, and gives
one of the inputs out.  The maximum and the minimum are built alike and differ only in which input
is wired to which copy, so they have the same rows.

The difference wraps around.  Where it does, its sign is not that of the comparison, and the input
that is given out is the wrong one.

## Main statements

- `Selection.ends`: the input that is given out, and the exit.
- `Selection.choice_eq_best_iff`: it is the right one just when the difference does not wrap.
-/

namespace TokenNet

/-- The networks that select one of their inputs. -/
inductive Selection where
  | maximum
  | minimum
deriving DecidableEq, Repr

namespace Selection

/-- The input that is given out if the difference is positive. -/
def preferred (selection : Selection) (x y : Value) : Value :=
  match selection with
  | maximum => x
  | minimum => y

/-- The input that is given out if it is not. -/
def otherwise (selection : Selection) (x y : Value) : Value :=
  match selection with
  | maximum => y
  | minimum => x

/-- The input that is given out. -/
def choice (selection : Selection) (x y : Value) : Value :=
  if 0 < (x - y).toInt then selection.preferred x y else selection.otherwise x y

/-- The larger of two values, or the smaller, as signed integers. -/
def best (selection : Selection) (x y : Value) : Value :=
  if y.toInt < x.toInt then selection.preferred x y else selection.otherwise x y

/-! ## The chart -/

/-- The difference as a part of a selection.  Its outlet shows wherever the sign test takes its
input. -/
def difference : Placement :=
  ⟨2, 2, 123, [125, 130, 131, 132, 138, 141, 143, 146], [.row 89, .row 89]⟩

/-- The sign test as a part of a selection. -/
def signTest : Placement := ⟨86, 125, 65, [], [.row 134, .row 137]⟩

/-- The chart of a selection. -/
def rows : Listing := [
  (134, ⟨.sum 193 194, [], true, ⟨.exit 0, 2⟩, ⟨.exit 0, 2⟩⟩),
  (137, ⟨.sum 198 199, [], true, ⟨.exit 1, 2⟩, ⟨.exit 1, 2⟩⟩)] ++
  difference.listing Difference.rows ++ signTest.listing SignTest.rows

theorem difference_fits : difference.Fits Difference.rows rows :=
  ⟨by decide, by decide⟩

theorem signTest_fits : signTest.Fits SignTest.rows rows :=
  ⟨by decide, by decide⟩

/-! ## What a run keeps -/

/-- The slots of the inputs that are given out, and of constant zeros. -/
def ownSlots : List Nat := [193, 194, 198, 199]

/-- What the own slots of a selection show. -/
structure Ready (selection : Selection) (x y : Value) (memory : Memory) : Prop where
  preferred : memory.slot 198 = selection.preferred x y
  otherwise : memory.slot 193 = selection.otherwise x y
  zeros : memory.Shows [194, 199] 0

/-- What holds between runs, and at every moment of a run.  The sign test has taken in a difference,
but not always the one of the inputs. -/
structure Steady (selection : Selection) (x y : Value) (memory : Memory) : Prop where
  ready : Ready selection x y memory
  minus : Difference.Steady x y (difference.view memory)
  sign : ∃ d, SignTest.Steady d (signTest.view memory)

/-- The slots that only the parts or the outside write. -/
def steadySlots : List Nat :=
  ownSlots ++ Difference.steadySlots.map (· + difference.slots) ++
    SignTest.steadySlots.map (· + signTest.slots)

variable {selection : Selection} {x y : Value} {memory later : Memory}

theorem Ready.congr (h : Ready selection x y memory) (hsame : later.Agrees memory ownSlots) :
    Ready selection x y later :=
  ⟨(hsame 198 (by decide)).trans h.preferred, (hsame 193 (by decide)).trans h.otherwise,
    h.zeros.congr (hsame.mono (by decide))⟩

theorem Steady.congr (h : Steady selection x y memory) (hsame : later.Agrees memory steadySlots) :
    Steady selection x y later := by
  obtain ⟨d, hsign⟩ := h.sign
  refine ⟨h.ready.congr (hsame.mono (by decide)), h.minus.congr ?_, d, hsign.congr ?_⟩
  · exact Placement.agrees_view (hsame.mono (by decide))
  · exact Placement.agrees_view (hsame.mono (by decide))

theorem Steady.write (h : Steady selection x y memory) {written : List Nat}
    (hother : ∀ s ∈ steadySlots, s ∉ written) (emits : Bool) (value : Value) :
    Steady selection x y (memory.write written emits value) :=
  h.congr (memory.agrees_write hother emits value)

/-- New inputs in the place of the old ones. -/
theorem Steady.renew (h : Steady selection x y memory) {x' y' : Value}
    (hready : Ready selection x' y' later) (hminus : Difference.Steady x' y' (difference.view later))
    (hother : later.Agrees memory (SignTest.steadySlots.map (· + signTest.slots))) :
    Steady selection x' y' later := by
  obtain ⟨d, hsign⟩ := h.sign
  exact ⟨hready, hminus, d, hsign.congr (Placement.agrees_view hother)⟩

/-- The outlet of the difference shows at all inputs of the sign test. -/
theorem shows_outlet {d : Value} (h : SignTest.Steady d (signTest.view memory)) :
    memory.Shows difference.outlet d := by
  have hinputs : ∀ s ∈ difference.outlet,
      ∃ t ∈ SignTest.inputSlots, t + signTest.slots = s := by decide
  intro s hs
  obtain ⟨t, ht, rfl⟩ := hinputs s hs
  exact h.input t ht

/-- The difference keeps what the selection keeps, and hands its result to the sign test. -/
theorem Steady.of_difference {frame outer inner : Memory} (h : Steady selection x y frame)
    (hviews : difference.Views frame outer inner)
    (hinner : Difference.Steady x y inner) :
    Steady selection x y outer ∧ SignTest.Steady inner.out (signTest.view outer) := by
  obtain ⟨d, hsign⟩ := h.sign
  have hsign' : SignTest.Steady inner.out (signTest.view outer) := by
    refine hsign.renew (fun s hs => hviews.outlet _ ?_)
      (Placement.agrees_view (hviews.agrees_elsewhere (by decide)))
    revert s
    decide
  exact ⟨⟨h.ready.congr (hviews.agrees_elsewhere (by decide)),
    hinner.congr (hviews.agrees_inside (by decide)), _, hsign'⟩, hsign'⟩

/-- The sign test keeps what the selection keeps. -/
theorem Steady.of_signTest {frame outer inner : Memory} (h : Steady selection x y frame) {d : Value}
    (hviews : signTest.Views frame outer inner) (hinner : SignTest.Steady d inner) :
    Steady selection x y outer := by
  refine ⟨h.ready.congr (hviews.agrees_elsewhere (by decide)),
    h.minus.congr (Placement.agrees_view (hviews.agrees_elsewhere (by decide))), d, ?_⟩
  exact hinner.congr (hviews.agrees_inside (by decide))

/-- From all zeros on, everything is steady. -/
theorem steady_zero (selection : Selection) (h : ∀ s, memory.slot s = 0) :
    Steady selection 0 0 memory := by
  refine ⟨⟨?_, ?_, fun s _ => h s⟩, Difference.steady_zero fun s => h (s + _), 0,
    SignTest.steady_zero fun s => h (s + _)⟩
  · cases selection <;> exact h 198
  · cases selection <;> exact h 193

/-! ## The selection -/

/-- The exit of a selection, which tells which input was given out. -/
def answer (x y : Value) : Nat :=
  SignTest.answer (x - y)

/-- From a place the selection comes to the right exit with its choice. -/
abbrev Selects (selection : Selection) (x y : Value) (bound : Nat) (place : Place)
    (memory : Memory) : Prop :=
  Ends rows (Steady selection x y)
    (fun exit memory => exit = answer x y ∧ memory.out = selection.choice x y) bound place memory

/-- Once the sign is known, an input is given out. -/
theorem ends_tested (h : Steady selection x y memory) :
    Selects selection x y 3 (signTest.place (.exit (SignTest.answer (x - y)))) memory := by
  -- The sign of the difference decides which of two rows gives out its input
  by_cases hpositive : 0 < (x - y).toInt
  · rw [SignTest.answer, if_pos hpositive]
    refine .straight (v := selection.preferred x y) 0 rfl h ?_ (h.write (by decide) _ _)
      (fun h₁ => .exit h₁ ?_) (Nat.le_refl _)
    · rw [Source.value, h.ready.preferred, h.ready.zeros 199 (by decide), Int64.add_zero]
    · rw [answer, SignTest.answer, if_pos hpositive, choice, if_pos hpositive]
      exact ⟨rfl, rfl⟩
  · rw [SignTest.answer, if_neg hpositive]
    refine .straight (v := selection.otherwise x y) 0 rfl h ?_ (h.write (by decide) _ _)
      (fun h₁ => .exit h₁ ?_) (Nat.le_refl _)
    · rw [Source.value, h.ready.otherwise, h.ready.zeros 194 (by decide), Int64.add_zero]
    · rw [answer, SignTest.answer, if_neg hpositive, choice, if_neg hpositive]
      exact ⟨rfl, rfl⟩

/-- Once the difference is there, its sign is tested. -/
theorem ends_subtracted (h : Steady selection x y memory)
    (hsign : SignTest.Steady (x - y) (signTest.view memory)) :
    Selects selection x y (SignTest.cost (x - y) + 3) (.row 89) memory := by
  refine Ends.inside 3 signTest_fits (SignTest.ends hsign) ?_ ?_
    (signTest.views_view _ (by decide)) (Nat.le_refl _)
  · exact fun hviews hinner => h.of_signTest hviews hinner
  · rintro exit outer inner hviews hinner rfl
    exact ends_tested (h.of_signTest hviews hinner)

/-- The number of firings that a selection may need. -/
def cost (x y : Value) : Nat :=
  Negation.cost y + SignTest.cost (x - y) + 5

theorem cost_le (x y : Value) :
    cost x y ≤ 22 * y.toInt.natAbs + 16 * (x - y).toInt.natAbs + 32 := by
  have hnegation := Negation.cost_le y
  have htest := SignTest.cost_le (x - y)
  unfold cost
  omega

/-- **A selection gives out its choice**, from any steady memory. -/
theorem ends (h : Steady selection x y memory) :
    Selects selection x y (cost x y) (.row 8) memory := by
  obtain ⟨d, hsign⟩ := h.sign
  refine Ends.inside (SignTest.cost (x - y) + 3) difference_fits (Difference.ends h.minus) ?_ ?_
    (Placement.views_of_shows (shows_outlet hsign)) (by unfold cost; omega)
  · exact fun hviews hinner => (h.of_difference hviews hinner).1
  · rintro exit outer inner hviews hinner ⟨rfl, hout⟩
    obtain ⟨hsteady, hsign'⟩ := h.of_difference hviews hinner
    rw [hout] at hsign'
    -- Both exits of the difference lead to the sign test
    rw [show difference.place (.exit (Difference.answer x y)) = .row 89 by
      unfold Difference.answer
      split <;> rfl]
    exact ends_subtracted hsteady hsign'

/-- **The choice is the right one just when the difference does not wrap.** -/
theorem choice_eq_best_iff (selection : Selection) (x y : Value) :
    selection.choice x y = selection.best x y ↔
      -2 ^ 63 ≤ x.toInt - y.toInt ∧ x.toInt - y.toInt < 2 ^ 63 := by
  have hapart : selection.preferred x y = selection.otherwise x y → x = y := by
    cases selection with
    | maximum => exact id
    | minimum => exact Eq.symm
  have hsign := Value.sub_pos_iff x y
  unfold choice best
  -- The two disagree just when only one of the signs is positive
  by_cases hpositive : 0 < (x - y).toInt <;> by_cases hless : y.toInt < x.toInt
  · simp only [hpositive, hless, if_true, true_iff]
    omega
  · simp only [hpositive, hless, if_true, if_false]
    constructor
    · intro hsame
      obtain rfl := hapart hsame
      omega
    · omega
  · simp only [hpositive, hless, if_true, if_false]
    constructor
    · intro hsame
      obtain rfl := hapart hsame.symm
      omega
    · omega
  · simp only [hpositive, hless, if_false, true_iff]
    omega

/-! ## The networks -/

/-- The identifier of a network that selects. -/
def identifier : Selection → String
  | maximum => "max"
  | minimum => "min"

/-- The slots of the copy to which an input is wired: the one that is given out if the difference is
positive, or the other. -/
def copySlots (positive : Bool) : List Nat :=
  if positive then [195, 198] else [190, 193]

/-- The chart of a network that selects. -/
def chart (selection : Selection) : Chart where
  inputs := [[0, 2, 123] ++ copySlots (selection = maximum),
    [1, 3, 4, 7, 8, 9, 10, 13, 20, 25, 26, 27, 33, 36, 38, 41, 85, 88, 90, 93] ++
      copySlots (selection = minimum)]
  exits := 2
  gives := true
  start := 8
  rows

/-- The library builds what the charts say. -/
theorem follows (selection : Selection) :
    Arithmetic.library.follows selection.identifier selection.chart = true := by
  apply Library.follows_of_sketched
  cases selection with
  | maximum => decide +kernel
  | minimum => decide +kernel

/-- **The network gives out its choice.** -/
theorem meets (selection : Selection) : selection.chart.Meets
    (fun inputs => Steady selection (inputs 0) (inputs 1))
    (fun inputs exit memory => exit = answer (inputs 0) (inputs 1) ∧
      memory.out = selection.choice (inputs 0) (inputs 1))
    fun inputs => cost (inputs 0) (inputs 1) where
  fresh := steady_zero selection
  idle h hsame := hsame 0 Nat.zero_lt_two ▸ hsame 1 Nat.one_lt_two ▸ h
  write {_ _ index _} emits value hslots h := by
    -- An input is written to both copies and to one side of the difference
    cases selection <;>
    · rcases index with _ | _ | index
      · cases hslots
        refine h.renew ⟨?_, ?_, h.ready.zeros.write (by decide) _ _⟩ (h.minus.renewLeft ?_ ?_)
          (Memory.agrees_write _ (by decide) emits value)
        · simp [preferred, copySlots, Use.inputs, h.ready.preferred]
        · simp [otherwise, copySlots, Use.inputs, h.ready.otherwise]
        · simp [Placement.view, difference, Use.inputs]
        · exact Placement.agrees_view (Memory.agrees_write _ (by decide) emits value)
      · cases hslots
        refine h.renew ⟨?_, ?_, h.ready.zeros.write (by decide) _ _⟩ (h.minus.renewRight ?_ ?_ ?_)
          (Memory.agrees_write _ (by decide) emits value)
        · simp [preferred, copySlots, Use.inputs, h.ready.preferred]
        · simp [otherwise, copySlots, Use.inputs, h.ready.otherwise]
        · simp [Placement.view, difference, copySlots]
        · exact Placement.shows_view (Memory.shows_write _ (by decide) emits value)
        · exact Placement.agrees_view (Memory.agrees_write _ (by decide) emits value)
      · cases hslots
  ends := ends
  exits h := by
    rw [h.1, answer, SignTest.answer]
    split
    · exact Nat.one_lt_two
    · exact Nat.zero_lt_two

end Selection

end TokenNet
