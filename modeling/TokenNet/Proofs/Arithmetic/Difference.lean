import TokenNet.Proofs.Arithmetic.Negation

/-!
# The difference

A difference has its second input negated and adds the first.

## Main statements

- `Difference.ends`: the difference and its exit.
-/

namespace TokenNet.Difference

/-- The negation as a part of the difference. -/
def negation : Placement := ⟨2, 2, 119, [122], [.row 83]⟩

/-- The chart of the difference. -/
def rows : Listing := [
  (83, ⟨.sum 121 122, [], true, ⟨.exit 0, 1⟩, ⟨.exit 1, 1⟩⟩)] ++
  negation.listing Negation.rows

theorem negation_fits : negation.Fits Negation.rows rows :=
  ⟨by decide, by decide⟩

/-! ## What a run keeps -/

/-- What holds between runs, and at every moment of a run. -/
structure Steady (x y : Value) (memory : Memory) : Prop where
  minuend : memory.slot 121 = x
  part : Negation.Steady y (negation.view memory)

/-- The slots that only the negation or the outside writes. -/
def steadySlots : List Nat := 121 :: Negation.steadySlots.map (· + negation.slots)

variable {x y : Value} {memory later : Memory}

/-- A new first input in the place of the old one. -/
theorem Steady.renewLeft (h : Steady x y memory) {x' : Value} (hminuend : later.slot 121 = x')
    (hother : later.Agrees memory (Negation.steadySlots.map (· + negation.slots))) :
    Steady x' y later :=
  ⟨hminuend, h.part.congr (Placement.agrees_view hother)⟩

/-- A new second input in the place of the old one. -/
theorem Steady.renewRight (h : Steady x y memory) {y' : Value}
    (hminuend : later.slot 121 = memory.slot 121)
    (hinput : later.Shows (Negation.allInputSlots.map (· + negation.slots)) y')
    (hother : later.Agrees memory (Negation.otherSlots.map (· + negation.slots))) :
    Steady x y' later :=
  ⟨hminuend.trans h.minuend,
    h.part.renew (Placement.shows_view hinput) (Placement.agrees_view hother)⟩

theorem Steady.congr (h : Steady x y memory) (hsame : later.Agrees memory steadySlots) :
    Steady x y later :=
  h.renewLeft ((hsame 121 List.mem_cons_self).trans h.minuend)
    (hsame.mono fun _ => List.mem_cons_of_mem 121)

theorem Steady.write (h : Steady x y memory) {written : List Nat}
    (hother : ∀ s ∈ steadySlots, s ∉ written) (emits : Bool) (value : Value) :
    Steady x y (memory.write written emits value) :=
  h.congr (memory.agrees_write hother emits value)

/-- The negation keeps what the difference keeps. -/
theorem Steady.of_views {frame outer inner : Memory} (h : Steady x y frame)
    (hviews : negation.Views frame outer inner) (hinner : Negation.Steady y inner) :
    Steady x y outer := by
  refine ⟨(hviews.elsewhere 121 (by decide) (by decide)).trans h.minuend, ?_⟩
  refine hinner.congr fun s hs => hviews.slots s ?_
  revert s
  decide

/-- From all zeros on, everything is steady. -/
theorem steady_zero (h : ∀ s, memory.slot s = 0) : Steady 0 0 memory :=
  ⟨h 121, Negation.steady_zero fun s => h (s + negation.slots)⟩

/-- The exit of the difference. -/
def answer (x y : Value) : Nat :=
  if x - y = 0 then 0 else 1

/-- From a place the difference comes to the right exit with the right result. -/
abbrev Subtracts (x y : Value) (bound : Nat) (place : Place) (memory : Memory) : Prop :=
  Ends rows (Steady x y) (fun exit memory => exit = answer x y ∧ memory.out = x - y) bound place
    memory

/-- Once the second input is negated, the sum is taken. -/
theorem ends_negated (h : Steady x y memory) (hnegated : memory.slot 122 = -y) :
    Subtracts x y 2 (.row 83) memory := by
  have hsum : Source.value memory (.sum 121 122) = x - y := by
    rw [Source.value, h.minuend, hnegated, Int64.sub_eq_add_neg]
  by_cases hzero : x - y = 0
  · refine .zero 0 rfl h (hsum.trans hzero) (h.write (by decide) _ _) (fun h₁ => .exit h₁ ?_)
      (Nat.le_refl _)
    rw [answer, if_pos hzero, hzero]
    exact ⟨rfl, rfl⟩
  · refine .other 0 rfl h hsum hzero (h.write (by decide) _ _) (fun h₁ => .exit h₁ ?_)
      (Nat.le_refl _)
    rw [answer, if_neg hzero]
    exact ⟨rfl, rfl⟩

/-- **The difference is right**, from any steady memory. -/
theorem ends (h : Steady x y memory) :
    Subtracts x y (Negation.cost y + 2) (.row 6) memory := by
  -- The token enters the negation, whose outlet shows in slot 122 when it ends
  refine Ends.inside 2 negation_fits (Negation.ends h.part) ?_ ?_
    (negation.views_view memory (by decide)) (Nat.le_refl _)
  · exact fun hviews hinner => h.of_views hviews hinner
  · rintro exit outer inner hviews hinner ⟨rfl, hout⟩
    exact ends_negated (h.of_views hviews hinner) ((hviews.outlet 122 (by decide)).trans hout)

/-! ## The network -/

/-- The chart of a network of its own. -/
def chart : Chart where
  inputs := [[0, 121],
    [1, 2, 5, 6, 7, 8, 11, 18, 23, 24, 25, 31, 34, 36, 39, 83, 86, 88, 91]]
  exits := 2
  gives := true
  start := 6
  rows

/-- The library builds what the chart says. -/
theorem follows : Arithmetic.library.follows "-" chart = true :=
  Library.follows_of_sketched (by decide +kernel)

/-- **The network subtracts its second input from its first.** -/
theorem meets : chart.Meets (fun inputs => Steady (inputs 0) (inputs 1))
    (fun inputs exit memory => exit = answer (inputs 0) (inputs 1) ∧
      memory.out = inputs 0 - inputs 1)
    fun inputs => Negation.cost (inputs 1) + 2 where
  fresh := steady_zero
  idle h hsame := hsame 0 (by decide) ▸ hsame 1 (by decide) ▸ h
  write {_ _ index _} emits value hslots h := by
    -- The first input shows at the minuend only, the second one inside the negation
    match index, hslots with
    | 0, rfl =>
      exact h.renewLeft (by simp [Use.inputs]) (Memory.agrees_write _ (by decide) emits value)
    | 1, rfl =>
      exact h.renewRight (by simp) (Memory.shows_write _ (by decide) emits value)
        (Memory.agrees_write _ (by decide) emits value)
  ends := ends
  exits h := by
    rw [h.1, answer]
    split <;> decide

end TokenNet.Difference
