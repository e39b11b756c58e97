import TokenNet.Proofs.Arithmetic.Selection

/-!
# Networks that go by a sign

The sign test leaves by an exit that tells whether its input is positive.  The maximum and the
minimum choose one of their inputs by the sign of the difference, which wraps around; so they give
out the larger input, or the smaller, only as long as the difference is in range.

## Main statements

- `Network.sign_test_decides`: by which exit a sign test leaves.
- `Network.selection_goes_by_sign`: which input a maximum or a minimum gives out.
-/

namespace TokenNet.Network

variable {options : BuildOptions} {net : Network}

/-! ## The sign test -/

/-- **A sign test leaves by its second exit just when its input is positive**, whatever the options
of its build, whatever was written before and however earlier runs ended.  The limit on firings is
the only reason to fail, and it does not stop a run if it grows with the input. -/
theorem sign_test_decides (hnet : Arithmetic.library.instantiate "?+" options = .ok net)
    (uses : List Use) :
    let x := Use.lastWritten uses 0
    let answer := ((net.performAll (uses.map (Use.call net.root))).1.perform .step).2
    (∀ reply, answer = .ok reply → ∃ exit steps output,
      reply = .outcome ⟨⟨⟨exit⟩, some exit, steps⟩, output⟩ ∧
        exit = if 0 < x.toInt then 1 else 0) ∧
    (∀ refusal, answer = .error refusal →
      refusal = .fault (.chainExhausted options.limits.chainLimit)) ∧
    (16 * x.toInt.natAbs + 16 ≤ options.limits.chainLimit → ∃ reply, answer = .ok reply) := by
  intro x answer
  have hanswer : SignTest.chart.Answers _ (SignTest.cost x) _ answer :=
    SignTest.meets.answered_of_follows SignTest.follows hnet uses
  have hcost := SignTest.cost_le x
  clear_value answer
  -- An answer is no refusal, and a refusal no answer
  cases hanswer with
  | ended steps hdone =>
    refine ⟨?_, ?_, fun _ => ⟨_, rfl⟩⟩
    · rintro reply hreply
      exact ⟨_, steps, _, (Except.ok.inj hreply).symm, hdone⟩
    · rintro refusal hrefusal
      cases hrefusal
  | exhausted hless =>
    refine ⟨?_, ?_, fun hlimit => absurd hlimit (by omega)⟩
    · rintro reply hreply
      cases hreply
    · rintro refusal hrefusal
      exact (Except.error.inj hrefusal).symm

/-- Whatever becomes of a run on a very large input, five is found positive in the next one. -/
theorem sign_test_of_five : ∃ net, Arithmetic.library.instantiate "?+" {} = .ok net ∧
    ∃ steps output, ((net.performAll [.writeInlet net.root 0 4000000000000000000, .step,
      .writeInlet net.root 0 5]).1.perform .step).2 =
        .ok (.outcome ⟨⟨⟨1⟩, some 1, steps⟩, output⟩) := by
  obtain ⟨net, hnet⟩ := Library.exists_of_follows SignTest.follows
  obtain ⟨hended, _, henough⟩ :=
    sign_test_decides hnet [.write 0 4000000000000000000, .run, .write 0 5]
  obtain ⟨reply, hreply⟩ := henough (by decide)
  obtain ⟨exit, steps, output, rfl, rfl⟩ := hended reply hreply
  exact ⟨net, hnet, steps, output, hreply⟩

/-! ## The maximum and the minimum -/

/-- A run of a selection is answered with its choice, or was stopped on its way. -/
theorem selection_answers (selection : Selection)
    (hnet : Arithmetic.library.instantiate selection.identifier options = .ok net)
    (uses : List Use) :
    let x := Use.lastWritten uses 0
    let y := Use.lastWritten uses 1
    let exit := if 0 < (x - y).toInt then 1 else 0
    let limit := options.limits.chainLimit
    let answer := ((net.performAll (uses.map (Use.call net.root))).1.perform .step).2
    (∃ steps, answer =
      .ok (.outcome ⟨⟨⟨exit⟩, some exit, steps⟩, some (selection.choice x y)⟩)) ∨
    (limit < Selection.cost x y ∧ answer = .error (.fault (.chainExhausted limit))) := by
  intro x y exit limit answer
  have hanswer : selection.chart.Answers _ (Selection.cost x y) limit answer :=
    selection.meets.answered_of_follows selection.follows hnet uses
  clear_value answer
  -- A sign test on the difference has been passed, or the limit was too small for it
  cases hanswer with
  | ended steps hdone =>
    obtain ⟨rfl, hout⟩ := hdone
    exact .inl ⟨steps, by rw [hout]; rfl⟩
  | exhausted hless => exact .inr ⟨hless, rfl⟩

/-- **A selection goes by the sign of the difference**, whatever the options of its build, whatever
was written before and however earlier runs ended.  A run that ends gives out the larger input, or
the smaller, just when the difference of the inputs does not wrap around; the limit on firings is
the only reason to fail. -/
theorem selection_goes_by_sign (selection : Selection)
    (hnet : Arithmetic.library.instantiate selection.identifier options = .ok net)
    (uses : List Use) :
    let x := Use.lastWritten uses 0
    let y := Use.lastWritten uses 1
    let answer := ((net.performAll (uses.map (Use.call net.root))).1.perform .step).2
    (∀ reply, answer = .ok reply → ∃ exit steps output,
      reply = .outcome ⟨⟨⟨exit⟩, some exit, steps⟩, some output⟩ ∧
        exit = (if 0 < (x - y).toInt then 1 else 0) ∧ output = selection.choice x y ∧
        (output = selection.best x y ↔
          -2 ^ 63 ≤ x.toInt - y.toInt ∧ x.toInt - y.toInt < 2 ^ 63)) ∧
    (∀ refusal, answer = .error refusal →
      refusal = .fault (.chainExhausted options.limits.chainLimit)) ∧
    (22 * y.toInt.natAbs + 16 * (x - y).toInt.natAbs + 32 ≤ options.limits.chainLimit →
      ∃ reply, answer = .ok reply) := by
  intro x y answer
  have hcost := Selection.cost_le x y
  have hanswer := selection_answers selection hnet uses
  change (∃ _, answer = _) ∨ (_ ∧ answer = _) at hanswer
  clear_value answer
  -- An answer is no refusal and a refusal no answer, so each case settles two of the parts
  rcases hanswer with ⟨steps, rfl⟩ | ⟨hless, rfl⟩
  · refine ⟨?_, ?_, fun _ => ⟨_, rfl⟩⟩
    · rintro reply hreply
      exact ⟨_, steps, _, (Except.ok.inj hreply).symm, rfl, rfl,
        selection.choice_eq_best_iff x y⟩
    · rintro refusal hrefusal
      cases hrefusal
  · refine ⟨?_, ?_, fun hlimit => absurd hlimit ?_⟩
    · rintro reply hreply
      cases hreply
    · rintro refusal hrefusal
      exact (Except.error.inj hrefusal).symm
    · exact Nat.not_le.mpr (Nat.lt_of_lt_of_le hless hcost)

/-- The minimum of minus seven and three, after a run on other inputs, is minus seven. -/
theorem minimum_of_minus_seven : ∃ net, Arithmetic.library.instantiate "min" {} = .ok net ∧
    ∃ steps, ((net.performAll [.writeInlet net.root 0 4, .step, .writeInlet net.root 0 (-7),
      .writeInlet net.root 1 3]).1.perform .step).2 =
        .ok (.outcome ⟨⟨⟨0⟩, some 0, steps⟩, some (-7)⟩) := by
  obtain ⟨net, hnet⟩ := Library.exists_of_follows (Selection.follows .minimum)
  obtain ⟨hended, _, henough⟩ :=
    selection_goes_by_sign .minimum hnet [.write 0 4, .run, .write 0 (-7), .write 1 3]
  obtain ⟨reply, hreply⟩ := henough (by decide)
  obtain ⟨exit, steps, output, rfl, rfl, rfl, _⟩ := hended reply hreply
  exact ⟨net, hnet, steps, hreply⟩

/-- The maximum of zero and the least value is given out as the least value: the difference is the
least value, too, because it wraps around. -/
theorem maximum_of_least : ∃ net, Arithmetic.library.instantiate "max" {} = .ok net ∧
    ∃ steps, ((net.performAll [.writeInlet net.root 0 0,
      .writeInlet net.root 1 Int64.minValue]).1.perform .step).2 =
        .ok (.outcome ⟨⟨⟨0⟩, some 0, steps⟩, some Int64.minValue⟩) ∧
      Int64.minValue.toInt < (0 : Value).toInt := by
  obtain ⟨net, hnet⟩ := Library.exists_of_follows (Selection.follows .maximum)
  have hanswer := selection_answers .maximum hnet [.write 0 0, .write 1 Int64.minValue]
  rcases hanswer with ⟨steps, hended⟩ | ⟨hless, _⟩
  · exact ⟨net, hnet, steps, hended, by decide⟩
  · exact absurd hless (by decide)

end TokenNet.Network
