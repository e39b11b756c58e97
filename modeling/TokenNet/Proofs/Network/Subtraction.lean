import TokenNet.Proofs.Arithmetic.Comparison

/-!
# Networks that subtract

Three networks of the library of arithmetic count to find a difference: the negation, the difference
and the comparison.  All of them work modulo 2^64, on every input, and a run that was stopped on its
way does not spoil the later ones.

## Main statements

- `Network.subtraction_wraps`: what a run of such a network answers.
-/

namespace TokenNet

/-- The networks that subtract. -/
inductive Subtraction where
  | negation
  | difference
  | comparison
deriving DecidableEq, Repr

namespace Subtraction

def identifier : Subtraction → String
  | negation => "-x"
  | difference => "-"
  | comparison => "=="

/-- The input that is negated on the way. -/
def operand : Subtraction → (Nat → Value) → Value
  | negation, inputs => inputs 0
  | difference, inputs => inputs 1
  | comparison, inputs => inputs 1

/-- The output for some inputs. -/
def output : Subtraction → (Nat → Value) → Value
  | negation, inputs => -inputs 0
  | difference, inputs => inputs 0 - inputs 1
  | comparison, inputs => if inputs 0 = inputs 1 then 1 else 0

/-- The exit by which a run leaves for some inputs. -/
def exit : Subtraction → (Nat → Value) → Nat
  | negation, _ => 0
  | difference, inputs => if inputs 0 - inputs 1 = 0 then 0 else 1
  | comparison, inputs => if inputs 0 = inputs 1 then 1 else 0

/-- The chart of the network. -/
def chart : Subtraction → Chart
  | negation => Negation.chart
  | difference => Difference.chart
  | comparison => Comparison.chart

theorem follows (operation : Subtraction) :
    Arithmetic.library.follows operation.identifier operation.chart = true := by
  cases operation with
  | negation => exact Negation.follows
  | difference => exact Difference.follows
  | comparison => exact Comparison.follows

theorem gives (operation : Subtraction) : operation.chart.gives = true := by
  cases operation <;> rfl

theorem meets (operation : Subtraction) : ∃ steady bound,
    operation.chart.Meets steady
      (fun inputs exit memory => exit = operation.exit inputs ∧
        memory.out = operation.output inputs) bound ∧
    ∀ inputs, bound inputs ≤ 22 * (operation.operand inputs).toInt.natAbs + 32 := by
  have hcost (inputs : Nat → Value) : Negation.cost (operation.operand inputs) + 6 ≤
      22 * (operation.operand inputs).toInt.natAbs + 32 := by
    have := Negation.cost_le (operation.operand inputs)
    omega
  -- Each operation has its own chart, and one bound covers the three
  cases operation with
  | negation =>
    exact ⟨_, _, Negation.meets, fun inputs => (Nat.le_add_right _ 6).trans (hcost inputs)⟩
  | difference =>
    exact ⟨_, _, Difference.meets, fun inputs => (Nat.le_add_right _ 4).trans (hcost inputs)⟩
  | comparison => exact ⟨_, _, Comparison.meets, hcost⟩

end Subtraction

namespace Network

/-- **A network that subtracts is right on all inputs**, whatever the options of its build, whatever
was written before and however earlier runs ended.  A run that ends leaves by the right exit with
the right output; the limit on firings is the only reason to fail, and it does not stop a run if it
grows with the operand. -/
theorem subtraction_wraps (operation : Subtraction) {options : BuildOptions} {net : Network}
    (hnet : Arithmetic.library.instantiate operation.identifier options = .ok net)
    (uses : List Use) :
    let inputs := Use.lastWritten uses
    let answer := ((net.performAll (uses.map (Use.call net.root))).1.perform .step).2
    (∀ reply, answer = .ok reply → ∃ steps, reply = .outcome
      ⟨⟨⟨operation.exit inputs⟩, some (operation.exit inputs), steps⟩,
        some (operation.output inputs)⟩) ∧
    (∀ refusal, answer = .error refusal →
      refusal = .fault (.chainExhausted options.limits.chainLimit)) ∧
    (22 * (operation.operand inputs).toInt.natAbs + 32 ≤ options.limits.chainLimit →
      ∃ reply, answer = .ok reply) := by
  intro inputs answer
  obtain ⟨steady, bound, hmeets, hbound⟩ := operation.meets
  have hanswer := hmeets.answered_of_follows operation.follows hnet uses
  have henough := hbound inputs
  change operation.chart.Answers _ (bound inputs) _ answer at hanswer
  clear_value answer
  -- An answer is no refusal, and a refusal no answer
  cases hanswer with
  | ended steps hdone =>
    obtain ⟨rfl, hout⟩ := hdone
    rw [operation.gives, if_pos rfl, hout]
    refine ⟨?_, ?_, fun _ => ⟨_, rfl⟩⟩
    · rintro reply hreply
      exact ⟨steps, (Except.ok.inj hreply).symm⟩
    · rintro refusal hrefusal
      cases hrefusal
  | exhausted hless =>
    refine ⟨?_, ?_, fun hlimit => absurd hlimit (by omega)⟩
    · rintro reply hreply
      cases hreply
    · rintro refusal hrefusal
      exact (Except.error.inj hrefusal).symm

/-- A negation has been run on minus three; then seven is written, and it gives out minus seven. -/
theorem negation_of_seven : ∃ net, Arithmetic.library.instantiate "-x" {} = .ok net ∧
    ∃ steps, ((net.performAll [.writeInlet net.root 0 (-3), .step, .writeInlet net.root 0 7]).1.perform
      .step).2 = .ok (.outcome ⟨⟨⟨0⟩, some 0, steps⟩, some (-7)⟩) := by
  obtain ⟨net, hnet⟩ := Library.exists_of_follows Negation.follows
  obtain ⟨hended, _, henough⟩ := subtraction_wraps .negation hnet [.write 0 (-3), .run, .write 0 7]
  obtain ⟨reply, hreply⟩ := henough (by decide)
  obtain ⟨steps, rfl⟩ := hended reply hreply
  exact ⟨net, hnet, steps, hreply⟩

end Network

end TokenNet
