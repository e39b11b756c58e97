import TokenNet.Arithmetic
import TokenNet.Proofs.Sketch.Chart
import TokenNet.Proofs.Value

/-!
# Networks that test for zero

The zero test adds its input to itself and leaves by an exit that tells whether the sum is zero.
The adder wraps around, so the sum is zero for two inputs: for zero, and for the least value, which
the test takes for zero.

## Main statements

- `ZeroTest.meets`: what the only row of the network does.
- `Network.zero_test_answers`: by which exit a zero test leaves.
-/

namespace TokenNet

namespace ZeroTest

variable {x : Value} {memory : Memory}

/-- The adder that doubles the input. -/
def rows : Listing := [
  (2, ⟨.sum 1 2, [], false, ⟨.exit 1, 1⟩, ⟨.exit 0, 1⟩⟩)]

/-- The slots that show the input. -/
def inputSlots : List Nat := [0, 1, 2]

/-- The exit of the test. -/
def answer (x : Value) : Nat :=
  if x + x = 0 then 1 else 0

/-- The test comes to the right exit within two firings, that of the adder and that of a join. -/
theorem ends (h : memory.Shows inputSlots x) : Ends rows (fun memory => memory.Shows inputSlots x)
    (fun exit _ => exit = answer x) 2 (.row 2) memory := by
  -- Both operands are the input, so the sum is its double
  have hdouble : Source.value memory (.sum 1 2) = x + x := by
    rw [Source.value, h 1 (by decide), h 2 (by decide)]
  by_cases hzero : x + x = 0
  · exact .zero 0 rfl h (hdouble.trans hzero) h
      (fun hlater => .exit hlater (if_pos hzero).symm) (Nat.le_refl _)
  · exact .other 0 rfl h hdouble hzero h
      (fun hlater => .exit hlater (if_neg hzero).symm) (Nat.le_refl _)

/-- The chart of the network. -/
def chart : Chart where
  inputs := [inputSlots]
  exits := 2
  gives := false
  start := 2
  rows

/-- The library builds what the chart says. -/
theorem follows : Arithmetic.library.follows "==0" chart = true :=
  Library.follows_of_sketched (by decide +kernel)

/-- **The network tells whether its input doubles to zero.** -/
theorem meets : chart.Meets (fun inputs memory => memory.Shows inputSlots (inputs 0))
    (fun inputs exit _ => exit = answer (inputs 0)) fun _ => 2 where
  fresh hzero := fun s _ => hzero s
  idle h hsame := hsame 0 (by decide) ▸ h
  write {_ memory index _} emits value hslots _ := by
    match index, hslots with
    | 0, rfl => exact memory.shows_write (fun _ => id) emits value
  ends := ends
  exits h := by
    rw [h, answer]
    split <;> decide

end ZeroTest

namespace Network

variable {options : BuildOptions} {net : Network}

/-- A run of a zero test has no output and leaves by the exit that its doubled input asks for. -/
theorem zero_test_leaves (hnet : Arithmetic.library.instantiate "==0" options = .ok net)
    (hlimit : 2 ≤ options.limits.chainLimit) (uses : List Use) :
    let exit := ZeroTest.answer (Use.lastWritten uses 0)
    let answer := ((net.performAll (uses.map (Use.call net.root))).1.perform .step).2
    ∃ steps, answer = .ok (.outcome ⟨⟨⟨exit⟩, some exit, steps⟩, none⟩) := by
  intro exit answer
  have hanswer : ZeroTest.chart.Answers (fun index _ => index = exit) 2
      options.limits.chainLimit answer :=
    ZeroTest.meets.answered_of_follows ZeroTest.follows hnet uses
  clear_value answer
  cases hanswer with
  | ended steps hdone =>
    subst hdone
    exact ⟨steps, rfl⟩
  -- Two firings are enough for every input
  | exhausted hless => exact absurd hlimit (Nat.not_le.mpr hless)

/-- **A zero test leaves by its second exit just when its input is zero or the least value**,
whatever the options of its build are, as long as two firings are allowed, and whatever was done
before.  Every run ends and none has an output. -/
theorem zero_test_answers (hnet : Arithmetic.library.instantiate "==0" options = .ok net)
    (hlimit : 2 ≤ options.limits.chainLimit) (uses : List Use) :
    let x := Use.lastWritten uses 0
    let answer := ((net.performAll (uses.map (Use.call net.root))).1.perform .step).2
    ∃ exit steps, answer = .ok (.outcome ⟨⟨⟨exit⟩, some exit, steps⟩, none⟩) ∧
      exit = if x = 0 ∨ x = Int64.minValue then 1 else 0 := by
  intro x answer
  obtain ⟨steps, hanswer⟩ := zero_test_leaves hnet hlimit uses
  refine ⟨_, steps, hanswer, ?_⟩
  -- Two values vanish when they are doubled
  have hzero : x + x = 0 ↔ x = 0 ∨ x = Int64.minValue := by
    rw [Value.add_self_eq_zero_iff, ← Int64.toInt_inj, ← Int64.toInt_inj]
    rfl
  simp only [ZeroTest.answer, ← hzero, x]

/-- Five is told from zero, also after a run on zero. -/
theorem zero_test_of_five : ∃ net, Arithmetic.library.instantiate "==0" {} = .ok net ∧
    ∃ steps, ((net.performAll [.writeInlet net.root 0 0, .step,
      .writeInlet net.root 0 5]).1.perform .step).2 =
        .ok (.outcome ⟨⟨⟨0⟩, some 0, steps⟩, none⟩) := by
  obtain ⟨net, hnet⟩ := Library.exists_of_follows ZeroTest.follows
  obtain ⟨exit, steps, hanswer, rfl⟩ :=
    zero_test_answers hnet (by decide) [.write 0 0, .run, .write 0 5]
  exact ⟨net, hnet, steps, hanswer⟩

/-- The least value is taken for zero: twice the least value wraps around to zero. -/
theorem zero_test_of_least : ∃ net, Arithmetic.library.instantiate "==0" {} = .ok net ∧
    ∃ steps, ((net.performAll [.writeInlet net.root 0 Int64.minValue]).1.perform .step).2 =
        .ok (.outcome ⟨⟨⟨1⟩, some 1, steps⟩, none⟩) ∧
      Int64.minValue ≠ 0 := by
  obtain ⟨net, hnet⟩ := Library.exists_of_follows ZeroTest.follows
  obtain ⟨steps, hanswer⟩ := zero_test_leaves hnet (by decide) [.write 0 Int64.minValue]
  exact ⟨net, hnet, steps, hanswer, by decide⟩

end Network

end TokenNet
