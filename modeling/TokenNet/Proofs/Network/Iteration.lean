import TokenNet.Arithmetic
import TokenNet.Proofs.Chart.History
import TokenNet.Proofs.Sketch.Chart

/-!
# Networks that iterate

Three networks of the library of arithmetic go on from where their last run has left them.  The two
iterators add or subtract one at every run; their last adder reads its own output, and a new input
is written into the same class.  The alternator leaves by its two exits in turn; the class that its
three sums share shows whose turn it is.

## Main statements

- `Iteration.iterator_tracks`, `Iteration.alternator_tracks`: what the rows of the networks keep from
  run to run.
- `Network.iteration_answers`: what every run of such a network answers.
-/

namespace TokenNet

/-- The networks that iterate. -/
inductive Iteration where
  | increment
  | decrement
  | alternation
deriving DecidableEq, Repr

namespace Iteration

def identifier : Iteration → String
  | increment => "+++"
  | decrement => "---"
  | alternation => "||"

/-- The exit of the next run after a history. -/
def exit : Iteration → List Use → Nat
  | increment, _ | decrement, _ => 0
  | alternation, uses => Use.runs uses % 2

/-- What an iterator shows after a history: the last value written, and one step for each run since
then. -/
def total : Iteration → List Use → Value
  | increment, uses => Use.lastWritten uses 0 + Int64.ofNat (Use.runsSince 0 uses)
  | decrement, uses => Use.lastWritten uses 0 - Int64.ofNat (Use.runsSince 0 uses)
  | alternation, _ => 0

/-- The output of the last run of a history. -/
def output : Iteration → List Use → Option Value
  | alternation, _ => none
  | iterator, uses => some (iterator.total uses)

/-! ## Charts -/

/-- An iterator: the constant is added to the slot that shows the sum. -/
def iteratorRows (constant : Value) : Listing := [
  (2, ⟨.constant constant, [5], false, ⟨.row 3, 0⟩, ⟨.row 3, 0⟩⟩),
  (3, ⟨.sum 5 6, [6], true, ⟨.exit 0, 1⟩, ⟨.exit 0, 1⟩⟩)]

/-- The alternator: the turn is tested, and then it is passed on. -/
def alternatorRows : Listing := [
  (2, ⟨.sum 0 1, [], false, ⟨.row 6, 0⟩, ⟨.row 11, 0⟩⟩),
  (6, ⟨.constant 1, [8], false, ⟨.row 7, 0⟩, ⟨.row 7, 0⟩⟩),
  (7, ⟨.sum 7 8, [1, 2, 7, 9, 14], false, ⟨.exit 0, 2⟩, ⟨.exit 0, 2⟩⟩),
  (11, ⟨.constant (-1), [15], false, ⟨.row 12, 0⟩, ⟨.row 12, 0⟩⟩),
  (12, ⟨.sum 14 15, [1, 2, 7, 9, 14], false, ⟨.exit 1, 2⟩, ⟨.exit 1, 2⟩⟩)]

/-- The chart of the network. -/
def chart : Iteration → Chart
  | increment => ⟨[[0, 6]], 1, true, 2, iteratorRows 1⟩
  | decrement => ⟨[[0, 6]], 1, true, 2, iteratorRows (-1)⟩
  | alternation => ⟨[], 2, false, 2, alternatorRows⟩

/-- The library builds what the charts say. -/
theorem follows (iteration : Iteration) :
    Arithmetic.library.follows iteration.identifier iteration.chart = true := by
  apply Library.follows_of_sketched
  cases iteration <;> decide +kernel

/-! ## Iterators -/

/-- What an iterator adds at every run. -/
def constant : Iteration → Value
  | decrement => -1
  | _ => 1

/-- The iterators, which have an input and an output. -/
def Iterates (iteration : Iteration) : Prop :=
  iteration ≠ alternation

instance : DecidablePred Iterates := fun iteration =>
  inferInstanceAs (Decidable (iteration ≠ alternation))

variable {iteration : Iteration} {uses : List Use} {memory : Memory}

theorem total_nil : iteration.total [] = 0 := by
  cases iteration <;> rfl

/-- A write to the input sets the total, and other writes are refused. -/
theorem total_append_write (h : iteration.Iterates) (index : Nat) (value : Value) :
    iteration.total (uses ++ [.write index value]) =
      if index = 0 then value else iteration.total uses := by
  cases iteration with
  | alternation => exact absurd rfl h
  | increment | decrement =>
    by_cases hindex : index = 0
    · simp [total, Use.inputs, Use.counts, hindex]
    · simp [total, Use.inputs, Use.counts, hindex, Ne.symm hindex]

/-- A run adds the constant to the total. -/
theorem total_append_run (h : iteration.Iterates) :
    iteration.total (uses ++ [.run]) = iteration.constant + iteration.total uses := by
  cases iteration with
  | alternation => exact absurd rfl h
  | increment =>
    simp only [total, constant, Use.lastWritten_append, Use.runsSince_append, Use.inputs,
      Use.counts, Int64.ofNat_add]
    grind
  | decrement =>
    simp only [total, constant, Use.lastWritten_append, Use.runsSince_append, Use.inputs,
      Use.counts, Int64.ofNat_add]
    grind

/-- A run of an iterator adds its constant to the slot that shows the sum. -/
theorem ends_iterator {constant before : Value} {done : Nat → Memory → Prop}
    (hslot : memory.slot 6 = before)
    (hdone : ∀ later : Memory, later.slot 6 = constant + before → later.out = constant + before →
      done 0 later) :
    Ends (iteratorRows constant) (fun _ => True) done 3 (.row 2) memory := by
  refine .constant 2 rfl trivial trivial (fun _ => ?_) (Nat.le_refl _)
  refine .straight (v := constant + before) 0 rfl trivial ?sum trivial
    (fun _ => .exit trivial (hdone _ rfl rfl)) (Nat.le_refl _)
  case sum => simp [Source.value, hslot]

/-- What the rows of an iterator keep: the slot of the sum shows the total. -/
theorem iterator_tracks (h : iteration.Iterates) :
    Chart.Tracks ⟨[[0, 6]], 1, true, 2, iteratorRows iteration.constant⟩
      (fun uses memory => memory.slot 6 = iteration.total uses)
      (fun uses exit memory => exit = 0 ∧ memory.out = iteration.total (uses ++ [.run])) 5 where
  fresh hzero := (hzero 6).trans total_nil.symm
  -- A write to another input is refused, and the total does not count it
  refused {uses _ index} value hindex hholds := by
    rw [total_append_write h, if_neg (Nat.one_le_iff_ne_zero.mp hindex)]
    exact hholds
  -- The only input is the one that is added up
  write {uses memory index slots} emits value hslots _ := by
    obtain ⟨hindex, rfl⟩ : index = 0 ∧ slots = [0, 6] := by
      cases index with
      | zero => exact ⟨rfl, (Option.some.inj hslots).symm⟩
      | succ => cases hslots
    rw [total_append_write h, if_pos hindex]
    rw [Memory.slot_write, if_pos (by decide)]
  ends {uses memory} hholds := by
    rw [total_append_run h]
    refine (ends_iterator hholds fun later hslot hout => ?_).mono (by decide)
    exact ⟨⟨rfl, hout⟩, hslot⟩

/-! ## The alternator -/

/-- What the memory of the alternator shows after a history: whose turn it is. -/
structure Turn (uses : List Use) (memory : Memory) : Prop where
  zero : memory.slot 0 = 0
  turn : memory.Shows [1, 7, 14] (Int64.ofNat (Use.runs uses % 2))

/-- Either half of the alternator adds its constant to the turn and leaves. -/
theorem ends_half {first second left right exit : Nat} {step passed : Value}
    {done : Nat → Memory → Prop}
    (hfirst : alternatorRows.lookup first =
      some ⟨.constant step, [right], false, ⟨.row second, 0⟩, ⟨.row second, 0⟩⟩)
    (hsecond : alternatorRows.lookup second =
      some ⟨.sum left right, [1, 2, 7, 9, 14], false, ⟨.exit exit, 2⟩, ⟨.exit exit, 2⟩⟩)
    (hzero : memory.slot 0 = 0) (hright : right ≠ 0 ∧ right ≠ left)
    (hsum : memory.slot left + step = passed)
    (hdone : ∀ later : Memory, later.slot 0 = 0 → later.Shows [1, 7, 14] passed →
      done exit later) :
    Ends alternatorRows (fun _ => True) done 4 (.row first) memory := by
  -- The constant first, then the sum, which all readers of the state see
  refine .constant 3 hfirst trivial trivial (fun _ => ?_) (Nat.le_refl _)
  refine .straight (v := passed) 0 hsecond trivial ?sum trivial
    (fun _ => .exit trivial (hdone _ ?zero ?turn)) (Nat.le_refl _)
  case sum => simp [Source.value, hright.2.symm, hsum]
  case zero => simp [hright.1.symm, hzero]
  case turn => exact Memory.shows_write _ (by decide) _ _

/-- A run of the alternator leaves by the exit whose turn it is, and passes the turn on. -/
theorem ends_alternator (h : Turn uses memory) :
    Ends alternatorRows (fun _ => True) (fun exit later => exit = Use.runs uses % 2 ∧
      Turn (uses ++ [.run]) later) 5 (.row 2) memory := by
  obtain ⟨hzero, hturn⟩ := h
  have hsum : Source.value memory (.sum 0 1) = Int64.ofNat (Use.runs uses % 2) := by
    simp [Source.value, hzero, hturn 1 (by decide)]
  -- The turn after this run is the parity of one run more
  have hpassed {passed : Nat} (hnext : (Use.runs uses + 1) % 2 = passed) (later : Memory)
      (hzero : later.slot 0 = 0) (hturn : later.Shows [1, 7, 14] (Int64.ofNat passed)) :
      Turn (uses ++ [.run]) later :=
    ⟨hzero, by rwa [Use.runs_append_run, hnext]⟩
  -- Each half gives the constant for the other turn to the slots of the turn
  rcases Nat.mod_two_eq_zero_or_one (Use.runs uses) with hruns | hruns <;>
    rw [hruns] at hsum hturn ⊢
  · have hnext := hpassed (show (Use.runs uses + 1) % 2 = 1 by omega)
    refine .zero 4 rfl trivial hsum trivial (fun _ => ?_) (Nat.le_refl _)
    refine ends_half rfl rfl hzero (by decide) ?_ fun later hzero hturn =>
      ⟨rfl, hnext later hzero hturn⟩
    rw [Memory.slot_write, if_neg (by decide), hturn 7 (by decide)]
    rfl
  · have hnext := hpassed (show (Use.runs uses + 1) % 2 = 0 by omega)
    refine .other 4 rfl trivial hsum (by decide) trivial (fun _ => ?_) (Nat.le_refl _)
    refine ends_half rfl rfl hzero (by decide) ?_ fun later hzero hturn =>
      ⟨rfl, hnext later hzero hturn⟩
    rw [Memory.slot_write, if_neg (by decide), hturn 14 (by decide)]
    rfl

/-- What the rows of the alternator keep: one number of the turn after an even number of runs and
the other one after an odd number. -/
theorem alternator_tracks :
    Chart.Tracks ⟨[], 2, false, 2, alternatorRows⟩ Turn
      (fun uses exit _ => exit = Use.runs uses % 2) 5 where
  fresh hzero := ⟨hzero 0, fun s _ => hzero s⟩
  refused value _ hholds := ⟨hholds.zero, by rw [Use.runs_append_write]; exact hholds.turn⟩
  write emits value hslots _ := by cases hslots
  ends := ends_alternator

end Iteration

/-! ## Answers -/

namespace Network

/-- **Networks that iterate go by their history**, whatever the options of the build are, as long as
five firings are allowed.  Every run ends.  An iterator leaves by its only exit and gives out the
value that was written last, with one step for every run since then, this one included; it wraps
around.  The alternator has no output and leaves by its exits in turn. -/
theorem iteration_answers (iteration : Iteration) {options : BuildOptions} {net : Network}
    (hnet : Arithmetic.library.instantiate iteration.identifier options = .ok net)
    (hlimit : 5 ≤ options.limits.chainLimit) (uses : List Use) :
    let answer := ((net.performAll (uses.map (Use.call net.root))).1.perform .step).2
    ∃ steps, answer = .ok (.outcome ⟨⟨⟨iteration.exit uses⟩, some (iteration.exit uses), steps⟩,
      iteration.output (uses ++ [.run])⟩) := by
  intro answer
  have hfollows := iteration.follows
  cases iteration with
  | alternation =>
    obtain ⟨_, memory, steps, rfl, hanswer⟩ :=
      Iteration.alternator_tracks.answered_of_follows hfollows hnet hlimit uses
    -- The exit alternates between the two that there are
    have hinside : Use.runs uses % 2 < 2 := Nat.mod_lt _ (by decide)
    simp only [if_pos hinside] at hanswer
    exact ⟨steps, hanswer⟩
  -- The other two add their constant to the total
  | increment =>
    have htracks := Iteration.iterator_tracks (show Iteration.increment.Iterates by decide)
    obtain ⟨_, memory, steps, ⟨rfl, hout⟩, hanswer⟩ :=
      htracks.answered_of_follows hfollows hnet hlimit uses
    rw [hout] at hanswer
    exact ⟨steps, hanswer⟩
  | decrement =>
    have htracks := Iteration.iterator_tracks (show Iteration.decrement.Iterates by decide)
    obtain ⟨_, memory, steps, ⟨rfl, hout⟩, hanswer⟩ :=
      htracks.answered_of_follows hfollows hnet hlimit uses
    rw [hout] at hanswer
    exact ⟨steps, hanswer⟩

/-- An iterator has run three times, once before it is set to the largest value and twice after it.
The write to a second input is refused.  The fourth run gives out the third value after the largest
one. -/
theorem increment_of_largest : ∃ net, Arithmetic.library.instantiate "+++" {} = .ok net ∧
    ∃ steps, ((net.performAll [.step, .writeInlet net.root 0 9223372036854775807,
      .writeInlet net.root 1 5, .step, .step]).1.perform .step).2 =
        .ok (.outcome ⟨⟨⟨0⟩, some 0, steps⟩, some (-9223372036854775806)⟩) := by
  obtain ⟨net, hnet⟩ := Library.exists_of_follows Iteration.increment.follows
  let uses : List Use := [.run, .write 0 9223372036854775807, .write 1 5, .run, .run]
  obtain ⟨steps, hanswer⟩ := iteration_answers .increment hnet (by decide) uses
  have hout : Iteration.increment.output (uses ++ [.run]) = some (-9223372036854775806) := by
    decide +kernel
  rw [hout] at hanswer
  exact ⟨net, hnet, steps, hanswer⟩

end Network

end TokenNet
