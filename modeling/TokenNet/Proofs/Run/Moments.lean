import TokenNet.Proofs.Run.Guarded

/-!
# The moments of a run

Before each firing a run tests whether another firing is allowed.  A moment is what the run is at
then: the entry that the token waits at, and the state.  One moment leads to the next without
reference to the budget, which only says where the walk is cut off.

## Main statements

- `Run.walk_of_moments_none`: a walk that needs no more than a smaller budget does not depend on it.
- `Run.walk_of_moments_some`: any other walk is cut off at the moment with the number of the smaller
  budget.
- `Run.Moment.ends_walk`: how a walk ends, said by its moments.
-/

namespace TokenNet.Run

/-- What a run is at before a firing: the entry that the token waits at, and the state. -/
structure Moment where
  entry : EntryId
  state : State
deriving DecidableEq

variable {callLimit : UInt32} {run : Nat}

/-- Fires the node that the token waits at. -/
def Moment.fire (callLimit : UInt32) (run : Nat) (moment : Moment) :
    State × Except RunFault ExitId :=
  fireAt callLimit run moment.entry moment.state

/-- The moment after the next firing, if the exit that fires has a target. -/
def Moment.next? (callLimit : UInt32) (run : Nat) (moment : Moment) : Option Moment :=
  match moment.fire callLimit run with
  | (_, .error _) => none
  | (state, .ok exit) => (state.graph.target? exit).map (⟨·, state⟩)

/-- The moments of a walk with the given budget.  A walk whose budget is spent has come to the
moment at which it is cut off. -/
def moments (callLimit : UInt32) (run : Nat) : Nat → Moment → List Moment
  | 0, moment => [moment]
  | budget + 1, moment =>
    moment :: ((moment.next? callLimit run).map (moments callLimit run budget)).getD []

namespace Moment

variable {moment next : Moment}

/-- The walk that begins at a moment. -/
def walk (callLimit : UInt32) (limit run budget steps : Nat) (moment : Moment) :
    State × Except RunFault (ExitId × Nat) :=
  Run.walk callLimit limit run budget steps moment.entry moment.state

/-- A firing after which the token waits at another entry: the walk goes on from there. -/
theorem walk_of_next? (limit budget steps : Nat) (h : moment.next? callLimit run = some next) :
    moment.walk callLimit limit run (budget + 1) steps =
      next.walk callLimit limit run budget (steps + 1) := by
  unfold next? fire at h
  unfold walk
  rcases hfired : fireAt callLimit run moment.entry moment.state with ⟨fired, fault | exit⟩
  · rw [hfired] at h
    cases h
  · rw [hfired] at h
    obtain ⟨entry, htarget, rfl⟩ := Option.map_eq_some_iff.mp h
    exact (walk_of_next limit budget steps hfired htarget).1

/-- A firing after which the token waits nowhere: it fails, or the run ends at its exit. -/
theorem walk_of_next?_none (limit budget steps : Nat) (h : moment.next? callLimit run = none) :
    (∃ fault, (moment.fire callLimit run).2 = .error fault ∧
      moment.walk callLimit limit run (budget + 1) steps =
        ((moment.fire callLimit run).1, .error fault)) ∨
    (∃ exit, (moment.fire callLimit run).2 = .ok exit ∧
      (moment.fire callLimit run).1.graph.target? exit = none ∧
      moment.walk callLimit limit run (budget + 1) steps =
        ((moment.fire callLimit run).1, .ok (exit, steps + 1))) := by
  -- There is no next moment, so the firing fails or the exit has no target
  unfold next? at h
  unfold walk
  rcases hfired : moment.fire callLimit run with ⟨fired, fault | exit⟩
  · exact .inl ⟨fault, rfl, (walk_of_error limit budget steps hfired).1⟩
  · rw [hfired] at h
    have htarget : fired.graph.target? exit = none := Option.map_eq_none_iff.mp h
    exact .inr ⟨exit, rfl, htarget, (walk_of_end limit budget steps hfired htarget).1⟩

end Moment

/-! ## Cutting a walk off -/

/-- **A walk that has no moment left to test the smaller budget at does not depend on the budget.**
It ends, or a firing fails, before either of them is spent. -/
theorem walk_of_moments_none (low high : Nat) {lower upper : Nat} (hle : lower ≤ upper)
    (steps : Nat) (moment : Moment) (h : (moments callLimit run upper moment)[lower]? = none) :
    moment.walk callLimit low run lower steps = moment.walk callLimit high run upper steps := by
  -- On the smaller budget; the two walks make the same firing and go on from the same moment
  induction lower generalizing upper steps moment with
  | zero => cases upper <;> cases h
  | succ lower ih =>
    obtain ⟨upper, rfl⟩ : ∃ budget, upper = budget + 1 := ⟨upper - 1, by omega⟩
    cases hnext : moment.next? callLimit run with
    | some next =>
      rw [Moment.walk_of_next? low lower steps hnext, Moment.walk_of_next? high upper steps hnext]
      refine ih (Nat.le_of_succ_le_succ hle) (steps + 1) next ?_
      simpa [moments, hnext] using h
    | none =>
      rcases Moment.walk_of_next?_none low lower steps hnext with
        ⟨fault, hfault, hlow⟩ | ⟨exit, hexit, -, hlow⟩ <;>
      rcases Moment.walk_of_next?_none high upper steps hnext with
        ⟨fault', hfault', hhigh⟩ | ⟨exit', hexit', -, hhigh⟩
      · rw [hlow, hhigh, Except.error.inj (hfault.symm.trans hfault')]
      · cases hfault.symm.trans hexit'
      · cases hexit.symm.trans hfault'
      · rw [hlow, hhigh, Except.ok.inj (hexit.symm.trans hexit')]

/-- **Any other walk is cut off by the smaller budget**, at the moment to which the longer walk has
come after as many firings. -/
theorem walk_of_moments_some (limit : Nat) {lower upper : Nat} (hle : lower ≤ upper) (steps : Nat)
    (moment : Moment) {last : Moment}
    (h : (moments callLimit run upper moment)[lower]? = some last) :
    moment.walk callLimit limit run lower steps = (last.state, .error (.chainExhausted limit)) := by
  induction lower generalizing upper steps moment with
  | zero =>
    obtain rfl : moment = last := by cases upper <;> exact Option.some.inj h
    rfl
  -- The budget is spent at the moment with that number
  | succ lower ih =>
    obtain ⟨upper, rfl⟩ : ∃ budget, upper = budget + 1 := ⟨upper - 1, by omega⟩
    cases hnext : moment.next? callLimit run with
    | none => simp [moments, hnext] at h
    | some next =>
      rw [Moment.walk_of_next? limit lower steps hnext]
      refine ih (Nat.le_of_succ_le_succ hle) (steps + 1) next ?_
      simpa [moments, hnext] using h

/-! ## How a walk ends -/

/-- A moment after which there is none is the last of every walk that comes to it. -/
theorem length_moments_of_next?_none {budget number : Nat} {moment last : Moment}
    (h : (moments callLimit run budget moment)[number]? = some last)
    (hlast : last.next? callLimit run = none) :
    (moments callLimit run budget moment).length = number + 1 := by
  induction budget generalizing number moment with
  | zero =>
    have hlength := (List.getElem?_eq_some_iff.mp h).1
    simp only [moments, List.length_singleton] at hlength ⊢
    omega
  | succ budget ih =>
    -- The list ends with the moment that has no next one
    cases hnext : moment.next? callLimit run with
    | none =>
      have hlength := (List.getElem?_eq_some_iff.mp h).1
      simp only [moments, hnext, Option.map_none, Option.getD_none, List.length_singleton]
        at hlength ⊢
      omega
    | some next =>
      simp only [moments, hnext, Option.map_some, Option.getD_some, List.length_cons] at h ⊢
      cases number with
      | zero =>
        obtain rfl : moment = last := Option.some.inj h
        cases hnext.symm.trans hlast
      | succ number => rw [ih h]

/-- How a walk may end, said by its moments. -/
inductive Moment.Ends (callLimit : UInt32) (limit run budget steps : Nat) (moment : Moment) :
    State × Except RunFault (ExitId × Nat) → Prop where
  /-- The last of the moments fires an exit without a target. -/
  | exit {state : State} {exit : ExitId} {last : Moment} {before : Nat} (bounded : before < budget)
    (is_last : (moments callLimit run budget moment)[before]? = some last)
    (fires : last.fire callLimit run = (state, .ok exit))
    (target : state.graph.target? exit = none) :
    Ends callLimit limit run budget steps moment (state, .ok (exit, steps + (before + 1)))
  /-- The firing of the last of the moments fails. -/
  | fault {state : State} {fault : RunFault} {last : Moment} {before : Nat}
    (bounded : before < budget)
    (is_last : (moments callLimit run budget moment)[before]? = some last)
    (fails : last.fire callLimit run = (state, .error fault)) :
    Ends callLimit limit run budget steps moment (state, .error fault)
  /-- The walk is cut off at the last of the moments. -/
  | cut {last : Moment}
    (is_last : (moments callLimit run budget moment)[budget]? = some last) :
    Ends callLimit limit run budget steps moment (last.state, .error (.chainExhausted limit))

/-- What one firing puts in front of a walk does not change how it ends. -/
theorem Moment.Ends.cons {limit budget steps : Nat} {moment next : Moment}
    {result : State × Except RunFault (ExitId × Nat)}
    (h : next.Ends callLimit limit run budget (steps + 1) result)
    (hnext : moment.next? callLimit run = some next) :
    moment.Ends callLimit limit run (budget + 1) steps result := by
  have hmoments : moments callLimit run (budget + 1) moment =
      moment :: moments callLimit run budget next := by
    rw [moments, hnext, Option.map_some, Option.getD_some]
  -- The end is the same one, counted from one moment earlier
  cases h with
  | exit bounded is_last fires target =>
    rename_i before
    rw [Nat.add_assoc, Nat.add_comm 1 (before + 1)]
    exact .exit (Nat.succ_lt_succ bounded) (by rwa [hmoments, List.getElem?_cons_succ])
      fires target
  | fault bounded is_last fails =>
    exact .fault (Nat.succ_lt_succ bounded) (by rwa [hmoments, List.getElem?_cons_succ]) fails
  | cut is_last => exact .cut (by rwa [hmoments, List.getElem?_cons_succ])

/-- **Every walk ends in one of three ways**, whatever its budget: it leaves through an exit without
a target, a firing fails, or it is cut off. -/
theorem Moment.ends_walk (callLimit : UInt32) (limit run budget steps : Nat) (moment : Moment) :
    moment.Ends callLimit limit run budget steps
      (moment.walk callLimit limit run budget steps) := by
  induction budget generalizing steps moment with
  | zero => exact .cut rfl
  | succ budget ih =>
    -- A walk ends where its rest does, or with its first firing
    cases hnext : moment.next? callLimit run with
    | some next =>
      rw [Moment.walk_of_next? limit budget steps hnext]
      exact (ih (steps + 1) next).cons hnext
    | none =>
      have hfirst : (moments callLimit run (budget + 1) moment)[0]? = some moment := rfl
      rcases Moment.walk_of_next?_none limit budget steps hnext with
        ⟨fault, hfault, hwalk⟩ | ⟨exit, hexit, htarget, hwalk⟩ <;> rw [hwalk]
      · exact .fault (Nat.succ_pos budget) hfirst (Prod.ext rfl hfault)
      · exact .exit (Nat.succ_pos budget) hfirst (Prod.ext rfl hexit) htarget

end TokenNet.Run
