import TokenNet.Arithmetic
import TokenNet.Proofs.Graph.Strict
import TokenNet.Proofs.Run.Moments

/-!
# The limit on the firings of a run

The limit on the number of firings cuts runs off and does nothing else.  A run that ends, or fails,
within a smaller limit is the same under both limits, with the same ledger and the same graph.  Any
other run is cut off by the smaller limit, in the state that the longer run has after that many
firings: the limit is tested before a firing, so nothing is written past it.

## Main statements

- `Network.ends_execute`: the end of a run, by its moments.
- `Network.execute_withChainLimit`: runs under two limits.
-/

namespace TokenNet

/-! ## Moments of sound graphs -/

namespace Run

variable {callLimit : UInt32} {run : Nat}

/-- The token waits at an entry of a closed graph. -/
structure Moment.Sound (moment : Moment) : Prop where
  closed : moment.state.graph.Closed
  entry : moment.state.graph.HasEntry moment.entry

/-- **A firing at a sound moment** names an exit of the graph that it leaves behind, unless a bit
reads a value that is not binary or the call limit is reached. -/
theorem Moment.Sound.fire {moment : Moment} (h : moment.Sound) (callLimit : UInt32) (run : Nat) :
    match moment.fire callLimit run with
    | (state, .ok exit) => state.graph.Closed ∧ state.graph.HasExit exit
    | (_, .error fault) => (∃ node value, fault = .invalidBit node value) ∨
        ∃ node, fault = .callLimit node callLimit := by
  obtain ⟨node, hnode, hacts⟩ := h.closed.acts_of_hasEntry h.entry
  have hanswers := Graph.answers_fire h.closed callLimit hacts
  have hleads := (moves_fireAt h.closed callLimit run moment.entry).leads
  have hat : nodeAt moment.state.graph moment.entry = node := by simp [nodeAt, hnode]
  rw [← hat, show (moment.state.graph.fire callLimit _).result =
    (fireAt callLimit run moment.entry moment.state).2 from rfl] at hanswers
  -- The node found at the entry acts, so its firing answers in one of the three ways
  unfold Moment.fire
  rcases hfire : fireAt callLimit run moment.entry moment.state with ⟨state, fault | exit⟩ <;>
    rw [hfire] at hanswers hleads
  · rcases hanswers with ⟨value, rfl⟩ | rfl
    · exact .inl ⟨_, value, rfl⟩
    · exact .inr ⟨_, rfl⟩
  · exact ⟨hleads.closed h.closed, (hleads.extends h.closed).hasExit hanswers⟩

theorem Moment.Sound.next? {moment next : Moment} (h : moment.Sound)
    (hnext : moment.next? callLimit run = some next) : next.Sound := by
  unfold Moment.next? at hnext
  rcases hfire : moment.fire callLimit run with ⟨state, fault | exit⟩
  · rw [hfire] at hnext
    cases hnext
  · rw [hfire] at hnext
    obtain ⟨entry, htarget, rfl⟩ := Option.map_eq_some_iff.mp hnext
    have hfired := h.fire callLimit run
    rw [hfire] at hfired
    exact ⟨hfired.1, hfired.1.hasEntry_of_target? htarget⟩

/-- **At every moment of a run the token waits at an entry of the graph.** -/
theorem Moment.Sound.moments {budget : Nat} {moment later : Moment} (h : moment.Sound)
    (hmem : later ∈ moments callLimit run budget moment) : later.Sound := by
  induction budget generalizing moment with
  | zero => exact List.mem_singleton.mp hmem ▸ h
  | succ budget ih =>
    rcases List.mem_cons.mp hmem with rfl | hmem
    · exact h
    · cases hnext : moment.next? callLimit run with
      | none => simp [hnext] at hmem
      | some next =>
        rw [hnext] at hmem
        exact ih (h.next? hnext) hmem

end Run

/-! ## Runs of networks -/

namespace Network

/-- The network with another limit on the firings of a run. -/
def withChainLimit (net : Network) (chainLimit : Nat) : Network :=
  { net with limits := { net.limits with chainLimit } }

/-- The network after a run that has been begun and has come to a state. -/
def ranTo (net : Network) (state : Run.State) : Network :=
  { net with graph := state.graph, ledger := state.ledger, runs := net.runs + 1 }

/-- The moment at which a token has just been admitted through an entry. -/
def momentAt (net : Network) (entry : EntryId) : Run.Moment :=
  ⟨entry, net.graph, net.ledger⟩

/-- The moments of the next run, in order.  If the run is exhausted, the last of them is the one at
which it is cut off. -/
def moments (net : Network) : List Run.Moment :=
  match net.entry? with
  | none => []
  | some entry =>
    Run.moments net.limits.callLimit (net.runs + 1) net.limits.chainLimit (net.momentAt entry)

/-- What the next run does at a moment. -/
def fireAt (net : Network) (moment : Run.Moment) : Run.State × Except RunFault ExitId :=
  moment.fire net.limits.callLimit (net.runs + 1)

/-- The next run fails with a fault, and it does so at its firing of the given number, counted from
one. -/
structure FailsAt (net : Network) (number : Nat) (fault : RunFault) : Prop where
  result : net.execute.2 = .error fault
  firing : ∃ before moment, number = before + 1 ∧ net.moments[before]? = some moment ∧
    (net.fireAt moment).2 = .error fault

variable {net : Network} {entry : EntryId}

theorem execute_eq_walk (h : net.entry? = some entry) :
    net.execute =
      let outcome := (net.momentAt entry).walk net.limits.callLimit net.limits.chainLimit
        (net.runs + 1) net.limits.chainLimit 0
      (net.ranTo outcome.1, outcome.2.map fun (exit, steps) =>
        ⟨exit, (net.ranTo outcome.1).exitPosition exit, steps⟩) := by
  unfold execute
  rw [h]
  rfl

theorem moments_of_entry (h : net.entry? = some entry) :
    net.moments = Run.moments net.limits.callLimit (net.runs + 1) net.limits.chainLimit
      (net.momentAt entry) := by
  unfold moments
  rw [h]

/-- How a run may end, said by its moments. -/
inductive RunEnds (net : Network) : Network × Except RunFault Ending → Prop where
  /-- The last firing is of an exit without a target. -/
  | exit {state : Run.State} {exit : ExitId} {last : Run.Moment} {before : Nat}
    (bounded : before < net.limits.chainLimit) (is_last : net.moments[before]? = some last)
    (fires : net.fireAt last = (state, .ok exit)) (target : state.graph.target? exit = none) :
    RunEnds net
      (net.ranTo state, .ok ⟨exit, (net.ranTo state).exitPosition exit, before + 1⟩)
  /-- The last firing fails. -/
  | fault {state : Run.State} {fault : RunFault} {last : Run.Moment} {before : Nat}
    (bounded : before < net.limits.chainLimit) (is_last : net.moments[before]? = some last)
    (fails : net.fireAt last = (state, .error fault)) :
    RunEnds net (net.ranTo state, .error fault)
  /-- The run is cut off. -/
  | cut {last : Run.Moment} (is_last : net.moments[net.limits.chainLimit]? = some last) :
    RunEnds net (net.ranTo last.state, .error (.chainExhausted net.limits.chainLimit))

/-- **Every run of a network with an entry ends in one of three ways.** -/
theorem ends_execute (h : net.entry? = some entry) : net.RunEnds net.execute := by
  have hends := Run.Moment.ends_walk net.limits.callLimit net.limits.chainLimit (net.runs + 1)
    net.limits.chainLimit 0 (net.momentAt entry)
  have hmoments := moments_of_entry h
  rw [execute_eq_walk h]
  generalize (net.momentAt entry).walk net.limits.callLimit net.limits.chainLimit (net.runs + 1)
    net.limits.chainLimit 0 = outcome at hends
  cases hends with
  | exit bounded is_last fires target =>
    rw [Nat.zero_add]
    exact .exit bounded (by rwa [hmoments]) fires target
  | fault bounded is_last fails => exact .fault bounded (by rwa [hmoments]) fails
  | cut is_last => exact .cut (by rwa [hmoments])

/-- A run that has ended, or failed, has come to no further moment. -/
theorem getElem?_moments_of_ended {number : Nat} {last : Run.Moment}
    (h : net.moments[number]? = some last)
    (hlast : last.next? net.limits.callLimit (net.runs + 1) = none) :
    net.moments.length = number + 1 := by
  cases hentry : net.entry? with
  | none => simp [moments, hentry] at h
  | some entry =>
    rw [moments_of_entry hentry] at h ⊢
    exact Run.length_moments_of_next?_none h hlast

/-- The token waits nowhere after a firing that fails. -/
theorem next?_of_fails {moment : Run.Moment} {fault : RunFault}
    (h : (net.fireAt moment).2 = .error fault) :
    moment.next? net.limits.callLimit (net.runs + 1) = none := by
  unfold Run.Moment.next?
  split
  next => rfl
  next hfired =>
    rw [fireAt, hfired] at h
    cases h

/-- The token waits nowhere after a firing of an exit without a target. -/
theorem next?_of_leaves {moment : Run.Moment} {state : Run.State} {exit : ExitId}
    (h : net.fireAt moment = (state, .ok exit)) (htarget : state.graph.target? exit = none) :
    moment.next? net.limits.callLimit (net.runs + 1) = none := by
  unfold Run.Moment.next?
  rw [show moment.fire net.limits.callLimit (net.runs + 1) = _ from h]
  exact Option.map_eq_none_iff.mpr htarget

theorem FailsAt.length_moments {number : Nat} {fault : RunFault} (h : net.FailsAt number fault) :
    net.moments.length = number := by
  obtain ⟨before, moment, rfl, hmoment, hfails⟩ := h.firing
  exact getElem?_moments_of_ended hmoment (next?_of_fails hfails)

/-- The moments of a run of a closed graph are sound. -/
theorem sound_of_mem_moments (hclosed : net.graph.Closed) (hentry : net.entry? = some entry)
    {moment : Run.Moment} (hmem : moment ∈ net.moments) : moment.Sound := by
  obtain ⟨ports, hports, hexposed⟩ := Option.bind_eq_some_iff.mp hentry
  have hsound : (net.momentAt entry).Sound :=
    ⟨hclosed, (hclosed.knows hports).entry entry hexposed⟩
  rw [moments_of_entry hentry] at hmem
  exact hsound.moments hmem

/-- A run that ends has one moment for each of its steps, at least one and no more than the limit,
and its exit is one of the graph that has no target. -/
theorem ending_of_execute (hclosed : net.graph.Closed) (hentry : net.entry? = some entry)
    {ending : Ending} (h : net.execute.2 = .ok ending) :
    1 ≤ ending.steps ∧ ending.steps ≤ net.limits.chainLimit ∧
      ending.steps = net.moments.length ∧ net.execute.1.hasExit ending.exit ∧
        net.execute.1.graph.target? ending.exit = none := by
  have hends := ends_execute hentry
  generalize net.execute = outcome at h hends ⊢
  cases hends with
  | fault | cut => cases h
  -- Only the last case gives an ending: the exit has no target, so no moment follows
  | exit bounded is_last fires target =>
    obtain rfl := Except.ok.inj h
    have hfired := (sound_of_mem_moments hclosed hentry (List.mem_of_getElem? is_last)).fire
      net.limits.callLimit (net.runs + 1)
    rw [show Run.Moment.fire _ _ _ = _ from fires] at hfired
    exact ⟨Nat.succ_pos _, bounded,
      (getElem?_moments_of_ended is_last (next?_of_leaves fires target)).symm,
      decide_eq_true hfired.2, target⟩

/-- A run of a closed graph that fails is cut off, or a bit reads a value that is not binary or the
call limit is reached, at a firing within the limit. -/
theorem failsAt_of_execute (hclosed : net.graph.Closed) (hentry : net.entry? = some entry)
    {fault : RunFault} (h : net.execute.2 = .error fault) :
    net.limits.chainLimit < net.moments.length ∨ ∃ number, net.FailsAt number fault ∧
      ((∃ node value, fault = .invalidBit node value) ∨
        ∃ node, fault = .callLimit node net.limits.callLimit) := by
  have hends := ends_execute hentry
  generalize houtcome : net.execute = outcome at hends
  have hresult : outcome.2 = .error fault := by rw [← houtcome, h]
  -- A run that fails has spent its limit, or the last of its moments is at fault
  cases hends with
  | exit => cases hresult
  | cut is_last => exact .inl (List.getElem?_eq_some_iff.mp is_last).1
  | fault bounded is_last fails =>
    obtain rfl := Except.error.inj hresult
    have hfired := (sound_of_mem_moments hclosed hentry (List.mem_of_getElem? is_last)).fire
      net.limits.callLimit (net.runs + 1)
    rw [show Run.Moment.fire _ _ _ = _ from fails] at hfired
    exact .inr ⟨_, ⟨h, _, _, rfl, is_last, congrArg Prod.snd fails⟩, hfired⟩

/-- **The limit on the firings of a run is a pure cut-off.**  Take a network that can come about,
whose root has an entry, and two limits.

* If the run under the larger limit ends after no more steps than the smaller one, or reads a value
  that is not binary or reaches the call limit at a firing that the smaller limit allows, the run
  under the smaller limit is the same, result and network.
* Otherwise the run under the smaller limit is exhausted and names this limit, and it leaves the
  network just as the longer run has it after as many firings as the smaller limit allows.

A run that ends has made at least one step, no more than the limit, and has left through an exit of
the graph that has no target. -/
theorem execute_withChainLimit (h : net.Reachable) (hentry : net.entry? = some entry)
    {lower upper : Nat} (hle : lower ≤ upper) :
    let long := net.withChainLimit upper
    let short := net.withChainLimit lower
    let within := (∃ ending, long.execute.2 = .ok ending ∧ ending.steps ≤ lower) ∨
      ∃ number fault, long.FailsAt number fault ∧ number ≤ lower ∧
        ((∃ node value, fault = .invalidBit node value) ∨
          ∃ node, fault = .callLimit node net.limits.callLimit)
    (within → short.execute = (long.execute.1.withChainLimit lower, long.execute.2)) ∧
    (¬ within → ∃ moment, long.moments[lower]? = some moment ∧
      short.execute = (short.ranTo moment.state, .error (.chainExhausted lower))) ∧
    ∀ ending, long.execute.2 = .ok ending → 1 ≤ ending.steps ∧ ending.steps ≤ upper ∧
      long.execute.1.hasExit ending.exit ∧ long.execute.1.graph.target? ending.exit = none := by
  intro long short within
  have hclosed : long.graph.Closed := h.closed
  have hlong : long.entry? = some entry := hentry
  have hshort : short.entry? = some entry := hentry
  have hmoments : long.moments =
      Run.moments net.limits.callLimit (net.runs + 1) upper (net.momentAt entry) :=
    moments_of_entry hlong
  refine ⟨fun hwithin => ?same, fun hwithin => ?cut, fun ending hending => ?bounds⟩
  case bounds =>
    obtain ⟨hpos, hbound, _, hexit, htarget⟩ := ending_of_execute hclosed hlong hending
    exact ⟨hpos, hbound, hexit, htarget⟩
  case same =>
    -- The run under the larger limit has no moment left at which the smaller limit is spent
    have hlength : long.moments.length ≤ lower := by
      rcases hwithin with ⟨ending, hending, hsteps⟩ | ⟨number, fault, hfails, hnumber, -⟩
      · obtain ⟨_, _, hlength, _⟩ := ending_of_execute hclosed hlong hending
        omega
      · have hlength := hfails.length_moments
        omega
    have hnone := List.getElem?_eq_none hlength
    rw [hmoments] at hnone
    have hwalk := Run.walk_of_moments_none lower upper hle 0 (net.momentAt entry) hnone
    rw [execute_eq_walk hshort, execute_eq_walk hlong]
    exact congrArg (fun outcome : Run.State × Except RunFault (ExitId × Nat) =>
      (short.ranTo outcome.1, outcome.2.map fun (exit, steps) =>
        (⟨exit, (short.ranTo outcome.1).exitPosition exit, steps⟩ : Ending))) hwalk
  case cut =>
    cases hlast : long.moments[lower]? with
    | some last =>
      rw [hmoments] at hlast
      refine ⟨last, rfl, ?_⟩
      have hwalk := Run.walk_of_moments_some lower hle 0 (net.momentAt entry) hlast
      rw [execute_eq_walk hshort]
      exact congrArg (fun outcome : Run.State × Except RunFault (ExitId × Nat) =>
        (short.ranTo outcome.1, outcome.2.map fun (exit, steps) =>
          (⟨exit, (short.ranTo outcome.1).exitPosition exit, steps⟩ : Ending))) hwalk
    | none =>
      -- Without such a moment the longer run is over within the smaller limit
      have hlength := List.getElem?_eq_none_iff.mp hlast
      refine absurd ?_ hwithin
      cases hresult : long.execute.2 with
      | ok ending =>
        obtain ⟨_, _, hsteps, _⟩ := ending_of_execute hclosed hlong hresult
        exact .inl ⟨ending, hresult, by omega⟩
      | error fault =>
        rcases failsAt_of_execute hclosed hlong hresult with hcut | ⟨number, hfails, hkind⟩
        · change upper < _ at hcut
          omega
        · exact .inr ⟨number, fault, hfails, hfails.length_moments ▸ hlength, hkind⟩

/-- A counter: the constant one, the sum and the join of its exits fire one after the other. -/
def counter : Network :=
  (Arithmetic.library.instantiate "++" {}).toOption.getD default

/-- A limit of three firings is enough for the counter.  With two the sum is there, but the token
has not come to the join. -/
theorem execute_withChainLimit_counter :
    ∃ built, Arithmetic.library.instantiate "++" {} = .ok built ∧ built = counter ∧
    (counter.withChainLimit 3).execute.2 = (counter.withChainLimit 7).execute.2 ∧
    (counter.withChainLimit 2).execute.2 = .error (.chainExhausted 2) ∧
    ∃ moment, (counter.withChainLimit 7).moments[2]? = some moment ∧
      (counter.withChainLimit 2).execute.1 = (counter.withChainLimit 2).ranTo moment.state := by
  obtain ⟨built, hbuilt, hnet⟩ : ∃ built, Arithmetic.library.instantiate "++" {} = .ok built ∧
      built = counter := ⟨_, by decide +kernel, rfl⟩
  have hreachable : counter.Reachable := ⟨_, _, _, built, [], hbuilt, hnet.symm⟩
  obtain ⟨entry, hentry⟩ : ∃ entry, counter.entry? = some entry :=
    Option.isSome_iff_exists.mp (by decide +kernel)
  obtain ⟨ending, hending, hsteps⟩ : ∃ ending,
      (counter.withChainLimit 7).execute.2 = .ok ending ∧ ending.steps = 3 :=
    ⟨⟨⟨1⟩, some 1, 3⟩, by decide +kernel, rfl⟩
  obtain ⟨hsame, -, -⟩ :=
    execute_withChainLimit hreachable hentry (show 3 ≤ 7 by decide)
  obtain ⟨-, hcut, -⟩ :=
    execute_withChainLimit hreachable hentry (show 2 ≤ 7 by decide)
  have hthree := hsame (.inl ⟨ending, hending, hsteps.le⟩)
  obtain ⟨moment, hmoment, htwo⟩ := hcut (by
    rintro (⟨other, hother, hless⟩ | ⟨_, _, hfails, _⟩)
    · obtain rfl := Except.ok.inj (hending.symm.trans hother)
      omega
    · cases hending.symm.trans hfails.result)
  exact ⟨built, hbuilt, hnet, by rw [hthree], by rw [htwo], moment, hmoment, by rw [htwo]⟩

end Network

end TokenNet
