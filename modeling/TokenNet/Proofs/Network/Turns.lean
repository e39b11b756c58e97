import TokenNet.Proofs.Change.Writes
import TokenNet.Proofs.Network.ChainLimit
import TokenNet.Proofs.Network.Eager

/-!
# Turns

A network may be used through its root only: inlets of the root are written, the network is run, and
nothing is wired.  Then its graph changes by *turns*: an inlet of a node that stands under nothing is
written, or some node fires.  What every turn keeps is true after any number of such calls, and at
every moment of the run that comes next.

## Main statements

- `Turn`, `Turns`: what happens to the graph of a network that is used through its root.
- `Turns.writes`: turns do not wire.
- `Network.turns_performAll`, `Network.turns_of_mem_moments`: calls and runs are made of turns.
-/

namespace TokenNet

namespace Graph

variable {graph graph' : Graph}

/-- What can happen to a graph that is used from above and not wired. -/
inductive Turn : Graph → Graph → Prop where
  /-- An inlet of a node that stands under nothing is written. -/
  | write {graph : Graph} {node : NodeId} {ports : Interface} {inlet : InletId}
      (hloose : graph.parentOf? node = none) (hports : graph.interface? node = some ports)
      (hinlet : inlet ∈ ports.inlets) (value : Value) : Turn graph (graph.writeInlet inlet value)
  /-- A node fires. -/
  | fire (graph : Graph) (callLimit : UInt32) (node : NodeId) :
      Turn graph (graph.fire callLimit node).graph

/-- A sequence of turns. -/
abbrev Turns : Graph → Graph → Prop :=
  Relation.ReflTransGen Turn

theorem Turn.writes (h : Turn graph graph') (hclosed : graph.Closed) : Writes graph graph' := by
  cases h with
  | write _ hports hinlet value =>
    have hport := (hclosed.knows hports).inlets _ hinlet
    exact .single (.port graph hport value)
  | fire callLimit node => exact (moves_fire hclosed callLimit node).writes

/-- **Turns do not wire.** -/
theorem Turns.writes (h : Turns graph graph') (hclosed : graph.Closed) : Writes graph graph' := by
  induction h with
  | refl => exact .refl
  | tail _ hturn ih => exact ih.trans (hturn.writes (ih.uses.leads.closed hclosed))

end Graph

/-! ## Runs -/

namespace Run

open TokenNet.Graph

variable {callLimit : UInt32} {run : Nat}

theorem turn_fireAt (entry : EntryId) (state : State) :
    Turn state.graph (fireAt callLimit run entry state).1.graph :=
  .fire state.graph callLimit (nodeAt state.graph entry)

/-- **A walk is made of turns**, however it ends. -/
theorem turns_walk (limit : Nat) : ∀ (budget steps : Nat) (entry : EntryId) (state : State),
    Turns state.graph (walk callLimit limit run budget steps entry state).1.graph
  | 0, _, _, _ => .refl
  | budget + 1, steps, entry, state => by
    -- The first firing is a turn, whether or not the walk goes on after it
    have hfire : Turn state.graph (fireAt callLimit run entry state).1.graph :=
      turn_fireAt entry state
    unfold walk
    split
    next hfired =>
      rw [hfired] at hfire
      exact .single hfire
    next exit hfired =>
      rw [hfired] at hfire
      split
      next next _ => exact .head hfire (turns_walk limit budget (steps + 1) next _)
      next => exact .single hfire

theorem Moment.exists_fire_of_next? {moment next : Moment}
    (h : moment.next? callLimit run = some next) :
    ∃ exit, moment.fire callLimit run = (next.state, .ok exit) := by
  unfold Moment.next? at h
  rcases hfired : moment.fire callLimit run with ⟨state, fault | exit⟩
  · rw [hfired] at h
    cases h
  · rw [hfired] at h
    obtain ⟨_, _, rfl⟩ := Option.map_eq_some_iff.mp h
    exact ⟨exit, rfl⟩

/-- What is true at the first moment of a walk, and goes over from each moment to the next, is true
at all of them. -/
theorem moments_induction {motive : Moment → Prop} {budget : Nat} {moment later : Moment}
    (hmem : later ∈ moments callLimit run budget moment) (hfirst : motive moment)
    (hnext : ∀ {before after}, motive before → before.next? callLimit run = some after →
      motive after) : motive later := by
  -- The moment itself comes first, and the next one starts the rest
  induction budget generalizing moment with
  | zero => exact List.mem_singleton.mp hmem ▸ hfirst
  | succ budget ih =>
    rcases List.mem_cons.mp hmem with rfl | hlater
    · exact hfirst
    · cases hsecond : moment.next? callLimit run with
      | none => simp [hsecond] at hlater
      | some second =>
        rw [hsecond] at hlater
        exact ih hlater (hnext hfirst hsecond)

theorem length_moments_le (budget : Nat) (moment : Moment) :
    (moments callLimit run budget moment).length ≤ budget + 1 := by
  induction budget generalizing moment with
  | zero => exact Nat.le_refl _
  | succ budget ih =>
    unfold moments
    cases moment.next? callLimit run with
    | none => simp
    | some next => exact Nat.succ_le_succ (ih next)

/-- The moment after a firing is the next one of a run that has not spent its budget. -/
theorem getElem?_moments_succ {budget number : Nat} {moment last next : Moment}
    (h : (moments callLimit run budget moment)[number]? = some last) (hlt : number < budget)
    (hnext : last.next? callLimit run = some next) :
    (moments callLimit run budget moment)[number + 1]? = some next := by
  induction budget generalizing number moment with
  | zero => exact absurd hlt (Nat.not_lt_zero _)
  | succ budget ih =>
    unfold moments at h ⊢
    rw [List.getElem?_cons_succ]
    -- The first moment has the next one behind it, which the budget still admits
    cases number with
    | zero =>
      obtain rfl := Option.some.inj h
      rw [hnext]
      cases budget <;> rfl
    | succ number =>
      rw [List.getElem?_cons_succ] at h
      cases hfirst : moment.next? callLimit run with
      | none => simp [hfirst] at h
      | some second =>
        rw [hfirst] at h
        exact ih h (Nat.lt_of_succ_lt_succ hlt)

end Run

/-! ## Calls -/

namespace Network

open TokenNet.Graph

variable {net : Network}

theorem turns_execute (net : Network) : Turns net.graph net.execute.1.graph := by
  cases hentry : net.entry? with
  | none =>
    unfold execute
    rw [hentry]
  | some entry =>
    rw [execute_eq_walk hentry]
    exact Run.turns_walk net.limits.chainLimit net.limits.chainLimit 0 entry
      ⟨net.graph, net.ledger⟩

/-- **Writing an inlet of the root and running are turns.** -/
theorem turns_perform (hclosed : net.graph.Closed) (hloose : net.graph.parentOf? net.root = none)
    {call : Call} (hcall : call.drives net.root = true) (hwires : call.connects = false) :
    Turns net.graph (net.perform call).1.graph := by
  -- A driving call writes an input of the root or runs the network
  cases call with
  | writeInlet node index value =>
    obtain rfl : node = net.root := of_decide_eq_true hcall
    refine change_induction .refl fun changed hchanged => ?_
    obtain ⟨ports, inlet, hports, hinlet, _, hgraph⟩ := exists_of_writeInlet hclosed hchanged
    rw [hgraph]
    exact .single (.write hloose hports (List.mem_of_getElem? hinlet) value)
  | execute => exact net.turns_execute
  | step => exact net.turns_execute
  | connect => cases hwires
  | _ => cases hcall

theorem turns_performAll {calls : List Call} (hclosed : net.graph.Closed)
    (hloose : net.graph.parentOf? net.root = none)
    (hcalls : ∀ call ∈ calls, call.drives net.root = true ∧ call.connects = false) :
    Turns net.graph (net.performAll calls).1.graph := by
  induction calls generalizing net with
  | nil => exact .refl
  | cons call rest ih =>
    obtain ⟨hcall, hwires⟩ := hcalls call List.mem_cons_self
    have hfirst := turns_perform hclosed hloose hcall hwires
    have huses := (Turns.writes hfirst hclosed).uses
    have hroot := (net.sameBuild_perform call).root
    -- The root is the same node after the first call and still stands under nothing
    refine hfirst.trans (ih (huses.leads.closed hclosed) ?_ fun later hlater => ?_)
    · rw [hroot, huses.samePlan.parentOf?]
      exact hloose
    · rw [hroot]
      exact hcalls later (List.mem_cons_of_mem call hlater)

/-- What is true when a run begins, and goes over from each moment to the next, is true at all of
them. -/
theorem moments_induction {motive : Run.Moment → Prop} {moment : Run.Moment}
    (hmem : moment ∈ net.moments) (hfirst : ∀ entry, motive (net.momentAt entry))
    (hnext : ∀ {before after}, motive before →
      before.next? net.limits.callLimit (net.runs + 1) = some after → motive after) :
    motive moment := by
  cases hentry : net.entry? with
  | none => simp [moments, hentry] at hmem
  | some entry =>
    rw [moments_of_entry hentry] at hmem
    exact Run.moments_induction hmem (hfirst entry) hnext

/-- **The moments of the next run are reached by turns.** -/
theorem turns_of_mem_moments {moment : Run.Moment} (h : moment ∈ net.moments) :
    Turns net.graph moment.state.graph := by
  refine @moments_induction net (fun later => Turns net.graph later.state.graph) moment h
    (fun _ => .refl) fun {before after} hbefore hnext => ?_
  obtain ⟨exit, hfire⟩ := Run.Moment.exists_fire_of_next? hnext
  have hturn := @Run.turn_fireAt net.limits.callLimit (net.runs + 1) before.entry before.state
  rw [show Run.fireAt _ _ _ _ = _ from hfire] at hturn
  exact hbefore.tail hturn

theorem moves_of_mem_moments (hclosed : net.graph.Closed) {moment : Run.Moment}
    (h : moment ∈ net.moments) : net.graph.Moves moment.state.graph := by
  refine @moments_induction net (fun later => net.graph.Moves later.state.graph) moment h
    (fun _ => .refl) fun {before after} hbefore hnext => ?_
  obtain ⟨exit, hfire⟩ := Run.Moment.exists_fire_of_next? hnext
  have hclosed' := (Moves.leads hbefore).closed hclosed
  have hmoves := Run.moves_fireAt hclosed' net.limits.callLimit (net.runs + 1) before.entry
  rw [show Run.fireAt _ _ _ _ = _ from hfire] at hmoves
  exact hbefore.trans hmoves

theorem length_moments_le (net : Network) : net.moments.length ≤ net.limits.chainLimit + 1 := by
  cases hentry : net.entry? with
  | none => simp [moments, hentry]
  | some entry =>
    rw [moments_of_entry hentry]
    exact Run.length_moments_le _ _

/-- The next run goes on from a moment at which its limit is not reached. -/
theorem getElem?_moments_succ {number : Nat} {moment next : Run.Moment}
    (h : net.moments[number]? = some moment) (hlt : number < net.limits.chainLimit)
    (hnext : moment.next? net.limits.callLimit (net.runs + 1) = some next) :
    net.moments[number + 1]? = some next := by
  cases hentry : net.entry? with
  | none => simp [moments, hentry] at h
  | some entry =>
    rw [moments_of_entry hentry] at h ⊢
    exact Run.getElem?_moments_succ h hlt hnext

/-- A run that comes to the moment with the number of its limit is cut off there. -/
theorem execute_of_moments_some {moment : Run.Moment}
    (h : net.moments[net.limits.chainLimit]? = some moment) :
    net.execute.2 = .error (.chainExhausted net.limits.chainLimit) := by
  cases hentry : net.entry? with
  | none => simp [moments, hentry] at h
  | some entry =>
    rw [moments_of_entry hentry] at h
    rw [execute_eq_walk hentry, Run.walk_of_moments_some net.limits.chainLimit (Nat.le_refl _) 0 _ h]
    rfl

end Network

end TokenNet
