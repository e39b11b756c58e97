import TokenNet.Proofs.Run.Guarded

/-!
# Attempts

A walk asks one node after another to fire.  An attempt is a node that is asked, together with the
graph as it is at that moment.  The attempts of a walk say what every firing finds; what they leave
behind is what the next one finds.  The attempts of a history are those of its runs, one run after
the other.

## Main statements

- `Run.walk_induction`: what one firing does to a relation, a walk does.
- `Run.attempt_of_walk_error`: a walk that fails before its budget is spent fails as one of its
  attempts does.
- `Network.attempts`, `Network.history`: the attempts of a run and of a sequence of calls.
-/

namespace TokenNet

/-- A node that is asked to fire, and the graph as it is then. -/
structure Run.Attempt where
  graph : Graph
  node : NodeId

/-- What an attempt leaves behind. -/
def Run.Attempt.firing (callLimit : UInt32) (attempt : Attempt) : Firing :=
  attempt.graph.fire callLimit attempt.node

namespace Run

variable {callLimit : UInt32} {run : Nat}

/-- The attempts of a walk, in order.  If the walk fails because a node cannot fire, the attempt to
fire that node is the last. -/
def attempts (callLimit : UInt32) (run : Nat) : Nat → EntryId → State → List Attempt
  | 0, _, _ => []
  | budget + 1, entry, state =>
    ⟨state.graph, nodeAt state.graph entry⟩ ::
      match fireAt callLimit run entry state with
      | (_, .error _) => []
      | (state, .ok exit) =>
        match state.graph.target? exit with
        | some next => attempts callLimit run budget next state
        | none => []

/-- **A walk goes from its first graph to its last through its attempts.**  What relates a graph to
itself, and is kept by a firing put in front, relates both ends of every walk. -/
theorem walk_induction {motive : Graph → List Attempt → Graph → Prop}
    (rest : ∀ graph, motive graph [] graph)
    (fire : ∀ graph node later graph', motive (graph.fire callLimit node).graph later graph' →
      motive graph (⟨graph, node⟩ :: later) graph')
    (limit : Nat) : ∀ (budget steps : Nat) (entry : EntryId) (state : State),
    motive state.graph (attempts callLimit run budget entry state)
      (walk callLimit limit run budget steps entry state).1.graph := by
  intro budget
  induction budget with
  | zero => exact fun _ _ state => rest state.graph
  | succ budget ih =>
    intro steps entry state
    -- A firing at an entry is the firing of the node behind it, with the ledger put aside
    have hgraph : (fireAt callLimit run entry state).1.graph =
        (state.graph.fire callLimit (nodeAt state.graph entry)).graph := rfl
    unfold attempts walk
    refine fire state.graph (nodeAt state.graph entry) _ _ ?_
    rw [← hgraph]
    rcases fireAt callLimit run entry state with ⟨after, fault | exit⟩
    · exact rest after.graph
    · dsimp only
      cases after.graph.target? exit with
      | none => exact rest after.graph
      | some next => exact ih (steps + 1) next after

/-- A walk that fails before its budget is spent fails as one of its attempts does. -/
theorem attempt_of_walk_error (limit : Nat) :
    ∀ (budget steps : Nat) (entry : EntryId) (state : State) {fault : RunFault},
    (walk callLimit limit run budget steps entry state).2 = .error fault →
      fault = .chainExhausted limit ∨ ∃ attempt ∈ attempts callLimit run budget entry state,
        (attempt.firing callLimit).result = .error fault := by
  intro budget
  induction budget with
  | zero => exact fun _ _ _ _ h => Or.inl (Except.error.inj h).symm
  | succ budget ih =>
    intro steps entry state fault h
    have hresult : (fireAt callLimit run entry state).2 =
        (state.graph.fire callLimit (nodeAt state.graph entry)).result := rfl
    unfold walk at h
    unfold attempts
    -- The walk fails at its first node, or the token leaves it and the rest of the walk fails
    rcases hfired : fireAt callLimit run entry state with ⟨after, found | exit⟩
    · rw [hfired] at h hresult
      obtain rfl : found = fault := Except.error.inj h
      exact Or.inr ⟨_, List.mem_cons_self, hresult.symm⟩
    · rw [hfired] at h
      dsimp only at h ⊢
      cases htarget : after.graph.target? exit with
      | none =>
        rw [htarget] at h
        cases h
      | some next =>
        rw [htarget] at h
        rcases ih (steps + 1) next after h with hspent | ⟨attempt, hmem, hfault⟩
        · exact Or.inl hspent
        · exact Or.inr ⟨attempt, List.mem_cons_of_mem _ hmem, hfault⟩

end Run

namespace Network

/-- The attempts of the next run, in order. -/
def attempts (net : Network) : List Run.Attempt :=
  match net.entry? with
  | none => []
  | some entry =>
    Run.attempts net.limits.callLimit (net.runs + 1) net.limits.chainLimit entry
      ⟨net.graph, net.ledger⟩

/-- The attempts that a call makes: those of a run, if it starts one. -/
def attemptsOf (net : Network) : Call → List Run.Attempt
  | .execute | .step => net.attempts
  | _ => []

/-- The attempts that calls make, in order, whatever the answers are. -/
def history (net : Network) : List Call → List Run.Attempt
  | [] => []
  | call :: rest => net.attemptsOf call ++ (net.perform call).1.history rest

theorem execute_induction {net : Network} {motive : Graph → List Run.Attempt → Graph → Prop}
    (rest : ∀ graph, motive graph [] graph)
    (fire : ∀ graph node later graph',
      motive (graph.fire net.limits.callLimit node).graph later graph' →
        motive graph (⟨graph, node⟩ :: later) graph') :
    motive net.graph net.attempts net.execute.1.graph := by
  unfold attempts execute
  cases net.entry? with
  | none => exact rest net.graph
  | some entry =>
    let state : Run.State := ⟨net.graph, net.ledger⟩
    exact Run.walk_induction rest fire net.limits.chainLimit net.limits.chainLimit 0 entry state

/-- A run that fails has no entry, is exhausted, or fails as one of its attempts does. -/
theorem attempt_of_execute_error {net : Network} {fault : RunFault}
    (h : net.execute.2 = .error fault) :
    fault = .noEntry ∨ fault = .chainExhausted net.limits.chainLimit ∨
      ∃ attempt ∈ net.attempts, (attempt.firing net.limits.callLimit).result = .error fault := by
  unfold attempts
  cases hentry : net.entry? with
  | none =>
    simp only [execute, hentry, Except.error.injEq] at h
    -- The fault is that of the walk
    exact Or.inl h.symm
  | some entry =>
    rw [execute_of_entry hentry] at h
    cases hwalk : (Run.walk net.limits.callLimit net.limits.chainLimit (net.runs + 1)
        net.limits.chainLimit 0 entry ⟨net.graph, net.ledger⟩).2 with
    | ok ended =>
      rw [hwalk] at h
      cases h
    | error found =>
      rw [hwalk] at h
      obtain rfl : found = fault := Except.error.inj h
      exact Or.inr (Run.attempt_of_walk_error _ _ _ _ _ hwalk)

end Network

end TokenNet
