import Mathlib.Data.List.Chain
import TokenNet.Failure
import TokenNet.Proofs.Run.Control

/-!
# Runs of guarded graphs

If every cycle of the control graph passes through a bit, no run goes on for ever: between two
firings of bits the token meets no node twice, and each bit may fire only as often as the call limit
says.  Hence a run is no longer than the number of calls that are left to the bits times the number
of nodes, each taken one larger.

## Main statements

- `Graph.Roams.next`: a firing leaves less room than there was.
- `Run.length_trail_le`: a walk fires no more nodes than there was room for.
- `Network.execute_of_guarded`: a bound on the length of every run.
-/

namespace TokenNet

/-! ## Trails -/

namespace Run

variable {callLimit : UInt32} {run : Nat}

/-- The nodes that a walk asks to fire, in order.  If the walk fails because a node cannot fire,
that node is the last. -/
def trail (callLimit : UInt32) (run : Nat) : Nat → EntryId → State → List NodeId
  | 0, _, _ => []
  | budget + 1, entry, state =>
    nodeAt state.graph entry ::
      match fireAt callLimit run entry state with
      | (_, .error _) => []
      | (state, .ok exit) =>
        match state.graph.target? exit with
        | some next => trail callLimit run budget next state
        | none => []

/-- A firing does not fail because the budget is spent. -/
theorem fireAt_ne_chainExhausted (entry : EntryId) (state : State) (named : Nat) :
    (fireAt callLimit run entry state).2 ≠ .error (.chainExhausted named) := by
  have hemit (graph : Graph) (node : NodeId) (ports : Interface) (evaluation : Evaluation)
      (events : List Event) :
      (graph.emit node ports evaluation events).result ≠ .error (.chainExhausted named) := by
    unfold Graph.emit
    dsimp only
    split <;> simp
  -- Every way a firing ends has another fault or none
  change (state.graph.fire callLimit (nodeAt state.graph entry)).result ≠ _
  unfold Graph.fire
  split
  next => simp
  next record _ =>
    split
    next => simp
    next => simp
    next primitive ports _ =>
      unfold Graph.firePrimitive
      dsimp only
      split
      next => simp
      next evaluation _ =>
        split
        next => exact hemit _ _ _ _ _
        next =>
          split
          next => simp
          next => exact hemit _ _ _ _ _

section Steps

variable (limit budget steps : Nat) {entry : EntryId} {state fired : State} {exit : ExitId}

theorem walk_of_error {fault : RunFault}
    (h : fireAt callLimit run entry state = (fired, .error fault)) :
    walk callLimit limit run (budget + 1) steps entry state = (fired, .error fault) ∧
      trail callLimit run (budget + 1) entry state = [nodeAt state.graph entry] := by
  simp [walk, trail, h]

theorem walk_of_end (h : fireAt callLimit run entry state = (fired, .ok exit))
    (htarget : fired.graph.target? exit = none) :
    walk callLimit limit run (budget + 1) steps entry state = (fired, .ok (exit, steps + 1)) ∧
      trail callLimit run (budget + 1) entry state = [nodeAt state.graph entry] := by
  simp [walk, trail, h, htarget]

theorem walk_of_next {next : EntryId} (h : fireAt callLimit run entry state = (fired, .ok exit))
    (htarget : fired.graph.target? exit = some next) :
    walk callLimit limit run (budget + 1) steps entry state =
        walk callLimit limit run budget (steps + 1) next fired ∧
      trail callLimit run (budget + 1) entry state =
        nodeAt state.graph entry :: trail callLimit run budget next fired := by
  simp [walk, trail, h, htarget]

end Steps

/-- **A walk that ends counts one step for each node of its trail.** -/
theorem steps_of_walk (callLimit : UInt32) (limit run : Nat) :
    ∀ (budget steps : Nat) (entry : EntryId) (state : State) {exit : ExitId} {total : Nat},
    (walk callLimit limit run budget steps entry state).2 = .ok (exit, total) →
      total = steps + (trail callLimit run budget entry state).length := by
  intro budget
  induction budget with
  | zero => exact fun _ _ _ _ _ h => nomatch h
  | succ budget ih =>
    -- A firing that fails gives no count, and the others add one to it
    intro steps entry state exit total h
    rcases hfired : fireAt callLimit run entry state with ⟨fired, fault | found⟩
    · obtain ⟨hwalk, _⟩ := walk_of_error limit budget steps hfired
      rw [hwalk] at h
      cases h
    · cases htarget : fired.graph.target? found with
      | none =>
        obtain ⟨hwalk, htrail⟩ :=
          walk_of_end limit budget steps hfired htarget
        rw [hwalk] at h
        rw [htrail]
        exact (congrArg Prod.snd (Except.ok.inj h)).symm
      | some next =>
        obtain ⟨hwalk, htrail⟩ :=
          walk_of_next limit budget steps hfired htarget
        rw [hwalk] at h
        rw [htrail, ih _ _ _ h, List.length_cons]
        omega

end Run

/-! ## Room -/

namespace Graph

variable {graph : Graph} {callLimit : UInt32} {visited : List NodeId}

/-- How many firings are possible while the given nodes are not met again: the bits may use up
their calls, and after each of them every node that acts may fire once. -/
def room (graph : Graph) (callLimit : UInt32) (visited : List NodeId) : Nat :=
  graph.allowance callLimit * (graph.actorCount + 1) + (graph.actorCount + 1 - visited.length)

/-- What is known of a walk that comes to an entry and has met the given nodes since a bit fired
last: they are different nodes, none of them a bit, and the token came from each to the next. -/
structure Roams (graph : Graph) (visited : List NodeId) (entry : EntryId) : Prop where
  nodup : visited.Nodup
  acts : ∀ node ∈ visited, graph.Acts node
  plain : ∀ node ∈ visited, ¬ graph.IsBit node
  chain : ∀ node, graph.admitted? entry = some node → List.IsChain graph.Hands (visited ++ [node])

theorem Roams.start (graph : Graph) (entry : EntryId) : graph.Roams [] entry where
  nodup := List.nodup_nil
  acts := by simp
  plain := by simp
  chain := fun _ _ => by simp

/-- There is always room to ask one more node. -/
theorem Roams.room_pos {entry : EntryId} (h : graph.Roams visited entry) :
    0 < graph.room callLimit visited := by
  have hle := length_le_actorCount h.nodup h.acts
  unfold room
  omega

/-- In a guarded graph a walk meets no node twice before a bit fires: the walk from the node back
to it would be a cycle without a bit. -/
theorem Roams.notMem {entry : EntryId} (h : graph.Roams visited entry) (hguarded : graph.Guarded)
    {node : NodeId} (hadmitted : graph.admitted? entry = some node) : node ∉ visited := by
  intro hmem
  obtain ⟨before, after, rfl⟩ := List.append_of_mem hmem
  have hchain := h.chain node hadmitted
  rw [List.append_assoc] at hchain
  obtain ⟨bit, hbit, hisBit⟩ := hguarded node after
    (List.nodup_append.mp h.nodup).2.1 hchain.right_of_append
  exact h.plain bit (List.mem_append_right _ hbit) hisBit

/-- **A firing leaves less room than there was.**  A bit uses up one of its calls, and then every
node may be met again; any other node is one that was not met before. -/
theorem Roams.next {entry : EntryId} (h : graph.Roams visited entry) (hguarded : graph.Guarded)
    {exit : ExitId} (hfire : (graph.fire callLimit (Run.nodeAt graph entry)).result = .ok exit) :
    let graph' := (graph.fire callLimit (Run.nodeAt graph entry)).graph
    graph'.Guarded ∧ ∀ next, graph'.target? exit = some next → ∃ visited',
      graph'.Roams visited' next ∧
        graph'.room callLimit visited' < graph.room callLimit visited := by
  obtain ⟨record, hrecord, hexit, hfires⟩ := fires_of_fire hfire
  generalize (graph.fire callLimit (Run.nodeAt graph entry)).graph = graph' at hfires ⊢
  have hsame := hfires.sameControl
  refine ⟨hsame.guarded hguarded, fun next htarget => ?_⟩
  -- An entry that admits to no node leads to one that the graph does not have
  obtain ⟨node, hadmitted⟩ : ∃ node, graph.admitted? entry = some node := by
    cases hadmitted : graph.admitted? entry with
    | some node => exact ⟨node, rfl⟩
    | none => simp [Run.nodeAt, hadmitted, node?] at hrecord
  obtain rfl : Run.nodeAt graph entry = node := by rw [Run.nodeAt, hadmitted, Option.getD_some]
  have hsize := hsame.actorCount
  have hactors := length_le_actorCount h.nodup h.acts
  cases hbit : record.isBit with
  | true =>
    -- One call less is worth as much room as all nodes take up
    have hless := hfires.allowance_lt hrecord hbit
    refine ⟨[], .start graph' next, ?_⟩
    unfold room
    rw [hsize, List.length_nil]
    have hcalls := Nat.mul_le_mul_right (graph.actorCount + 1) (Nat.succ_le_of_lt hless)
    rw [Nat.succ_mul] at hcalls
    omega
  | false =>
    -- The allowance stays, and one node more has been met
    let node := Run.nodeAt graph entry
    have hnew := h.notMem hguarded hadmitted
    have hplain : ¬ graph.IsBit node := by
      rintro ⟨found, hfound, hisBit⟩
      obtain rfl := Option.some.inj (hrecord.symm.trans hfound)
      exact absurd hisBit (by simp [hbit])
    have hacts : graph.Acts node := ⟨record, hrecord, Node.acts_of_mem_ways hexit⟩
    have hnodup : (visited ++ [node]).Nodup := by
      rw [List.nodup_append]
      refine ⟨h.nodup, by simp, fun old hold _ hmem hsame => ?_⟩
      rw [List.mem_singleton.mp hmem] at hsame
      subst hsame
      exact hnew hold
    have hmembers {property : NodeId → Prop} (hold : ∀ old ∈ visited, property old)
        (hlast : property node) : ∀ old ∈ visited ++ [node], property old := by
      intro old hmem
      rcases List.mem_append.mp hmem with hmem | hmem
      · exact hold old hmem
      · rw [List.mem_singleton.mp hmem]
        exact hlast
    have hactors' := length_le_actorCount hnodup (hmembers h.acts hacts)
    refine ⟨visited ++ [node], ⟨hnodup, ?_, ?_, fun taker htaker => ?_⟩, ?_⟩
    · exact fun old hmem => hsame.acts (hmembers h.acts hacts old hmem)
    · exact fun old hmem hisBit => hmembers h.plain hplain old hmem (hsame.symm.isBit hisBit)
    · -- The token goes from the node that fired to the one behind the next entry
      have hhands : graph.Hands node taker := by
        refine ⟨record, exit, next, hrecord, hexit, ?_, ?_⟩
        · rw [← hsame.target?, htarget]
        · rw [← hsame.admitted?, htaker]
      have hchain : List.IsChain graph.Hands (visited ++ [node] ++ [taker]) := by
        refine (h.chain node hadmitted).append (.singleton taker) fun last hlast other hother => ?_
        obtain rfl : node = last := by simpa using hlast
        obtain rfl : taker = other := by simpa using hother
        exact hhands
      exact hchain.imp fun _ _ => hsame.symm.hands
    · unfold room
      rw [hsize, hfires.allowance_eq hbit]
      rw [List.length_append, List.length_singleton] at hactors' ⊢
      omega

end Graph

/-! ## Walks and runs -/

namespace Run

/-- **A walk of a guarded graph fires no more nodes than there was room for**, and it is not
exhausted before it has fired as many. -/
theorem length_trail_le {callLimit : UInt32} (limit run : Nat) :
    ∀ (budget steps : Nat) {entry : EntryId} {state : State} {visited : List NodeId},
      state.graph.Guarded → state.graph.Roams visited entry →
      (trail callLimit run budget entry state).length ≤ state.graph.room callLimit visited ∧
      ∀ named, (walk callLimit limit run budget steps entry state).2 =
        .error (.chainExhausted named) → budget < state.graph.room callLimit visited := by
  intro budget
  -- On the budget; each firing that is followed by another one uses up some of the room
  induction budget with
  | zero => exact fun _ _ _ _ _ hroams => ⟨Nat.zero_le _, fun _ _ => hroams.room_pos⟩
  | succ budget ih =>
    intro steps entry state visited hguarded hroams
    have hpos : 0 < state.graph.room callLimit visited := hroams.room_pos
    rcases hfired : fireAt callLimit run entry state with ⟨fired, fault | exit⟩
    -- The last firing is on the trail as well, and there is room for it
    · obtain ⟨hwalk, htrail⟩ :=
        walk_of_error limit budget steps hfired
      have hfault (named : Nat) : fault ≠ .chainExhausted named := fun hsame =>
        fireAt_ne_chainExhausted entry state named
          ((congrArg Prod.snd hfired).trans (congrArg Except.error hsame))
      rw [hwalk, htrail]
      exact ⟨hpos, fun named hnamed => absurd (Except.error.inj hnamed) (hfault named)⟩
    · have hgraph : fired.graph = (state.graph.fire callLimit (nodeAt state.graph entry)).graph :=
        (congrArg (fun outcome => outcome.1.graph) hfired).symm
      obtain ⟨hguarded', hroams'⟩ := hroams.next hguarded (congrArg Prod.snd hfired)
      rw [← hgraph] at hguarded' hroams'
      cases htarget : fired.graph.target? exit with
      | none =>
        obtain ⟨hwalk, htrail⟩ :=
          walk_of_end limit budget steps hfired htarget
        rw [hwalk, htrail]
        exact ⟨hpos, fun _ hok => nomatch hok⟩
      -- A firing with a successor leaves less room for the rest
      | some next =>
        obtain ⟨hwalk, htrail⟩ :=
          walk_of_next limit budget steps hfired htarget
        obtain ⟨visited', hvisited', hless⟩ := hroams' next htarget
        obtain ⟨hlength, hexhausted⟩ := ih (steps + 1) hguarded' hvisited'
        rw [hwalk, htrail, List.length_cons]
        refine ⟨by omega, fun named hnamed => ?_⟩
        have hbudget := hexhausted named hnamed
        omega

end Run

namespace Network

variable {net : Network}

/-- The nodes that the next run asks to fire, in order. -/
def trail (net : Network) : List NodeId :=
  match net.entry? with
  | none => []
  | some entry =>
    Run.trail net.limits.callLimit (net.runs + 1) net.limits.chainLimit entry
      ⟨net.graph, net.ledger⟩

/-- How a run of a network ends is how its walk ends. -/
theorem execute_of_entry {entry : EntryId} (h : net.entry? = some entry) :
    net.execute.2 = (Run.walk net.limits.callLimit net.limits.chainLimit (net.runs + 1)
      net.limits.chainLimit 0 entry ⟨net.graph, net.ledger⟩).2.map fun (exit, steps) =>
        ⟨exit, net.execute.1.exitPosition exit, steps⟩ := by
  unfold execute
  rw [h]

/-- **Runs of a network all of whose control cycles pass through a bit are bounded**, whatever the
network remembers and shows.  With b bits, n nodes that act and the call limit L no run fires more
than (b L + 1) (n + 1) nodes; a run that ends counts just these; and where so many firings are
allowed, no run is exhausted. -/
theorem execute_of_guarded (net : Network) (hguarded : net.graph.Guarded) :
    let bound := (net.graph.bitCount * net.limits.callLimit.toNat + 1) * (net.graph.actorCount + 1)
    net.trail.length ≤ bound ∧
      (∀ ending, net.execute.2 = .ok ending → ending.steps = net.trail.length) ∧
      (bound ≤ net.limits.chainLimit →
        ∀ limit, net.execute.2 ≠ .error (.chainExhausted limit)) := by
  intro bound
  -- At first every bit has at most the calls of the limit left, and no node was met
  have hroom : net.graph.room net.limits.callLimit [] ≤ bound := by
    have hcalls := Nat.mul_le_mul_right (net.graph.actorCount + 1)
      (net.graph.allowance_le net.limits.callLimit)
    unfold Graph.room
    rw [List.length_nil, Nat.sub_zero]
    change _ ≤ (net.graph.bitCount * net.limits.callLimit.toNat + 1) * (net.graph.actorCount + 1)
    rw [Nat.add_mul, Nat.one_mul]
    omega
  -- Without an entry there is no trail and no limit to spend
  cases hentry : net.entry? with
  | none => simp [trail, execute, hentry]
  | some entry =>
    let state : Run.State := ⟨net.graph, net.ledger⟩
    have hroams : state.graph.Roams [] entry := .start net.graph entry
    have htrail : net.trail = Run.trail net.limits.callLimit (net.runs + 1) net.limits.chainLimit
        entry state := by
      unfold trail
      rw [hentry]
    obtain ⟨hlength, hexhausted⟩ := Run.length_trail_le net.limits.chainLimit (net.runs + 1)
      net.limits.chainLimit 0 (show state.graph.Guarded from hguarded) hroams
    have hsteps {exit : ExitId} {total : Nat} (hend : (Run.walk net.limits.callLimit
        net.limits.chainLimit (net.runs + 1) net.limits.chainLimit 0 entry state).2 =
          .ok (exit, total)) := Run.steps_of_walk _ _ _ _ _ _ _ hend
    -- The trail fits into the room, so a limit as large as the bound is not spent
    rw [execute_of_entry hentry, htrail]
    refine ⟨hlength.trans hroom, ?_⟩
    cases hwalk : (Run.walk net.limits.callLimit net.limits.chainLimit (net.runs + 1)
        net.limits.chainLimit 0 entry state).2 with
    | ok ended =>
      obtain ⟨exit, total⟩ := ended
      refine ⟨fun ending hending => ?_, fun _ _ hfault => nomatch hfault⟩
      rw [← Except.ok.inj hending, hsteps hwalk, Nat.zero_add]
    | error fault =>
      refine ⟨fun _ hending => (nomatch hending), fun hbound limit hlimit => ?_⟩
      obtain rfl : fault = .chainExhausted limit := Except.error.inj hlimit
      have hless := hexhausted limit hwalk
      exact absurd (hless.trans_le hroom) (Nat.not_lt.mpr hbound)

/-- A bit and an adder that hand the token to each other. -/
def exchange : Specification :=
  .composite "exchange" 0 0
    [.part "!" "bit", .part "+" "adder", .controlFlow "bit" 0 "adder", .controlFlow "bit" 1 "adder",
      .controlFlow "adder" 0 "bit", .controlFlow "adder" 1 "bit", .exposeEntry "bit"]

/-- The network of an exchange. -/
def exchangeNetwork : Network :=
  (exchange.instantiateAlone {}).toOption.getD default

/-- An exchange asks for 39 firings, the last of which fails because the bit was called too often;
the bound is 63. -/
theorem execute_of_exchange : exchange.instantiateAlone {} = .ok exchangeNetwork ∧
    exchangeNetwork.graph.Guarded ∧ exchangeNetwork.graph.bitCount = 1 ∧
    exchangeNetwork.graph.actorCount = 2 ∧ exchangeNetwork.trail.length = 39 ∧
    ∀ limit, exchangeNetwork.execute.2 ≠ .error (.chainExhausted limit) := by
  have hguarded : exchangeNetwork.graph.Guarded := Graph.guarded_of_edges (by decide +kernel)
  exact ⟨by decide +kernel, hguarded, by decide +kernel, by decide +kernel, by decide +kernel,
    (execute_of_guarded _ hguarded).2.2 (by decide +kernel)⟩

end Network

end TokenNet
