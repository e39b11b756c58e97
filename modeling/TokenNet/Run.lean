import TokenNet.Graph.Flow
import TokenNet.Ledger

/-!
# Runs

A run moves one token through a graph.  The token enters a node, the node fires one of its exits,
and the exit hands the token to its target; an exit without a target ends the run.

* A join fires the exit it stands for.
* A primitive reads its inlets, writes its outlet and fires the exit that its evaluation names.  If
  it is stateful, its register is set and its call counted first, and a call that reaches the call
  limit fails before anything is written.
* A composite has no behaviour of its own; the token never enters one.

Two guards stop a run that would not end: the call limit of stateful primitives and the limit on
the number of firings.
-/

namespace TokenNet

/-- Why a run failed.  The graph keeps the changes that were made before. -/
inductive RunFault where
  /-- A bit read a value that is not binary. -/
  | invalidBit (node : NodeId) (value : Value)
  /-- A stateful primitive was called too often. -/
  | callLimit (node : NodeId) (limit : UInt32)
  /-- The run did not end within the limit on firings. -/
  | chainExhausted (limit : Nat)
  /-- The network exposes no entry. -/
  | noEntry
  /-- The token came to a node without behaviour. -/
  | notExecutable (node : NodeId)
deriving DecidableEq, Repr, Inhabited

namespace RunFault

/-- Whether a loop guard stopped the run. -/
def isDivergence : RunFault → Bool
  | callLimit .. | chainExhausted .. => true
  | _ => false

/-- The wording of a fault. -/
def message : RunFault → String
  | invalidBit node value => s!"{node.label}: " ++ Primitive.invalidBitMessage value
  | callLimit node limit => s!"{node.label}: too many calls (limit {limit.toNat})"
  | chainExhausted limit => s!"control chain exceeded {limit} steps"
  | noEntry => "program has no control input"
  | notExecutable node => s!"{node.label} cannot be executed"

end RunFault

/-! ## One firing -/

/-- What the firing of a node leaves behind: the graph, the events to record, and the exit that
fired. -/
structure Firing where
  graph : Graph
  events : List Event
  result : Except RunFault ExitId

namespace Graph

/-- Sets the register of a node and counts the call. -/
def countCall (graph : Graph) (node : NodeId) (register : Value) : Graph :=
  graph.modifyNode node (Node.modifyInterface fun ports => { ports.countCall with register })

/-- Whether one more call of a node reaches the call limit. -/
def callsExhausted (ports : Interface) (limit : UInt32) : Bool :=
  decide (limit ≤ ports.countCall.calls)

/-- Writes the output of an evaluation and names the exit that it fires. -/
def emit (graph : Graph) (node : NodeId) (ports : Interface) (evaluation : Evaluation)
    (events : List Event) : Firing where
  graph := graph.writeOutlet ports.outlet evaluation.output
  events
  result :=
    match ports.exits[evaluation.exit]? with
    | some exit => .ok exit
    | none => .error (.notExecutable node)

/-- Fires a native node with the given ports. -/
def firePrimitive (graph : Graph) (callLimit : UInt32) (node : NodeId) (record : Node)
    (primitive : Primitive) (ports : Interface) : Firing :=
  let readings := ports.inlets.map graph.reading
  let request : List Event :=
    if record.traced then [.request record.specification (readings.map Reading.value)] else []
  match primitive.evaluate readings with
  | .error value => ⟨graph, request, .error (.invalidBit node value)⟩
  | .ok evaluation =>
    let events :=
      if record.traced then request ++ [.emit evaluation.output evaluation.exit] else request
    match evaluation.register with
    | none => graph.emit node ports evaluation events
    | some register =>
      -- The call is counted even if the limit then stops it; only the request is recorded in that
      -- case.
      let graph := graph.countCall node register
      if callsExhausted ports callLimit then ⟨graph, request, .error (.callLimit node callLimit)⟩
      else graph.emit node ports evaluation events

/-- Fires a node. -/
def fire (graph : Graph) (callLimit : UInt32) (node : NodeId) : Firing :=
  match graph.node? node with
  | none => ⟨graph, [], .error (.notExecutable node)⟩
  | some record =>
    match record.kind with
    | .join _ exit => ⟨graph, [], .ok exit⟩
    | .composite .. => ⟨graph, [], .error (.notExecutable node)⟩
    | .native primitive ports => graph.firePrimitive callLimit node record primitive ports

end Graph

/-! ## Whole runs -/

/-- What a run works on. -/
structure Run.State where
  graph : Graph
  ledger : Ledger
deriving DecidableEq, Repr, Inhabited

namespace Run

/-- The node that an entry admits the token to.  Every entry of a graph has one; an unknown entry
is answered with a node that the graph does not have. -/
def nodeAt (graph : Graph) (entry : EntryId) : NodeId :=
  (graph.admitted? entry).getD ⟨graph.nodes.size⟩

/-- Fires the node behind an entry and records what is to be recorded. -/
def fireAt (callLimit : UInt32) (run : Nat) (entry : EntryId) (state : State) :
    State × Except RunFault ExitId :=
  let node := nodeAt state.graph entry
  -- Events are recorded whether or not the firing succeeds
  let ⟨graph, ledger⟩ := state
  let firing := graph.fire callLimit node
  (⟨firing.graph, ledger.record run node firing.events⟩, firing.result)

/-- Lets the token walk from an entry.  The first number bounds the firings still allowed, `steps`
counts those made before, and `limit` is the limit that an exhausted run names.  A walk that ends
answers with the exit without a target and the number of all firings. -/
def walk (callLimit : UInt32) (limit run : Nat) :
    Nat → Nat → EntryId → State → State × Except RunFault (ExitId × Nat)
  -- The budget is spent before the token has come to rest
  | 0, _, _, state => (state, .error (.chainExhausted limit))
  | budget + 1, steps, entry, state =>
    match fireAt callLimit run entry state with
    | (state, .error fault) => (state, .error fault)
    | (state, .ok exit) =>
      match state.graph.target? exit with
      | some next => walk callLimit limit run budget (steps + 1) next state
      | none => (state, .ok (exit, steps + 1))

end Run

end TokenNet
