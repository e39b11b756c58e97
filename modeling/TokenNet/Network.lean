import TokenNet.Build
import TokenNet.Limits
import TokenNet.Run
import TokenNet.Text.Field

/-!
# Networks

A network is a graph built from a library, together with its root, its limits, its ledger and the
issues of its build.  It is used from outside by writing values into inlets, running it and reading
values from outlets; its wiring can be changed at any time between runs.

Every use either succeeds or is refused with a reason.  A refused use leaves the network as it was;
only a run that fails keeps what it has done.
-/

namespace TokenNet

/-! ## Refusals -/

/-- Why a port or a node cannot be used as asked. -/
inductive AccessError where
  | inletOutOfRange (node : NodeId) (index arity : Nat)
  /-- The outlet was never wired, or has lost its cell. -/
  | outletUnconnected (node : NodeId)
  | noInlets (node : NodeId)
  /-- Joins have no interface. -/
  | noInterface (node : NodeId)
  | unknownNode (node : NodeId)
  /-- The handle of a port of another graph. -/
  | unknownPort
deriving DecidableEq, Repr, Inhabited

/-- The wording of a refused access. -/
def AccessError.message : AccessError → String
  | inletOutOfRange node index arity =>
    s!"data input {index} of {node.label} is out of range (arity {arity})"
  | outletUnconnected node => s!"data output of {node.label} is not connected"
  | noInlets node => s!"{node.label} has no data inputs"
  | noInterface node => s!"{node.label} has no interface"
  | unknownNode node => s!"{node.label} does not belong to this graph"
  | unknownPort => "pin does not belong to this graph"

/-! ## Results of runs -/

/-- How a run ended: the exit without a target that was reached, its position among the exits of
the root, and the number of firings. -/
structure Ending where
  exit : ExitId
  position : Option Nat
  steps : Nat
deriving DecidableEq, Repr, Inhabited

/-- A run that ended and the output of the root, if the outlet of the root is wired. -/
structure Outcome where
  ending : Ending
  output : Option Value
deriving DecidableEq, Repr, Inhabited

/-! ## Networks -/

/-- A graph in use. -/
structure Network where
  graph : Graph
  root : NodeId
  limits : Limits := {}
  ledger : Ledger := {}
  issues : Array Issue := #[]
  /-- The number of runs begun so far. -/
  runs : Nat := 0
deriving DecidableEq, Repr, Inhabited

/-- How a network is built. -/
structure BuildOptions where
  limits : Limits := {}
  /-- Whether every node is traced from the start. -/
  traced : Bool := false
  /-- Which implementation of the root is built. -/
  implementation : Nat := 0
deriving DecidableEq, Repr, Inhabited

namespace Network

/-! ## Reading -/

/-- The record of the root. -/
def rootNode? (net : Network) : Option Node :=
  net.graph.node? net.root

/-- The identifier of the specification of the root. -/
def specification (net : Network) : String :=
  (net.rootNode?.map Node.specification).getD ""

/-- The entry of the root, if it exposes one. -/
def entry? (net : Network) : Option EntryId :=
  (net.graph.interface? net.root).bind Interface.entry

/-- The interface of a node. -/
def interface (net : Network) (node : NodeId) : Except AccessError Interface :=
  match net.graph.node? node with
  | none => .error (.unknownNode node)
  | some record =>
    match record.interface? with
    | none => .error (.noInterface node)
    | some ports => .ok ports

/-- The node under the root to which a path leads; the roles of a path are separated by slashes. -/
def find? (net : Network) (path : String) : Option NodeId :=
  (Text.split '/' path).foldlM net.graph.part? net.root

/-- The value at the outlet of a node. -/
def output (net : Network) (node : NodeId) : Except AccessError Value := do
  let ports ← net.interface node
  if net.graph.outletWired ports.outlet then
    match net.graph.outletValue? ports.outlet with
    | some value => return value
    | none => throw (.outletUnconnected node)
  else throw (.outletUnconnected node)

/-- The register of a node. -/
def state (net : Network) (node : NodeId) : Except AccessError Value :=
  (net.interface node).map Interface.register

/-- The counted calls of a node. -/
def calls (net : Network) (node : NodeId) : Except AccessError UInt32 :=
  (net.interface node).map Interface.calls

/-- The registers of the native nodes in order of creation. -/
def registers (net : Network) : List (NodeId × Value) :=
  net.graph.nodes.toList.zipIdx.filterMap fun (record, index) =>
    match record.kind with
    | .native _ ports => some (⟨index⟩, ports.register)
    | _ => none

/-! ## Values and memory -/

/-- Writes a value into an inlet of a node. -/
def writeInlet (net : Network) (node : NodeId) (index : Nat) (value : Value) :
    Except AccessError Network := do
  let ports ← net.interface node
  match ports.inlets[index]? with
  | some inlet => return { net with graph := net.graph.writeInlet inlet value }
  | none => throw (.inletOutOfRange node index ports.inlets.length)

/-- Sets the register of a node and writes the same value into its first inlet, so that a bit
reads it at its next firing. -/
def setState (net : Network) (node : NodeId) (value : Value) : Except AccessError Network := do
  let ports ← net.interface node
  match ports.inlets with
  | [] => throw (.noInlets node)
  | first :: _ =>
    let graph := net.graph.modifyNode node
      (Node.modifyInterface fun ports => { ports with register := value })
    return { net with graph := graph.writeInlet first value }

/-- Sets the counted calls of a node. -/
def setCalls (net : Network) (node : NodeId) (calls : UInt32) : Except AccessError Network := do
  let _ ← net.interface node
  return { net with
    graph := net.graph.modifyNode node
      (Node.modifyInterface fun ports => { ports with calls }) }

/-- Sets the counted calls of every node to zero. -/
def resetCalls (net : Network) : Network :=
  { net with
    graph :=
      { net.graph with
        nodes := net.graph.nodes.map
          (Node.modifyInterface fun ports => { ports with calls := 0 }) } }

/-! ## Tracing -/

/-- Starts or stops the recording of a node. -/
def setTraced (net : Network) (node : NodeId) (traced : Bool) : Except AccessError Network :=
  match net.graph.node? node with
  | none => .error (.unknownNode node)
  | some _ =>
    .ok { net with graph := net.graph.modifyNode node fun record => { record with traced } }

/-- Empties the ledger. -/
def clearLedger (net : Network) : Network :=
  { net with ledger := {} }

/-! ## Rewiring -/

/-- Whether a graph has an inlet. -/
def hasInlet (net : Network) (inlet : InletId) : Bool :=
  inlet.index < net.graph.inlets.size

/-- Whether a graph has an outlet. -/
def hasOutlet (net : Network) (outlet : OutletId) : Bool :=
  outlet.index < net.graph.outlets.size

/-- Whether a graph has an entry. -/
def hasEntry (net : Network) (entry : EntryId) : Bool :=
  entry.index < net.graph.entries.size

/-- Whether a graph has an exit. -/
def hasExit (net : Network) (exit : ExitId) : Bool :=
  exit.index < net.graph.exits.size

/-- Changes the graph if the handles of a request are known. -/
def rewire (net : Network) (known : Bool) (change : Graph → Graph) : Except AccessError Network :=
  if known then .ok { net with graph := change net.graph } else .error .unknownPort

/-- Wires an outlet into an inlet. -/
def connect (net : Network) (inlet : InletId) (outlet : OutletId) : Except AccessError Network :=
  net.rewire (net.hasInlet inlet && net.hasOutlet outlet) fun graph => graph.connect inlet outlet

/-- Takes an inlet out of its class. -/
def disconnectInlet (net : Network) (inlet : InletId) : Except AccessError Network :=
  net.rewire (net.hasInlet inlet) fun graph => graph.disconnectInlet inlet

/-- Takes an outlet out of its class. -/
def disconnectOutlet (net : Network) (outlet : OutletId) : Except AccessError Network :=
  net.rewire (net.hasOutlet outlet) fun graph => graph.disconnectOutlet outlet

/-- Takes all data ports of a composite out of their classes.  Other nodes keep theirs. -/
def unplug (net : Network) (node : NodeId) : Except AccessError Network :=
  match net.graph.node? node with
  | none => .error (.unknownNode node)
  | some record =>
    match record.kind with
    | .composite ports _ =>
      .ok { net with
        graph := (ports.inlets.foldl Graph.disconnectInlet net.graph).disconnectOutlet
          ports.outlet }
    -- Primitives and joins are left as they are
    | _ => .ok net

/-- Lets an exit hand the token to an entry. -/
def direct (net : Network) (exit : ExitId) (entry : EntryId) : Except AccessError Network :=
  net.rewire (net.hasExit exit && net.hasEntry entry) fun graph =>
    graph.setTarget exit (some entry)

/-- Lets a run end at an exit. -/
def undirect (net : Network) (exit : ExitId) : Except AccessError Network :=
  net.rewire (net.hasExit exit) fun graph => graph.setTarget exit none

/-! ## Running -/

/-- The position of an exit among the exits of the root. -/
def exitPosition (net : Network) (exit : ExitId) : Option Nat :=
  (net.graph.interface? net.root).bind fun ports => ports.exits.findIdx? fun e => e = exit

/-- Lets the token enter at the root and walk until it can go no further. -/
def execute (net : Network) : Network × Except RunFault Ending :=
  match net.entry? with
  | none => (net, .error .noEntry)
  | some entry =>
    let limit := net.limits.chainLimit
    let (state, result) := Run.walk net.limits.callLimit limit (net.runs + 1) limit 0 entry
      ⟨net.graph, net.ledger⟩
    -- A run that fails is counted as well
    let net :=
      { net with graph := state.graph, ledger := state.ledger, runs := net.runs + 1 }
    (net, result.map fun (exit, steps) => ⟨exit, net.exitPosition exit, steps⟩)

/-- The output of the root, if the outlet of the root is wired and has a value. -/
def rootOutput? (net : Network) : Option Value :=
  (net.output net.root).toOption

/-- Runs a network and reads the output of the root. -/
def step (net : Network) : Network × Except RunFault Outcome :=
  let (net, result) := net.execute
  (net, result.map fun ending => ⟨ending, net.rootOutput?⟩)

end Network

/-! ## Networks of a library -/

namespace Library

/-- Builds a network whose root is of the specification of an identifier. -/
def instantiate (library : Library) (identifier : String) (options : BuildOptions) :
    Except BuildError Network :=
  match library.build identifier options.implementation options.limits.nestingLimit
      options.traced with
  | .error failure => .error failure.error
  | .ok (root, draft) =>
    .ok { graph := draft.graph, root, limits := options.limits, issues := draft.issues }

/-- What building a network reports. -/
def instantiateNotices (library : Library) (identifier : String) (options : BuildOptions) :
    List Notice :=
  match library.build identifier options.implementation options.limits.nestingLimit
      options.traced with
  | .error failure => failure.notices.toList
  | .ok (_, draft) =>
    draft.notices.toList ++
      [.instantiated identifier draft.graph.nodes.size draft.graph.cellCount draft.issues.size]

end Library

end TokenNet
