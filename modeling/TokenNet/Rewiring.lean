import TokenNet.Directive
import TokenNet.Graph.Wiring
import TokenNet.Notice

/-!
# Rewirings

A directive that wires speaks of roles and positions.  Against a graph it *resolves* either to
the issues that forbid it or to a rewiring that speaks of handles.  Resolving only reads the
graph, so a directive with an issue leaves no mark on it, and a rewiring is always carried out in
full.
-/

namespace TokenNet

/-- A change of the wiring of a graph. -/
inductive Rewiring where
  /-- Wires an outlet into an inlet. -/
  | connect (inlet : InletId) (outlet : OutletId)
  /-- Lets an exit hand the token to an entry. -/
  | direct (exit : ExitId) (entry : EntryId)
  /-- Feeds an inlet of a part from an inlet of its composite. -/
  | feed (outer inner : InletId)
  /-- Relays the outlet of a part to the outlet of its composite. -/
  | relay (outer inner : OutletId)
  /-- Exposes an entry as the entry of a composite. -/
  | enter (composite : NodeId) (entry : EntryId)
deriving DecidableEq, Repr, Inhabited

namespace Rewiring

/-- Carries a rewiring out. -/
def apply (graph : Graph) : Rewiring → Graph
  | connect inlet outlet => graph.connect inlet outlet
  | direct exit entry => graph.setTarget exit (some entry)
  | feed outer inner => graph.feed outer inner
  | relay outer inner => graph.relay outer inner
  | enter composite entry => graph.setEntry composite entry

/-- What wiring an outlet into an inlet reports: the merging of their cells, if there is one. -/
def connectNotices (graph : Graph) (inlet : InletId) (outlet : OutletId) : List Notice :=
  match graph.merging? inlet outlet with
  | none => []
  | some (absorbed, survivor) =>
    match graph.cell? absorbed with
    | none => []
    | some cell => [.merging absorbed survivor cell.readers.length cell.writers.length]

/-- What a rewiring reports. -/
def notices (graph : Graph) : Rewiring → List Notice
  | connect inlet outlet => connectNotices graph inlet outlet
  | _ => []

end Rewiring

namespace Directive

/-! ## Looking names up -/

/-- The result of a lookup, or the issues that it raised. -/
abbrev Lookup (α : Type) := Except (List Issue) α

/-- Two lookups; both are made even if the first fails. -/
def both {α β : Type} (first : Lookup α) (second : Lookup β) : Lookup (α × β) :=
  match first, second with
  | .ok a, .ok b => .ok (a, b)
  | .error issues, .ok _ => .error issues
  | .ok _, .error issues => .error issues
  | .error issues, .error more => .error (issues ++ more)

/-- The part of a composite that has a role. -/
def findPart (graph : Graph) (composite : NodeId) (name role : String) : Lookup NodeId :=
  match graph.part? composite role with
  | some node => .ok node
  | none => .error [.unknownRole name role]

/-- The member of a list of ports at a position. -/
def findPort {α : Type} (ports : List α) (name : String) (role : Option String) (port : PortKind)
    (index : Nat) : Lookup α :=
  match ports[index]? with
  | some found => .ok found
  | none => .error [.portOutOfRange name role port index ports.length]

/-- The inlets of a node. -/
def inletsOf (graph : Graph) (node : NodeId) : List InletId :=
  ((graph.interface? node).map Interface.inlets).getD []

/-- The exits of a node. -/
def exitsOf (graph : Graph) (node : NodeId) : List ExitId :=
  ((graph.interface? node).map Interface.exits).getD []

/-- The entries of the joins of a composite, in the order of its exits. -/
def joinEntriesOf (graph : Graph) (composite : NodeId) : List EntryId :=
  (((graph.interface? composite).map Interface.joins).getD []).filterMap graph.entryOf?

/-- Where the token enters a part. -/
def findEntry (graph : Graph) (name role : String) (node : NodeId) : Lookup EntryId :=
  match graph.entryOf? node with
  | some entry => .ok entry
  | none => .error [.noEntry name role]

/-! ## Resolution -/

/-- What a directive of a composite of the given name amounts to in a graph.  Making a part is no
rewiring. -/
def resolve (graph : Graph) (composite : NodeId) (name : String) :
    Directive → Lookup (Option Rewiring)
  | part .. => return none
  | dataFlow source target index => do
    -- Both ends are looked up, and the issues of both are reported
    let (giver, taker) ← both (findPart graph composite name source)
      (findPart graph composite name target)
    let inlet ← findPort (inletsOf graph taker) name (some target) .inlet index
    return (graph.interface? giver).map fun ports => .connect inlet ports.outlet
  | controlFlow source index target => do
    let (giver, taker) ← both (findPart graph composite name source)
      (findPart graph composite name target)
    let exit ← findPort (exitsOf graph giver) name (some source) .exit index
    let entry ← findEntry graph name target taker
    return some (.direct exit entry)
  | exposeInlet role index external => do
    let node ← findPart graph composite name role
    let inner ← findPort (inletsOf graph node) name (some role) .inlet index
    let outer ← findPort (inletsOf graph composite) name none .inlet external
    return some (.feed outer inner)
  | exposeOutlet role => do
    let node ← findPart graph composite name role
    -- Without an interface there is nothing to relay, and nothing to report
    return do
      let outer ← graph.interface? composite
      let inner ← graph.interface? node
      return .relay outer.outlet inner.outlet
  | exposeExit role index external => do
    let node ← findPart graph composite name role
    let exit ← findPort (exitsOf graph node) name (some role) .exit index
    let entry ← findPort (joinEntriesOf graph composite) name none .exit external
    return some (.direct exit entry)
  | exposeEntry role => do
    let node ← findPart graph composite name role
    let entry ← findEntry graph name role node
    return some (.enter composite entry)

end Directive

end TokenNet
