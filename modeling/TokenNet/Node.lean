import TokenNet.Cell
import TokenNet.Table

/-!
# Ports and nodes

The records a graph is made of.  Data ports share cells; control ports form the graph on which
the token moves.  A node is of one of three kinds:

* a **native** node runs a primitive;
* a **composite** node is the frame around the nodes that a blueprint asks for, its parts;
* a **join** node hands the token to one exit of its composite.

A port is *wired* once something has been wired to it on purpose.  That is more than having a
cell, and it is never undone.
-/

namespace TokenNet

/-! ## Ports -/

/-- A data input: the node it belongs to, the cell it reads, and the inlets of inner nodes that
are fed from it. -/
structure Inlet where
  owner : NodeId
  wired : Bool := false
  cell : Option CellId := none
  feeds : List InletId := []
deriving DecidableEq, Repr, Inhabited

/-- A data output: the node it belongs to, the cell it writes, and the outlet of the enclosing
node to which it is relayed. -/
structure Outlet where
  owner : NodeId
  wired : Bool := false
  cell : Option CellId := none
  relay : Option OutletId := none
deriving DecidableEq, Repr, Inhabited

/-- A control output: the node it belongs to and the entry to which it hands the token. -/
structure Exit where
  owner : NodeId
  target : Option EntryId := none
deriving DecidableEq, Repr, Inhabited

/-! ## Nodes -/

/-- The ports of a node in order, the joins behind its exits if it is a composite, and what it
remembers: its register and the number of counted calls. -/
structure Interface where
  inlets : List InletId
  outlet : OutletId
  entry : Option EntryId := none
  exits : List ExitId
  joins : List NodeId := []
  register : Value := 0
  calls : UInt32 := 0
deriving DecidableEq, Repr, Inhabited

/-- One more counted call; the counter stays at its largest value. -/
def Interface.countCall (ports : Interface) : Interface :=
  { ports with calls := if ports.calls + 1 = 0 then ports.calls else ports.calls + 1 }

/-- What a node is. -/
inductive NodeKind where
  /-- Runs a primitive. -/
  | native (primitive : Primitive) (ports : Interface)
  /-- Holds parts under their roles. -/
  | composite (ports : Interface) (parts : Table NodeId)
  /-- Hands the token from its entry to an exit of the composite it belongs to. -/
  | join (entry : EntryId) (exit : ExitId)
deriving DecidableEq, Repr, Inhabited

/-- A node: the specification it was made from, its place in the tree of nodes, and whether its
firings are recorded. -/
structure Node where
  specification : String
  parent : Option NodeId := none
  role : Option String := none
  traced : Bool := false
  kind : NodeKind
deriving DecidableEq, Repr, Inhabited

namespace Node

/-- The interface of a node; joins have none. -/
def interface? (node : Node) : Option Interface :=
  match node.kind with
  | .native _ ports => some ports
  | .composite ports _ => some ports
  | .join .. => none

/-- Changes the interface of a node, if it has one. -/
def modifyInterface (change : Interface → Interface) (node : Node) : Node :=
  { node with
    kind :=
      match node.kind with
      | .native primitive ports => .native primitive (change ports)
      | .composite ports parts => .composite (change ports) parts
      | .join entry exit => .join entry exit }

/-- The parts of a composite. -/
def parts? (node : Node) : Option (Table NodeId) :=
  match node.kind with
  | .composite _ parts => some parts
  | _ => none

/-- The part of a composite that has a role. -/
def part? (node : Node) (role : String) : Option NodeId :=
  node.parts?.bind fun parts => parts.get? role

/-- Gives a part its role in a composite; other nodes have no parts. -/
def addPart (role : String) (part : NodeId) (node : Node) : Node :=
  { node with
    kind :=
      match node.kind with
      | .composite ports parts => .composite ports (parts.insert role part)
      | kind => kind }

/-- Where the token enters a node: a composite has an entry only if it exposes one. -/
def entry? (node : Node) : Option EntryId :=
  match node.kind with
  | .join entry _ => some entry
  | .native _ ports => ports.entry
  | .composite ports _ => ports.entry

end Node

end TokenNet
