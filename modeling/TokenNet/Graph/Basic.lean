import TokenNet.Node

/-!
# Graphs

The graph of one network: its nodes, its ports and the cells that its data ports share.  Nodes
and ports are only ever added, so they stand in arrays; cells come and go, so they stand in a
store.

This module holds the type and everything that only reads it.  A handle that a graph did not
issue finds nothing.
-/

namespace TokenNet

/-- Nodes, ports and cells.  Of an entry only the node is kept to which it admits the token. -/
structure Graph where
  nodes : Array Node := #[]
  inlets : Array Inlet := #[]
  outlets : Array Outlet := #[]
  entries : Array NodeId := #[]
  exits : Array Exit := #[]
  cells : Store Cell := {}
deriving DecidableEq, Repr, Inhabited

namespace Graph

/-! ## Records -/

/-- The node behind a handle. -/
def node? (graph : Graph) (node : NodeId) : Option Node :=
  graph.nodes[node.index]?

/-- The inlet behind a handle. -/
def inlet? (graph : Graph) (inlet : InletId) : Option Inlet :=
  graph.inlets[inlet.index]?

/-- The outlet behind a handle. -/
def outlet? (graph : Graph) (outlet : OutletId) : Option Outlet :=
  graph.outlets[outlet.index]?

/-- The node to which an entry admits the token. -/
def admitted? (graph : Graph) (entry : EntryId) : Option NodeId :=
  graph.entries[entry.index]?

/-- The exit behind a handle. -/
def exit? (graph : Graph) (exit : ExitId) : Option Exit :=
  graph.exits[exit.index]?

/-- The cell behind a key. -/
def cell? (graph : Graph) (cell : CellId) : Option Cell :=
  graph.cells.get? cell

/-- The interface of a node. -/
def interface? (graph : Graph) (node : NodeId) : Option Interface :=
  (graph.node? node).bind Node.interface?

/-- The part of a composite that has a role. -/
def part? (graph : Graph) (composite : NodeId) (role : String) : Option NodeId :=
  (graph.node? composite).bind fun node => node.part? role

/-- Where the token enters a node. -/
def entryOf? (graph : Graph) (node : NodeId) : Option EntryId :=
  (graph.node? node).bind Node.entry?

/-- Where an exit hands the token to. -/
def target? (graph : Graph) (exit : ExitId) : Option EntryId :=
  (graph.exit? exit).bind Exit.target

/-! ## Values -/

/-- The cell an inlet reads. -/
def inletCell? (graph : Graph) (inlet : InletId) : Option CellId :=
  (graph.inlet? inlet).bind Inlet.cell

/-- The cell an outlet writes. -/
def outletCell? (graph : Graph) (outlet : OutletId) : Option CellId :=
  (graph.outlet? outlet).bind Outlet.cell

/-- The value of a cell. -/
def cellValue? (graph : Graph) (cell : CellId) : Option Value :=
  (graph.cell? cell).map Cell.value

/-- The value an inlet shows, if it has a cell. -/
def inletValue? (graph : Graph) (inlet : InletId) : Option Value :=
  (graph.inletCell? inlet).bind graph.cellValue?

/-- The value an outlet shows, if it has a cell. -/
def outletValue? (graph : Graph) (outlet : OutletId) : Option Value :=
  (graph.outletCell? outlet).bind graph.cellValue?

/-- Whether an inlet was ever wired. -/
def inletWired (graph : Graph) (inlet : InletId) : Bool :=
  (graph.inlet? inlet).any Inlet.wired

/-- Whether an outlet was ever wired. -/
def outletWired (graph : Graph) (outlet : OutletId) : Bool :=
  (graph.outlet? outlet).any Outlet.wired

/-- What a primitive sees on an inlet: one without a cell shows zero. -/
def reading (graph : Graph) (inlet : InletId) : Reading :=
  ⟨graph.inletWired inlet, (graph.inletValue? inlet).getD 0⟩

/-! ## Outline -/

/-- The number of cells in use. -/
def cellCount (graph : Graph) : Nat :=
  graph.cells.size

/-- The cells that some port refers to, in order of first mention: inlets before outlets. -/
def mentionedCells (graph : Graph) : List CellId :=
  (graph.inlets.toList.filterMap Inlet.cell ++ graph.outlets.toList.filterMap Outlet.cell).eraseDups

/-- The sizes of a graph in one line. -/
def outline (graph : Graph) : String :=
  let data := graph.inlets.size + graph.outlets.size
  let control := graph.entries.size + graph.exits.size
  "Graph \x7b instances: " ++ toString graph.nodes.size ++
    ", variables: " ++ toString graph.cellCount ++
    ", data_pins: " ++ toString data ++
    ", control_pins: " ++ toString control ++ " \x7d"

end Graph

end TokenNet
