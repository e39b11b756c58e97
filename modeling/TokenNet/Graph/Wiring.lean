import TokenNet.Graph.Growth

/-!
# Wiring

Data ports that are wired together, directly or through others, share one cell.  Wiring an outlet
into an inlet therefore unites two classes of ports: the cell of the inlet is absorbed by the cell
of the outlet, which keeps its value.  Unwiring takes a single port out of its class, and a cell
that loses its last port is given up.

A port of a composite is connected to the ports of its parts without sharing a cell with them: an
inlet *feeds* inner inlets, and an inner outlet is *relayed* to the outlet of the composite.
-/

namespace TokenNet.Graph

/-! ## Classes of ports -/

/-- The cell an inlet reads; a new one if it has none. -/
def ensureInletCell (graph : Graph) (inlet : InletId) : CellId × Graph :=
  match graph.inletCell? inlet with
  | some cell => (cell, graph)
  | none =>
    let (cell, graph) := graph.addCell 0
    (cell, graph.attachReader inlet cell)

/-- The cell an outlet writes; a new one if it has none. -/
def ensureOutletCell (graph : Graph) (outlet : OutletId) : CellId × Graph :=
  match graph.outletCell? outlet with
  | some cell => (cell, graph)
  | none =>
    let (cell, graph) := graph.addCell 0
    (cell, graph.attachWriter outlet cell)

/-- Moves all ports of one cell to another and gives the first cell up. -/
def merge (graph : Graph) (absorbed survivor : CellId) : Graph :=
  match graph.cells.remove absorbed with
  | none => graph
  | some (old, cells) =>
    -- The slot is free from here on, before the ports are moved
    let graph := { graph with cells }
    let graph := old.readers.foldl (fun g inlet =>
      g.modifyInlet inlet fun record => { record with cell := some survivor }) graph
    let graph := old.writers.foldl (fun g outlet =>
      g.modifyOutlet outlet fun record => { record with cell := some survivor }) graph
    graph.modifyCell survivor fun cell => cell.absorb old

/-- Puts an inlet and an outlet into one class. -/
def unite (graph : Graph) (inlet : InletId) (outlet : OutletId) : Graph :=
  match graph.inletCell? inlet, graph.outletCell? outlet with
  -- The cell of the outlet survives, so the inlet comes to show what the outlet does
  | some a, some b => if a = b then graph else graph.merge a b
  | none, some b => graph.attachReader inlet b
  | some a, none => graph.attachWriter outlet a
  | none, none =>
    let (cell, graph) := graph.addCell 0
    (graph.attachReader inlet cell).attachWriter outlet cell

/-- Marks an inlet as wired. -/
def markInlet (graph : Graph) (inlet : InletId) : Graph :=
  graph.modifyInlet inlet fun record => { record with wired := true }

/-- Marks an outlet as wired. -/
def markOutlet (graph : Graph) (outlet : OutletId) : Graph :=
  graph.modifyOutlet outlet fun record => { record with wired := true }

/-- Wires an outlet into an inlet. -/
def connect (graph : Graph) (inlet : InletId) (outlet : OutletId) : Graph :=
  (graph.unite inlet outlet).markInlet inlet

/-- The two cells that wiring an outlet into an inlet would merge, the absorbed one first. -/
def merging? (graph : Graph) (inlet : InletId) (outlet : OutletId) : Option (CellId × CellId) :=
  match graph.inletCell? inlet, graph.outletCell? outlet with
  | some a, some b => if a = b then none else some (a, b)
  | _, _ => none

/-- Gives a cell up if no port shares it. -/
def dropOrphan (graph : Graph) (cell : CellId) : Graph :=
  if (graph.cell? cell).any Cell.isOrphan then
    { graph with cells := graph.cells.erase cell }
  else graph

/-- Takes an inlet out of its class; it stays marked as wired. -/
def disconnectInlet (graph : Graph) (inlet : InletId) : Graph :=
  match graph.inletCell? inlet with
  | none => graph
  | some cell =>
    let graph := graph.modifyInlet inlet fun record => { record with cell := none }
    (graph.modifyCell cell fun c => c.dropReader inlet).dropOrphan cell

/-- Takes an outlet out of its class; it stays marked as wired. -/
def disconnectOutlet (graph : Graph) (outlet : OutletId) : Graph :=
  match graph.outletCell? outlet with
  | none => graph
  | some cell =>
    let graph := graph.modifyOutlet outlet fun record => { record with cell := none }
    (graph.modifyCell cell fun c => c.dropWriter outlet).dropOrphan cell

/-! ## Ports of composites -/

/-- Lets an inlet of a composite feed an inlet of one of its parts. -/
def feed (graph : Graph) (outer inner : InletId) : Graph :=
  let (_, graph) := graph.ensureInletCell inner
  let graph := graph.modifyInlet outer fun record =>
    { record with feeds := Cell.joined record.feeds inner }
  graph.markInlet inner

/-- Relays the outlet of a part to the outlet of its composite. -/
def relay (graph : Graph) (outer inner : OutletId) : Graph :=
  let (_, graph) := graph.ensureOutletCell outer
  let graph := graph.modifyOutlet inner fun record => { record with relay := some outer }
  graph.markOutlet outer

/-! ## Control -/

/-- Sets or clears where an exit hands the token to. -/
def setTarget (graph : Graph) (exit : ExitId) (target : Option EntryId) : Graph :=
  { graph with exits := graph.exits.modify exit.index fun record => { record with target } }

/-- Exposes an entry as the entry of a composite. -/
def setEntry (graph : Graph) (composite : NodeId) (entry : EntryId) : Graph :=
  graph.modifyNode composite (Node.modifyInterface fun ports => { ports with entry := some entry })

end TokenNet.Graph
