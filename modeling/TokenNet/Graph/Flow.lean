import TokenNet.Graph.Wiring
import TokenNet.Reach

/-!
# Flow of values

A value is pushed the moment it is written.  Writing a cell also writes every cell fed from one of
its readers, and so on inward; writing an outlet also writes every outlet it is relayed to, and so
on outward.  Reads never have to look any further than the cell of the port.
-/

namespace TokenNet.Graph

/-! ## Inward -/

/-- The cells of the inlets that an inlet feeds. -/
def fedCells (graph : Graph) (inlet : InletId) : List CellId :=
  match graph.inlet? inlet with
  | some record => record.feeds.filterMap graph.inletCell?
  | none => []

/-- The cells that are fed directly from a cell. -/
def successors (graph : Graph) (cell : CellId) : List CellId :=
  match graph.cell? cell with
  | some record => record.readers.flatMap graph.fedCells
  | none => []

/-- The cells that a write to a cell reaches, the cell itself included.  Each layer of the search
after the first is fed from a cell that is in use, so there are at most as many of them as there
are slots. -/
def reached (graph : Graph) (cell : CellId) : List CellId :=
  Reach.within graph.successors (graph.cells.slots.size + 1) cell

/-- Writes a cell and every cell fed from it. -/
def setValue (graph : Graph) (cell : CellId) (value : Value) : Graph :=
  (graph.reached cell).foldl (fun g reached => g.modifyCell reached fun c => { c with value }) graph

/-- Writes an inlet; one without a cell gets one. -/
def writeInlet (graph : Graph) (inlet : InletId) (value : Value) : Graph :=
  let (cell, graph) := graph.ensureInletCell inlet
  graph.setValue cell value

/-! ## Outward -/

/-- The outlets to which an outlet is relayed, nearest first.  The chain ends at an outlet that is
not relayed or was never wired; the first argument bounds its length. -/
def relays (graph : Graph) : Nat → OutletId → List OutletId
  | 0, _ => []
  | bound + 1, outlet =>
    match (graph.outlet? outlet).bind Outlet.relay with
    | none => []
    | some outer => outer :: if graph.outletWired outer then graph.relays bound outer else []

/-- Writes one outlet and what is fed from its cell; an outlet without a cell gets one. -/
def writeOwnOutlet (graph : Graph) (outlet : OutletId) (value : Value) : Graph :=
  let (cell, graph) := graph.ensureOutletCell outlet
  graph.setValue cell value

/-- Writes an outlet and every outlet to which it is relayed.  No chain of relays visits an outlet
twice, so it is no longer than the number of outlets. -/
def writeOutlet (graph : Graph) (outlet : OutletId) (value : Value) : Graph :=
  (outlet :: graph.relays graph.outlets.size outlet).foldl
    (fun g reached => g.writeOwnOutlet reached value) graph

end TokenNet.Graph
