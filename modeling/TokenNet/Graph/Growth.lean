import TokenNet.Graph.Basic

/-!
# Growth of a graph

Nodes come with all their ports.  The order in which ports and cells are created is part of the
interface, because handles are positions in that order:

* a native node gets each inlet followed by its cell, then the outlet and its cell, then its
  entry and its exits;
* a composite gets its inlets, the outlet and its cell, and its exits; behind it stands one join
  for each exit, in the order of the exits.

An inlet of a native node starts with a cell of its own but is not wired; an inlet of a composite
starts without a cell.  The outlet of a native node counts as wired from the start; that of a
composite is wired only once a part is exposed through it.
-/

namespace TokenNet.Graph

/-! ## Single records -/

/-- A new node. -/
def addNode (graph : Graph) (node : Node) : NodeId × Graph :=
  (⟨graph.nodes.size⟩, { graph with nodes := graph.nodes.push node })

/-- A new inlet without a cell. -/
def addInlet (graph : Graph) (owner : NodeId) : InletId × Graph :=
  (⟨graph.inlets.size⟩, { graph with inlets := graph.inlets.push { owner } })

/-- A new outlet without a cell. -/
def addOutlet (graph : Graph) (owner : NodeId) : OutletId × Graph :=
  (⟨graph.outlets.size⟩, { graph with outlets := graph.outlets.push { owner } })

/-- A new entry that admits the token to a node. -/
def addEntry (graph : Graph) (node : NodeId) : EntryId × Graph :=
  (⟨graph.entries.size⟩, { graph with entries := graph.entries.push node })

/-- A new exit without a target. -/
def addExit (graph : Graph) (owner : NodeId) : ExitId × Graph :=
  (⟨graph.exits.size⟩, { graph with exits := graph.exits.push { owner } })

/-- A new cell that no port shares yet. -/
def addCell (graph : Graph) (value : Value) : CellId × Graph :=
  let (cell, cells) := graph.cells.insert { value }
  (cell, { graph with cells })

/-! ## Changes in place -/

/-- Changes a node. -/
def modifyNode (graph : Graph) (node : NodeId) (change : Node → Node) : Graph :=
  { graph with nodes := graph.nodes.modify node.index change }

/-- Changes an inlet. -/
def modifyInlet (graph : Graph) (inlet : InletId) (change : Inlet → Inlet) : Graph :=
  { graph with inlets := graph.inlets.modify inlet.index change }

/-- Changes an outlet. -/
def modifyOutlet (graph : Graph) (outlet : OutletId) (change : Outlet → Outlet) : Graph :=
  { graph with outlets := graph.outlets.modify outlet.index change }

/-- Changes a cell. -/
def modifyCell (graph : Graph) (cell : CellId) (change : Cell → Cell) : Graph :=
  { graph with cells := graph.cells.modify cell change }

/-- Lets an inlet read a cell. -/
def attachReader (graph : Graph) (inlet : InletId) (cell : CellId) : Graph :=
  (graph.modifyCell cell fun c => c.addReader inlet).modifyInlet inlet
    fun record => { record with cell := some cell }

/-- Lets an outlet write a cell. -/
def attachWriter (graph : Graph) (outlet : OutletId) (cell : CellId) : Graph :=
  (graph.modifyCell cell fun c => c.addWriter outlet).modifyOutlet outlet
    fun record => { record with cell := some cell }

/-! ## Repetition -/

/-- Grows a graph several times and collects what each growth yields. -/
def times {α : Type} (grow : Graph → α × Graph) : Nat → Graph → List α × Graph
  | 0, graph => ([], graph)
  | count + 1, graph =>
    let (first, graph) := grow graph
    let (rest, graph) := times grow count graph
    (first :: rest, graph)

/-- Grows a graph once for each member of a list and collects what each growth yields. -/
def forEach {α β : Type} (grow : Graph → α → β × Graph) : List α → Graph → List β × Graph
  | [], graph => ([], graph)
  | a :: rest, graph =>
    let (first, graph) := grow graph a
    let (later, graph) := forEach grow rest graph
    (first :: later, graph)

/-! ## Whole nodes -/

/-- An inlet with a cell of its own. -/
def addOwnInlet (owner : NodeId) (graph : Graph) : InletId × Graph :=
  let (inlet, graph) := graph.addInlet owner
  let (cell, graph) := graph.addCell 0
  (inlet, graph.attachReader inlet cell)

/-- An outlet with a cell of its own. -/
def addOwnOutlet (owner : NodeId) (graph : Graph) : OutletId × Graph :=
  let (outlet, graph) := graph.addOutlet owner
  let (cell, graph) := graph.addCell 0
  (outlet, graph.attachWriter outlet cell)

/-- A node that runs a primitive, with its ports. -/
def addNative (graph : Graph) (primitive : Primitive) (specification : String) (traced : Bool) :
    NodeId × Graph :=
  let owner : NodeId := ⟨graph.nodes.size⟩
  let (inlets, graph) := graph.times (addOwnInlet owner) primitive.inletCount
  let (outlet, graph) := graph.addOwnOutlet owner
  -- A primitive gives its output on its own, so the pin counts as wired from the start
  let graph := graph.modifyOutlet outlet fun record => { record with wired := true }
  let (entry, graph) := graph.addEntry owner
  let (exits, graph) := graph.times (fun g => g.addExit owner) primitive.exitCount
  graph.addNode
    { specification, traced, kind := .native primitive { inlets, outlet, entry := some entry, exits } }

/-- The join behind an exit of a composite. -/
def addJoin (composite : NodeId) (specification : String) (traced : Bool) (graph : Graph)
    (exit : ExitId) : NodeId × Graph :=
  let owner : NodeId := ⟨graph.nodes.size⟩
  let (entry, graph) := graph.addEntry owner
  graph.addNode { specification, parent := some composite, traced, kind := .join entry exit }

/-- A composite without parts, with its ports and its joins. -/
def addComposite (graph : Graph) (specification : String) (inletCount exitCount : Nat)
    (traced : Bool) : NodeId × Graph :=
  let owner : NodeId := ⟨graph.nodes.size⟩
  let (inlets, graph) := graph.times (fun g => g.addInlet owner) inletCount
  let (outlet, graph) := graph.addOwnOutlet owner
  let (exits, graph) := graph.times (fun g => g.addExit owner) exitCount
  let (node, graph) :=
    graph.addNode { specification, traced, kind := .composite { inlets, outlet, exits } {} }
  -- The joins stand under the new node, so they are added once it is there
  let (joins, graph) := graph.forEach (addJoin node specification traced) exits
  (node, graph.modifyNode node (Node.modifyInterface fun ports => { ports with joins }))

/-- Gives a node its place under a composite.  A node that had the role before keeps its record
but is no part any more. -/
def adopt (graph : Graph) (composite : NodeId) (role : String) (part : NodeId) : Graph :=
  (graph.modifyNode part fun node =>
      { node with parent := some composite, role := some role }).modifyNode
    composite (Node.addPart role part)

end TokenNet.Graph
