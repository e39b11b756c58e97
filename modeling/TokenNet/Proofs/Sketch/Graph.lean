import TokenNet.Graph.Wiring
import TokenNet.Proofs.Sketch.Series

/-!
# Sketches

A sketch stands for a graph: it keeps nodes, ports and cells in series instead of arrays, so that
the kernel can evaluate the building of a graph.  Every operation of graphs that a build uses has a
counterpart on sketches, and each counterpart commutes with the graph that a sketch stands for.

## Main statements

- `Sketch.graph_addNative`, `Sketch.graph_addComposite`, `Sketch.graph_adopt`: growth.
- `Sketch.graph_connect`, `Sketch.graph_feed`, `Sketch.graph_relay`: wiring.
-/

namespace TokenNet

/-- A graph whose records are listed in series. -/
structure Sketch where
  nodes : Series Node := {}
  inlets : Series Inlet := {}
  outlets : Series Outlet := {}
  entries : Series NodeId := {}
  exits : Series Exit := {}
  slots : Series (Store.Slot Cell) := {}
  vacant : List Nat := []
  live : Nat := 0

namespace Sketch

/-- The graph that a sketch stands for. -/
def graph (sketch : Sketch) : Graph where
  nodes := sketch.nodes.toArray
  inlets := sketch.inlets.toArray
  outlets := sketch.outlets.toArray
  entries := sketch.entries.toArray
  exits := sketch.exits.toArray
  cells := { slots := sketch.slots.toArray, vacant := sketch.vacant, live := sketch.live }

/-! ## Records -/

/-- The cell behind a key. -/
def cell? (sketch : Sketch) (cell : CellId) : Option Cell :=
  match sketch.slots.get? cell.slot with
  | some slot => if slot.generation = cell.generation then slot.content else none
  | none => none

/-- The interface of a node. -/
def interface? (sketch : Sketch) (node : NodeId) : Option Interface :=
  (sketch.nodes.get? node.index).bind Node.interface?

/-- The cell an inlet reads. -/
def inletCell? (sketch : Sketch) (inlet : InletId) : Option CellId :=
  (sketch.inlets.get? inlet.index).bind Inlet.cell

/-- The cell an outlet writes. -/
def outletCell? (sketch : Sketch) (outlet : OutletId) : Option CellId :=
  (sketch.outlets.get? outlet.index).bind Outlet.cell

/-- Where the token enters a node. -/
def entryOf? (sketch : Sketch) (node : NodeId) : Option EntryId :=
  (sketch.nodes.get? node.index).bind Node.entry?

variable (sketch : Sketch)

@[simp] theorem graph_node? (node : NodeId) :
    sketch.graph.node? node = sketch.nodes.get? node.index :=
  Series.getElem?_toArray _ _

@[simp] theorem graph_inlet? (inlet : InletId) :
    sketch.graph.inlet? inlet = sketch.inlets.get? inlet.index :=
  Series.getElem?_toArray _ _

@[simp] theorem graph_outlet? (outlet : OutletId) :
    sketch.graph.outlet? outlet = sketch.outlets.get? outlet.index :=
  Series.getElem?_toArray _ _

@[simp] theorem graph_admitted? (entry : EntryId) :
    sketch.graph.admitted? entry = sketch.entries.get? entry.index :=
  Series.getElem?_toArray _ _

@[simp] theorem graph_exit? (exit : ExitId) :
    sketch.graph.exit? exit = sketch.exits.get? exit.index :=
  Series.getElem?_toArray _ _

theorem get?_cells (cell : CellId) : sketch.graph.cells.get? cell = sketch.cell? cell := by
  unfold Store.get? cell? graph
  simp only [Series.getElem?_toArray]
  cases sketch.slots.get? cell.slot <;> rfl

@[simp] theorem graph_cell? (cell : CellId) : sketch.graph.cell? cell = sketch.cell? cell :=
  sketch.get?_cells cell

@[simp] theorem graph_interface? (node : NodeId) :
    sketch.graph.interface? node = sketch.interface? node := by
  simp [Graph.interface?, interface?]

@[simp] theorem graph_inletCell? (inlet : InletId) :
    sketch.graph.inletCell? inlet = sketch.inletCell? inlet := by
  simp [Graph.inletCell?, inletCell?]

@[simp] theorem graph_outletCell? (outlet : OutletId) :
    sketch.graph.outletCell? outlet = sketch.outletCell? outlet := by
  simp [Graph.outletCell?, outletCell?]

@[simp] theorem graph_entryOf? (node : NodeId) :
    sketch.graph.entryOf? node = sketch.entryOf? node := by
  simp [Graph.entryOf?, entryOf?]

/-! ## Growth -/

def addNode (node : Node) : NodeId × Sketch :=
  (⟨sketch.nodes.size⟩, { sketch with nodes := sketch.nodes.push node })

def addInlet (owner : NodeId) : InletId × Sketch :=
  (⟨sketch.inlets.size⟩, { sketch with inlets := sketch.inlets.push { owner } })

def addOutlet (owner : NodeId) : OutletId × Sketch :=
  (⟨sketch.outlets.size⟩, { sketch with outlets := sketch.outlets.push { owner } })

def addEntry (node : NodeId) : EntryId × Sketch :=
  (⟨sketch.entries.size⟩, { sketch with entries := sketch.entries.push node })

def addExit (owner : NodeId) : ExitId × Sketch :=
  (⟨sketch.exits.size⟩, { sketch with exits := sketch.exits.push { owner } })

/-- A new cell: in the slot vacated last, or in a new slot. -/
def addCell : CellId × Sketch :=
  match sketch.vacant with
  | slot :: vacant =>
    -- A vacated slot keeps its generation
    let generation := ((sketch.slots.get? slot).map Store.Slot.generation).getD 0
    let slots := sketch.slots.modify slot fun s => { s with content := some {} }
    (⟨slot, generation⟩, { sketch with slots, vacant, live := sketch.live + 1 })
  | [] =>
    (⟨sketch.slots.size, 0⟩,
      { sketch with slots := sketch.slots.push ⟨0, some {}⟩, live := sketch.live + 1 })

def modifyNode (node : NodeId) (change : Node → Node) : Sketch :=
  { sketch with nodes := sketch.nodes.modify node.index change }

def modifyInlet (inlet : InletId) (change : Inlet → Inlet) : Sketch :=
  { sketch with inlets := sketch.inlets.modify inlet.index change }

def modifyOutlet (outlet : OutletId) (change : Outlet → Outlet) : Sketch :=
  { sketch with outlets := sketch.outlets.modify outlet.index change }

def modifyCell (cell : CellId) (change : Cell → Cell) : Sketch :=
  { sketch with
    slots := sketch.slots.modify cell.slot fun s =>
      if s.generation = cell.generation then { s with content := s.content.map change } else s }

def attachReader (inlet : InletId) (cell : CellId) : Sketch :=
  (sketch.modifyCell cell fun c => c.addReader inlet).modifyInlet inlet
    fun record => { record with cell := some cell }

def attachWriter (outlet : OutletId) (cell : CellId) : Sketch :=
  (sketch.modifyCell cell fun c => c.addWriter outlet).modifyOutlet outlet
    fun record => { record with cell := some cell }

theorem graph_addNode (node : Node) : sketch.graph.addNode node =
    ((sketch.addNode node).1, (sketch.addNode node).2.graph) := by
  simp [Graph.addNode, addNode, graph]

theorem graph_addInlet (owner : NodeId) : sketch.graph.addInlet owner =
    ((sketch.addInlet owner).1, (sketch.addInlet owner).2.graph) := by
  simp [Graph.addInlet, addInlet, graph]

theorem graph_addOutlet (owner : NodeId) : sketch.graph.addOutlet owner =
    ((sketch.addOutlet owner).1, (sketch.addOutlet owner).2.graph) := by
  simp [Graph.addOutlet, addOutlet, graph]

theorem graph_addEntry (node : NodeId) : sketch.graph.addEntry node =
    ((sketch.addEntry node).1, (sketch.addEntry node).2.graph) := by
  simp [Graph.addEntry, addEntry, graph]

theorem graph_addExit (owner : NodeId) : sketch.graph.addExit owner =
    ((sketch.addExit owner).1, (sketch.addExit owner).2.graph) := by
  simp [Graph.addExit, addExit, graph]

theorem graph_addCell : sketch.graph.addCell 0 = (sketch.addCell.1, sketch.addCell.2.graph) := by
  unfold Graph.addCell Store.insert addCell
  -- Both sides look at the slots that are vacant, and a sketch keeps the same list of them
  cases hvacant : sketch.vacant with
  | nil => simp [graph, hvacant]
  | cons slot vacant => simp [graph, hvacant, Series.getElem?_toArray]

@[simp] theorem graph_modifyNode (node : NodeId) (change : Node → Node) :
    (sketch.modifyNode node change).graph = sketch.graph.modifyNode node change := by
  simp [Graph.modifyNode, modifyNode, graph]

@[simp] theorem graph_modifyInlet (inlet : InletId) (change : Inlet → Inlet) :
    (sketch.modifyInlet inlet change).graph = sketch.graph.modifyInlet inlet change := by
  simp [Graph.modifyInlet, modifyInlet, graph]

@[simp] theorem graph_modifyOutlet (outlet : OutletId) (change : Outlet → Outlet) :
    (sketch.modifyOutlet outlet change).graph = sketch.graph.modifyOutlet outlet change := by
  simp [Graph.modifyOutlet, modifyOutlet, graph]

@[simp] theorem graph_modifyCell (cell : CellId) (change : Cell → Cell) :
    (sketch.modifyCell cell change).graph = sketch.graph.modifyCell cell change := by
  simp [Graph.modifyCell, Store.modify, modifyCell, graph]

@[simp] theorem graph_attachReader (inlet : InletId) (cell : CellId) :
    (sketch.attachReader inlet cell).graph = sketch.graph.attachReader inlet cell := by
  simp [Graph.attachReader, attachReader]

@[simp] theorem graph_attachWriter (outlet : OutletId) (cell : CellId) :
    (sketch.attachWriter outlet cell).graph = sketch.graph.attachWriter outlet cell := by
  simp [Graph.attachWriter, attachWriter]

/-! ## Whole nodes -/

def times {α : Type} (grow : Sketch → α × Sketch) : Nat → Sketch → List α × Sketch
  | 0, sketch => ([], sketch)
  | count + 1, sketch =>
    let (first, sketch) := grow sketch
    let (rest, sketch) := times grow count sketch
    (first :: rest, sketch)

def forEach {α β : Type} (grow : Sketch → α → β × Sketch) : List α → Sketch → List β × Sketch
  | [], sketch => ([], sketch)
  | a :: rest, sketch =>
    let (first, sketch) := grow sketch a
    let (later, sketch) := forEach grow rest sketch
    (first :: later, sketch)

def addOwnInlet (owner : NodeId) : InletId × Sketch :=
  let (inlet, sketch) := sketch.addInlet owner
  let (cell, sketch) := sketch.addCell
  (inlet, sketch.attachReader inlet cell)

def addOwnOutlet (owner : NodeId) : OutletId × Sketch :=
  let (outlet, sketch) := sketch.addOutlet owner
  let (cell, sketch) := sketch.addCell
  (outlet, sketch.attachWriter outlet cell)

def addNative (primitive : Primitive) (specification : String) (traced : Bool) :
    NodeId × Sketch :=
  let owner : NodeId := ⟨sketch.nodes.size⟩
  let (inlets, sketch) := times (fun s => s.addOwnInlet owner) primitive.inletCount sketch
  let (outlet, sketch) := sketch.addOwnOutlet owner
  let sketch := sketch.modifyOutlet outlet fun record => { record with wired := true }
  let (entry, sketch) := sketch.addEntry owner
  let (exits, sketch) := times (fun s => s.addExit owner) primitive.exitCount sketch
  sketch.addNode
    { specification, traced, kind := .native primitive { inlets, outlet, entry := some entry, exits } }

def addJoin (composite : NodeId) (specification : String) (traced : Bool) (exit : ExitId) :
    NodeId × Sketch :=
  let owner : NodeId := ⟨sketch.nodes.size⟩
  let (entry, sketch) := sketch.addEntry owner
  sketch.addNode { specification, parent := some composite, traced, kind := .join entry exit }

def addComposite (specification : String) (inletCount exitCount : Nat) (traced : Bool) :
    NodeId × Sketch :=
  let owner : NodeId := ⟨sketch.nodes.size⟩
  let (inlets, sketch) := times (fun s => s.addInlet owner) inletCount sketch
  let (outlet, sketch) := sketch.addOwnOutlet owner
  let (exits, sketch) := times (fun s => s.addExit owner) exitCount sketch
  let (node, sketch) :=
    sketch.addNode { specification, traced, kind := .composite { inlets, outlet, exits } default }
  let (joins, sketch) := forEach (fun s exit => s.addJoin node specification traced exit) exits sketch
  (node, sketch.modifyNode node (Node.modifyInterface fun ports => { ports with joins }))

def adopt (composite : NodeId) (role : String) (part : NodeId) : Sketch :=
  (sketch.modifyNode part fun node =>
      { node with parent := some composite, role := some role }).modifyNode
    composite (Node.addPart role part)

theorem graph_times {α : Type} (growGraph : Graph → α × Graph) (grow : Sketch → α × Sketch)
    (h : ∀ sketch, growGraph sketch.graph = ((grow sketch).1, (grow sketch).2.graph)) :
    ∀ (count : Nat) (sketch : Sketch), Graph.times growGraph count sketch.graph =
      ((times grow count sketch).1, (times grow count sketch).2.graph)
  | 0, _ => rfl
  | count + 1, sketch => by
    simp only [Graph.times, times, h, graph_times growGraph grow h count]

theorem graph_forEach {α β : Type} (growGraph : Graph → α → β × Graph)
    (grow : Sketch → α → β × Sketch)
    (h : ∀ sketch a, growGraph sketch.graph a = ((grow sketch a).1, (grow sketch a).2.graph)) :
    ∀ (members : List α) (sketch : Sketch), Graph.forEach growGraph members sketch.graph =
      ((forEach grow members sketch).1, (forEach grow members sketch).2.graph)
  | [], _ => rfl
  | a :: rest, sketch => by
    simp only [Graph.forEach, forEach, h, graph_forEach growGraph grow h rest]

theorem graph_addOwnInlet (owner : NodeId) : Graph.addOwnInlet owner sketch.graph =
    ((sketch.addOwnInlet owner).1, (sketch.addOwnInlet owner).2.graph) := by
  simp [Graph.addOwnInlet, addOwnInlet, graph_addInlet, graph_addCell]

theorem graph_addOwnOutlet (owner : NodeId) : Graph.addOwnOutlet owner sketch.graph =
    ((sketch.addOwnOutlet owner).1, (sketch.addOwnOutlet owner).2.graph) := by
  simp [Graph.addOwnOutlet, addOwnOutlet, graph_addOutlet, graph_addCell]

theorem size_nodes_graph : sketch.graph.nodes.size = sketch.nodes.size :=
  Series.size_toArray _

theorem graph_addNative (primitive : Primitive) (specification : String) (traced : Bool) :
    sketch.graph.addNative primitive specification traced =
      ((sketch.addNative primitive specification traced).1,
        (sketch.addNative primitive specification traced).2.graph) := by
  -- Ports are added by a loop, so each kind of port needs its loop to commute
  have hinlets (owner : NodeId) := graph_times (Graph.addOwnInlet owner) _
    fun s => s.graph_addOwnInlet owner
  have hexits (owner : NodeId) := graph_times (fun g => g.addExit owner) _
    fun s => s.graph_addExit owner
  simp only [Graph.addNative, addNative, size_nodes_graph, hinlets, graph_addOwnOutlet,
    ← graph_modifyOutlet, graph_addEntry, hexits, graph_addNode]

theorem graph_addJoin (composite : NodeId) (specification : String) (traced : Bool)
    (exit : ExitId) : Graph.addJoin composite specification traced sketch.graph exit =
      ((sketch.addJoin composite specification traced exit).1,
        (sketch.addJoin composite specification traced exit).2.graph) := by
  simp only [Graph.addJoin, addJoin, size_nodes_graph, graph_addEntry, graph_addNode]

theorem graph_addComposite (specification : String) (inletCount exitCount : Nat) (traced : Bool) :
    sketch.graph.addComposite specification inletCount exitCount traced =
      ((sketch.addComposite specification inletCount exitCount traced).1,
        (sketch.addComposite specification inletCount exitCount traced).2.graph) := by
  have hinlets (owner : NodeId) := graph_times (fun g => g.addInlet owner) _
    fun s => s.graph_addInlet owner
  have hexits (owner : NodeId) := graph_times (fun g => g.addExit owner) _
    fun s => s.graph_addExit owner
  have hjoins (node : NodeId) := graph_forEach (Graph.addJoin node specification traced) _
    fun s => s.graph_addJoin node specification traced
  -- The default table of parts is the empty one that a graph begins with
  have hempty : (default : Table NodeId) = {} := rfl
  simp only [Graph.addComposite, addComposite, size_nodes_graph, hinlets, graph_addOwnOutlet,
    hexits, graph_addNode, hjoins, graph_modifyNode, hempty]

@[simp] theorem graph_adopt (composite : NodeId) (role : String) (part : NodeId) :
    (sketch.adopt composite role part).graph = sketch.graph.adopt composite role part := by
  simp [Graph.adopt, adopt]

/-! ## Wiring -/

def ensureInletCell (inlet : InletId) : Sketch :=
  match sketch.inletCell? inlet with
  | some _ => sketch
  | none =>
    let (cell, sketch) := sketch.addCell
    sketch.attachReader inlet cell

def ensureOutletCell (outlet : OutletId) : Sketch :=
  match sketch.outletCell? outlet with
  | some _ => sketch
  | none =>
    let (cell, sketch) := sketch.addCell
    sketch.attachWriter outlet cell

/-- Vacates the slot of a cell that is in use. -/
def vacate (cell : CellId) : Sketch :=
  { sketch with
    slots := sketch.slots.modify cell.slot fun s => ⟨s.generation + 1, none⟩
    vacant := cell.slot :: sketch.vacant
    live := sketch.live - 1 }

/-- Lets all ports of some lists share a cell. -/
def redirect (cell : CellId) (readers : List InletId) (writers : List OutletId) : Sketch :=
  let sketch := readers.foldl (fun s inlet =>
    s.modifyInlet inlet fun record => { record with cell := some cell }) sketch
  writers.foldl (fun s outlet =>
    s.modifyOutlet outlet fun record => { record with cell := some cell }) sketch

def merge (absorbed survivor : CellId) : Sketch :=
  match sketch.cell? absorbed with
  | none => sketch
  | some old =>
    ((sketch.vacate absorbed).redirect survivor old.readers old.writers).modifyCell survivor
      fun cell => cell.absorb old

def unite (inlet : InletId) (outlet : OutletId) : Sketch :=
  match sketch.inletCell? inlet, sketch.outletCell? outlet with
  | some a, some b => if a = b then sketch else sketch.merge a b
  | none, some b => sketch.attachReader inlet b
  | some a, none => sketch.attachWriter outlet a
  | none, none =>
    let (cell, sketch) := sketch.addCell
    (sketch.attachReader inlet cell).attachWriter outlet cell

def markInlet (inlet : InletId) : Sketch :=
  sketch.modifyInlet inlet fun record => { record with wired := true }

def markOutlet (outlet : OutletId) : Sketch :=
  sketch.modifyOutlet outlet fun record => { record with wired := true }

def connect (inlet : InletId) (outlet : OutletId) : Sketch :=
  (sketch.unite inlet outlet).markInlet inlet

def feed (outer inner : InletId) : Sketch :=
  ((sketch.ensureInletCell inner).modifyInlet outer fun record =>
    { record with feeds := Cell.joined record.feeds inner }).markInlet inner

def relay (outer inner : OutletId) : Sketch :=
  ((sketch.ensureOutletCell outer).modifyOutlet inner fun record =>
    { record with relay := some outer }).markOutlet outer

def setTarget (exit : ExitId) (target : Option EntryId) : Sketch :=
  { sketch with exits := sketch.exits.modify exit.index fun record => { record with target } }

def setEntry (composite : NodeId) (entry : EntryId) : Sketch :=
  sketch.modifyNode composite (Node.modifyInterface fun ports => { ports with entry := some entry })

@[simp] theorem graph_ensureInletCell (inlet : InletId) :
    (sketch.ensureInletCell inlet).graph = (sketch.graph.ensureInletCell inlet).2 := by
  unfold Graph.ensureInletCell ensureInletCell
  rw [graph_inletCell?]
  cases sketch.inletCell? inlet <;> simp [graph_addCell]

@[simp] theorem graph_ensureOutletCell (outlet : OutletId) :
    (sketch.ensureOutletCell outlet).graph = (sketch.graph.ensureOutletCell outlet).2 := by
  unfold Graph.ensureOutletCell ensureOutletCell
  rw [graph_outletCell?]
  cases sketch.outletCell? outlet <;> simp [graph_addCell]

theorem graph_redirect (cell : CellId) (readers : List InletId) (writers : List OutletId) :
    (sketch.redirect cell readers writers).graph =
      writers.foldl (fun g outlet => g.modifyOutlet outlet fun record =>
          { record with cell := some cell })
        (readers.foldl (fun g inlet => g.modifyInlet inlet fun record =>
          { record with cell := some cell }) sketch.graph) := by
  unfold redirect
  rw [List.foldl_hom graph, List.foldl_hom graph]
  · exact fun s outlet => (graph_modifyOutlet s outlet _).symm
  · exact fun s inlet => (graph_modifyInlet s inlet _).symm

@[simp] theorem graph_merge (absorbed survivor : CellId) :
    (sketch.merge absorbed survivor).graph = sketch.graph.merge absorbed survivor := by
  unfold Graph.merge Store.remove merge
  rw [get?_cells]
  cases sketch.cell? absorbed with
  | none => rfl
  | some old =>
    -- The slot is vacated before the ports are redirected, on both sides
    have hvacate : (sketch.vacate absorbed).graph =
        { sketch.graph with
          cells :=
            { slots := sketch.graph.cells.slots.modify absorbed.slot
                fun s => ⟨s.generation + 1, none⟩
              vacant := absorbed.slot :: sketch.graph.cells.vacant
              live := sketch.graph.cells.live - 1 } } := by
      simp [vacate, graph]
    simp only [graph_modifyCell, graph_redirect, hvacate]

@[simp] theorem graph_unite (inlet : InletId) (outlet : OutletId) :
    (sketch.unite inlet outlet).graph = sketch.graph.unite inlet outlet := by
  unfold Graph.unite unite
  rw [graph_inletCell?, graph_outletCell?]
  -- The four cases of the two pins, with or without a cell
  cases sketch.inletCell? inlet with
  | none =>
    cases sketch.outletCell? outlet with
    | none => simp [graph_addCell]
    | some b => simp
  | some a =>
    cases sketch.outletCell? outlet with
    | none => simp
    | some b =>
      dsimp only
      split <;> simp

@[simp] theorem graph_connect (inlet : InletId) (outlet : OutletId) :
    (sketch.connect inlet outlet).graph = sketch.graph.connect inlet outlet := by
  simp [Graph.connect, connect, Graph.markInlet, markInlet]

@[simp] theorem graph_feed (outer inner : InletId) :
    (sketch.feed outer inner).graph = sketch.graph.feed outer inner := by
  simp [Graph.feed, feed, Graph.markInlet, markInlet]

@[simp] theorem graph_relay (outer inner : OutletId) :
    (sketch.relay outer inner).graph = sketch.graph.relay outer inner := by
  simp [Graph.relay, relay, Graph.markOutlet, markOutlet]

@[simp] theorem graph_setTarget (exit : ExitId) (target : Option EntryId) :
    (sketch.setTarget exit target).graph = sketch.graph.setTarget exit target := by
  simp [Graph.setTarget, setTarget, graph]

@[simp] theorem graph_setEntry (composite : NodeId) (entry : EntryId) :
    (sketch.setEntry composite entry).graph = sketch.graph.setEntry composite entry := by
  simp [Graph.setEntry, setEntry]

end Sketch

end TokenNet
