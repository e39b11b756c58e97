import Mathlib.Data.List.Sort
import TokenNet.Proofs.Chart.Library
import TokenNet.Proofs.Sketch.Build

/-!
# Charts of sketches

A chart is read off a sketch as it is read off a graph, so a chart of a library can be checked by
the kernel: the sketch of the build is evaluated, and its wiring is compared with the chart.

## Main statements

- `Sketch.row?_of_hasRow`: a row of the sketch is a row of the graph.
- `Sketch.graph_charted`: a chart that fits a sketch fits the graph that it stands for.
- `Library.follows_of_sketched`: a chart that fits the sketch of a build is one of the library.
-/

namespace TokenNet

namespace Sketch

/-! ## Reading the wiring -/

def fedCells (sketch : Sketch) (inlet : InletId) : List CellId :=
  match sketch.inlets.get? inlet.index with
  | some record => record.feeds.filterMap sketch.inletCell?
  | none => []

def successors (sketch : Sketch) (cell : CellId) : List CellId :=
  match sketch.cell? cell with
  | some record => record.readers.flatMap sketch.fedCells
  | none => []

def reached (sketch : Sketch) (cell : CellId) : List CellId :=
  Reach.within sketch.successors (sketch.slots.size + 1) cell

def inward (sketch : Sketch) (inlet : InletId) : List CellId :=
  (sketch.fedCells inlet).flatMap sketch.reached

def relays (sketch : Sketch) : Nat → OutletId → List OutletId
  | 0, _ => []
  | bound + 1, outlet =>
    match (sketch.outlets.get? outlet.index).bind Outlet.relay with
    | none => []
    | some outer => outer ::
        if (sketch.outlets.get? outer.index).any Outlet.wired then sketch.relays bound outer else []

def outward (sketch : Sketch) (outlet : OutletId) : List CellId :=
  (outlet :: sketch.relays sketch.outlets.size outlet).flatMap fun outer =>
    ((sketch.outletCell? outer).map sketch.reached).getD []

def jump? (sketch : Sketch) : Nat → ExitId → Option Jump
  | 0, _ => none
  | bound + 1, exit =>
    match (sketch.exits.get? exit.index).bind Exit.target with
    | none => some ⟨.exit exit.index, 0⟩
    | some entry =>
      match ((sketch.entries.get? entry.index).bind fun node =>
          sketch.nodes.get? node.index).map Node.kind with
      | none => none
      | some (.join _ next) => (sketch.jump? bound next).map fun jump =>
          { jump with joins := jump.joins + 1 }
      | some _ => some ⟨.row entry.index, 0⟩

/-- The positions of the inlets that read some cells, as the cells list them. -/
def readersOf (sketch : Sketch) (cells : List CellId) : List Nat :=
  cells.flatMap fun cell =>
    ((sketch.cell? cell).map fun record => record.readers.map InletId.index).getD []

/-- Whether some slots are those at which a write to some cells shows.  Cells know their readers,
so there is no need to ask every inlet for its cell. -/
def showsAt (sketch : Sketch) (cells : List CellId) (slots : List Nat) : Bool :=
  let readers := sketch.readersOf cells
  decide (slots.IsChain (· < ·)) && (slots.all fun s => decide (s ∈ readers)) &&
    readers.all fun s => decide (s ∈ slots)

def sourceOf (sketch : Sketch) (left right : InletId) : Source :=
  match (sketch.inlets.get? left.index).any Inlet.wired,
      (sketch.inlets.get? right.index).any Inlet.wired with
  | true, true => .sum left.index right.index
  | true, false => .constant 1
  | false, true => .constant (-1)
  | false, false => .constant 0

/-- Whether a row is that of the adder behind an entry. -/
def hasRow (sketch : Sketch) (outlet : OutletId) (entry : Nat) (row : Row) : Bool :=
  match ((sketch.entries.get? entry).bind fun node =>
      sketch.nodes.get? node.index).map Node.kind with
  | some (.native .adder ⟨[left, right], own, _, [zero, other], _, _, _⟩) =>
    let fired := Graph.firedBy zero other row.source
    let cells := sketch.outward own
    decide (sketch.sourceOf left right = row.source) && sketch.showsAt cells row.writes &&
      (((sketch.outletCell? outlet).any fun cell => decide (cell ∈ cells)) == row.emits) &&
      (sketch.outletCell? own).isSome &&
      decide (sketch.jump? sketch.nodes.size fired.1 = some row.zero) &&
      decide (sketch.jump? sketch.nodes.size fired.2 = some row.other)
  | _ => false

variable (sketch : Sketch)

theorem graph_fedCells : sketch.graph.fedCells = sketch.fedCells := by
  have hcells : sketch.graph.inletCell? = sketch.inletCell? := funext sketch.graph_inletCell?
  funext inlet
  unfold Graph.fedCells
  rw [graph_inlet?, hcells]
  rfl

theorem graph_reached : sketch.graph.reached = sketch.reached := by
  have hsuccessors : sketch.graph.successors = sketch.successors := by
    funext cell
    unfold Graph.successors
    rw [graph_cell?, graph_fedCells]
    rfl
  have hsize : sketch.graph.cells.slots.size = sketch.slots.size := Series.size_toArray _
  funext cell
  unfold Graph.reached reached
  rw [hsuccessors, hsize]

theorem graph_inward : sketch.graph.inward = sketch.inward := by
  funext inlet
  unfold Graph.inward inward
  rw [graph_fedCells, graph_reached]

theorem graph_relays : ∀ (bound : Nat) (outlet : OutletId),
    sketch.graph.relays bound outlet = sketch.relays bound outlet
  | 0, _ => rfl
  | bound + 1, outlet => by
    unfold Graph.relays Graph.outletWired
    simp only [graph_outlet?, graph_relays bound]
    rfl

theorem graph_outward : sketch.graph.outward = sketch.outward := by
  have hsize : sketch.graph.outlets.size = sketch.outlets.size := Series.size_toArray _
  have hown : sketch.graph.ownOutward =
      fun outer => ((sketch.outletCell? outer).map sketch.reached).getD [] := by
    funext outer
    unfold Graph.ownOutward
    rw [graph_outletCell?, graph_reached]
  funext outlet
  unfold Graph.outward Graph.relayChain outward
  rw [hsize, graph_relays, hown]

theorem graph_jump? : ∀ (bound : Nat) (exit : ExitId),
    sketch.graph.jump? bound exit = sketch.jump? bound exit
  | 0, _ => rfl
  | bound + 1, exit => by
    have hnode : sketch.graph.node? = fun node => sketch.nodes.get? node.index :=
      funext sketch.graph_node?
    unfold Graph.jump? Graph.target?
    simp only [graph_exit?, graph_admitted?, hnode, graph_jump? bound]
    rfl

variable {sketch} in
/-- In a linked graph the readers of cells are the inlets that share them. -/
theorem mem_readersOf (h : sketch.graph.Linked) {cells : List CellId} {s : Nat} :
    s ∈ sketch.readersOf cells ↔ s ∈ sketch.graph.slotsOf cells := by
  rw [Graph.mem_slotsOf, Graph.touches_iff, readersOf, List.mem_flatMap]
  refine exists_congr fun cell => and_congr_right fun _ => ?_
  rw [← graph_cell?]
  cases hcell : sketch.graph.cell? cell with
  -- A cell that finds nothing is read by nobody
  | none =>
    simp only [Option.map_none, Option.getD_none, List.not_mem_nil, false_iff]
    intro hport
    obtain ⟨record, hrecord⟩ := h.live hport
    rw [hcell] at hrecord
    cases hrecord
  | some record =>
    rw [← h.mem_members hcell]
    simp only [Option.map_some, Option.getD_some, Cell.members, List.mem_append, List.mem_map,
      Port.inlet.injEq, reduceCtorEq, and_false, exists_false, or_false]
    refine exists_congr fun inlet => and_congr_right fun _ => ?_
    exact ⟨fun h => h ▸ rfl, fun h => h ▸ rfl⟩

variable {sketch} in
theorem slotsOf_of_showsAt (h : sketch.graph.Linked) {cells : List CellId} {slots : List Nat}
    (hshows : sketch.showsAt cells slots = true) : sketch.graph.slotsOf cells = slots := by
  simp only [showsAt, Bool.and_eq_true, decide_eq_true_eq, List.all_eq_true] at hshows
  obtain ⟨⟨hsorted, hlisted⟩, hcovered⟩ := hshows
  have hrange : (sketch.graph.slotsOf cells).Pairwise (· < ·) :=
    List.Pairwise.filter _ List.pairwise_lt_range
  refine hrange.eq_of_mem_iff (List.isChain_iff_pairwise.mp hsorted) fun s => ?_
  rw [← mem_readersOf h]
  exact ⟨hcovered s, hlisted s⟩

theorem graph_sourceOf (left right : InletId) :
    sketch.graph.sourceOf left right = sketch.sourceOf left right := by
  unfold Graph.sourceOf Graph.inletWired
  rw [graph_inlet?, graph_inlet?]
  rfl

variable {sketch} in
/-- **A row of the sketch is a row of the graph.** -/
theorem row?_of_hasRow (h : sketch.graph.Linked) {outlet : OutletId} {entry : Nat} {row : Row}
    (hrow : sketch.hasRow outlet entry row = true) :
    sketch.graph.row? outlet entry = some row := by
  have hnode : sketch.graph.node? = fun node => sketch.nodes.get? node.index :=
    funext sketch.graph_node?
  have hsize : sketch.graph.nodes.size = sketch.nodes.size := Series.size_toArray _
  have htouches (cells : List CellId) : sketch.graph.touches cells (.outlet outlet) =
      (sketch.outletCell? outlet).any fun cell => decide (cell ∈ cells) := by
    rw [← graph_outletCell?]
    rfl
  unfold hasRow at hrow
  split at hrow
  -- The conditions of the check are the look-ups of the row
  next left right own _ zero other _ _ _ hkind =>
    simp only [Bool.and_eq_true, decide_eq_true_eq, beq_iff_eq] at hrow
    obtain ⟨⟨⟨⟨⟨hsource, hshows⟩, hemits⟩, hown⟩, hzero⟩, hother⟩ := hrow
    obtain ⟨cell, hcell⟩ := Option.isSome_iff_exists.mp hown
    unfold Graph.row?
    simp only [graph_admitted?, hnode, hkind, hsize, htouches, graph_sourceOf, graph_outward,
      graph_jump?, graph_outletCell?, hsource, hcell, hzero, hother, hemits,
      slotsOf_of_showsAt h hshows]
  next => cases hrow

/-! ## Comparing with a chart -/

/-- Whether a chart fits a sketch whose root has the given ports. -/
def charted (ports : Interface) (chart : Chart) : Bool :=
  ((sketch.inlets.newest.all fun record =>
      record.feeds.all fun inner => (sketch.inletCell? inner).isSome) &&
    (sketch.outlets.newest.all fun record =>
      record.relay.all fun outer => (sketch.outletCell? outer).isSome) &&
    sketch.slots.newest.all fun slot => slot.content.all fun cell => decide (cell.value = 0)) &&
  (decide (ports.entry = some ⟨chart.start⟩) &&
    decide (ports.exits = (List.range chart.exits).map ExitId.mk) &&
    ((sketch.outlets.get? ports.outlet.index).any Outlet.wired == chart.gives) &&
    (sketch.outletCell? ports.outlet).isSome) &&
  (ports.inlets.all fun inlet =>
    decide (inlet.index < sketch.inlets.size) && (sketch.inletCell? inlet).isNone) &&
  (decide (ports.inlets.length = chart.inputs.length) &&
    (ports.inlets.zip chart.inputs).all fun (inlet, slots) =>
      slots.head? == some inlet.index && sketch.showsAt (sketch.inward inlet) slots.tail) &&
  chart.rows.all fun row => sketch.hasRow ports.outlet row.1 row.2

variable {sketch}

theorem inputSlots_of_showsAt (h : sketch.graph.Linked) {inlet : InletId} {slots : List Nat}
    (hhead : slots.head? = some inlet.index)
    (hshows : sketch.showsAt (sketch.inward inlet) slots.tail = true) :
    sketch.graph.inputSlots inlet = slots := by
  unfold Graph.inputSlots
  rw [graph_inward, slotsOf_of_showsAt h hshows]
  exact List.cons_head?_tail hhead

/-- **A chart that fits a sketch** fits the graph that it stands for. -/
theorem graph_charted {ports : Interface} {chart : Chart} (hlinked : sketch.graph.Linked)
    (h : sketch.charted ports chart = true) : sketch.graph.Charted ports chart := by
  simp only [charted, Bool.and_eq_true, List.all_eq_true, Option.all_eq_true, decide_eq_true_eq,
    beq_iff_eq, Option.isNone_iff_eq_none] at h
  obtain ⟨⟨⟨⟨⟨⟨hfed, hrelayed⟩, hblank⟩, ⟨⟨hentry, hexits⟩, hgives⟩, houtlet⟩, hloose⟩,
    hlength, hinputs⟩, hrows⟩ := h
  constructor
  -- The lists of a sketch are the arrays of its graph, the other way round
  case tight =>
    constructor
    · intro record hrecord inner hinner
      rw [graph_inletCell?]
      exact hfed record (List.mem_reverse.mp hrecord) inner hinner
    · intro record hrecord outer houter
      rw [graph_outletCell?]
      exact hrelayed record (List.mem_reverse.mp hrecord) outer houter
  case blank =>
    intro slot hslot cell hcell
    exact hblank slot (List.mem_reverse.mp hslot) cell hcell
  case entry => exact hentry
  case exits => exact hexits
  case gives =>
    unfold Graph.outletWired
    rw [graph_outlet?]
    exact hgives
  case outlet =>
    rw [graph_outletCell?]
    exact houtlet
  case loose =>
    intro inlet hinlet
    obtain ⟨hinside, hfree⟩ := hloose inlet hinlet
    rw [graph_inletCell?]
    exact ⟨hinside.trans_eq (Series.size_toArray _).symm, hfree⟩
  -- Inlets and inputs are compared one by one
  case inputs =>
    apply List.ext_getElem
    · rw [List.length_map, hlength]
    · intro i hinlet hslots
      rw [List.getElem_map]
      have hports : i < ports.inlets.length := by simpa using hinlet
      -- The check goes over the inlets and the inputs in pairs
      have hmem : (ports.inlets[i], chart.inputs[i]) ∈
          ports.inlets.zip chart.inputs := by
        rw [List.mem_iff_getElem]
        exact ⟨i, by simp_all, by simp⟩
      obtain ⟨hhead, hshows⟩ := hinputs _ hmem
      exact inputSlots_of_showsAt hlinked hhead hshows
  case rows =>
    intro row hrow
    exact row?_of_hasRow hlinked (hrows row hrow)

end Sketch

namespace Library

/-- A specification has a single implementation, and the sketch of its build has the chart. -/
def sketched (library : Library) (identifier : String) (chart : Chart) : Bool :=
  ((library.find identifier).toOption.any fun spec => spec.implementations.length == 1) &&
    (library.sketch? identifier).any fun (root, sketch) =>
      (sketch.interface? root).any fun ports => sketch.charted ports chart

/-- **A chart that fits the sketch of a build is one of the library.** -/
theorem follows_of_sketched {library : Library} {identifier : String} {chart : Chart}
    (h : library.sketched identifier chart = true) : library.follows identifier chart = true := by
  unfold sketched at h
  rw [Bool.and_eq_true] at h
  obtain ⟨hsingle, hsketch⟩ := h
  -- The sketch that is found is the graph of a build
  obtain ⟨⟨root, sketch⟩, hfound, hports⟩ := (Option.any_eq_true _ _).mp hsketch
  obtain ⟨ports, hinterface, hchart⟩ := (Option.any_eq_true _ _).mp hports
  obtain ⟨net, hnet, rfl, hgraph⟩ := instantiate_of_sketch? hfound
  have hlinked := (Network.leads_instantiate hnet).1.linked .empty
  rw [hgraph] at hlinked
  unfold follows
  rw [hsingle, hnet, Bool.true_and, Except.toOption, Option.any_some, hgraph,
    Sketch.graph_interface?, hinterface, Option.any_some, decide_eq_true_eq]
  exact Sketch.graph_charted hlinked hchart

end Library

end TokenNet
