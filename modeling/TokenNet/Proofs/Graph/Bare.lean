import TokenNet.Proofs.Graph.Linked

/-!
# What operations on cells leave alone

Two graphs have the same *bare* graph when they differ in nothing but cells: in the cells
themselves and in which port shares which cell.  Every operation that only moves ports between
cells or writes values keeps the bare graph, so nodes, entries, exits, marks, feeds and relays are
what they were.

## Main statements

- `bare_ensure`, `bare_unite`, `bare_detach`, `bare_setValue`: operations on cells keep the bare
  graph.
- `bare_connect`, `bare_feed`, `bare_relay`: the other wirings change one record of it.
-/

namespace TokenNet

theorem map_modify_eq {α β : Type} (records : Array α) (index : Nat) {change : α → α} {view : α → β}
    (h : ∀ a, view (change a) = view a) :
    (records.modify index change).map view = records.map view := by
  refine Array.ext_getElem? fun i => ?_
  rw [Array.getElem?_map, Array.getElem?_map, Array.getElem?_modify]
  split
  · rw [Option.map_map]
    exact congrArg (fun f => Option.map f records[i]?) (funext h)
  · rfl

theorem map_modify_comm {α β : Type} (records : Array α) (index : Nat) {change : α → α}
    {view : α → β} {change' : β → β} (h : ∀ a, view (change a) = change' (view a)) :
    (records.modify index change).map view = (records.map view).modify index change' := by
  refine Array.ext_getElem? fun i => ?_
  rw [Array.getElem?_map, Array.getElem?_modify, Array.getElem?_modify, Array.getElem?_map]
  split
  · rw [Option.map_map, Option.map_map]
    exact congrArg (fun f => Option.map f records[i]?) (funext h)
  · rfl

/-- An inlet without its cell. -/
def Inlet.bare (record : Inlet) : Inlet := { record with cell := none }

/-- An outlet without its cell. -/
def Outlet.bare (record : Outlet) : Outlet := { record with cell := none }

namespace Graph

/-- A graph without its cells. -/
def bare (graph : Graph) : Graph :=
  { graph with
    inlets := graph.inlets.map Inlet.bare
    outlets := graph.outlets.map Outlet.bare
    cells := {} }

/-! ## Operations on cells -/

@[simp] theorem bare_modifyCell (graph : Graph) (cell : CellId) (change : Cell → Cell) :
    (graph.modifyCell cell change).bare = graph.bare := rfl

@[simp] theorem bare_addCell (graph : Graph) (value : Value) :
    (graph.addCell value).2.bare = graph.bare := rfl

/-- A change of an inlet that commutes with forgetting its cell is the same change of the bare
graph. -/
theorem bare_modifyInlet (graph : Graph) (inlet : InletId) {change change' : Inlet → Inlet}
    (h : ∀ record, (change record).bare = change' record.bare) :
    (graph.modifyInlet inlet change).bare = graph.bare.modifyInlet inlet change' :=
  congrArg (fun inlets => ({ graph.bare with inlets } : Graph))
    (map_modify_comm graph.inlets inlet.index h)

/-- A change of an outlet that commutes with forgetting its cell is the same change of the bare
graph. -/
theorem bare_modifyOutlet (graph : Graph) (outlet : OutletId) {change change' : Outlet → Outlet}
    (h : ∀ record, (change record).bare = change' record.bare) :
    (graph.modifyOutlet outlet change).bare = graph.bare.modifyOutlet outlet change' :=
  congrArg (fun outlets => ({ graph.bare with outlets } : Graph))
    (map_modify_comm graph.outlets outlet.index h)

@[simp] theorem bare_assign (graph : Graph) (port : Port) (cell : Option CellId) :
    (graph.assign port cell).bare = graph.bare := by
  cases port with
  | inlet inlet =>
    have hinlets : (graph.inlets.modify inlet.index fun record => { record with cell }).map
        Inlet.bare = graph.inlets.map Inlet.bare :=
      map_modify_eq graph.inlets inlet.index fun _ => rfl
    exact congrArg (fun inlets => ({ graph.bare with inlets } : Graph)) hinlets
  | outlet outlet =>
    have houtlets : (graph.outlets.modify outlet.index fun record => { record with cell }).map
        Outlet.bare = graph.outlets.map Outlet.bare :=
      map_modify_eq graph.outlets outlet.index fun _ => rfl
    exact congrArg (fun outlets => ({ graph.bare with outlets } : Graph)) houtlets

@[simp] theorem bare_attach (graph : Graph) (port : Port) (cell : CellId) :
    (graph.attach port cell).bare = graph.bare := by
  rw [attach_eq, bare_assign, bare_modifyCell]

@[simp] theorem bare_ensure (graph : Graph) (port : Port) :
    (graph.ensure port).2.bare = graph.bare := by
  cases hcell : graph.portCell? port with
  | some cell => rw [ensure_of_some hcell]
  | none => rw [ensure_of_none hcell, bare_attach, bare_addCell]

theorem bare_foldl_assign (cell : Option CellId) (ports : List Port) (graph : Graph) :
    (ports.foldl (fun (g : Graph) member => g.assign member cell) graph).bare = graph.bare := by
  induction ports generalizing graph with
  | nil => rfl
  | cons first rest ih => rw [List.foldl_cons, ih, bare_assign]

@[simp] theorem bare_merge (graph : Graph) (absorbed survivor : CellId) :
    (graph.merge absorbed survivor).bare = graph.bare := by
  cases hold : graph.cell? absorbed with
  | some old =>
    rw [merge_eq hold, bare_modifyCell, bare_foldl_assign]
    rfl
  | none =>
    -- Where no cell is behind the key, merging does nothing at all
    have hold' : graph.cells.get? absorbed = none := hold
    simp [merge, Store.remove_eq, hold']

@[simp] theorem bare_unite (graph : Graph) (inlet : InletId) (outlet : OutletId) :
    (graph.unite inlet outlet).bare = graph.bare := by
  unfold unite
  split
  next a b ha hb =>
    split
    next => rfl
    next => exact bare_merge graph a b
  next b ha hb => exact bare_attach graph (.inlet inlet) b
  next a ha hb => exact bare_attach graph (.outlet outlet) a
  next =>
    exact (bare_attach _ (.outlet outlet) _).trans
      ((bare_attach _ (.inlet inlet) _).trans (bare_addCell graph 0))

@[simp] theorem bare_dropOrphan (graph : Graph) (cell : CellId) :
    (graph.dropOrphan cell).bare = graph.bare := by
  unfold dropOrphan
  split <;> rfl

@[simp] theorem bare_detach (graph : Graph) (port : Port) :
    (graph.detach port).bare = graph.bare := by
  cases hcell : graph.portCell? port with
  | none => rw [detach_of_none hcell]
  | some cell =>
    rw [detach_of_some hcell, bare_dropOrphan, bare_modifyCell, bare_assign]

@[simp] theorem bare_setValue (graph : Graph) (cell : CellId) (value : Value) :
    (graph.setValue cell value).bare = graph.bare := by
  unfold setValue
  -- Which cells are written does not matter, so the list is any list
  generalize graph.reached cell = reached
  induction reached generalizing graph with
  | nil => rfl
  | cons first rest ih => rw [List.foldl_cons, ih, bare_modifyCell]

/-- Writing a port. -/
theorem bare_write (graph : Graph) (port : Port) (value : Value) :
    ((graph.ensure port).2.setValue (graph.ensure port).1 value).bare = graph.bare := by
  rw [bare_setValue, bare_ensure]

/-! ## Other wirings -/

theorem bare_markInlet (graph : Graph) (inlet : InletId) :
    (graph.markInlet inlet).bare = graph.bare.markInlet inlet :=
  bare_modifyInlet graph inlet fun _ => rfl

theorem bare_markOutlet (graph : Graph) (outlet : OutletId) :
    (graph.markOutlet outlet).bare = graph.bare.markOutlet outlet :=
  bare_modifyOutlet graph outlet fun _ => rfl

/-- Wiring an outlet into an inlet marks the inlet. -/
theorem bare_connect (graph : Graph) (inlet : InletId) (outlet : OutletId) :
    (graph.connect inlet outlet).bare = graph.bare.markInlet inlet := by
  unfold connect
  rw [bare_markInlet, bare_unite]

/-- Letting an inlet feed another adds the feed and marks the inner inlet. -/
theorem bare_feed (graph : Graph) (outer inner : InletId) :
    (graph.feed outer inner).bare =
      (graph.bare.modifyInlet outer fun record =>
        { record with feeds := Cell.joined record.feeds inner }).markInlet inner := by
  -- The inner inlet may get a cell first, which the bare graph does not show
  have hinner : (graph.ensureInletCell inner).2.bare = graph.bare :=
    bare_ensure graph (.inlet inner)
  unfold feed
  rw [bare_markInlet, ← hinner]
  congr 1
  exact bare_modifyInlet _ outer fun _ => rfl

/-- Relaying an outlet to another sets the relay and marks the outer outlet. -/
theorem bare_relay (graph : Graph) (outer inner : OutletId) :
    (graph.relay outer inner).bare =
      (graph.bare.modifyOutlet inner fun record => { record with relay := some outer }).markOutlet
        outer := by
  -- The outer outlet may get a cell first, which the bare graph does not show
  have houter : (graph.ensureOutletCell outer).2.bare = graph.bare :=
    bare_ensure graph (.outlet outer)
  unfold relay
  rw [bare_markOutlet, ← houter]
  congr 1
  exact bare_modifyOutlet _ inner fun _ => rfl

end Graph

end TokenNet
