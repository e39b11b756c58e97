import Mathlib.Data.Finset.Card
import TokenNet.Graph.Flow
import TokenNet.Proofs.Graph.Bare
import TokenNet.Proofs.Reach

/-!
# Where values go

What a port shows is the value of its cell, and a port without a cell shows zero.  Writing a cell
changes what is shown at every port whose cell is fed from it, through any number of inlets, and
at no other port.  The cells that a write reaches are those of the wiring: they do not depend on
values, so a sequence of writes can be read off the wiring before the first of them.

## Main statements

- `Linked.mem_reached`: a write reaches exactly the cells to which a path of feeding inlets leads.
- `shows_setValue`: what ports show after a cell has been written.
- `shows_writeOutlet`: what ports show after an outlet has been written.
-/

namespace TokenNet.Graph

/-! ## Reached cells -/

/-- A reader of the first cell feeds an inlet that reads the second. -/
def Pours (graph : Graph) (a b : CellId) : Prop :=
  ∃ inlet, graph.inletCell? inlet = some a ∧ b ∈ graph.fedCells inlet

theorem mem_fedCells {graph : Graph} {inlet : InletId} {cell : CellId} :
    cell ∈ graph.fedCells inlet ↔ ∃ record, graph.inlet? inlet = some record ∧
      ∃ inner ∈ record.feeds, graph.inletCell? inner = some cell := by
  unfold fedCells
  cases graph.inlet? inlet with
  | none => simp
  | some record => simp [List.mem_filterMap]

theorem Linked.mem_successors {graph : Graph} (h : graph.Linked) {a b : CellId} :
    b ∈ graph.successors a ↔ graph.Pours a b := by
  unfold successors Pours
  cases hcell : graph.cell? a with
  | none =>
    -- Nobody reads a cell that is gone
    constructor
    · simp
    · rintro ⟨inlet, hinlet, _⟩
      obtain ⟨record, hrecord⟩ := h.live (show graph.portCell? (.inlet inlet) = some a from hinlet)
      rw [hcell] at hrecord
      cases hrecord
  | some record =>
    rw [List.mem_flatMap]
    apply exists_congr
    intro inlet
    rw [← Cell.inlet_mem_members, h.mem_members hcell]
    rfl

/-- The cells in use. -/
def liveCells (graph : Graph) : Finset CellId :=
  graph.cells.keys.toFinset

theorem mem_liveCells {graph : Graph} {cell : CellId} :
    cell ∈ graph.liveCells ↔ ∃ record, graph.cell? cell = some record := by
  rw [liveCells, List.mem_toFinset, Store.mem_keys]
  exact Option.isSome_iff_exists

/-- There are no more cells in use than slots. -/
theorem card_liveCells_lt (graph : Graph) :
    graph.liveCells.card < graph.cells.slots.size + 1 := by
  have hkeys : graph.cells.keys.length ≤ graph.cells.slots.size :=
    (List.length_filterMap_le _ _).trans (Nat.le_of_eq List.length_range)
  exact Nat.lt_succ_of_le ((List.toFinset_card_le _).trans hkeys)

/-- A write reaches all cells to which direct feeding leads, as soon as it leads to cells in use
only. -/
theorem mem_reached_of {graph : Graph} {feeding : CellId → CellId → Prop}
    (hfeeding : ∀ {c d}, d ∈ graph.successors c ↔ feeding c d)
    (hlive : ∀ {c d}, feeding c d → ∃ record, graph.cell? d = some record) {a b : CellId} :
    b ∈ graph.reached a ↔ Relation.ReflTransGen feeding a b := by
  -- The search ends within the live cells
  have hnext : ∀ c, ∀ d ∈ graph.successors c, d ∈ graph.liveCells := fun c d hd =>
    mem_liveCells.mpr (hlive (hfeeding.mp hd))
  have hsame : (fun c d => d ∈ graph.successors c) = feeding := by
    funext c d
    exact propext hfeeding
  rw [reached, Reach.mem_within hnext graph.card_liveCells_lt, Reach.Leads, hsame]

/-- **A write reaches exactly the cells fed from the written one**, directly or through others. -/
theorem Linked.mem_reached {graph : Graph} (h : graph.Linked) {a b : CellId} :
    b ∈ graph.reached a ↔ Relation.ReflTransGen graph.Pours a b := by
  refine mem_reached_of h.mem_successors fun {c d} hpours => ?_
  obtain ⟨inlet, _, hfed⟩ := hpours
  obtain ⟨_, _, inner, _, hinner⟩ := mem_fedCells.mp hfed
  exact h.live (show graph.portCell? (.inlet inner) = some d from hinner)

/-! ## Shown values -/

/-- What a port shows: the value of its cell, and zero without one. -/
def shows (graph : Graph) (port : Port) : Value :=
  (graph.portValue? port).getD 0

/-- Whether a port shares one of the given cells. -/
def touches (graph : Graph) (cells : List CellId) (port : Port) : Bool :=
  (graph.portCell? port).any fun cell => decide (cell ∈ cells)

theorem touches_iff {graph : Graph} {cells : List CellId} {port : Port} :
    graph.touches cells port = true ↔ ∃ cell ∈ cells, graph.portCell? port = some cell := by
  unfold touches
  cases graph.portCell? port with
  | none => simp
  | some cell => simp

/-- Only the value of a cell is written. -/
def writeCells (graph : Graph) (cells : List CellId) (value : Value) : Graph :=
  cells.foldl (fun g reached => g.modifyCell reached fun c => { c with value }) graph

theorem setValue_eq (graph : Graph) (cell : CellId) (value : Value) :
    graph.setValue cell value = graph.writeCells (graph.reached cell) value := rfl

/-- Writing cells changes nothing but what the slots hold. -/
theorem writeCells_eq (cells : List CellId) (graph : Graph) (value : Value) :
    { graph with
      cells := { graph.cells with slots := (graph.writeCells cells value).cells.slots } } =
      graph.writeCells cells value := by
  induction cells generalizing graph with
  | nil => rfl
  | cons first rest ih => exact ih (graph.modifyCell first fun c => { c with value })

theorem cell?_writeCells (value : Value) (cell : CellId) : ∀ (cells : List CellId) (graph : Graph),
    (graph.writeCells cells value).cell? cell =
      if cell ∈ cells then (graph.cell? cell).map fun c => { c with value } else graph.cell? cell
  | [], _ => rfl
  | first :: rest, graph => by
    have hrest := cell?_writeCells value cell rest
      (graph.modifyCell first fun c => { c with value })
    rw [cell?_modifyCell] at hrest
    refine hrest.trans ?_
    -- A later write to the same cell writes the same value
    by_cases hfirst : cell = first
    · cases graph.cell? cell <;> simp [hfirst]
    · simp [hfirst]

@[simp] theorem portCell?_writeCells (cells : List CellId) (graph : Graph) (value : Value)
    (port : Port) : (graph.writeCells cells value).portCell? port = graph.portCell? port := by
  rw [← writeCells_eq]
  cases port <;> rfl

theorem slots_size_writeCells (cells : List CellId) (graph : Graph) (value : Value) :
    (graph.writeCells cells value).cells.slots.size = graph.cells.slots.size := by
  induction cells generalizing graph with
  | nil => rfl
  | cons first rest ih => exact (ih _).trans (by simp [modifyCell, Store.modify])

theorem inlets_writeCells (cells : List CellId) (graph : Graph) (value : Value) :
    (graph.writeCells cells value).inlets = graph.inlets := by
  rw [← writeCells_eq]

theorem outlets_writeCells (cells : List CellId) (graph : Graph) (value : Value) :
    (graph.writeCells cells value).outlets = graph.outlets := by
  rw [← writeCells_eq]

@[simp] theorem bare_writeCells (cells : List CellId) (graph : Graph) (value : Value) :
    (graph.writeCells cells value).bare = graph.bare := by
  rw [← writeCells_eq]
  rfl

theorem Linked.writeCells (value : Value) : ∀ (cells : List CellId) {graph : Graph},
    graph.Linked → (graph.writeCells cells value).Linked
  | [], _, h => h
  | first :: rest, _, h => Linked.writeCells value rest (h.modifyCell first fun _ => rfl)

/-- What is fed from a cell does not depend on values. -/
theorem successors_writeCells (cells : List CellId) (graph : Graph) (value : Value) :
    (graph.writeCells cells value).successors = graph.successors := by
  -- What a cell feeds is said by the pins, not by its value
  have hfed : (graph.writeCells cells value).fedCells = graph.fedCells := by
    funext inlet
    unfold fedCells inletCell? inlet?
    rw [inlets_writeCells]
  funext cell
  unfold successors
  rw [cell?_writeCells, hfed]
  by_cases hmem : cell ∈ cells
  · rw [if_pos hmem]
    cases graph.cell? cell <;> rfl
  · rw [if_neg hmem]

/-- The cells that a write reaches do not depend on values. -/
theorem reached_writeCells (cells : List CellId) (graph : Graph) (value : Value) :
    (graph.writeCells cells value).reached = graph.reached := by
  funext cell
  unfold reached
  rw [successors_writeCells, slots_size_writeCells]

theorem shows_writeCells {graph : Graph} (h : graph.Linked) (cells : List CellId) (value : Value)
    (port : Port) : (graph.writeCells cells value).shows port =
      if graph.touches cells port then value else graph.shows port := by
  unfold shows portValue? touches cellValue?
  rw [portCell?_writeCells]
  cases hport : graph.portCell? port with
  | none => simp
  | some cell =>
    -- A port shows the value of its cell, which was written if it is among the cells
    obtain ⟨record, hrecord⟩ := h.live hport
    by_cases hmem : cell ∈ cells
    · simp [cell?_writeCells, hmem, hrecord]
    · simp [cell?_writeCells, hmem]

/-- What ports show after a cell has been written. -/
theorem shows_setValue {graph : Graph} (h : graph.Linked) (cell : CellId) (value : Value)
    (port : Port) : (graph.setValue cell value).shows port =
      if graph.touches (graph.reached cell) port then value else graph.shows port :=
  shows_writeCells h _ value port

/-! ## Merged cells -/

/-- The ports of an absorbed cell show what those of the surviving one show. -/
theorem Linked.shows_merge {graph : Graph} (h : graph.Linked) {absorbed survivor : CellId}
    {old : Cell} (hold : graph.cell? absorbed = some old) (hne : absorbed ≠ survivor)
    {giver : Port} (hgiver : graph.portCell? giver = some survivor) (port : Port) :
    (graph.merge absorbed survivor).shows port =
      if graph.portCell? port = some absorbed then graph.shows giver else graph.shows port := by
  unfold shows portValue? cellValue?
  rw [h.portCell?_merge hold, hgiver]
  split
  -- A port of the absorbed cell now has the cell of the giver
  next =>
    simp only [Option.bind_some, cell?_merge hold hne, Ne.symm hne, if_false, if_true,
      Option.map_map]
    rfl
  -- A port of another cell keeps it, and absorbing leaves the value of the survivor
  next hother =>
    cases hport : graph.portCell? port with
    | none => rfl
    | some cell =>
      have hcell : cell ≠ absorbed := fun hsame => hother (hport.trans (congrArg some hsame))
      simp only [Option.bind_some, cell?_merge hold hne, hcell, if_false]
      split
      · rw [Option.map_map]
        rfl
      · rfl

/-! ## Writing ports -/

theorem writeInlet_eq {graph : Graph} {inlet : InletId} {cell : CellId}
    (hcell : graph.inletCell? inlet = some cell) (value : Value) :
    graph.writeInlet inlet value = graph.writeCells (graph.reached cell) value := by
  unfold writeInlet ensureInletCell
  rw [hcell]
  rfl

theorem writeOwnOutlet_eq {graph : Graph} {outlet : OutletId} {cell : CellId}
    (h : graph.outletCell? outlet = some cell) (value : Value) :
    graph.writeOwnOutlet outlet value = graph.writeCells (graph.reached cell) value := by
  unfold writeOwnOutlet ensureOutletCell
  rw [h]
  rfl

theorem writeCells_append (graph : Graph) (cells more : List CellId) (value : Value) :
    graph.writeCells (cells ++ more) value = (graph.writeCells cells value).writeCells more value :=
  List.foldl_append

/-- The cells that writing one outlet reaches, if the outlet has a cell. -/
def ownOutward (graph : Graph) (outlet : OutletId) : List CellId :=
  ((graph.outletCell? outlet).map graph.reached).getD []

theorem ownOutward_writeCells (cells : List CellId) (graph : Graph) (value : Value) :
    (graph.writeCells cells value).ownOutward = graph.ownOutward := by
  funext outlet
  unfold ownOutward outletCell? outlet?
  rw [outlets_writeCells, reached_writeCells]

/-- Writing outlets that all have cells is writing every cell reached from one of theirs. -/
theorem foldl_writeOwnOutlet_eq (value : Value) : ∀ (outlets : List OutletId) {graph : Graph},
    (∀ outlet ∈ outlets, ∃ cell, graph.outletCell? outlet = some cell) →
    outlets.foldl (fun g reached => g.writeOwnOutlet reached value) graph =
      graph.writeCells (outlets.flatMap graph.ownOutward) value
  | [], _, _ => rfl
  | first :: rest, graph, h => by
    obtain ⟨cell, hcell⟩ := h first List.mem_cons_self
    -- Writing from the first output takes no output its cell
    have hlater : ∀ outlet ∈ rest, ∃ other,
        (graph.writeCells (graph.reached cell) value).outletCell? outlet = some other := by
      intro outlet houtlet
      unfold outletCell? outlet?
      rw [outlets_writeCells]
      exact h outlet (List.mem_cons_of_mem first houtlet)
    have hown : graph.ownOutward first = graph.reached cell := by
      unfold ownOutward
      rw [hcell]
      rfl
    rw [List.foldl_cons, writeOwnOutlet_eq hcell, foldl_writeOwnOutlet_eq value rest hlater,
      ownOutward_writeCells, List.flatMap_cons, writeCells_append, hown]

/-- An outlet and the outlets to which it is relayed. -/
def relayChain (graph : Graph) (outlet : OutletId) : List OutletId :=
  outlet :: graph.relays graph.outlets.size outlet

section

variable {graph graph' : Graph}

theorem map_bare_outlet?_of_eq (h : graph'.bare.outlets = graph.bare.outlets) (outlet : OutletId) :
    (graph'.outlet? outlet).map Outlet.bare = (graph.outlet? outlet).map Outlet.bare := by
  have houtlets : graph'.outlets.map Outlet.bare = graph.outlets.map Outlet.bare := h
  unfold outlet?
  rw [← Array.getElem?_map, ← Array.getElem?_map, houtlets]

theorem outletWired_of_eq (h : graph'.bare.outlets = graph.bare.outlets) :
    graph'.outletWired = graph.outletWired := by
  funext outlet
  have hwired : ∀ record : Option Outlet, record.any Outlet.wired =
      (record.map Outlet.bare).any Outlet.wired := by
    intro record
    cases record <;> rfl
  unfold outletWired
  rw [hwired, map_bare_outlet?_of_eq h, ← hwired]

/-- Where an outlet is relayed does not depend on cells. -/
theorem relays_of_eq (h : graph'.bare.outlets = graph.bare.outlets) (bound : Nat)
    (outlet : OutletId) : graph'.relays bound outlet = graph.relays bound outlet := by
  have hrelay : ∀ record : Option Outlet, record.bind Outlet.relay =
      (record.map Outlet.bare).bind Outlet.relay := by
    intro record
    cases record <;> rfl
  induction bound generalizing outlet with
  | zero => rfl
  | succ bound ih =>
    unfold relays
    rw [hrelay, map_bare_outlet?_of_eq h, ← hrelay, outletWired_of_eq h]
    simp only [ih]

theorem relayChain_of_eq (h : graph'.bare.outlets = graph.bare.outlets) :
    graph'.relayChain = graph.relayChain := by
  have hsize := congrArg Array.size h
  simp only [bare, Array.size_map] at hsize
  funext outlet
  unfold relayChain
  rw [hsize, relays_of_eq h]

end

/-- The cells that writing an outlet reaches, if the outlets to which it is relayed have cells. -/
def outward (graph : Graph) (outlet : OutletId) : List CellId :=
  (graph.relayChain outlet).flatMap graph.ownOutward

theorem writeOutlet_eq {graph : Graph} {outlet : OutletId}
    (h : ∀ outer ∈ graph.relayChain outlet, ∃ cell, graph.outletCell? outer = some cell)
    (value : Value) :
    graph.writeOutlet outlet value = graph.writeCells (graph.outward outlet) value :=
  foldl_writeOwnOutlet_eq value _ h

/-- What ports show after an outlet has been written. -/
theorem shows_writeOutlet {graph : Graph} (hlinked : graph.Linked) {outlet : OutletId}
    (h : ∀ outer ∈ graph.relayChain outlet, ∃ cell, graph.outletCell? outer = some cell)
    (value : Value) (port : Port) : (graph.writeOutlet outlet value).shows port =
      if graph.touches (graph.outward outlet) port then value else graph.shows port := by
  rw [writeOutlet_eq h, shows_writeCells hlinked]

end TokenNet.Graph
