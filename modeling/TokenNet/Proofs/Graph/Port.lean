import Mathlib.Data.List.Nodup
import TokenNet.Graph.Flow
import TokenNet.Proofs.Store.Keys

/-!
# Data ports

Inlets and outlets share cells in the same way, so statements about cells are made about *ports*
of either kind.  A graph is seen through two functions here: `portCell?` says which cell a port
shares, and `cell?` says what is behind a cell.  Every change of the data layer has one equation
for each of the two.

## Main statements

- `Cell.mem_members_*`: who shares a cell after each change of its record.
- `portCell?_attach`, `cell?_attach`: a port begins to share a cell.
- `portCell?_detach`: a port ceases to share a cell.
-/

namespace TokenNet

/-- A data port of either kind. -/
inductive Port where
  | inlet (id : InletId)
  | outlet (id : OutletId)
deriving DecidableEq, Repr, Inhabited

/-! ## The ports that share a cell -/

namespace Cell

/-- The ports that share a cell. -/
def members (cell : Cell) : List Port :=
  cell.readers.map Port.inlet ++ cell.writers.map Port.outlet

/-- Adds a port to those that share a cell. -/
def join (cell : Cell) : Port → Cell
  | .inlet inlet => cell.addReader inlet
  | .outlet outlet => cell.addWriter outlet

/-- Drops a port from those that share a cell. -/
def leave (cell : Cell) : Port → Cell
  | .inlet inlet => cell.dropReader inlet
  | .outlet outlet => cell.dropWriter outlet

theorem mem_joined {α : Type} [DecidableEq α] {members : List α} {newcomer a : α} :
    a ∈ joined members newcomer ↔ a ∈ members ∨ a = newcomer := by
  unfold joined
  split
  -- Whoever is a member is not joined a second time
  next hmem =>
    constructor
    · exact Or.inl
    · rintro (ha | rfl)
      · exact ha
      · exact hmem
  next => simp

theorem nodup_joined {α : Type} [DecidableEq α] {members : List α} (h : members.Nodup)
    (newcomer : α) : (joined members newcomer).Nodup := by
  unfold joined
  split
  next => exact h
  next hnew => exact List.nodup_append.mpr ⟨h, List.nodup_singleton _, by grind⟩

theorem mem_foldl_joined {α : Type} [DecidableEq α] {members newcomers : List α} {a : α} :
    a ∈ newcomers.foldl joined members ↔ a ∈ members ∨ a ∈ newcomers := by
  induction newcomers generalizing members with
  | nil => simp
  | cons newcomer rest ih => rw [List.foldl_cons, ih, mem_joined, List.mem_cons, or_assoc]

theorem nodup_foldl_joined {α : Type} [DecidableEq α] {members : List α} (h : members.Nodup)
    (newcomers : List α) : (newcomers.foldl joined members).Nodup := by
  induction newcomers generalizing members with
  | nil => exact h
  | cons newcomer rest ih => exact ih (nodup_joined h newcomer)

@[simp] theorem inlet_mem_members {cell : Cell} {inlet : InletId} :
    Port.inlet inlet ∈ cell.members ↔ inlet ∈ cell.readers := by
  simp [members]

@[simp] theorem outlet_mem_members {cell : Cell} {outlet : OutletId} :
    Port.outlet outlet ∈ cell.members ↔ outlet ∈ cell.writers := by
  simp [members]

/-- No port is listed twice if no reader and no writer is. -/
theorem nodup_members {cell : Cell} :
    cell.members.Nodup ↔ cell.readers.Nodup ∧ cell.writers.Nodup := by
  unfold members
  -- A reader is never a writer, so the two lists have nothing in common
  rw [List.nodup_append, List.nodup_map_iff (fun a b h => Port.inlet.inj h),
    List.nodup_map_iff (fun a b h => Port.outlet.inj h)]
  simp

theorem mem_members_join {cell : Cell} {newcomer port : Port} :
    port ∈ (cell.join newcomer).members ↔ port ∈ cell.members ∨ port = newcomer := by
  cases newcomer <;> cases port <;> simp [join, addReader, addWriter, mem_joined]

theorem nodup_members_join {cell : Cell} (h : cell.members.Nodup) (newcomer : Port) :
    (cell.join newcomer).members.Nodup := by
  rw [nodup_members] at h ⊢
  cases newcomer with
  | inlet inlet => exact ⟨nodup_joined h.1 inlet, h.2⟩
  | outlet outlet => exact ⟨h.1, nodup_joined h.2 outlet⟩

theorem mem_members_leave {cell : Cell} {leaver port : Port} :
    port ∈ (cell.leave leaver).members ↔ port ∈ cell.members ∧ port ≠ leaver := by
  cases leaver <;> cases port <;> simp [leave, dropReader, dropWriter]

theorem nodup_members_leave {cell : Cell} (h : cell.members.Nodup) (leaver : Port) :
    (cell.leave leaver).members.Nodup := by
  rw [nodup_members] at h ⊢
  cases leaver with
  | inlet inlet => exact ⟨h.1.filter _, h.2⟩
  | outlet outlet => exact ⟨h.1, h.2.filter _⟩

theorem mem_members_absorb {cell other : Cell} {port : Port} :
    port ∈ (cell.absorb other).members ↔ port ∈ cell.members ∨ port ∈ other.members := by
  cases port <;> simp [absorb, mem_foldl_joined]

theorem nodup_members_absorb {cell : Cell} (h : cell.members.Nodup) (other : Cell) :
    (cell.absorb other).members.Nodup := by
  rw [nodup_members] at h ⊢
  exact ⟨nodup_foldl_joined h.1 other.readers, nodup_foldl_joined h.2 other.writers⟩

/-- A cell is an orphan exactly when no port shares it. -/
theorem isOrphan_iff {cell : Cell} : cell.isOrphan = true ↔ cell.members = [] := by
  simp [isOrphan, members]

@[simp] theorem value_join (cell : Cell) (port : Port) : (cell.join port).value = cell.value := by
  cases port <;> rfl

@[simp] theorem value_leave (cell : Cell) (port : Port) : (cell.leave port).value = cell.value := by
  cases port <;> rfl

end Cell

/-! ## Views of a graph -/

namespace Graph

/-- Whether a graph has a port. -/
def HasPort (graph : Graph) : Port → Prop
  | .inlet inlet => inlet.index < graph.inlets.size
  | .outlet outlet => outlet.index < graph.outlets.size

instance (graph : Graph) (port : Port) : Decidable (graph.HasPort port) := by
  cases port <;> unfold HasPort <;> infer_instance

/-- The cell that a port shares. -/
def portCell? (graph : Graph) : Port → Option CellId
  | .inlet inlet => graph.inletCell? inlet
  | .outlet outlet => graph.outletCell? outlet

/-- The value that a port shows, if it has a cell. -/
def portValue? (graph : Graph) (port : Port) : Option Value :=
  (graph.portCell? port).bind graph.cellValue?

/-- Lets a port share a cell. -/
def attach (graph : Graph) : Port → CellId → Graph
  | .inlet inlet, cell => graph.attachReader inlet cell
  | .outlet outlet, cell => graph.attachWriter outlet cell

/-- Takes a port out of its class. -/
def detach (graph : Graph) : Port → Graph
  | .inlet inlet => graph.disconnectInlet inlet
  | .outlet outlet => graph.disconnectOutlet outlet

theorem hasPort_of_portCell? {graph : Graph} {port : Port} {cell : CellId}
    (h : graph.portCell? port = some cell) : graph.HasPort port := by
  cases port with
  | inlet inlet =>
    obtain ⟨record, hrecord, _⟩ := Option.bind_eq_some_iff.mp h
    exact (Array.getElem?_eq_some_iff.mp hrecord).1
  | outlet outlet =>
    obtain ⟨record, hrecord, _⟩ := Option.bind_eq_some_iff.mp h
    exact (Array.getElem?_eq_some_iff.mp hrecord).1

/-! ## Look-up of records -/

theorem inlet?_modifyInlet (graph : Graph) (changed : InletId) (change : Inlet → Inlet)
    (inlet : InletId) : (graph.modifyInlet changed change).inlet? inlet =
      if inlet = changed then (graph.inlet? inlet).map change else graph.inlet? inlet := by
  obtain ⟨i⟩ := inlet
  obtain ⟨j⟩ := changed
  by_cases hij : j = i
  · simp [inlet?, modifyInlet, Array.getElem?_modify, hij]
  · simp [inlet?, modifyInlet, Array.getElem?_modify, hij, Ne.symm hij]

theorem outlet?_modifyOutlet (graph : Graph) (changed : OutletId) (change : Outlet → Outlet)
    (outlet : OutletId) : (graph.modifyOutlet changed change).outlet? outlet =
      if outlet = changed then (graph.outlet? outlet).map change else graph.outlet? outlet := by
  obtain ⟨i⟩ := outlet
  obtain ⟨j⟩ := changed
  by_cases hij : j = i
  · simp [outlet?, modifyOutlet, Array.getElem?_modify, hij]
  · simp [outlet?, modifyOutlet, Array.getElem?_modify, hij, Ne.symm hij]

theorem inlet?_isSome {graph : Graph} {inlet : InletId} :
    (graph.inlet? inlet).isSome ↔ graph.HasPort (.inlet inlet) := by
  simp [inlet?, HasPort]

theorem outlet?_isSome {graph : Graph} {outlet : OutletId} :
    (graph.outlet? outlet).isSome ↔ graph.HasPort (.outlet outlet) := by
  simp [outlet?, HasPort]

/-! ## Ports and cells after a change -/

theorem cell?_modifyCell (graph : Graph) (changed : CellId) (change : Cell → Cell)
    (cell : CellId) : (graph.modifyCell changed change).cell? cell =
      if cell = changed then (graph.cell? cell).map change else graph.cell? cell :=
  Store.get?_modify graph.cells changed change cell

@[simp] theorem portCell?_modifyCell (graph : Graph) (changed : CellId) (change : Cell → Cell)
    (port : Port) : (graph.modifyCell changed change).portCell? port = graph.portCell? port := by
  cases port <;> rfl

@[simp] theorem portCell?_addCell (graph : Graph) (value : Value) (port : Port) :
    (graph.addCell value).2.portCell? port = graph.portCell? port := by
  cases port <;> rfl

theorem cell?_addCell {graph : Graph} (h : graph.cells.Sound) (value : Value) (cell : CellId) :
    (graph.addCell value).2.cell? cell =
      if cell = (graph.addCell value).1 then some { value } else graph.cell? cell :=
  Store.get?_insert h _ cell

theorem cell?_addCell_fst {graph : Graph} (h : graph.cells.Sound) (value : Value) :
    graph.cell? (graph.addCell value).1 = none :=
  Store.get?_insert_fst h _

/-- A change of an inlet that keeps its cell changes no port. -/
theorem portCell?_modifyInlet_of_cell_eq (graph : Graph) (changed : InletId)
    {change : Inlet → Inlet} (hchange : ∀ record, (change record).cell = record.cell)
    (port : Port) : (graph.modifyInlet changed change).portCell? port = graph.portCell? port := by
  cases port with
  | outlet outlet => rfl
  | inlet inlet =>
    -- Only the changed input is of interest
    simp only [portCell?, inletCell?, inlet?_modifyInlet]
    split
    · cases graph.inlet? inlet <;> simp [hchange]
    · rfl

/-- A change of an outlet that keeps its cell changes no port. -/
theorem portCell?_modifyOutlet_of_cell_eq (graph : Graph) (changed : OutletId)
    {change : Outlet → Outlet} (hchange : ∀ record, (change record).cell = record.cell)
    (port : Port) : (graph.modifyOutlet changed change).portCell? port = graph.portCell? port := by
  cases port with
  | inlet inlet => rfl
  | outlet outlet =>
    simp only [portCell?, outletCell?, outlet?_modifyOutlet]
    split
    · cases graph.outlet? outlet <;> simp [hchange]
    · rfl

/-- Setting the cell of a port. -/
def assign (graph : Graph) (port : Port) (cell : Option CellId) : Graph :=
  match port with
  | .inlet inlet => graph.modifyInlet inlet fun record => { record with cell }
  | .outlet outlet => graph.modifyOutlet outlet fun record => { record with cell }

theorem portCell?_assign {graph : Graph} {changed : Port} (h : graph.HasPort changed)
    (cell : Option CellId) (port : Port) : (graph.assign changed cell).portCell? port =
      if port = changed then cell else graph.portCell? port := by
  cases changed with
  | inlet changed =>
    cases port with
    -- Inlets and outlets are counted apart: a port of the other kind is not concerned.
    | outlet outlet => rfl
    | inlet inlet =>
      obtain ⟨record, hrecord⟩ := Option.isSome_iff_exists.mp (inlet?_isSome.mpr h)
      simp only [portCell?, inletCell?, assign, inlet?_modifyInlet, Port.inlet.injEq]
      split
      next heq => simp [heq, hrecord]
      next => rfl
  | outlet changed =>
    cases port with
    | inlet inlet => rfl
    | outlet outlet =>
      obtain ⟨record, hrecord⟩ := Option.isSome_iff_exists.mp (outlet?_isSome.mpr h)
      simp only [portCell?, outletCell?, assign, outlet?_modifyOutlet, Port.outlet.injEq]
      split
      next heq => simp [heq, hrecord]
      next => rfl

@[simp] theorem cells_assign (graph : Graph) (port : Port) (cell : Option CellId) :
    (graph.assign port cell).cells = graph.cells := by
  cases port <;> rfl

@[simp] theorem cell?_assign (graph : Graph) (port : Port) (cell : Option CellId)
    (other : CellId) : (graph.assign port cell).cell? other = graph.cell? other := by
  cases port <;> rfl

@[simp] theorem hasPort_assign (graph : Graph) (changed : Port) (cell : Option CellId)
    (port : Port) : (graph.assign changed cell).HasPort port ↔ graph.HasPort port := by
  cases changed <;> cases port <;> simp [assign, HasPort, modifyInlet, modifyOutlet]

theorem attach_eq (graph : Graph) (port : Port) (cell : CellId) :
    graph.attach port cell = (graph.modifyCell cell fun c => c.join port).assign port (some cell) := by
  cases port <;> rfl

/-- A port that begins to share a cell shares that cell; all others stay where they are. -/
theorem portCell?_attach {graph : Graph} {changed : Port} (h : graph.HasPort changed)
    (cell : CellId) (port : Port) : (graph.attach changed cell).portCell? port =
      if port = changed then some cell else graph.portCell? port := by
  have h' : (graph.modifyCell cell fun c => c.join changed).HasPort changed := by
    cases changed <;> exact h
  rw [attach_eq, portCell?_assign h', portCell?_modifyCell]

/-- The cell that a port begins to share takes it up; all others stay as they are. -/
theorem cell?_attach (graph : Graph) (port : Port) (cell other : CellId) :
    (graph.attach port cell).cell? other =
      if other = cell then (graph.cell? other).map fun c => c.join port
      else graph.cell? other := by
  rw [attach_eq, cell?_assign, cell?_modifyCell]

theorem sound_attach {graph : Graph} (h : graph.cells.Sound) (port : Port) (cell : CellId) :
    (graph.attach port cell).cells.Sound := by
  rw [attach_eq, cells_assign]
  exact h.modify _ _

end Graph

end TokenNet
