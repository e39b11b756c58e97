import Mathlib.Data.Finset.Basic
import Mathlib.Data.Finset.Dedup
import Mathlib.Data.Finset.Insert
import Mathlib.Data.Finset.Lattice.Basic
import TokenNet.Proofs.Graph.Closed

/-!
# Cells as a partition

What cells are for can be said without cells.  A *partition* puts data ports into classes, each with
one value; a port may be in no class.  An inlet and an outlet are joined by uniting their classes,
and a port leaves its class without a trace.

A linked graph is such a partition, and wiring the graph is joining and leaving in the partition.
Keys, slots and their reuse, the direction in which cells are merged, and the order of readers and
writers are no longer visible.

## Main statements

- `Partition.join`, `Partition.leave`: the two actions on partitions, with the proof that classes stay
  disjoint.
- `Graph.Linked.partition`, `Graph.Represents`: the partition of a linked graph.
- `Graph.Represents.connect`, `Graph.Represents.detach`: wiring refines the actions.
-/

namespace TokenNet

/-- Data ports that share a value. -/
@[ext] structure Partition.Class where
  ports : Finset Port
  value : Value
deriving DecidableEq

/-- Data ports in disjoint classes, and the ports that are marked as wired.  A port finds the class
that it is in; all ports of a class find the same one. -/
@[ext] structure Partition where
  class? : Port → Option Partition.Class
  wired : Port → Bool
  mem_ports : ∀ {port found}, class? port = some found → port ∈ found.ports
  class?_of_mem : ∀ {port other found}, class? port = some found → other ∈ found.ports →
    class? other = some found

namespace Partition

/-! ## Joining and leaving -/

/-- The ports in the class of a port, and the port itself if it is in no class. -/
def mates (partition : Partition) (port : Port) : Finset Port :=
  insert port ((partition.class? port).elim ∅ Class.ports)

theorem class?_of_mem_mates {partition : Partition} {port other : Port}
    (h : other ∈ partition.mates port) : partition.class? other = partition.class? port := by
  rcases Finset.mem_insert.mp h with rfl | hmem
  · rfl
  · cases hclass : partition.class? port with
    | none => simp [hclass] at hmem
    | some found =>
      rw [hclass] at hmem
      exact partition.class?_of_mem hclass hmem

theorem mem_mates_of_class? {partition : Partition} {port other : Port} {found : Class}
    (h : partition.class? port = some found) (hother : other ∈ found.ports) :
    other ∈ partition.mates port := by
  unfold mates
  rw [h]
  exact Finset.mem_insert_of_mem hother

/-- The class of an inlet and an outlet that are joined.  Its value is that of the outlet; without
one it is that of the inlet, and without that it is zero. -/
def union (partition : Partition) (inlet : InletId) (outlet : OutletId) : Class where
  ports := partition.mates (.inlet inlet) ∪ partition.mates (.outlet outlet)
  value := ((partition.class? (.outlet outlet)).or (partition.class? (.inlet inlet))).elim 0
    Class.value

/-- An inlet and an outlet are put into one class, and the inlet is marked as wired. -/
def join (partition : Partition) (inlet : InletId) (outlet : OutletId) : Partition where
  class? port :=
    if port ∈ (partition.union inlet outlet).ports then some (partition.union inlet outlet)
    else partition.class? port
  wired port := if port = .inlet inlet then true else partition.wired port
  mem_ports := by
    intro port found h
    split at h
    next hmem => exact Option.some.inj h ▸ hmem
    next => exact partition.mem_ports h
  class?_of_mem := by
    intro port other found h hother
    split at h
    next hmem =>
      obtain rfl := Option.some.inj h
      rw [if_pos hother]
    next hmem =>
      -- A class that was not united has no port in common with the two that were
      have hout : other ∉ (partition.union inlet outlet).ports := by
        intro hunited
        have hclass := partition.class?_of_mem h hother
        have hport := partition.mem_ports h
        refine hmem (Finset.mem_union.mpr ?_)
        rcases Finset.mem_union.mp hunited with hin | hin
        · rw [class?_of_mem_mates hin] at hclass
          exact Or.inl (mem_mates_of_class? hclass hport)
        · rw [class?_of_mem_mates hin] at hclass
          exact Or.inr (mem_mates_of_class? hclass hport)
      rw [if_neg hout]
      exact partition.class?_of_mem h hother

/-- A port is taken out of its class.  A class that has lost its last port is found by no port any
more. -/
def leave (partition : Partition) (leaver : Port) : Partition where
  class? port :=
    if port = leaver then none
    else (partition.class? port).map fun found => { found with ports := found.ports.erase leaver }
  wired := partition.wired
  mem_ports := by
    intro port found h
    split at h
    next => simp at h
    next hport =>
      obtain ⟨old, hold, rfl⟩ := Option.map_eq_some_iff.mp h
      exact Finset.mem_erase.mpr ⟨hport, partition.mem_ports hold⟩
  class?_of_mem := by
    intro port other found h hother
    split at h
    next => simp at h
    next =>
      obtain ⟨old, hold, rfl⟩ := Option.map_eq_some_iff.mp h
      obtain ⟨hne, hmem⟩ := Finset.mem_erase.mp hother
      rw [if_neg hne, partition.class?_of_mem hold hmem, Option.map_some]

/-- A change of a partition. -/
inductive Action where
  | join (inlet : InletId) (outlet : OutletId)
  | leave (port : Port)
deriving DecidableEq

/-- Carries an action out. -/
def act (partition : Partition) : Action → Partition
  | .join inlet outlet => partition.join inlet outlet
  | .leave port => partition.leave port

end Partition

/-! ## The partition of a graph -/

/-- The class that a cell stands for. -/
def Cell.toClass (cell : Cell) : Partition.Class :=
  ⟨cell.members.toFinset, cell.value⟩

namespace Graph

/-- The class of a port. -/
def class? (graph : Graph) (port : Port) : Option Partition.Class :=
  (graph.portCell? port).bind fun cell => (graph.cell? cell).map Cell.toClass

/-- Whether a port was ever wired. -/
def portWired (graph : Graph) : Port → Bool
  | .inlet inlet => graph.inletWired inlet
  | .outlet outlet => graph.outletWired outlet

theorem class?_of_cell {graph : Graph} {port : Port} {cell : CellId} {record : Cell}
    (hport : graph.portCell? port = some cell) (hcell : graph.cell? cell = some record) :
    graph.class? port = some record.toClass := by
  unfold class?
  rw [hport, Option.bind_some, hcell, Option.map_some]

theorem class?_of_none {graph : Graph} {port : Port} (hport : graph.portCell? port = none) :
    graph.class? port = none := by
  unfold class?
  rw [hport, Option.bind_none]

theorem class?_congr {graph graph' : Graph} {port : Port}
    (hport : graph'.portCell? port = graph.portCell? port)
    (hcell : ∀ cell, graph.portCell? port = some cell → graph'.cell? cell = graph.cell? cell) :
    graph'.class? port = graph.class? port := by
  cases hfound : graph.portCell? port with
  | none => rw [class?_of_none hfound, class?_of_none (hport.trans hfound)]
  | some cell =>
    unfold class?
    rw [hport, hfound, Option.bind_some, Option.bind_some, hcell cell hfound]

namespace Linked

variable {graph : Graph}

/-- A port of a class names a cell that stands for the class. -/
theorem exists_cell_of_class? {port : Port} {found : Partition.Class}
    (hclass : graph.class? port = some found) : ∃ cell record,
      graph.portCell? port = some cell ∧ graph.cell? cell = some record ∧
        record.toClass = found := by
  obtain ⟨cell, hport, hclass⟩ := Option.bind_eq_some_iff.mp hclass
  obtain ⟨record, hcell, hfound⟩ := Option.map_eq_some_iff.mp hclass
  exact ⟨cell, record, hport, hcell, hfound⟩

theorem mem_ports_toClass (h : graph.Linked) {cell : CellId} {record : Cell}
    (hcell : graph.cell? cell = some record) {port : Port} :
    port ∈ record.toClass.ports ↔ graph.portCell? port = some cell := by
  unfold Cell.toClass
  rw [List.mem_toFinset]
  exact h.mem_members hcell port

/-- The partition of a linked graph. -/
def partition (h : graph.Linked) : Partition where
  class? := graph.class?
  wired := graph.portWired
  mem_ports := by
    intro port found hclass
    obtain ⟨cell, record, hport, hcell, rfl⟩ := exists_cell_of_class? hclass
    exact (h.mem_ports_toClass hcell).mpr hport
  class?_of_mem := by
    intro port other found hclass hother
    obtain ⟨cell, record, hport, hcell, rfl⟩ := exists_cell_of_class? hclass
    exact class?_of_cell ((h.mem_ports_toClass hcell).mp hother) hcell

/-! ## Wiring refines joining -/

/-- A port without a cell is its own mate. -/
theorem mates_of_none (h : graph.Linked) {port : Port} (hport : graph.portCell? port = none) :
    h.partition.mates port = {port} := by
  have hclass : h.partition.class? port = none := class?_of_none hport
  simp [Partition.mates, hclass]

/-- The mates of a port are the ports that share its cell. -/
theorem mates_of_cell (h : graph.Linked) {port : Port} {cell : CellId} {record : Cell}
    (hport : graph.portCell? port = some cell) (hcell : graph.cell? cell = some record) :
    h.partition.mates port = record.toClass.ports := by
  have hclass : h.partition.class? port = some record.toClass := class?_of_cell hport hcell
  simp only [Partition.mates, hclass, Option.elim_some]
  exact Finset.insert_eq_of_mem ((h.mem_ports_toClass hcell).mpr hport)

/-- What it takes to carry a join out: the ports of the two classes come to share one cell, and all
other ports stay where they are. -/
theorem class?_eq_join (h : graph.Linked) {graph' : Graph} {inlet : InletId} {outlet : OutletId}
    {cell : CellId} {record : Cell} (hcell : graph'.cell? cell = some record)
    (hunion : record.toClass = h.partition.union inlet outlet)
    (hin : ∀ port, port ∈ record.toClass.ports → graph'.portCell? port = some cell)
    (hout : ∀ port, port ∉ record.toClass.ports → graph'.class? port = graph.class? port)
    (port : Port) : graph'.class? port = (h.partition.join inlet outlet).class? port := by
  change _ = if port ∈ (h.partition.union inlet outlet).ports then _ else graph.class? port
  rw [← hunion]
  split
  next hmem => exact class?_of_cell (hin port hmem) hcell
  next hmem => exact hout port hmem

theorem toClass_join (record : Cell) (port : Port) :
    (record.join port).toClass = ⟨insert port record.toClass.ports, record.value⟩ := by
  unfold Cell.toClass
  rw [Cell.value_join]
  congr 1
  ext other
  simp [Cell.mem_members_join, or_comm]

theorem toClass_absorb (record other : Cell) :
    (record.absorb other).toClass =
      ⟨record.toClass.ports ∪ other.toClass.ports, record.value⟩ := by
  unfold Cell.toClass
  congr 1
  ext port
  simp [Cell.mem_members_absorb]

/-- The partition after two different cells have been merged. -/
theorem class?_merge (h : graph.Linked) {inlet : InletId} {outlet : OutletId} {a b : CellId}
    (ha : graph.portCell? (.inlet inlet) = some a) (hb : graph.portCell? (.outlet outlet) = some b)
    (hne : a ≠ b) (port : Port) :
    (graph.merge a b).class? port = (h.partition.join inlet outlet).class? port := by
  obtain ⟨old, hold⟩ := h.live ha
  obtain ⟨kept, hkept⟩ := h.live hb
  have hcell : (graph.merge a b).cell? b = some (kept.absorb old) := by
    rw [cell?_merge hold hne, if_neg hne.symm, if_pos rfl, hkept, Option.map_some]
  have hclass : h.partition.class? (.outlet outlet) = some kept.toClass := class?_of_cell hb hkept
  -- The class that is left has the ports of both cells
  have hmem : ∀ other, other ∈ (kept.absorb old).toClass.ports ↔
      graph.portCell? other = some b ∨ graph.portCell? other = some a := by
    intro other
    rw [toClass_absorb, Finset.mem_union, h.mem_ports_toClass hkept, h.mem_ports_toClass hold]
  refine h.class?_eq_join hcell ?_ (fun other hother => ?_) (fun other hother => ?_) port
  · rw [toClass_absorb, Partition.union, h.mates_of_cell ha hold, h.mates_of_cell hb hkept, hclass,
      Finset.union_comm]
    rfl
  · rw [h.portCell?_merge hold]
    rcases (hmem other).mp hother with hsame | hsame
    · rw [if_neg (by simpa [hsame] using hne.symm), hsame]
    · rw [if_pos hsame]
  · have hnot := (hmem other).not.mp hother
    rw [not_or] at hnot
    refine class?_congr ?_ fun cell hfound => ?_
    · rw [h.portCell?_merge hold, if_neg hnot.2]
    · rw [cell?_merge hold hne, if_neg, if_neg]
      · rintro rfl
        exact hnot.1 hfound
      · rintro rfl
        exact hnot.2 hfound

/-- The partition after a loose port has joined a cell. -/
theorem class?_attach (h : graph.Linked) {inlet : InletId} {outlet : OutletId} {newcomer : Port}
    {cell : CellId} {record : Cell} (hport : graph.HasPort newcomer)
    (hcell : graph.cell? cell = some record)
    (hunion : (record.join newcomer).toClass = h.partition.union inlet outlet) (port : Port) :
    (graph.attach newcomer cell).class? port = (h.partition.join inlet outlet).class? port := by
  have hcell' : (graph.attach newcomer cell).cell? cell = some (record.join newcomer) := by
    rw [cell?_attach, if_pos rfl, hcell, Option.map_some]
  have hmem : ∀ other, other ∈ (record.join newcomer).toClass.ports ↔
      other = newcomer ∨ graph.portCell? other = some cell := by
    intro other
    rw [toClass_join, Finset.mem_insert, h.mem_ports_toClass hcell]
  -- Ports of the union name the cell now, all others keep their class
  refine h.class?_eq_join hcell' hunion (fun other hother => ?_) (fun other hother => ?_) port
  · rw [portCell?_attach hport]
    rcases (hmem other).mp hother with hsame | hsame
    · rw [if_pos hsame]
    · split
      · rfl
      · exact hsame
  · have hnot := (hmem other).not.mp hother
    rw [not_or] at hnot
    refine class?_congr ?_ fun found hfound => ?_
    · rw [portCell?_attach hport, if_neg hnot.1]
    · rw [cell?_attach, if_neg]
      rintro rfl
      exact hnot.2 hfound

/-- The partition after two loose ports have got a cell in common. -/
theorem class?_attach_addCell (h : graph.Linked) {inlet : InletId} {outlet : OutletId}
    (hinlet : graph.HasPort (.inlet inlet)) (houtlet : graph.HasPort (.outlet outlet))
    (ha : graph.portCell? (.inlet inlet) = none) (hb : graph.portCell? (.outlet outlet) = none)
    (port : Port) :
    (((graph.addCell 0).2.attach (.inlet inlet) (graph.addCell 0).1).attach (.outlet outlet)
      (graph.addCell 0).1).class? port = (h.partition.join inlet outlet).class? port := by
  let cell := (graph.addCell 0).1
  let record : Cell := (({ value := 0 } : Cell).join (.inlet inlet)).join (.outlet outlet)
  have hinlet' : (graph.addCell 0).2.HasPort (.inlet inlet) := hinlet
  have houtlet' : ((graph.addCell 0).2.attach (.inlet inlet) cell).HasPort (.outlet outlet) := by
    rw [attach_eq, hasPort_assign]
    exact houtlet
  -- What each port names, and what each key finds, once both have joined
  have hport : ∀ other, (((graph.addCell 0).2.attach (.inlet inlet) cell).attach (.outlet outlet)
      cell).portCell? other = if other = .outlet outlet then some cell
        else if other = .inlet inlet then some cell else graph.portCell? other := by
    intro other
    rw [portCell?_attach houtlet', portCell?_attach hinlet', portCell?_addCell]
  have hcell : ∀ other, (((graph.addCell 0).2.attach (.inlet inlet) cell).attach (.outlet outlet)
      cell).cell? other = if other = cell then some record else graph.cell? other := by
    intro other
    rw [cell?_attach, cell?_attach, cell?_addCell h.sound]
    split <;> rfl
  have hclassIn : h.partition.class? (.inlet inlet) = none := class?_of_none ha
  have hclassOut : h.partition.class? (.outlet outlet) = none := class?_of_none hb
  -- Two loose ports are classes of one each, and their union is the new class
  have hrecord : record.toClass = h.partition.union inlet outlet := by
    rw [toClass_join, toClass_join, Partition.union, h.mates_of_none ha, h.mates_of_none hb,
      hclassIn, hclassOut, Finset.union_comm]
    rfl
  have hmem : ∀ other, other ∈ record.toClass.ports ↔
      other = .outlet outlet ∨ other = .inlet inlet := by
    intro other
    rw [hrecord, Partition.union, h.mates_of_none ha, h.mates_of_none hb, Finset.mem_union,
      Finset.mem_singleton, Finset.mem_singleton, or_comm]
  refine h.class?_eq_join ((hcell cell).trans (if_pos rfl)) hrecord (fun other hother => ?_)
    (fun other hother => ?_) port
  · rw [hport]
    rcases (hmem other).mp hother with rfl | rfl <;> simp
  · have hnot := (hmem other).not.mp hother
    rw [not_or] at hnot
    refine class?_congr ?_ fun found hfound => ?_
    · rw [hport, if_neg hnot.1, if_neg hnot.2]
    · rw [hcell, if_neg]
      rintro rfl
      obtain ⟨_, hlive⟩ := h.live hfound
      rw [cell?_addCell_fst h.sound] at hlive
      cases hlive

/-- Uniting joins, whichever of the two ports has a cell. -/
theorem class?_unite (h : graph.Linked) {inlet : InletId} {outlet : OutletId}
    (hinlet : graph.HasPort (.inlet inlet)) (houtlet : graph.HasPort (.outlet outlet))
    (port : Port) :
    (graph.unite inlet outlet).class? port = (h.partition.join inlet outlet).class? port := by
  unfold Graph.unite
  split
  next a b ha hb =>
    have ha : graph.portCell? (.inlet inlet) = some a := ha
    have hb : graph.portCell? (.outlet outlet) = some b := hb
    split
    next hsame =>
      -- The two ports share a cell already, and uniting them does nothing
      subst hsame
      obtain ⟨record, hcell⟩ := h.live ha
      have hclass : h.partition.class? (.outlet outlet) = some record.toClass :=
        class?_of_cell hb hcell
      refine h.class?_eq_join hcell ?_ (fun other => (h.mem_ports_toClass hcell).mp)
        (fun _ _ => rfl) port
      rw [Partition.union, h.mates_of_cell ha hcell, h.mates_of_cell hb hcell, hclass,
        Finset.union_idempotent]
      rfl
    next hne => exact h.class?_merge ha hb hne port
  next b ha hb =>
    have ha : graph.portCell? (.inlet inlet) = none := ha
    have hb : graph.portCell? (.outlet outlet) = some b := hb
    obtain ⟨record, hcell⟩ := h.live hb
    have hclass : h.partition.class? (.outlet outlet) = some record.toClass :=
      class?_of_cell hb hcell
    refine h.class?_attach hinlet hcell ?_ port
    rw [toClass_join, Partition.union, h.mates_of_none ha, h.mates_of_cell hb hcell, hclass]
    rfl
  next a ha hb =>
    have ha : graph.portCell? (.inlet inlet) = some a := ha
    have hb : graph.portCell? (.outlet outlet) = none := hb
    obtain ⟨record, hcell⟩ := h.live ha
    have hclassIn : h.partition.class? (.inlet inlet) = some record.toClass :=
      class?_of_cell ha hcell
    have hclassOut : h.partition.class? (.outlet outlet) = none := class?_of_none hb
    refine h.class?_attach houtlet hcell ?_ port
    rw [toClass_join, Partition.union, h.mates_of_none hb, h.mates_of_cell ha hcell, hclassIn,
      hclassOut, Finset.union_comm]
    rfl
  next ha hb => exact h.class?_attach_addCell hinlet houtlet ha hb port

end Linked

/-! ## Marks -/

/-- Marks are part of the bare graph. -/
theorem portWired_of_bare_eq {graph graph' : Graph} (h : graph'.bare = graph.bare) (port : Port) :
    graph'.portWired port = graph.portWired port := by
  cases port with
  | inlet inlet =>
    -- But for the cell, the record at each place is the same
    have hinlets : graph'.inlets.map Inlet.bare = graph.inlets.map Inlet.bare :=
      (congrArg Graph.inlets h :)
    have hrecord := congrArg (fun records => records[inlet.index]?) hinlets
    simp only [Array.getElem?_map] at hrecord
    have hwired := congrArg (fun record => record.any Inlet.wired) hrecord
    simpa [portWired, inletWired, inlet?, Inlet.bare, Option.any_map, Function.comp_def] using hwired
  | outlet outlet =>
    have houtlets : graph'.outlets.map Outlet.bare = graph.outlets.map Outlet.bare :=
      (congrArg Graph.outlets h :)
    have hrecord := congrArg (fun records => records[outlet.index]?) houtlets
    simp only [Array.getElem?_map] at hrecord
    have hwired := congrArg (fun record => record.any Outlet.wired) hrecord
    simpa [portWired, outletWired, outlet?, Outlet.bare, Option.any_map, Function.comp_def]
      using hwired

theorem portWired_markInlet {graph : Graph} {inlet : InletId} (h : graph.HasPort (.inlet inlet))
    (port : Port) : (graph.markInlet inlet).portWired port =
      if port = .inlet inlet then true else graph.portWired port := by
  cases port with
  | outlet outlet => rfl
  | inlet other =>
    obtain ⟨record, hrecord⟩ := Option.isSome_iff_exists.mp (inlet?_isSome.mpr h)
    simp only [portWired, inletWired, markInlet, inlet?_modifyInlet, Port.inlet.injEq]
    split
    next hsame => simp [hsame, hrecord]
    next => rfl

theorem class?_markInlet (graph : Graph) (inlet : InletId) (port : Port) :
    (graph.markInlet inlet).class? port = graph.class? port := by
  have hcell : ∀ record : Inlet, { record with wired := true }.cell = record.cell := fun _ => rfl
  exact class?_congr (portCell?_modifyInlet_of_cell_eq graph inlet hcell port) fun _ _ => rfl

/-! ## Wiring refines the actions -/

namespace Linked

variable {graph : Graph}

/-- The class of a port after another has left its class. -/
theorem class?_detach (h : graph.Linked) (leaver port : Port) :
    (graph.detach leaver).class? port = (h.partition.leave leaver).class? port := by
  change _ = if port = leaver then none else (graph.class? port).map fun found =>
    { found with ports := found.ports.erase leaver }
  have hport := portCell?_detach graph leaver port
  split
  -- The leaver has no class left
  next hsame => exact class?_of_none (hport.trans (if_pos hsame))
  next hother =>
    rw [if_neg hother] at hport
    cases hcell : graph.portCell? port with
    | none => rw [class?_of_none (hport.trans hcell), class?_of_none hcell, Option.map_none]
    | some cell =>
      obtain ⟨record, hrecord⟩ := h.live hcell
      rw [class?_of_cell hcell hrecord, Option.map_some]
      by_cases hleft : graph.portCell? leaver = some cell
      · -- The port stays behind in the cell that the leaver leaves
        have hmem : port ∈ (record.leave leaver).members :=
          Cell.mem_members_leave.mpr ⟨(h.mem_members hrecord port).mpr hcell, hother⟩
        have hkept : (graph.detach leaver).cell? cell = some (record.leave leaver) := by
          rw [cell?_detach hleft, if_pos rfl, hrecord, Option.map_some, Option.filter_eq_some_iff]
          refine ⟨rfl, ?_⟩
          rw [Bool.not_eq_true', ← Bool.not_eq_true, Cell.isOrphan_iff]
          exact List.ne_nil_of_mem hmem
        rw [class?_of_cell (hport.trans hcell) hkept]
        congr 1
        unfold Cell.toClass
        rw [Cell.value_leave]
        congr 1
        ext other
        simp [Cell.mem_members_leave, and_comm]
      -- The leaver was in another class or in none
      · have hkept : (graph.detach leaver).cell? cell = some record := by
          cases hgone : graph.portCell? leaver with
          | none => rw [detach_of_none hgone, hrecord]
          | some left =>
            rw [cell?_detach hgone, if_neg, hrecord]
            rintro rfl
            exact hleft hgone
        have hnot : leaver ∉ record.toClass.ports := (h.mem_ports_toClass hrecord).not.mpr hleft
        rw [class?_of_cell (hport.trans hcell) hkept, Finset.erase_eq_of_notMem hnot]

end Linked

/-- A graph represents a partition: the class of every port is the one in the partition, and so is
its mark. -/
structure Represents (graph : Graph) (partition : Partition) : Prop where
  linked : graph.Linked
  class? : ∀ port, graph.class? port = partition.class? port
  wired : ∀ port, graph.portWired port = partition.wired port

theorem Linked.represents {graph : Graph} (h : graph.Linked) : graph.Represents h.partition :=
  ⟨h, fun _ => rfl, fun _ => rfl⟩

namespace Represents

variable {graph : Graph} {partition : Partition}

/-- A graph represents one partition only. -/
theorem eq_partition (h : graph.Represents partition) : partition = h.linked.partition :=
  Partition.ext (funext fun port => (h.class? port).symm) (funext fun port => (h.wired port).symm)

/-- **Wiring an outlet into an inlet is joining them.** -/
theorem connect (h : graph.Represents partition) {inlet : InletId} {outlet : OutletId}
    (hinlet : graph.HasPort (.inlet inlet)) (houtlet : graph.HasPort (.outlet outlet)) :
    (graph.connect inlet outlet).Represents (partition.join inlet outlet) := by
  have hbare := bare_unite graph inlet outlet
  rw [h.eq_partition]
  refine ⟨(h.linked.unite hinlet houtlet).markInlet inlet, fun port => ?_, fun port => ?_⟩
  · rw [Graph.connect, class?_markInlet, h.linked.class?_unite hinlet houtlet]
  · have hport := (Extends.of_bare_eq hbare).hasPort hinlet
    rw [Graph.connect, portWired_markInlet hport, portWired_of_bare_eq hbare]
    rfl

/-- **Detaching a port is leaving.** -/
theorem detach (h : graph.Represents partition) (leaver : Port) :
    (graph.detach leaver).Represents (partition.leave leaver) := by
  rw [h.eq_partition]
  exact ⟨h.linked.detach leaver, h.linked.class?_detach leaver,
    portWired_of_bare_eq (bare_detach graph leaver)⟩

end Represents

/-! ## What a partition says about cells -/

namespace Represents

variable {graph : Graph} {partition : Partition}

/-- Ports share a cell exactly when they are in one class. -/
theorem shares_iff (h : graph.Represents partition) {port other : Port} :
    (∃ cell, graph.portCell? port = some cell ∧ graph.portCell? other = some cell) ↔
      ∃ found, partition.class? port = some found ∧ other ∈ found.ports := by
  rw [← h.class?]
  have h := h.linked
  constructor
  · rintro ⟨cell, hport, hother⟩
    obtain ⟨record, hcell⟩ := h.live hport
    exact ⟨_, class?_of_cell hport hcell, (h.mem_ports_toClass hcell).mpr hother⟩
  · rintro ⟨found, hclass, hother⟩
    obtain ⟨cell, record, hport, hcell, rfl⟩ := Linked.exists_cell_of_class? hclass
    exact ⟨cell, hport, (h.mem_ports_toClass hcell).mp hother⟩

/-- All ports of a class show its value. -/
theorem portValue?_of_class? (h : graph.Represents partition) {port other : Port}
    {found : Partition.Class} (hclass : partition.class? port = some found)
    (hother : other ∈ found.ports) : graph.portValue? other = some found.value := by
  rw [← h.class?] at hclass
  obtain ⟨cell, record, hport, hcell, rfl⟩ := Linked.exists_cell_of_class? hclass
  have hsame := (h.linked.mem_ports_toClass hcell).mp hother
  rw [portValue?, hsame, Option.bind_some, cellValue?, hcell]
  rfl

/-- Every cell in use stands for a class. -/
theorem exists_class_of_cell (h : graph.Represents partition) {cell : CellId} {record : Cell}
    (hcell : graph.cell? cell = some record) :
    ∃ port, partition.class? port = some record.toClass := by
  obtain ⟨port, hport⟩ := List.exists_mem_of_ne_nil _ (h.linked.shared hcell)
  refine ⟨port, ?_⟩
  rw [← h.class?]
  exact class?_of_cell ((h.linked.mem_members hcell port).mp hport) hcell

end Represents

end Graph

end TokenNet
