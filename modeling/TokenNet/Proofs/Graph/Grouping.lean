import TokenNet.Proofs.Flow.Values
import TokenNet.Proofs.Graph.Partition
import TokenNet.Proofs.Graph.Raised

/-!
# What graphs do to their partitions

Besides wiring and unwiring there are three things that happen to the partition of a graph: a port
that is in no class gets one of its own, a port is marked, and a value is written into some classes.
Which classes a write reaches can be said in terms of ports: within a class it goes from any port to
any other, and from an inlet it goes to the inlets that the inlet feeds.

So what a graph does to its partition depends on nothing but the partition and on which inlet feeds
which.

## Main statements

- `Partition.settle`, `Partition.mark`, `Partition.write`: the three actions.
- `Partition.Flows`: where a write goes.
- `Graph.Represents.ensure`, `Graph.Represents.setValue`: giving a port a cell is settling it, and
  writing a cell is writing the classes that the write flows to.
- `Graph.Represents.addNative`, `Graph.Represents.addComposite`: new nodes settle their ports.
-/

namespace TokenNet

namespace Partition

/-! ## Settling, marking and writing -/

/-- A port that is in no class gets one of its own, with the value zero. -/
def settle (partition : Partition) (port : Port) : Partition where
  class? other :=
    if other = port then some ((partition.class? port).getD ⟨{port}, 0⟩)
    else partition.class? other
  wired := partition.wired
  mem_ports := by
    intro other found h
    split at h
    next hsame =>
      obtain rfl := Option.some.inj h
      subst hsame
      cases hclass : partition.class? other with
      | none => simp
      | some old => exact partition.mem_ports hclass
    next => exact partition.mem_ports h
  class?_of_mem := by
    intro other third found h hthird
    cases hclass : partition.class? port with
    | none =>
      rw [hclass] at h
      split at h
      next =>
        obtain rfl := Option.some.inj h
        rw [if_pos (Finset.mem_singleton.mp hthird)]
      next =>
        have hfound := partition.class?_of_mem h hthird
        have hne : third ≠ port := by
          rintro rfl
          rw [hclass] at hfound
          cases hfound
        rw [if_neg hne]
        exact hfound
    | some old =>
      -- A port with a class keeps it
      have hkeeps : ∀ third, (if third = port then some ((some old).getD ⟨{port}, 0⟩)
          else partition.class? third) = partition.class? third := by
        intro third
        split
        next hsame => rw [hsame, hclass, Option.getD_some]
        next => rfl
      rw [hclass, hkeeps] at h
      rw [hkeeps]
      exact partition.class?_of_mem h hthird

/-- A port is marked as wired. -/
def mark (partition : Partition) (port : Port) : Partition where
  class? := partition.class?
  wired other := if other = port then true else partition.wired other
  mem_ports := partition.mem_ports
  class?_of_mem := partition.class?_of_mem

open Classical in
/-- All classes that have a port to which a write comes get a value. -/
noncomputable def write (partition : Partition) (reached : Port → Prop) (value : Value) :
    Partition where
  class? port := (partition.class? port).map fun found =>
    if ∃ other ∈ found.ports, reached other then { found with value } else found
  wired := partition.wired
  mem_ports := by
    intro port found h
    obtain ⟨old, hold, rfl⟩ := Option.map_eq_some_iff.mp h
    have hmem := partition.mem_ports hold
    split <;> exact hmem
  class?_of_mem := by
    intro port other found h hother
    obtain ⟨old, hold, rfl⟩ := Option.map_eq_some_iff.mp h
    have hmem : other ∈ old.ports := by
      split at hother <;> exact hother
    rw [partition.class?_of_mem hold hmem, Option.map_some]

/-- Two ports are in one class. -/
def Shares (partition : Partition) (port other : Port) : Prop :=
  ∃ found, partition.class? port = some found ∧ other ∈ found.ports

/-- Where a write goes: to all ports of a class, and from an inlet to those that it feeds, if they
are in a class. -/
def Flows (partition : Partition) (feeds : InletId → InletId → Prop) : Port → Port → Prop :=
  Relation.ReflTransGen fun port other => partition.Shares port other ∨
    ∃ outer inner, port = .inlet outer ∧ other = .inlet inner ∧ feeds outer inner ∧
      ∃ found, partition.class? other = some found

theorem class?_settle_of_some {partition : Partition} {port : Port} {found : Class}
    (h : partition.class? port = some found) (other : Port) :
    (partition.settle port).class? other = partition.class? other := by
  change (if other = port then some ((partition.class? port).getD ⟨{port}, 0⟩) else _) = _
  split
  next hsame => rw [hsame, h, Option.getD_some]
  next => rfl

theorem class?_settle_of_none {partition : Partition} {port : Port}
    (h : partition.class? port = none) (other : Port) : (partition.settle port).class? other =
      if other = port then some ⟨{port}, 0⟩ else partition.class? other := by
  change (if other = port then some ((partition.class? port).getD ⟨{port}, 0⟩) else _) = _
  rw [h, Option.getD_none]

end Partition

namespace Graph

/-- An inlet feeds another. -/
def Feeds (graph : Graph) (outer inner : InletId) : Prop :=
  inner ∈ graph.feedsOf outer

namespace Represents

variable {graph graph' : Graph} {partition : Partition}

/-! ## Changes that leave cells alone -/

/-- Only the cells, the cells of the ports and their marks count. -/
theorem congr (h : graph.Represents partition)
    (hport : ∀ port, graph'.portCell? port = graph.portCell? port)
    (hcells : graph'.cells = graph.cells)
    (hwired : ∀ port, graph'.portWired port = graph.portWired port) :
    graph'.Represents partition where
  linked := h.linked.congr hport hcells
  class? port := by
    rw [← h.class?]
    refine class?_congr (hport port) fun cell _ => ?_
    unfold cell?
    rw [hcells]
  wired port := (hwired port).trans (h.wired port)

theorem of_ports_eq (h : graph.Represents partition) (hin : graph'.inlets = graph.inlets)
    (hout : graph'.outlets = graph.outlets) (hcells : graph'.cells = graph.cells) :
    graph'.Represents partition := by
  refine h.congr (fun port => ?_) hcells fun port => ?_
  · cases port with
    | inlet inlet => simp only [portCell?, inletCell?, inlet?, hin]
    | outlet outlet => simp only [portCell?, outletCell?, outlet?, hout]
  · cases port with
    | inlet inlet => simp only [portWired, inletWired, inlet?, hin]
    | outlet outlet => simp only [portWired, outletWired, outlet?, hout]

theorem addInlet (h : graph.Represents partition) (owner : NodeId) :
    (graph.addInlet owner).2.Represents partition := by
  refine h.congr (portCell?_addInlet graph owner) rfl fun port => ?_
  cases port with
  | outlet outlet => rfl
  | inlet inlet =>
    simp only [portWired, inletWired, inlet?, Graph.addInlet, Array.getElem?_push]
    split
    next hnew => rw [hnew, Array.getElem?_eq_none (Nat.le_refl _)]; rfl
    next => rfl

theorem addOutlet (h : graph.Represents partition) (owner : NodeId) :
    (graph.addOutlet owner).2.Represents partition := by
  refine h.congr (portCell?_addOutlet graph owner) rfl fun port => ?_
  cases port with
  | inlet inlet => rfl
  | outlet outlet =>
    simp only [portWired, outletWired, outlet?, Graph.addOutlet, Array.getElem?_push]
    split
    next hnew => rw [hnew, Array.getElem?_eq_none (Nat.le_refl _)]; rfl
    next => rfl

theorem modifyInlet (h : graph.Represents partition) (inlet : InletId) {change : Inlet → Inlet}
    (hcell : ∀ record, (change record).cell = record.cell)
    (hwired : ∀ record, (change record).wired = record.wired) :
    (graph.modifyInlet inlet change).Represents partition := by
  refine h.congr (portCell?_modifyInlet_of_cell_eq graph inlet hcell) rfl fun port => ?_
  cases port with
  | outlet outlet => rfl
  | inlet other =>
    simp only [portWired, inletWired, inlet?_modifyInlet]
    split
    next => rw [Option.any_map]; exact congrArg (Option.any · _) (funext hwired)
    next => rfl

theorem modifyOutlet (h : graph.Represents partition) (outlet : OutletId)
    {change : Outlet → Outlet} (hcell : ∀ record, (change record).cell = record.cell)
    (hwired : ∀ record, (change record).wired = record.wired) :
    (graph.modifyOutlet outlet change).Represents partition := by
  refine h.congr (portCell?_modifyOutlet_of_cell_eq graph outlet hcell) rfl fun port => ?_
  cases port with
  | inlet inlet => rfl
  | outlet other =>
    simp only [portWired, outletWired, outlet?_modifyOutlet]
    split
    next => rw [Option.any_map]; exact congrArg (Option.any · _) (funext hwired)
    next => rfl

/-! ## Marks -/

theorem markInlet (h : graph.Represents partition) {inlet : InletId}
    (hport : graph.HasPort (.inlet inlet)) :
    (graph.markInlet inlet).Represents (partition.mark (.inlet inlet)) where
  linked := h.linked.markInlet inlet
  class? port := (class?_markInlet graph inlet port).trans (h.class? port)
  wired port := by
    rw [portWired_markInlet hport, h.wired]
    rfl

theorem markOutlet (h : graph.Represents partition) {outlet : OutletId}
    (hport : graph.HasPort (.outlet outlet)) :
    (graph.markOutlet outlet).Represents (partition.mark (.outlet outlet)) where
  linked := h.linked.markOutlet outlet
  class? port := by
    have hcell : ∀ record : Outlet, { record with wired := true }.cell = record.cell := fun _ => rfl
    have hkept : (graph.markOutlet outlet).class? port = graph.class? port :=
      class?_congr (portCell?_modifyOutlet_of_cell_eq graph outlet hcell port) fun _ _ => rfl
    exact hkept.trans (h.class? port)
  -- Only the marked output reads differently
  wired port := by
    change _ = if port = .outlet outlet then true else partition.wired port
    rw [← h.wired]
    cases port with
    | inlet inlet => rfl
    | outlet other =>
      obtain ⟨record, hrecord⟩ := Option.isSome_iff_exists.mp (outlet?_isSome.mpr hport)
      simp only [portWired, outletWired, Graph.markOutlet, outlet?_modifyOutlet, Port.outlet.injEq]
      split
      next hsame => simp [hsame, hrecord]
      next => rfl

/-! ## New cells -/

/-- **Giving a port a cell is settling it.** -/
theorem ensure (h : graph.Represents partition) {port : Port} (hport : graph.HasPort port) :
    (graph.ensure port).2.Represents (partition.settle port) := by
  refine ⟨h.linked.ensure hport, fun other => ?_, fun other => ?_⟩
  -- A port that has a cell has a class, and both are left alone
  · cases hcell : graph.portCell? port with
    | some cell =>
      obtain ⟨record, hrecord⟩ := h.linked.live hcell
      have hclass := class?_of_cell hcell hrecord
      rw [h.class?] at hclass
      rw [ensure_of_some hcell, Partition.class?_settle_of_some hclass, h.class?]
    -- Otherwise the new cell is the new class, with the port as its only member
    | none =>
      have hclass := class?_of_none hcell
      rw [h.class?] at hclass
      rw [Partition.class?_settle_of_none hclass, ensure_of_none hcell, ← h.class?]
      have hadded : (graph.addCell 0).2.HasPort port := by cases port <;> exact hport
      -- No other port can have named the new cell
      have hfresh := cell?_addCell_fst h.linked.sound 0
      split
      next hsame =>
        subst hsame
        have hnew : ((graph.addCell 0).2.attach other (graph.addCell 0).1).cell?
            (graph.addCell 0).1 = some (({ value := 0 } : Cell).join other) := by
          rw [cell?_attach, if_pos rfl, cell?_addCell h.linked.sound, if_pos rfl, Option.map_some]
        rw [class?_of_cell ((portCell?_attach hadded _ _).trans (if_pos rfl)) hnew,
          Linked.toClass_join]
        rfl
      next hne =>
        refine class?_congr ?_ fun cell hfound => ?_
        · rw [portCell?_attach hadded, if_neg hne, portCell?_addCell]
        · have hother : cell ≠ (graph.addCell 0).1 := by
            rintro rfl
            obtain ⟨_, hlive⟩ := h.linked.live hfound
            rw [hfresh] at hlive
            cases hlive
          rw [cell?_attach, if_neg hother, cell?_addCell h.linked.sound, if_neg hother]
  · rw [portWired_of_bare_eq (bare_ensure graph port), h.wired]
    rfl

theorem addOwnInlet (h : graph.Represents partition) (owner : NodeId) :
    (Graph.addOwnInlet owner graph).2.Represents
      (partition.settle (.inlet ⟨graph.inlets.size⟩)) := by
  rw [addOwnInlet_eq]
  exact (h.addInlet owner).ensure (hasPort_addInlet graph owner)

theorem addOwnOutlet (h : graph.Represents partition) (owner : NodeId) :
    (graph.addOwnOutlet owner).2.Represents
      (partition.settle (.outlet ⟨graph.outlets.size⟩)) := by
  rw [addOwnOutlet_eq]
  exact (h.addOutlet owner).ensure (hasPort_addOutlet graph owner)

/-- Feeding an inlet settles and marks it. -/
theorem feed (h : graph.Represents partition) (outer : InletId) {inner : InletId}
    (hport : graph.HasPort (.inlet inner)) : (graph.feed outer inner).Represents
      ((partition.settle (.inlet inner)).mark (.inlet inner)) := by
  have hensured := h.ensure hport
  have hkept := (Extends.of_bare_eq (bare_ensure graph (.inlet inner))).hasPort hport
  let change (record : Inlet) : Inlet := { record with feeds := Cell.joined record.feeds inner }
  have hfed : ((graph.ensure (.inlet inner)).2.modifyInlet outer change).Represents
      (partition.settle (.inlet inner)) := hensured.modifyInlet outer (fun _ => rfl) fun _ => rfl
  exact hfed.markInlet ((Extends.modifyInlet _ outer change).hasPort hkept)

/-- Relaying to an outlet settles and marks it. -/
theorem relay (h : graph.Represents partition) {outer : OutletId} (inner : OutletId)
    (hport : graph.HasPort (.outlet outer)) : (graph.relay outer inner).Represents
      ((partition.settle (.outlet outer)).mark (.outlet outer)) := by
  have hensured := h.ensure hport
  have hkept := (Extends.of_bare_eq (bare_ensure graph (.outlet outer))).hasPort hport
  let change (record : Outlet) : Outlet := { record with relay := some outer }
  have hrelayed : ((graph.ensure (.outlet outer)).2.modifyOutlet inner change).Represents
      (partition.settle (.outlet outer)) := hensured.modifyOutlet inner (fun _ => rfl) fun _ => rfl
  exact hrelayed.markOutlet ((Extends.modifyOutlet _ inner change).hasPort hkept)

/-! ## New nodes -/

/-- The partition after several ports have been settled, one after another. -/
theorem addOwnInlets (h : graph.Represents partition) (owner : NodeId) (count : Nat) :
    (graph.times (Graph.addOwnInlet owner) count).2.Represents
      ((List.range count).foldl (fun settled i =>
        settled.settle (.inlet ⟨graph.inlets.size + i⟩)) partition) := by
  induction count generalizing graph partition with
  | zero => exact h
  | succ count ih =>
    have hsize : (Graph.addOwnInlet owner graph).2.inlets.size = graph.inlets.size + 1 := by
      simp [Graph.addOwnInlet, Graph.addInlet, addCell, attachReader, Graph.modifyInlet, modifyCell]
    have hshift : ∀ i, graph.inlets.size + 1 + i = graph.inlets.size + (i + 1) := by omega
    -- One input is added first, and the rest are counted from the next number
    have hrest := ih (h.addOwnInlet owner)
    rw [times_succ, List.range_succ_eq_map, List.foldl_cons, List.foldl_map]
    simp only [hsize, hshift] at hrest
    exact hrest

end Represents

section

variable {graph : Graph} {partition : Partition}

/-- What a new native node makes of a partition: its ports are settled, and its outlet is marked. -/
def settleNative (graph : Graph) (primitive : Primitive) (partition : Partition) : Partition :=
  (((List.range primitive.inletCount).foldl (fun settled i =>
      settled.settle (.inlet ⟨graph.inlets.size + i⟩)) partition).settle
    (.outlet ⟨graph.outlets.size⟩)).mark (.outlet ⟨graph.outlets.size⟩)

theorem Represents.addExits (h : graph.Represents partition) (owner : NodeId) (count : Nat) :
    (graph.times (fun g => g.addExit owner) count).2.Represents partition :=
  times_induction (P := fun g => g.Represents partition)
    (fun _ hg => hg.of_ports_eq rfl rfl rfl) count h

theorem Represents.addJoins {composite : NodeId} {specification : String} {traced : Bool}
    (exits : List ExitId) (h : graph.Represents partition) :
    (graph.forEach (addJoin composite specification traced) exits).2.Represents partition := by
  induction exits generalizing graph with
  | nil => exact h
  | cons first rest ih =>
    have hjoin : (Graph.addJoin composite specification traced graph first).2.Represents partition :=
      h.of_ports_eq rfl rfl rfl
    exact ih hjoin

/-- **A new native node settles its ports.** -/
theorem Represents.addNative (h : graph.Represents partition) (primitive : Primitive)
    (specification : String) (traced : Bool) :
    (graph.addNative primitive specification traced).2.Represents
      (graph.settleNative primitive partition) := by
  let owner : NodeId := ⟨graph.nodes.size⟩
  let fed := (graph.times (Graph.addOwnInlet owner) primitive.inletCount).2
  -- Inlets come first, so the outlet is the next one after those of the graph
  have hsize : fed.outlets.size = graph.outlets.size := by
    have hbare := congrArg (fun g => g.outlets.size)
      (bare_addOwnInlets owner primitive.inletCount graph)
    simpa only [bare, Array.size_map] using hbare
  have hinlets : fed.Represents _ := h.addOwnInlets owner primitive.inletCount
  have houtlet := (hinlets.addOwnOutlet owner).markOutlet (hasPort_addOwnOutlet owner fed)
  have hsettled : ((((List.range primitive.inletCount).foldl (fun settled i =>
        settled.settle (.inlet ⟨graph.inlets.size + i⟩)) partition).settle
      (.outlet ⟨fed.outlets.size⟩)).mark (.outlet (fed.addOwnOutlet owner).1)) =
        graph.settleNative primitive partition := by
    unfold settleNative
    rw [← hsize]
    rfl
  rw [hsettled] at houtlet
  have hentry : (((fed.addOwnOutlet owner).2.markOutlet (fed.addOwnOutlet owner).1).addEntry
      owner).2.Represents (graph.settleNative primitive partition) :=
    houtlet.of_ports_eq rfl rfl rfl
  exact (hentry.addExits owner primitive.exitCount).of_ports_eq rfl rfl rfl

/-- **A new composite settles its outlet.** -/
theorem Represents.addComposite (h : graph.Represents partition) (specification : String)
    (inletCount exitCount : Nat) (traced : Bool) :
    (graph.addComposite specification inletCount exitCount traced).2.Represents
      (partition.settle (.outlet ⟨graph.outlets.size⟩)) := by
  let owner : NodeId := ⟨graph.nodes.size⟩
  let fed := (graph.times (fun g => g.addInlet owner) inletCount).2
  have hsize : fed.outlets = graph.outlets := by
    change (graph.times (fun g => g.addInlet owner) inletCount).2.outlets = _
    rw [times_addInlet]
  -- The inputs of a composite have no cells, so no class comes with them
  have hinlets : fed.Represents partition :=
    times_induction (P := fun g => g.Represents partition)
      (fun _ hg => hg.addInlet owner) inletCount h
  have houtlet := hinlets.addOwnOutlet owner
  rw [hsize] at houtlet
  have hframed := houtlet.addExits owner exitCount
  have hnode (record : Node) : (Graph.addNode _ record).2.Represents _ :=
    hframed.of_ports_eq rfl rfl rfl
  exact ((hnode _).addJoins _).of_ports_eq rfl rfl rfl

end

/-! ## Writes -/

section

variable {graph : Graph} {partition : Partition}

theorem Feeds.mem_fedCells {outer inner : InletId} (h : graph.Feeds outer inner) {cell : CellId}
    (hcell : graph.inletCell? inner = some cell) : cell ∈ graph.fedCells outer := by
  unfold Feeds feedsOf at h
  cases hrecord : graph.inlet? outer with
  | none => simp [hrecord] at h
  | some record =>
    exact Graph.mem_fedCells.mpr ⟨record, hrecord, inner, by simpa [hrecord] using h, hcell⟩

theorem exists_of_mem_fedCells {outer : InletId} {cell : CellId}
    (h : cell ∈ graph.fedCells outer) :
    ∃ inner, graph.Feeds outer inner ∧ graph.inletCell? inner = some cell := by
  obtain ⟨record, hrecord, inner, hinner, hcell⟩ := Graph.mem_fedCells.mp h
  refine ⟨inner, ?_, hcell⟩
  unfold Feeds feedsOf
  rw [hrecord]
  exact hinner

theorem feeds_of_bare_eq {graph' : Graph} (h : graph'.bare = graph.bare) :
    graph'.Feeds = graph.Feeds := by
  unfold Feeds
  rw [← feedsOf_bare, h, feedsOf_bare]

theorem feeds_modifyInlet (graph : Graph) (inlet : InletId) {change : Inlet → Inlet}
    (h : ∀ record, (change record).feeds = record.feeds) :
    (graph.modifyInlet inlet change).Feeds = graph.Feeds := by
  funext outer inner
  unfold Feeds feedsOf
  rw [inlet?_modifyInlet]
  split
  · rw [Option.map_map]
    exact congrArg (fun view => inner ∈ ((graph.inlet? outer).map view).getD []) (funext h)
  · rfl

theorem feeds_connect (graph : Graph) (inlet : InletId) (outlet : OutletId) :
    (graph.connect inlet outlet).Feeds = graph.Feeds := by
  have hbare := bare_unite graph inlet outlet
  rw [← feeds_of_bare_eq hbare]
  exact feeds_modifyInlet _ inlet fun _ => rfl

theorem feeds_relay (graph : Graph) (outer inner : OutletId) :
    (graph.relay outer inner).Feeds = graph.Feeds := by
  rw [← feeds_of_bare_eq (bare_ensure graph (.outlet outer))]
  rfl

/-- An inlet that comes to feed another feeds it besides those it fed before. -/
theorem feeds_feed {graph : Graph} {outer inner : InletId} (h : graph.HasPort (.inlet outer))
    (giver taker : InletId) : (graph.feed outer inner).Feeds giver taker ↔
      graph.Feeds giver taker ∨ giver = outer ∧ taker = inner := by
  have hbare := bare_ensure graph (.inlet inner)
  have hkept := (Extends.of_bare_eq hbare).hasPort h
  obtain ⟨record, hrecord⟩ := Option.isSome_iff_exists.mp (inlet?_isSome.mpr hkept)
  -- The bridge is written into the outer input, and marking the inner one keeps it
  let change (record : Inlet) : Inlet := { record with feeds := Cell.joined record.feeds inner }
  have hmark : (graph.feed outer inner).Feeds =
      ((graph.ensure (.inlet inner)).2.modifyInlet outer change).Feeds :=
    feeds_modifyInlet _ inner fun _ => rfl
  rw [hmark, ← feeds_of_bare_eq hbare]
  unfold Feeds feedsOf
  rw [inlet?_modifyInlet]
  split
  next hsame => simp [hsame, hrecord, change, Cell.mem_joined]
  next hother => simp [hother]

/-- A port with a cell is in a class. -/
theorem Represents.exists_class (h : graph.Represents partition) {port : Port} {cell : CellId}
    (hcell : graph.portCell? port = some cell) :
    ∃ found, partition.class? port = some found := by
  obtain ⟨record, hrecord⟩ := h.linked.live hcell
  exact ⟨_, (h.class? port).symm.trans (class?_of_cell hcell hrecord)⟩

/-- Paths of feeding inlets are paths of ports. -/
theorem Represents.flows_of_pours (h : graph.Represents partition) {a b : CellId}
    (hpours : Relation.ReflTransGen graph.Pours a b) {port other : Port}
    (hport : graph.portCell? port = some a) (hother : graph.portCell? other = some b) :
    partition.Flows graph.Feeds port other := by
  induction hpours generalizing other with
  | refl => exact .single (Or.inl (h.shares_iff.mp ⟨a, hport, hother⟩))
  | @tail c d hpath hstep ih =>
    obtain ⟨outer, houter, hfed⟩ := hstep
    obtain ⟨inner, hfeeds, hinner⟩ := exists_of_mem_fedCells hfed
    have hclass := h.exists_class (show graph.portCell? (.inlet inner) = some d from hinner)
    have hbefore := ih (show graph.portCell? (.inlet outer) = some c from houter)
    exact (hbefore.tail (Or.inr ⟨outer, inner, rfl, rfl, hfeeds, hclass⟩)).tail
      (Or.inl (h.shares_iff.mp ⟨d, hinner, hother⟩))

theorem Represents.pours_of_flows (h : graph.Represents partition) {a : CellId} {port other : Port}
    (hport : graph.portCell? port = some a) (hflows : partition.Flows graph.Feeds port other) :
    ∃ b, graph.portCell? other = some b ∧ Relation.ReflTransGen graph.Pours a b := by
  induction hflows with
  | refl => exact ⟨a, hport, .refl⟩
  | tail _ hstep ih =>
    obtain ⟨c, hc, hpath⟩ := ih
    -- A step within a class stays at the cell, and a step over a bridge pours from it
    rcases hstep with hshares | ⟨outer, inner, rfl, rfl, hfeeds, found, hfound⟩
    · obtain ⟨d, hbefore, hafter⟩ := h.shares_iff.mpr hshares
      obtain rfl := Option.some.inj (hbefore.symm.trans hc)
      exact ⟨d, hafter, hpath⟩
    · rw [← h.class?] at hfound
      obtain ⟨d, _, hd, _⟩ := Linked.exists_cell_of_class? hfound
      exact ⟨d, hd, hpath.tail ⟨outer, hc, hfeeds.mem_fedCells hd⟩⟩

/-- **Writing a cell is writing the classes that the write flows to.** -/
theorem Represents.setValue (h : graph.Represents partition) {port : Port} {cell : CellId}
    (hcell : graph.portCell? port = some cell) (value : Value) :
    (graph.setValue cell value).Represents
      (partition.write (partition.Flows graph.Feeds port) value) := by
  classical
  refine ⟨h.linked.setValue cell value, fun other => ?_, fun other => ?_⟩
  · change _ = (partition.class? other).map fun found =>
      if ∃ third ∈ found.ports, partition.Flows graph.Feeds port third then
        { found with value } else found
    rw [← h.class?, setValue_eq]
    cases hother : graph.portCell? other with
    | none =>
      rw [class?_of_none hother, class?_of_none ((portCell?_writeCells _ _ _ _).trans hother)]
      rfl
    | some b =>
      obtain ⟨record, hrecord⟩ := h.linked.live hother
      -- The write reaches the class just when it reaches the cell
      have hreached : (∃ third ∈ record.toClass.ports, partition.Flows graph.Feeds port third) ↔
          b ∈ graph.reached cell := by
        rw [h.linked.mem_reached]
        constructor
        · rintro ⟨third, hmem, hflows⟩
          obtain ⟨c, hc, hpath⟩ := h.pours_of_flows hcell hflows
          rw [h.linked.mem_ports_toClass hrecord] at hmem
          exact Option.some.inj (hmem.symm.trans hc) ▸ hpath
        · intro hpath
          exact ⟨other, (h.linked.mem_ports_toClass hrecord).mpr hother,
            h.flows_of_pours hpath hcell hother⟩
      -- A class that is reached gets the value, and every other class stays
      have hwritten := cell?_writeCells value b (graph.reached cell) graph
      rw [hrecord] at hwritten
      rw [class?_of_cell hother hrecord, Option.map_some]
      simp only [hreached]
      split at hwritten
      next hmem =>
        rw [if_pos hmem, class?_of_cell ((portCell?_writeCells _ _ _ _).trans hother) hwritten]
        rfl
      next hmem =>
        rw [if_neg hmem, class?_of_cell ((portCell?_writeCells _ _ _ _).trans hother) hwritten]
  · rw [portWired_of_bare_eq (bare_setValue graph cell value), h.wired]
    rfl

/-- **Writing a port is settling it and writing the classes that the write flows to.** -/
theorem Represents.write (h : graph.Represents partition) {port : Port}
    (hport : graph.HasPort port) (value : Value) :
    ((graph.ensure port).2.setValue (graph.ensure port).1 value).Represents
      ((partition.settle port).write ((partition.settle port).Flows graph.Feeds port) value) := by
  have hfeeds : (graph.ensure port).2.Feeds = graph.Feeds :=
    feeds_of_bare_eq (bare_ensure graph port)
  -- The port has a cell after the settling, and the write starts from there
  have hcell : (graph.ensure port).2.portCell? port = some (graph.ensure port).1 := by
    cases hown : graph.portCell? port with
    | some cell => rw [ensure_of_some hown, hown]
    | none =>
      have hadded : (graph.addCell 0).2.HasPort port := by cases port <;> exact hport
      rw [ensure_of_none hown, portCell?_attach hadded, if_pos rfl]
  rw [← hfeeds]
  exact (h.ensure hport).setValue hcell value

end

end Graph

end TokenNet
