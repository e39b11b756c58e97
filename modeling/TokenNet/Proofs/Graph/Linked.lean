import TokenNet.Proofs.Graph.Port

/-!
# Ports and cells point at each other

A port names the cell it shares, and a cell lists the ports that share it.  In a *linked* graph
the two agree: no port names a cell that is gone, no cell lists a port that has left, and every
cell is shared.  The number of cells in use is then the number of cells that ports name.

Between two operations a graph is always linked.  Each operation of the data layer is described
by one pair of equations, for `portCell?` and for `cell?`, and keeping a graph linked follows from
the pair alone.

## Main statements

- `Linked.ensure`, `Linked.unite`, `Linked.detach`, `Linked.setValue`: what keeps a graph linked.
- `Linked.cellCount_eq`: cells are counted by the ports that name them.
-/

namespace TokenNet.Graph

/-- Ports and cells agree on who shares what. -/
structure Linked (graph : Graph) : Prop where
  sound : graph.cells.Sound
  mem_members : ∀ {cell record}, graph.cell? cell = some record →
    ∀ port, port ∈ record.members ↔ graph.portCell? port = some cell
  nodup_members : ∀ {cell record}, graph.cell? cell = some record → record.members.Nodup
  live : ∀ {port cell}, graph.portCell? port = some cell →
    ∃ record, graph.cell? cell = some record
  shared : ∀ {cell record}, graph.cell? cell = some record → record.members ≠ []

theorem Linked.empty : Linked ({} : Graph) where
  sound := Store.Sound.empty
  mem_members := by simp [cell?, Store.get?]
  nodup_members := by simp [cell?, Store.get?]
  live := by
    intro port cell h
    cases port <;> simp [portCell?, inletCell?, outletCell?, inlet?, outlet?] at h
  shared := by simp [cell?, Store.get?]

/-- The record of a cell lists the ports that name the cell, each of them once, and there is one. -/
structure Attended (graph : Graph) (cell : CellId) (record : Cell) : Prop where
  mem_members : ∀ port, port ∈ record.members ↔ graph.portCell? port = some cell
  nodup_members : record.members.Nodup
  shared : record.members ≠ []

theorem Linked.attended {graph : Graph} (h : graph.Linked) {cell : CellId} {record : Cell}
    (hrecord : graph.cell? cell = some record) : graph.Attended cell record :=
  ⟨h.mem_members hrecord, h.nodup_members hrecord, h.shared hrecord⟩

/-- A graph is linked if each of its cells is attended and no port names a cell that is gone. -/
theorem Linked.of_attended {graph : Graph} (hsound : graph.cells.Sound)
    (hlive : ∀ {port cell}, graph.portCell? port = some cell →
      ∃ record, graph.cell? cell = some record)
    (hattended : ∀ {cell record}, graph.cell? cell = some record → graph.Attended cell record) :
    graph.Linked :=
  ⟨hsound, fun h => (hattended h).mem_members, fun h => (hattended h).nodup_members, hlive,
    fun h => (hattended h).shared⟩

/-- A cell keeps its record as long as the same ports name it. -/
theorem Attended.congr {graph graph' : Graph} {cell : CellId} {record : Cell}
    (h : graph.Attended cell record)
    (hports : ∀ port, graph'.portCell? port = some cell ↔ graph.portCell? port = some cell) :
    graph'.Attended cell record :=
  { h with mem_members := fun port => (h.mem_members port).trans (hports port).symm }

/-- Being linked concerns the cells and the cells of ports, and nothing else. -/
theorem Linked.congr {graph graph' : Graph} (h : graph.Linked)
    (hport : ∀ port, graph'.portCell? port = graph.portCell? port)
    (hcells : graph'.cells = graph.cells) : graph'.Linked := by
  have hcell : graph'.cell? = graph.cell? := by
    unfold cell?
    rw [hcells]
  refine .of_attended (hcells ▸ h.sound) (fun {port _} hlive => ?_) fun hrecord => ?_
  · rw [hcell]
    exact h.live (hport port ▸ hlive)
  · exact (h.attended (hcell ▸ hrecord)).congr fun port => by rw [hport]

/-! ## New ports -/

theorem portCell?_addInlet (graph : Graph) (owner : NodeId) (port : Port) :
    (graph.addInlet owner).2.portCell? port = graph.portCell? port := by
  cases port with
  | outlet outlet => rfl
  | inlet inlet =>
    simp only [portCell?, inletCell?, inlet?, addInlet, Array.getElem?_push]
    split
    next hnew => simp [hnew]
    next => rfl

theorem portCell?_addOutlet (graph : Graph) (owner : NodeId) (port : Port) :
    (graph.addOutlet owner).2.portCell? port = graph.portCell? port := by
  cases port with
  | inlet inlet => rfl
  | outlet outlet =>
    simp only [portCell?, outletCell?, outlet?, addOutlet, Array.getElem?_push]
    split
    next hnew => simp [hnew]
    next => rfl

theorem Linked.addInlet {graph : Graph} (h : graph.Linked) (owner : NodeId) :
    (graph.addInlet owner).2.Linked :=
  h.congr (portCell?_addInlet graph owner) rfl

theorem Linked.addOutlet {graph : Graph} (h : graph.Linked) (owner : NodeId) :
    (graph.addOutlet owner).2.Linked :=
  h.congr (portCell?_addOutlet graph owner) rfl

/-! ## Joining a cell -/

/-- A port without a cell may join any cell in use. -/
theorem Linked.attach {graph : Graph} (h : graph.Linked) {newcomer : Port} {cell : CellId}
    {record : Cell} (hport : graph.HasPort newcomer) (hloose : graph.portCell? newcomer = none)
    (hcell : graph.cell? cell = some record) : (graph.attach newcomer cell).Linked := by
  refine .of_attended (sound_attach h.sound newcomer cell) (fun {port other} hlive => ?live)
    fun {other found} hfound => ?attended
  case live =>
    rw [portCell?_attach hport] at hlive
    rw [cell?_attach]
    split at hlive
    next =>
      rw [Option.some.injEq] at hlive
      simp [← hlive, hcell]
    next =>
      obtain ⟨found, hfound⟩ := h.live hlive
      split <;> simp [hfound]
  case attended =>
    rw [cell?_attach] at hfound
    split at hfound
    next hsame =>
      subst hsame
      rw [hcell, Option.map_some, Option.some.injEq] at hfound
      subst hfound
      refine ⟨fun port => ?_, Cell.nodup_members_join (h.nodup_members hcell) newcomer,
        List.ne_nil_of_mem (Cell.mem_members_join.mpr (Or.inr rfl))⟩
      rw [portCell?_attach hport, Cell.mem_members_join, h.mem_members hcell]
      by_cases hnew : port = newcomer <;> simp [hnew]
    next hother =>
      -- No other cell gains or loses a port
      refine (h.attended hfound).congr fun port => ?_
      rw [portCell?_attach hport]
      by_cases hnew : port = newcomer
      · simp [hnew, hloose, Ne.symm hother]
      · simp [hnew]

/-- A port without a cell may get a new one. -/
theorem Linked.attach_addCell {graph : Graph} (h : graph.Linked) {newcomer : Port}
    (hport : graph.HasPort newcomer) (hloose : graph.portCell? newcomer = none) (value : Value) :
    ((graph.addCell value).2.attach newcomer (graph.addCell value).1).Linked := by
  have hport' : (graph.addCell value).2.HasPort newcomer := by cases newcomer <;> exact hport
  have hfresh := cell?_addCell_fst h.sound value
  have hcell : ∀ other, ((graph.addCell value).2.attach newcomer (graph.addCell value).1).cell?
      other = if other = (graph.addCell value).1 then some (({ value } : Cell).join newcomer)
        else graph.cell? other := by
    intro other
    rw [cell?_attach, cell?_addCell h.sound]
    split <;> simp
  have hportCell : ∀ port, ((graph.addCell value).2.attach newcomer
      (graph.addCell value).1).portCell? port = if port = newcomer then
        some (graph.addCell value).1 else graph.portCell? port := by
    intro port
    rw [portCell?_attach hport', portCell?_addCell]
  refine .of_attended (sound_attach (h.sound.insert _) newcomer _) (fun {port other} hlive => ?live)
    fun {other found} hfound => ?attended
  case live =>
    rw [hportCell] at hlive
    rw [hcell]
    split at hlive
    next =>
      rw [Option.some.injEq] at hlive
      simp [hlive]
    next =>
      obtain ⟨found, hfound⟩ := h.live hlive
      split <;> simp [hfound]
  case attended =>
    rw [hcell] at hfound
    split at hfound
    next hsame =>
      rw [Option.some.injEq] at hfound
      subst hfound hsame
      refine ⟨fun port => ?_, Cell.nodup_members_join (by simp [Cell.members]) newcomer,
        List.ne_nil_of_mem (Cell.mem_members_join.mpr (Or.inr rfl))⟩
      -- No port can have named the new cell before it was there
      have hno : graph.portCell? port ≠ some (graph.addCell value).1 := by
        intro hlive
        obtain ⟨record, hrecord⟩ := h.live hlive
        simp [hfresh] at hrecord
      rw [hportCell, Cell.mem_members_join]
      by_cases hnew : port = newcomer <;> simp [hnew, hno, Cell.members]
    next hother =>
      refine (h.attended hfound).congr fun port => ?_
      rw [hportCell]
      by_cases hnew : port = newcomer
      · simp [hnew, hloose, Ne.symm hother]
      · simp [hnew]

/-- The cell of a port; a new one if it has none. -/
def ensure (graph : Graph) : Port → CellId × Graph
  | .inlet inlet => graph.ensureInletCell inlet
  | .outlet outlet => graph.ensureOutletCell outlet

theorem ensure_of_some {graph : Graph} {port : Port} {cell : CellId}
    (h : graph.portCell? port = some cell) : graph.ensure port = (cell, graph) := by
  cases port with
  | inlet inlet =>
    change graph.inletCell? inlet = some cell at h
    simp [ensure, ensureInletCell, h]
  | outlet outlet =>
    change graph.outletCell? outlet = some cell at h
    simp [ensure, ensureOutletCell, h]

theorem ensure_of_none {graph : Graph} {port : Port} (h : graph.portCell? port = none) :
    graph.ensure port =
      ((graph.addCell 0).1, (graph.addCell 0).2.attach port (graph.addCell 0).1) := by
  cases port with
  | inlet inlet =>
    change graph.inletCell? inlet = none at h
    simp [ensure, ensureInletCell, h, attach]
  | outlet outlet =>
    change graph.outletCell? outlet = none at h
    simp [ensure, ensureOutletCell, h, attach]

theorem portCell?_ensure {graph : Graph} {port : Port} (hport : graph.HasPort port) :
    (graph.ensure port).2.portCell? port = some (graph.ensure port).1 := by
  cases hcell : graph.portCell? port with
  | some held =>
    rw [ensure_of_some hcell]
    exact hcell
  | none =>
    have hadded : (graph.addCell 0).2.HasPort port := by cases port <;> exact hport
    rw [ensure_of_none hcell, portCell?_attach hadded, if_pos rfl]

/-- Giving a port a cell changes no other cell. -/
theorem cell?_ensure_of_ne {graph : Graph} (h : graph.cells.Sound) {port : Port} {cell : CellId}
    (hne : cell ≠ (graph.ensure port).1) : (graph.ensure port).2.cell? cell = graph.cell? cell := by
  cases hport : graph.portCell? port with
  | some held => rw [ensure_of_some hport]
  | none =>
    rw [ensure_of_none hport] at hne ⊢
    rw [cell?_attach, if_neg hne, cell?_addCell h, if_neg hne]

theorem Linked.ensure {graph : Graph} (h : graph.Linked) {port : Port}
    (hport : graph.HasPort port) : (graph.ensure port).2.Linked := by
  cases hcell : graph.portCell? port with
  | some cell =>
    rw [ensure_of_some hcell]
    exact h
  | none =>
    rw [ensure_of_none hcell]
    exact h.attach_addCell hport hcell 0

/-! ## Merging two cells -/

theorem portCell?_foldl_assign (cell : Option CellId) (port : Port) (ports : List Port) :
    ∀ {graph : Graph}, (∀ member ∈ ports, graph.HasPort member) →
    (ports.foldl (fun g member => g.assign member cell) graph).portCell? port =
      if port ∈ ports then cell else graph.portCell? port := by
  induction ports with
  | nil => simp
  | cons first rest ih =>
    intro graph h
    rw [List.foldl_cons, ih fun member hmember => by
      simpa using h member (List.mem_cons_of_mem first hmember)]
    -- The first port is assigned, and a later assignment sets it to the same cell
    rw [portCell?_assign (h first List.mem_cons_self)]
    by_cases hfirst : port = first
    · simp [hfirst]
    · simp [hfirst]

theorem cells_foldl_assign (cell : Option CellId) (ports : List Port) (graph : Graph) :
    (ports.foldl (fun g member => g.assign member cell) graph).cells = graph.cells := by
  induction ports generalizing graph with
  | nil => rfl
  | cons first rest ih => rw [List.foldl_cons, ih, cells_assign]

/-- Merging moves the ports of one cell to the other, port by port. -/
theorem merge_eq {graph : Graph} {absorbed : CellId} {old : Cell}
    (h : graph.cell? absorbed = some old) (survivor : CellId) :
    graph.merge absorbed survivor =
      (old.members.foldl (fun (g : Graph) member => g.assign member (some survivor))
        { graph with cells := graph.cells.erase absorbed }).modifyCell survivor
        fun cell => cell.absorb old := by
  have h' : graph.cells.get? absorbed = some old := h
  simp only [merge, Store.remove_eq, h', Option.map_some, Cell.members, List.foldl_append,
    List.foldl_map]
  rfl

/-- After a merge the ports of the absorbed cell share the surviving one. -/
theorem Linked.portCell?_merge {graph : Graph} (h : graph.Linked) {absorbed : CellId} {old : Cell}
    (hold : graph.cell? absorbed = some old) (survivor : CellId) (port : Port) :
    (graph.merge absorbed survivor).portCell? port =
      if graph.portCell? port = some absorbed then some survivor else graph.portCell? port := by
  have hhas : ∀ member ∈ old.members,
      ({ graph with cells := graph.cells.erase absorbed } : Graph).HasPort member := by
    intro member hmember
    have hport := hasPort_of_portCell? ((h.mem_members hold member).mp hmember)
    cases member <;> exact hport
  have hsame : ({ graph with cells := graph.cells.erase absorbed } : Graph).portCell? port =
      graph.portCell? port := by cases port <;> rfl
  rw [merge_eq hold, portCell?_modifyCell, portCell?_foldl_assign _ _ _ hhas, hsame]
  simp only [h.mem_members hold]

/-- After a merge the absorbed cell is gone and the surviving one has taken its ports over. -/
theorem cell?_merge {graph : Graph} {absorbed survivor : CellId} {old : Cell}
    (hold : graph.cell? absorbed = some old) (hne : absorbed ≠ survivor) (cell : CellId) :
    (graph.merge absorbed survivor).cell? cell =
      if cell = absorbed then none
      else if cell = survivor then (graph.cell? cell).map fun c => c.absorb old
      else graph.cell? cell := by
  have hcells : ∀ other, (old.members.foldl (fun (g : Graph) member => g.assign member (some survivor))
      { graph with cells := graph.cells.erase absorbed }).cell? other =
        if other = absorbed then none else graph.cell? other := by
    intro other
    unfold cell?
    rw [cells_foldl_assign]
    exact Store.get?_erase graph.cells absorbed other
  -- The absorbed cell is gone, the survivor has taken its members, all others stay
  rw [merge_eq hold, cell?_modifyCell, hcells]
  by_cases habsorbed : cell = absorbed
  · simp [habsorbed, hne]
  · simp [habsorbed]

theorem sound_merge {graph : Graph} (h : graph.cells.Sound) {absorbed : CellId} {old : Cell}
    (hold : graph.cell? absorbed = some old) (survivor : CellId) :
    (graph.merge absorbed survivor).cells.Sound := by
  rw [merge_eq hold]
  refine Store.Sound.modify ?_ _ _
  rw [cells_foldl_assign]
  exact h.erase absorbed

theorem Linked.merge {graph : Graph} (h : graph.Linked) {absorbed survivor : CellId}
    {old kept : Cell} (hold : graph.cell? absorbed = some old)
    (hkept : graph.cell? survivor = some kept) (hne : absorbed ≠ survivor) :
    (graph.merge absorbed survivor).Linked := by
  refine .of_attended (sound_merge h.sound hold survivor) (fun {port cell} hlive => ?live)
    fun {cell record} hrecord => ?attended
  case live =>
    rw [h.portCell?_merge hold] at hlive
    rw [cell?_merge hold hne]
    split at hlive
    next =>
      rw [Option.some.injEq] at hlive
      simp [← hlive, Ne.symm hne, hkept]
    next hport =>
      obtain ⟨record, hrecord⟩ := h.live hlive
      have hcell : cell ≠ absorbed := by
        rintro rfl
        exact hport hlive
      by_cases hsame : cell = survivor <;> simp [hcell, hsame, hrecord, hkept, Ne.symm hne]
  case attended =>
    rw [cell?_merge hold hne] at hrecord
    split at hrecord
    -- The absorbed cell is gone
    next => simp at hrecord
    next hcell =>
      split at hrecord
      next hsame =>
        subst hsame
        rw [hkept, Option.map_some, Option.some.injEq] at hrecord
        subst hrecord
        -- The survivor has the ports of both
        obtain ⟨first, hfirst⟩ := List.exists_mem_of_ne_nil _ (h.shared hkept)
        refine ⟨fun port => ?_, Cell.nodup_members_absorb (h.nodup_members hkept) old,
          List.ne_nil_of_mem (Cell.mem_members_absorb.mpr (Or.inl hfirst))⟩
        rw [h.portCell?_merge hold, Cell.mem_members_absorb, h.mem_members hkept,
          h.mem_members hold]
        by_cases hport : graph.portCell? port = some absorbed <;> simp [hport]
      next hother =>
        refine (h.attended hrecord).congr fun port => ?_
        rw [h.portCell?_merge hold]
        by_cases hport : graph.portCell? port = some absorbed
        · simp [hport, Ne.symm hcell, Ne.symm hother]
        · simp [hport]

/-- Putting an inlet and an outlet into one class keeps a graph linked, whichever of the two has a
cell already. -/
theorem Linked.unite {graph : Graph} (h : graph.Linked) {inlet : InletId} {outlet : OutletId}
    (hinlet : graph.HasPort (.inlet inlet)) (houtlet : graph.HasPort (.outlet outlet)) :
    (graph.unite inlet outlet).Linked := by
  unfold Graph.unite
  split
  -- Both pins have a cell: the cells are merged unless they are one
  next a b ha hb =>
    obtain ⟨old, hold⟩ := h.live (show graph.portCell? (.inlet inlet) = some a from ha)
    obtain ⟨kept, hkept⟩ := h.live (show graph.portCell? (.outlet outlet) = some b from hb)
    split
    next => exact h
    next hne => exact h.merge hold hkept hne
  -- One pin has a cell: the other one joins it
  next b ha hb =>
    obtain ⟨kept, hkept⟩ := h.live (show graph.portCell? (.outlet outlet) = some b from hb)
    exact h.attach hinlet (show graph.portCell? (.inlet inlet) = none from ha) hkept
  next a ha hb =>
    obtain ⟨kept, hkept⟩ := h.live (show graph.portCell? (.inlet inlet) = some a from ha)
    exact h.attach houtlet (show graph.portCell? (.outlet outlet) = none from hb) hkept
  next ha hb =>
    -- Neither has a cell: the inlet gets a new one, and the outlet joins it
    have hinlet' : (graph.addCell 0).2.HasPort (.inlet inlet) := hinlet
    have hfirst : ((graph.addCell 0).2.attach (.inlet inlet) (graph.addCell 0).1).Linked :=
      h.attach_addCell hinlet ha 0
    have houtlet' : ((graph.addCell 0).2.attach (.inlet inlet) (graph.addCell 0).1).HasPort
        (.outlet outlet) := by
      rw [attach_eq, hasPort_assign]
      exact houtlet
    have hloose : ((graph.addCell 0).2.attach (.inlet inlet) (graph.addCell 0).1).portCell?
        (.outlet outlet) = none := by
      rw [portCell?_attach hinlet']
      exact hb
    have hcell : ((graph.addCell 0).2.attach (.inlet inlet) (graph.addCell 0).1).cell?
        (graph.addCell 0).1 = some (({ value := 0 } : Cell).join (.inlet inlet)) := by
      rw [cell?_attach, cell?_addCell h.sound, if_pos rfl, if_pos rfl, Option.map_some]
    exact hfirst.attach houtlet' hloose hcell

/-! ## Leaving a cell -/

theorem detach_of_none {graph : Graph} {port : Port} (h : graph.portCell? port = none) :
    graph.detach port = graph := by
  cases port with
  | inlet inlet =>
    change graph.inletCell? inlet = none at h
    simp [detach, disconnectInlet, h]
  | outlet outlet =>
    change graph.outletCell? outlet = none at h
    simp [detach, disconnectOutlet, h]

theorem detach_of_some {graph : Graph} {port : Port} {cell : CellId}
    (h : graph.portCell? port = some cell) : graph.detach port =
      ((graph.assign port none).modifyCell cell fun c => c.leave port).dropOrphan cell := by
  cases port with
  | inlet inlet =>
    change graph.inletCell? inlet = some cell at h
    simp [detach, disconnectInlet, h, assign, Cell.leave]
  | outlet outlet =>
    change graph.outletCell? outlet = some cell at h
    simp [detach, disconnectOutlet, h, assign, Cell.leave]

@[simp] theorem portCell?_dropOrphan (graph : Graph) (cell : CellId) (port : Port) :
    (graph.dropOrphan cell).portCell? port = graph.portCell? port := by
  unfold dropOrphan
  split
  · cases port <;> rfl
  · rfl

theorem cell?_dropOrphan (graph : Graph) (dropped cell : CellId) :
    (graph.dropOrphan dropped).cell? cell =
      if cell = dropped then (graph.cell? cell).filter fun c => ! c.isOrphan
      else graph.cell? cell := by
  unfold dropOrphan
  cases hrecord : graph.cell? dropped with
  | none =>
    by_cases hsame : cell = dropped <;> simp [hsame, hrecord]
  | some record =>
    -- Only a cell that nothing uses is dropped
    cases horphan : record.isOrphan with
    | false => by_cases hsame : cell = dropped <;> simp [hsame, hrecord, horphan, Option.filter_some]
    | true =>
      rw [Option.any_some, if_pos horphan]
      change (graph.cells.erase dropped).get? cell = _
      rw [Store.get?_erase]
      by_cases hsame : cell = dropped
      · simp [hsame, hrecord, horphan, Option.filter_some]
      · simp only [hsame, if_false]
        rfl

theorem sound_dropOrphan {graph : Graph} (h : graph.cells.Sound) (cell : CellId) :
    (graph.dropOrphan cell).cells.Sound := by
  unfold dropOrphan
  split
  · exact h.erase cell
  · exact h

/-- A port that has left its class has no cell; all others stay where they are. -/
theorem portCell?_detach (graph : Graph) (leaver port : Port) :
    (graph.detach leaver).portCell? port =
      if port = leaver then none else graph.portCell? port := by
  cases hcell : graph.portCell? leaver with
  | none =>
    rw [detach_of_none hcell]
    by_cases hsame : port = leaver <;> simp [hsame, hcell]
  | some cell =>
    rw [detach_of_some hcell, portCell?_dropOrphan, portCell?_modifyCell,
      portCell?_assign (hasPort_of_portCell? hcell)]

/-- The cell that a port leaves drops it and is given up if that was its last port. -/
theorem cell?_detach {graph : Graph} {leaver : Port} {left : CellId}
    (h : graph.portCell? leaver = some left) (cell : CellId) :
    (graph.detach leaver).cell? cell =
      if cell = left then ((graph.cell? cell).map fun c => c.leave leaver).filter
        fun c => ! c.isOrphan
      else graph.cell? cell := by
  rw [detach_of_some h, cell?_dropOrphan, cell?_modifyCell, cell?_assign]
  split <;> rfl

theorem Linked.detach {graph : Graph} (h : graph.Linked) (leaver : Port) :
    (graph.detach leaver).Linked := by
  cases hleft : graph.portCell? leaver with
  | none =>
    rw [detach_of_none hleft]
    exact h
  | some left =>
    obtain ⟨old, hold⟩ := h.live hleft
    have hsound : (graph.detach leaver).cells.Sound := by
      rw [detach_of_some hleft]
      refine sound_dropOrphan ?_ left
      refine Store.Sound.modify ?_ _ _
      rw [cells_assign]
      exact h.sound
    refine .of_attended hsound (fun {port cell} hlive => ?live) fun {cell record} hrecord => ?attended
    -- A cell that a port names is there
    case live =>
      rw [portCell?_detach] at hlive
      rw [cell?_detach hleft]
      split at hlive
      next => simp at hlive
      next hport =>
        obtain ⟨record, hrecord⟩ := h.live hlive
        split
        next hsame =>
          -- The port itself keeps the cell from being an orphan
          have hmem : port ∈ (record.leave leaver).members :=
            Cell.mem_members_leave.mpr ⟨(h.mem_members hrecord port).mpr hlive, hport⟩
          refine ⟨record.leave leaver, ?_⟩
          rw [hrecord, Option.map_some, Option.filter_eq_some_iff]
          refine ⟨rfl, ?_⟩
          rw [Bool.not_eq_true', ← Bool.not_eq_true, Cell.isOrphan_iff]
          exact List.ne_nil_of_mem hmem
        next => exact ⟨record, hrecord⟩
    -- A cell that is there is named by its members, and by nothing else
    case attended =>
      rw [cell?_detach hleft] at hrecord
      split at hrecord
      next hsame =>
        subst hsame
        rw [hold, Option.map_some, Option.filter_eq_some_iff, Option.some.injEq] at hrecord
        obtain ⟨rfl, horphan⟩ := hrecord
        refine ⟨fun port => ?_, Cell.nodup_members_leave (h.nodup_members hold) leaver,
          fun hnil => ?_⟩
        · rw [portCell?_detach, Cell.mem_members_leave, h.mem_members hold]
          by_cases hport : port = leaver <;> simp [hport]
        · simp [Cell.isOrphan_iff.mpr hnil] at horphan
      next hother =>
        refine (h.attended hrecord).congr fun port => ?_
        rw [portCell?_detach]
        by_cases hport : port = leaver
        · simp [hport, hleft, Ne.symm hother]
        · simp [hport]

/-! ## Values and marks -/

/-- A change of a cell that keeps its ports keeps a graph linked. -/
theorem Linked.modifyCell {graph : Graph} (h : graph.Linked) (changed : CellId)
    {change : Cell → Cell} (hchange : ∀ record, (change record).members = record.members) :
    (graph.modifyCell changed change).Linked := by
  have hfound : ∀ {cell record}, (graph.modifyCell changed change).cell? cell = some record →
      ∃ old, graph.cell? cell = some old ∧ record.members = old.members := by
    intro cell record hrecord
    rw [cell?_modifyCell] at hrecord
    split at hrecord
    next =>
      obtain ⟨old, hold, rfl⟩ := Option.map_eq_some_iff.mp hrecord
      exact ⟨old, hold, hchange old⟩
    next => exact ⟨record, hrecord, rfl⟩
  refine .of_attended (h.sound.modify _ _) (fun {port cell} hlive => ?live)
    fun {cell record} hrecord => ?attended
  -- A port names the same cells as before
  case live =>
    rw [portCell?_modifyCell] at hlive
    obtain ⟨record, hrecord⟩ := h.live hlive
    rw [cell?_modifyCell]
    split <;> simp [hrecord]
  -- A cell has the same members as before
  case attended =>
    obtain ⟨old, hold, hmembers⟩ := hfound hrecord
    refine ⟨fun port => ?_, hmembers ▸ h.nodup_members hold, hmembers ▸ h.shared hold⟩
    rw [hmembers, portCell?_modifyCell, h.mem_members hold]

theorem Linked.setValue {graph : Graph} (h : graph.Linked) (cell : CellId) (value : Value) :
    (graph.setValue cell value).Linked := by
  unfold Graph.setValue
  generalize graph.reached cell = reached
  induction reached generalizing graph with
  | nil => exact h
  | cons first rest ih => exact ih (h.modifyCell first fun _ => rfl)

theorem Linked.modifyInlet {graph : Graph} (h : graph.Linked) (inlet : InletId)
    {change : Inlet → Inlet} (hchange : ∀ record, (change record).cell = record.cell) :
    (graph.modifyInlet inlet change).Linked :=
  h.congr (portCell?_modifyInlet_of_cell_eq graph inlet hchange) rfl

theorem Linked.modifyOutlet {graph : Graph} (h : graph.Linked) (outlet : OutletId)
    {change : Outlet → Outlet} (hchange : ∀ record, (change record).cell = record.cell) :
    (graph.modifyOutlet outlet change).Linked :=
  h.congr (portCell?_modifyOutlet_of_cell_eq graph outlet hchange) rfl

theorem Linked.markInlet {graph : Graph} (h : graph.Linked) (inlet : InletId) :
    (graph.markInlet inlet).Linked :=
  h.modifyInlet inlet fun _ => rfl

theorem Linked.markOutlet {graph : Graph} (h : graph.Linked) (outlet : OutletId) :
    (graph.markOutlet outlet).Linked :=
  h.modifyOutlet outlet fun _ => rfl

theorem Linked.feed {graph : Graph} (h : graph.Linked) (outer : InletId) {inner : InletId}
    (hinner : graph.HasPort (.inlet inner)) : (graph.feed outer inner).Linked := by
  have hensure := h.ensure hinner
  refine Linked.markInlet ?_ inner
  exact Linked.modifyInlet hensure outer fun _ => rfl

theorem Linked.relay {graph : Graph} (h : graph.Linked) {outer : OutletId} (inner : OutletId)
    (houter : graph.HasPort (.outlet outer)) : (graph.relay outer inner).Linked := by
  have hensure := h.ensure houter
  refine Linked.markOutlet ?_ outer
  exact Linked.modifyOutlet hensure inner fun _ => rfl

/-! ## Counting cells -/

theorem mem_mentionedCells {graph : Graph} {cell : CellId} :
    cell ∈ graph.mentionedCells ↔ ∃ port, graph.portCell? port = some cell := by
  unfold mentionedCells
  rw [List.mem_eraseDups, List.mem_append, List.mem_filterMap, List.mem_filterMap]
  constructor
  -- A cell that is mentioned is mentioned in a record, which is that of some port
  · rintro (⟨record, hrecord, hcell⟩ | ⟨record, hrecord, hcell⟩)
    · obtain ⟨index, hindex⟩ := List.getElem?_of_mem hrecord
      refine ⟨.inlet ⟨index⟩, ?_⟩
      rw [Array.getElem?_toList] at hindex
      simp [portCell?, inletCell?, inlet?, hindex, hcell]
    · obtain ⟨index, hindex⟩ := List.getElem?_of_mem hrecord
      refine ⟨.outlet ⟨index⟩, ?_⟩
      rw [Array.getElem?_toList] at hindex
      simp [portCell?, outletCell?, outlet?, hindex, hcell]
  · rintro ⟨port, hport⟩
    cases port with
    | inlet inlet =>
      obtain ⟨record, hrecord, hcell⟩ := Option.bind_eq_some_iff.mp hport
      refine Or.inl ⟨record, ?_, hcell⟩
      exact Array.mem_toList_iff.mpr (Array.mem_of_getElem? hrecord)
    | outlet outlet =>
      obtain ⟨record, hrecord, hcell⟩ := Option.bind_eq_some_iff.mp hport
      refine Or.inr ⟨record, ?_, hcell⟩
      exact Array.mem_toList_iff.mpr (Array.mem_of_getElem? hrecord)

theorem nodup_eraseDups {α : Type} [DecidableEq α] : ∀ members : List α, members.eraseDups.Nodup
  | [] => by simp
  | first :: rest => by
    rw [List.eraseDups_cons, List.nodup_cons, List.mem_eraseDups]
    exact ⟨by simp, nodup_eraseDups _⟩
termination_by members => members.length
decreasing_by exact Nat.lt_succ_of_le (List.length_filter_le _ _)

/-- **Cells are counted by the ports that name them**: a cell is in use exactly when a port names
it. -/
theorem Linked.cellCount_eq {graph : Graph} (h : graph.Linked) :
    graph.cellCount = graph.mentionedCells.length := by
  refine h.sound.size_eq (nodup_eraseDups _) fun cell => ?_
  rw [mem_mentionedCells]
  constructor
  · intro hholds
    obtain ⟨record, hrecord⟩ := Option.isSome_iff_exists.mp hholds
    obtain ⟨port, hport⟩ := List.exists_mem_of_ne_nil _ (h.shared hrecord)
    exact ⟨port, (h.mem_members hrecord port).mp hport⟩
  · rintro ⟨port, hport⟩
    obtain ⟨record, hrecord⟩ := h.live hport
    exact Option.isSome_iff_exists.mpr ⟨record, hrecord⟩

end TokenNet.Graph
