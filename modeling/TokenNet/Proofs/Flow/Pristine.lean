import TokenNet.Proofs.Flow.Keeps
import TokenNet.Proofs.Graph.Native

/-!
# Graphs before any wiring

Growth gives every data port of a native node a cell of its own, so as long as nothing has been
wired no two ports share a cell and every port shows zero.

## Main statements

- `Pristine.addNative`: a new native node keeps a graph pristine.
- `PlacedBut.addNative`: it leaves no further port without a cell.
-/

namespace TokenNet.Graph

/-- Nothing is shared and nothing was written. -/
structure Pristine (graph : Graph) : Prop where
  linked : graph.Linked
  apart : ∀ {port other cell}, graph.portCell? port = some cell →
    graph.portCell? other = some cell → other = port
  shows : ∀ port, graph.shows port = 0

/-- Every data port has a cell. -/
def Placed (graph : Graph) : Prop :=
  ∀ port, graph.HasPort port → ∃ cell, graph.portCell? port = some cell

/-- Every data port has a cell unless it is one of the loose ones. -/
def PlacedBut (graph : Graph) (loose : Port → Prop) : Prop :=
  ∀ port, graph.HasPort port → ¬ loose port → ∃ cell, graph.portCell? port = some cell

theorem placed_iff {graph : Graph} : graph.Placed ↔ graph.PlacedBut fun _ => False :=
  ⟨fun h port hport _ => h port hport, fun h port hport => h port hport not_false⟩

/-! ## Cells of ports -/

theorem shows_congr {graph graph' : Graph}
    (hport : ∀ port, graph'.portCell? port = graph.portCell? port)
    (hcells : graph'.cells = graph.cells) (port : Port) :
    graph'.shows port = graph.shows port := by
  have hvalue : graph'.cellValue? = graph.cellValue? := by
    funext cell
    unfold cellValue? cell?
    rw [hcells]
  unfold Graph.shows portValue?
  rw [hport, hvalue]

/-- Before the first port nothing is shared. -/
theorem Pristine.empty : ({} : Graph).Pristine := by
  refine ⟨.empty, fun {port other cell} hcell _ => ?_, fun port => ?_⟩
  -- A cell that a port names would be live, and there is none
  · obtain ⟨_, hrecord⟩ := Linked.empty.live hcell
    simp [Graph.cell?, Store.get?] at hrecord
  · cases port <;> rfl

/-- Being pristine concerns the cells and the cells of ports, and nothing else. -/
theorem Pristine.congr {graph graph' : Graph} (h : graph.Pristine)
    (hport : ∀ port, graph'.portCell? port = graph.portCell? port)
    (hcells : graph'.cells = graph.cells) : graph'.Pristine := by
  refine ⟨h.linked.congr hport hcells, ?_, ?_⟩
  · intro port other cell hcell hother
    rw [hport] at hcell hother
    exact h.apart hcell hother
  · intro port
    exact (shows_congr hport hcells port).trans (h.shows port)

/-- A port that gets a cell gets one that nobody shares. -/
theorem Pristine.ensure {graph : Graph} (h : graph.Pristine) {port : Port}
    (hport : graph.HasPort port) : (graph.ensure port).2.Pristine := by
  cases hcell : graph.portCell? port with
  | some cell =>
    rw [ensure_of_some hcell]
    exact h
  | none =>
    obtain ⟨hkeeps, _, hshows⟩ := (Keeps.refl h.linked).ensure hport hcell
    refine ⟨hkeeps.linked, ?_, fun other => ?_⟩
    · intro first second shared hfirst hsecond
      -- Two ports share a cell: either one of them has just got it, or both had it before.
      cases hold : graph.portCell? first with
      | none => exact hkeeps.lonely hold hfirst second hsecond
      | some own =>
        cases hold' : graph.portCell? second with
        | none => exact (hkeeps.lonely hold' hsecond first hfirst).symm
        | some own' =>
          have hown : own = shared := Option.some.inj ((hkeeps.kept hold).symm.trans hfirst)
          have hown' : own' = shared := Option.some.inj ((hkeeps.kept hold').symm.trans hsecond)
          exact h.apart (hold.trans (congrArg some hown)) (hold'.trans (congrArg some hown'))
    · rw [hshows]
      exact h.shows other

/-- If only one port more lacks a cell, it is placed once it has got one. -/
theorem PlacedBut.ensure {graph grown : Graph} {loose : Port → Prop} (h : graph.PlacedBut loose)
    (hlinked : grown.Linked) {port : Port} (hport : grown.HasPort port)
    (hports : ∀ other, grown.HasPort other → other = port ∨ graph.HasPort other)
    (hcells : ∀ other, grown.portCell? other = graph.portCell? other) :
    (grown.ensure port).2.PlacedBut loose := by
  have hbare := bare_ensure grown port
  intro other hother hfast
  cases hold : grown.portCell? other with
  | some cell =>
    cases hloose : grown.portCell? port with
    | some own =>
      rw [ensure_of_some hloose]
      exact ⟨cell, hold⟩
    | none => exact ⟨cell, ((Keeps.refl hlinked).ensure hport hloose).1.kept hold⟩
  | none =>
    have hin : grown.HasPort other := (Extends.of_bare_eq hbare.symm).hasPort hother
    -- Either it is the new port, which gets a cell now, or it had one all along
    rcases hports other hin with rfl | hbefore
    · exact ⟨_, ((Keeps.refl hlinked).ensure hport hold).2.1⟩
    · obtain ⟨cell, hcell⟩ := h other hbefore hfast
      rw [hcells, hcell] at hold
      cases hold

/-! ## Single ports -/

theorem Pristine.addOwnInlet {graph : Graph} (h : graph.Pristine) (owner : NodeId) :
    (addOwnInlet owner graph).2.Pristine := by
  rw [addOwnInlet_eq]
  exact (h.congr (portCell?_addInlet graph owner) rfl).ensure (hasPort_addInlet graph owner)

theorem Pristine.addOwnOutlet {graph : Graph} (h : graph.Pristine) (owner : NodeId) :
    (graph.addOwnOutlet owner).2.Pristine := by
  rw [addOwnOutlet_eq]
  exact (h.congr (portCell?_addOutlet graph owner) rfl).ensure (hasPort_addOutlet graph owner)

theorem PlacedBut.addOwnInlet {graph : Graph} {loose : Port → Prop} (h : graph.PlacedBut loose)
    (hlinked : graph.Linked) (owner : NodeId) :
    (Graph.addOwnInlet owner graph).2.PlacedBut loose := by
  rw [addOwnInlet_eq]
  refine h.ensure (hlinked.addInlet owner) (hasPort_addInlet graph owner) (fun other hother => ?_)
    (portCell?_addInlet graph owner)
  -- Of the ports that are there now only the last input is new
  cases other with
  | outlet outlet => exact .inr hother
  | inlet inlet =>
    have hlt : inlet.index < graph.inlets.size + 1 := by
      simpa [HasPort, addInlet] using hother
    rcases Nat.lt_succ_iff_lt_or_eq.mp hlt with hold | hnew
    · exact .inr hold
    · exact .inl (congrArg (fun index => Port.inlet ⟨index⟩) hnew)

theorem PlacedBut.addOwnOutlet {graph : Graph} {loose : Port → Prop} (h : graph.PlacedBut loose)
    (hlinked : graph.Linked) (owner : NodeId) :
    (graph.addOwnOutlet owner).2.PlacedBut loose := by
  rw [addOwnOutlet_eq]
  refine h.ensure (hlinked.addOutlet owner) (hasPort_addOutlet graph owner)
    (fun other hother => ?_) (portCell?_addOutlet graph owner)
  -- Of the ports that are there now only the last output is new
  cases other with
  | inlet inlet => exact .inr hother
  | outlet outlet =>
    have hlt : outlet.index < graph.outlets.size + 1 := by
      simpa [HasPort, addOutlet] using hother
    rcases Nat.lt_succ_iff_lt_or_eq.mp hlt with hold | hnew
    · exact .inr hold
    · exact .inl (congrArg (fun index => Port.outlet ⟨index⟩) hnew)

theorem Placed.addOwnOutlet {graph : Graph} (h : graph.Placed) (hlinked : graph.Linked)
    (owner : NodeId) : (graph.addOwnOutlet owner).2.Placed :=
  placed_iff.mpr ((placed_iff.mp h).addOwnOutlet hlinked owner)

/-! ## Whole nodes -/

/-- A change that keeps the data ports and their cells. -/
structure SamePorts (graph graph' : Graph) : Prop where
  ports : ∀ port, graph'.HasPort port → graph.HasPort port
  portCell? : ∀ port, graph'.portCell? port = graph.portCell? port
  cells : graph'.cells = graph.cells

namespace SamePorts

variable {graph graph' : Graph}

theorem of_eq (hin : graph'.inlets = graph.inlets) (hout : graph'.outlets = graph.outlets)
    (hcells : graph'.cells = graph.cells) : graph.SamePorts graph' := by
  refine ⟨fun port hport => ?_, fun port => ?_, hcells⟩
  · cases port with
    | inlet inlet => exact hport.trans_eq (congrArg Array.size hin)
    | outlet outlet => exact hport.trans_eq (congrArg Array.size hout)
  · cases port with
    | inlet inlet => simp only [Graph.portCell?, inletCell?, inlet?, hin]
    | outlet outlet => simp only [Graph.portCell?, outletCell?, outlet?, hout]

theorem modifyInlet (graph : Graph) (inlet : InletId) {change : Inlet → Inlet}
    (h : ∀ record, (change record).cell = record.cell) :
    graph.SamePorts (graph.modifyInlet inlet change) := by
  refine ⟨fun port hport => ?_, portCell?_modifyInlet_of_cell_eq graph inlet h, rfl⟩
  cases port with
  | inlet other => simpa [HasPort, Graph.modifyInlet] using hport
  | outlet other => exact hport

theorem modifyOutlet (graph : Graph) (outlet : OutletId) {change : Outlet → Outlet}
    (h : ∀ record, (change record).cell = record.cell) :
    graph.SamePorts (graph.modifyOutlet outlet change) := by
  refine ⟨fun port hport => ?_, portCell?_modifyOutlet_of_cell_eq graph outlet h, rfl⟩
  cases port with
  | inlet other => exact hport
  | outlet other => simpa [HasPort, Graph.modifyOutlet] using hport

theorem markInlet (graph : Graph) (inlet : InletId) :
    graph.SamePorts (graph.markInlet inlet) :=
  .modifyInlet graph inlet fun _ => rfl

theorem markOutlet (graph : Graph) (outlet : OutletId) :
    graph.SamePorts (graph.markOutlet outlet) :=
  .modifyOutlet graph outlet fun _ => rfl

theorem trans {graph'' : Graph} (h : graph.SamePorts graph') (h' : graph'.SamePorts graph'') :
    graph.SamePorts graph'' where
  ports port hport := h.ports port (h'.ports port hport)
  portCell? port := (h'.portCell? port).trans (h.portCell? port)
  cells := h'.cells.trans h.cells

/-- Feeding an inlet that has a cell moves no port. -/
theorem feed {outer inner : InletId} {cell : CellId}
    (h : graph.portCell? (.inlet inner) = some cell) :
    graph.SamePorts (graph.feed outer inner) := by
  have hensure : (graph.ensureInletCell inner).2 = graph :=
    congrArg Prod.snd (ensure_of_some h : graph.ensure (.inlet inner) = (cell, graph))
  unfold Graph.feed
  dsimp only
  rw [hensure]
  refine trans ?_ (markInlet _ inner)
  exact modifyInlet graph outer fun _ => rfl

/-- Relaying to an outlet that has a cell moves no port. -/
theorem relay {outer inner : OutletId} {cell : CellId}
    (h : graph.portCell? (.outlet outer) = some cell) :
    graph.SamePorts (graph.relay outer inner) := by
  have hensure : (graph.ensureOutletCell outer).2 = graph :=
    congrArg Prod.snd (ensure_of_some h : graph.ensure (.outlet outer) = (cell, graph))
  unfold Graph.relay
  dsimp only
  rw [hensure]
  refine trans ?_ (markOutlet _ outer)
  exact modifyOutlet graph inner fun _ => rfl

theorem shows (h : graph.SamePorts graph') (port : Port) :
    graph'.shows port = graph.shows port :=
  shows_congr h.portCell? h.cells port

theorem pristine (h : graph.SamePorts graph') (hpristine : graph.Pristine) : graph'.Pristine :=
  hpristine.congr h.portCell? h.cells

theorem placedBut (h : graph.SamePorts graph') {loose : Port → Prop}
    (hplaced : graph.PlacedBut loose) : graph'.PlacedBut loose := by
  intro port hport hfast
  rw [h.portCell?]
  exact hplaced port (h.ports port hport) hfast

theorem placed (h : graph.SamePorts graph') (hplaced : graph.Placed) : graph'.Placed :=
  placed_iff.mpr (h.placedBut (placed_iff.mp hplaced))

end SamePorts

/-- **A native node shares nothing with others when it is made.** -/
theorem Pristine.addNative {graph : Graph} (h : graph.Pristine) (primitive : Primitive)
    (specification : String) (traced : Bool) :
    (graph.addNative primitive specification traced).2.Pristine :=
  addNative_induction (fun _ owner hg => hg.addOwnInlet owner)
    (fun _ owner hg => hg.addOwnOutlet owner)
    (fun g outlet hg => (SamePorts.markOutlet g outlet).pristine hg)
    (fun _ _ hin hout hcells hg => (SamePorts.of_eq hin hout hcells).pristine hg) h
    primitive specification traced

/-- Every port of a native node has a cell from the start. -/
theorem PlacedBut.addNative {graph : Graph} {loose : Port → Prop} (h : graph.PlacedBut loose)
    (hlinked : graph.Linked) (primitive : Primitive) (specification : String) (traced : Bool) :
    (graph.addNative primitive specification traced).2.PlacedBut loose :=
  (addNative_induction (P := fun g => g.Linked ∧ g.PlacedBut loose)
    (fun _ owner hg => ⟨hg.1.addOwnInlet owner, hg.2.addOwnInlet hg.1 owner⟩)
    (fun _ owner hg => ⟨hg.1.addOwnOutlet owner, hg.2.addOwnOutlet hg.1 owner⟩)
    (fun g outlet hg => ⟨hg.1.markOutlet outlet, (SamePorts.markOutlet g outlet).placedBut hg.2⟩)
    (fun _ _ hin hout hcells hg =>
      ⟨hg.1.of_ports_eq hin hout hcells, (SamePorts.of_eq hin hout hcells).placedBut hg.2⟩)
    ⟨hlinked, h⟩ primitive specification traced).2

theorem Placed.addNative {graph : Graph} (h : graph.Placed) (hlinked : graph.Linked)
    (primitive : Primitive) (specification : String) (traced : Bool) :
    (graph.addNative primitive specification traced).2.Placed :=
  placed_iff.mpr ((placed_iff.mp h).addNative hlinked primitive specification traced)

end TokenNet.Graph
