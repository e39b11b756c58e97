import TokenNet.Proofs.Change.Call

/-!
# The cells of a network

However a network was built and used, its ports and its cells agree on who shares what: there is
no dangling key and no cell that nobody uses.
-/

namespace TokenNet.Network

/-- **Ports and cells agree in every network that can come about.**  A live cell lists exactly the
inlets that read it and exactly the outlets that write it, each once, and at least one of them.
Every cell that a port names is live.  So the number of cells in use is the number of different
cells that ports name. -/
theorem cells_agree_with_ports {net : Network} (h : net.Reachable) :
    (∀ cell record, net.graph.cell? cell = some record →
      (∀ inlet, inlet ∈ record.readers ↔ net.graph.inletCell? inlet = some cell) ∧
      (∀ outlet, outlet ∈ record.writers ↔ net.graph.outletCell? outlet = some cell) ∧
      record.readers.Nodup ∧ record.writers.Nodup ∧
      (record.readers ≠ [] ∨ record.writers ≠ [])) ∧
    (∀ inlet cell, net.graph.inletCell? inlet = some cell → net.graph.cells.holds cell) ∧
    (∀ outlet cell, net.graph.outletCell? outlet = some cell → net.graph.cells.holds cell) ∧
    net.graph.mentionedCells.Nodup ∧
    (∀ cell, cell ∈ net.graph.mentionedCells ↔
      (∃ inlet, net.graph.inletCell? inlet = some cell) ∨
        ∃ outlet, net.graph.outletCell? outlet = some cell) ∧
    net.graph.cellCount = net.graph.mentionedCells.length := by
  have hlinked := h.linked
  refine ⟨fun cell record hcell => ?_, ?_, ?_, Graph.nodup_eraseDups _, fun cell => ?_,
    hlinked.cellCount_eq⟩
  -- Readers and writers are the members of the cell, and each member names it
  · have hmem := hlinked.mem_members hcell
    have hnodup := Cell.nodup_members.mp (hlinked.nodup_members hcell)
    refine ⟨fun inlet => ?_, fun outlet => ?_, hnodup.1, hnodup.2, ?_⟩
    · exact Cell.inlet_mem_members.symm.trans (hmem (.inlet inlet))
    · exact Cell.outlet_mem_members.symm.trans (hmem (.outlet outlet))
    · obtain ⟨port, hport⟩ := List.exists_mem_of_ne_nil _ (hlinked.shared hcell)
      cases port with
      | inlet inlet => exact Or.inl (List.ne_nil_of_mem (Cell.inlet_mem_members.mp hport))
      | outlet outlet => exact Or.inr (List.ne_nil_of_mem (Cell.outlet_mem_members.mp hport))
  · intro inlet cell hinlet
    have hport : net.graph.portCell? (.inlet inlet) = some cell := hinlet
    exact Option.isSome_iff_exists.mpr (hlinked.live hport)
  · intro outlet cell houtlet
    have hport : net.graph.portCell? (.outlet outlet) = some cell := houtlet
    exact Option.isSome_iff_exists.mpr (hlinked.live hport)
  · rw [Graph.mem_mentionedCells]
    constructor
    · rintro ⟨inlet | outlet, hport⟩
      · exact Or.inl ⟨inlet, hport⟩
      · exact Or.inr ⟨outlet, hport⟩
    · rintro (⟨inlet, hinlet⟩ | ⟨outlet, houtlet⟩)
      · exact ⟨.inlet inlet, hinlet⟩
      · exact ⟨.outlet outlet, houtlet⟩

/-- An adder that has lost its first inlet and has run keeps two cells, one for each port left. -/
theorem cells_of_loosened_adder : ∃ built,
    Library.primitives.instantiate "+" {} = .ok built ∧
    (built.performAll [.disconnectInlet ⟨0⟩, .execute]).1.graph.cellCount = 2 ∧
    (built.performAll [.disconnectInlet ⟨0⟩, .execute]).1.graph.cellCount =
      (built.performAll [.disconnectInlet ⟨0⟩, .execute]).1.graph.mentionedCells.length := by
  refine ⟨_, rfl, rfl, ?_⟩
  exact (cells_agree_with_ports ⟨Library.primitives, "+", {}, _, _, rfl, rfl⟩).2.2.2.2.2

end TokenNet.Network
