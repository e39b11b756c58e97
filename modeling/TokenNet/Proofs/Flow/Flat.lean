import TokenNet.Proofs.Flow.Values
import TokenNet.Proofs.Graph.Native

/-!
# Flat graphs

A graph is flat when nothing is handed on between its levels: no inlet feeds another and no outlet
is relayed.  Native nodes keep a graph flat, and in a flat graph a write changes one cell.

## Main statements

- `Flat.addNative`: a new native node keeps a graph flat.
- `Flat.mem_reached`: a write reaches no further than its cell.
- `Flat.writeOutlet_eq`: the write of an outlet writes its cell.
-/

namespace TokenNet.Graph

/-- No inlet feeds another, and no outlet is relayed. -/
structure Flat (graph : Graph) : Prop where
  feeds : ∀ record ∈ graph.inlets, record.feeds = []
  relay : ∀ record ∈ graph.outlets, record.relay = none

theorem Flat.of_eq {graph graph' : Graph} (h : graph.Flat) (hin : graph'.inlets = graph.inlets)
    (hout : graph'.outlets = graph.outlets) : graph'.Flat :=
  ⟨hin ▸ h.feeds, hout ▸ h.relay⟩

theorem Flat.of_sprouts {graph graph' : Graph} (h : graph.Flat) (hsprouts : graph.Sprouts graph') :
    graph'.Flat := by
  refine ⟨fun record hrecord => ?_, fun record hrecord => ?_⟩
  · rw [List.eq_nil_iff_forall_not_mem]
    -- New ports feed and relay nothing, so a feed would have been there before
    intro inner hinner
    obtain ⟨old, hold, hmem⟩ := hsprouts.feeds record hrecord inner hinner
    rw [h.feeds old hold] at hmem
    cases hmem
  · rw [Option.eq_none_iff_forall_ne_some]
    intro outer houter
    obtain ⟨old, hold, hrelay⟩ := hsprouts.relays record hrecord outer houter
    rw [h.relay old hold] at hrelay
    cases hrelay

theorem Flat.addNative {graph : Graph} (h : graph.Flat) (primitive : Primitive)
    (specification : String) (traced : Bool) :
    (graph.addNative primitive specification traced).2.Flat :=
  addNative_induction (fun g owner hg => hg.of_sprouts (.addOwnInlet owner g))
    (fun g owner hg => hg.of_sprouts (.addOwnOutlet owner g))
    (fun g outlet hg => hg.of_sprouts (.markOutlet g outlet))
    (fun _ _ hin hout _ hg => hg.of_eq hin hout) h primitive specification traced

/-! ## Writes -/

/-- In a flat graph a write reaches no further than its cell. -/
theorem Flat.mem_reached {graph : Graph} (h : graph.Flat) (hlinked : graph.Linked)
    {cell other : CellId} : other ∈ graph.reached cell ↔ other = cell := by
  rw [hlinked.mem_reached]
  constructor
  · intro hpath
    -- A path with a first step would need an inlet that feeds another
    rcases hpath.cases_head with hsame | ⟨_, ⟨inlet, _, hfed⟩, _⟩
    · exact hsame.symm
    · obtain ⟨record, hrecord, inner, hinner, _⟩ := mem_fedCells.mp hfed
      rw [h.feeds record (Array.mem_of_getElem? hrecord)] at hinner
      cases hinner
  · rintro rfl
    exact .refl

theorem Flat.relayChain {graph : Graph} (h : graph.Flat) (outlet : OutletId) :
    graph.relayChain outlet = [outlet] := by
  have hrelay : (graph.outlet? outlet).bind Outlet.relay = none := by
    rw [Option.bind_eq_none_iff]
    intro record hrecord
    exact h.relay record (Array.mem_of_getElem? hrecord)
  unfold Graph.relayChain
  cases graph.outlets.size with
  | zero => rfl
  | succ bound =>
    unfold Graph.relays
    rw [hrelay]

/-- In a flat graph a write of an outlet writes its cell. -/
theorem Flat.writeOutlet_eq {graph : Graph} (h : graph.Flat) {outlet : OutletId} {cell : CellId}
    (hcell : graph.outletCell? outlet = some cell) (value : Value) :
    graph.writeOutlet outlet value = graph.writeCells (graph.reached cell) value := by
  rw [← writeOwnOutlet_eq hcell]
  have hchain := h.relayChain outlet
  unfold Graph.relayChain at hchain
  unfold writeOutlet
  rw [hchain]
  rfl

end TokenNet.Graph
