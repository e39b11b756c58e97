import Mathlib.Data.Set.Function
import TokenNet.Proofs.Network.Alike

/-!
# Renaming cells

Two graphs of one scheme are the same graph but for the names of their cells, and for the order in
which the readers and writers of a cell and the feeds of an inlet are listed: the ports that share a
cell in the one share a cell in the other, which gives a bijection between the cells in use.

## Main statements

- `Graph.Renames`: a renaming of the cells of a graph.
- `Graph.Alike.exists_renames`: graphs of one scheme are renamed.
-/

namespace TokenNet

namespace Graph

/-- The cells that are in use. -/
def live (graph : Graph) : Set CellId :=
  {cell | ∃ record, graph.cell? cell = some record}

/-- A renaming turns one graph into another: it is a bijection between the cells in use, and apart
from it the graphs have the same nodes, ports and control edges, and up to order the same feeds,
readers and writers. -/
structure Renames (rename : CellId → CellId) (graph graph' : Graph) : Prop where
  bijective : Set.BijOn rename graph.live graph'.live
  ports : ∀ port, graph'.portCell? port = (graph.portCell? port).map rename
  cells : ∀ cell record, graph.cell? cell = some record →
    ∃ record', graph'.cell? (rename cell) = some record' ∧ record'.value = record.value ∧
      ∀ port, port ∈ record'.members ↔ port ∈ record.members
  nodes : graph'.nodes = graph.nodes
  entries : graph'.entries = graph.entries
  exits : graph'.exits = graph.exits
  inlets : graph'.inlets.map Inlet.owner = graph.inlets.map Inlet.owner
  outlets : graph'.outlets.map Outlet.owner = graph.outlets.map Outlet.owner
  wired : ∀ port, graph'.portWired port = graph.portWired port
  feeds : ∀ outer inner, inner ∈ graph'.feedsOf outer ↔ inner ∈ graph.feedsOf outer
  relays : graph'.relayOf? = graph.relayOf?

namespace Alike

variable {graph graph' : Graph}

theorem symm (h : graph.Alike graph') : graph'.Alike graph := by
  obtain ⟨scheme, hfirst, hsecond⟩ := h
  exact ⟨scheme, hsecond, hfirst⟩

theorem linked (h : graph.Alike graph') : graph.Linked := by
  obtain ⟨_, hfirst, _⟩ := h
  exact hfirst.represents.linked

/-- Ports that share a cell in one graph share a cell in the other. -/
theorem shared (h : graph.Alike graph') {port other : Port} {cell : CellId}
    (hport : graph.portCell? port = some cell) (hother : graph.portCell? other = some cell) :
    ∃ cell', graph'.portCell? port = some cell' ∧ graph'.portCell? other = some cell' := by
  obtain ⟨_, hfirst, hsecond⟩ := h
  exact hsecond.represents.shares_iff.mpr (hfirst.represents.shares_iff.mp ⟨cell, hport, hother⟩)

/-- A cell in one graph stands for one cell in the other. -/
theorem exists_name (h : graph.Alike graph') (cell : CellId) :
    ∃ name, ∀ port, graph.portCell? port = some cell → graph'.portCell? port = some name := by
  by_cases hused : ∃ port, graph.portCell? port = some cell
  · obtain ⟨port, hport⟩ := hused
    obtain ⟨name, hname, _⟩ := h.shared hport hport
    refine ⟨name, fun other hother => ?_⟩
    obtain ⟨name', hname', hother'⟩ := h.shared hport hother
    obtain rfl := Option.some.inj (hname.symm.trans hname')
    exact hother'
  · -- No port has the cell, so any name will do
    exact ⟨cell, fun port hport => absurd ⟨port, hport⟩ hused⟩

theorem exists_port (h : graph.Linked) {cell : CellId} {record : Cell}
    (hcell : graph.cell? cell = some record) : ∃ port, graph.portCell? port = some cell := by
  obtain ⟨port, hport⟩ := List.exists_mem_of_ne_nil _ (h.shared hcell)
  exact ⟨port, (h.mem_members hcell port).mp hport⟩

/-- **Graphs of one scheme are the same up to a renaming of cells.** -/
theorem exists_renames (h : graph.Alike graph') : ∃ rename, Renames rename graph graph' := by
  choose rename hrename using h.exists_name
  -- In a linked graph every cell in use has a port, so ports say all there is to say of cells
  have hlinked := h.linked
  have hlinked' := h.symm.linked
  have hports (port : Port) : graph'.portCell? port = (graph.portCell? port).map rename := by
    cases hport : graph.portCell? port with
    | some cell => exact hrename cell port hport
    | none =>
      cases hport' : graph'.portCell? port with
      | none => rfl
      | some cell =>
        obtain ⟨old, hold, _⟩ := h.symm.shared hport' hport'
        cases hport.symm.trans hold
  refine ⟨rename, ⟨?maps, ?injective, ?surjective⟩, hports, ?cells, h.nodes, h.entries, h.exits,
    ?inlets, ?outlets, h.portWired, ?feeds, h.relayOf?⟩
  -- A cell is named by one of its ports, and is renamed to what that port has in the other graph
  case maps =>
    rintro cell ⟨record, hcell⟩
    obtain ⟨port, hport⟩ := exists_port hlinked hcell
    exact hlinked'.live (hrename cell port hport)
  case injective =>
    rintro cell ⟨record, hcell⟩ other ⟨record', hother⟩ hsame
    obtain ⟨port, hport⟩ := exists_port hlinked hcell
    obtain ⟨port', hport'⟩ := exists_port hlinked hother
    have hnamed := hrename cell port hport
    rw [hsame] at hnamed
    obtain ⟨found, hfound, hfound'⟩ := h.symm.shared hnamed (hrename other port' hport')
    exact (Option.some.inj (hport.symm.trans hfound)).trans
      (Option.some.inj (hport'.symm.trans hfound')).symm
  case surjective =>
    rintro name ⟨record, hname⟩
    obtain ⟨port, hport⟩ := exists_port hlinked' hname
    obtain ⟨cell, hcell, _⟩ := h.symm.shared hport hport
    exact ⟨cell, hlinked.live hcell, Option.some.inj ((hrename cell port hcell).symm.trans hport)⟩
  -- The value and the members are those of the class of a port
  case cells =>
    intro cell record hcell
    obtain ⟨port, hport⟩ := exists_port hlinked hcell
    have hport' := hrename cell port hport
    obtain ⟨record', hcell'⟩ := hlinked'.live hport'
    have hclass := h.class? port
    rw [class?_of_cell hport' hcell', class?_of_cell hport hcell] at hclass
    have hclass := Option.some.inj hclass
    refine ⟨record', hcell', (congrArg Partition.Class.value hclass :), fun other => ?_⟩
    have hmembers := congrArg (fun found => other ∈ found.ports) hclass
    simpa only [Cell.toClass, List.mem_toFinset] using hmembers.to_iff
  -- Owners are part of the frame
  case inlets =>
    have hframe := congrArg (fun g => g.inlets.map Inlet.owner) h.frame
    simpa only [Graph.frame, Array.map_map, Inlet.frame, Function.comp_def] using hframe
  case outlets =>
    have hframe := congrArg (fun g => g.outlets.map Outlet.owner) h.frame
    simpa only [Graph.frame, Array.map_map, Outlet.frame, Function.comp_def] using hframe
  case feeds =>
    intro outer inner
    obtain ⟨_, hfirst, hsecond⟩ := h
    exact (congrFun (congrFun (hsecond.feeds.trans hfirst.feeds.symm) outer) inner).to_iff

end Alike

end Graph

namespace Network

/-- Two networks are the same up to a renaming of cells, and up to the order in which their issues
are listed and how often. -/
structure Renamed (net net' : Network) : Prop where
  graph : ∃ rename, Graph.Renames rename net.graph net'.graph
  root : net'.root = net.root
  limits : net'.limits = net.limits
  ledger : net'.ledger = net.ledger
  issues : ∀ issue, issue ∈ net'.issues ↔ issue ∈ net.issues
  runs : net'.runs = net.runs

theorem Alike.renamed {net net' : Network} (h : net.Alike net') : net.Renamed net' :=
  { h with graph := h.graph.exists_renames }

end Network

end TokenNet
