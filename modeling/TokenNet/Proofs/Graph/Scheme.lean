import Mathlib.Logic.Function.Basic
import TokenNet.Proofs.Graph.Grouping

/-!
# Schemes of graphs

The scheme of a graph is what is left of it when cells are forgotten and so is the order in which
anything is listed: who has which ports and where exits lead, which inlet feeds which, which outlet
is relayed where, and the partition of the data ports.  Every change of a graph is a change of its
scheme, so two graphs of one scheme can be told apart by their cells only.

## Main statements

- `Scheme`, `Graph.HasScheme`: schemes, and the scheme of a graph.
- `Graph.HasScheme.write`, `Graph.HasScheme.connect`, `Graph.HasScheme.feed`,
  `Graph.HasScheme.relay`: what writes and wirings do to the scheme.
- `Graph.HasScheme.addNative`, `Graph.HasScheme.addComposite`: what new nodes do to it.
-/

namespace TokenNet

/-! ## Frames -/

/-- An inlet of which only its owner is known. -/
def Inlet.frame (record : Inlet) : Inlet := { owner := record.owner }

/-- An outlet of which only its owner is known. -/
def Outlet.frame (record : Outlet) : Outlet := { owner := record.owner }

namespace Graph

/-- A graph of whose data ports only the owners are known. -/
def frame (graph : Graph) : Graph :=
  { graph with
    inlets := graph.inlets.map Inlet.frame
    outlets := graph.outlets.map Outlet.frame
    cells := {} }

variable {graph graph' : Graph}

theorem frame_bare (graph : Graph) : graph.bare.frame = graph.frame := by
  simp only [frame, bare, Array.map_map]
  rfl

theorem frame_of_bare_eq (h : graph'.bare = graph.bare) : graph'.frame = graph.frame := by
  rw [← frame_bare, h, frame_bare]

theorem frame_modifyInlet (graph : Graph) (inlet : InletId) {change : Inlet → Inlet}
    (h : ∀ record, (change record).owner = record.owner) :
    (graph.modifyInlet inlet change).frame = graph.frame :=
  congrArg (fun inlets => ({ graph.frame with inlets } : Graph))
    (map_modify_eq graph.inlets inlet.index fun record =>
      congrArg (Inlet.mk · false none []) (h record))

theorem frame_modifyOutlet (graph : Graph) (outlet : OutletId) {change : Outlet → Outlet}
    (h : ∀ record, (change record).owner = record.owner) :
    (graph.modifyOutlet outlet change).frame = graph.frame :=
  congrArg (fun outlets => ({ graph.frame with outlets } : Graph))
    (map_modify_eq graph.outlets outlet.index fun record =>
      congrArg (Outlet.mk · false none none) (h record))

theorem frame_markInlet (graph : Graph) (inlet : InletId) :
    (graph.markInlet inlet).frame = graph.frame :=
  frame_modifyInlet graph inlet fun _ => rfl

theorem frame_markOutlet (graph : Graph) (outlet : OutletId) :
    (graph.markOutlet outlet).frame = graph.frame :=
  frame_modifyOutlet graph outlet fun _ => rfl

theorem frame_connect (graph : Graph) (inlet : InletId) (outlet : OutletId) :
    (graph.connect inlet outlet).frame = graph.frame := by
  rw [connect, frame_markInlet, frame_of_bare_eq (bare_unite graph inlet outlet)]

theorem frame_feed (graph : Graph) (outer inner : InletId) :
    (graph.feed outer inner).frame = graph.frame := by
  rw [← frame_of_bare_eq (bare_ensure graph (.inlet inner))]
  exact (frame_markInlet _ inner).trans (frame_modifyInlet _ outer fun _ => rfl)

theorem frame_relay (graph : Graph) (outer inner : OutletId) :
    (graph.relay outer inner).frame = graph.frame := by
  rw [← frame_of_bare_eq (bare_ensure graph (.outlet outer))]
  exact (frame_markOutlet _ outer).trans (frame_modifyOutlet _ inner fun _ => rfl)

section

variable (graph : Graph) (specification : String) (traced : Bool)

theorem frame_addNative (primitive : Primitive) :
    (graph.addNative primitive specification traced).2.frame =
      (graph.frame.addNative primitive specification traced).2.frame := by
  rw [← frame_bare, bare_addNative, ← frame_bare (graph.frame.addNative _ _ _).2, bare_addNative]
  simp only [frame, bare, nativePorts, Array.size_map, Array.map_append, Array.map_push,
    Array.map_map]
  rfl

theorem frame_addComposite (inletCount exitCount : Nat) :
    (graph.addComposite specification inletCount exitCount traced).2.frame =
      (graph.frame.addComposite specification inletCount exitCount traced).2.frame := by
  rw [← frame_bare, bare_addComposite, ← frame_bare (graph.frame.addComposite _ _ _ _).2,
    bare_addComposite]
  simp only [frame, bare, compositePorts, Array.size_map, Array.map_append, Array.map_push,
    Array.map_map]
  rfl

end

/-! ## Relays -/

theorem relayOf?_of_bare_eq (h : graph'.bare = graph.bare) : graph'.relayOf? = graph.relayOf? := by
  rw [← relayOf?_bare, h, relayOf?_bare]

theorem relayOf?_modifyOutlet (graph : Graph) (outlet : OutletId) {change : Outlet → Outlet}
    (h : ∀ record, (change record).relay = record.relay) :
    (graph.modifyOutlet outlet change).relayOf? = graph.relayOf? := by
  funext other
  unfold relayOf?
  rw [outlet?_modifyOutlet]
  split
  · rw [Option.bind_map]
    exact congrArg (Option.bind _) (funext h)
  · rfl

theorem relayOf?_connect (graph : Graph) (inlet : InletId) (outlet : OutletId) :
    (graph.connect inlet outlet).relayOf? = graph.relayOf? := by
  rw [← relayOf?_of_bare_eq (bare_unite graph inlet outlet)]
  rfl

theorem relayOf?_feed (graph : Graph) (outer inner : InletId) :
    (graph.feed outer inner).relayOf? = graph.relayOf? := by
  rw [← relayOf?_of_bare_eq (bare_ensure graph (.inlet inner))]
  rfl

theorem relayOf?_relay {outer inner : OutletId} (h : graph.HasPort (.outlet inner)) :
    (graph.relay outer inner).relayOf? = Function.update graph.relayOf? inner (some outer) := by
  have hbare := bare_ensure graph (.outlet outer)
  have hkept := (Extends.of_bare_eq hbare).hasPort h
  obtain ⟨record, hrecord⟩ := Option.isSome_iff_exists.mp (outlet?_isSome.mpr hkept)
  let change (record : Outlet) : Outlet := { record with relay := some outer }
  -- The relay is written into the inner output, and marking the outer one keeps it
  have hmark : (graph.relay outer inner).relayOf? =
      ((graph.ensure (.outlet outer)).2.modifyOutlet inner change).relayOf? :=
    relayOf?_modifyOutlet _ outer fun _ => rfl
  rw [hmark, ← relayOf?_of_bare_eq hbare]
  funext other
  unfold relayOf?
  rw [outlet?_modifyOutlet, Function.update_apply]
  split
  next hsame => rw [hsame, hrecord]; rfl
  next => rfl

end Graph

/-! ## Schemes -/

/-- What of a graph does not depend on cells or on the order in which anything is listed. -/
@[ext] structure Scheme where
  frame : Graph
  feeds : InletId → InletId → Prop
  relay? : OutletId → Option OutletId
  partition : Partition

namespace Scheme

/-- Changes the partition. -/
def regroup (scheme : Scheme) (change : Partition → Partition) : Scheme :=
  { scheme with partition := change scheme.partition }

/-- Writes a port and whatever the write flows to. -/
noncomputable def write (scheme : Scheme) (port : Port) (value : Value) : Scheme :=
  scheme.regroup fun partition =>
    (partition.settle port).write ((partition.settle port).Flows scheme.feeds port) value

/-- Lets an inlet feed another. -/
def feed (scheme : Scheme) (outer inner : InletId) : Scheme where
  frame := scheme.frame
  feeds giver taker := scheme.feeds giver taker ∨ giver = outer ∧ taker = inner
  relay? := scheme.relay?
  partition := (scheme.partition.settle (.inlet inner)).mark (.inlet inner)

/-- Relays an outlet to another. -/
def relay (scheme : Scheme) (outer inner : OutletId) : Scheme where
  frame := scheme.frame
  feeds := scheme.feeds
  relay? := Function.update scheme.relay? inner (some outer)
  partition := (scheme.partition.settle (.outlet outer)).mark (.outlet outer)

end Scheme

namespace Graph

/-- A graph has a scheme. -/
structure HasScheme (graph : Graph) (scheme : Scheme) : Prop where
  frame : graph.frame = scheme.frame
  feeds : graph.Feeds = scheme.feeds
  relay? : graph.relayOf? = scheme.relay?
  represents : graph.Represents scheme.partition

/-- The scheme of a graph with a given partition. -/
theorem Represents.hasScheme {graph : Graph} {partition : Partition}
    (h : graph.Represents partition) :
    graph.HasScheme ⟨graph.frame, graph.Feeds, graph.relayOf?, partition⟩ :=
  ⟨rfl, rfl, rfl, h⟩

namespace HasScheme

variable {graph graph' : Graph} {scheme : Scheme}

/-! ### Changes of cells -/

/-- Without its cells a graph has the same scheme but for the partition. -/
theorem regroup (h : graph.HasScheme scheme) (hbare : graph'.bare = graph.bare)
    {change : Partition → Partition} (hrep : graph'.Represents (change scheme.partition)) :
    graph'.HasScheme (scheme.regroup change) where
  frame := (frame_of_bare_eq hbare).trans h.frame
  feeds := (feeds_of_bare_eq hbare).trans h.feeds
  relay? := (relayOf?_of_bare_eq hbare).trans h.relay?
  represents := hrep

theorem write (h : graph.HasScheme scheme) {port : Port} (hport : graph.HasPort port)
    (value : Value) : ((graph.ensure port).2.setValue (graph.ensure port).1 value).HasScheme
      (scheme.write port value) := by
  have hbare := bare_write graph port value
  have hrep := h.represents.write hport value
  rw [h.feeds] at hrep
  exact h.regroup hbare hrep

theorem detach (h : graph.HasScheme scheme) (port : Port) :
    (graph.detach port).HasScheme (scheme.regroup fun partition => partition.leave port) :=
  h.regroup (bare_detach graph port) (h.represents.detach port)

/-! ### Wirings -/

theorem connect (h : graph.HasScheme scheme) {inlet : InletId} {outlet : OutletId}
    (hinlet : graph.HasPort (.inlet inlet)) (houtlet : graph.HasPort (.outlet outlet)) :
    (graph.connect inlet outlet).HasScheme
      (scheme.regroup fun partition => partition.join inlet outlet) where
  frame := (frame_connect graph inlet outlet).trans h.frame
  feeds := (feeds_connect graph inlet outlet).trans h.feeds
  relay? := (relayOf?_connect graph inlet outlet).trans h.relay?
  represents := h.represents.connect hinlet houtlet

theorem feed (h : graph.HasScheme scheme) {outer inner : InletId}
    (houter : graph.HasPort (.inlet outer)) (hinner : graph.HasPort (.inlet inner)) :
    (graph.feed outer inner).HasScheme (scheme.feed outer inner) where
  frame := (frame_feed graph outer inner).trans h.frame
  feeds := by
    funext giver taker
    rw [eq_iff_iff, feeds_feed houter, h.feeds]
    rfl
  relay? := (relayOf?_feed graph outer inner).trans h.relay?
  represents := h.represents.feed outer hinner

theorem relay (h : graph.HasScheme scheme) {outer inner : OutletId}
    (houter : graph.HasPort (.outlet outer)) (hinner : graph.HasPort (.outlet inner)) :
    (graph.relay outer inner).HasScheme (scheme.relay outer inner) where
  frame := (frame_relay graph outer inner).trans h.frame
  feeds := (feeds_relay graph outer inner).trans h.feeds
  relay? := by
    rw [relayOf?_relay hinner, h.relay?]
    rfl
  represents := h.represents.relay inner houter

/-! ### Changes of the frame -/

/-- A change that leaves data ports and cells alone. -/
theorem reframe (h : graph.HasScheme scheme) {frame : Graph} (hframe : graph'.frame = frame)
    (hin : graph'.inlets = graph.inlets) (hout : graph'.outlets = graph.outlets)
    (hcells : graph'.cells = graph.cells) : graph'.HasScheme { scheme with frame } where
  frame := hframe
  feeds := by
    refine Eq.trans ?_ h.feeds
    unfold Feeds feedsOf inlet?
    rw [hin]
  relay? := by
    refine Eq.trans ?_ h.relay?
    unfold relayOf? outlet?
    rw [hout]
  represents := h.represents.of_ports_eq hin hout hcells

theorem renode (h : graph.HasScheme scheme) (change : Array Node → Array Node) :
    { graph with nodes := change graph.nodes }.HasScheme
      { scheme with frame := { scheme.frame with nodes := change scheme.frame.nodes } } :=
  h.reframe (congrArg (fun frame : Graph => { frame with nodes := change frame.nodes }) h.frame)
    rfl rfl rfl

theorem setTarget (h : graph.HasScheme scheme) (exit : ExitId) (target : Option EntryId) :
    (graph.setTarget exit target).HasScheme
      { scheme with frame := scheme.frame.setTarget exit target } :=
  h.reframe (congrArg (fun frame => frame.setTarget exit target) h.frame) rfl rfl rfl

/-! ### New nodes -/

variable (specification : String) (traced : Bool)

theorem addNative (h : graph.HasScheme scheme) (primitive : Primitive) :
    (graph.addNative primitive specification traced).2.HasScheme { scheme with
      frame := (scheme.frame.addNative primitive specification traced).2.frame
      partition := scheme.frame.settleNative primitive scheme.partition } where
  frame := by rw [frame_addNative, h.frame]
  feeds := by
    rw [← h.feeds]
    unfold Feeds
    rw [(graph.raises_addNative specification traced primitive).feeds]
  relay? := (graph.raises_addNative specification traced primitive).relay.trans h.relay?
  represents := by
    rw [← h.frame]
    -- Which ports are settled is read off the number of ports
    have hsettled : graph.frame.settleNative primitive scheme.partition =
        graph.settleNative primitive scheme.partition := by
      simp only [settleNative, Graph.frame, Array.size_map]
    rw [hsettled]
    exact h.represents.addNative primitive specification traced

theorem addComposite (h : graph.HasScheme scheme) (inletCount exitCount : Nat) :
    (graph.addComposite specification inletCount exitCount traced).2.HasScheme { scheme with
      frame := (scheme.frame.addComposite specification inletCount exitCount traced).2.frame
      partition := scheme.partition.settle (.outlet ⟨scheme.frame.outlets.size⟩) } where
  frame := by rw [frame_addComposite, h.frame]
  feeds := by
    rw [← h.feeds]
    unfold Feeds
    rw [(graph.raises_addComposite specification traced inletCount exitCount).feeds]
  relay? :=
    (graph.raises_addComposite specification traced inletCount exitCount).relay.trans h.relay?
  -- The only cell of a composite is that of its output
  represents := by
    have hsize : graph.outlets.size = scheme.frame.outlets.size := by
      rw [← h.frame, Graph.frame, Array.size_map]
    rw [← hsize]
    exact h.represents.addComposite specification inletCount exitCount traced

end HasScheme

end Graph

end TokenNet
