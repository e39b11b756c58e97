import Mathlib.Logic.Relation
import TokenNet.Proofs.Graph.Growth

/-!
# Changes of a graph

Whatever happens to a graph, while it is built and while it is used, is a sequence of a few kinds
of changes.  Each kind says what may be relied on when it happens, above all that the handles it
is given are issued.  A property that every kind of change keeps is then kept by all builds, all
calls and all runs.

## Main statements

- `Change`, `Use`, `Move`: the kinds of changes, those that occur while a graph is used, and those
  that occur while it runs.
- `Change.linked`, `Change.closed`, `Change.extends`: every change keeps a graph linked and closed,
  and keeps its handles.
- `Leads.linked`, `Leads.closed`: so does every sequence of changes.
-/

namespace TokenNet

/-! ## What a node remembers -/

namespace Node

/-- A node without what it remembers: its register, its counted calls, and whether it is traced. -/
def form (record : Node) : Node :=
  { record.modifyInterface fun ports => { ports with register := 0, calls := 0 } with
    traced := false }

@[simp] theorem acts_form (record : Node) : record.form.acts = record.acts := by
  obtain ⟨_, _, _, _, kind⟩ := record
  cases kind <;> rfl

@[simp] theorem isJoin_form (record : Node) : record.form.isJoin = record.isJoin := by
  obtain ⟨_, _, _, _, kind⟩ := record
  cases kind <;> rfl

/-- A change of what an interface shows and counts does not change the form of its node. -/
theorem form_modifyInterface {change : Interface → Interface}
    (hchange : ∀ ports, { change ports with register := 0, calls := 0 } =
      { ports with register := 0, calls := 0 }) (record : Node) :
    (record.modifyInterface change).form = record.form := by
  obtain ⟨_, _, _, _, kind⟩ := record
  cases kind <;> simp [form, modifyInterface, hchange]

end Node

namespace Graph

theorem knowsNode_form {graph : Graph} {record : Node} :
    graph.KnowsNode record.form ↔ graph.KnowsNode record := by
  obtain ⟨_, _, _, _, kind⟩ := record
  cases kind with
  | native primitive ports =>
    exact ⟨fun h => ⟨{ h.1 with }, h.2⟩, fun h => ⟨{ h.1 with }, h.2⟩⟩
  | composite ports parts =>
    exact ⟨fun h => ⟨{ h.1 with }, h.2⟩, fun h => ⟨{ h.1 with }, h.2⟩⟩
  | join entry exit => exact Iff.rfl

/-! ## Changes -/

/-- One change of a graph. -/
inductive Change : Graph → Graph → Prop where
  /-- A native node is added. -/
  | native (graph : Graph) (primitive : Primitive) (specification : String) (traced : Bool) :
      Change graph (graph.addNative primitive specification traced).2
  /-- A composite is added. -/
  | composite (graph : Graph) (specification : String) (inletCount exitCount : Nat)
      (traced : Bool) :
      Change graph (graph.addComposite specification inletCount exitCount traced).2
  /-- A part gets its place. -/
  | adopt (graph : Graph) (composite : NodeId) (role : String) {part : NodeId}
      (hpart : graph.Hosts part) : Change graph (graph.adopt composite role part)
  /-- A port gets a cell. -/
  | ensure (graph : Graph) {port : Port} (hport : graph.HasPort port) :
      Change graph (graph.ensure port).2
  /-- A value is written. -/
  | setValue (graph : Graph) (cell : CellId) (value : Value) :
      Change graph (graph.setValue cell value)
  /-- An outlet is wired into an inlet. -/
  | connect (graph : Graph) {inlet : InletId} {outlet : OutletId}
      (hinlet : graph.HasPort (.inlet inlet)) (houtlet : graph.HasPort (.outlet outlet)) :
      Change graph (graph.connect inlet outlet)
  /-- A port leaves its class. -/
  | detach (graph : Graph) (port : Port) : Change graph (graph.detach port)
  /-- An inlet comes to feed another. -/
  | feed (graph : Graph) (outer : InletId) {inner : InletId}
      (hinner : graph.HasPort (.inlet inner)) : Change graph (graph.feed outer inner)
  /-- An outlet is relayed to another. -/
  | relay (graph : Graph) {outer : OutletId} (inner : OutletId)
      (houter : graph.HasPort (.outlet outer)) : Change graph (graph.relay outer inner)
  /-- An exit gets or loses its target. -/
  | target (graph : Graph) (exit : ExitId) {target : Option EntryId}
      (htarget : ∀ entry, target = some entry → graph.HasEntry entry) :
      Change graph (graph.setTarget exit target)
  /-- A composite exposes an entry. -/
  | entry (graph : Graph) (composite : NodeId) {entry : EntryId} (hentry : graph.HasEntry entry) :
      Change graph (graph.setEntry composite entry)
  /-- Nodes remember something else. -/
  | remember (graph : Graph) {nodes : Array Node}
      (hnodes : nodes.map Node.form = graph.nodes.map Node.form) :
      Change graph { graph with nodes }

/-- A sequence of changes. -/
abbrev Leads : Graph → Graph → Prop :=
  Relation.ReflTransGen Change

/-- One change of a graph during a run. -/
inductive Move : Graph → Graph → Prop where
  /-- A node writes its outlet, or that of a composite to which it is relayed. -/
  | emit (graph : Graph) {outlet : OutletId} (houtlet : graph.HasPort (.outlet outlet))
      (value : Value) : Move graph (graph.writeOwnOutlet outlet value)
  /-- Nodes remember something else. -/
  | remember (graph : Graph) {nodes : Array Node}
      (hnodes : nodes.map Node.form = graph.nodes.map Node.form) :
      Move graph { graph with nodes }

/-- A sequence of changes of a graph during a run. -/
abbrev Moves : Graph → Graph → Prop :=
  Relation.ReflTransGen Move

/-- One change of a graph in use: no nodes are added, none takes a place, and nothing is fed,
relayed, directed or exposed. -/
inductive Use : Graph → Graph → Prop where
  /-- A port gets a cell. -/
  | ensure (graph : Graph) {port : Port} (hport : graph.HasPort port) :
      Use graph (graph.ensure port).2
  /-- A value is written. -/
  | setValue (graph : Graph) (cell : CellId) (value : Value) :
      Use graph (graph.setValue cell value)
  /-- An outlet is wired into an inlet. -/
  | connect (graph : Graph) {inlet : InletId} {outlet : OutletId}
      (hinlet : graph.HasPort (.inlet inlet)) (houtlet : graph.HasPort (.outlet outlet)) :
      Use graph (graph.connect inlet outlet)
  /-- A port leaves its class. -/
  | detach (graph : Graph) (port : Port) : Use graph (graph.detach port)
  /-- Nodes remember something else. -/
  | remember (graph : Graph) {nodes : Array Node}
      (hnodes : nodes.map Node.form = graph.nodes.map Node.form) :
      Use graph { graph with nodes }

/-- A sequence of changes of a graph in use. -/
abbrev Uses : Graph → Graph → Prop :=
  Relation.ReflTransGen Use

theorem Use.change {graph graph' : Graph} (h : Use graph graph') : Change graph graph' := by
  cases h with
  | ensure hport => exact .ensure graph hport
  | setValue cell value => exact .setValue graph cell value
  | connect hinlet houtlet => exact .connect graph hinlet houtlet
  | detach port => exact .detach graph port
  | remember hnodes => exact .remember graph hnodes

/-- Writing a port is giving it a cell and then writing the cell. -/
theorem uses_write (graph : Graph) {port : Port} (hport : graph.HasPort port) (value : Value) :
    graph.Uses ((graph.ensure port).2.setValue (graph.ensure port).1 value) :=
  .tail (.single (.ensure graph hport)) (.setValue _ _ value)

theorem Move.uses {graph graph' : Graph} (h : Move graph graph') : Uses graph graph' := by
  cases h with
  | emit houtlet value => exact graph.uses_write houtlet value
  | remember hnodes => exact .single (.remember graph hnodes)

theorem Moves.uses {graph graph' : Graph} (h : Moves graph graph') : Uses graph graph' := by
  induction h with
  | refl => exact .refl
  | tail _ hmove ih => exact ih.trans hmove.uses

theorem Uses.leads {graph graph' : Graph} (h : Uses graph graph') : Leads graph graph' :=
  Relation.ReflTransGen.mono (fun _ _ => Use.change) _ _ h

theorem Moves.leads {graph graph' : Graph} (h : Moves graph graph') : Leads graph graph' :=
  h.uses.leads

namespace Change

variable {graph graph' : Graph}

/-- **Every change keeps a graph linked.** -/
theorem linked (h : Change graph graph') (hlinked : graph.Linked) : graph'.Linked := by
  -- One case per change: the ports move only where a pin is made or joined
  cases h with
  | native => exact hlinked.addNative _ _ _
  | composite => exact hlinked.addComposite _ _ _ _
  | adopt => exact hlinked.adopt _ _ _
  | ensure hport => exact hlinked.ensure hport
  | setValue => exact hlinked.setValue _ _
  | connect hinlet houtlet => exact (hlinked.unite hinlet houtlet).markInlet _
  | detach => exact hlinked.detach _
  | feed outer hinner => exact hlinked.feed outer hinner
  | relay inner houter => exact hlinked.relay inner houter
  | target => exact hlinked.of_ports_eq rfl rfl rfl
  | entry => exact hlinked.modifyNode _ _
  | remember => exact hlinked.of_ports_eq rfl rfl rfl

theorem remember_extends (hnodes : graph'.nodes.map Node.form = graph.nodes.map Node.form)
    (hbare : graph'.bare = { graph.bare with nodes := graph'.nodes }) : graph.Extends graph' := by
  have hin := congrArg (fun g => g.inlets.size) hbare
  have hout := congrArg (fun g => g.outlets.size) hbare
  simp only [bare, Array.size_map] at hin hout
  refine ⟨Nat.le_of_eq hin.symm, Nat.le_of_eq hout.symm, ?_, ?_, ?_⟩
  · exact Nat.le_of_eq (congrArg (fun g => g.entries.size) hbare :).symm
  · exact Nat.le_of_eq (congrArg (fun g => g.exits.size) hbare :).symm
  · intro node record hrecord
    -- The node is still there, and its form says what it is
    have hform : graph'.nodes[node.index]?.map Node.form = some record.form := by
      have hat := congrArg (fun forms => forms[node.index]?) hnodes
      simp only [Array.getElem?_map] at hat
      rw [hat]
      exact congrArg (Option.map Node.form) hrecord
    obtain ⟨record', hrecord', hsame⟩ := Option.map_eq_some_iff.mp hform
    refine ⟨record', hrecord', ?_, ?_⟩
    · rw [← Node.acts_form, hsame, Node.acts_form]
    · rw [← Node.isJoin_form, hsame, Node.isJoin_form]

/-- **Every change keeps all handles.** -/
theorem «extends» (h : Change graph graph') (hclosed : graph.Closed) : graph.Extends graph' := by
  -- Pins and values are not part of what is kept, so those changes give nothing to show
  cases h with
  | native => exact (hclosed.addNative _ _ _).2.1
  | composite => exact (hclosed.addComposite _ _ _ _).2.1
  | adopt composite role hpart => exact (hclosed.adopt composite role hpart).2
  | ensure => exact .of_bare_eq (bare_ensure _ _)
  | setValue => exact .of_bare_eq (bare_setValue _ _ _)
  | connect => exact .connect _ _ _
  | detach => exact .of_bare_eq (bare_detach _ _)
  | feed => exact .feed _ _ _
  | relay => exact .relay _ _ _
  | target => exact .setTarget _ _ _
  | entry => exact .modifyInterface _ _ _
  | remember hnodes => exact remember_extends hnodes rfl

/-- **Every change keeps a graph closed.** -/
theorem closed (h : Change graph graph') (hclosed : graph.Closed) : graph'.Closed := by
  have hext := h.extends hclosed
  cases h with
  | native => exact (hclosed.addNative _ _ _).1
  | composite => exact (hclosed.addComposite _ _ _ _).1
  | adopt composite role hpart => exact (hclosed.adopt composite role hpart).1
  | ensure => exact hclosed.of_bare_eq (bare_ensure _ _)
  | setValue => exact hclosed.of_bare_eq (bare_setValue _ _ _)
  | connect => exact hclosed.connect _ _
  | detach => exact hclosed.of_bare_eq (bare_detach _ _)
  | feed outer hinner => exact hclosed.feed outer hinner
  | relay inner houter => exact hclosed.relay inner houter
  | target exit htarget => exact hclosed.setTarget exit htarget
  | entry composite hentry => exact hclosed.setEntry composite hentry
  | remember hnodes =>
    refine hclosed.of_extends hext ?_ (fun record hrecord _ hinner => Or.inl ⟨record, hrecord, hinner⟩)
      (fun record hrecord _ houter => Or.inl ⟨record, hrecord, houter⟩) (fun _ => Or.inl)
      (fun record hrecord _ hentry => Or.inl ⟨record, hrecord, hentry⟩)
    intro record hrecord
    -- Each node is one that was there before, with the same form, and a form knows its handles
    have hform : record.form ∈ graph.nodes.map Node.form := hnodes ▸ Array.mem_map_of_mem hrecord
    obtain ⟨old, hold, hsame⟩ := Array.mem_map.mp hform
    have hknown := (hclosed.nodes old hold).mono hext
    exact Or.inr (knowsNode_form.mp (hsame ▸ knowsNode_form.mpr hknown))

end Change

namespace Leads

variable {graph graph' : Graph}

theorem linked (h : Leads graph graph') (hlinked : graph.Linked) : graph'.Linked := by
  induction h with
  | refl => exact hlinked
  | tail _ hchange ih => exact hchange.linked ih

theorem closed (h : Leads graph graph') (hclosed : graph.Closed) : graph'.Closed := by
  induction h with
  | refl => exact hclosed
  | tail _ hchange ih => exact hchange.closed ih

theorem «extends» (h : Leads graph graph') (hclosed : graph.Closed) : graph.Extends graph' := by
  induction h with
  | refl => exact .refl graph
  | tail hleads hchange ih => exact ih.trans (hchange.extends (closed hleads hclosed))

end Leads

end Graph

end TokenNet
