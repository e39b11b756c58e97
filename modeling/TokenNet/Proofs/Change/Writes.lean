import TokenNet.Proofs.Change.Placed
import TokenNet.Proofs.Change.Relays
import TokenNet.Proofs.Change.Stems
import TokenNet.Proofs.Run.Conveys

/-!
# Writes

As long as nothing is wired, a graph in use changes in two ways: a port is written, which gives it a
cell if it has none, or nodes remember something else.  All firings are made of such changes, and so
are writes into the inlets of a root.  None of them changes the inside of any composite.

## Main statements

- `WellMade`: what builds make true of a graph, `Uses.wellMade`: and uses keep.
- `Writes`, `Moves.writes`: changes that do not wire.
- `Writes.sameInside`: they keep the inside of every composite.
-/

namespace TokenNet

theorem Node.entry?_form (record : Node) : record.form.entry? = record.entry? := by
  obtain ⟨_, _, _, _, kind⟩ := record
  cases kind <;> rfl

namespace Graph

open TokenNet.Partition

variable {graph graph' : Graph}

/-! ## Graphs that were built -/

namespace SameControl

/-- What does not look at memories finds the same. -/
theorem bind_node? (h : graph.SameControl graph') {α : Type} {read : Node → Option α}
    (hread : ∀ record : Node, read record.form = read record) (node : NodeId) :
    (graph'.node? node).bind read = (graph.node? node).bind read := by
  have hform (found : Option Node) : found.bind read = (found.map Node.form).bind read := by
    rw [Option.bind_map, Function.comp_def, funext hread]
  rw [hform, h.map_form_node?, ← hform]

theorem entryOf? (h : graph.SameControl graph') : graph'.entryOf? = graph.entryOf? :=
  funext fun node => h.bind_node? Node.entry?_form node

theorem faceOf? (h : graph.SameControl graph') : graph'.faceOf? = graph.faceOf? := by
  funext node
  refine h.bind_node? (fun record => ?_) node
  rw [Node.interface?_form, Option.map_map]
  rfl

end SameControl

/-- What stays the same up to memories keeps the tree. -/
theorem Lineage.of_same (h : graph.Lineage) (hplan : graph.SamePlan graph')
    (hcontrol : graph.SameControl graph') : graph'.Lineage := by
  constructor
  -- Everything the tree speaks of is part of the plan of a node, which memories do not enter
  case above =>
    intro node parent hparent
    rw [hplan.parentOf?] at hparent
    obtain ⟨hless, hcomposite⟩ := h.above hparent
    exact ⟨hless, hplan.isComposite hcomposite⟩
  case part =>
    intro composite role node hpart
    rw [hplan.part?] at hpart
    rw [hplan.parentOf?]
    exact h.part hpart
  -- What a join is and where it returns to is part of its plan
  case join =>
    intro node record' entry exit hrecord' hkind'
    obtain ⟨record, hrecord, hsame⟩ := hplan.symm.exists_node? hrecord'
    have hkind := Node.kind_plan_eq_join.mp (hsame ▸ Node.kind_plan_eq_join.mpr hkind')
    obtain ⟨parent, ports, hparent, hports, hmem, hexit⟩ := h.join hrecord hkind
    obtain ⟨ports', hports', _, _, hexits, hjoins⟩ := hplan.exists_interface? hports
    refine ⟨parent, ports', hplan.parentOf? ▸ hparent, hports', ?_⟩
    rw [hjoins, hexits]
    exact ⟨hmem, hexit⟩
  case joined =>
    intro node ports' join hports' hmem
    obtain ⟨ports, hports, _, _, _, hjoins⟩ := hplan.symm.exists_interface? hports'
    rw [hplan.parentOf?]
    exact h.joined hports (hjoins ▸ hmem)
  -- The entry that a node acts on is the business of control
  case acts =>
    intro node entry hacts hentry
    rw [hcontrol.entryOf?] at hentry
    rw [hcontrol.admitted?]
    exact h.acts (hcontrol.symm.acts hacts) hentry
  case inlet =>
    intro node ports' inlet hports' hmem
    obtain ⟨ports, hports, hinlets, _⟩ := hplan.symm.exists_interface? hports'
    rw [hplan.inlets]
    exact h.inlet hports (hinlets ▸ hmem)
  case outlet =>
    intro node ports' hports'
    obtain ⟨ports, hports, _, houtlet, _⟩ := hplan.symm.exists_interface? hports'
    rw [hplan.outlets, ← houtlet]
    exact h.outlet hports
  case exit =>
    intro node ports' exit hports' hmem
    obtain ⟨ports, hports, _, _, hexits, _⟩ := hplan.symm.exists_interface? hports'
    rw [hplan.exits]
    exact h.exit hports (hexits ▸ hmem)

/-- What every build makes true of its graph. -/
structure WellMade (graph : Graph) : Prop where
  linked : graph.Linked
  closed : graph.Closed
  lineage : graph.Lineage
  owned : graph.Owned
  nested : graph.Nested
  descends : graph.Descends

/-- **A graph that was built is well made.** -/
theorem Constructs.wellMade (h : Constructs {} graph) : graph.WellMade where
  linked := Constructs.linked h
  closed := Constructs.closed h .empty
  lineage := h.lineage .empty
  owned := h.owned .empty .empty
  nested := Constructs.nested h
  descends := Constructs.descends h

/-- **Using a graph keeps it well made.** -/
theorem Uses.wellMade (h : graph.Uses graph') (hgraph : graph.WellMade) : graph'.WellMade where
  linked := h.leads.linked hgraph.linked
  closed := h.leads.closed hgraph.closed
  lineage := hgraph.lineage.of_same h.samePlan h.sameControl
  owned := hgraph.owned.of_samePlan h.samePlan
  nested := hgraph.nested.of_same h.samePlan h.sameLinks
  descends := hgraph.descends.of_outlets_eq h.bare_outlets

/-! ## Writes -/

/-- One change that does not wire. -/
inductive Write : Graph → Graph → Prop where
  /-- A port gets a cell, if it has none, and is written. -/
  | port (graph : Graph) {port : Port} (hport : graph.HasPort port) (value : Value) :
      Write graph ((graph.ensure port).2.setValue (graph.ensure port).1 value)
  /-- Nodes remember something else. -/
  | remember (graph : Graph) {nodes : Array Node}
      (hnodes : nodes.map Node.form = graph.nodes.map Node.form) :
      Write graph { graph with nodes }

/-- A sequence of changes that do not wire. -/
abbrev Writes : Graph → Graph → Prop :=
  Relation.ReflTransGen Write

theorem Write.uses (h : Write graph graph') : graph.Uses graph' := by
  cases h with
  | port hport value => exact graph.uses_write hport value
  | remember hnodes => exact .single (.remember graph hnodes)

theorem Writes.uses (h : Writes graph graph') : graph.Uses graph' := by
  induction h with
  | refl => exact .refl
  | tail _ hwrite ih => exact ih.trans hwrite.uses

theorem Move.write (h : Move graph graph') : Write graph graph' := by
  cases h with
  | emit houtlet value => exact .port graph houtlet value
  | remember hnodes => exact .remember graph hnodes

/-- **Firings are made of writes.** -/
theorem Moves.writes (h : graph.Moves graph') : Writes graph graph' :=
  Relation.ReflTransGen.mono (fun _ _ => Move.write) _ _ h

theorem Write.portWired (h : Write graph graph') (port : Port) :
    graph'.portWired port = graph.portWired port := by
  cases h with
  | port hport value => exact portWired_of_bare_eq (bare_write graph _ value) port
  | remember => rfl

/-- A write gives a port a cell of its own at most. -/
theorem Write.sharesCell (h : Write graph graph') (hlinked : graph.Linked) {port other : Port} :
    (graph.SharesCell port other → graph'.SharesCell port other) ∧
      (graph'.SharesCell port other → port = other ∨ graph.SharesCell port other) := by
  have hrep := hlinked.represents
  cases h with
  | @port written hport value =>
    rw [hrep.sharesCell_iff, (hrep.write hport value).sharesCell_iff, shares_write, shares_settle]
    refine ⟨Or.inl, ?_⟩
    -- The only new pair is that of the written port with itself
    rintro (hold | ⟨rfl, rfl⟩)
    · exact Or.inr hold
    · exact Or.inl rfl
  | remember hnodes =>
    exact ⟨id, Or.inr⟩

/-- **A write keeps the inside of every composite.** -/
theorem Write.sameInside (h : Write graph graph') (hlinked : graph.Linked) (composite : NodeId) :
    SameInside composite graph graph' := by
  have hcontrol := h.uses.sameControl
  have hplan := h.uses.samePlan
  have hlinks := h.uses.sameLinks
  -- A write changes values alone, and nothing that is compared here depends on them
  constructor
  case face => exact fun hview => (congrFun hcontrol.faceOf? composite).trans hview
  case part => exact fun _ => hcontrol.map_form_node? _
  case owner => exact fun howner => (congrFun hplan.ownerOf? _).trans howner
  case exit => exact fun howner => (congrFun hplan.exits _).trans howner
  case feeds => exact fun _ => by rw [hlinks.feeds]
  case relay => exact fun _ => congrFun hlinks.relays _
  case target => exact fun _ _ => hcontrol.target? _
  case wired => exact fun _ => h.portWired _
  case shares => exact (h.sharesCell hlinked).1
  case apart => exact fun _ => (h.sharesCell hlinked).2

theorem Writes.sameInside (h : Writes graph graph') (hlinked : graph.Linked) (composite : NodeId) :
    SameInside composite graph graph' := by
  induction h with
  | refl => exact .refl composite graph
  | tail hwrites hwrite ih =>
    have hbefore := (Writes.uses hwrites).leads.linked hlinked
    exact ih.trans (hwrite.sameInside hbefore composite)

end Graph

end TokenNet
