import TokenNet.Proofs.Change.Construct
import TokenNet.Proofs.Change.Call

/-!
# The plan of a graph

The *plan* of a graph says which nodes there are, where they stand, which parts and joins composites
have, and which ports belong to whom.  It leaves out what is wired, what entries are exposed and
what nodes remember.  Only growing a node and giving a part its place change the plan, so whatever
can be read off it after a build can be read off it ever after.

## Main statements

- `SamePlan`: two graphs have the same plan.
- `Draft.samePlan_rewire`: directives that wire keep the plan.
- `Network.samePlan_performAll`: so do all calls.
-/

namespace TokenNet

namespace Node

/-- A node without what it remembers and without the entry that it exposes. -/
def plan (record : Node) : Node :=
  { record.modifyInterface fun ports => { ports with entry := none, register := 0, calls := 0 } with
    traced := false }

theorem plan_form (record : Node) : record.form.plan = record.plan := by
  obtain ⟨_, _, _, _, kind⟩ := record
  cases kind <;> rfl

@[simp] theorem parent_plan (record : Node) : record.plan.parent = record.parent := rfl

@[simp] theorem role_plan (record : Node) : record.plan.role = record.role := rfl

@[simp] theorem part?_plan (record : Node) (role : String) :
    record.plan.part? role = record.part? role := by
  obtain ⟨_, _, _, _, kind⟩ := record
  cases kind <;> rfl

@[simp] theorem acts_plan (record : Node) : record.plan.acts = record.acts := by
  obtain ⟨_, _, _, _, kind⟩ := record
  cases kind <;> rfl

@[simp] theorem isJoin_plan (record : Node) : record.plan.isJoin = record.isJoin := by
  obtain ⟨_, _, _, _, kind⟩ := record
  cases kind <;> rfl

theorem interface?_plan (record : Node) : record.plan.interface? =
    record.interface?.map fun ports => { ports with entry := none, register := 0, calls := 0 } := by
  obtain ⟨_, _, _, _, kind⟩ := record
  cases kind <;> rfl

theorem kind_plan_eq_join {record : Node} {entry : EntryId} {exit : ExitId} :
    record.plan.kind = .join entry exit ↔ record.kind = .join entry exit := by
  obtain ⟨_, _, _, _, kind⟩ := record
  cases kind <;> simp [plan, modifyInterface]

end Node

namespace Graph

/-- Two graphs have the same plan. -/
structure SamePlan (graph graph' : Graph) : Prop where
  nodes : graph'.nodes.map Node.plan = graph.nodes.map Node.plan
  inlets : graph'.inletOwner? = graph.inletOwner?
  outlets : graph'.outletOwner? = graph.outletOwner?
  exits : graph'.exitOwner? = graph.exitOwner?

namespace SamePlan

variable {graph graph' graph'' : Graph} {node : NodeId}

theorem refl (graph : Graph) : graph.SamePlan graph :=
  ⟨rfl, rfl, rfl, rfl⟩

theorem symm (h : graph.SamePlan graph') : graph'.SamePlan graph :=
  ⟨h.nodes.symm, h.inlets.symm, h.outlets.symm, h.exits.symm⟩

theorem trans (h : graph.SamePlan graph') (h' : graph'.SamePlan graph'') :
    graph.SamePlan graph'' :=
  ⟨h'.nodes.trans h.nodes, h'.inlets.trans h.inlets, h'.outlets.trans h.outlets,
    h'.exits.trans h.exits⟩

theorem of_sameTree (h : graph.SameTree graph') : graph.SamePlan graph' :=
  ⟨by rw [h.nodes], h.inlets, h.outlets, h.exits⟩

theorem setEntry (graph : Graph) (composite : NodeId) (entry : EntryId) :
    graph.SamePlan (graph.setEntry composite entry) := by
  refine ⟨map_modify_eq graph.nodes composite.index fun record => ?_, rfl, rfl, rfl⟩
  obtain ⟨_, _, _, _, kind⟩ := record
  cases kind <;> rfl

/-- What nodes remember is no part of the plan. -/
theorem of_forms {nodes : Array Node} (h : nodes.map Node.form = graph.nodes.map Node.form) :
    graph.SamePlan { graph with nodes } := by
  refine ⟨?_, rfl, rfl, rfl⟩
  have hplans := congrArg (Array.map Node.plan) h
  simpa only [Array.map_map, Function.comp_def, Node.plan_form] using hplans

/-! ### What can be read off the plan -/

theorem size (h : graph.SamePlan graph') : graph'.nodes.size = graph.nodes.size := by
  simpa only [Array.size_map] using congrArg Array.size h.nodes

theorem map_plan_node? (h : graph.SamePlan graph') (node : NodeId) :
    (graph'.node? node).map Node.plan = (graph.node? node).map Node.plan := by
  have hat := congrArg (fun plans => plans[node.index]?) h.nodes
  simp only [Array.getElem?_map] at hat
  exact hat

theorem exists_node? (h : graph.SamePlan graph') {record : Node}
    (hrecord : graph.node? node = some record) :
    ∃ record', graph'.node? node = some record' ∧ record'.plan = record.plan := by
  have hat := h.map_plan_node? node
  rw [hrecord] at hat
  exact Option.map_eq_some_iff.mp hat

/-- What does not look at entries and memories finds the same. -/
theorem bind_node? (h : graph.SamePlan graph') {α : Type} {read : Node → Option α}
    (hread : ∀ record : Node, read record.plan = read record) (node : NodeId) :
    (graph'.node? node).bind read = (graph.node? node).bind read := by
  have hplan (found : Option Node) : found.bind read = (found.map Node.plan).bind read := by
    rw [Option.bind_map, Function.comp_def, funext hread]
  rw [hplan, h.map_plan_node?, ← hplan]

theorem parentOf? (h : graph.SamePlan graph') : graph'.parentOf? = graph.parentOf? :=
  funext fun node => h.bind_node? Node.parent_plan node

theorem part? (h : graph.SamePlan graph') : graph'.part? = graph.part? :=
  funext fun composite => funext fun role =>
    h.bind_node? (fun record => record.part?_plan role) composite

theorem isComposite (h : graph.SamePlan graph') (hnode : graph.IsComposite node) :
    graph'.IsComposite node := by
  obtain ⟨record, hrecord, hacts⟩ := hnode
  obtain ⟨record', hrecord', hplan⟩ := h.exists_node? hrecord
  refine ⟨record', hrecord', ?_⟩
  rw [← Node.acts_plan, hplan, Node.acts_plan, hacts]

theorem hosts (h : graph.SamePlan graph') (hnode : graph.Hosts node) : graph'.Hosts node := by
  obtain ⟨record, hrecord, hjoin⟩ := hnode
  obtain ⟨record', hrecord', hplan⟩ := h.exists_node? hrecord
  refine ⟨record', hrecord', ?_⟩
  rw [← Node.isJoin_plan, hplan, Node.isJoin_plan, hjoin]

/-- The ports and joins of a node are the same. -/
theorem exists_interface? (h : graph.SamePlan graph') {ports : Interface}
    (hports : graph.interface? node = some ports) : ∃ ports', graph'.interface? node = some ports' ∧
      ports'.inlets = ports.inlets ∧ ports'.outlet = ports.outlet ∧ ports'.exits = ports.exits ∧
      ports'.joins = ports.joins := by
  obtain ⟨record, hrecord, hinterface⟩ := Option.bind_eq_some_iff.mp hports
  obtain ⟨record', hrecord', hplan⟩ := h.exists_node? hrecord
  -- But for the memory of the node, the two interfaces are the same
  have hsame := congrArg Node.interface? hplan
  rw [Node.interface?_plan, Node.interface?_plan, hinterface] at hsame
  obtain ⟨ports', hports', hsame⟩ := Option.map_eq_some_iff.mp hsame
  refine ⟨ports', Option.bind_eq_some_iff.mpr ⟨record', hrecord', hports'⟩, ?_⟩
  simp only [Interface.mk.injEq] at hsame
  obtain ⟨hinlets, houtlet, _, hexits, hjoins, _⟩ := hsame
  exact ⟨hinlets, houtlet, hexits, hjoins⟩

end SamePlan

/-! ## Changes that keep the plan -/

/-- **Using a graph keeps its plan.** -/
theorem Use.samePlan {graph graph' : Graph} (h : graph.Use graph') : graph.SamePlan graph' := by
  cases h with
  | ensure => exact .of_sameTree (.of_bare_eq (bare_ensure graph _))
  | setValue => exact .of_sameTree (.of_bare_eq (bare_setValue graph _ _))
  | connect => exact .of_sameTree (.connect graph _ _)
  | detach => exact .of_sameTree (.of_bare_eq (bare_detach graph _))
  | remember hnodes => exact .of_forms hnodes

theorem Uses.samePlan {graph graph' : Graph} (h : graph.Uses graph') : graph.SamePlan graph' := by
  induction h with
  | refl => exact .refl graph
  | tail _ hstep ih => exact ih.trans hstep.samePlan

end Graph

theorem Rewiring.samePlan_apply (graph : Graph) (rewiring : Rewiring) :
    graph.SamePlan (rewiring.apply graph) := by
  cases rewiring with
  | connect inlet outlet => exact .of_sameTree (.connect graph inlet outlet)
  | direct exit entry => exact .of_sameTree (.setTarget graph exit (some entry))
  | feed outer inner => exact .of_sameTree (.feed graph outer inner)
  | relay outer inner => exact .of_sameTree (.relay graph outer inner)
  | enter composite entry => exact .setEntry graph composite entry

/-- **Directives that wire keep the plan.** -/
theorem Draft.samePlan_rewire (draft : Draft) (composite : NodeId) (name : String)
    (directive : Directive) :
    draft.graph.SamePlan (draft.rewire composite name directive).graph := by
  unfold rewire
  -- The cases are those of `rewire`: skipped, without effect, carried out
  rcases directive.resolve draft.graph composite name with issues | (_ | rewiring)
  · dsimp only
    rw [graph_foldl_skip]
    exact .refl draft.graph
  · exact .refl draft.graph
  · exact rewiring.samePlan_apply draft.graph

namespace Network

variable {net : Network}

/-- **Every call keeps the plan.** -/
theorem samePlan_perform (hclosed : net.graph.Closed) (call : Call) :
    net.graph.SamePlan (net.perform call).1.graph := by
  refine perform_induction hclosed call ?_ ?_
  · exact fun huses => huses.samePlan
  · exact fun exit target _ => .of_sameTree (.setTarget net.graph exit target)

theorem samePlan_performAll (hclosed : net.graph.Closed) (calls : List Call) :
    net.graph.SamePlan (net.performAll calls).1.graph :=
  performAll_induction .refl .trans samePlan_perform calls hclosed

end Network

end TokenNet
