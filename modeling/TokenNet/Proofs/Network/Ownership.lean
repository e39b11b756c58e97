import TokenNet.Proofs.Blueprint.Without
import TokenNet.Proofs.Change.Enclosed
import TokenNet.Proofs.Change.Placed
import TokenNet.Proofs.Network.Arity

/-!
# The ownership tree

The nodes of a network form a tree with the root on top, and everything in the network has one place
in it: a port is listed by the node that it belongs to and by no other, the joins of a composite stand
behind its exits in order, and a part stands under the composite that knows it, in the role by which
it is known.  Only parts whose role was given away are not known to their composite any more, and the
issues of the build count them.  All this is read off the plan of the graph, which no call changes.

## Main statements

- `Graph.ListedOnce`, `Graph.Frames`: where a port is listed, and how the joins of a composite stand.
- `Network.Ownership`: the tree of nodes and what they own.
- `Network.ownership_of_history`: every network has it after every history of calls.
-/

namespace TokenNet

namespace Graph

variable {graph graph' : Graph}

theorem IsComposite.exists_kind {node : NodeId} (h : graph.IsComposite node) :
    ∃ record ports parts, graph.node? node = some record ∧ record.kind = .composite ports parts := by
  obtain ⟨record, hrecord, hacts⟩ := h
  cases hkind : record.kind with
  | native => simp [Node.acts, hkind] at hacts
  | join => simp [Node.acts, hkind] at hacts
  | composite ports parts => exact ⟨record, ports, parts, hrecord, hkind⟩

/-- A node lists a port once, and no other node lists it. -/
structure ListedOnce {α : Type} [DecidableEq α] (graph : Graph) (listed : Interface → List α)
    (port : α) (owner : NodeId) : Prop where
  byOwner : ∃ ports, graph.interface? owner = some ports ∧ (listed ports).count port = 1
  byNoOther : ∀ {other ports}, graph.interface? other = some ports → other ≠ owner →
    port ∉ listed ports

/-- A composite has one join behind each of its exits, in the same order, and no other joins stand
under it. -/
structure Frames (graph : Graph) (composite : NodeId) (ports : Interface) : Prop where
  nodup : ports.joins.Nodup
  length : ports.joins.length = ports.exits.length
  join : ∀ {i : Nat} {join}, ports.joins[i]? = some join →
    ∃ exit, ports.exits[i]? = some exit ∧ graph.ReturnsBy join exit
  mem_iff : ∀ {join}, join ∈ ports.joins ↔
    graph.parentOf? join = some composite ∧ ∃ exit, graph.ReturnsBy join exit

theorem SamePlan.returnsBy (h : graph.SamePlan graph') {join : NodeId} {exit : ExitId}
    (hreturns : graph.ReturnsBy join exit) : graph'.ReturnsBy join exit := by
  obtain ⟨record, entry, hrecord, hkind⟩ := hreturns
  obtain ⟨record', hrecord', hplan⟩ := h.exists_node? hrecord
  refine ⟨record', entry, hrecord', ?_⟩
  rwa [← Node.kind_plan_eq_join, hplan, Node.kind_plan_eq_join]

/-! ## Reading the plan of a built graph -/

section

variable (hlineage : graph.Lineage) (hplan : graph.SamePlan graph')

include hlineage hplan

/-- What is not the root stands below it, since the parents come before their children. -/
theorem below_of_parentOf?_ne_none {root : NodeId}
    (hroot : ∀ {node}, node.index < graph.nodes.size → node ≠ root → graph.parentOf? node ≠ none)
    {node : NodeId} (hnode : node.index < graph'.nodes.size) (hne : node ≠ root) :
    graph'.Below node root := by
  rw [hplan.size] at hnode
  -- By induction on the position of the node
  obtain ⟨position⟩ := node
  induction position using Nat.strong_induction_on with
  | h position ih =>
    obtain ⟨parent, hparent⟩ := Option.ne_none_iff_exists'.mp (hroot hnode hne)
    obtain ⟨hless, _⟩ := hlineage.above hparent
    rw [below_iff ((congrFun hplan.parentOf? _).trans hparent)]
    by_cases htop : parent = root
    · exact Or.inl htop.symm
    · exact Or.inr (ih parent.index hless (Nat.lt_trans hless hnode) htop)

variable (howned : graph.Owned)

include howned

theorem listedOnce_inlet {inlet : InletId} {owner : NodeId}
    (howner : graph'.inletOwner? inlet = some owner) :
    graph'.ListedOnce Interface.inlets inlet owner where
  byOwner := (howned.of_samePlan hplan).inlet howner
  byNoOther {other ports} hports hne hmem := by
    obtain ⟨ports', hports', hinlets, _⟩ := hplan.symm.exists_interface? hports
    have hother := hlineage.inlet hports' (hinlets ▸ hmem)
    rw [← hplan.inlets, howner] at hother
    exact hne (Option.some.inj hother).symm

theorem listedOnce_outlet {outlet : OutletId} {owner : NodeId}
    (howner : graph'.outletOwner? outlet = some owner) :
    graph'.ListedOnce (fun ports => [ports.outlet]) outlet owner where
  byOwner := by
    obtain ⟨ports, hports, rfl⟩ := (howned.of_samePlan hplan).outlet howner
    exact ⟨ports, hports, List.count_singleton_self⟩
  byNoOther {other ports} hports hne hmem := by
    obtain ⟨ports', hports', _, houtlet, _⟩ := hplan.symm.exists_interface? hports
    have hother := hlineage.outlet hports'
    rw [houtlet, ← hplan.outlets, ← List.mem_singleton.mp hmem, howner] at hother
    exact hne (Option.some.inj hother).symm

theorem listedOnce_exit {exit : ExitId} {owner : NodeId}
    (howner : graph'.exitOwner? exit = some owner) :
    graph'.ListedOnce Interface.exits exit owner where
  byOwner := (howned.of_samePlan hplan).exit howner
  byNoOther {other ports} hports hne hmem := by
    obtain ⟨ports', hports', _, _, hexits, _⟩ := hplan.symm.exists_interface? hports
    have hother := hlineage.exit hports' (hexits ▸ hmem)
    rw [← hplan.exits, howner] at hother
    exact hne (Option.some.inj hother).symm

theorem frames_of_samePlan {composite : NodeId} {ports : Interface}
    (hcomposite : graph'.IsComposite composite) (hports : graph'.interface? composite = some ports) :
    graph'.Frames composite ports := by
  obtain ⟨hnodup, hreturns⟩ := (howned.of_samePlan hplan).joins hcomposite hports
  constructor
  case nodup => exact hnodup
  case length => exact hreturns.length_eq
  case join =>
    intro i join hjoin
    obtain ⟨hi, rfl⟩ := List.getElem?_eq_some_iff.mp hjoin
    have hi' : i < ports.exits.length := hreturns.length_eq ▸ hi
    exact ⟨ports.exits[i], List.getElem?_eq_getElem hi', hreturns.get hi hi'⟩
  case mem_iff =>
    intro join
    obtain ⟨ports', hports', _, _, _, hjoins⟩ := hplan.symm.exists_interface? hports
    rw [hplan.parentOf?]
    constructor
    · intro hmem
      refine ⟨hlineage.joined hports' (hjoins ▸ hmem), ?_⟩
      obtain ⟨i, hi, rfl⟩ := List.getElem_of_mem hmem
      have hi' : i < ports.exits.length := hreturns.length_eq ▸ hi
      exact ⟨ports.exits[i], hreturns.get hi hi'⟩
    -- A join below the composite returns through one of its exits, so it is listed
    · rintro ⟨hparent, exit, hreturn⟩
      obtain ⟨record, entry, hrecord, hkind⟩ := hplan.symm.returnsBy hreturn
      obtain ⟨parent, found, hparent', hfound, hmem, _⟩ := hlineage.join hrecord hkind
      obtain rfl := Option.some.inj (hparent'.symm.trans hparent)
      obtain rfl := Option.some.inj (hfound.symm.trans hports')
      exact hjoins ▸ hmem

end

end Graph

namespace Network

open TokenNet.Graph

/-- **The nodes of a network form a tree, and whatever is in it has one place in the tree.** -/
structure Ownership (library : Library) (net : Network) : Prop where
  /-- The root is the only node without a parent. -/
  root : ∀ {node record}, net.graph.node? node = some record →
    (record.parent = none ↔ node = net.root)
  exists_root : ∃ record, net.graph.node? net.root = some record
  /-- A parent is a composite and comes before its children. -/
  above : ∀ {node parent}, net.graph.parentOf? node = some parent → parent.index < node.index ∧
    ∃ record ports parts, net.graph.node? parent = some record ∧
      record.kind = .composite ports parts
  /-- Every other node stands below the root. -/
  below : ∀ {node record}, net.graph.node? node = some record → node ≠ net.root →
    net.graph.Below node net.root
  /-- Ports are listed once, by their owners. -/
  inlet : ∀ {inlet record}, net.graph.inlet? inlet = some record →
    net.graph.ListedOnce Interface.inlets inlet record.owner
  outlet : ∀ {outlet record}, net.graph.outlet? outlet = some record →
    net.graph.ListedOnce (fun ports => [ports.outlet]) outlet record.owner
  exit : ∀ {exit record}, net.graph.exit? exit = some record →
    net.graph.ListedOnce Interface.exits exit record.owner
  /-- A composite has as many exits as its specification declares, and a join behind each. -/
  joins : ∀ {node record ports parts}, net.graph.node? node = some record →
    record.kind = .composite ports parts → net.graph.Frames node ports ∧
      ∃ identifier spec, library.get? identifier = some spec ∧
        spec.identifier = record.specification ∧ ports.joins.length = spec.exitCount
  /-- A part stands under the composite that knows it, in the role by which it is known. -/
  role : ∀ {composite role node}, net.graph.part? composite role = some node →
    net.graph.parentOf? node = some composite ∧ net.graph.roleOf? node = some role
  /-- The issues count the nodes that their composites do not know. -/
  displaced : net.graph.displaced.card = duplicates net.issues.toList

/-- **Every network has an ownership tree**, after every history of calls. -/
theorem ownership_of_history {library : Library} {identifier : String} {options : BuildOptions}
    {built : Network} (hbuilt : library.instantiate identifier options = .ok built)
    (calls : List Call) : (built.performAll calls).1.Ownership library := by
  have hplan := samePlan_performAll ((leads_instantiate hbuilt).1.closed .empty) calls
  have hframe := built.sameBuild_performAll calls
  generalize (built.performAll calls).1 = net at *
  obtain ⟨draft, _, hcourse, hgraph, hissues⟩ := Draft.exists_course_of_instantiate hbuilt
  have hgrown := Library.built_of_instantiate hbuilt
  have hlineage := hgrown.constructs.lineage .empty
  have howned := hgrown.constructs.owned .empty .empty
  -- Only the root has no parent, for every later node was placed somewhere
  have hplaced {node : NodeId} (hnode : node.index < built.graph.nodes.size)
      (hne : node ≠ built.root) : built.graph.parentOf? node ≠ none := by
    have hplace : built.root = ⟨0⟩ := hgrown.place
    have hlater : built.root.index < node.index := by
      rw [hplace] at hne ⊢
      exact Nat.pos_of_ne_zero fun hzero => hne (congrArg NodeId.mk hzero)
    rw [hgraph] at hnode ⊢
    obtain ⟨parent, hparent, _⟩ := hcourse.exists_parent .empty hlater hnode
    simp [hparent]
  have hsize {node : NodeId} {record : Node} (hrecord : net.graph.node? node = some record) :
      node.index < net.graph.nodes.size := (Array.getElem?_eq_some_iff.mp hrecord).1
  constructor
  case root =>
    intro node record hrecord
    have hparent : net.graph.parentOf? node = record.parent := by simp [parentOf?, hrecord]
    rw [← hparent, hplan.parentOf?, hframe.root]
    constructor
    · intro hnone
      by_contra hne
      exact hplaced (hplan.size ▸ hsize hrecord) hne hnone
    · rintro rfl
      exact hgrown.loose
  case exists_root =>
    obtain ⟨record, hrecord, _⟩ := hplan.hosts hgrown.hosts
    exact ⟨record, hframe.root.symm ▸ hrecord⟩
  -- Everything below is read off the build, whose plan the calls have kept
  case above =>
    intro node parent hparent
    rw [hplan.parentOf?] at hparent
    obtain ⟨hless, hcomposite⟩ := hlineage.above hparent
    exact ⟨hless, (hplan.isComposite hcomposite).exists_kind⟩
  case below =>
    intro node record hrecord hne
    rw [hframe.root] at hne ⊢
    exact below_of_parentOf?_ne_none hlineage hplan hplaced (hsize hrecord) hne
  case inlet =>
    intro inlet record hrecord
    apply listedOnce_inlet hlineage hplan howned
    simp [inletOwner?, hrecord]
  case outlet =>
    intro outlet record hrecord
    apply listedOnce_outlet hlineage hplan howned
    simp [outletOwner?, hrecord]
  case exit =>
    intro exit record hrecord
    apply listedOnce_exit hlineage hplan howned
    simp [exitOwner?, hrecord]
  case joins =>
    intro node record ports parts hrecord hkind
    have hports : net.graph.interface? node = some ports := by
      simp [interface?, Node.interface?, hrecord, hkind]
    have hcomposite : net.graph.IsComposite node := ⟨record, hrecord, by rw [Node.acts, hkind]⟩
    have hframes := frames_of_samePlan hlineage hplan howned hcomposite hports
    refine ⟨hframes, ?_⟩
    have hhonours : built.graph.Honours library :=
      hgraph ▸ hcourse.honours fun h => by simp [Graph.contract?, Graph.node?] at h
    have hcontract := hplan.bind_node? Node.contract?_plan node
    rw [hrecord, Option.bind_some, Node.contract?, hkind] at hcontract
    obtain ⟨key, spec, hspec, hname, _, hexits⟩ := hhonours hcontract.symm
    exact ⟨key, spec, hspec, hname, hframes.length.trans hexits⟩
  case role =>
    intro composite role node hpart
    rw [hplan.part?] at hpart
    rw [hplan.parentOf?]
    exact ⟨hlineage.part hpart,
      (hplan.bind_node? Node.role_plan node).trans (howned.role hpart).2⟩
  -- Each displaced node was announced by a duplicate role
  case displaced =>
    have htally := hcourse.tally .empty .empty
    rw [hplan.displaced, hframe.issues, hissues, hgraph]
    simpa [duplicates, Graph.displaced] using htally

/-- In the network of the twins each of the two has lost a part to another one; a run and a new target
for an exit do not change that. -/
theorem ownership_of_twins :
    Library.twins.instantiate "twins" {} = .ok Library.twinsNetwork ∧
      (Library.twinsNetwork.performAll [.step, .direct ⟨0⟩ ⟨0⟩]).1.Ownership Library.twins ∧
      (Library.twinsNetwork.performAll [.step, .direct ⟨0⟩ ⟨0⟩]).1.graph.displaced.card = 2 := by
  have hbuilt : Library.twins.instantiate "twins" {} = .ok Library.twinsNetwork := by
    decide +kernel
  have htree := ownership_of_history hbuilt [.step, .direct ⟨0⟩ ⟨0⟩]
  refine ⟨hbuilt, htree, ?_⟩
  rw [htree.displaced]
  decide +kernel

end Network

end TokenNet
