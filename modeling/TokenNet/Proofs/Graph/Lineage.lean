import TokenNet.Proofs.Graph.Raised

/-!
# The tree of nodes

Every node but the root stands under a composite, its *parent*: a part under the composite that
asked for it, a join under the composite behind one of whose exits it stands.  A composite is made
before whatever stands under it, so the parents form a tree.  A join fires an exit of its parent,
and an entry admits the token to the node that it was made for.

## Main statements

- `Lineage`: the tree of nodes and the owners of ports.
- `Lineage.raises`, `Lineage.adopt`, `Lineage.setEntry`, `Lineage.of_sameTree`: building keeps the
  tree.
-/

namespace TokenNet

theorem Node.entry?_of_interface? {record : Node} {ports : Interface}
    (h : record.interface? = some ports) : record.entry? = ports.entry := by
  obtain ⟨_, _, _, _, kind⟩ := record
  cases kind with
  | native primitive found => exact congrArg Interface.entry (Option.some.inj h)
  | composite found parts => exact congrArg Interface.entry (Option.some.inj h)
  | join entry exit => cases h

/-- A record with one part more lists no other new part, and is a join only if it was one. -/
theorem Node.addPart_cases (role : String) (part : NodeId) (record : Node) :
    (∀ entry exit, (record.addPart role part).kind = .join entry exit →
      record.kind = .join entry exit) ∧
    ∀ other taken, (record.addPart role part).part? other = some taken →
      record.part? other = some taken ∨ taken = part := by
  obtain ⟨_, _, _, _, kind⟩ := record
  cases kind with
  | native primitive ports => exact ⟨fun _ _ h => h, fun _ _ h => Or.inl h⟩
  | join entry exit => exact ⟨fun _ _ h => h, fun _ _ h => Or.inl h⟩
  -- Only a composite takes a part, and it is no join
  | composite ports parts =>
    refine ⟨fun _ _ h => (nomatch h), fun other taken h => ?_⟩
    have htaken : (parts.insert role part).get? other = some taken := h
    rw [Table.get?_insert] at htaken
    split at htaken
    · exact Or.inr (Option.some.inj htaken).symm
    · exact Or.inl htaken

namespace Graph

/-! ## The tree -/

/-- The parents of the nodes form a tree, the ports of a node belong to it, and the joins of a
composite stand under it. -/
structure Lineage (graph : Graph) : Prop where
  above : ∀ {node parent}, graph.parentOf? node = some parent →
    parent.index < node.index ∧ graph.IsComposite parent
  part : ∀ {composite role node}, graph.part? composite role = some node →
    graph.parentOf? node = some composite
  join : ∀ {node record entry exit}, graph.node? node = some record →
    record.kind = .join entry exit → ∃ parent ports, graph.parentOf? node = some parent ∧
      graph.interface? parent = some ports ∧ node ∈ ports.joins ∧ exit ∈ ports.exits
  joined : ∀ {node ports join}, graph.interface? node = some ports → join ∈ ports.joins →
    graph.parentOf? join = some node
  acts : ∀ {node entry}, graph.Acts node → graph.entryOf? node = some entry →
    graph.admitted? entry = some node
  inlet : ∀ {node ports inlet}, graph.interface? node = some ports → inlet ∈ ports.inlets →
    graph.inletOwner? inlet = some node
  outlet : ∀ {node ports}, graph.interface? node = some ports →
    graph.outletOwner? ports.outlet = some node
  exit : ∀ {node ports exit}, graph.interface? node = some ports → exit ∈ ports.exits →
    graph.exitOwner? exit = some node

theorem Lineage.empty : Lineage ({} : Graph) := by
  constructor <;> simp [parentOf?, part?, interface?, node?, Acts]

/-! ### A new node -/

namespace Raises

variable {graph graph' : Graph} {record : Node} {ports : Interface}

/-- A node of the later graph is an old one, the new one or one of its joins. -/
theorem cases (h : Raises graph graph' record ports) {node : NodeId} {found : Node}
    (hfound : graph'.node? node = some found) :
    graph.node? node = some found ∨ (node = ⟨graph.nodes.size⟩ ∧ found = record) ∨
      graph.nodes.size < node.index := by
  rcases Nat.lt_trichotomy node.index graph.nodes.size with hlt | heq | hgt
  · exact Or.inl ((h.retains node hlt).symm.trans hfound)
  · obtain rfl : node = ⟨graph.nodes.size⟩ := by rw [← heq]
    exact Or.inr (Or.inl ⟨rfl, Option.some.inj (hfound.symm.trans h.node)⟩)
  · exact Or.inr (Or.inr hgt)

theorem node?_old (h : Raises graph graph' record ports) {node : NodeId} {found : Node}
    (hfound : graph.node? node = some found) : graph'.node? node = some found :=
  (h.retains node (Array.getElem?_eq_some_iff.mp hfound).1).trans hfound

theorem parentOf?_old (h : Raises graph graph' record ports) {node parent : NodeId}
    (hparent : graph.parentOf? node = some parent) : graph'.parentOf? node = some parent := by
  obtain ⟨found, hfound, hsome⟩ := Option.bind_eq_some_iff.mp hparent
  exact Option.bind_eq_some_iff.mpr ⟨found, h.node?_old hfound, hsome⟩

/-- What is found of an interface is old, or it is that of the new node. -/
theorem interface?_cases (h : Raises graph graph' record ports) {node : NodeId}
    {found : Interface} (hfound : graph'.interface? node = some found) :
    graph.interface? node = some found ∨ (node = ⟨graph.nodes.size⟩ ∧ found = ports) := by
  obtain ⟨other, hother, hports⟩ := Option.bind_eq_some_iff.mp hfound
  rcases h.cases hother with hold | ⟨rfl, rfl⟩ | hlater
  · exact Or.inl (Option.bind_eq_some_iff.mpr ⟨other, hold, hports⟩)
  · exact Or.inr ⟨rfl, Option.some.inj (hports.symm.trans h.interface)⟩
  · obtain ⟨_, _, _, hkind, _⟩ := h.join hlater hother
    simp [Node.interface?, hkind] at hports

end Raises

/-- **A new node keeps the tree.** -/
theorem Lineage.raises {graph graph' : Graph} {record : Node} {ports : Interface}
    (h : graph.Lineage) (hraises : Raises graph graph' record ports) : graph'.Lineage := by
  -- Every node of the later graph is an old one, the new one, or one of its joins
  constructor
  case above =>
    intro node parent hparent
    obtain ⟨found, hfound, hsome⟩ := Option.bind_eq_some_iff.mp hparent
    rcases hraises.cases hfound with hold | ⟨rfl, rfl⟩ | hlater
    · obtain ⟨hlt, other, hother, hacts⟩ :=
        h.above (Option.bind_eq_some_iff.mpr ⟨found, hold, hsome⟩)
      exact ⟨hlt, other, hraises.node?_old hother, hacts⟩
    -- The new node stands under nothing
    · rw [hraises.parent] at hsome
      cases hsome
    -- A join of the new node stands under it, and has come later
    · obtain ⟨hunder, _, _, _, hmem, _⟩ := hraises.join hlater hfound
      obtain rfl := Option.some.inj (hsome.symm.trans hunder)
      exact ⟨hlater, record, hraises.node, hraises.composite (List.ne_nil_of_mem hmem)⟩
  case part =>
    intro composite role node hpart
    obtain ⟨found, hfound, hrole⟩ := Option.bind_eq_some_iff.mp hpart
    rcases hraises.cases hfound with hold | ⟨rfl, rfl⟩ | hlater
    · exact hraises.parentOf?_old (h.part (Option.bind_eq_some_iff.mpr ⟨found, hold, hrole⟩))
    -- A new composite has no parts, and a join never has
    · rw [hraises.parts] at hrole
      cases hrole
    · obtain ⟨_, _, _, hkind, _⟩ := hraises.join hlater hfound
      simp [Node.part?, Node.parts?, hkind] at hrole
  case join =>
    intro node found entry exit hfound hkind
    rcases hraises.cases hfound with hold | ⟨rfl, rfl⟩ | hlater
    · obtain ⟨parent, ports, hparent, hports, hmem⟩ := h.join hold hkind
      obtain ⟨other, hother, hinterface⟩ := Option.bind_eq_some_iff.mp hports
      exact ⟨parent, ports, hraises.parentOf?_old hparent,
        Option.bind_eq_some_iff.mpr ⟨other, hraises.node?_old hother, hinterface⟩, hmem⟩
    -- The new node has an interface, so it is no join
    · have hports := hraises.interface
      simp [Node.interface?, hkind] at hports
    · obtain ⟨hunder, _, _, hkind', hmem, hexit, _⟩ := hraises.join hlater hfound
      obtain ⟨rfl, rfl⟩ := NodeKind.join.inj (hkind.symm.trans hkind')
      exact ⟨_, ports, Option.bind_eq_some_iff.mpr ⟨found, hfound, hunder⟩,
        Option.bind_eq_some_iff.mpr ⟨record, hraises.node, hraises.interface⟩, hmem, hexit⟩
  case joined =>
    intro node found join hfound hmem
    rcases hraises.interface?_cases hfound with hold | ⟨rfl, rfl⟩
    · exact hraises.parentOf?_old (h.joined hold hmem)
    · obtain ⟨hlater, other, hother⟩ := hraises.joined join hmem
      exact Option.bind_eq_some_iff.mpr ⟨other, hother, (hraises.join hlater hother).1⟩
  case acts =>
    rintro node entry ⟨found, hfound, hacts⟩ hentry
    have hsome : found.entry? = some entry := by simpa [entryOf?, hfound] using hentry
    rcases hraises.cases hfound with hold | ⟨rfl, rfl⟩ | hlater
    · refine hraises.admitted (h.acts ⟨found, hold, hacts⟩ ?_)
      exact Option.bind_eq_some_iff.mpr ⟨found, hold, hsome⟩
    -- An entry of the new node admits to it, since the entry has been made for it
    · refine (hraises.entry entry ?_).2
      rw [← hsome, Node.entry?_of_interface? hraises.interface]
    · obtain ⟨_, _, _, hkind, _, _, hadmitted⟩ := hraises.join hlater hfound
      simp only [Node.entry?, hkind, Option.some.injEq] at hsome
      exact hsome ▸ hadmitted
  -- The pins of the new node are owned by it from the start
  case inlet =>
    intro node found inlet hfound hmem
    rcases hraises.interface?_cases hfound with hold | ⟨rfl, rfl⟩
    · exact hraises.inletOwner_old (h.inlet hold hmem)
    · exact hraises.inletOwner inlet hmem
  case outlet =>
    intro node found hfound
    rcases hraises.interface?_cases hfound with hold | ⟨rfl, rfl⟩
    · exact hraises.outletOwner_old (h.outlet hold)
    · exact hraises.outletOwner
  case exit =>
    intro node found exit hfound hmem
    rcases hraises.interface?_cases hfound with hold | ⟨rfl, rfl⟩
    · exact hraises.exitOwner_old (h.exit hold hmem)
    · exact hraises.exitOwner exit hmem

/-! ### Parts that take their place -/

section

variable {graph : Graph} {composite part : NodeId}

/-- Taking up a part changes where that part stands and nothing else. -/
theorem parentOf?_adopt_eq (role : String) (node : NodeId) :
    (graph.adopt composite role part).parentOf? node =
      if node = part then (graph.node? node).map fun _ => composite
      else graph.parentOf? node := by
  unfold parentOf? Graph.adopt
  rw [@bind_modifyNode NodeId Node.parent (Node.addPart role part) fun _ => rfl, node?_modifyNode]
  split
  · cases graph.node? node <;> rfl
  · rfl

theorem parentOf?_adopt_part (hpart : graph.Hosts part) (role : String) :
    (graph.adopt composite role part).parentOf? part = some composite := by
  obtain ⟨record, hrecord, _⟩ := hpart
  rw [parentOf?_adopt_eq, if_pos rfl, hrecord]
  rfl

/-- A node that has a place keeps it. -/
theorem parentOf?_adopt (hloose : graph.parentOf? part = none) {node parent : NodeId}
    (hparent : graph.parentOf? node = some parent) (role : String) :
    (graph.adopt composite role part).parentOf? node = some parent := by
  have hne : node ≠ part := by
    rintro rfl
    rw [hloose] at hparent
    cases hparent
  rw [parentOf?_adopt_eq, if_neg hne, hparent]

end

theorem exists_of_node?_modifyNode {graph : Graph} {changed node : NodeId} {change : Node → Node}
    {found : Node} (h : (graph.modifyNode changed change).node? node = some found) :
    ∃ old, graph.node? node = some old ∧ (found = old ∨ (node = changed ∧ found = change old)) := by
  rw [node?_modifyNode] at h
  split at h
  next hnode =>
    obtain ⟨old, hold, rfl⟩ := Option.map_eq_some_iff.mp h
    exact ⟨old, hold, Or.inr ⟨hnode, rfl⟩⟩
  next => exact ⟨found, h, Or.inl rfl⟩

/-- Taking up a part leaves every node what it is. -/
theorem exists_of_node?_adopt {graph : Graph} {composite part node : NodeId} {role : String}
    {found : Node} (hfound : (graph.adopt composite role part).node? node = some found) :
    ∃ old, graph.node? node = some old ∧ found.acts = old.acts ∧
      (∀ entry exit, found.kind = .join entry exit → old.kind = .join entry exit) ∧
      ∀ other taken, found.part? other = some taken → old.part? other = some taken ∨
        (node = composite ∧ taken = part) := by
  obtain ⟨placed, hplaced, htaken⟩ := exists_of_node?_modifyNode hfound
  obtain ⟨old, hold, hplace⟩ := exists_of_node?_modifyNode hplaced
  -- The place of a node is not part of its kind
  have hkind : placed.kind = old.kind := by
    rcases hplace with rfl | ⟨_, rfl⟩ <;> rfl
  have hacts : placed.acts = old.acts := by unfold Node.acts; rw [hkind]
  have hparts : placed.part? = old.part? := by
    funext other
    unfold Node.part? Node.parts?
    rw [hkind]
  refine ⟨old, hold, ?_⟩
  rw [← hkind, ← hacts, ← hparts]
  rcases htaken with rfl | ⟨rfl, rfl⟩
  · exact ⟨rfl, fun _ _ h => h, fun _ _ h => Or.inl h⟩
  · obtain ⟨hjoin, hpart⟩ := placed.addPart_cases role part
    exact ⟨placed.acts_addPart role part, hjoin,
      fun other taken h => (hpart other taken h).imp_right fun hsame => ⟨rfl, hsame⟩⟩

theorem Extends.adopt (graph : Graph) (composite part : NodeId) (role : String) :
    graph.Extends (graph.adopt composite role part) := by
  have hplace := @Extends.modifyNode graph part
    (fun record => { record with parent := some composite, role := some role })
    (fun _ => rfl) fun _ => rfl
  exact hplace.trans
    (.modifyNode _ composite (Node.acts_addPart role part) (Node.isJoin_addPart role part))

theorem Extends.isComposite {graph graph' : Graph} (h : graph.Extends graph') {node : NodeId}
    (hnode : graph.IsComposite node) : graph'.IsComposite node := by
  obtain ⟨record, hrecord, hacts⟩ := hnode
  obtain ⟨record', hrecord', hsame, _⟩ := h.nodes hrecord
  exact ⟨record', hrecord', hsame.trans hacts⟩

/-- A composite can be a part. -/
theorem IsComposite.hosts {graph : Graph} {node : NodeId} (h : graph.IsComposite node) :
    graph.Hosts node := by
  obtain ⟨record, hrecord, hacts⟩ := h
  refine ⟨record, hrecord, ?_⟩
  obtain ⟨_, _, _, _, kind⟩ := record
  cases kind with
  | join => cases hacts
  | _ => rfl

/-- **A part that takes its place keeps the tree.** -/
theorem Lineage.adopt {graph : Graph} (h : graph.Lineage) {composite part : NodeId}
    (hcomposite : graph.IsComposite composite) (hlt : composite.index < part.index)
    (hpart : graph.Hosts part) (hloose : graph.parentOf? part = none) (role : String) :
    (graph.adopt composite role part).Lineage := by
  have hext := Extends.adopt graph composite part role
  constructor
  case above =>
    intro node parent hparent
    rw [parentOf?_adopt_eq] at hparent
    -- Only the part has a new parent
    split at hparent
    next hnode =>
      obtain ⟨_, _, rfl⟩ := Option.map_eq_some_iff.mp hparent
      exact ⟨hnode ▸ hlt, hext.isComposite hcomposite⟩
    next =>
      obtain ⟨hless, habove⟩ := h.above hparent
      exact ⟨hless, hext.isComposite habove⟩
  case part =>
    intro other role' node hnode
    obtain ⟨found, hfound, htaken⟩ := Option.bind_eq_some_iff.mp hnode
    obtain ⟨old, hold, _, _, hparts⟩ := exists_of_node?_adopt hfound
    -- A part is an old one, or the one that has been taken in under the role
    rcases hparts role' node htaken with hsame | ⟨rfl, rfl⟩
    · exact parentOf?_adopt hloose (h.part (Option.bind_eq_some_iff.mpr ⟨old, hold, hsame⟩)) role
    · exact parentOf?_adopt_part hpart role
  -- What is left concerns interfaces and entries, which taking in a part does not change
  case join =>
    intro node found entry exit hfound hkind
    obtain ⟨old, hold, _, hjoin, _⟩ := exists_of_node?_adopt hfound
    obtain ⟨parent, ports, hparent, hports, hmem⟩ := h.join hold (hjoin entry exit hkind)
    exact ⟨parent, ports, parentOf?_adopt hloose hparent role,
      (interface?_adopt graph role parent).trans hports, hmem⟩
  case joined =>
    intro node ports join hports hmem
    rw [interface?_adopt] at hports
    exact parentOf?_adopt hloose (h.joined hports hmem) role
  case acts =>
    rintro node entry ⟨found, hfound, hacts⟩ hentry
    rw [entryOf?_adopt] at hentry
    obtain ⟨old, hold, hsame, _⟩ := exists_of_node?_adopt hfound
    exact h.acts ⟨old, hold, hsame.symm.trans hacts⟩ hentry
  case inlet =>
    intro node ports inlet hports hmem
    rw [interface?_adopt] at hports
    exact h.inlet hports hmem
  case outlet =>
    intro node ports hports
    rw [interface?_adopt] at hports
    exact h.outlet hports
  case exit =>
    intro node ports exit hports hmem
    rw [interface?_adopt] at hports
    exact h.exit hports hmem

/-! ### Wiring -/

/-- Two graphs have the same nodes, the same entries and the same owners of ports. -/
structure SameTree (graph graph' : Graph) : Prop where
  nodes : graph'.nodes = graph.nodes
  entries : graph'.entries = graph.entries
  inlets : graph'.inletOwner? = graph.inletOwner?
  outlets : graph'.outletOwner? = graph.outletOwner?
  exits : graph'.exitOwner? = graph.exitOwner?

namespace SameTree

variable {graph graph' : Graph}

theorem node? (h : graph.SameTree graph') : graph'.node? = graph.node? := by
  funext node
  unfold Graph.node?
  rw [h.nodes]

theorem parentOf? (h : graph.SameTree graph') : graph'.parentOf? = graph.parentOf? := by
  funext node
  unfold Graph.parentOf?
  rw [h.node?]

theorem interface? (h : graph.SameTree graph') : graph'.interface? = graph.interface? := by
  funext node
  unfold Graph.interface?
  rw [h.node?]

theorem entryOf? (h : graph.SameTree graph') : graph'.entryOf? = graph.entryOf? := by
  funext node
  unfold Graph.entryOf?
  rw [h.node?]

theorem part? (h : graph.SameTree graph') : graph'.part? = graph.part? := by
  funext composite role
  unfold Graph.part?
  rw [h.node?]

theorem admitted? (h : graph.SameTree graph') : graph'.admitted? = graph.admitted? := by
  funext entry
  unfold Graph.admitted?
  rw [h.entries]

theorem of_bare_eq (h : graph'.bare = graph.bare) : graph.SameTree graph' where
  nodes := (congrArg Graph.nodes h :)
  entries := (congrArg Graph.entries h :)
  inlets := by rw [← inletOwner?_bare, h, inletOwner?_bare]
  outlets := by rw [← outletOwner?_bare, h, outletOwner?_bare]
  exits := (congrArg Graph.exitOwner? h :)

theorem trans {graph'' : Graph} (h : graph.SameTree graph') (h' : graph'.SameTree graph'') :
    graph.SameTree graph'' where
  nodes := h'.nodes.trans h.nodes
  entries := h'.entries.trans h.entries
  inlets := h'.inlets.trans h.inlets
  outlets := h'.outlets.trans h.outlets
  exits := h'.exits.trans h.exits

/-- Cells do not matter. -/
theorem of_bare (h : graph.bare.SameTree graph'.bare) : graph.SameTree graph' where
  nodes := h.nodes
  entries := h.entries
  inlets := by rw [← inletOwner?_bare, h.inlets, inletOwner?_bare]
  outlets := by rw [← outletOwner?_bare, h.outlets, outletOwner?_bare]
  exits := h.exits

theorem modifyInlet (graph : Graph) (inlet : InletId) {change : Inlet → Inlet}
    (h : ∀ record, (change record).owner = record.owner) :
    graph.SameTree (graph.modifyInlet inlet change) where
  nodes := rfl
  entries := rfl
  -- Only the changed input is to be looked at, and it keeps its owner
  inlets := by
    funext other
    unfold inletOwner? inlet? Graph.modifyInlet
    rw [Array.getElem?_modify]
    split
    · rw [Option.map_map]
      exact congrArg (fun view => graph.inlets[other.index]?.map view) (funext h)
    · rfl
  outlets := rfl
  exits := rfl

theorem modifyOutlet (graph : Graph) (outlet : OutletId) {change : Outlet → Outlet}
    (h : ∀ record, (change record).owner = record.owner) :
    graph.SameTree (graph.modifyOutlet outlet change) where
  nodes := rfl
  entries := rfl
  inlets := rfl
  -- Only the changed output is to be looked at, and it keeps its owner
  outlets := by
    funext other
    unfold outletOwner? outlet? Graph.modifyOutlet
    rw [Array.getElem?_modify]
    split
    · rw [Option.map_map]
      exact congrArg (fun view => graph.outlets[other.index]?.map view) (funext h)
    · rfl
  exits := rfl

theorem markInlet (graph : Graph) (inlet : InletId) : graph.SameTree (graph.markInlet inlet) :=
  modifyInlet graph inlet fun _ => rfl

theorem markOutlet (graph : Graph) (outlet : OutletId) :
    graph.SameTree (graph.markOutlet outlet) :=
  modifyOutlet graph outlet fun _ => rfl

theorem setTarget (graph : Graph) (exit : ExitId) (target : Option EntryId) :
    graph.SameTree (graph.setTarget exit target) where
  nodes := rfl
  entries := rfl
  inlets := rfl
  outlets := rfl
  -- An exit keeps its owner whatever its target is
  exits := by
    funext other
    unfold exitOwner? exit? Graph.setTarget
    rw [Array.getElem?_modify]
    split
    · rw [Option.map_map]
      rfl
    · rfl

theorem connect (graph : Graph) (inlet : InletId) (outlet : OutletId) :
    graph.SameTree (graph.connect inlet outlet) := by
  apply of_bare
  rw [bare_connect]
  exact markInlet graph.bare inlet

theorem feed (graph : Graph) (outer inner : InletId) :
    graph.SameTree (graph.feed outer inner) := by
  apply of_bare
  rw [bare_feed]
  have hfeed := @modifyInlet graph.bare outer
    (fun record => { record with feeds := Cell.joined record.feeds inner }) fun _ => rfl
  exact hfeed.trans (markInlet _ inner)

theorem relay (graph : Graph) (outer inner : OutletId) :
    graph.SameTree (graph.relay outer inner) := by
  apply of_bare
  rw [bare_relay]
  have hrelay := @modifyOutlet graph.bare inner
    (fun record => { record with relay := some outer }) fun _ => rfl
  exact hrelay.trans (markOutlet _ outer)

end SameTree

theorem Lineage.of_sameTree {graph graph' : Graph} (h : graph.Lineage)
    (hsame : graph.SameTree graph') : graph'.Lineage := by
  constructor
  · simpa only [hsame.parentOf?, IsComposite, hsame.node?] using @h.above
  · simpa only [hsame.parentOf?, hsame.part?] using @h.part
  · simpa only [hsame.parentOf?, hsame.interface?, hsame.node?] using @h.join
  · simpa only [hsame.parentOf?, hsame.interface?] using @h.joined
  · simpa only [hsame.entryOf?, hsame.admitted?, Acts, hsame.node?] using @h.acts
  · simpa only [hsame.inlets, hsame.interface?] using @h.inlet
  · simpa only [hsame.outlets, hsame.interface?] using @h.outlet
  · simpa only [hsame.exits, hsame.interface?] using @h.exit

/-! ### Exposed entries -/

section

variable (graph : Graph) (composite : NodeId) (entry : EntryId)

theorem parentOf?_setEntry (node : NodeId) :
    (graph.setEntry composite entry).parentOf? node = graph.parentOf? node := by
  unfold parentOf? setEntry
  exact @bind_modifyNode NodeId Node.parent (Node.modifyInterface _) (fun _ => rfl) graph composite
    node

theorem part?_setEntry (other : NodeId) (role : String) :
    (graph.setEntry composite entry).part? other role = graph.part? other role :=
  bind_modifyNode (fun record => Node.part?_modifyInterface _ record role) graph composite other

theorem entryOf?_setEntry_of_ne {node : NodeId} (hne : node ≠ composite) :
    (graph.setEntry composite entry).entryOf? node = graph.entryOf? node := by
  unfold entryOf? setEntry
  rw [node?_modifyNode, if_neg hne]

theorem interface?_setEntry (node : NodeId) : (graph.setEntry composite entry).interface? node =
    if node = composite then
      (graph.interface? node).map fun ports => { ports with entry := some entry }
    else graph.interface? node := by
  unfold interface? setEntry
  rw [node?_modifyNode]
  split
  · cases graph.node? node with
    | none => rfl
    | some record =>
      obtain ⟨_, _, _, _, kind⟩ := record
      cases kind <;> rfl
  · rfl

/-- Exposing an entry changes no other part of an interface. -/
theorem exists_of_interface?_setEntry {node : NodeId} {ports : Interface}
    (h : (graph.setEntry composite entry).interface? node = some ports) :
    ∃ old, graph.interface? node = some old ∧ ports.inlets = old.inlets ∧
      ports.outlet = old.outlet ∧ ports.exits = old.exits ∧ ports.joins = old.joins := by
  rw [interface?_setEntry] at h
  split at h
  · obtain ⟨old, hold, rfl⟩ := Option.map_eq_some_iff.mp h
    exact ⟨old, hold, rfl, rfl, rfl, rfl⟩
  · exact ⟨ports, h, rfl, rfl, rfl, rfl⟩

theorem exists_interface?_setEntry {node : NodeId} {ports : Interface}
    (h : graph.interface? node = some ports) :
    ∃ later, (graph.setEntry composite entry).interface? node = some later ∧
      later.exits = ports.exits ∧ later.joins = ports.joins := by
  rw [interface?_setEntry, h]
  split
  · exact ⟨_, rfl, rfl, rfl⟩
  · exact ⟨ports, rfl, rfl, rfl⟩

end

/-- **A composite that exposes an entry keeps the tree.** -/
theorem Lineage.setEntry {graph : Graph} (h : graph.Lineage) {composite : NodeId}
    (hcomposite : graph.IsComposite composite) (entry : EntryId) :
    (graph.setEntry composite entry).Lineage := by
  have hext : graph.Extends (graph.setEntry composite entry) := .modifyInterface graph composite _
  constructor
  case above =>
    intro node parent hparent
    rw [parentOf?_setEntry] at hparent
    obtain ⟨hlt, habove⟩ := h.above hparent
    exact ⟨hlt, hext.isComposite habove⟩
  case part =>
    intro other role node hnode
    rw [part?_setEntry] at hnode
    rw [parentOf?_setEntry]
    exact h.part hnode
  -- The entry of a composite is no part of the record of a join
  case join =>
    intro node found entry' exit hfound hkind
    obtain ⟨old, hold, hchange⟩ := exists_of_node?_modifyNode hfound
    have hjoin : old.kind = .join entry' exit := by
      rcases hchange with rfl | ⟨_, rfl⟩
      · exact hkind
      · obtain ⟨_, _, _, _, kind⟩ := old
        cases kind with
        | join => exact hkind
        | native => cases hkind
        | composite => cases hkind
    obtain ⟨parent, ports, hparent, hports, hmem⟩ := h.join hold hjoin
    obtain ⟨later, hlater, hexits, hjoins⟩ :=
      exists_interface?_setEntry graph composite entry hports
    refine ⟨parent, later, (parentOf?_setEntry graph composite entry node).trans hparent, hlater, ?_⟩
    rw [hexits, hjoins]
    exact hmem
  case joined =>
    intro node ports join hports hmem
    obtain ⟨old, hold, _, _, _, hjoins⟩ := exists_of_interface?_setEntry graph composite entry hports
    rw [parentOf?_setEntry]
    exact h.joined hold (hjoins ▸ hmem)
  case acts =>
    rintro node entry' ⟨found, hfound, hacts⟩ hentry
    obtain ⟨old, hold, hchange⟩ := exists_of_node?_modifyNode hfound
    have hold_acts : old.acts = true := by
      rcases hchange with rfl | ⟨_, rfl⟩
      · exact hacts
      · rwa [Node.acts_modifyInterface] at hacts
    -- A composite does not act
    have hne : node ≠ composite := by
      rintro rfl
      obtain ⟨record, hrecord, hnone⟩ := hcomposite
      obtain rfl := Option.some.inj (hold.symm.trans hrecord)
      rw [hnone] at hold_acts
      cases hold_acts
    rw [entryOf?_setEntry_of_ne graph composite entry hne] at hentry
    exact h.acts ⟨old, hold, hold_acts⟩ hentry
  -- The pins of the interface stay
  case inlet =>
    intro node ports inlet hports hmem
    obtain ⟨old, hold, hinlets, _⟩ := exists_of_interface?_setEntry graph composite entry hports
    exact h.inlet hold (hinlets ▸ hmem)
  case outlet =>
    intro node ports hports
    obtain ⟨old, hold, _, houtlet, _⟩ := exists_of_interface?_setEntry graph composite entry hports
    rw [houtlet]
    exact h.outlet hold
  case exit =>
    intro node ports exit hports hmem
    obtain ⟨old, hold, _, _, hexits, _⟩ := exists_of_interface?_setEntry graph composite entry hports
    exact h.exit hold (hexits ▸ hmem)

end Graph

end TokenNet
