import TokenNet.Proofs.Graph.Composite

/-!
# New nodes and the ports they own

Every port knows the node it belongs to.  A new node, native or composite, brings ports that belong
to it and lead nowhere yet, and a composite also brings the joins behind its exits.  Both kinds of
growth are the same in this respect, so what is kept by one is kept by the other.

## Main statements

- `Raises`: what a new node with its ports and joins adds to a graph.
- `raises_addNative`, `raises_addComposite`: a native node and a composite are such nodes.
-/

namespace TokenNet.Graph

/-! ## Parents and owners -/

/-- The composite under which a node stands. -/
def parentOf? (graph : Graph) (node : NodeId) : Option NodeId :=
  (graph.node? node).bind Node.parent

/-- The node an inlet belongs to. -/
def inletOwner? (graph : Graph) (inlet : InletId) : Option NodeId :=
  (graph.inlet? inlet).map Inlet.owner

/-- The node an outlet belongs to. -/
def outletOwner? (graph : Graph) (outlet : OutletId) : Option NodeId :=
  (graph.outlet? outlet).map Outlet.owner

/-- The node an exit belongs to. -/
def exitOwner? (graph : Graph) (exit : ExitId) : Option NodeId :=
  (graph.exit? exit).map Exit.owner

/-- The inlets that an inlet feeds. -/
def feedsOf (graph : Graph) (inlet : InletId) : List InletId :=
  ((graph.inlet? inlet).map Inlet.feeds).getD []

/-- The outlet to which an outlet is relayed. -/
def relayOf? (graph : Graph) (outlet : OutletId) : Option OutletId :=
  (graph.outlet? outlet).bind Outlet.relay

/-- A node to which the token never comes, but which can have parts. -/
def IsComposite (graph : Graph) (node : NodeId) : Prop :=
  ∃ record, graph.node? node = some record ∧ record.acts = false

theorem hasPort_of_inletOwner? {graph : Graph} {inlet : InletId} {owner : NodeId}
    (h : graph.inletOwner? inlet = some owner) : graph.HasPort (.inlet inlet) := by
  obtain ⟨record, hrecord, _⟩ := Option.map_eq_some_iff.mp h
  exact (Array.getElem?_eq_some_iff.mp hrecord).1

theorem hasPort_of_outletOwner? {graph : Graph} {outlet : OutletId} {owner : NodeId}
    (h : graph.outletOwner? outlet = some owner) : graph.HasPort (.outlet outlet) := by
  obtain ⟨record, hrecord, _⟩ := Option.map_eq_some_iff.mp h
  exact (Array.getElem?_eq_some_iff.mp hrecord).1

theorem inlet?_bare (graph : Graph) (inlet : InletId) :
    graph.bare.inlet? inlet = (graph.inlet? inlet).map Inlet.bare :=
  Array.getElem?_map

theorem outlet?_bare (graph : Graph) (outlet : OutletId) :
    graph.bare.outlet? outlet = (graph.outlet? outlet).map Outlet.bare :=
  Array.getElem?_map

theorem inletOwner?_bare (graph : Graph) : graph.bare.inletOwner? = graph.inletOwner? := by
  funext inlet
  unfold inletOwner?
  rw [inlet?_bare, Option.map_map]
  rfl

theorem outletOwner?_bare (graph : Graph) : graph.bare.outletOwner? = graph.outletOwner? := by
  funext outlet
  unfold outletOwner?
  rw [outlet?_bare, Option.map_map]
  rfl

theorem feedsOf_bare (graph : Graph) : graph.bare.feedsOf = graph.feedsOf := by
  funext inlet
  unfold feedsOf
  rw [inlet?_bare, Option.map_map]
  rfl

theorem relayOf?_bare (graph : Graph) : graph.bare.relayOf? = graph.relayOf? := by
  funext outlet
  unfold relayOf?
  rw [outlet?_bare]
  cases graph.outlet? outlet <;> rfl

/-! ## New nodes -/

/-- A later graph has one node more, with its ports and the joins behind its exits.  The node stands
under no composite yet. -/
structure Raises (graph graph' : Graph) (record : Node) (ports : Interface) : Prop where
  retains : Retains graph.nodes.size graph graph'
  node : graph'.node? ⟨graph.nodes.size⟩ = some record
  parent : record.parent = none
  interface : record.interface? = some ports
  parts : ∀ role, record.part? role = none
  /-- All other new nodes are joins of the new node. -/
  join : ∀ {node found}, graph.nodes.size < node.index → graph'.node? node = some found →
    found.parent = some ⟨graph.nodes.size⟩ ∧ ∃ entry exit, found.kind = .join entry exit ∧
      node ∈ ports.joins ∧ exit ∈ ports.exits ∧ graph'.admitted? entry = some node
  joined : ∀ join ∈ ports.joins, graph.nodes.size < join.index ∧
    ∃ found, graph'.node? join = some found
  /-- Only a composite has joins. -/
  composite : ports.joins ≠ [] → record.acts = false
  entry : ∀ entry, ports.entry = some entry →
    record.acts = true ∧ graph'.admitted? entry = some ⟨graph.nodes.size⟩
  admitted : ∀ {entry node}, graph.admitted? entry = some node → graph'.admitted? entry = some node
  inletOwner : ∀ inlet ∈ ports.inlets, graph'.inletOwner? inlet = some ⟨graph.nodes.size⟩
  inletOwner_old : ∀ {inlet owner}, graph.inletOwner? inlet = some owner →
    graph'.inletOwner? inlet = some owner
  outletOwner : graph'.outletOwner? ports.outlet = some ⟨graph.nodes.size⟩
  outletOwner_old : ∀ {outlet owner}, graph.outletOwner? outlet = some owner →
    graph'.outletOwner? outlet = some owner
  exitOwner : ∀ exit ∈ ports.exits, graph'.exitOwner? exit = some ⟨graph.nodes.size⟩
  exitOwner_old : ∀ {exit owner}, graph.exitOwner? exit = some owner →
    graph'.exitOwner? exit = some owner
  feeds : graph'.feedsOf = graph.feedsOf
  relay : graph'.relayOf? = graph.relayOf?
  target : graph'.target? = graph.target?

/-- Records to which some equal ones are appended. -/
theorem getElem?_append_replicate {α : Type} (records : Array α) (count : Nat) (a : α) (i : Nat) :
    (records ++ Array.replicate count a)[i]? =
      if i < records.size then records[i]?
      else if i < records.size + count then some a else none := by
  rw [Array.getElem?_append, Array.getElem?_replicate]
  split
  · rfl
  · congr 1
    simp only [eq_iff_iff]
    omega

section

variable {graph graph' : Graph} {owner : NodeId} {count : Nat}

theorem inlet?_of_append
    (h : graph'.bare.inlets = graph.bare.inlets ++ Array.replicate count { owner := owner })
    (inlet : InletId) : (graph'.inlet? inlet).map Inlet.bare =
      if inlet.index < graph.inlets.size then (graph.inlet? inlet).map Inlet.bare
      else if inlet.index < graph.inlets.size + count then some { owner := owner } else none := by
  have hsize : graph.bare.inlets.size = graph.inlets.size := Array.size_map
  rw [← inlet?_bare, ← inlet?_bare]
  unfold inlet?
  rw [h, getElem?_append_replicate, hsize]

theorem outlet?_of_push {wired : Bool}
    (h : graph'.bare.outlets = graph.bare.outlets.push { owner, wired }) (outlet : OutletId) :
    (graph'.outlet? outlet).map Outlet.bare =
      if outlet.index = graph.outlets.size then some { owner, wired }
      else (graph.outlet? outlet).map Outlet.bare := by
  have hsize : graph.bare.outlets.size = graph.outlets.size := Array.size_map
  rw [← outlet?_bare, ← outlet?_bare]
  unfold outlet?
  rw [h, Array.getElem?_push, hsize]

theorem exit?_of_append
    (h : graph'.exits = graph.exits ++ Array.replicate count { owner := owner }) (exit : ExitId) :
    graph'.exit? exit = if exit.index < graph.exits.size then graph.exit? exit
      else if exit.index < graph.exits.size + count then some { owner := owner } else none := by
  unfold exit?
  rw [h, getElem?_append_replicate]

theorem inletOwner?_of_append
    (h : graph'.bare.inlets = graph.bare.inlets ++ Array.replicate count { owner := owner })
    (inlet : InletId) : graph'.inletOwner? inlet =
      if inlet.index < graph.inlets.size then graph.inletOwner? inlet
      else if inlet.index < graph.inlets.size + count then some owner else none := by
  have hat := congrArg (Option.map Inlet.owner) (inlet?_of_append h inlet)
  rw [Option.map_map] at hat
  refine Eq.trans hat ?_
  split
  · rw [Option.map_map]
    rfl
  · split <;> rfl

theorem inletOwner?_new
    (h : graph'.bare.inlets = graph.bare.inlets ++ Array.replicate count { owner := owner })
    {inlet : InletId}
    (hinlet : inlet ∈ (List.range count).map fun i => (⟨graph.inlets.size + i⟩ : InletId)) :
    graph'.inletOwner? inlet = some owner := by
  obtain ⟨i, hi, rfl⟩ := List.mem_map.mp hinlet
  have hlt := Nat.add_lt_add_left (List.mem_range.mp hi) graph.inlets.size
  rw [inletOwner?_of_append h, if_neg (Nat.not_lt.mpr (Nat.le_add_right _ _)), if_pos hlt]

theorem inletOwner?_old
    (h : graph'.bare.inlets = graph.bare.inlets ++ Array.replicate count { owner := owner })
    {inlet : InletId} {holder : NodeId} (hold : graph.inletOwner? inlet = some holder) :
    graph'.inletOwner? inlet = some holder := by
  have hlt : inlet.index < graph.inlets.size := hasPort_of_inletOwner? hold
  rw [inletOwner?_of_append h, if_pos hlt]
  exact hold

/-- A new inlet feeds nothing. -/
theorem feedsOf_of_append
    (h : graph'.bare.inlets = graph.bare.inlets ++ Array.replicate count { owner := owner }) :
    graph'.feedsOf = graph.feedsOf := by
  funext inlet
  have hat := congrArg (fun record : Option Inlet => (record.map Inlet.feeds).getD [])
    (inlet?_of_append h inlet)
  simp only [Option.map_map] at hat
  refine Eq.trans hat ?_
  split
  -- An old input feeds what it did, and a new one nothing
  next => rw [Option.map_map]; rfl
  next hnew =>
    have hnone : graph.inlet? inlet = none := Array.getElem?_eq_none (Nat.le_of_not_lt hnew)
    rw [feedsOf, hnone]
    split <;> rfl

theorem outletOwner?_of_push {wired : Bool}
    (h : graph'.bare.outlets = graph.bare.outlets.push { owner, wired }) (outlet : OutletId) :
    graph'.outletOwner? outlet =
      if outlet.index = graph.outlets.size then some owner else graph.outletOwner? outlet := by
  have hat := congrArg (Option.map Outlet.owner) (outlet?_of_push h outlet)
  rw [Option.map_map] at hat
  refine Eq.trans hat ?_
  split
  · rfl
  · rw [Option.map_map]
    rfl

theorem outletOwner?_old {wired : Bool}
    (h : graph'.bare.outlets = graph.bare.outlets.push { owner, wired }) {outlet : OutletId}
    {holder : NodeId} (hold : graph.outletOwner? outlet = some holder) :
    graph'.outletOwner? outlet = some holder := by
  rw [outletOwner?_of_push h, if_neg (Nat.ne_of_lt (hasPort_of_outletOwner? hold))]
  exact hold

/-- A new outlet is not relayed. -/
theorem relayOf?_of_push {wired : Bool}
    (h : graph'.bare.outlets = graph.bare.outlets.push { owner, wired }) :
    graph'.relayOf? = graph.relayOf? := by
  funext outlet
  have hat := congrArg (fun record => record.bind Outlet.relay) (outlet?_of_push h outlet)
  have hbare (g : Graph) : ((g.outlet? outlet).map Outlet.bare).bind Outlet.relay =
      g.relayOf? outlet := by
    unfold relayOf?
    cases g.outlet? outlet <;> rfl
  rw [hbare] at hat
  refine hat.trans ?_
  split
  -- The new output is relayed nowhere
  next hnew =>
    have hnone : graph.outlet? outlet = none := Array.getElem?_eq_none (Nat.le_of_eq hnew.symm)
    rw [relayOf?, hnone]
    rfl
  next => exact hbare graph

theorem exitOwner?_of_append
    (h : graph'.exits = graph.exits ++ Array.replicate count { owner := owner }) (exit : ExitId) :
    graph'.exitOwner? exit = if exit.index < graph.exits.size then graph.exitOwner? exit
      else if exit.index < graph.exits.size + count then some owner else none := by
  unfold exitOwner?
  rw [exit?_of_append h]
  split
  · rfl
  · split <;> rfl

theorem exitOwner?_new
    (h : graph'.exits = graph.exits ++ Array.replicate count { owner := owner }) {exit : ExitId}
    (hexit : exit ∈ (List.range count).map fun i => (⟨graph.exits.size + i⟩ : ExitId)) :
    graph'.exitOwner? exit = some owner := by
  obtain ⟨i, hi, rfl⟩ := List.mem_map.mp hexit
  have hlt := Nat.add_lt_add_left (List.mem_range.mp hi) graph.exits.size
  rw [exitOwner?_of_append h, if_neg (Nat.not_lt.mpr (Nat.le_add_right _ _)), if_pos hlt]

theorem exitOwner?_old
    (h : graph'.exits = graph.exits ++ Array.replicate count { owner := owner }) {exit : ExitId}
    {holder : NodeId} (hold : graph.exitOwner? exit = some holder) :
    graph'.exitOwner? exit = some holder := by
  obtain ⟨record, hrecord, _⟩ := Option.map_eq_some_iff.mp hold
  rw [exitOwner?_of_append h, if_pos (Array.getElem?_eq_some_iff.mp hrecord).1]
  exact hold

/-- A new exit leads nowhere. -/
theorem target?_of_append
    (h : graph'.exits = graph.exits ++ Array.replicate count { owner := owner }) :
    graph'.target? = graph.target? := by
  funext exit
  unfold target?
  rw [exit?_of_append h]
  split
  next => rfl
  next hnew =>
    have hnone : graph.exit? exit = none := Array.getElem?_eq_none (Nat.le_of_not_lt hnew)
    rw [hnone]
    split <;> rfl

/-- The new node stands behind the old ones, and its joins behind it. -/
theorem node?_of_append {record : Node} {joins : List Node}
    (h : graph'.nodes = graph.nodes.push record ++ joins.toArray) (i : Nat) :
    graph'.node? ⟨i⟩ = if i < graph.nodes.size then graph.node? ⟨i⟩
      else if i = graph.nodes.size then some record else joins[i - (graph.nodes.size + 1)]? := by
  unfold node?
  rw [h, Array.getElem?_append, Array.size_push, Array.getElem?_push]
  dsimp only
  split
  next hlt =>
    split
    next heq => rw [if_neg (by omega)]
    next hne => rw [if_pos (by omega)]
  next hle => rw [if_neg (by omega), if_neg (by omega), List.getElem?_toArray]

theorem node?_join {record : Node} {joins : List Node}
    (h : graph'.nodes = graph.nodes.push record ++ joins.toArray) (i : Nat) :
    graph'.node? ⟨graph.nodes.size + 1 + i⟩ = joins[i]? := by
  rw [node?_of_append h, if_neg (by omega), if_neg (by omega), Nat.add_sub_cancel_left]

theorem admitted?_new {entries : List NodeId}
    (h : graph'.entries = graph.entries ++ entries.toArray) (i : Nat) :
    graph'.admitted? ⟨graph.entries.size + i⟩ = entries[i]? := by
  unfold admitted?
  rw [h, Array.getElem?_append_right (Nat.le_add_right _ _), Nat.add_sub_cancel_left,
    List.getElem?_toArray]

theorem admitted?_old {entries : List NodeId}
    (h : graph'.entries = graph.entries ++ entries.toArray) {entry : EntryId} {node : NodeId}
    (hold : graph.admitted? entry = some node) : graph'.admitted? entry = some node := by
  unfold admitted? at hold ⊢
  rw [h, Array.getElem?_append_left (Array.getElem?_eq_some_iff.mp hold).1]
  exact hold

end

/-- The ports of a new node are the next ones, in order, and so are its joins. -/
theorem Raises.of_bare {graph graph' : Graph} {record : Node} {ports : Interface}
    {joins : List Node} {entries : List NodeId} {wired : Bool} {inletCount exitCount : Nat}
    (h : graph'.bare =
      { nodes := graph.nodes.push record ++ joins.toArray
        inlets := graph.bare.inlets ++ Array.replicate inletCount { owner := ⟨graph.nodes.size⟩ }
        outlets := graph.bare.outlets.push { owner := ⟨graph.nodes.size⟩, wired }
        entries := graph.entries ++ entries.toArray
        exits := graph.exits ++ Array.replicate exitCount { owner := ⟨graph.nodes.size⟩ } })
    (hparent : record.parent = none) (hinterface : record.interface? = some ports)
    (hparts : ∀ role, record.part? role = none)
    (hinlets : ports.inlets = (List.range inletCount).map fun i => ⟨graph.inlets.size + i⟩)
    (houtlet : ports.outlet = ⟨graph.outlets.size⟩)
    (hexits : ports.exits = (List.range exitCount).map fun i => ⟨graph.exits.size + i⟩)
    (hentry : ∀ entry, ports.entry = some entry → record.acts = true ∧
      entry = ⟨graph.entries.size⟩ ∧ entries[0]? = some ⟨graph.nodes.size⟩)
    (hjoins : ports.joins =
      (List.range joins.length).map fun i => ⟨graph.nodes.size + 1 + i⟩)
    (hcomposite : ports.joins ≠ [] → record.acts = false)
    (hjoin : ∀ i join, joins[i]? = some join → join.parent = some ⟨graph.nodes.size⟩ ∧
      i < exitCount ∧ join.kind = .join ⟨graph.entries.size + i⟩ ⟨graph.exits.size + i⟩ ∧
      entries[i]? = some ⟨graph.nodes.size + 1 + i⟩) :
    Raises graph graph' record ports := by
  have hnodes : graph'.nodes = graph.nodes.push record ++ joins.toArray :=
    (congrArg Graph.nodes h :)
  have hentries : graph'.entries = graph.entries ++ entries.toArray :=
    (congrArg Graph.entries h :)
  have hin := congrArg Graph.inlets h
  have hout := congrArg Graph.outlets h
  have hexit : graph'.exits = _ := (congrArg Graph.exits h :)
  -- Nodes, entries and exits are the old ones with the new ones behind them; the data pins are read
  -- without their cells
  exact {
    retains := by
      rintro ⟨node⟩ hlt
      rw [node?_of_append hnodes, if_pos hlt]
    node := by rw [node?_of_append hnodes, if_neg (Nat.lt_irrefl _), if_pos rfl]
    parent := hparent
    interface := hinterface
    parts := hparts
    join := by
      rintro ⟨node⟩ found hlt hfound
      -- What stands behind the new node is numbered from there on
      obtain ⟨i, rfl⟩ := Nat.exists_eq_add_of_le (Nat.succ_le_of_lt hlt)
      have hat : joins[i]? = some found := (node?_join hnodes i).symm.trans hfound
      obtain ⟨hunder, hi, hkind, hadmits⟩ := hjoin i found hat
      have hmem : i < joins.length := (List.getElem?_eq_some_iff.mp hat).1
      refine ⟨hunder, _, _, hkind, ?_, ?_, (admitted?_new hentries i).trans hadmits⟩
      · rw [hjoins]
        exact List.mem_map_of_mem (List.mem_range.mpr hmem)
      · rw [hexits]
        exact List.mem_map_of_mem (List.mem_range.mpr hi)
    -- The joins that the interface lists are the nodes behind the new one
    joined := by
      intro join hmem
      rw [hjoins] at hmem
      obtain ⟨i, hi, rfl⟩ := List.mem_map.mp hmem
      refine ⟨Nat.lt_of_lt_of_le (Nat.lt_succ_self _) (Nat.le_add_right _ _), ?_⟩
      rw [node?_join hnodes, List.getElem?_eq_getElem (List.mem_range.mp hi)]
      exact ⟨_, rfl⟩
    composite := hcomposite
    entry := by
      intro entry hsome
      obtain ⟨hacts, rfl, hfirst⟩ := hentry entry hsome
      exact ⟨hacts, (admitted?_new hentries 0).trans hfirst⟩
    admitted := admitted?_old hentries
    -- The new pins belong to the new node, and nothing is fed, relayed or directed by them
    inletOwner := fun inlet hmem => inletOwner?_new hin (hinlets ▸ hmem)
    inletOwner_old := inletOwner?_old hin
    outletOwner := by rw [outletOwner?_of_push hout, houtlet, if_pos rfl]
    outletOwner_old := outletOwner?_old hout
    exitOwner := fun exit hmem => exitOwner?_new hexit (hexits ▸ hmem)
    exitOwner_old := exitOwner?_old hexit
    feeds := feedsOf_of_append hin
    relay := relayOf?_of_push hout
    target := target?_of_append hexit }

section

variable (graph : Graph) (specification : String) (traced : Bool)

theorem raises_addNative (primitive : Primitive) :
    Raises graph (graph.addNative primitive specification traced).2
      { specification, traced, kind := .native primitive (graph.nativePorts primitive) }
      (graph.nativePorts primitive) := by
  have hexits (exits : Array Exit) (exit : Exit) :
      (exits.push exit).push exit = exits ++ Array.replicate 2 exit := by
    apply Array.toList_inj.mp
    simp
  refine @Raises.of_bare graph _ _ _ [] [⟨graph.nodes.size⟩] true primitive.inletCount 2 ?_ rfl rfl
    (fun _ => rfl) rfl rfl rfl ?_ rfl (fun hjoins => absurd rfl hjoins) (by simp)
  -- A primitive has no joins, and its entry admits to it
  · rw [bare_addNative, hexits]
    simp
  · intro entry hsome
    exact ⟨rfl, (Option.some.inj hsome).symm, rfl⟩

theorem raises_addComposite (inletCount exitCount : Nat) :
    Raises graph (graph.addComposite specification inletCount exitCount traced).2
      { specification, traced,
        kind := .composite (graph.compositePorts inletCount exitCount) {} }
      (graph.compositePorts inletCount exitCount) := by
  refine .of_bare (bare_addComposite graph specification inletCount exitCount traced) rfl rfl
    (fun _ => rfl) rfl rfl rfl ?_ ?_ (fun _ => rfl) ?_
  · simp [compositePorts]
  · simp [compositePorts]
  -- The join behind an exit stands under the composite and returns through that exit
  · intro i join hjoin
    rw [List.getElem?_map] at hjoin
    obtain ⟨j, hj, rfl⟩ := Option.map_eq_some_iff.mp hjoin
    obtain ⟨hi, hsame⟩ := List.getElem?_eq_some_iff.mp hj
    rw [List.length_range] at hi
    rw [List.getElem_range] at hsame
    subst hsame
    exact ⟨rfl, hi, rfl, by rw [List.getElem?_map, hj, Option.map_some]⟩

end

end TokenNet.Graph
