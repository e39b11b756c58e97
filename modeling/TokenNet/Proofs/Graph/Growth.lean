import TokenNet.Proofs.Graph.Closed
import TokenNet.Proofs.Table

/-!
# Growth keeps a graph linked and closed

A node comes with its ports, and its ports come before it: while they are made, the entry of the
new node admits the token to a node that is not there yet.  So a graph is not closed between the
single steps of growth, and a whole node is looked at at once.  What the steps before it add are
loose records, which name no handles (`Sprouts`).

## Main statements

- `Linked.addNative`, `Linked.addComposite`, `Linked.adopt`: growth keeps a graph linked.
- `Closed.addNative`, `Closed.addComposite`, `Closed.adopt`: growth keeps a graph closed.
-/

namespace TokenNet.Graph

/-! ## Repetition -/

/-- What one growth keeps, its repetition keeps. -/
theorem times_induction {α : Type} {P : Graph → Prop} {grow : Graph → α × Graph}
    (hgrow : ∀ graph, P graph → P (grow graph).2) :
    ∀ (count : Nat) {graph : Graph}, P graph → P (times grow count graph).2
  | 0, _, h => h
  | count + 1, _, h => times_induction hgrow count (hgrow _ h)

theorem length_times {α : Type} (grow : Graph → α × Graph) :
    ∀ (count : Nat) (graph : Graph), (times grow count graph).1.length = count
  | 0, _ => rfl
  | count + 1, graph => congrArg (· + 1) (length_times grow count (grow graph).2)

/-! ## Ports with cells of their own -/

theorem hasPort_addInlet (graph : Graph) (owner : NodeId) :
    (graph.addInlet owner).2.HasPort (.inlet (graph.addInlet owner).1) := by
  simp [addInlet, HasPort]

theorem hasPort_addOutlet (graph : Graph) (owner : NodeId) :
    (graph.addOutlet owner).2.HasPort (.outlet (graph.addOutlet owner).1) := by
  simp [addOutlet, HasPort]

theorem portCell?_addInlet_fst (graph : Graph) (owner : NodeId) :
    (graph.addInlet owner).2.portCell? (.inlet (graph.addInlet owner).1) = none := by
  simp [addInlet, portCell?, inletCell?, inlet?]

theorem portCell?_addOutlet_fst (graph : Graph) (owner : NodeId) :
    (graph.addOutlet owner).2.portCell? (.outlet (graph.addOutlet owner).1) = none := by
  simp [addOutlet, portCell?, outletCell?, outlet?]

/-- An inlet with a cell of its own is a new inlet that has been given a cell. -/
theorem addOwnInlet_eq (owner : NodeId) (graph : Graph) : addOwnInlet owner graph =
    ((graph.addInlet owner).1,
      ((graph.addInlet owner).2.ensure (.inlet (graph.addInlet owner).1)).2) := by
  rw [ensure_of_none (portCell?_addInlet_fst graph owner)]
  rfl

/-- An outlet with a cell of its own is a new outlet that has been given a cell. -/
theorem addOwnOutlet_eq (owner : NodeId) (graph : Graph) : addOwnOutlet owner graph =
    ((graph.addOutlet owner).1,
      ((graph.addOutlet owner).2.ensure (.outlet (graph.addOutlet owner).1)).2) := by
  rw [ensure_of_none (portCell?_addOutlet_fst graph owner)]
  rfl

/-! ## Growth keeps a graph linked -/

theorem Linked.addOwnInlet {graph : Graph} (h : graph.Linked) (owner : NodeId) :
    (addOwnInlet owner graph).2.Linked := by
  rw [addOwnInlet_eq]
  exact (h.addInlet owner).ensure (hasPort_addInlet graph owner)

theorem Linked.addOwnOutlet {graph : Graph} (h : graph.Linked) (owner : NodeId) :
    (graph.addOwnOutlet owner).2.Linked := by
  rw [addOwnOutlet_eq]
  exact (h.addOutlet owner).ensure (hasPort_addOutlet graph owner)

/-- Nodes, entries and exits do not concern cells. -/
theorem Linked.of_ports_eq {graph graph' : Graph} (h : graph.Linked)
    (hin : graph'.inlets = graph.inlets) (hout : graph'.outlets = graph.outlets)
    (hcells : graph'.cells = graph.cells) : graph'.Linked := by
  refine h.congr (fun port => ?_) hcells
  cases port with
  | inlet inlet => simp only [portCell?, inletCell?, inlet?, hin]
  | outlet outlet => simp only [portCell?, outletCell?, outlet?, hout]

theorem Linked.addEntry {graph : Graph} (h : graph.Linked) (node : NodeId) :
    (graph.addEntry node).2.Linked :=
  h.of_ports_eq rfl rfl rfl

theorem Linked.addNode {graph : Graph} (h : graph.Linked) (record : Node) :
    (graph.addNode record).2.Linked :=
  h.of_ports_eq rfl rfl rfl

theorem Linked.addExits {graph : Graph} (h : graph.Linked) (owner : NodeId) (count : Nat) :
    (graph.times (fun g => g.addExit owner) count).2.Linked :=
  times_induction (fun _ hg => hg.of_ports_eq rfl rfl rfl) count h

theorem Linked.modifyNode {graph : Graph} (h : graph.Linked) (node : NodeId)
    (change : Node → Node) : (graph.modifyNode node change).Linked :=
  h.of_ports_eq rfl rfl rfl

theorem Linked.addNative {graph : Graph} (h : graph.Linked) (primitive : Primitive)
    (specification : String) (traced : Bool) :
    (graph.addNative primitive specification traced).2.Linked := by
  have hinlets := times_induction (fun _ hg => hg.addOwnInlet ⟨graph.nodes.size⟩)
    primitive.inletCount h
  have houtlet := hinlets.addOwnOutlet ⟨graph.nodes.size⟩
  simp only [Graph.addNative]
  exact (((houtlet.markOutlet _).addEntry _).addExits _ _).addNode _

theorem Linked.addJoins {composite : NodeId} {specification : String} {traced : Bool} :
    ∀ (exits : List ExitId) {graph : Graph}, graph.Linked →
    (graph.forEach (addJoin composite specification traced) exits).2.Linked
  | [], _, h => h
  | _ :: rest, _, h => addJoins rest ((h.addEntry _).addNode _)

theorem Linked.addComposite {graph : Graph} (h : graph.Linked) (specification : String)
    (inletCount exitCount : Nat) (traced : Bool) :
    (graph.addComposite specification inletCount exitCount traced).2.Linked := by
  have hinlets := times_induction (fun _ hg => hg.addInlet ⟨graph.nodes.size⟩) inletCount h
  have houtlet := hinlets.addOwnOutlet ⟨graph.nodes.size⟩
  exact (Linked.addJoins _ ((houtlet.addExits _ _).addNode _)).modifyNode _ _

theorem Linked.adopt {graph : Graph} (h : graph.Linked) (composite : NodeId) (role : String)
    (part : NodeId) : (graph.adopt composite role part).Linked :=
  h.of_ports_eq rfl rfl rfl

/-! ## Loose ports -/

/-- A later graph with more data ports and more exits.  The new records name no handles. -/
structure Sprouts (graph graph' : Graph) : Prop where
  nodes : graph'.nodes = graph.nodes
  entries : graph'.entries = graph.entries
  inlets : graph.inlets.size ≤ graph'.inlets.size
  outlets : graph.outlets.size ≤ graph'.outlets.size
  exits : graph.exits.size ≤ graph'.exits.size
  feeds : ∀ record ∈ graph'.inlets, ∀ inner ∈ record.feeds, ∃ old ∈ graph.inlets, inner ∈ old.feeds
  relays : ∀ record ∈ graph'.outlets, ∀ outer, record.relay = some outer →
    ∃ old ∈ graph.outlets, old.relay = some outer
  targets : ∀ record ∈ graph'.exits, ∀ entry, record.target = some entry →
    ∃ old ∈ graph.exits, old.target = some entry

namespace Sprouts

variable {graph graph' graph'' : Graph}

theorem refl (graph : Graph) : graph.Sprouts graph where
  nodes := rfl
  entries := rfl
  inlets := Nat.le_refl _
  outlets := Nat.le_refl _
  exits := Nat.le_refl _
  feeds record hrecord _ hinner := ⟨record, hrecord, hinner⟩
  relays record hrecord _ houter := ⟨record, hrecord, houter⟩
  targets record hrecord _ hentry := ⟨record, hrecord, hentry⟩

theorem trans (h : graph.Sprouts graph') (h' : graph'.Sprouts graph'') :
    graph.Sprouts graph'' where
  nodes := h'.nodes.trans h.nodes
  entries := h'.entries.trans h.entries
  inlets := Nat.le_trans h.inlets h'.inlets
  outlets := Nat.le_trans h.outlets h'.outlets
  exits := Nat.le_trans h.exits h'.exits
  -- What a record of the last graph says was said in the middle one, and hence in the first
  feeds record hrecord inner hinner := by
    obtain ⟨old, hold, hmem⟩ := h'.feeds record hrecord inner hinner
    exact h.feeds old hold inner hmem
  relays record hrecord outer houter := by
    obtain ⟨old, hold, hrelay⟩ := h'.relays record hrecord outer houter
    exact h.relays old hold outer hrelay
  targets record hrecord entry hentry := by
    obtain ⟨old, hold, htarget⟩ := h'.targets record hrecord entry hentry
    exact h.targets old hold entry htarget

theorem of_bare_eq (h : graph'.bare = graph.bare) : graph.Sprouts graph' := by
  have hin : graph'.inlets.map Inlet.bare = graph.inlets.map Inlet.bare :=
    (congrArg Graph.inlets h :)
  have hout : graph'.outlets.map Outlet.bare = graph.outlets.map Outlet.bare :=
    (congrArg Graph.outlets h :)
  have hexits : graph'.exits = graph.exits := (congrArg Graph.exits h :)
  have hext := Extends.of_bare_eq h
  refine ⟨(congrArg Graph.nodes h :), (congrArg Graph.entries h :), hext.inlets, hext.outlets,
    hext.exits, ?_, ?_, ?_⟩
  -- A record is, but for its cell, one of the old records
  · intro record hrecord inner hinner
    have hmem : record.bare ∈ graph.inlets.map Inlet.bare := hin ▸ Array.mem_map_of_mem hrecord
    obtain ⟨old, hold, hsame⟩ := Array.mem_map.mp hmem
    have hfeeds : old.feeds = record.feeds := (congrArg Inlet.feeds hsame :)
    exact ⟨old, hold, hfeeds ▸ hinner⟩
  · intro record hrecord outer houter
    have hmem : record.bare ∈ graph.outlets.map Outlet.bare := hout ▸ Array.mem_map_of_mem hrecord
    obtain ⟨old, hold, hsame⟩ := Array.mem_map.mp hmem
    have hrelay : old.relay = record.relay := (congrArg Outlet.relay hsame :)
    exact ⟨old, hold, hrelay.trans houter⟩
  · intro record hrecord entry hentry
    exact ⟨record, hexits ▸ hrecord, hentry⟩

theorem addInlet (graph : Graph) (owner : NodeId) : graph.Sprouts (graph.addInlet owner).2 := by
  refine { refl graph with inlets := by simp [Graph.addInlet], feeds := ?_ }
  intro record hrecord inner hinner
  rcases Array.mem_push.mp hrecord with hold | rfl
  · exact ⟨record, hold, hinner⟩
  · simp at hinner

theorem addOutlet (graph : Graph) (owner : NodeId) : graph.Sprouts (graph.addOutlet owner).2 := by
  refine { refl graph with outlets := by simp [Graph.addOutlet], relays := ?_ }
  intro record hrecord outer houter
  rcases Array.mem_push.mp hrecord with hold | rfl
  · exact ⟨record, hold, houter⟩
  · simp at houter

theorem addExit (graph : Graph) (owner : NodeId) : graph.Sprouts (graph.addExit owner).2 := by
  refine { refl graph with exits := by simp [Graph.addExit], targets := ?_ }
  intro record hrecord entry hentry
  rcases Array.mem_push.mp hrecord with hold | rfl
  · exact ⟨record, hold, hentry⟩
  · simp at hentry

theorem addOwnInlet (owner : NodeId) (graph : Graph) :
    graph.Sprouts (addOwnInlet owner graph).2 := by
  rw [addOwnInlet_eq]
  exact (addInlet graph owner).trans (of_bare_eq (bare_ensure _ _))

theorem addOwnOutlet (owner : NodeId) (graph : Graph) :
    graph.Sprouts (graph.addOwnOutlet owner).2 := by
  rw [addOwnOutlet_eq]
  exact (addOutlet graph owner).trans (of_bare_eq (bare_ensure _ _))

theorem markOutlet (graph : Graph) (outlet : OutletId) :
    graph.Sprouts (graph.markOutlet outlet) := by
  have hrelay : ∀ record ∈ (graph.markOutlet outlet).outlets, ∀ outer,
      record.relay = some outer → ∃ old ∈ graph.outlets, old.relay = some outer := by
    intro record hrecord outer houter
    have hrecord' : record ∈ graph.outlets.modify outlet.index fun record =>
      { record with wired := true } := hrecord
    obtain ⟨old, hold, rfl | rfl⟩ := mem_of_mem_modify hrecord'
    · exact ⟨_, hold, houter⟩
    · exact ⟨old, hold, houter⟩
  exact { refl graph with outlets := (Extends.modifyOutlet graph outlet _).outlets, relays := hrelay }

/-- A graph that sprouts keeps all handles. -/
theorem toExtends (h : graph.Sprouts graph') : graph.Extends graph' :=
  .of_nodes_eq h.nodes h.inlets h.outlets (Nat.le_of_eq (congrArg Array.size h.entries).symm)
    h.exits

theorem times {α : Type} {grow : Graph → α × Graph} (hgrow : ∀ graph, Sprouts graph (grow graph).2)
    (count : Nat) (graph : Graph) : graph.Sprouts (graph.times grow count).2 :=
  times_induction (fun _ hsprouts => hsprouts.trans (hgrow _)) count (refl graph)

end Sprouts

/-- What holds of everything that is grown and goes on to hold holds at the end. -/
theorem mem_times {α : Type} (Q : Graph → α → Prop) {grow : Graph → α × Graph}
    (hnew : ∀ graph, Q (grow graph).2 (grow graph).1)
    (hold : ∀ graph a, Q graph a → Q (grow graph).2 a) :
    ∀ (count : Nat) (graph : Graph), ∀ a ∈ (times grow count graph).1,
      Q (times grow count graph).2 a
  | 0, _, a, ha => by simp [times] at ha
  | count + 1, graph, a, ha => by
    rcases List.mem_cons.mp ha with rfl | hlater
    · exact times_induction (hold · _) count (hnew graph)
    · exact mem_times Q hnew hold count (grow graph).2 a hlater

theorem hasPort_of_mem_addOwnInlets (owner : NodeId) (count : Nat) (graph : Graph) :
    ∀ inlet ∈ (times (addOwnInlet owner) count graph).1,
      (times (addOwnInlet owner) count graph).2.HasPort (.inlet inlet) := by
  refine mem_times (fun g inlet => g.HasPort (.inlet inlet)) (fun graph => ?_)
    (fun graph inlet hinlet => ?_) count graph
  · rw [addOwnInlet_eq]
    exact (Extends.of_bare_eq (bare_ensure _ _)).hasPort (hasPort_addInlet graph owner)
  · exact (Sprouts.addOwnInlet owner graph).toExtends.hasPort hinlet

theorem hasPort_of_mem_addInlets (owner : NodeId) (count : Nat) (graph : Graph) :
    ∀ inlet ∈ (times (fun g => g.addInlet owner) count graph).1,
      (times (fun g => g.addInlet owner) count graph).2.HasPort (.inlet inlet) :=
  mem_times (fun g inlet => g.HasPort (.inlet inlet)) (fun graph => hasPort_addInlet graph owner)
    (fun graph _ => (Sprouts.addInlet graph owner).toExtends.hasPort) count graph

theorem hasPort_addOwnOutlet (owner : NodeId) (graph : Graph) :
    (graph.addOwnOutlet owner).2.HasPort (.outlet (graph.addOwnOutlet owner).1) := by
  rw [addOwnOutlet_eq]
  exact (Extends.of_bare_eq (bare_ensure _ _)).hasPort (hasPort_addOutlet graph owner)

theorem hasExit_of_mem_addExits (owner : NodeId) (count : Nat) (graph : Graph) :
    ∀ exit ∈ (times (fun g => g.addExit owner) count graph).1,
      (times (fun g => g.addExit owner) count graph).2.HasExit exit :=
  mem_times HasExit (fun graph => by simp [addExit, HasExit])
    (fun graph _ => (Sprouts.addExit graph owner).toExtends.hasExit) count graph

/-! ## Whole nodes -/

theorem Extends.addEntry (graph : Graph) (node : NodeId) :
    graph.Extends (graph.addEntry node).2 :=
  .of_nodes_eq rfl (Nat.le_refl _) (Nat.le_refl _) (by simp [Graph.addEntry]) (Nat.le_refl _)

theorem Extends.addNode (graph : Graph) (record : Node) : graph.Extends (graph.addNode record).2 :=
  .of_push rfl (Nat.le_refl _) (Nat.le_refl _) (Nat.le_refl _) (Nat.le_refl _)

theorem hasEntry_addEntry (graph : Graph) (node : NodeId) :
    (graph.addEntry node).2.HasEntry (graph.addEntry node).1 := by
  simp [addEntry, HasEntry]

theorem node?_addNode_fst (graph : Graph) (record : Node) :
    (graph.addNode record).2.node? (graph.addNode record).1 = some record := by
  simp [addNode, node?]

/-- A node may stand behind ports that have sprouted for it. -/
theorem Closed.addNode {graph sprouted : Graph} (h : graph.Closed)
    (hsprouts : graph.Sprouts sprouted) {record : Node}
    (hknown : (sprouted.addNode record).2.KnowsNode record) :
    (sprouted.addNode record).2.Closed := by
  refine h.of_extends (hsprouts.toExtends.trans (.addNode sprouted record)) ?_
    (fun found hfound inner hinner => Or.inl (hsprouts.feeds found hfound inner hinner))
    (fun found hfound outer houter => Or.inl (hsprouts.relays found hfound outer houter))
    (fun node hnode => Or.inl (hsprouts.entries ▸ hnode))
    (fun found hfound entry hentry => Or.inl (hsprouts.targets found hfound entry hentry))
  intro found hfound
  rcases Array.mem_push.mp hfound with hold | rfl
  · exact Or.inl (hsprouts.nodes ▸ hold)
  · exact Or.inr hknown

/-- A node that acts may stand behind an entry that admits the token to it and behind ports that
have sprouted before and after that entry. -/
theorem Closed.addActor {graph before after : Graph} (h : graph.Closed)
    (hbefore : graph.Sprouts before)
    (hafter : (before.addEntry ⟨graph.nodes.size⟩).2.Sprouts after) {record : Node}
    (hacts : record.acts) (hknown : (after.addNode record).2.KnowsNode record) :
    (after.addNode record).2.Closed := by
  have hext : graph.Extends (after.addNode record).2 :=
    ((hbefore.toExtends.trans (.addEntry before _)).trans hafter.toExtends).trans
      (.addNode after record)
  have hnodes : after.nodes = graph.nodes := hafter.nodes.trans hbefore.nodes
  refine h.of_extends hext ?_ ?_ ?_ ?_ ?_
  · intro found hfound
    rcases Array.mem_push.mp hfound with hold | rfl
    · exact Or.inl (hnodes ▸ hold)
    · exact Or.inr hknown
  · intro found hfound inner hinner
    -- Nothing that sprouts is fed, relays or leads on
    obtain ⟨old, hold, hmem⟩ := hafter.feeds found hfound inner hinner
    exact Or.inl (hbefore.feeds old hold inner hmem)
  · intro found hfound outer houter
    obtain ⟨old, hold, hrelay⟩ := hafter.relays found hfound outer houter
    exact Or.inl (hbefore.relays old hold outer hrelay)
  · intro node hnode
    have hentries : (after.addNode record).2.entries = graph.entries.push ⟨graph.nodes.size⟩ :=
      hafter.entries.trans (congrArg (·.push ⟨graph.nodes.size⟩) hbefore.entries)
    rw [hentries] at hnode
    rcases Array.mem_push.mp hnode with hold | rfl
    · exact Or.inl hold
    · refine Or.inr ⟨record, ?_, hacts⟩
      simp [node?, Graph.addNode, hnodes]
  · intro found hfound entry hentry
    obtain ⟨old, hold, htarget⟩ := hafter.targets found hfound entry hentry
    exact Or.inl (hbefore.targets old hold entry htarget)

/-- A new native node keeps the graph closed, and everything before it stays. -/
theorem Closed.addNative {graph : Graph} (h : graph.Closed) (primitive : Primitive)
    (specification : String) (traced : Bool) :
    (graph.addNative primitive specification traced).2.Closed ∧
      graph.Extends (graph.addNative primitive specification traced).2 ∧
      (graph.addNative primitive specification traced).2.Hosts
        (graph.addNative primitive specification traced).1 := by
  let owner : NodeId := ⟨graph.nodes.size⟩
  have hinlets := Sprouts.times (Sprouts.addOwnInlet owner) primitive.inletCount graph
  -- The pins come first; each group is known in the graph in which it is made
  have hin := hasPort_of_mem_addOwnInlets owner primitive.inletCount graph
  have hout := hasPort_addOwnOutlet owner (graph.times (addOwnInlet owner) primitive.inletCount).2
  simp only [Graph.addNative]
  generalize graph.times (addOwnInlet owner) primitive.inletCount = grown at hinlets hin hout ⊢
  obtain ⟨inlets, g₁⟩ := grown
  have houtlet := Sprouts.addOwnOutlet owner g₁
  generalize g₁.addOwnOutlet owner = grown at houtlet hout ⊢
  obtain ⟨outlet, g₂⟩ := grown
  have hmark := Sprouts.markOutlet g₂ outlet
  have hbefore := (hinlets.trans houtlet).trans hmark
  have hentry := hasEntry_addEntry (g₂.markOutlet outlet) owner
  have hexits := Sprouts.times (fun g => Sprouts.addExit g owner) primitive.exitCount
    ((g₂.markOutlet outlet).addEntry owner).2
  have hexit := hasExit_of_mem_addExits owner primitive.exitCount
    ((g₂.markOutlet outlet).addEntry owner).2
  have hlength := length_times (fun g => g.addExit owner) primitive.exitCount
    ((g₂.markOutlet outlet).addEntry owner).2
  -- Everything that sprouts later leaves the outlet and the inlets where they are
  have hlater : g₂.Extends (times (fun g => g.addExit owner) primitive.exitCount
      ((g₂.markOutlet outlet).addEntry owner).2).2 :=
    (hmark.toExtends.trans (.addEntry _ owner)).trans hexits.toExtends
  have hknows : (times (fun g => g.addExit owner) primitive.exitCount
      ((g₂.markOutlet outlet).addEntry owner).2).2.Knows
        { inlets, outlet, entry := some ((g₂.markOutlet outlet).addEntry owner).1,
          exits := (times (fun g => g.addExit owner) primitive.exitCount
            ((g₂.markOutlet outlet).addEntry owner).2).1 } := by
    -- All that the interface lists is known in the final graph
    constructor
    · intro inlet hinlet
      exact (houtlet.toExtends.trans hlater).hasPort (hin inlet hinlet)
    · exact hlater.hasPort hout
    · intro entry hsame
      rw [Option.some.injEq] at hsame
      exact hexits.toExtends.hasEntry (hsame ▸ hentry)
    · exact hexit
    · simp
  refine ⟨?_, ?_, ?_⟩
  · exact h.addActor hbefore hexits rfl ⟨hknows.mono (.addNode _ _), rfl, hlength⟩
  · exact ((hbefore.toExtends.trans (.addEntry _ owner)).trans hexits.toExtends).trans
      (.addNode _ _)
  · exact ⟨_, node?_addNode_fst _ _, rfl⟩

/-- A new join keeps the graph closed. -/
theorem Closed.addJoin {graph : Graph} (h : graph.Closed) (composite : NodeId)
    (specification : String) (traced : Bool) {exit : ExitId} (hexit : graph.HasExit exit) :
    (addJoin composite specification traced graph exit).2.Closed ∧
      graph.Extends (addJoin composite specification traced graph exit).2 ∧
      (addJoin composite specification traced graph exit).2.Joins
        (addJoin composite specification traced graph exit).1 := by
  have hentry := hasEntry_addEntry graph ⟨graph.nodes.size⟩
  have hext : graph.Extends (Graph.addJoin composite specification traced graph exit).2 :=
    (Extends.addEntry graph _).trans (.addNode _ _)
  refine ⟨?_, hext, ⟨_, node?_addNode_fst _ _, rfl⟩⟩
  exact h.addActor (.refl graph) (.refl _) rfl
    ⟨(Extends.addNode _ _).hasEntry hentry, hext.hasExit hexit⟩

theorem Closed.addJoins (composite : NodeId) (specification : String) (traced : Bool) :
    ∀ (exits : List ExitId) {graph : Graph}, graph.Closed → (∀ exit ∈ exits, graph.HasExit exit) →
    (graph.forEach (Graph.addJoin composite specification traced) exits).2.Closed ∧
      graph.Extends (graph.forEach (Graph.addJoin composite specification traced) exits).2 ∧
      ∀ join ∈ (graph.forEach (Graph.addJoin composite specification traced) exits).1,
        (graph.forEach (Graph.addJoin composite specification traced) exits).2.Joins join
  | [], graph, h, _ => ⟨h, .refl graph, by simp [forEach]⟩
  | exit :: rest, graph, h, hexits => by
    -- The first join is added, and the remaining exits are known in the later graph too
    obtain ⟨hclosed, hext, hjoin⟩ :=
      h.addJoin composite specification traced (hexits exit List.mem_cons_self)
    obtain ⟨hclosed', hext', hjoins⟩ := addJoins composite specification traced rest hclosed
      fun later hlater => hext.hasExit (hexits later (List.mem_cons_of_mem exit hlater))
    refine ⟨hclosed', hext.trans hext', fun join hmem => ?_⟩
    rcases List.mem_cons.mp hmem with rfl | hlater
    · exact hext'.joins hjoin
    · exact hjoins join hlater

/-- A composite may get joins that are joins. -/
theorem Closed.setJoins {graph : Graph} (h : graph.Closed) (node : NodeId) {joins : List NodeId}
    (hjoins : ∀ join ∈ joins, graph.Joins join) :
    (graph.modifyNode node (Node.modifyInterface fun ports => { ports with joins })).Closed := by
  have hext := Extends.modifyInterface graph node fun ports => { ports with joins }
  refine h.modifyNode node hext fun record hrecord => ?_
  have hknown := hrecord.mono hext
  have hjoins' := fun join hmem => hext.joins (hjoins join hmem)
  obtain ⟨_, _, _, _, kind⟩ := record
  cases kind with
  | native primitive ports => exact ⟨{ hknown.1 with joins := hjoins' }, hknown.2⟩
  | composite ports parts => exact ⟨{ hknown.1 with joins := hjoins' }, hknown.2⟩
  | join entry exit => exact hknown

/-- A new composite keeps the graph closed, and everything before it stays. -/
theorem Closed.addComposite {graph : Graph} (h : graph.Closed) (specification : String)
    (inletCount exitCount : Nat) (traced : Bool) :
    (graph.addComposite specification inletCount exitCount traced).2.Closed ∧
      graph.Extends (graph.addComposite specification inletCount exitCount traced).2 ∧
      (graph.addComposite specification inletCount exitCount traced).2.Hosts
        (graph.addComposite specification inletCount exitCount traced).1 := by
  let owner : NodeId := ⟨graph.nodes.size⟩
  have hinlets := Sprouts.times (fun g => Sprouts.addInlet g owner) inletCount graph
  -- The pins come first, and the exits after them
  have hin := hasPort_of_mem_addInlets owner inletCount graph
  simp only [Graph.addComposite]
  generalize graph.times (fun g => g.addInlet owner) inletCount = grown at hinlets hin ⊢
  obtain ⟨inlets, g₁⟩ := grown
  have houtlet := Sprouts.addOwnOutlet owner g₁
  have hout := hasPort_addOwnOutlet owner g₁
  generalize g₁.addOwnOutlet owner = grown at houtlet hout ⊢
  obtain ⟨outlet, g₂⟩ := grown
  have hexits := Sprouts.times (fun g => Sprouts.addExit g owner) exitCount g₂
  have hexit := hasExit_of_mem_addExits owner exitCount g₂
  generalize g₂.times (fun g => g.addExit owner) exitCount = grown at hexits hexit ⊢
  obtain ⟨exits, g₃⟩ := grown
  have hsprouts := (hinlets.trans houtlet).trans hexits
  have hknows : g₃.Knows { inlets, outlet, exits } := by
    -- All that the interface lists is known once the exits are there
    constructor
    · intro inlet hinlet
      exact (houtlet.trans hexits).toExtends.hasPort (hin inlet hinlet)
    · exact hexits.toExtends.hasPort hout
    · simp
    · exact hexit
    · simp
  let record : Node := { specification, traced, kind := .composite { inlets, outlet, exits } {} }
  have hknown : (g₃.addNode record).2.KnowsNode record :=
    ⟨hknows.mono (.addNode _ _), by simp [Table.get?]⟩
  have hnode := h.addNode hsprouts hknown
  have hhosts := node?_addNode_fst g₃ record
  have hstep := Extends.addNode g₃ record
  -- Joins come last, since they stand under the new node and return through its exits
  change (Graph.modifyNode _ _ _).Closed ∧ Extends _ (Graph.modifyNode _ _ _) ∧ _
  generalize g₃.addNode record = grown at hnode hhosts hstep ⊢
  obtain ⟨node, g₄⟩ := grown
  obtain ⟨hclosed, hlater, hjoins⟩ := hnode.addJoins node specification traced exits
    fun exit hmem => hstep.hasExit (hexit exit hmem)
  refine ⟨hclosed.setJoins node hjoins, ?_, ?_⟩
  · exact ((hsprouts.toExtends.trans hstep).trans hlater).trans (.modifyInterface _ node _)
  · exact (hlater.trans (.modifyInterface _ node _)).hosts ⟨_, hhosts, rfl⟩

/-- A change of a node that leaves its kind alone keeps the graph closed. -/
theorem Closed.modifyNode_of_kind_eq {graph : Graph} (h : graph.Closed) (node : NodeId)
    {change : Node → Node} (hkind : ∀ record, (change record).kind = record.kind) :
    (graph.modifyNode node change).Closed ∧ graph.Extends (graph.modifyNode node change) := by
  have hext := Extends.modifyNode graph node
    (fun record => by unfold Node.acts; rw [hkind])
    (fun record => by unfold Node.isJoin; rw [hkind])
  refine ⟨h.modifyNode node hext fun record hrecord => ?_, hext⟩
  have hknown := hrecord.mono hext
  unfold KnowsNode at hknown ⊢
  rw [hkind]
  exact hknown

/-- A composite may take up a part that can be one. -/
theorem Closed.addPart {graph : Graph} (h : graph.Closed) (composite : NodeId) (role : String)
    {part : NodeId} (hpart : graph.Hosts part) :
    (graph.modifyNode composite (Node.addPart role part)).Closed ∧
      graph.Extends (graph.modifyNode composite (Node.addPart role part)) := by
  have hext := Extends.modifyNode graph composite (Node.acts_addPart role part)
    (Node.isJoin_addPart role part)
  refine ⟨h.modifyNode composite hext fun record hrecord => ?_, hext⟩
  have hknown := hrecord.mono hext
  obtain ⟨_, _, _, _, kind⟩ := record
  cases kind with
  | native primitive ports => exact hknown
  | join entry exit => exact hknown
  -- A composite knows its old parts and the new one, and no other record changes
  | composite ports parts =>
    refine ⟨hknown.1, fun other found hfound => ?_⟩
    rw [Table.get?_insert] at hfound
    split at hfound
    next =>
      rw [Option.some.injEq] at hfound
      exact hfound ▸ hext.hosts hpart
    next => exact hknown.2 other found hfound

/-- Giving a part its place keeps the graph closed. -/
theorem Closed.adopt {graph : Graph} (h : graph.Closed) (composite : NodeId) (role : String)
    {part : NodeId} (hpart : graph.Hosts part) :
    (graph.adopt composite role part).Closed ∧ graph.Extends (graph.adopt composite role part) := by
  let place : Node → Node := fun node =>
    { node with parent := some composite, role := some role }
  have hkind : ∀ record, (place record).kind = record.kind := fun _ => rfl
  obtain ⟨hclosed, hext⟩ := h.modifyNode_of_kind_eq part hkind
  obtain ⟨hclosed', hext'⟩ := hclosed.addPart composite role (hext.hosts hpart)
  exact ⟨hclosed', hext.trans hext'⟩

end TokenNet.Graph
