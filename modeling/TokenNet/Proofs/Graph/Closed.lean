import TokenNet.Proofs.Graph.Bare

/-!
# Graphs that know all their handles

A graph is *closed* when every handle stored in one of its records is a handle that the graph has
issued, and of the right kind: entries admit the token to nodes that act, joins are joins, parts
are not, and a native node has all the exits that its primitive can fire.  A look-up made with a
stored handle then always finds a record.

Graphs only grow, and a node never changes what it is.  So a handle that was issued stays issued
(`Extends`), and to see that a graph stays closed it is enough to look at the records that are new
or have changed.

## Main statements

- `Extends`: what later graphs keep of earlier ones.
- `Closed.addNative`, `Closed.addComposite`, `Closed.adopt`: growth keeps a graph closed.
- `Closed.connect`, `Closed.feed`, `Closed.relay`, `Closed.setTarget`, `Closed.setEntry`,
  `Closed.detach`, `Closed.write`: so does wiring with issued handles, and so do values.
-/

namespace TokenNet

/-! ## Arrays -/

theorem mem_of_mem_modify {α : Type} {records : Array α} {index : Nat} {change : α → α} {a : α}
    (h : a ∈ records.modify index change) : ∃ old ∈ records, a = old ∨ a = change old := by
  obtain ⟨i, hi⟩ := Array.mem_iff_getElem?.mp h
  rw [Array.getElem?_modify] at hi
  split at hi
  · obtain ⟨old, hold, rfl⟩ := Option.map_eq_some_iff.mp hi
    exact ⟨old, Array.mem_of_getElem? hold, Or.inr rfl⟩
  · exact ⟨a, Array.mem_of_getElem? hi, Or.inl rfl⟩

/-! ## Kinds of nodes -/

namespace Node

/-- Whether the token may come to a node: composites do not act. -/
def acts (record : Node) : Bool :=
  match record.kind with
  | .native .. => true
  | .composite .. => false
  | .join .. => true

/-- Whether a node is a join. -/
def isJoin (record : Node) : Bool :=
  match record.kind with
  | .join .. => true
  | _ => false

@[simp] theorem acts_modifyInterface (change : Interface → Interface) (record : Node) :
    (record.modifyInterface change).acts = record.acts := by
  obtain ⟨_, _, _, _, kind⟩ := record
  cases kind <;> rfl

@[simp] theorem isJoin_modifyInterface (change : Interface → Interface) (record : Node) :
    (record.modifyInterface change).isJoin = record.isJoin := by
  obtain ⟨_, _, _, _, kind⟩ := record
  cases kind <;> rfl

@[simp] theorem acts_addPart (role : String) (part : NodeId) (record : Node) :
    (record.addPart role part).acts = record.acts := by
  obtain ⟨_, _, _, _, kind⟩ := record
  cases kind <;> rfl

@[simp] theorem isJoin_addPart (role : String) (part : NodeId) (record : Node) :
    (record.addPart role part).isJoin = record.isJoin := by
  obtain ⟨_, _, _, _, kind⟩ := record
  cases kind <;> rfl

end Node

namespace Graph

/-! ## Issued handles -/

/-- Whether a graph has an entry. -/
def HasEntry (graph : Graph) (entry : EntryId) : Prop :=
  entry.index < graph.entries.size

/-- Whether a graph has an exit. -/
def HasExit (graph : Graph) (exit : ExitId) : Prop :=
  exit.index < graph.exits.size

theorem target?_setTarget (graph : Graph) (directed : ExitId) (target : Option EntryId)
    (exit : ExitId) : (graph.setTarget directed target).target? exit =
      if exit = directed then (graph.exit? exit).bind fun _ => target else graph.target? exit := by
  unfold target? exit? setTarget
  rw [Array.getElem?_modify]
  by_cases hsame : exit = directed
  · rw [if_pos hsame, if_pos (congrArg ExitId.index hsame).symm]
    cases graph.exits[exit.index]? <;> rfl
  · have hindex : directed.index ≠ exit.index := fun heq => hsame (congrArg ExitId.mk heq.symm)
    rw [if_neg hsame, if_neg hindex]

theorem target?_setTarget_of_hasExit {graph : Graph} {changed : ExitId}
    (h : graph.HasExit changed) (target : Option EntryId) (exit : ExitId) :
    (graph.setTarget changed target).target? exit =
      if exit = changed then target else graph.target? exit := by
  rw [target?_setTarget]
  refine ite_congr rfl (fun hsame => ?_) fun _ => rfl
  -- The exit is issued, so the change of its record is not lost
  have hrecord : graph.exit? changed = some graph.exits[changed.index] :=
    Array.getElem?_eq_getElem h
  rw [hsame, hrecord]
  rfl

/-- A node to which the token may come: a native node or a join. -/
def Acts (graph : Graph) (node : NodeId) : Prop :=
  ∃ record, graph.node? node = some record ∧ record.acts

/-- A node that stands behind an exit of a composite. -/
def Joins (graph : Graph) (node : NodeId) : Prop :=
  ∃ record, graph.node? node = some record ∧ record.isJoin

/-- A node that can be a part: a native node or a composite. -/
def Hosts (graph : Graph) (node : NodeId) : Prop :=
  ∃ record, graph.node? node = some record ∧ record.isJoin = false

/-! ## Later graphs -/

/-- A later graph has every handle of an earlier one, and its nodes are what they were. -/
structure Extends (graph graph' : Graph) : Prop where
  inlets : graph.inlets.size ≤ graph'.inlets.size
  outlets : graph.outlets.size ≤ graph'.outlets.size
  entries : graph.entries.size ≤ graph'.entries.size
  exits : graph.exits.size ≤ graph'.exits.size
  nodes : ∀ {node record}, graph.node? node = some record → ∃ record',
    graph'.node? node = some record' ∧ record'.acts = record.acts ∧
      record'.isJoin = record.isJoin

namespace Extends

variable {graph graph' graph'' : Graph}

theorem refl (graph : Graph) : graph.Extends graph :=
  ⟨Nat.le_refl _, Nat.le_refl _, Nat.le_refl _, Nat.le_refl _, fun h => ⟨_, h, rfl, rfl⟩⟩

theorem trans (h : graph.Extends graph') (h' : graph'.Extends graph'') :
    graph.Extends graph'' where
  inlets := Nat.le_trans h.inlets h'.inlets
  outlets := Nat.le_trans h.outlets h'.outlets
  entries := Nat.le_trans h.entries h'.entries
  exits := Nat.le_trans h.exits h'.exits
  nodes hrecord := by
    obtain ⟨_, hrecord', hacts, hjoin⟩ := h.nodes hrecord
    obtain ⟨record'', hrecord'', hacts', hjoin'⟩ := h'.nodes hrecord'
    exact ⟨record'', hrecord'', hacts'.trans hacts, hjoin'.trans hjoin⟩

theorem hasPort (h : graph.Extends graph') {port : Port} (hport : graph.HasPort port) :
    graph'.HasPort port := by
  cases port with
  | inlet inlet => exact Nat.lt_of_lt_of_le hport h.inlets
  | outlet outlet => exact Nat.lt_of_lt_of_le hport h.outlets

theorem hasEntry (h : graph.Extends graph') {entry : EntryId} (hentry : graph.HasEntry entry) :
    graph'.HasEntry entry :=
  Nat.lt_of_lt_of_le hentry h.entries

theorem hasExit (h : graph.Extends graph') {exit : ExitId} (hexit : graph.HasExit exit) :
    graph'.HasExit exit :=
  Nat.lt_of_lt_of_le hexit h.exits

theorem acts (h : graph.Extends graph') {node : NodeId} (hnode : graph.Acts node) :
    graph'.Acts node := by
  obtain ⟨record, hrecord, hacts⟩ := hnode
  obtain ⟨record', hrecord', hsame, _⟩ := h.nodes hrecord
  exact ⟨record', hrecord', hsame.trans hacts⟩

theorem joins (h : graph.Extends graph') {node : NodeId} (hnode : graph.Joins node) :
    graph'.Joins node := by
  obtain ⟨record, hrecord, hjoin⟩ := hnode
  obtain ⟨record', hrecord', _, hsame⟩ := h.nodes hrecord
  exact ⟨record', hrecord', hsame.trans hjoin⟩

theorem hosts (h : graph.Extends graph') {node : NodeId} (hnode : graph.Hosts node) :
    graph'.Hosts node := by
  obtain ⟨record, hrecord, hjoin⟩ := hnode
  obtain ⟨record', hrecord', _, hsame⟩ := h.nodes hrecord
  exact ⟨record', hrecord', hsame.trans hjoin⟩

/-- New nodes stand behind the old ones. -/
theorem of_push (hnodes : graph'.nodes = graph.nodes.push record)
    (hin : graph.inlets.size ≤ graph'.inlets.size)
    (hout : graph.outlets.size ≤ graph'.outlets.size)
    (hentries : graph.entries.size ≤ graph'.entries.size)
    (hexits : graph.exits.size ≤ graph'.exits.size) : graph.Extends graph' := by
  refine ⟨hin, hout, hentries, hexits, fun {node found} hfound => ⟨found, ?_, rfl, rfl⟩⟩
  -- A node that is found stands in front of the new one
  have hlt := (Array.getElem?_eq_some_iff.mp hfound).1
  simp only [node?] at hfound ⊢
  rw [hnodes, Array.getElem?_push_lt hlt, ← Array.getElem?_eq_getElem hlt, hfound]

/-- Growth of the ports alone. -/
theorem of_nodes_eq (hnodes : graph'.nodes = graph.nodes)
    (hin : graph.inlets.size ≤ graph'.inlets.size)
    (hout : graph.outlets.size ≤ graph'.outlets.size)
    (hentries : graph.entries.size ≤ graph'.entries.size)
    (hexits : graph.exits.size ≤ graph'.exits.size) : graph.Extends graph' := by
  refine ⟨hin, hout, hentries, hexits, fun {node found} hfound => ⟨found, ?_, rfl, rfl⟩⟩
  simpa [node?, hnodes] using hfound

/-- A change of a node that keeps what it is. -/
theorem modifyNode (graph : Graph) (node : NodeId) {change : Node → Node}
    (hacts : ∀ record, (change record).acts = record.acts)
    (hjoin : ∀ record, (change record).isJoin = record.isJoin) :
    graph.Extends (graph.modifyNode node change) := by
  refine ⟨Nat.le_refl _, Nat.le_refl _, Nat.le_refl _, Nat.le_refl _, fun {other record} hrecord => ?_⟩
  simp only [node?, Graph.modifyNode, Array.getElem?_modify] at hrecord ⊢
  split
  · exact ⟨change record, by simp [hrecord], hacts record, hjoin record⟩
  · exact ⟨record, hrecord, rfl, rfl⟩

end Extends

/-! ## Closed graphs -/

/-- The handles of an interface are issued. -/
structure Knows (graph : Graph) (ports : Interface) : Prop where
  inlets : ∀ inlet ∈ ports.inlets, graph.HasPort (.inlet inlet)
  outlet : graph.HasPort (.outlet ports.outlet)
  entry : ∀ entry, ports.entry = some entry → graph.HasEntry entry
  exits : ∀ exit ∈ ports.exits, graph.HasExit exit
  joins : ∀ join ∈ ports.joins, graph.Joins join

/-- The handles of a node are issued. -/
def KnowsNode (graph : Graph) (record : Node) : Prop :=
  match record.kind with
  | .native primitive ports =>
    graph.Knows ports ∧ ports.entry.isSome ∧ ports.exits.length = primitive.exitCount
  | .composite ports parts =>
    graph.Knows ports ∧ ∀ role part, parts.get? role = some part → graph.Hosts part
  | .join entry exit => graph.HasEntry entry ∧ graph.HasExit exit

/-- Every stored handle is issued. -/
structure Closed (graph : Graph) : Prop where
  nodes : ∀ record ∈ graph.nodes, graph.KnowsNode record
  feeds : ∀ record ∈ graph.inlets, ∀ inner ∈ record.feeds, graph.HasPort (.inlet inner)
  relays : ∀ record ∈ graph.outlets, ∀ outer, record.relay = some outer →
    graph.HasPort (.outlet outer)
  entries : ∀ node ∈ graph.entries, graph.Acts node
  targets : ∀ record ∈ graph.exits, ∀ entry, record.target = some entry → graph.HasEntry entry

theorem Knows.mono {graph graph' : Graph} (h : graph.Extends graph') {ports : Interface}
    (hports : graph.Knows ports) : graph'.Knows ports where
  inlets inlet hinlet := h.hasPort (hports.inlets inlet hinlet)
  outlet := h.hasPort hports.outlet
  entry entry hentry := h.hasEntry (hports.entry entry hentry)
  exits exit hexit := h.hasExit (hports.exits exit hexit)
  joins join hjoin := h.joins (hports.joins join hjoin)

theorem KnowsNode.mono {graph graph' : Graph} (h : graph.Extends graph') {record : Node}
    (hrecord : graph.KnowsNode record) : graph'.KnowsNode record := by
  unfold KnowsNode at hrecord ⊢
  split at hrecord
  next => exact ⟨hrecord.1.mono h, hrecord.2⟩
  next => exact ⟨hrecord.1.mono h, fun role part hpart => h.hosts (hrecord.2 role part hpart)⟩
  next => exact ⟨h.hasEntry hrecord.1, h.hasExit hrecord.2⟩

theorem Closed.empty : Closed ({} : Graph) := by
  constructor <;> simp

/-! ### What a closed graph answers -/

namespace Closed

variable {graph : Graph}

theorem knowsNode (h : graph.Closed) {node : NodeId} {record : Node}
    (hrecord : graph.node? node = some record) : graph.KnowsNode record :=
  h.nodes record (Array.mem_of_getElem? hrecord)

theorem knows (h : graph.Closed) {node : NodeId} {ports : Interface}
    (hports : graph.interface? node = some ports) : graph.Knows ports := by
  obtain ⟨record, hrecord, hinterface⟩ := Option.bind_eq_some_iff.mp hports
  have hknown := h.knowsNode hrecord
  unfold KnowsNode at hknown
  unfold Node.interface? at hinterface
  split at hinterface <;> simp_all

theorem hosts_of_part? (h : graph.Closed) {composite part : NodeId} {role : String}
    (hpart : graph.part? composite role = some part) : graph.Hosts part := by
  obtain ⟨record, hrecord, hrole⟩ := Option.bind_eq_some_iff.mp hpart
  have hknown := h.knowsNode hrecord
  unfold KnowsNode at hknown
  unfold Node.part? Node.parts? at hrole
  split at hrole
  next hkind =>
    rw [hkind] at hknown
    exact hknown.2 role part hrole
  next => simp at hrole

theorem hasEntry_of_entryOf? (h : graph.Closed) {node : NodeId} {entry : EntryId}
    (hentry : graph.entryOf? node = some entry) : graph.HasEntry entry := by
  obtain ⟨record, hrecord, hnode⟩ := Option.bind_eq_some_iff.mp hentry
  have hknown := h.knowsNode hrecord
  unfold KnowsNode at hknown
  unfold Node.entry? at hnode
  -- The entry of a join is its own; the others list theirs in the interface.
  split at hnode
  next hkind =>
    rw [hkind] at hknown
    rw [Option.some.injEq] at hnode
    exact hnode ▸ hknown.1
  next hkind =>
    rw [hkind] at hknown
    exact hknown.1.entry entry hnode
  next hkind =>
    rw [hkind] at hknown
    exact hknown.1.entry entry hnode

/-- **The token only comes to nodes that act**: an issued entry admits it to a native node or to a
join. -/
theorem acts_of_hasEntry (h : graph.Closed) {entry : EntryId} (hentry : graph.HasEntry entry) :
    ∃ node, graph.admitted? entry = some node ∧ graph.Acts node :=
  ⟨graph.entries[entry.index], Array.getElem?_eq_getElem hentry,
    h.entries _ (Array.getElem_mem hentry)⟩

theorem hasEntry_of_target? (h : graph.Closed) {exit : ExitId} {entry : EntryId}
    (htarget : graph.target? exit = some entry) : graph.HasEntry entry := by
  obtain ⟨record, hrecord, hentry⟩ := Option.bind_eq_some_iff.mp htarget
  exact h.targets record (Array.mem_of_getElem? hrecord) entry hentry

theorem hasPort_of_feeds (h : graph.Closed) {inlet inner : InletId} {record : Inlet}
    (hrecord : graph.inlet? inlet = some record) (hinner : inner ∈ record.feeds) :
    graph.HasPort (.inlet inner) :=
  h.feeds record (Array.mem_of_getElem? hrecord) inner hinner

theorem hasPort_of_relay (h : graph.Closed) {outlet outer : OutletId} {record : Outlet}
    (hrecord : graph.outlet? outlet = some record) (houter : record.relay = some outer) :
    graph.HasPort (.outlet outer) :=
  h.relays record (Array.mem_of_getElem? hrecord) outer houter

end Closed

/-! ### Keeping a graph closed -/

/-- Only what is new or has changed must be looked at. -/
theorem Closed.of_extends {graph graph' : Graph} (h : graph.Closed) (hext : graph.Extends graph')
    (nodes : ∀ record ∈ graph'.nodes, record ∈ graph.nodes ∨ graph'.KnowsNode record)
    (feeds : ∀ record ∈ graph'.inlets, ∀ inner ∈ record.feeds,
      (∃ old ∈ graph.inlets, inner ∈ old.feeds) ∨ graph'.HasPort (.inlet inner))
    (relays : ∀ record ∈ graph'.outlets, ∀ outer, record.relay = some outer →
      (∃ old ∈ graph.outlets, old.relay = some outer) ∨ graph'.HasPort (.outlet outer))
    (entries : ∀ node ∈ graph'.entries, node ∈ graph.entries ∨ graph'.Acts node)
    (targets : ∀ record ∈ graph'.exits, ∀ entry, record.target = some entry →
      (∃ old ∈ graph.exits, old.target = some entry) ∨ graph'.HasEntry entry) :
    graph'.Closed where
  -- Every record is an old one, whose handles are known still, or a new one that is known to be
  -- right
  nodes record hrecord := by
    rcases nodes record hrecord with hold | hnew
    · exact (h.nodes record hold).mono hext
    · exact hnew
  feeds record hrecord inner hinner := by
    rcases feeds record hrecord inner hinner with ⟨old, hold, hmem⟩ | hnew
    · exact hext.hasPort (h.feeds old hold inner hmem)
    · exact hnew
  relays record hrecord outer houter := by
    rcases relays record hrecord outer houter with ⟨old, hold, hmem⟩ | hnew
    · exact hext.hasPort (h.relays old hold outer hmem)
    · exact hnew
  entries node hnode := by
    rcases entries node hnode with hold | hnew
    · exact hext.acts (h.entries node hold)
    · exact hnew
  targets record hrecord entry hentry := by
    rcases targets record hrecord entry hentry with ⟨old, hold, hmem⟩ | hnew
    · exact hext.hasEntry (h.targets old hold entry hmem)
    · exact hnew

theorem Extends.of_bare_eq {graph graph' : Graph} (h : graph'.bare = graph.bare) :
    graph.Extends graph' := by
  have hin := congrArg (fun g => g.inlets.size) h
  have hout := congrArg (fun g => g.outlets.size) h
  simp only [bare, Array.size_map] at hin hout
  exact .of_nodes_eq (congrArg Graph.nodes h :) (Nat.le_of_eq hin.symm) (Nat.le_of_eq hout.symm)
    (Nat.le_of_eq (congrArg (fun g => g.entries.size) h :).symm)
    (Nat.le_of_eq (congrArg (fun g => g.exits.size) h :).symm)

/-- Being closed does not concern cells. -/
theorem Closed.of_bare_eq {graph graph' : Graph} (h : graph.Closed)
    (hbare : graph'.bare = graph.bare) : graph'.Closed := by
  -- Without cells both graphs are the same, and so is every list of records up to the cells
  have hnodes : graph'.nodes = graph.nodes := (congrArg Graph.nodes hbare :)
  have hin : graph'.inlets.map Inlet.bare = graph.inlets.map Inlet.bare :=
    (congrArg Graph.inlets hbare :)
  have hout : graph'.outlets.map Outlet.bare = graph.outlets.map Outlet.bare :=
    (congrArg Graph.outlets hbare :)
  have hentries : graph'.entries = graph.entries := (congrArg Graph.entries hbare :)
  have hexits : graph'.exits = graph.exits := (congrArg Graph.exits hbare :)
  refine h.of_extends (.of_bare_eq hbare) ?_ ?_ ?_ ?_ ?_
  · intro record hrecord
    exact Or.inl (hnodes ▸ hrecord)
  · intro record hrecord inner hinner
    have hmem : record.bare ∈ graph.inlets.map Inlet.bare := hin ▸ Array.mem_map_of_mem hrecord
    obtain ⟨old, hold, hsame⟩ := Array.mem_map.mp hmem
    have hfeeds : old.feeds = record.feeds := (congrArg Inlet.feeds hsame :)
    exact Or.inl ⟨old, hold, hfeeds ▸ hinner⟩
  · intro record hrecord outer houter
    have hmem : record.bare ∈ graph.outlets.map Outlet.bare := hout ▸ Array.mem_map_of_mem hrecord
    obtain ⟨old, hold, hsame⟩ := Array.mem_map.mp hmem
    have hrelay : old.relay = record.relay := (congrArg Outlet.relay hsame :)
    exact Or.inl ⟨old, hold, hrelay.trans houter⟩
  · intro node hnode
    exact Or.inl (hentries ▸ hnode)
  · intro record hrecord entry hentry
    exact Or.inl ⟨record, hexits ▸ hrecord, hentry⟩

/-! ### Wiring -/

theorem Extends.modifyInlet (graph : Graph) (inlet : InletId) (change : Inlet → Inlet) :
    graph.Extends (graph.modifyInlet inlet change) :=
  .of_nodes_eq rfl (by simp [Graph.modifyInlet]) (Nat.le_refl _) (Nat.le_refl _) (Nat.le_refl _)

theorem Extends.modifyOutlet (graph : Graph) (outlet : OutletId) (change : Outlet → Outlet) :
    graph.Extends (graph.modifyOutlet outlet change) :=
  .of_nodes_eq rfl (Nat.le_refl _) (by simp [Graph.modifyOutlet]) (Nat.le_refl _) (Nat.le_refl _)

/-- An inlet may get feeds that are issued. -/
theorem Closed.modifyInlet {graph : Graph} (h : graph.Closed) (inlet : InletId)
    {change : Inlet → Inlet} (hchange : ∀ record, ∀ inner ∈ (change record).feeds,
      inner ∈ record.feeds ∨ graph.HasPort (.inlet inner)) :
    (graph.modifyInlet inlet change).Closed := by
  have hext := Extends.modifyInlet graph inlet change
  refine h.of_extends hext (fun _ => Or.inl) ?_ (fun record hrecord outer houter =>
    Or.inl ⟨record, hrecord, houter⟩) (fun _ => Or.inl) (fun record hrecord entry hentry =>
    Or.inl ⟨record, hrecord, hentry⟩)
  intro record hrecord inner hinner
  -- Only the record that has changed can feed something new
  obtain ⟨old, hold, rfl | rfl⟩ := mem_of_mem_modify hrecord
  · exact Or.inl ⟨_, hold, hinner⟩
  · rcases hchange old inner hinner with hmem | hport
    · exact Or.inl ⟨old, hold, hmem⟩
    · exact Or.inr (hext.hasPort hport)

/-- An outlet may get a relay that is issued. -/
theorem Closed.modifyOutlet {graph : Graph} (h : graph.Closed) (outlet : OutletId)
    {change : Outlet → Outlet} (hchange : ∀ record outer, (change record).relay = some outer →
      record.relay = some outer ∨ graph.HasPort (.outlet outer)) :
    (graph.modifyOutlet outlet change).Closed := by
  have hext := Extends.modifyOutlet graph outlet change
  refine h.of_extends hext (fun _ => Or.inl) (fun record hrecord inner hinner =>
    Or.inl ⟨record, hrecord, hinner⟩) ?_ (fun _ => Or.inl) (fun record hrecord entry hentry =>
    Or.inl ⟨record, hrecord, hentry⟩)
  intro record hrecord outer houter
  -- Only the record that has changed can relay to something new
  obtain ⟨old, hold, rfl | rfl⟩ := mem_of_mem_modify hrecord
  · exact Or.inl ⟨_, hold, houter⟩
  · rcases hchange old outer houter with hrelay | hport
    · exact Or.inl ⟨old, hold, hrelay⟩
    · exact Or.inr (hext.hasPort hport)

theorem Closed.markInlet {graph : Graph} (h : graph.Closed) (inlet : InletId) :
    (graph.markInlet inlet).Closed :=
  h.modifyInlet inlet fun _ _ => Or.inl

theorem Closed.markOutlet {graph : Graph} (h : graph.Closed) (outlet : OutletId) :
    (graph.markOutlet outlet).Closed :=
  h.modifyOutlet outlet fun _ _ => Or.inl

theorem Closed.connect {graph : Graph} (h : graph.Closed) (inlet : InletId) (outlet : OutletId) :
    (graph.connect inlet outlet).Closed :=
  (h.of_bare_eq (bare_unite graph inlet outlet)).markInlet inlet

theorem Extends.connect (graph : Graph) (inlet : InletId) (outlet : OutletId) :
    graph.Extends (graph.connect inlet outlet) :=
  (Extends.of_bare_eq (bare_unite graph inlet outlet)).trans (.modifyInlet _ inlet _)

theorem Closed.feed {graph : Graph} (h : graph.Closed) (outer : InletId) {inner : InletId}
    (hinner : graph.HasPort (.inlet inner)) : (graph.feed outer inner).Closed := by
  have hbare : (graph.ensureInletCell inner).2.bare = graph.bare :=
    bare_ensure graph (.inlet inner)
  refine Closed.markInlet (Closed.modifyInlet (h.of_bare_eq hbare) outer ?_) inner
  intro record other hother
  -- The inner inlet is issued, and the cell it may have got takes nothing away
  rcases Cell.mem_joined.mp hother with hmem | rfl
  · exact Or.inl hmem
  · exact Or.inr ((Extends.of_bare_eq hbare).hasPort hinner)

theorem Extends.feed (graph : Graph) (outer inner : InletId) :
    graph.Extends (graph.feed outer inner) :=
  have hbare : (graph.ensureInletCell inner).2.bare = graph.bare :=
    bare_ensure graph (.inlet inner)
  ((Extends.of_bare_eq hbare).trans (.modifyInlet _ outer _)).trans (.modifyInlet _ inner _)

theorem Closed.relay {graph : Graph} (h : graph.Closed) {outer : OutletId} (inner : OutletId)
    (houter : graph.HasPort (.outlet outer)) : (graph.relay outer inner).Closed := by
  have hbare : (graph.ensureOutletCell outer).2.bare = graph.bare :=
    bare_ensure graph (.outlet outer)
  refine Closed.markOutlet (Closed.modifyOutlet (h.of_bare_eq hbare) inner ?_) outer
  intro record other hother
  rw [Option.some.injEq] at hother
  exact Or.inr ((Extends.of_bare_eq hbare).hasPort (hother ▸ houter))

theorem Extends.relay (graph : Graph) (outer inner : OutletId) :
    graph.Extends (graph.relay outer inner) :=
  have hbare : (graph.ensureOutletCell outer).2.bare = graph.bare :=
    bare_ensure graph (.outlet outer)
  ((Extends.of_bare_eq hbare).trans (.modifyOutlet _ inner _)).trans (.modifyOutlet _ outer _)

theorem Extends.setTarget (graph : Graph) (exit : ExitId) (target : Option EntryId) :
    graph.Extends (graph.setTarget exit target) :=
  .of_nodes_eq rfl (Nat.le_refl _) (Nat.le_refl _) (Nat.le_refl _) (by simp [Graph.setTarget])

theorem Closed.setTarget {graph : Graph} (h : graph.Closed) (exit : ExitId)
    {target : Option EntryId} (htarget : ∀ entry, target = some entry → graph.HasEntry entry) :
    (graph.setTarget exit target).Closed := by
  refine h.of_extends (.setTarget graph exit target) (fun _ => Or.inl)
    (fun record hrecord inner hinner => Or.inl ⟨record, hrecord, hinner⟩)
    (fun record hrecord outer houter => Or.inl ⟨record, hrecord, houter⟩) (fun _ => Or.inl) ?_
  intro record hrecord entry hentry
  have hrecord' : record ∈ graph.exits.modify exit.index fun record => { record with target } :=
    hrecord
  obtain ⟨old, hold, rfl | rfl⟩ := mem_of_mem_modify hrecord'
  · exact Or.inl ⟨_, hold, hentry⟩
  · exact Or.inr (htarget entry hentry)

/-- A node may change if it keeps what it is and knows its handles afterwards. -/
theorem Closed.modifyNode {graph : Graph} (h : graph.Closed) (node : NodeId)
    {change : Node → Node} (hext : graph.Extends (graph.modifyNode node change))
    (hchange : ∀ record, graph.KnowsNode record →
      (graph.modifyNode node change).KnowsNode (change record)) :
    (graph.modifyNode node change).Closed := by
  refine h.of_extends hext ?_ (fun record hrecord inner hinner => Or.inl ⟨record, hrecord, hinner⟩)
    (fun record hrecord outer houter => Or.inl ⟨record, hrecord, houter⟩) (fun _ => Or.inl)
    (fun record hrecord entry hentry => Or.inl ⟨record, hrecord, hentry⟩)
  intro record hrecord
  obtain ⟨old, hold, rfl | rfl⟩ := mem_of_mem_modify hrecord
  · exact Or.inl hold
  · exact Or.inr (hchange old (h.nodes old hold))

theorem Extends.modifyInterface (graph : Graph) (node : NodeId)
    (change : Interface → Interface) :
    graph.Extends (graph.modifyNode node (Node.modifyInterface change)) :=
  .modifyNode graph node (Node.acts_modifyInterface change) (Node.isJoin_modifyInterface change)

theorem Closed.setEntry {graph : Graph} (h : graph.Closed) (composite : NodeId) {entry : EntryId}
    (hentry : graph.HasEntry entry) : (graph.setEntry composite entry).Closed := by
  have hext : graph.Extends (graph.setEntry composite entry) :=
    .modifyInterface graph composite _
  refine h.modifyNode composite hext fun record hrecord => ?_
  have hknown := hrecord.mono hext
  obtain ⟨_, _, _, _, kind⟩ := record
  -- Native nodes and composites take the entry into their interface; a join has none to set.
  cases kind with
  | native primitive ports =>
    refine ⟨{ hknown.1 with entry := ?_ }, rfl, hknown.2.2⟩
    intro other hother
    rw [Option.some.injEq] at hother
    exact hext.hasEntry (hother ▸ hentry)
  | composite ports parts =>
    refine ⟨{ hknown.1 with entry := ?_ }, hknown.2⟩
    intro other hother
    rw [Option.some.injEq] at hother
    exact hext.hasEntry (hother ▸ hentry)
  | join entry exit => exact hknown

end Graph

end TokenNet
