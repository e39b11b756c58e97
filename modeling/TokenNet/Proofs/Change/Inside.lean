import TokenNet.Proofs.Change.Encapsulated
import TokenNet.Proofs.Run.Enclosed

/-!
# The inside of a composite

The inside of a composite is made of its parts and joins, of what its inlets feed and what is relayed
to its outlet, of where the exits of its parts lead, and of the cells that the ports of its parts
share.  A build works on one composite at a time, and on that only before it has got its place; so
once a composite has its place, nothing that is built around it changes its inside.

## Main statements

- `SameInside`: what is inside a composite is the same in two graphs.
- `SameInside.of_addNative`, `SameInside.of_addComposite`, `SameInside.of_adopt`: new nodes and places
  for parts change no inside.
- `Construct.sameInside`: no step of a build changes the inside of a composite that has its place.
-/

namespace TokenNet.Graph

open TokenNet.Partition

variable {graph graph' graph'' : Graph} {partition partition' : Partition} {composite : NodeId}
  {port other : Port}

/-! ## Faces -/

/-- What is seen of a node from outside: its specification and its ports. -/
def faceOf? (graph : Graph) (node : NodeId) : Option (String × Interface) :=
  (graph.node? node).bind fun record => record.interface?.map fun ports =>
    (record.specification, { ports with register := 0, calls := 0 })

/-- The interface of a node with a face, which may remember something besides. -/
theorem exists_interface?_of_faceOf? {node : NodeId} {name : String} {ports : Interface}
    (h : graph.faceOf? node = some (name, ports)) : ∃ found, graph.interface? node = some found ∧
      found.inlets = ports.inlets ∧ found.outlet = ports.outlet ∧ found.entry = ports.entry ∧
        found.exits = ports.exits ∧ found.joins = ports.joins := by
  obtain ⟨record, hrecord, hview⟩ := Option.bind_eq_some_iff.mp h
  obtain ⟨found, hfound, hview⟩ := Option.map_eq_some_iff.mp hview
  obtain ⟨_, rfl⟩ := Prod.mk.inj hview
  exact ⟨found, Option.bind_eq_some_iff.mpr ⟨record, hrecord, hfound⟩, rfl, rfl, rfl, rfl, rfl⟩

theorem node?_setEntry_of_ne {node worked : NodeId} (hne : node ≠ worked) (entry : EntryId) :
    (graph.setEntry worked entry).node? node = graph.node? node := by
  unfold Graph.setEntry
  rw [node?_modifyNode, if_neg hne]

/-- A node that exposes an entry shows it. -/
theorem faceOf?_setEntry {node : NodeId} {name : String} {ports : Interface}
    (h : graph.faceOf? node = some (name, ports)) (entry : EntryId) :
    (graph.setEntry node entry).faceOf? node =
      some (name, { ports with entry := some entry }) := by
  obtain ⟨record, hrecord, hview⟩ := Option.bind_eq_some_iff.mp h
  obtain ⟨found, hfound, hview⟩ := Option.map_eq_some_iff.mp hview
  obtain ⟨rfl, rfl⟩ := Prod.mk.inj hview
  unfold faceOf? setEntry
  rw [node?_modifyNode, if_pos rfl, hrecord]
  -- A join has no interface to change
  obtain ⟨_, _, _, _, kind⟩ := record
  cases kind with
  | native | composite =>
    obtain rfl := Option.some.inj hfound
    rfl
  | join => cases hfound

/-! ## The same inside -/

/-- What is inside a composite is the same in a later graph, values apart.  The ports of its parts
may have got cells of their own. -/
structure SameInside (composite : NodeId) (graph graph' : Graph) : Prop where
  face : ∀ {view}, graph.faceOf? composite = some view → graph'.faceOf? composite = some view
  part : ∀ {node}, graph.parentOf? node = some composite →
    (graph'.node? node).map Node.form = (graph.node? node).map Node.form
  owner : ∀ {port node}, graph.ownerOf? port = some node → graph'.ownerOf? port = some node
  exit : ∀ {exit node}, graph.exitOwner? exit = some node → graph'.exitOwner? exit = some node
  feeds : ∀ {outer inner}, graph.ownerOf? (.inlet outer) = some composite →
    (graph'.Feeds outer inner ↔ graph.Feeds outer inner)
  relay : ∀ {inner}, graph.siteOf? (.outlet inner) = some composite →
    graph'.relayOf? inner = graph.relayOf? inner
  target : ∀ {exit part}, graph.exitOwner? exit = some part →
    graph.parentOf? part = some composite → graph'.target? exit = graph.target? exit
  wired : ∀ {port}, graph.siteOf? port = some composite →
    graph'.portWired port = graph.portWired port
  shares : ∀ {port other}, graph.SharesCell port other → graph'.SharesCell port other
  apart : ∀ {port other}, graph.siteOf? port = some composite → graph'.SharesCell port other →
    port = other ∨ graph.SharesCell port other

namespace SameInside

theorem refl (composite : NodeId) (graph : Graph) : SameInside composite graph graph where
  face := id
  part _ := rfl
  owner := id
  exit := id
  feeds _ := Iff.rfl
  relay _ := rfl
  target _ _ := rfl
  wired _ := rfl
  shares := id
  apart _ := Or.inr

theorem parentOf? (h : SameInside composite graph graph') {node : NodeId}
    (hparent : graph.parentOf? node = some composite) : graph'.parentOf? node = some composite := by
  have hform := congrArg (fun record => record.bind Node.parent) (h.part hparent)
  simp only [Option.bind_map, Function.comp_def, Node.parent_form] at hform
  exact hform.trans hparent

theorem siteOf? (h : SameInside composite graph graph')
    (hsite : graph.siteOf? port = some composite) : graph'.siteOf? port = some composite := by
  obtain ⟨part, hpart, hparent⟩ := siteOf?_eq_some_iff.mp hsite
  exact siteOf?_eq_some_iff.mpr ⟨part, h.owner hpart, h.parentOf? hparent⟩

theorem trans (h : SameInside composite graph graph') (h' : SameInside composite graph' graph'') :
    SameInside composite graph graph'' where
  face hview := h'.face (h.face hview)
  part hparent := (h'.part (h.parentOf? hparent)).trans (h.part hparent)
  owner howner := h'.owner (h.owner howner)
  exit howner := h'.exit (h.exit howner)
  feeds howner := (h'.feeds (h.owner howner)).trans (h.feeds howner)
  relay hsite := (h'.relay (h.siteOf? hsite)).trans (h.relay hsite)
  target howner hparent :=
    (h'.target (h.exit howner) (h.parentOf? hparent)).trans (h.target howner hparent)
  wired hsite := (h'.wired (h.siteOf? hsite)).trans (h.wired hsite)
  shares hshares := h'.shares (h.shares hshares)
  apart hsite hshares := (h'.apart (h.siteOf? hsite) hshares).elim Or.inl (h.apart hsite)

end SameInside

/-! ## What steps do to a partition -/

/-- Settling lets no port share a class with another. -/
theorem shares_foldl_settle {α : Type} (port' : α → Port) (members : List α)
    (hshares : (members.foldl (fun settled a => settled.settle (port' a)) partition).Shares
      port other) : port = other ∨ partition.Shares port other := by
  have hties : (members.foldl (fun settled a => settled.settle (port' a)) partition).Within
      fun port other => port = other ∨ partition.Shares port other :=
    Within.foldl_settle (fun _ => Or.inl rfl) port' members fun _ _ => Or.inr
  exact hties port other hshares

theorem wired_foldl_settle {α : Type} (port' : α → Port) (members : List α) :
    (members.foldl (fun settled a => settled.settle (port' a)) partition).wired =
      partition.wired := by
  induction members generalizing partition with
  | nil => rfl
  | cons first rest ih => exact ih

/-- What a new native node does to the marks: its outlet is marked. -/
theorem wired_settleNative (graph : Graph) (primitive : Primitive) :
    (graph.settleNative primitive partition).wired port =
      if port = .outlet ⟨graph.outlets.size⟩ then true else partition.wired port := by
  change (if port = _ then true else (Partition.wired (List.foldl _ _ _) port)) = _
  rw [wired_foldl_settle]

theorem shares_settleNative (graph : Graph) (primitive : Primitive)
    (hshares : (graph.settleNative primitive partition).Shares port other) :
    port = other ∨ partition.Shares port other := by
  rcases (shares_settle _).mp ((shares_mark _).mp hshares) with hold | ⟨rfl, rfl⟩
  · exact shares_foldl_settle _ _ hold
  · exact Or.inl rfl

/-! ## New nodes -/

/-- A new node changes no inside, if its ports are marked and settled at most. -/
theorem Raises.sameInside {record : Node} {ports : Interface} (h : Raises graph graph' record ports)
    (hrep : graph.Represents partition) (hrep' : graph'.Represents partition')
    (hwired : ∀ port owner, graph.ownerOf? port = some owner →
      partition'.wired port = partition.wired port)
    (hshares : ∀ port other, partition.Shares port other → partition'.Shares port other)
    (hapart : ∀ port other, partition'.Shares port other →
      port = other ∨ partition.Shares port other) (composite : NodeId) :
    -- What has been there already is read in the old graph; the classes come from the partitions
    SameInside composite graph graph' where
  face hview := by
    obtain ⟨found, hfound, hface⟩ := Option.bind_eq_some_iff.mp hview
    exact Option.bind_eq_some_iff.mpr ⟨found, h.node?_old hfound, hface⟩
  part hparent := by
    obtain ⟨found, hfound, _⟩ := Option.bind_eq_some_iff.mp hparent
    rw [h.node?_old hfound, hfound]
  owner {port node} howner := by
    cases port with
    | inlet inlet => exact h.inletOwner_old howner
    | outlet outlet => exact h.outletOwner_old howner
  exit := h.exitOwner_old
  feeds _ := by
    unfold Feeds
    rw [h.feeds]
  relay _ := congrFun h.relay _
  target _ _ := congrFun h.target _
  wired {port} hsite := by
    obtain ⟨part, hpart, _⟩ := siteOf?_eq_some_iff.mp hsite
    rw [hrep.wired, hrep'.wired, hwired port part hpart]
  shares hold := hrep'.sharesCell_iff.mpr (hshares _ _ (hrep.sharesCell_iff.mp hold))
  apart _ hnew := (hapart _ _ (hrep'.sharesCell_iff.mp hnew)).imp_right hrep.sharesCell_iff.mpr

theorem SameInside.of_addNative (hlinked : graph.Linked) (primitive : Primitive)
    (specification : String) (traced : Bool) (composite : NodeId) :
    SameInside composite graph (graph.addNative primitive specification traced).2 := by
  have hrep := hlinked.represents
  refine (graph.raises_addNative specification traced primitive).sameInside hrep
    (hrep.addNative primitive specification traced) (fun port owner howner => ?_)
    (fun port other => (grows_settleNative graph primitive _).shares)
    (fun port other => shares_settleNative graph primitive) composite
  rw [wired_settleNative, if_neg]
  rintro rfl
  exact Nat.lt_irrefl _ (hasPort_of_outletOwner? howner)

theorem SameInside.of_addComposite (hlinked : graph.Linked) (specification : String)
    (inletCount exitCount : Nat) (traced : Bool) (composite : NodeId) : SameInside composite graph
      (graph.addComposite specification inletCount exitCount traced).2 := by
  have hrep := hlinked.represents
  refine (graph.raises_addComposite specification traced inletCount exitCount).sameInside hrep
    (hrep.addComposite specification inletCount exitCount traced) (fun _ _ _ => rfl)
    (fun port other hshares => (shares_settle _).mpr (Or.inl hshares))
    (fun port other hshares => ?_) composite
  rcases (shares_settle _).mp hshares with hold | ⟨rfl, rfl⟩
  · exact Or.inr hold
  · exact Or.inl rfl

/-! ## Places and wirings -/

/-- A part that takes its place changes no inside, not even that of its composite: it brings its
ports and cells along. -/
theorem SameInside.of_adopt (hlinked : graph.Linked) {parent part : NodeId}
    (hpending : graph.Pending parent) (hloose : graph.parentOf? part = none) (role : String)
    (composite : NodeId) : SameInside composite graph (graph.adopt parent role part) := by
  have hrep := hlinked.represents
  have hrep' : (graph.adopt parent role part).Represents _ := hrep.of_ports_eq rfl rfl rfl
  have hsame (port other : Port) : (graph.adopt parent role part).SharesCell port other ↔
      graph.SharesCell port other := hrep'.sharesCell_iff.trans hrep.sharesCell_iff.symm
  constructor
  case face =>
    -- The face of a node changes neither with its parts nor with the composite it stands under
    intro view hview
    refine Eq.trans ?_ hview
    refine (bind_modifyNode ?_ _ parent composite).trans (bind_modifyNode ?_ graph part composite)
    · intro record
      rw [Node.interface?_addPart]
      rfl
    · exact fun _ => rfl
  case part =>
    intro node hparent
    -- Neither the part nor the composite stands under anything yet
    have hpart : node ≠ part := by
      rintro rfl
      cases hloose.symm.trans hparent
    have hne : node ≠ parent := by
      rintro rfl
      cases hpending.loose.symm.trans hparent
    unfold Graph.adopt
    rw [node?_modifyNode, if_neg hne, node?_modifyNode, if_neg hpart]
  case owner => exact id
  case exit => exact id
  case feeds => exact fun _ => Iff.rfl
  case relay => exact fun _ => rfl
  case target => exact fun _ _ => rfl
  case wired => exact fun _ => rfl
  case shares => exact (hsame _ _).mpr
  case apart => exact fun _ hshares => Or.inr ((hsame _ _).mp hshares)

/-- A change of the wiring changes an inside only at the ports and exits that it wires. -/
theorem SameTree.sameInside (h : graph.SameTree graph') (hrep : graph.Represents partition)
    (hrep' : graph'.Represents partition')
    (hfeeds : ∀ {outer inner}, graph.ownerOf? (.inlet outer) = some composite →
      (graph'.Feeds outer inner ↔ graph.Feeds outer inner))
    (hrelay : ∀ {inner}, graph.siteOf? (.outlet inner) = some composite →
      graph'.relayOf? inner = graph.relayOf? inner)
    (htarget : ∀ {exit part}, graph.exitOwner? exit = some part →
      graph.parentOf? part = some composite → graph'.target? exit = graph.target? exit)
    (hwired : ∀ {port}, graph.siteOf? port = some composite →
      partition'.wired port = partition.wired port)
    (hshares : ∀ {port other}, partition.Shares port other → partition'.Shares port other)
    (hapart : ∀ {port other}, graph.siteOf? port = some composite → partition'.Shares port other →
      port = other ∨ partition.Shares port other) :
    SameInside composite graph graph' where
  -- A rewiring leaves the nodes and the owners alone, so only the flows are left to compare
  face {view} hview := by
    unfold faceOf?
    rw [h.node?]
    exact hview
  part _ := by rw [h.node?]
  owner {port node} howner := by
    cases port with
    | inlet inlet => exact (congrFun h.inlets inlet).trans howner
    | outlet outlet => exact (congrFun h.outlets outlet).trans howner
  exit howner := (congrFun h.exits _).trans howner
  feeds := hfeeds
  relay := hrelay
  target := htarget
  wired hsite := by rw [hrep.wired, hrep'.wired, hwired hsite]
  shares hold := hrep'.sharesCell_iff.mpr (hshares (hrep.sharesCell_iff.mp hold))
  apart hsite hnew :=
    (hapart hsite (hrep'.sharesCell_iff.mp hnew)).imp_right hrep.sharesCell_iff.mpr

namespace SameInside

variable {worked part : NodeId}

/-- What is joined stands where the joined ports do. -/
theorem siteOf?_of_joined (hlinked : graph.Linked) (hleveled : graph.Leveled) {inlet : InletId}
    {outlet : OutletId} (hinlet : graph.siteOf? (.inlet inlet) = some worked)
    (houtlet : graph.siteOf? (.outlet outlet) = some worked)
    (hport : hlinked.partition.Joined inlet outlet port) : graph.siteOf? port = some worked := by
  -- Whatever shares with a port of the level is that port or stands on the level
  have hlevel (base : Port) (hbase : graph.siteOf? base = some worked)
      (hclass : port = base ∨ hlinked.partition.Shares base port) :
      graph.siteOf? port = some worked := by
    rcases hclass with rfl | hshares
    · exact hbase
    · rcases hleveled _ _ (hlinked.represents.sharesCell_iff.mpr hshares) with
        rfl | ⟨site, hsite, hport⟩
      · exact hbase
      · exact hport.trans (hsite.symm.trans hbase)
  exact (joined_iff.mp hport).elim (hlevel _ hinlet) (hlevel _ houtlet)

theorem of_connect (hlinked : graph.Linked) (hleveled : graph.Leveled) (hne : worked ≠ composite)
    {inlet : InletId} {outlet : OutletId} (hinlet : graph.siteOf? (.inlet inlet) = some worked)
    (houtlet : graph.siteOf? (.outlet outlet) = some worked)
    (hin : graph.HasPort (.inlet inlet)) (hout : graph.HasPort (.outlet outlet)) :
    SameInside composite graph (graph.connect inlet outlet) := by
  have hrep := hlinked.represents
  refine (SameTree.connect graph inlet outlet).sameInside hrep (hrep.connect hin hout)
    (fun _ => by rw [feeds_connect]) (fun _ => by rw [relayOf?_connect])
    (fun _ _ => congrFun (target?_of_exits_eq
      (congrArg Graph.exits (graph.bare_connect inlet outlet))) _) ?marks
    (fun hold => (shares_join inlet outlet).mpr (Or.inl hold)) ?classes
  case marks =>
    intro port hsite
    -- The mark falls on the joined input, which stands on the other level
    refine if_neg ?_
    rintro rfl
    exact hne (Option.some.inj (hinlet.symm.trans hsite))
  case classes =>
    intro port other hsite hshares
    rcases (shares_join inlet outlet).mp hshares with hold | ⟨hport, _⟩
    · exact Or.inr hold
    · -- What is joined stands on the level that is worked on
      have hworked := siteOf?_of_joined hlinked hleveled hinlet houtlet hport
      exact absurd (Option.some.inj (hworked.symm.trans hsite)) hne

/-- Settling and marking a port lets nothing share a class that did not. -/
theorem shares_settle_mark (settled : Port) :
    (((partition.settle settled).mark settled).Shares port other →
      port = other ∨ partition.Shares port other) ∧
    (partition.Shares port other → ((partition.settle settled).mark settled).Shares port other) := by
  rw [shares_mark, shares_settle]
  refine ⟨?_, Or.inl⟩
  rintro (hold | ⟨rfl, rfl⟩)
  · exact Or.inr hold
  · exact Or.inl rfl

theorem of_feed (hlinked : graph.Linked) (hne : worked ≠ composite) {outer inner : InletId}
    (houter : graph.ownerOf? (.inlet outer) = some worked)
    (hinner : graph.siteOf? (.inlet inner) = some worked) (hport : graph.HasPort (.inlet inner)) :
    SameInside composite graph (graph.feed outer inner) := by
  have hrep := hlinked.represents
  refine (SameTree.feed graph outer inner).sameInside hrep (hrep.feed outer hport) ?feeds
    (fun _ => by rw [relayOf?_feed])
    (fun _ _ => congrFun (target?_of_exits_eq
      (congrArg Graph.exits (graph.bare_feed outer inner))) _) ?marks
    (shares_settle_mark _).2 fun _ => (shares_settle_mark _).1
  case feeds =>
    intro giver taker howner
    -- The new bridge starts at an input of the composite worked on
    rw [feeds_feed (hasPort_of_inletOwner? houter), or_iff_left]
    rintro ⟨rfl, _⟩
    exact hne (Option.some.inj (houter.symm.trans howner))
  case marks =>
    intro port hsite
    refine if_neg ?_
    rintro rfl
    exact hne (Option.some.inj (hinner.symm.trans hsite))

theorem of_relay (hlinked : graph.Linked) (hne : worked ≠ composite) {outer inner : OutletId}
    (houter : graph.siteOf? (.outlet outer) = none) (hport : graph.HasPort (.outlet outer))
    (hinner : graph.siteOf? (.outlet inner) = some worked)
    (hport' : graph.HasPort (.outlet inner)) :
    SameInside composite graph (graph.relay outer inner) := by
  have hrep := hlinked.represents
  refine (SameTree.relay graph outer inner).sameInside hrep (hrep.relay inner hport)
    (fun _ => by rw [feeds_relay]) ?relays
    (fun _ _ => congrFun (target?_of_exits_eq
      (congrArg Graph.exits (graph.bare_relay outer inner))) _) ?marks
    (shares_settle_mark _).2 fun _ => (shares_settle_mark _).1
  case relays =>
    intro other hsite
    -- The new relay starts inside the composite worked on
    rw [relayOf?_relay hport', Function.update_of_ne]
    rintro rfl
    exact hne (Option.some.inj (hinner.symm.trans hsite))
  case marks =>
    intro port hsite
    refine if_neg ?_
    rintro rfl
    -- The outer output belongs to the root of what is built, and stands nowhere
    cases houter.symm.trans hsite

theorem of_setTarget (hlinked : graph.Linked) (hne : worked ≠ composite) {exit : ExitId}
    (hexit : graph.exitOwner? exit = some part) (hpart : graph.parentOf? part = some worked)
    (target : Option EntryId) : SameInside composite graph (graph.setTarget exit target) := by
  have hrep := hlinked.represents
  have hrep' : (graph.setTarget exit target).Represents _ := hrep.of_ports_eq rfl rfl rfl
  refine (SameTree.setTarget graph exit target).sameInside hrep hrep' (fun _ => Iff.rfl)
    (fun _ => rfl) ?_ (fun _ => rfl) id fun _ => Or.inr
  intro other owner howner hparent
  rw [target?_setTarget, if_neg]
  rintro rfl
  obtain rfl := Option.some.inj (hexit.symm.trans howner)
  exact hne (Option.some.inj (hpart.symm.trans hparent))

theorem of_setEntry (hlinked : graph.Linked) (hne : worked ≠ composite)
    (hloose : graph.parentOf? worked = none) (entry : EntryId) :
    SameInside composite graph (graph.setEntry worked entry) := by
  have hrep := hlinked.represents
  have hrep' : (graph.setEntry worked entry).Represents _ := hrep.of_ports_eq rfl rfl rfl
  -- The ports are not touched, so who shares a cell is as before
  have hsame (port other : Port) : (graph.setEntry worked entry).SharesCell port other ↔
      graph.SharesCell port other := hrep'.sharesCell_iff.trans hrep.sharesCell_iff.symm
  constructor
  case face =>
    intro view hview
    unfold faceOf?
    rw [node?_setEntry_of_ne hne.symm]
    exact hview
  case part =>
    intro node hparent
    rw [node?_setEntry_of_ne]
    rintro rfl
    cases hloose.symm.trans hparent
  case owner => exact id
  case exit => exact id
  case feeds => exact fun _ => Iff.rfl
  case relay => exact fun _ => rfl
  case target => exact fun _ _ => rfl
  case wired => exact fun _ => rfl
  case shares => exact (hsame _ _).mpr
  case apart => exact fun _ hshares => Or.inr ((hsame _ _).mp hshares)

end SameInside

/-- **No step of a build changes the inside of a composite that has its place.**  What a step wires
stands under a composite that has none. -/
theorem Construct.sameInside (h : Construct graph graph') (hlinked : graph.Linked)
    (hleveled : graph.Leveled) {parent : NodeId} (hplaced : graph.parentOf? composite = some parent) :
    SameInside composite graph graph' := by
  have hne {worked : NodeId} (hpending : graph.Pending worked) : worked ≠ composite := by
    rintro rfl
    cases hpending.loose.symm.trans hplaced
  have hsite {port : Port} {owner worked : NodeId} (howner : graph.ownerOf? port = some owner)
      (hparent : graph.parentOf? owner = some worked) : graph.siteOf? port = some worked :=
    siteOf?_eq_some_iff.mpr ⟨owner, howner, hparent⟩
  cases h with
  | native primitive specification traced =>
    exact .of_addNative hlinked primitive specification traced composite
  | composite specification inletCount exitCount traced =>
    exact .of_addComposite hlinked specification inletCount exitCount traced composite
  | adopt role hpending _ _ hloose => exact .of_adopt hlinked hpending hloose role composite
  | @connect worked giver taker inlet outlet hpending hgiver htaker hinlet houtlet =>
    exact .of_connect hlinked hleveled (hne hpending) (@hsite (.inlet inlet) _ _ hinlet htaker)
      (@hsite (.outlet outlet) _ _ houtlet hgiver) (hasPort_of_inletOwner? hinlet)
      (hasPort_of_outletOwner? houtlet)
  | @feed worked part outer inner hpending hpart houter hinner =>
    exact .of_feed hlinked (hne hpending) houter (@hsite (.inlet inner) _ _ hinner hpart)
      (hasPort_of_inletOwner? hinner)
  | @relay worked part outer inner hpending hpart houter hinner =>
    -- The outlet of a composite that has no place stands under nothing
    have hnone : graph.siteOf? (.outlet outer) = none := by
      have howner : graph.ownerOf? (.outlet outer) = some worked := houter
      rw [Graph.siteOf?, howner, Option.bind_some, hpending.loose]
    exact .of_relay hlinked (hne hpending) hnone (hasPort_of_outletOwner? houter)
      (@hsite (.outlet inner) _ _ hinner hpart) (hasPort_of_outletOwner? hinner)
  | direct hpending hgiver _ hexit _ =>
    exact .of_setTarget hlinked (hne hpending) hexit hgiver _
  | enter hpending _ _ => exact .of_setEntry hlinked (hne hpending) hpending.loose _

end TokenNet.Graph
