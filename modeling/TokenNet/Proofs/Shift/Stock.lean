import TokenNet.Proofs.Change.Placed
import TokenNet.Proofs.Change.Stems
import TokenNet.Proofs.Shift.Layout

/-!
# The adders of a composite

A composite that has been framed gets its adders one after the other, before anything is wired.
Each of them comes behind all that is there, whatever that is, with ports that nothing else shares.

## Main statements

- `Adder.Spare`: an adder of a composite that is not wired yet.
- `Stocked`: a framed composite that has got some adders.
- `Stocked.adopt`: it gets one more.
- `Draft.stocked_replayAll`: it gets all the adders that its log asks for.
-/

namespace TokenNet

open TokenNet.Graph

variable {graph graph' : Graph} {composite : NodeId} {port other : Port}

/-! ## Ports of new nodes -/

namespace Graph

section

variable (graph : Graph) (composite part : NodeId) (role : String)

/-- A part that takes its place brings its cells along. -/
theorem sharesCell_adopt : (graph.adopt composite role part).SharesCell port other ↔
    graph.SharesCell port other :=
  Iff.rfl

theorem portWired_adopt : (graph.adopt composite role part).portWired = graph.portWired :=
  rfl

theorem relayOf?_adopt : (graph.adopt composite role part).relayOf? = graph.relayOf? :=
  rfl

end

theorem not_sharesCell_of_not_hasPort (h : ¬ graph.HasPort port) :
    ¬ graph.SharesCell port other := by
  rintro ⟨cell, hcell, _⟩
  exact h (hasPort_of_portCell? hcell)

theorem portWired_of_not_hasPort (h : ¬ graph.HasPort port) : graph.portWired port = false := by
  cases port with
  | inlet inlet =>
    have hnone : graph.inlet? inlet = none := Array.getElem?_eq_none (Nat.le_of_not_lt h)
    simp [portWired, inletWired, hnone]
  | outlet outlet =>
    have hnone : graph.outlet? outlet = none := Array.getElem?_eq_none (Nat.le_of_not_lt h)
    simp [portWired, outletWired, hnone]

theorem relayOf?_of_not_hasPort {outlet : OutletId} (h : ¬ graph.HasPort (.outlet outlet)) :
    graph.relayOf? outlet = none := by
  have hnone : graph.outlet? outlet = none := Array.getElem?_eq_none (Nat.le_of_not_lt h)
  simp [relayOf?, hnone]

end Graph

/-! ## Adders without wires -/

namespace Adder

variable {a b : Adder}

/-- The adder that a graph gets next. -/
def next (graph : Graph) : Adder where
  node := ⟨graph.nodes.size⟩
  left := ⟨graph.inlets.size⟩
  right := ⟨graph.inlets.size + 1⟩
  outlet := ⟨graph.outlets.size⟩
  entry := ⟨graph.entries.size⟩
  zero := ⟨graph.exits.size⟩
  other := ⟨graph.exits.size + 1⟩

theorem nativePorts_eq (graph : Graph) : graph.nativePorts .adder = (next graph).ports :=
  rfl

/-- An adder of a composite that is not wired: no other port shares a cell with one of its ports. -/
structure Spare (a : Adder) (graph : Graph) (composite : NodeId) : Prop
    extends a.In graph composite where
  left : graph.portWired (.inlet a.left) = false
  right : graph.portWired (.inlet a.right) = false
  unrelayed : graph.relayOf? a.outlet = none
  aloneLeft : ∀ {port}, graph.SharesCell (.inlet a.left) port → port = .inlet a.left
  aloneRight : ∀ {port}, graph.SharesCell (.inlet a.right) port → port = .inlet a.right
  aloneOutlet : ∀ {port}, graph.SharesCell (.outlet a.outlet) port → port = .outlet a.outlet

theorem Spare.sameInside (h : a.Spare graph composite) (hlineage : graph.Lineage)
    (hsame : SameInside composite graph graph') : a.Spare graph' composite := by
  have hleft := h.site (h.leftOwner hlineage)
  have hright := h.site (h.rightOwner hlineage)
  have houtlet := h.site (h.outletOwner hlineage)
  -- An adder that shares with nobody does not begin to
  have halone {port other : Port} (hsite : graph.siteOf? port = some composite)
      (hold : graph.SharesCell port other → other = port) (hshares : graph'.SharesCell port other) :
      other = port := (hsame.apart hsite hshares).elim Eq.symm hold
  exact {
    toIn := h.toIn.sameInside hsame
    left := (hsame.wired hleft).trans h.left
    right := (hsame.wired hright).trans h.right
    unrelayed := (hsame.relay houtlet).trans h.unrelayed
    aloneLeft := halone hleft h.aloneLeft
    aloneRight := halone hright h.aloneRight
    aloneOutlet := halone houtlet h.aloneOutlet }

/-- A new adder that takes its place. -/
theorem in_next (specification : String) (traced : Bool)
    (hplace : composite.index < graph.nodes.size) (role : String) :
    (next graph).In ((graph.addNative .adder specification traced).2.adopt composite role
      ⟨graph.nodes.size⟩) composite := by
  -- The new adder is the last node, and the composite is another one
  have hnode : (graph.addNative .adder specification traced).2.node? ⟨graph.nodes.size⟩ =
      some { specification, traced, kind := .native .adder (next graph).ports } := by
    rw [node?_addNative, if_pos rfl, nativePorts_eq]
  have hne : (⟨graph.nodes.size⟩ : NodeId) ≠ composite := by
    rintro rfl
    exact Nat.lt_irrefl _ hplace
  constructor
  case parent => exact parentOf?_adopt_part ⟨_, hnode, rfl⟩ role
  case form =>
    refine ⟨⟨specification, some composite, some role, traced,
      .native .adder (next graph).ports⟩, ?_, rfl⟩
    change (Graph.modifyNode _ composite _).node? ⟨graph.nodes.size⟩ = _
    rw [node?_modifyNode, if_neg hne, node?_modifyNode, if_pos rfl, hnode]
    rfl

/-- A port that a new adder brings along is not wired and shares no cell. -/
theorem fresh_addNative (hlinked : graph.Linked) (specification : String) (traced : Bool)
    (hport : ¬ graph.HasPort port) :
    ((graph.addNative .adder specification traced).2.SharesCell port other → other = port) ∧
      ∀ inlet, port = .inlet inlet →
        (graph.addNative .adder specification traced).2.portWired port = false := by
  have hrep := hlinked.represents
  have hrep' := hrep.addNative .adder specification traced
  -- A port that is new has a class of its own, if any
  constructor
  · intro hshares
    rcases shares_settleNative graph .adder (hrep'.sharesCell_iff.mp hshares) with hsame | hold
    · exact hsame.symm
    · exact absurd (hrep.sharesCell_iff.mpr hold) (not_sharesCell_of_not_hasPort hport)
  · rintro inlet rfl
    rw [hrep'.wired, wired_settleNative, if_neg nofun, ← hrep.wired]
    exact portWired_of_not_hasPort hport

/-- **A new adder that takes its place is not wired.** -/
theorem spare_next (hlinked : graph.Linked) (specification : String) (traced : Bool)
    (hplace : composite.index < graph.nodes.size) (role : String) :
    (next graph).Spare ((graph.addNative .adder specification traced).2.adopt composite role
      ⟨graph.nodes.size⟩) composite := by
  have hleft : ¬ graph.HasPort (.inlet (next graph).left) := Nat.lt_irrefl _
  have hright : ¬ graph.HasPort (.inlet (next graph).right) := Nat.not_succ_lt_self
  have houtlet : ¬ graph.HasPort (.outlet (next graph).outlet) := Nat.lt_irrefl _
  -- None of the three ports was there before, so none shares a cell with another
  have hfresh {port other : Port} (hport : ¬ graph.HasPort port) :=
    @fresh_addNative graph port other hlinked specification traced hport
  constructor
  case toIn => exact in_next specification traced hplace role
  case left =>
    rw [portWired_adopt]
    exact (@hfresh _ (.inlet (next graph).left) hleft).2 _ rfl
  case right =>
    rw [portWired_adopt]
    exact (@hfresh _ (.inlet (next graph).right) hright).2 _ rfl
  case unrelayed =>
    have hrelay := (graph.raises_addNative specification traced .adder).relay
    rw [relayOf?_adopt, hrelay]
    exact relayOf?_of_not_hasPort houtlet
  case aloneLeft =>
    intro port hshares
    exact (hfresh hleft).1 ((sharesCell_adopt _ _ _ _).mp hshares)
  case aloneRight =>
    intro port hshares
    exact (hfresh hright).1 ((sharesCell_adopt _ _ _ _).mp hshares)
  case aloneOutlet =>
    intro port hshares
    exact (hfresh houtlet).1 ((sharesCell_adopt _ _ _ _).mp hshares)

end Adder

/-! ## Framed composites -/

/-- A composite that has been framed and has got some adders under their roles. -/
structure Stocked (graph : Graph) (composite : NodeId) (specification : String) (ports : Interface)
    (stock : List (String × Adder)) : Prop where
  built : Constructs {} graph
  pending : graph.Pending composite
  face : graph.faceOf? composite = some (specification, ports)
  unfed : ∀ inlet ∈ ports.inlets, ∀ inner, ¬ graph.Feeds inlet inner
  known : ∀ member ∈ stock, graph.part? composite member.1 = some member.2.node ∧
    member.2.Spare graph composite
  apart : (stock.map fun member => member.2.node).Nodup

namespace Stocked

variable {specification : String} {ports : Interface} {stock : List (String × Adder)}

theorem lineage (h : Stocked graph composite specification ports stock) : graph.Lineage :=
  h.built.lineage .empty

/-- A composite is framed without adders. -/
theorem frame (hbuilt : Constructs {} graph) (specification : String) (inletCount exitCount : Nat)
    (traced : Bool) :
    Stocked (graph.addComposite specification inletCount exitCount traced).2 ⟨graph.nodes.size⟩
      specification (graph.compositePorts inletCount exitCount) [] := by
  have hraises := graph.raises_addComposite specification traced inletCount exitCount
  have hstep : Construct graph _ := .composite graph specification inletCount exitCount traced
  constructor
  case built => exact hbuilt.tail hstep
  case pending => exact ⟨⟨_, hraises.node, rfl⟩, (Draft.Built.of_raises hstep hraises).loose⟩
  case face =>
    unfold faceOf?
    rw [hraises.node]
    rfl
  case unfed =>
    intro inlet hinlet inner hfeeds
    -- An inlet that is not there feeds nothing
    unfold Feeds at hfeeds
    rw [hraises.feeds] at hfeeds
    obtain ⟨i, _, rfl⟩ := List.mem_map.mp hinlet
    have hnone : graph.inlet? ⟨graph.inlets.size + i⟩ = none :=
      Array.getElem?_eq_none (Nat.le_add_right _ _)
    simp [feedsOf, hnone] at hfeeds
  case known => exact fun _ hmember => absurd hmember List.not_mem_nil
  case apart => exact List.nodup_nil

/-- **A framed composite gets one more adder.** -/
theorem adopt (h : Stocked graph composite specification ports stock) (identifier : String)
    (traced : Bool) {role : String} (hrole : role ∉ stock.map Prod.fst) :
    Stocked ((graph.addNative .adder identifier traced).2.adopt composite role
      ⟨graph.nodes.size⟩) composite specification ports (stock ++ [(role, Adder.next graph)]) := by
  have hlinked := Constructs.linked h.built
  have hraises := graph.raises_addNative identifier traced .adder
  have hnative : Construct graph _ := .native graph .adder identifier traced
  have hbuilt := Draft.Built.of_raises hnative hraises
  have hgrown := hbuilt.works h.pending
  have hplace := h.pending.lt_size
  have hne : composite ≠ ⟨graph.nodes.size⟩ := by
    rintro rfl
    exact Nat.lt_irrefl _ hplace
  have hadopts : Works composite (graph.addNative .adder identifier traced).2 _ :=
    .adopt hgrown.pending hplace hbuilt.hosts hbuilt.loose role
  have hsame := (SameInside.of_addNative hlinked .adder identifier traced composite).trans
    (.of_adopt (Constructs.linked (h.built.tail hnative)) hgrown.pending hbuilt.loose role composite)
  -- Growing the adder and taking it in change nothing inside the composite
  constructor
  case built => exact (h.built.tail hnative).trans hadopts.constructs
  case pending => exact hadopts.pending
  case face => exact hsame.face h.face
  case unfed =>
    intro inlet hinlet inner hfeeds
    obtain ⟨found, hfound, hinlets, _⟩ := exists_interface?_of_faceOf? h.face
    have howner : graph.ownerOf? (.inlet inlet) = some composite :=
      h.lineage.inlet hfound (hinlets ▸ hinlet)
    exact h.unfed inlet hinlet inner ((hsame.feeds howner).mp hfeeds)
  case known =>
    intro member hmember
    rw [part?_adopt hgrown.pending.isComposite hne]
    -- An adder of the stock keeps its role, and the new one takes a free role
    rcases List.mem_append.mp hmember with hold | hnew
    · obtain ⟨hpart, hspare⟩ := h.known member hold
      have hother : member.1 ≠ role := fun hsame => hrole (hsame ▸ List.mem_map_of_mem hold)
      refine ⟨?_, hspare.sameInside h.lineage hsame⟩
      rw [if_neg fun hboth => hother hboth.2, part?_congr (hraises.retains composite hplace)]
      exact hpart
    · obtain rfl := List.mem_singleton.mp hnew
      exact ⟨if_pos ⟨rfl, rfl⟩, Adder.spare_next hlinked identifier traced hplace role⟩
  case apart =>
    rw [List.map_append]
    refine List.nodup_append.mpr ⟨h.apart, List.nodup_singleton _, ?_⟩
    intro node hnode last hlast hsame
    obtain ⟨member, hmember, rfl⟩ := List.mem_map.mp hnode
    obtain rfl := List.mem_singleton.mp hlast
    -- An adder that is there stands before the new one
    obtain ⟨record, hrecord, _⟩ := (h.known member hmember).2.form
    have hlt : member.2.node.index < graph.nodes.size := (Array.getElem?_eq_some_iff.mp hrecord).1
    rw [hsame] at hlt
    exact Nat.lt_irrefl _ hlt

/-- Behind each exit of the composite stands a join that returns by it, in the order in which the
composite lists their entries. -/
theorem exists_join (h : Stocked graph composite specification ports stock) {external : Nat}
    {outer : ExitId} (houter : ports.exits[external]? = some outer) : ∃ join record entry,
      graph.parentOf? join = some composite ∧ graph.node? join = some record ∧
        record.kind = .join entry outer ∧
          (Directive.joinEntriesOf graph composite)[external]? = some entry := by
  obtain ⟨found, hfound, _, _, _, hexits, _⟩ := exists_interface?_of_faceOf? h.face
  have hjoins := ((h.built.owned .empty .empty).joins h.pending.isComposite hfound).2
  have hparents := fun join => @Lineage.joined graph h.lineage composite found join hfound
  have hlisted : Directive.joinEntriesOf graph composite =
      found.joins.filterMap graph.entryOf? := by
    simp [Directive.joinEntriesOf, hfound]
  rw [hlisted]
  rw [← hexits] at houter
  -- Joins and exits correspond one to one, so the induction goes along both lists
  generalize found.exits = exits at hjoins houter
  generalize found.joins = joins at hjoins hparents
  induction hjoins generalizing external with
  | nil => cases houter
  | @cons join exit joins exits hreturns _ ih =>
    obtain ⟨record, entry, hrecord, hkind⟩ := hreturns
    have hentry : graph.entryOf? join = some entry :=
      Option.bind_eq_some_iff.mpr ⟨record, hrecord, by simp [Node.entry?, hkind]⟩
    rw [List.filterMap_cons_some hentry]
    cases external with
    | zero =>
      obtain rfl := Option.some.inj houter
      exact ⟨join, record, entry, hparents join List.mem_cons_self, hrecord, hkind, rfl⟩
    | succ external =>
      exact ih houter fun later hlater => hparents later (List.mem_cons_of_mem join hlater)

end Stocked

/-! ## Logs that ask for adders -/

namespace Draft

variable {library : Library} {traced : Bool} {limit levels : Nat} {name specification : String}
  {ports : Interface} {draft draft' : Draft}

/-- Growing an adder adds a native node. -/
theorem graph_replay_adder (hadder : library.get? Arithmetic.adder = some (.ofPrimitive .adder))
    {role : String}
    (h : replay library (fun part draft => grow library traced limit levels part 0 draft) composite
      name draft (.part Arithmetic.adder role) = .ok draft') :
    draft'.graph = (draft.graph.addNative .adder Arithmetic.adder traced).2.adopt composite role
      ⟨draft.graph.nodes.size⟩ := by
  have hmakeable : library.makeable? Arithmetic.adder = some (.ofPrimitive .adder) := by
    unfold Library.makeable?
    rw [hadder]
    rfl
  -- The part is a primitive, so it is grown at once
  rw [replay_part, hmakeable] at h
  cases levels with
  | zero => cases h
  | succ levels =>
    have hgrow : grow library traced limit (levels + 1) (.ofPrimitive .adder) 0 draft =
        .ok (⟨draft.graph.nodes.size⟩, { draft with
          graph := (draft.graph.addNative .adder Arithmetic.adder traced).2 }) :=
      grow_eq_ok_iff.mpr (Or.inl ⟨.adder, rfl, (draft.graph.fst_addNative _ _ _).symm, rfl⟩)
    simp only [hgrow] at h
    obtain rfl := Except.ok.inj h
    rw [graph_adopt]

/-- **A framed composite gets the adders that its log asks for**, by induction on the roles. -/
theorem stocked_replayAll (hadder : library.get? Arithmetic.adder = some (.ofPrimitive .adder))
    (roles : List String) {stock : List (String × Adder)}
    (hroles : (stock.map Prod.fst ++ roles).Nodup)
    (hstocked : Stocked draft.graph composite specification ports stock)
    (h : replayAll library (fun part draft => grow library traced limit levels part 0 draft)
      composite name (roles.map fun role => .part Arithmetic.adder role) draft = .ok draft') :
    ∃ adders : List Adder, adders.length = roles.length ∧
      Stocked draft'.graph composite specification ports (stock ++ roles.zip adders) := by
  induction roles generalizing draft stock with
  | nil =>
    obtain rfl := Except.ok.inj h
    exact ⟨[], rfl, by simpa using hstocked⟩
  | cons role rest ih =>
    rw [List.map_cons, replayAll] at h
    split at h
    next => cases h
    next middle hfirst =>
      -- The next role is not taken yet, and it is not asked for again
      have hfresh : role ∉ stock.map Prod.fst := fun hmem =>
        (List.nodup_append.mp hroles).2.2 role hmem role List.mem_cons_self rfl
      have hnext := hstocked.adopt Arithmetic.adder traced hfresh
      rw [← graph_replay_adder hadder hfirst] at hnext
      have hlater : ((stock ++ [(role, Adder.next draft.graph)]).map Prod.fst ++ rest).Nodup := by
        simpa using hroles
      obtain ⟨adders, hlength, hall⟩ := ih hlater hnext h
      refine ⟨Adder.next draft.graph :: adders, by simp [hlength], ?_⟩
      simpa using hall

end Draft

end TokenNet
