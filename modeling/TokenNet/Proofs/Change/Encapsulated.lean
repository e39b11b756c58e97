import TokenNet.Proofs.Change.Plan
import TokenNet.Proofs.Change.Settled
import TokenNet.Proofs.Graph.Scheme

/-!
# Where data ports lead

While a composite is built, outlets of its parts are wired into inlets of its parts, its inlets feed
inlets of its parts, and the outlet of a part is relayed to its own outlet.  So ports that share a
cell belong to parts of one composite, and whatever leads further leads from a composite to one of
its parts or from a part to its composite.  Using a graph changes what shares a cell, but not what is
fed and relayed.

## Main statements

- `Level`: two ports are the same or belong to parts of one composite.
- `Exposes`, `Nested`: which ports are fed and relayed, and where they are.
- `Constructs.leveled`, `Constructs.nested`: in a graph that is built, ports on one level only share
  cells, and composites expose ports of their own parts.
- `Use.sameLinks`: using a graph keeps what is fed and relayed.
-/

namespace TokenNet.Graph

open TokenNet.Partition

variable {graph graph' : Graph} {partition : Partition} {port other : Port}

/-! ## Sites of ports -/

/-- The node a port belongs to. -/
def ownerOf? (graph : Graph) : Port → Option NodeId
  | .inlet inlet => graph.inletOwner? inlet
  | .outlet outlet => graph.outletOwner? outlet

/-- The composite under which the owner of a port stands. -/
def siteOf? (graph : Graph) (port : Port) : Option NodeId :=
  (graph.ownerOf? port).bind graph.parentOf?

theorem siteOf?_eq_some_iff {composite : NodeId} : graph.siteOf? port = some composite ↔
    ∃ part, graph.ownerOf? port = some part ∧ graph.parentOf? part = some composite :=
  Option.bind_eq_some_iff

/-- Two ports are the same, or they belong to parts of one composite. -/
def Level (graph : Graph) (port other : Port) : Prop :=
  port = other ∨
    ∃ composite, graph.siteOf? port = some composite ∧ graph.siteOf? other = some composite

theorem Level.refl (graph : Graph) (port : Port) : graph.Level port port :=
  Or.inl rfl

theorem Level.symm (h : graph.Level port other) : graph.Level other port := by
  rcases h with rfl | ⟨composite, hport, hother⟩
  · exact .refl graph port
  · exact Or.inr ⟨composite, hother, hport⟩

theorem Level.trans {third : Port} (h : graph.Level port other) (h' : graph.Level other third) :
    graph.Level port third := by
  rcases h with rfl | ⟨composite, hport, hother⟩
  · exact h'
  · rcases h' with rfl | ⟨composite', hother', hthird⟩
    · exact Or.inr ⟨composite, hport, hother⟩
    · obtain rfl := Option.some.inj (hother.symm.trans hother')
      exact Or.inr ⟨composite, hport, hthird⟩

theorem SamePlan.ownerOf? (h : graph.SamePlan graph') : graph'.ownerOf? = graph.ownerOf? := by
  funext port
  unfold Graph.ownerOf?
  rw [h.inlets, h.outlets]

theorem SamePlan.siteOf? (h : graph.SamePlan graph') : graph'.siteOf? = graph.siteOf? := by
  funext port
  unfold Graph.siteOf?
  rw [h.ownerOf?, h.parentOf?]

/-- Two ports share a cell. -/
def SharesCell (graph : Graph) (port other : Port) : Prop :=
  ∃ cell, graph.portCell? port = some cell ∧ graph.portCell? other = some cell

theorem SharesCell.symm (h : graph.SharesCell port other) : graph.SharesCell other port := by
  obtain ⟨cell, hport, hother⟩ := h
  exact ⟨cell, hother, hport⟩

theorem SharesCell.trans {third : Port} (h : graph.SharesCell port other)
    (h' : graph.SharesCell other third) : graph.SharesCell port third := by
  obtain ⟨cell, hport, hother⟩ := h
  obtain ⟨cell', hother', hthird⟩ := h'
  obtain rfl := Option.some.inj (hother.symm.trans hother')
  exact ⟨cell, hport, hthird⟩

theorem Represents.sharesCell_iff (h : graph.Represents partition) :
    graph.SharesCell port other ↔ partition.Shares port other :=
  h.shares_iff

/-- No cell is shared by ports that stand on different levels. -/
def Leveled (graph : Graph) : Prop :=
  ∀ port other, graph.SharesCell port other → graph.Level port other

/-! ## What building does -/

theorem Construct.ownerOf? (h : Construct graph graph') {owner : NodeId}
    (howner : graph.ownerOf? port = some owner) : graph'.ownerOf? port = some owner := by
  cases port with
  | inlet inlet => exact h.inletOwner? howner
  | outlet outlet =>
    rcases h.shape with ⟨_, _, hraises⟩ | ⟨_, _, _, _, rfl⟩ | ⟨_, _, _, rfl⟩ | hsame
    · exact hraises.outletOwner_old howner
    · exact howner
    · exact howner
    · exact (congrFun hsame.outlets outlet).trans howner

/-- A port stays under the composite under which it stands. -/
theorem Construct.siteOf? (h : Construct graph graph') {composite : NodeId}
    (hsite : graph.siteOf? port = some composite) : graph'.siteOf? port = some composite := by
  obtain ⟨part, hpart, hparent⟩ := siteOf?_eq_some_iff.mp hsite
  exact siteOf?_eq_some_iff.mpr ⟨part, h.ownerOf? hpart, (h.placed hparent).1⟩

theorem Level.construct (hlevel : graph.Level port other) (h : Construct graph graph') :
    graph'.Level port other := by
  rcases hlevel with rfl | ⟨composite, hport, hother⟩
  · exact .refl graph' port
  · exact Or.inr ⟨composite, h.siteOf? hport, h.siteOf? hother⟩

/-- **A step of a build lets only ports of parts of one composite share a class.** -/
theorem Construct.within_level (h : Construct graph graph') (hrep : graph.Represents partition)
    (hwithin : partition.Within graph.Level) :
    ∃ partition', graph'.Represents partition' ∧ partition'.Within graph'.Level := by
  -- Whatever is level before the step is level after it
  have hlater : partition.Within graph'.Level :=
    fun port other hshares => (hwithin port other hshares).construct h
  have hsettle (port : Port) : (partition.settle port).Within graph'.Level :=
    within_settle.mpr ⟨hlater, .refl graph' port⟩
  have hstep := h
  cases h with
  | native primitive specification traced =>
    refine ⟨_, hrep.addNative primitive specification traced, ?_⟩
    exact within_settle.mpr ⟨hlater.foldl_settle (Level.refl _) _ _, .refl _ _⟩
  | composite specification inletCount exitCount traced =>
    exact ⟨_, hrep.addComposite specification inletCount exitCount traced, hsettle _⟩
  | @connect _ giver taker inlet outlet _ hgiver htaker hinlet houtlet =>
    refine ⟨_, hrep.connect (hasPort_of_inletOwner? hinlet) (hasPort_of_outletOwner? houtlet), ?_⟩
    have hlevel : graph.Level (.inlet inlet) (.outlet outlet) :=
      Or.inr ⟨_, siteOf?_eq_some_iff.mpr ⟨_, hinlet, htaker⟩,
        siteOf?_eq_some_iff.mpr ⟨_, houtlet, hgiver⟩⟩
    have hjoin := @within_join partition (graph.connect inlet outlet).Level (fun _ _ => Level.symm)
      (fun _ _ _ => Level.trans) inlet outlet
    exact hjoin.mpr ⟨hlater, hlevel.construct hstep⟩
  | feed _ _ _ hinner =>
    exact ⟨_, hrep.feed _ (hasPort_of_inletOwner? hinner), hsettle _⟩
  | relay _ _ houter =>
    exact ⟨_, hrep.relay _ (hasPort_of_outletOwner? houter), hsettle _⟩
  | adopt => exact ⟨partition, hrep.of_ports_eq rfl rfl rfl, hlater⟩
  | direct => exact ⟨partition, hrep.of_ports_eq rfl rfl rfl, hlater⟩
  | enter => exact ⟨partition, hrep.of_ports_eq rfl rfl rfl, hlater⟩

/-- **In a graph that is built, ports that share a class belong to parts of one composite.** -/
theorem Constructs.within_level (h : Constructs {} graph) :
    ∃ partition, graph.Represents partition ∧ partition.Within graph.Level := by
  induction h with
  | refl =>
    refine ⟨_, Linked.represents .empty, fun port other hshares => ?_⟩
    obtain ⟨found, hfound, _⟩ := hshares
    cases (class?_empty port).symm.trans hfound
  | tail _ hstep ih =>
    obtain ⟨partition, hrep, hwithin⟩ := ih
    exact hstep.within_level hrep hwithin

theorem Constructs.leveled (h : Constructs {} graph) : graph.Leveled := by
  obtain ⟨partition, hrep, hwithin⟩ := h.within_level
  exact fun port other hshares => hwithin port other (hrep.sharesCell_iff.mp hshares)

/-! ## Exposed ports -/

/-- A port exposes another: an inlet feeds it, or it is relayed to an outlet. -/
inductive Exposes (graph : Graph) : Port → Port → Prop where
  | feed {outer inner : InletId} (h : graph.Feeds outer inner) :
      Exposes graph (.inlet outer) (.inlet inner)
  | relay {outer inner : OutletId} (h : graph.relayOf? inner = some outer) :
      Exposes graph (.outlet outer) (.outlet inner)

/-- The ports of a composite expose ports of its own parts. -/
def Nested (graph : Graph) : Prop :=
  ∀ outer inner, graph.Exposes outer inner → ∃ composite,
    graph.ownerOf? outer = some composite ∧ graph.siteOf? inner = some composite

theorem Nested.empty : Nested ({} : Graph) := by
  intro outer inner hexposes
  cases hexposes with
  | feed h => simp [Feeds, feedsOf, inlet?] at h
  | relay h => simp [relayOf?, outlet?] at h

/-- Only a step that relays the outlet of a part makes an outlet be relayed. -/
theorem Construct.relayOf?_cases (h : Construct graph graph') {inner outer : OutletId}
    (hrelay : graph'.relayOf? inner = some outer) : graph.relayOf? inner = some outer ∨
      ∃ composite, graph.ownerOf? (.outlet outer) = some composite ∧
        graph.siteOf? (.outlet inner) = some composite := by
  -- No step but a relay touches a relay
  cases h with
  | native primitive specification traced =>
    rw [(graph.raises_addNative specification traced primitive).relay] at hrelay
    exact Or.inl hrelay
  | composite specification inletCount exitCount traced =>
    rw [(graph.raises_addComposite specification traced inletCount exitCount).relay] at hrelay
    exact Or.inl hrelay
  | adopt => exact Or.inl hrelay
  | connect =>
    rw [relayOf?_connect] at hrelay
    exact Or.inl hrelay
  | feed =>
    rw [relayOf?_feed] at hrelay
    exact Or.inl hrelay
  | relay hpending hpart houter hinner =>
    rw [relayOf?_relay (hasPort_of_outletOwner? hinner), Function.update_apply] at hrelay
    split at hrelay
    next hsame =>
      obtain rfl := Option.some.inj hrelay
      exact Or.inr ⟨_, houter, siteOf?_eq_some_iff.mpr ⟨_, hsame ▸ hinner, hpart⟩⟩
    next => exact Or.inl hrelay
  | direct => exact Or.inl hrelay
  | enter => exact Or.inl hrelay

/-- **Whatever a step of a build exposes belongs to a part of the composite that exposes it.** -/
theorem Nested.construct (h : graph.Nested) (hstep : Construct graph graph') : graph'.Nested := by
  -- Who owns a port and where it stands is kept by every step
  have hlater {outer inner : Port} {composite : NodeId}
      (howner : graph.ownerOf? outer = some composite)
      (hsite : graph.siteOf? inner = some composite) :
      ∃ composite, graph'.ownerOf? outer = some composite ∧ graph'.siteOf? inner = some composite :=
    ⟨composite, hstep.ownerOf? howner, hstep.siteOf? hsite⟩
  intro outer inner hexposes
  cases hexposes with
  | feed hfeeds =>
    rcases hstep.feeds_cases hfeeds with hold | ⟨_, part, composite, houter, hinner, hparent⟩
    · obtain ⟨composite, howner, hsite⟩ := h _ _ (.feed hold)
      exact hlater howner hsite
    · have howner : graph.ownerOf? (.inlet _) = some composite := houter
      have hsite : graph.siteOf? (.inlet _) = some composite :=
        siteOf?_eq_some_iff.mpr ⟨part, hinner, hparent⟩
      exact hlater howner hsite
  | relay hrelay =>
    rcases hstep.relayOf?_cases hrelay with hold | ⟨composite, howner, hsite⟩
    · obtain ⟨composite, howner, hsite⟩ := h _ _ (.relay hold)
      exact hlater howner hsite
    · exact hlater howner hsite

theorem Constructs.nested (h : Constructs {} graph) : graph.Nested := by
  induction h with
  | refl => exact .empty
  | tail _ hstep ih => exact ih.construct hstep

/-! ## Using a graph -/

/-- Two graphs agree on which inlets are fed and which outlets are relayed. -/
structure SameLinks (graph graph' : Graph) : Prop where
  feeds : graph'.Feeds = graph.Feeds
  relays : graph'.relayOf? = graph.relayOf?

theorem SameLinks.refl (graph : Graph) : graph.SameLinks graph :=
  ⟨rfl, rfl⟩

theorem SameLinks.trans {graph'' : Graph} (h : graph.SameLinks graph')
    (h' : graph'.SameLinks graph'') : graph.SameLinks graph'' :=
  ⟨h'.feeds.trans h.feeds, h'.relays.trans h.relays⟩

theorem SameLinks.of_bare_eq (h : graph'.bare = graph.bare) : graph.SameLinks graph' :=
  ⟨feeds_of_bare_eq h, relayOf?_of_bare_eq h⟩

/-- Using a graph keeps what is fed and relayed. -/
theorem Use.sameLinks (h : Use graph graph') : graph.SameLinks graph' := by
  cases h with
  | ensure => exact .of_bare_eq (bare_ensure graph _)
  | setValue cell value => exact .of_bare_eq (bare_setValue graph cell value)
  | connect => exact ⟨feeds_connect graph _ _, relayOf?_connect graph _ _⟩
  | detach port => exact .of_bare_eq (bare_detach graph port)
  | remember => exact ⟨rfl, rfl⟩

theorem Uses.sameLinks (h : Uses graph graph') : graph.SameLinks graph' := by
  induction h with
  | refl => exact .refl graph
  | tail _ huse ih => exact ih.trans huse.sameLinks

theorem Uses.feeds (h : Uses graph graph') : graph'.Feeds = graph.Feeds :=
  h.sameLinks.feeds

theorem SameLinks.exposes (h : graph.SameLinks graph') : graph'.Exposes = graph.Exposes := by
  funext outer inner
  apply propext
  constructor
  · rintro (hfeeds | hrelay)
    · exact .feed (h.feeds ▸ hfeeds)
    · exact .relay (h.relays ▸ hrelay)
  · rintro (hfeeds | hrelay)
    · exact .feed (h.feeds.symm ▸ hfeeds)
    · exact .relay (h.relays.symm ▸ hrelay)

/-- What is nested stays so as long as the plan and the links are kept. -/
theorem Nested.of_same (h : graph.Nested) (hplan : graph.SamePlan graph')
    (hlinks : graph.SameLinks graph') : graph'.Nested := by
  intro outer inner hexposes
  rw [hlinks.exposes] at hexposes
  rw [hplan.ownerOf?, hplan.siteOf?]
  exact h outer inner hexposes

end TokenNet.Graph
