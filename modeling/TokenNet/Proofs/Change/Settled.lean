import TokenNet.Proofs.Change.Enclosed
import TokenNet.Proofs.Flow.Eager

/-!
# Data ports of built graphs

What a build does to the partition of data ports is settling, marking and joining.  So in a graph
that has just been built every class has the value zero and two inlets share a class only with an
outlet.  An inlet that is fed is in a class, and it belongs to a part of the composite whose inlet
feeds it.

## Main statements

- `Construct.represents`: the actions of one step of a build.
- `Laid`: what is known of the data ports of a built graph.
- `Constructs.laid`: every build lays them so.
-/

namespace TokenNet.Graph

open TokenNet.Partition

variable {graph graph' : Graph} {partition : Partition}

/-- Settling ports one after another is growth. -/
theorem grows_foldl_settle {α : Type} (port : α → Port) (members : List α)
    (partition : Partition) :
    partition.Grows (members.foldl (fun settled a => settled.settle (port a)) partition) := by
  induction members generalizing partition with
  | nil => exact .refl
  | cons first rest ih => exact .head (.settle partition (port first)) (ih _)

theorem grows_settleNative (graph : Graph) (primitive : Primitive) (partition : Partition) :
    partition.Grows (graph.settleNative primitive partition) :=
  ((grows_foldl_settle (fun i => .inlet ⟨graph.inlets.size + i⟩) _ partition).tail
    (.settle _ _)).tail (.mark _ _)

/-- **What a step of a build does to the partition is growth.** -/
theorem Construct.represents (h : Construct graph graph') (hrep : graph.Represents partition) :
    ∃ partition', graph'.Represents partition' ∧ partition.Grows partition' := by
  -- Each step acts on the partition by settling, joining or marking, or not at all
  cases h with
  | native primitive specification traced =>
    exact ⟨_, hrep.addNative primitive specification traced, grows_settleNative graph primitive _⟩
  | composite specification inletCount exitCount traced =>
    exact ⟨_, hrep.addComposite specification inletCount exitCount traced,
      .single (.settle partition _)⟩
  | adopt => exact ⟨partition, hrep.of_ports_eq rfl rfl rfl, .refl⟩
  | connect _ _ _ hinlet houtlet =>
    exact ⟨_, hrep.connect (hasPort_of_inletOwner? hinlet) (hasPort_of_outletOwner? houtlet),
      .single (.join partition _ _)⟩
  | feed _ _ _ hinner =>
    exact ⟨_, hrep.feed _ (hasPort_of_inletOwner? hinner),
      .tail (.single (.settle partition _)) (.mark _ _)⟩
  | relay _ _ houter =>
    exact ⟨_, hrep.relay _ (hasPort_of_outletOwner? houter),
      .tail (.single (.settle partition _)) (.mark _ _)⟩
  | direct => exact ⟨partition, hrep.of_ports_eq rfl rfl rfl, .refl⟩
  | enter => exact ⟨partition, hrep.of_ports_eq rfl rfl rfl, .refl⟩

theorem Construct.inletOwner? (h : Construct graph graph') {inlet : InletId} {owner : NodeId}
    (howner : graph.inletOwner? inlet = some owner) : graph'.inletOwner? inlet = some owner := by
  rcases h.shape with ⟨record, ports, hraises⟩ | ⟨_, _, _, _, rfl⟩ | ⟨_, _, _, rfl⟩ | hsame
  · exact hraises.inletOwner_old howner
  · exact howner
  · exact howner
  · rw [hsame.inlets]
    exact howner

/-- Only a step that feeds an inlet of a part makes an inlet feed another. -/
theorem Construct.feeds_cases (h : Construct graph graph') {outer inner : InletId}
    (hfeeds : graph'.Feeds outer inner) : graph.Feeds outer inner ∨
      graph' = graph.feed outer inner ∧ ∃ part composite, graph.inletOwner? outer = some composite ∧
        graph.inletOwner? inner = some part ∧ graph.parentOf? part = some composite := by
  -- New nodes are fed nothing, and no other wiring touches what feeds what
  cases h with
  | native primitive specification traced =>
    unfold Feeds at hfeeds
    rw [(graph.raises_addNative specification traced primitive).feeds] at hfeeds
    exact Or.inl hfeeds
  | composite specification inletCount exitCount traced =>
    unfold Feeds at hfeeds
    rw [(graph.raises_addComposite specification traced inletCount exitCount).feeds] at hfeeds
    exact Or.inl hfeeds
  | adopt => exact Or.inl hfeeds
  | connect =>
    rw [feeds_connect] at hfeeds
    exact Or.inl hfeeds
  | feed hpending hpart houter hinner =>
    rcases (feeds_feed (hasPort_of_inletOwner? houter) outer inner).mp hfeeds with hold | ⟨rfl, rfl⟩
    · exact Or.inl hold
    · exact Or.inr ⟨rfl, _, _, houter, hinner, hpart⟩
  | relay =>
    rw [feeds_relay] at hfeeds
    exact Or.inl hfeeds
  | direct => exact Or.inl hfeeds
  | enter => exact Or.inl hfeeds

/-! ## Data ports of built graphs -/

/-- What is known of the data ports of a graph that is built: every class has the value zero, inlets
share a class only with an outlet, and what is fed is in a class and belongs to a part. -/
structure Laid (graph : Graph) (partition : Partition) : Prop where
  represents : graph.Represents partition
  blank : partition.Blank
  backed : partition.Backed
  fed : ∀ {outer inner}, graph.Feeds outer inner → partition.Placed (.inlet inner) ∧
    ∃ part composite, graph.inletOwner? inner = some part ∧ graph.parentOf? part = some composite

theorem class?_empty (port : Port) : ({} : Graph).class? port = none := by
  cases port <;> simp [class?, portCell?, inletCell?, outletCell?, inlet?, outlet?]

theorem Laid.empty : ({} : Graph).Laid (Linked.partition .empty) where
  represents := Linked.represents .empty
  blank port found h := by
    cases (class?_empty port).symm.trans h
  backed inlet other h := by
    obtain ⟨found, hfound, _⟩ := h
    cases (class?_empty (.inlet inlet)).symm.trans hfound
  fed h := by simp [Feeds, feedsOf, inlet?] at h

theorem Laid.construct (h : graph.Laid partition) (hstep : Construct graph graph') :
    ∃ partition', graph'.Laid partition' := by
  obtain ⟨partition', hrep, hgrows⟩ := hstep.represents h.represents
  refine ⟨partition', hrep, h.blank.grows hgrows, h.backed.grows hgrows,
    fun {outer inner} hfeeds => ?_⟩
  -- A pair that was there before stays placed; the new pair is placed by the step itself.
  rcases hstep.feeds_cases hfeeds with hold | ⟨rfl, part, composite, _, hpart, hplace⟩
  · obtain ⟨hplaced, part, composite, hpart, hplace⟩ := h.fed hold
    refine ⟨shares_self.mp (hgrows.shares (shares_self.mpr hplaced)), part, composite,
      hstep.inletOwner? hpart, (hstep.placed hplace).1⟩
  · refine ⟨?_, part, composite, hstep.inletOwner? hpart, (hstep.placed hplace).1⟩
    have hfed := h.represents.feed outer (hasPort_of_inletOwner? hpart)
    have hsettled : (partition.settle (.inlet inner)).Shares (.inlet inner) (.inlet inner) :=
      (shares_settle _).mpr (Or.inr ⟨rfl, rfl⟩)
    obtain ⟨cell, hcell, _⟩ := hfed.shares_iff.mpr ((shares_mark (.inlet inner)).mpr hsettled)
    exact hrep.exists_class hcell

/-- **Every build lays the data ports so.** -/
theorem Constructs.laid (h : Constructs {} graph) : ∃ partition, graph.Laid partition := by
  induction h with
  | refl => exact ⟨_, .empty⟩
  | tail _ hstep ih =>
    obtain ⟨_, hlaid⟩ := ih
    exact hlaid.construct hstep

end TokenNet.Graph
