import TokenNet.Proofs.Change.Encapsulated
import TokenNet.Proofs.Flow.Values

/-!
# Chains of relays

A composite is made before its parts, and every node brings one outlet with it.  So outlets are
numbered in the order of the nodes to which they belong, and an outlet of a part, which is relayed
to the outlet of its composite, is relayed to one with a smaller number.  A chain of relays
therefore ends.  The outlet at which a relay ends is marked as wired, and nothing takes such a mark
away.

## Main statements

- `Construct.outlets_cases`: what a step of a build does to outlets, up to their cells.
- `Descends`: every relay leads to an outlet with a smaller number that is marked as wired.
- `Constructs.descends`, `Network.Reachable.descends`: so it is in every graph that is built, and
  ever after.
- `Descends.mem_relayChain_iff`: the chain of an outlet has all outlets to which relays lead from
  it.
-/

namespace TokenNet

namespace Graph

variable {graph graph' : Graph} {inner outer outlet : OutletId}

/-! ## Marks -/

theorem outletWired_bare (graph : Graph) : graph.bare.outletWired = graph.outletWired := by
  funext outlet
  unfold outletWired
  rw [outlet?_bare]
  cases graph.outlet? outlet <;> rfl

theorem relayOf?_of_eq (h : graph'.bare.outlets = graph.bare.outlets) :
    graph'.relayOf? = graph.relayOf? := by
  rw [← relayOf?_bare graph', ← relayOf?_bare graph]
  unfold relayOf? outlet?
  rw [h]

/-- A new outlet takes no mark away. -/
theorem outletWired_of_push {owner : NodeId} {wired : Bool}
    (h : graph'.bare.outlets = graph.bare.outlets.push { owner, wired })
    (hwired : graph.outletWired outlet = true) : graph'.outletWired outlet = true := by
  have hport : outlet.index < graph.bare.outlets.size := by
    rw [outletWired, Option.any_eq_true] at hwired
    obtain ⟨record, hrecord, _⟩ := hwired
    exact Array.size_map.symm ▸ (Array.getElem?_eq_some_iff.mp hrecord).1
  rw [← outletWired_bare] at hwired ⊢
  rw [outletWired, outlet?, h, Array.getElem?_push, if_neg (Nat.ne_of_lt hport)]
  exact hwired

/-- A change of an outlet that takes no mark away. -/
theorem outletWired_modifyOutlet {changed : OutletId} {change : Outlet → Outlet}
    (h : ∀ record, record.wired = true → (change record).wired = true)
    (hwired : graph.outletWired outlet = true) :
    (graph.modifyOutlet changed change).outletWired outlet = true := by
  rw [outletWired, Option.any_eq_true] at hwired ⊢
  obtain ⟨record, hrecord, hwired⟩ := hwired
  rw [outlet?_modifyOutlet, hrecord]
  split
  · exact ⟨change record, rfl, h record hwired⟩
  · exact ⟨record, rfl, hwired⟩

theorem outletWired_relay (hwired : graph.outletWired outlet = true) :
    (graph.relay outer inner).outletWired outlet = true := by
  rw [← outletWired_bare, bare_relay]
  rw [← outletWired_bare] at hwired
  exact outletWired_modifyOutlet (fun _ _ => rfl) (outletWired_modifyOutlet (fun _ => id) hwired)

/-- Relaying an outlet marks the one at which the relay ends. -/
theorem outletWired_relay_outer (houter : graph.HasPort (.outlet outer)) :
    (graph.relay outer inner).outletWired outer = true := by
  obtain ⟨record, hrecord⟩ := Option.isSome_iff_exists.mp (outlet?_isSome.mpr houter)
  rw [← outletWired_bare, bare_relay, markOutlet, outletWired, outlet?_modifyOutlet,
    outlet?_modifyOutlet, outlet?_bare, hrecord]
  by_cases hsame : outer = inner <;> simp [hsame]

/-! ## Building -/

/-- **What a step of a build does to outlets**, up to their cells: a new node brings one, one is
relayed to another, or they stay as they are. -/
theorem Construct.outlets_cases (h : Construct graph graph') :
    (∃ wired, graph'.bare.outlets =
        graph.bare.outlets.push { owner := ⟨graph.nodes.size⟩, wired } ∧
      graph.nodes.size < graph'.nodes.size) ∨
    (graph'.bare.outlets = graph.bare.outlets ∧ graph'.nodes.size = graph.nodes.size) ∨
    ∃ outer inner, graph.HasPort (.outlet outer) ∧ graph.HasPort (.outlet inner) ∧
      graph' = graph.relay outer inner := by
  have hgrows {record : Node} {ports : Interface} (hraises : Raises graph graph' record ports) :
      graph.nodes.size < graph'.nodes.size :=
    (Array.getElem?_eq_some_iff.mp hraises.node).1
  cases h with
  -- A new node brings its own output along, marked for a primitive only
  | native primitive specification traced =>
    have hbare := bare_addNative graph primitive specification traced
    exact Or.inl ⟨true, (congrArg Graph.outlets hbare :),
      hgrows (graph.raises_addNative specification traced primitive)⟩
  | composite specification inletCount exitCount traced =>
    have hbare := bare_addComposite graph specification inletCount exitCount traced
    exact Or.inl ⟨false, (congrArg Graph.outlets hbare :),
      hgrows (graph.raises_addComposite specification traced inletCount exitCount)⟩
  | adopt => exact Or.inr (Or.inl ⟨rfl, by simp [Graph.adopt, modifyNode]⟩)
  | @connect _ _ _ inlet outlet =>
    have hbare := bare_connect graph inlet outlet
    exact Or.inr (Or.inl ⟨(congrArg Graph.outlets hbare :),
      congrArg Array.size (SameTree.connect graph inlet outlet).nodes⟩)
  | @feed _ _ outer inner =>
    have hbare := bare_feed graph outer inner
    exact Or.inr (Or.inl ⟨(congrArg Graph.outlets hbare :),
      congrArg Array.size (SameTree.feed graph outer inner).nodes⟩)
  -- Only a relay changes an output that is there already
  | relay _ _ houter hinner =>
    refine Or.inr (Or.inr ⟨_, _, ?_, ?_, rfl⟩)
    · exact hasPort_of_outletOwner? houter
    · exact hasPort_of_outletOwner? hinner
  | direct => exact Or.inr (Or.inl ⟨rfl, rfl⟩)
  | enter => exact Or.inr (Or.inl ⟨rfl, by simp [Graph.setEntry, modifyNode]⟩)

/-- Outlets are numbered in the order of the nodes to which they belong. -/
structure Numbered (graph : Graph) : Prop where
  owner_lt : ∀ {outlet owner}, graph.outletOwner? outlet = some owner →
    owner.index < graph.nodes.size
  lt : ∀ {outlet later owner after}, graph.outletOwner? outlet = some owner →
    graph.outletOwner? later = some after → owner.index < after.index → outlet.index < later.index

namespace Numbered

theorem empty : Numbered ({} : Graph) := by
  constructor <;> simp [outletOwner?, outlet?]

/-- What is read off owners and the number of nodes. -/
theorem of_owners_eq (h : graph.Numbered) (howner : graph'.outletOwner? = graph.outletOwner?)
    (hsize : graph'.nodes.size = graph.nodes.size) : graph'.Numbered where
  owner_lt := by
    rw [howner, hsize]
    exact h.owner_lt
  lt := by
    rw [howner]
    exact h.lt

/-- A new node stands behind the others, and so does its outlet. -/
theorem push (h : graph.Numbered) {wired : Bool}
    (hout : graph'.bare.outlets = graph.bare.outlets.push { owner := ⟨graph.nodes.size⟩, wired })
    (hsize : graph.nodes.size < graph'.nodes.size) : graph'.Numbered := by
  have howner := outletOwner?_of_push hout
  constructor
  case owner_lt =>
    intro outlet owner hsome
    rw [howner] at hsome
    split at hsome
    · exact Option.some.inj hsome ▸ hsize
    · exact Nat.lt_trans (h.owner_lt hsome) hsize
  case lt =>
    intro outlet later owner after hsome hlater hlt
    rw [howner] at hsome hlater
    split at hlater
    next hnew =>
      obtain rfl := Option.some.inj hlater
      split at hsome
      · obtain rfl := Option.some.inj hsome
        exact absurd hlt (Nat.lt_irrefl _)
      · exact hnew ▸ hasPort_of_outletOwner? hsome
    next =>
      -- No old node stands behind the new one
      have hafter := h.owner_lt hlater
      split at hsome
      · obtain rfl := Option.some.inj hsome
        exact absurd (Nat.lt_trans hlt hafter) (Nat.lt_irrefl _)
      · exact h.lt hsome hlater hlt

theorem construct (h : graph.Numbered) (hstep : Construct graph graph') : graph'.Numbered := by
  rcases hstep.outlets_cases with ⟨wired, hout, hsize⟩ | ⟨hout, hsize⟩ | ⟨outer, inner, _, _, rfl⟩
  · exact h.push hout hsize
  · refine h.of_owners_eq ?_ hsize
    rw [← outletOwner?_bare graph', ← outletOwner?_bare graph]
    unfold outletOwner? outlet?
    rw [hout]
  · have hsame := SameTree.relay graph outer inner
    exact h.of_owners_eq hsame.outlets (congrArg Array.size hsame.nodes)

end Numbered

/-- **Every step of a build marks the outlets at which relays end.** -/
theorem Construct.outletWired_of_relayOf? (hstep : Construct graph graph')
    (h : ∀ inner outer, graph.relayOf? inner = some outer → graph.outletWired outer = true) :
    ∀ inner outer, graph'.relayOf? inner = some outer → graph'.outletWired outer = true := by
  intro inner outer hrelay
  rcases hstep.outlets_cases with ⟨wired, hout, _⟩ | ⟨hout, _⟩ | ⟨_, _, houter, hinner, rfl⟩
  · rw [relayOf?_of_push hout] at hrelay
    exact outletWired_of_push hout (h inner outer hrelay)
  · rw [relayOf?_of_eq hout] at hrelay
    rw [outletWired_of_eq hout]
    exact h inner outer hrelay
  -- The new relay has marked its outer output
  · rw [relayOf?_relay hinner, Function.update_apply] at hrelay
    split at hrelay
    · obtain rfl := Option.some.inj hrelay
      exact outletWired_relay_outer houter
    · exact outletWired_relay (h inner outer hrelay)

/-! ## Descending relays -/

/-- Every relay leads to an outlet with a smaller number that is marked as wired. -/
structure Descends (graph : Graph) : Prop where
  lt : ∀ {inner outer}, graph.relayOf? inner = some outer → outer.index < inner.index
  wired : ∀ {inner outer}, graph.relayOf? inner = some outer → graph.outletWired outer = true

theorem Constructs.numbered (h : Constructs {} graph) : graph.Numbered := by
  induction h with
  | refl => exact .empty
  | tail _ hstep ih => exact ih.construct hstep

/-- **In a graph that is built, relays lead from parts to composites**, and so to outlets with
smaller numbers. -/
theorem Constructs.descends (h : Constructs {} graph) : graph.Descends where
  lt {inner outer} hrelay := by
    obtain ⟨composite, houter, hsite⟩ := h.nested _ _ (.relay hrelay)
    obtain ⟨part, hinner, hparent⟩ := siteOf?_eq_some_iff.mp hsite
    exact h.numbered.lt houter hinner ((h.lineage .empty).above hparent).1
  wired {inner outer} := by
    suffices hmarked : ∀ inner outer, graph.relayOf? inner = some outer →
        graph.outletWired outer = true from hmarked inner outer
    induction h with
    | refl => simp [relayOf?, outlet?]
    | tail _ hstep ih => exact hstep.outletWired_of_relayOf? ih

/-- Cells do not matter. -/
theorem Descends.of_outlets_eq (h : graph.Descends)
    (hout : graph'.bare.outlets = graph.bare.outlets) : graph'.Descends where
  lt hrelay := h.lt (relayOf?_of_eq hout ▸ hrelay)
  wired hrelay := by
    rw [outletWired_of_eq hout]
    exact h.wired (relayOf?_of_eq hout ▸ hrelay)

/-- Using a graph changes nothing about outlets but their cells. -/
theorem Use.bare_outlets (h : graph.Use graph') : graph'.bare.outlets = graph.bare.outlets := by
  cases h with
  | ensure => rw [bare_ensure]
  | setValue => rw [bare_setValue]
  | @connect inlet outlet =>
    have hbare := bare_connect graph inlet outlet
    exact (congrArg Graph.outlets hbare :)
  | detach => rw [bare_detach]
  | remember => rfl

theorem Uses.bare_outlets (h : graph.Uses graph') : graph'.bare.outlets = graph.bare.outlets := by
  induction h with
  | refl => rfl
  | tail _ huse ih => exact huse.bare_outlets.trans ih

/-! ## Chains -/

/-- An outlet is relayed to another. -/
def RelaysTo (graph : Graph) (inner outer : OutletId) : Prop :=
  graph.relayOf? inner = some outer

/-- No chain of relays is cut short. -/
theorem Descends.relays_succ (h : graph.Descends) (bound : Nat) (outlet : OutletId) :
    graph.relays (bound + 1) outlet =
      ((graph.relayOf? outlet).map fun outer => outer :: graph.relays bound outer).getD [] := by
  cases hrelay : graph.relayOf? outlet with
  | none =>
    have hread : (graph.outlet? outlet).bind Outlet.relay = none := hrelay
    simp only [relays, hread, Option.map_none, Option.getD_none]
  | some outer =>
    have hread : (graph.outlet? outlet).bind Outlet.relay = some outer := hrelay
    simp only [relays, hread, h.wired hrelay, if_true, Option.map_some, Option.getD_some]

/-- A chain is long enough as soon as its bound is greater than the number of its first outlet. -/
theorem Descends.mem_relays_iff (h : graph.Descends) {bound : Nat}
    (hbound : outlet.index < bound) :
    outer ∈ outlet :: graph.relays bound outlet ↔
      Relation.ReflTransGen graph.RelaysTo outlet outer := by
  -- Induction on the bound: each relay leads to an output with a smaller number
  induction bound generalizing outlet with
  | zero => exact absurd hbound (Nat.not_lt_zero _)
  | succ bound ih =>
    rw [h.relays_succ, Relation.ReflTransGen.cases_head_iff, List.mem_cons, eq_comm]
    unfold RelaysTo
    cases hrelay : graph.relayOf? outlet with
    | none => simp
    | some next =>
      have hnext : next.index < bound := Nat.lt_of_lt_of_le (h.lt hrelay) (Nat.le_of_lt_succ hbound)
      simp only [Option.map_some, Option.getD_some, ih hnext, Option.some.injEq, exists_eq_left']
      rfl

/-- **The chain of an outlet has all outlets to which relays lead from it.** -/
theorem Descends.mem_relayChain_iff (h : graph.Descends)
    (houtlet : graph.HasPort (.outlet outlet)) :
    outer ∈ graph.relayChain outlet ↔ Relation.ReflTransGen graph.RelaysTo outlet outer :=
  h.mem_relays_iff houtlet

end Graph

/-! ## Calls -/

namespace Network

variable {net : Network}

/-- No call changes outlets, up to their cells. -/
theorem bare_outlets_perform (hclosed : net.graph.Closed) (call : Call) :
    (net.perform call).1.graph.bare.outlets = net.graph.bare.outlets := by
  refine @perform_induction net (fun graph => graph.bare.outlets = net.graph.bare.outlets) hclosed
    call ?_ ?_
  · exact fun huses => huses.bare_outlets
  · exact fun _ _ _ => rfl

theorem bare_outlets_performAll (hclosed : net.graph.Closed) (calls : List Call) :
    (net.performAll calls).1.graph.bare.outlets = net.graph.bare.outlets :=
  @performAll_induction (fun graph graph' => graph'.bare.outlets = graph.bare.outlets)
    (fun _ => rfl) (fun h h' => h'.trans h) bare_outlets_perform calls net hclosed

/-- **In every network that can come about, relays descend.** -/
theorem Reachable.descends (h : net.Reachable) : net.graph.Descends := by
  obtain ⟨library, identifier, options, built, calls, hbuilt, rfl⟩ := h
  have hgrown := (Library.built_of_instantiate hbuilt).constructs
  have hclosed : built.graph.Closed := (leads_instantiate hbuilt).1.closed .empty
  exact hgrown.descends.of_outlets_eq (bare_outlets_performAll hclosed calls)

end Network

end TokenNet
