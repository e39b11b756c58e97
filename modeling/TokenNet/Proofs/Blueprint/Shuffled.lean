import TokenNet.Proofs.Blueprint.Record
import TokenNet.Proofs.Change.Settled
import TokenNet.Proofs.Change.Unordered
import TokenNet.Proofs.Run.Alike

/-!
# Wirings in any order

Within one phase of a replay the data directives can be permuted, repeated and moved past the
others: they resolve to the same rewirings wherever they stand, because wiring leaves the nodes
alone, and what the rewirings do to the scheme of the graph depends on which of them wire data and on
the order of those that wire control.

## Main statements

- `Draft.hasScheme_rewireAll`, `Draft.mem_issues_rewireAll`: what a list of wirings does to the
  scheme of the graph and to the issues.
- `Draft.Alike.rewireAll_of_shuffled`: shuffled wirings leave graphs of one scheme behind.
-/

namespace TokenNet

/-! ## Directives -/

namespace Directive

/-- Whether a directive wires data. -/
def isData : Directive → Bool
  | dataFlow .. | exposeInlet .. | exposeOutlet .. => true
  | _ => false

/-- Directives only look at the nodes of a graph. -/
theorem resolve_of_nodes_eq {graph graph' : Graph} (h : graph'.nodes = graph.nodes)
    (composite : NodeId) (name : String) (directive : Directive) :
    directive.resolve graph' composite name = directive.resolve graph composite name := by
  -- All that is looked up is looked up in the nodes
  have hnode : graph'.node? = graph.node? := by
    unfold Graph.node?
    rw [h]
  have hpart : graph'.part? = graph.part? := by
    unfold Graph.part?
    rw [hnode]
  have hinterface : graph'.interface? = graph.interface? := by
    unfold Graph.interface?
    rw [hnode]
  have hentry : graph'.entryOf? = graph.entryOf? := by
    unfold Graph.entryOf?
    rw [hnode]
  cases directive <;>
    simp only [resolve, findPart, inletsOf, exitsOf, joinEntriesOf, findEntry, hpart, hinterface,
      hentry]

/-- A directive that wires data resolves to a rewiring that does, and one that exposes an outlet
relays it to the outlet of the composite. -/
theorem shape_of_resolve {graph : Graph} {composite : NodeId} {name : String}
    {directive : Directive} {rewiring : Rewiring}
    (h : directive.resolve graph composite name = .ok (some rewiring)) :
    rewiring.isData = directive.isData ∧ ∀ outer inner, rewiring = .relay outer inner →
      (graph.interface? composite).map Interface.outlet = some outer := by
  -- One line for each handle that is looked up
  cases directive with
  | part => cases h
  | dataFlow =>
    obtain ⟨_, _, h⟩ := Except.bind_eq_ok_iff.mp h
    obtain ⟨_, _, h⟩ := Except.bind_eq_ok_iff.mp h
    obtain ⟨_, _, rfl⟩ := Option.map_eq_some_iff.mp (Except.ok.inj h)
    exact ⟨rfl, nofun⟩
  | controlFlow =>
    obtain ⟨_, _, h⟩ := Except.bind_eq_ok_iff.mp h
    obtain ⟨_, _, h⟩ := Except.bind_eq_ok_iff.mp h
    obtain ⟨_, _, h⟩ := Except.bind_eq_ok_iff.mp h
    obtain rfl := Option.some.inj (Except.ok.inj h)
    exact ⟨rfl, nofun⟩
  | exposeInlet =>
    obtain ⟨_, _, h⟩ := Except.bind_eq_ok_iff.mp h
    obtain ⟨_, _, h⟩ := Except.bind_eq_ok_iff.mp h
    obtain ⟨_, _, h⟩ := Except.bind_eq_ok_iff.mp h
    obtain rfl := Option.some.inj (Except.ok.inj h)
    exact ⟨rfl, nofun⟩
  | exposeOutlet =>
    obtain ⟨_, _, h⟩ := Except.bind_eq_ok_iff.mp h
    obtain ⟨ports, hports, h⟩ := Option.bind_eq_some_iff.mp (Except.ok.inj h)
    obtain ⟨_, _, h⟩ := Option.bind_eq_some_iff.mp h
    obtain rfl := Option.some.inj h
    refine ⟨rfl, fun outer inner hrelay => ?_⟩
    obtain rfl := (Rewiring.relay.inj hrelay).1
    rw [hports]
    rfl
  | exposeExit =>
    obtain ⟨_, _, h⟩ := Except.bind_eq_ok_iff.mp h
    obtain ⟨_, _, h⟩ := Except.bind_eq_ok_iff.mp h
    obtain ⟨_, _, h⟩ := Except.bind_eq_ok_iff.mp h
    obtain rfl := Option.some.inj (Except.ok.inj h)
    exact ⟨rfl, nofun⟩
  | exposeEntry =>
    obtain ⟨_, _, h⟩ := Except.bind_eq_ok_iff.mp h
    obtain ⟨_, _, h⟩ := Except.bind_eq_ok_iff.mp h
    obtain rfl := Option.some.inj (Except.ok.inj h)
    exact ⟨rfl, nofun⟩

/-- What a directive amounts to, if it can be carried out and does something. -/
def rewiring? (graph : Graph) (composite : NodeId) (name : String) (directive : Directive) :
    Option Rewiring :=
  match directive.resolve graph composite name with
  | .ok rewiring => rewiring
  | .error _ => none

theorem rewiring?_eq_some_iff {graph : Graph} {composite : NodeId} {name : String}
    {directive : Directive} {rewiring : Rewiring} :
    rewiring? graph composite name directive = some rewiring ↔
      directive.resolve graph composite name = .ok (some rewiring) := by
  unfold rewiring?
  cases directive.resolve graph composite name <;> simp

/-- The rewirings that wire control are those of the directives that do. -/
theorem filter_rewirings (graph : Graph) (composite : NodeId) (name : String)
    (log : List Directive) :
    ((log.filterMap (rewiring? graph composite name)).filter fun r => !r.isData) =
      (log.filter fun d => !d.isData).filterMap (rewiring? graph composite name) := by
  induction log with
  | nil => rfl
  | cons first rest ih =>
    cases hfirst : rewiring? graph composite name first with
    | none =>
      rw [List.filterMap_cons_none hfirst, ih, List.filter_cons]
      split
      next => rw [List.filterMap_cons_none hfirst]
      next => rfl
    -- A directive and its rewiring are on the same side of the partition
    | some rewiring =>
      have hshape := (shape_of_resolve (rewiring?_eq_some_iff.mp hfirst)).1
      rw [List.filterMap_cons_some hfirst, List.filter_cons, List.filter_cons, hshape, ih]
      split
      next => rw [List.filterMap_cons_some hfirst]
      next => rfl

/-- **Shuffled wirings resolve to the same rewirings** but for the order of those that wire data. -/
theorem shuffled_rewirings {log log' : List Directive} (h : Shuffled isData log log')
    (graph : Graph) (composite : NodeId) (name : String) :
    Shuffled Rewiring.isData (log.filterMap (rewiring? graph composite name))
      (log'.filterMap (rewiring? graph composite name)) where
  mem_loose r _ := by simp only [List.mem_filterMap, h.mem_iff]
  fixed := by rw [filter_rewirings, filter_rewirings, h.fixed]

end Directive

/-! ## Drafts -/

namespace Draft

variable {draft draft' : Draft} {composite : NodeId} {name : String} {log log' : List Directive}

/-- A directive carries its rewiring out. -/
theorem graph_rewire_eq (draft : Draft) (composite : NodeId) (name : String)
    (directive : Directive) : (draft.rewire composite name directive).graph =
      (directive.rewiring? draft.graph composite name).elim draft.graph
        fun rewiring => rewiring.apply draft.graph := by
  unfold rewire Directive.rewiring?
  rcases directive.resolve draft.graph composite name with issues | (_ | rewiring)
  · exact graph_foldl_skip issues draft
  · rfl
  · rfl

theorem mem_issues_rewire {directive : Directive} {issue : Issue} :
    issue ∈ (draft.rewire composite name directive).issues ↔ issue ∈ draft.issues ∨
      issue ∈ Directive.issuesOf (directive.resolve draft.graph composite name) := by
  rw [← Array.mem_toList_iff, toList_issues_rewire, List.mem_append, Array.mem_toList_iff]

theorem closed_rewire (hclosed : draft.graph.Closed) (composite : NodeId) (name : String)
    (directive : Directive) : (draft.rewire composite name directive).graph.Closed :=
  (leads_rewire hclosed composite name directive).closed hclosed

theorem closed_rewireAll (hclosed : draft.graph.Closed) (composite : NodeId) (name : String)
    (log : List Directive) : (draft.rewireAll composite name log).graph.Closed := by
  induction log generalizing draft with
  | nil => exact hclosed
  | cons first rest ih => exact ih (closed_rewire hclosed composite name first)

theorem hasScheme_rewire {scheme : Scheme} (h : draft.graph.HasScheme scheme)
    (hclosed : draft.graph.Closed) (composite : NodeId) (name : String) (directive : Directive) :
    (draft.rewire composite name directive).graph.HasScheme
      (scheme.applyAll (directive.rewiring? draft.graph composite name).toList) := by
  rw [graph_rewire_eq]
  cases hrewiring : directive.rewiring? draft.graph composite name with
  | none => exact h
  | some rewiring =>
    have hresolve := Directive.rewiring?_eq_some_iff.mp hrewiring
    exact h.apply (Directive.issued_of_resolve hclosed hresolve)

/-- **What wirings do to the scheme of a draft**, if they expose no entry. -/
theorem hasScheme_rewireAll {scheme : Scheme} (h : draft.graph.HasScheme scheme)
    (hclosed : draft.graph.Closed)
    (hlog : ∀ directive ∈ log, ∀ role, directive ≠ .exposeEntry role) :
    (draft.rewireAll composite name log).graph.HasScheme
      (scheme.applyAll (log.filterMap (Directive.rewiring? draft.graph composite name))) := by
  induction log generalizing draft scheme with
  | nil => exact h
  | cons first rest ih =>
    have hfirst := hasScheme_rewire h hclosed composite name first
    have hnodes := nodes_rewire_of_ne draft composite name (hlog first List.mem_cons_self)
    have hlater := ih hfirst (closed_rewire hclosed composite name first)
      fun later hlater => hlog later (List.mem_cons_of_mem first hlater)
    -- The later directives see the nodes that the first has left alone
    have hsame : Directive.rewiring? (draft.rewire composite name first).graph composite name =
        Directive.rewiring? draft.graph composite name := by
      funext directive
      unfold Directive.rewiring?
      rw [Directive.resolve_of_nodes_eq hnodes]
    rw [hsame] at hlater
    cases hrewiring : first.rewiring? draft.graph composite name with
    | none =>
      rw [List.filterMap_cons_none hrewiring]
      rw [hrewiring] at hlater
      exact hlater
    | some rewiring =>
      rw [List.filterMap_cons_some hrewiring]
      rw [hrewiring] at hlater
      exact hlater

/-- **What wirings raise**, if they expose no entry. -/
theorem mem_issues_rewireAll {issue : Issue}
    (hlog : ∀ directive ∈ log, ∀ role, directive ≠ .exposeEntry role) :
    issue ∈ (draft.rewireAll composite name log).issues ↔ issue ∈ draft.issues ∨
      ∃ directive ∈ log,
        issue ∈ Directive.issuesOf (directive.resolve draft.graph composite name) := by
  induction log generalizing draft with
  | nil => simp [rewireAll]
  | cons first rest ih =>
    -- An earlier wiring leaves the nodes alone, so the later ones resolve as before
    have hnodes := nodes_rewire_of_ne draft composite name (hlog first List.mem_cons_self)
    have hlater := @ih (draft.rewire composite name first)
      fun later hlater => hlog later (List.mem_cons_of_mem first hlater)
    simp only [Directive.resolve_of_nodes_eq hnodes] at hlater
    refine hlater.trans ?_
    rw [mem_issues_rewire, List.exists_mem_cons_iff, or_assoc]

/-! ### Drafts of one scheme -/

/-- Two drafts whose graphs have one scheme, with all values zero, and that have the same issues, up
to order and repetition. -/
structure Alike (draft draft' : Draft) : Prop where
  scheme : ∃ scheme, scheme.partition.Blank ∧ draft.graph.HasScheme scheme ∧
    draft'.graph.HasScheme scheme
  closed : draft.graph.Closed
  closed' : draft'.graph.Closed
  issues : ∀ issue, issue ∈ draft'.issues ↔ issue ∈ draft.issues

namespace Alike

theorem graph (h : draft.Alike draft') : draft.graph.Alike draft'.graph := by
  obtain ⟨scheme, _, hfirst, hsecond⟩ := h.scheme
  exact ⟨scheme, hfirst, hsecond⟩

theorem resolve (h : draft.Alike draft') (directive : Directive) :
    directive.resolve draft'.graph composite name = directive.resolve draft.graph composite name :=
  Directive.resolve_of_nodes_eq h.graph.nodes composite name directive

/-- A directive is carried out alike in both. -/
theorem rewire (h : draft.Alike draft') (composite : NodeId) (name : String)
    (directive : Directive) :
    (draft.rewire composite name directive).Alike (draft'.rewire composite name directive) := by
  refine ⟨?_, closed_rewire h.closed composite name directive,
    closed_rewire h.closed' composite name directive, fun issue => ?_⟩
  -- The directive means the same rewiring in both graphs, and one scheme becomes another
  · obtain ⟨scheme, hblank, hfirst, hsecond⟩ := h.scheme
    have hsame : directive.rewiring? draft'.graph composite name =
        directive.rewiring? draft.graph composite name := by
      unfold Directive.rewiring?
      rw [h.resolve]
    have hsecond' := hasScheme_rewire hsecond h.closed' composite name directive
    rw [hsame] at hsecond'
    exact ⟨_, Scheme.blank_applyAll hblank _,
      hasScheme_rewire hfirst h.closed composite name directive, hsecond'⟩
  -- It also raises the same issues in both
  · rw [mem_issues_rewire, mem_issues_rewire, h.resolve, h.issues]

/-- The same directives are carried out alike in both. -/
theorem rewireAll (h : draft.Alike draft') (composite : NodeId) (name : String)
    (log : List Directive) :
    (draft.rewireAll composite name log).Alike (draft'.rewireAll composite name log) := by
  induction log generalizing draft draft' with
  | nil => exact h
  | cons first rest ih => exact ih (h.rewire composite name first)

/-- **Shuffled directives are carried out alike**, if they expose no entry. -/
theorem rewireAll_of_shuffled (h : draft.Alike draft') (hshuffled : Shuffled Directive.isData log log')
    (hlog : ∀ directive ∈ log, ∀ role, directive ≠ .exposeEntry role) :
    (draft.rewireAll composite name log).Alike (draft'.rewireAll composite name log') := by
  have hlog' : ∀ directive ∈ log', ∀ role, directive ≠ .exposeEntry role :=
    fun directive hmem => hlog directive ((hshuffled.mem_iff directive).mp hmem)
  refine ⟨?_, closed_rewireAll h.closed composite name log,
    closed_rewireAll h.closed' composite name log', fun issue => ?_⟩
  · obtain ⟨scheme, hblank, hfirst, hsecond⟩ := h.scheme
    have hsame : Directive.rewiring? draft'.graph composite name =
        Directive.rewiring? draft.graph composite name := by
      funext directive
      unfold Directive.rewiring?
      rw [h.resolve]
    have hsecond' : (draft'.rewireAll composite name log').graph.HasScheme _ :=
      hasScheme_rewireAll hsecond h.closed' hlog'
    -- All outlets that are relayed are relayed to the outlet of the composite
    have houter (outer inner : OutletId) (hmem : Rewiring.relay outer inner ∈
        log.filterMap (Directive.rewiring? draft.graph composite name)) :
        (draft.graph.interface? composite).map Interface.outlet = some outer := by
      obtain ⟨directive, _, hrewiring⟩ := List.mem_filterMap.mp hmem
      exact (Directive.shape_of_resolve (Directive.rewiring?_eq_some_iff.mp hrewiring)).2 _ _ rfl
    rw [hsame, Scheme.applyAll_eq_of_shuffled
      (Directive.shuffled_rewirings hshuffled draft.graph composite name) hblank
      fun outer outer' inner hmem hmem' =>
        Option.some.inj ((houter outer' inner hmem').symm.trans (houter outer inner hmem))]
      at hsecond'
    exact ⟨_, Scheme.blank_applyAll hblank _, hasScheme_rewireAll hfirst h.closed hlog, hsecond'⟩
  · rw [mem_issues_rewireAll hlog, mem_issues_rewireAll hlog', h.issues]
    simp only [h.resolve, hshuffled.mem_iff]

end Alike

end Draft

end TokenNet
