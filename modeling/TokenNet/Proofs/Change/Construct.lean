import TokenNet.Proofs.Blueprint.Course
import TokenNet.Proofs.Graph.Lineage

/-!
# How builds construct a graph

A build is a sequence of changes of which more is known than that their handles are issued: each
concerns one composite that is still under construction.  Its parts take their places under it, what
is wired are ports of its parts, and what is exposed are ports of its parts through ports of its
own.  A property of built graphs is proved by looking at each kind of step once.

## Main statements

- `Construct`: the kinds of steps.
- `Construct.lineage`: every step keeps the tree of nodes.
- `Directive.works_of_resolve`: a directive resolves to such a step.
- `Draft.Course.built`, `Library.built_of_instantiate`: a build is a sequence of such steps that
  begins with the empty graph.
-/

namespace TokenNet

namespace Graph

/-! ## Steps -/

/-- A composite under construction: it has no place yet. -/
structure Pending (graph : Graph) (node : NodeId) : Prop where
  isComposite : graph.IsComposite node
  loose : graph.parentOf? node = none

/-- One step of a build. -/
inductive Construct : Graph → Graph → Prop where
  /-- A native node is added. -/
  | native (graph : Graph) (primitive : Primitive) (specification : String) (traced : Bool) :
      Construct graph (graph.addNative primitive specification traced).2
  /-- A composite is added. -/
  | composite (graph : Graph) (specification : String) (inletCount exitCount : Nat)
      (traced : Bool) :
      Construct graph (graph.addComposite specification inletCount exitCount traced).2
  /-- A part that has no place yet takes its place under a composite made before it. -/
  | adopt (graph : Graph) {composite part : NodeId} (role : String)
      (hpending : graph.Pending composite) (hlater : composite.index < part.index)
      (hpart : graph.Hosts part) (hloose : graph.parentOf? part = none) :
      Construct graph (graph.adopt composite role part)
  /-- The outlet of one part is wired into an inlet of another. -/
  | connect (graph : Graph) {composite giver taker : NodeId} {inlet : InletId} {outlet : OutletId}
      (hpending : graph.Pending composite) (hgiver : graph.parentOf? giver = some composite)
      (htaker : graph.parentOf? taker = some composite)
      (hinlet : graph.inletOwner? inlet = some taker)
      (houtlet : graph.outletOwner? outlet = some giver) :
      Construct graph (graph.connect inlet outlet)
  /-- An inlet of a composite feeds an inlet of a part. -/
  | feed (graph : Graph) {composite part : NodeId} {outer inner : InletId}
      (hpending : graph.Pending composite) (hpart : graph.parentOf? part = some composite)
      (houter : graph.inletOwner? outer = some composite)
      (hinner : graph.inletOwner? inner = some part) : Construct graph (graph.feed outer inner)
  /-- The outlet of a part is relayed to the outlet of its composite. -/
  | relay (graph : Graph) {composite part : NodeId} {outer inner : OutletId}
      (hpending : graph.Pending composite) (hpart : graph.parentOf? part = some composite)
      (houter : graph.outletOwner? outer = some composite)
      (hinner : graph.outletOwner? inner = some part) : Construct graph (graph.relay outer inner)
  /-- An exit of a part hands the token to another part, or to a join of the composite. -/
  | direct (graph : Graph) {composite giver taker : NodeId} {exit : ExitId} {entry : EntryId}
      (hpending : graph.Pending composite) (hgiver : graph.parentOf? giver = some composite)
      (htaker : graph.parentOf? taker = some composite)
      (hexit : graph.exitOwner? exit = some giver) (hentry : graph.entryOf? taker = some entry) :
      Construct graph (graph.setTarget exit (some entry))
  /-- A composite exposes the entry of a part. -/
  | enter (graph : Graph) {composite part : NodeId} {entry : EntryId}
      (hpending : graph.Pending composite) (hpart : graph.parentOf? part = some composite)
      (hentry : graph.entryOf? part = some entry) :
      Construct graph (graph.setEntry composite entry)

/-- A sequence of steps of a build. -/
abbrev Constructs : Graph → Graph → Prop :=
  Relation.ReflTransGen Construct

namespace Construct

variable {graph graph' : Graph}

/-- **Every step of a build keeps the tree of nodes.** -/
theorem lineage (h : Construct graph graph') (hlineage : graph.Lineage) : graph'.Lineage := by
  cases h with
  | native primitive specification traced =>
    exact hlineage.raises (graph.raises_addNative specification traced primitive)
  | composite specification inletCount exitCount traced =>
    exact hlineage.raises (graph.raises_addComposite specification traced inletCount exitCount)
  | adopt role hpending hlater hpart hloose =>
    exact hlineage.adopt hpending.isComposite hlater hpart hloose role
  | connect => exact hlineage.of_sameTree (.connect graph _ _)
  | feed => exact hlineage.of_sameTree (.feed graph _ _)
  | relay => exact hlineage.of_sameTree (.relay graph _ _)
  | direct => exact hlineage.of_sameTree (.setTarget graph _ _)
  | enter hpending hpart hentry => exact hlineage.setEntry hpending.isComposite _

/-- What a step does to the tree of nodes: there is a new node, a node without a parent takes its
place, a node without a parent exposes an entry, or the tree stays as it is. -/
theorem shape (h : Construct graph graph') :
    (∃ record ports, Raises graph graph' record ports) ∨
      (∃ composite role part, graph.parentOf? part = none ∧
        graph' = graph.adopt composite role part) ∨
      (∃ composite entry, graph.parentOf? composite = none ∧
        graph' = graph.setEntry composite entry) ∨
      graph.SameTree graph' := by
  cases h with
  | native primitive specification traced =>
    exact Or.inl ⟨_, _, graph.raises_addNative specification traced primitive⟩
  | composite specification inletCount exitCount traced =>
    exact Or.inl ⟨_, _, graph.raises_addComposite specification traced inletCount exitCount⟩
  -- From here on no node is added, and the wirings leave the tree as it is
  | adopt role _ _ _ hloose => exact Or.inr (Or.inl ⟨_, role, _, hloose, rfl⟩)
  | enter hpending => exact Or.inr (Or.inr (Or.inl ⟨_, _, hpending.loose, rfl⟩))
  | connect => exact Or.inr (Or.inr (Or.inr (.connect graph _ _)))
  | feed => exact Or.inr (Or.inr (Or.inr (.feed graph _ _)))
  | relay => exact Or.inr (Or.inr (Or.inr (.relay graph _ _)))
  | direct => exact Or.inr (Or.inr (Or.inr (.setTarget graph _ _)))

/-- A step of a build is a change with issued handles. -/
theorem change (h : Construct graph graph') (hclosed : graph.Closed) : graph.Change graph' := by
  -- The handles named are owned, hence known, which is all that a change asks for
  cases h with
  | native primitive specification traced => exact .native graph primitive specification traced
  | composite specification inletCount exitCount traced =>
    exact .composite graph specification inletCount exitCount traced
  | adopt role _ _ hpart => exact .adopt graph _ role hpart
  | connect _ _ _ hinlet houtlet =>
    exact .connect graph (hasPort_of_inletOwner? hinlet) (hasPort_of_outletOwner? houtlet)
  | feed _ _ _ hinner => exact .feed graph _ (hasPort_of_inletOwner? hinner)
  | relay _ _ houter => exact .relay graph _ (hasPort_of_outletOwner? houter)
  | direct _ _ _ _ hentry =>
    refine .target graph _ fun other hother => ?_
    obtain rfl := Option.some.inj hother
    exact hclosed.hasEntry_of_entryOf? hentry
  | enter _ _ hentry => exact .entry graph _ (hclosed.hasEntry_of_entryOf? hentry)

end Construct

theorem Constructs.lineage {graph graph' : Graph} (h : Constructs graph graph')
    (hlineage : graph.Lineage) : graph'.Lineage := by
  induction h with
  | refl => exact hlineage
  | tail _ hstep ih => exact hstep.lineage ih

/-! ## Composites under construction -/

namespace Pending

variable {graph graph' : Graph} {composite : NodeId}

theorem lt_size (h : graph.Pending composite) : composite.index < graph.nodes.size := by
  obtain ⟨record, hrecord, _⟩ := h.isComposite
  exact (Array.getElem?_eq_some_iff.mp hrecord).1

theorem of_node?_eq (h : graph.Pending composite)
    (hsame : graph'.node? composite = graph.node? composite) : graph'.Pending composite := by
  obtain ⟨⟨record, hrecord, hacts⟩, hloose⟩ := h
  refine ⟨⟨record, hsame.trans hrecord, hacts⟩, ?_⟩
  unfold parentOf?
  rw [hsame]
  exact hloose

end Pending

/-- A sequence of steps that goes on with a composite under construction: the nodes before it stay
as they are, and it has no place afterwards either. -/
structure Works (composite : NodeId) (graph graph' : Graph) : Prop where
  constructs : graph.Constructs graph'
  retains : Retains composite.index graph graph'
  pending : graph'.Pending composite

namespace Works

variable {graph graph' graph'' : Graph} {composite : NodeId}

theorem refl (h : graph.Pending composite) : Works composite graph graph :=
  ⟨.refl, .refl _ graph, h⟩

theorem trans (h : Works composite graph graph') (h' : Works composite graph' graph'') :
    Works composite graph graph'' :=
  ⟨h.constructs.trans h'.constructs, h.retains.trans h'.retains, h'.pending⟩

/-- A step that leaves the tree as it is. -/
theorem of_sameTree (h : graph.Pending composite) (hstep : graph.Construct graph')
    (hsame : graph.SameTree graph') : Works composite graph graph' where
  constructs := .single hstep
  retains := .of_nodes_eq hsame.nodes
  pending := h.of_node?_eq (congrFun hsame.node? composite)

theorem enter (h : graph.Pending composite) {part : NodeId} {entry : EntryId}
    (hpart : graph.parentOf? part = some composite) (hentry : graph.entryOf? part = some entry) :
    Works composite graph (graph.setEntry composite entry) where
  constructs := .single (.enter graph h hpart hentry)
  retains := .setEntry (Nat.le_refl _) entry
  pending := by
    refine ⟨(Extends.modifyInterface graph composite _).isComposite h.isComposite, ?_⟩
    rw [parentOf?_setEntry]
    exact h.loose

theorem adopt (h : graph.Pending composite) {part : NodeId} (hlater : composite.index < part.index)
    (hpart : graph.Hosts part) (hloose : graph.parentOf? part = none) (role : String) :
    Works composite graph (graph.adopt composite role part) where
  constructs := .single (.adopt graph role h hlater hpart hloose)
  retains := .adopt (Nat.le_refl _) (Nat.le_of_lt hlater) role
  pending := by
    have hne : composite ≠ part := by
      rintro rfl
      exact Nat.lt_irrefl _ hlater
    refine ⟨(Extends.adopt graph composite part role).isComposite h.isComposite, ?_⟩
    rw [parentOf?_adopt_eq, if_neg hne]
    exact h.loose

end Works

end Graph

/-! ## Directives -/

/-- **A directive of a composite under construction resolves to a step of the build.** -/
theorem Directive.works_of_resolve {graph : Graph} (hlineage : graph.Lineage)
    {composite : NodeId} {name : String} (hpending : graph.Pending composite)
    {directive : Directive} {rewiring : Rewiring}
    (h : directive.resolve graph composite name = .ok (some rewiring)) :
    Graph.Works composite graph (rewiring.apply graph) := by
  -- Whatever is found under a role stands under the composite
  have hplace {role : String} {node : NodeId} (h : findPart graph composite name role = .ok node) :
      graph.parentOf? node = some composite :=
    hlineage.part (part?_of_findPart h)
  cases directive with
  | part => cases h
  -- Each case reads off what has been looked up, and the interfaces it belongs to
  | dataFlow source target index =>
    obtain ⟨⟨giver, taker⟩, hboth, h⟩ := Except.bind_eq_ok_iff.mp h
    obtain ⟨inlet, hinlet, h⟩ := Except.bind_eq_ok_iff.mp h
    obtain ⟨ports, hports, rfl⟩ := Option.map_eq_some_iff.mp (Except.ok.inj h)
    obtain ⟨hgiver, htaker⟩ := both_eq_ok.mp hboth
    obtain ⟨taken, htaken, hmem⟩ := interface?_of_mem_inletsOf (mem_of_findPort hinlet)
    exact .of_sameTree hpending (.connect graph hpending (hplace hgiver) (hplace htaker)
      (hlineage.inlet htaken hmem) (hlineage.outlet hports)) (.connect graph _ _)
  | controlFlow source index target =>
    obtain ⟨⟨giver, taker⟩, hboth, h⟩ := Except.bind_eq_ok_iff.mp h
    obtain ⟨exit, hexit, h⟩ := Except.bind_eq_ok_iff.mp h
    obtain ⟨entry, hentry, h⟩ := Except.bind_eq_ok_iff.mp h
    obtain rfl := Option.some.inj (Except.ok.inj h)
    obtain ⟨hgiver, htaker⟩ := both_eq_ok.mp hboth
    obtain ⟨ports, hports, hmem⟩ := interface?_of_mem_exitsOf (mem_of_findPort hexit)
    exact .of_sameTree hpending (.direct graph hpending (hplace hgiver) (hplace htaker)
      (hlineage.exit hports hmem) (entryOf?_of_findEntry hentry)) (.setTarget graph _ _)
  | exposeInlet role index external =>
    obtain ⟨node, hnode, h⟩ := Except.bind_eq_ok_iff.mp h
    obtain ⟨inner, hinner, h⟩ := Except.bind_eq_ok_iff.mp h
    obtain ⟨outer, houter, h⟩ := Except.bind_eq_ok_iff.mp h
    obtain rfl := Option.some.inj (Except.ok.inj h)
    obtain ⟨ports, hports, hmem⟩ := interface?_of_mem_inletsOf (mem_of_findPort hinner)
    obtain ⟨frame, hframe, hmem'⟩ := interface?_of_mem_inletsOf (mem_of_findPort houter)
    exact .of_sameTree hpending (.feed graph hpending (hplace hnode)
      (hlineage.inlet hframe hmem') (hlineage.inlet hports hmem)) (.feed graph _ _)
  -- The composite itself relays, so its own output is the outer one
  | exposeOutlet role =>
    obtain ⟨node, hnode, h⟩ := Except.bind_eq_ok_iff.mp h
    obtain ⟨outer, houter, h⟩ := Option.bind_eq_some_iff.mp (Except.ok.inj h)
    obtain ⟨inner, hinner, h⟩ := Option.bind_eq_some_iff.mp h
    obtain rfl := Option.some.inj h
    exact .of_sameTree hpending (.relay graph hpending (hplace hnode) (hlineage.outlet houter)
      (hlineage.outlet hinner)) (.relay graph _ _)
  | exposeExit role index external =>
    obtain ⟨node, hnode, h⟩ := Except.bind_eq_ok_iff.mp h
    obtain ⟨exit, hexit, h⟩ := Except.bind_eq_ok_iff.mp h
    obtain ⟨entry, hentry, h⟩ := Except.bind_eq_ok_iff.mp h
    obtain rfl := Option.some.inj (Except.ok.inj h)
    obtain ⟨ports, hports, hmem⟩ := interface?_of_mem_exitsOf (mem_of_findPort hexit)
    obtain ⟨frame, join, hframe, hjoin, hsome⟩ :=
      interface?_of_mem_joinEntriesOf (mem_of_findPort hentry)
    exact .of_sameTree hpending (.direct graph hpending (hplace hnode) (hlineage.joined hframe hjoin)
      (hlineage.exit hports hmem) hsome) (.setTarget graph _ _)
  -- Only an exposed entry changes the tree, and it needs the composite pending
  | exposeEntry role =>
    obtain ⟨node, hnode, h⟩ := Except.bind_eq_ok_iff.mp h
    obtain ⟨entry, hentry, h⟩ := Except.bind_eq_ok_iff.mp h
    obtain rfl := Option.some.inj (Except.ok.inj h)
    exact .enter hpending (hplace hnode) (entryOf?_of_findEntry hentry)

/-! ## Drafts -/

namespace Draft

/-- Growing a node constructs it behind all others, and it has no place yet. -/
structure Built (graph : Graph) (node : NodeId) (graph' : Graph) : Prop where
  constructs : graph.Constructs graph'
  place : node = ⟨graph.nodes.size⟩
  retains : Graph.Retains graph.nodes.size graph graph'
  hosts : graph'.Hosts node
  loose : graph'.parentOf? node = none

theorem Built.works {graph graph' : Graph} {node composite : NodeId} (h : Built graph node graph')
    (hpending : graph.Pending composite) : Graph.Works composite graph graph' where
  constructs := h.constructs
  retains := h.retains.mono (Nat.le_of_lt hpending.lt_size)
  pending := hpending.of_node?_eq (h.retains composite hpending.lt_size)

/-- Carrying out a directive that wires goes on with the composite. -/
theorem works_rewire {draft : Draft} {composite : NodeId} (hlineage : draft.graph.Lineage)
    (hpending : draft.graph.Pending composite) (name : String) (directive : Directive) :
    Graph.Works composite draft.graph (draft.rewire composite name directive).graph := by
  unfold rewire
  split
  next => rw [graph_foldl_skip]; exact .refl hpending
  next => exact .refl hpending
  next rewiring hresolve => exact Directive.works_of_resolve hlineage hpending hresolve

/-- A new node stands under nothing. -/
theorem Built.of_raises {graph graph' : Graph} {record : Node} {ports : Interface}
    (hstep : graph.Construct graph') (h : graph.Raises graph' record ports) :
    Built graph ⟨graph.nodes.size⟩ graph' where
  constructs := .single hstep
  place := rfl
  retains := h.retains
  hosts := by
    refine ⟨record, h.node, ?_⟩
    have hinterface := h.interface
    -- Only composites and primitives have an interface, and both may host
    obtain ⟨_, _, _, _, kind⟩ := record
    cases kind with
    | join => cases hinterface
    | _ => rfl
  loose := by
    unfold Graph.parentOf?
    rw [h.node]
    exact h.parent

/-- Going on with a composite that was constructed. -/
theorem Built.of_works {graph graph' graph'' : Graph} {composite : NodeId}
    (h : Built graph composite graph') (hworks : Graph.Works composite graph' graph'') :
    Built graph composite graph'' where
  constructs := h.constructs.trans hworks.constructs
  place := h.place
  retains := by
    have hretains := hworks.retains
    rw [h.place] at hretains
    exact h.retains.trans hretains
  hosts := hworks.pending.isComposite.hosts
  loose := hworks.pending.loose

variable {library : Library} {traced : Bool} {levels : Nat} {start now : Draft} {node : NodeId}
  {framed : Bool}

/-- **Growing a node constructs it**, by induction on the course of the build. -/
theorem Course.built (h : Course library traced levels start node now framed)
    (hlineage : start.graph.Lineage) : Built start.graph node now.graph ∧
      (framed = true → now.graph.IsComposite node) := by
  induction h with
  | @native _ start _ spec _ primitive =>
    exact ⟨.of_raises (.native start.graph primitive spec.identifier traced)
      (start.graph.raises_addNative spec.identifier traced primitive), nofun⟩
  | @frame _ start _ spec =>
    have hraises := start.graph.raises_addComposite spec.identifier traced spec.inletCount
      spec.exitCount
    exact ⟨.of_raises (.composite start.graph spec.identifier spec.inletCount spec.exitCount traced)
      hraises, fun _ => ⟨_, hraises.node, rfl⟩⟩
  | rewire _ name directive ih =>
    obtain ⟨hbuilt, hframed⟩ := ih hlineage
    have hworks := works_rewire (hbuilt.constructs.lineage hlineage) ⟨hframed rfl, hbuilt.loose⟩
      name directive
    exact ⟨hbuilt.of_works hworks, fun _ => hworks.pending.isComposite⟩
  | skip _ _ ih =>
    rw [graph_foldl_skip]
    exact ih hlineage
  | adopt _ _ name role ih ihpart =>
    obtain ⟨hbuilt, hframed⟩ := ih hlineage
    have hpending : Graph.Pending _ _ := ⟨hframed rfl, hbuilt.loose⟩
    obtain ⟨hgrown, _⟩ := ihpart (hbuilt.constructs.lineage hlineage)
    have hworks := hgrown.works hpending
    -- The part stands behind its composite, which is what adopting asks for
    have hlater := hpending.lt_size
    rw [graph_adopt]
    have hadopts := hworks.trans
      (.adopt hworks.pending (hgrown.place ▸ hlater) hgrown.hosts hgrown.loose role)
    exact ⟨hbuilt.of_works hadopts, fun _ => hadopts.pending.isComposite⟩

end Draft

/-- **A build is a sequence of steps** that begins with the empty graph and leaves a root under
nothing. -/
theorem Library.built_of_instantiate {library : Library} {identifier : String}
    {options : BuildOptions} {built : Network}
    (h : library.instantiate identifier options = .ok built) :
    Draft.Built {} built.root built.graph := by
  obtain ⟨draft, framed, hcourse, hgraph, _⟩ := Draft.exists_course_of_instantiate h
  rw [hgraph]
  exact (hcourse.built .empty).1

end TokenNet
