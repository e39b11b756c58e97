import TokenNet.Network
import TokenNet.Proofs.Sketch.Graph

/-!
# Builds of sketches

A build of a sketch follows the build of a graph step by step.  It is meant for blueprints that
carry no issues, and it keeps no record of what was reported: a directive that cannot be carried
out has no result.

## Main statements

- `Sketch.resolve_graph`: directives come to the same rewirings.
- `Sketch.grow_graph`: a build of a sketch is a build of the graph that it stands for.
- `Library.instantiate_of_sketch`: so a network can be built by evaluating its sketch.
-/

namespace TokenNet

namespace Sketch

/-! ## Single directives -/

def part? (sketch : Sketch) (composite : NodeId) (role : String) : Option NodeId :=
  (sketch.nodes.get? composite.index).bind fun node => node.part? role

def inletsOf (sketch : Sketch) (node : NodeId) : List InletId :=
  ((sketch.interface? node).map Interface.inlets).getD []

def exitsOf (sketch : Sketch) (node : NodeId) : List ExitId :=
  ((sketch.interface? node).map Interface.exits).getD []

def joinEntriesOf (sketch : Sketch) (composite : NodeId) : List EntryId :=
  (((sketch.interface? composite).map Interface.joins).getD []).filterMap sketch.entryOf?

/-- What a directive amounts to, if it raises no issue. -/
def resolve (sketch : Sketch) (composite : NodeId) : Directive → Option Rewiring
  | .part .. => none
  | .dataFlow source target index => do
    let giver ← sketch.part? composite source
    let taker ← sketch.part? composite target
    let inlet ← (sketch.inletsOf taker)[index]?
    let ports ← sketch.interface? giver
    return .connect inlet ports.outlet
  | .controlFlow source index target => do
    let giver ← sketch.part? composite source
    let taker ← sketch.part? composite target
    let exit ← (sketch.exitsOf giver)[index]?
    let entry ← sketch.entryOf? taker
    return .direct exit entry
  | .exposeInlet role index external => do
    let node ← sketch.part? composite role
    let inner ← (sketch.inletsOf node)[index]?
    let outer ← (sketch.inletsOf composite)[external]?
    return .feed outer inner
  | .exposeOutlet role => do
    let node ← sketch.part? composite role
    let outer ← sketch.interface? composite
    let inner ← sketch.interface? node
    return .relay outer.outlet inner.outlet
  | .exposeExit role index external => do
    let node ← sketch.part? composite role
    let exit ← (sketch.exitsOf node)[index]?
    let entry ← (sketch.joinEntriesOf composite)[external]?
    return .direct exit entry
  | .exposeEntry role => do
    let node ← sketch.part? composite role
    let entry ← sketch.entryOf? node
    return .enter composite entry

/-- Carries a rewiring out. -/
def apply (sketch : Sketch) : Rewiring → Sketch
  | .connect inlet outlet => sketch.connect inlet outlet
  | .direct exit entry => sketch.setTarget exit (some entry)
  | .feed outer inner => sketch.feed outer inner
  | .relay outer inner => sketch.relay outer inner
  | .enter composite entry => sketch.setEntry composite entry

variable (sketch : Sketch)

@[simp] theorem graph_part? (composite : NodeId) (role : String) :
    sketch.graph.part? composite role = sketch.part? composite role := by
  simp [Graph.part?, part?]

theorem inletsOf_graph (node : NodeId) :
    Directive.inletsOf sketch.graph node = sketch.inletsOf node := by
  simp [Directive.inletsOf, inletsOf]

theorem exitsOf_graph (node : NodeId) :
    Directive.exitsOf sketch.graph node = sketch.exitsOf node := by
  simp [Directive.exitsOf, exitsOf]

theorem joinEntriesOf_graph (composite : NodeId) :
    Directive.joinEntriesOf sketch.graph composite = sketch.joinEntriesOf composite := by
  simp [Directive.joinEntriesOf, joinEntriesOf]

/-- **Directives come to the same rewirings.** -/
theorem resolve_graph {composite : NodeId} {directive : Directive} {rewiring : Rewiring}
    (h : sketch.resolve composite directive = some rewiring) (name : String) :
    directive.resolve sketch.graph composite name = .ok (some rewiring) := by
  cases directive with
  | part => cases h
  -- Each case: what the sketch has found, the graph of the sketch has
  | dataFlow source target index =>
    simp only [resolve, Option.bind_eq_bind, Option.bind_eq_some_iff] at h
    obtain ⟨giver, hgiver, taker, htaker, inlet, hinlet, ports, hports, hrewiring⟩ := h
    obtain rfl := Option.some.inj hrewiring
    simp [Directive.resolve, Directive.both, Directive.findPart, Directive.findPort,
      inletsOf_graph, hgiver, htaker, hinlet, hports, bind, Except.bind, pure,
      Except.pure]
  | controlFlow source index target =>
    simp only [resolve, Option.bind_eq_bind, Option.bind_eq_some_iff] at h
    obtain ⟨giver, hgiver, taker, htaker, exit, hexit, entry, hentry, hrewiring⟩ := h
    obtain rfl := Option.some.inj hrewiring
    simp [Directive.resolve, Directive.both, Directive.findPart, Directive.findPort,
      Directive.findEntry, exitsOf_graph, hgiver, htaker, hexit, hentry, bind, Except.bind, pure,
      Except.pure]
  | exposeInlet role index external =>
    simp only [resolve, Option.bind_eq_bind, Option.bind_eq_some_iff] at h
    obtain ⟨node, hnode, inner, hinner, outer, houter, hrewiring⟩ := h
    obtain rfl := Option.some.inj hrewiring
    simp [Directive.resolve, Directive.findPart, Directive.findPort, inletsOf_graph, hnode,
      hinner, houter, bind, Except.bind, pure,
      Except.pure]
  | exposeOutlet role =>
    simp only [resolve, Option.bind_eq_bind, Option.bind_eq_some_iff] at h
    obtain ⟨node, hnode, outer, houter, inner, hinner, hrewiring⟩ := h
    obtain rfl := Option.some.inj hrewiring
    simp [Directive.resolve, Directive.findPart, hnode, houter, hinner, bind, Except.bind, pure,
      Except.pure]
  -- The joins are looked up through the interface of the composite
  | exposeExit role index external =>
    simp only [resolve, Option.bind_eq_bind, Option.bind_eq_some_iff] at h
    obtain ⟨node, hnode, exit, hexit, entry, hentry, hrewiring⟩ := h
    obtain rfl := Option.some.inj hrewiring
    simp [Directive.resolve, Directive.findPart, Directive.findPort, exitsOf_graph,
      joinEntriesOf_graph, hnode, hexit, hentry, bind, Except.bind, pure,
      Except.pure]
  | exposeEntry role =>
    simp only [resolve, Option.bind_eq_bind, Option.bind_eq_some_iff] at h
    obtain ⟨node, hnode, entry, hentry, hrewiring⟩ := h
    obtain rfl := Option.some.inj hrewiring
    simp [Directive.resolve, Directive.findPart, Directive.findEntry, hnode, hentry, bind,
      Except.bind, pure, Except.pure]

@[simp] theorem graph_apply (rewiring : Rewiring) :
    (sketch.apply rewiring).graph = rewiring.apply sketch.graph := by
  cases rewiring <;> simp [apply, Rewiring.apply]

/-! ## Whole builds -/

/-- How the parts of a composite are made. -/
abbrev Grow := Specification → Sketch → Option (NodeId × Sketch)

/-- Carries a directive out; parts are made by the given function. -/
def replay (library : Library) (grow : Grow) (composite : NodeId) (sketch : Sketch) :
    Directive → Option Sketch
  | .part specification role =>
    match library.get? specification with
    | none => none
    | some spec =>
      if spec.implementations.isEmpty then none
      else (grow spec sketch).map fun (part, sketch) => sketch.adopt composite role part
  | directive => (sketch.resolve composite directive).map sketch.apply

/-- Carries the directives of a log out in the given order. -/
def replayAll (library : Library) (grow : Grow) (composite : NodeId) :
    List Directive → Sketch → Option Sketch
  | [], sketch => some sketch
  | directive :: rest, sketch =>
    match replay library grow composite sketch directive with
    | none => none
    | some sketch => replayAll library grow composite rest sketch

/-- Adds an untraced node of a specification with everything below it, in its first
implementation. -/
def grow (library : Library) : Nat → Grow
  | 0, _, _ => none
  | levels + 1, spec, sketch =>
    match spec.implementations with
    | [] => none
    | .native primitive :: _ => some (sketch.addNative primitive spec.identifier false)
    | .blueprint blueprint :: _ =>
      let (node, sketch) :=
        sketch.addComposite spec.identifier spec.inletCount spec.exitCount false
      (replayAll library (grow library levels) node
        (Directive.replayOrder blueprint.directives) sketch).map fun sketch => (node, sketch)

/-- A way of making parts of sketches follows one of making parts of drafts. -/
def Follows (growSketch : Grow) (growDraft : Draft.Grow) : Prop :=
  ∀ ⦃spec : Specification⦄ ⦃sketch sketch' : Sketch⦄ ⦃draft : Draft⦄ ⦃node : NodeId⦄,
    draft.graph = sketch.graph → growSketch spec sketch = some (node, sketch') →
    ∃ draft', growDraft spec draft = .ok (node, draft') ∧ draft'.graph = sketch'.graph

variable {library : Library} {growSketch : Grow} {growDraft : Draft.Grow}
variable {sketch' : Sketch} {draft : Draft}

theorem replay_graph (h : Follows growSketch growDraft) {sketch : Sketch}
    (hdraft : draft.graph = sketch.graph) {composite : NodeId} {directive : Directive}
    (hreplay : replay library growSketch composite sketch directive = some sketch')
    (name : String) : ∃ draft', draft'.graph = sketch'.graph ∧
      Draft.replay library growDraft composite name draft directive = .ok draft' := by
  cases directive with
  | part specification role =>
    unfold replay at hreplay
    unfold Draft.replay
    cases hspec : library.get? specification with
    | none => simp [hspec] at hreplay
    | some spec =>
      simp only [hspec] at hreplay ⊢
      split at hreplay
      next => cases hreplay
      next hsome =>
        obtain ⟨⟨part, grown⟩, hgrow, rfl⟩ := Option.map_eq_some_iff.mp hreplay
        obtain ⟨draft', hgrow', hgraph⟩ := h hdraft hgrow
        refine ⟨draft'.adopt composite name role part, ?_, by simp [hsome, hgrow']⟩
        unfold Draft.adopt Draft.skip
        dsimp only
        split <;> simp [hgraph]
  -- Every other directive comes to a rewiring, and that is carried out on both sides
  | _ =>
    obtain ⟨rewiring, hrewiring, rfl⟩ := Option.map_eq_some_iff.mp hreplay
    refine ⟨_, ?_, rfl⟩
    unfold Draft.rewire
    rw [hdraft, resolve_graph sketch hrewiring name]
    exact (graph_apply sketch rewiring).symm

theorem replayAll_graph (h : Follows growSketch growDraft) (composite : NodeId) (name : String)
    (log : List Directive) : ∀ {sketch : Sketch} {draft : Draft}, draft.graph = sketch.graph →
      replayAll library growSketch composite log sketch = some sketch' →
      ∃ draft', draft'.graph = sketch'.graph ∧
        Draft.replayAll library growDraft composite name log draft = .ok draft' := by
  induction log with
  | nil =>
    intro sketch draft hdraft hreplay
    obtain rfl := Option.some.inj hreplay
    exact ⟨draft, hdraft, rfl⟩
  -- The first directive and the rest, in the graph that it has drawn
  | cons directive rest ih =>
    intro sketch draft hdraft hreplay
    unfold replayAll at hreplay
    split at hreplay
    next => cases hreplay
    next middle hfirst =>
      obtain ⟨draft', hdraft', hfirst'⟩ := replay_graph h hdraft hfirst name
      obtain ⟨later, hlater, hrest⟩ := ih hdraft' hreplay
      refine ⟨later, hlater, ?_⟩
      unfold Draft.replayAll
      rw [hfirst']
      exact hrest

/-- **A build of a sketch is a build of the graph that it stands for.** -/
theorem follows_grow (library : Library) (limit : Nat) : ∀ levels : Nat,
    Follows (grow library levels) fun spec draft =>
      Draft.grow library false limit levels spec 0 draft
  | 0, _, _, _, _, _, _, hgrow => by cases hgrow
  | levels + 1, spec, sketch, sketch', draft, node, hdraft, hgrow => by
    unfold grow at hgrow
    unfold Draft.grow Specification.implementation
    cases himplementations : spec.implementations with
    | nil => simp [himplementations] at hgrow
    | cons first rest =>
      simp only [himplementations, List.getElem?_cons_zero] at hgrow ⊢
      cases first with
      | native primitive =>
        have hgrown := graph_addNative sketch primitive spec.identifier false
        rw [Option.some.inj hgrow] at hgrown
        exact ⟨{ draft with graph := sketch'.graph }, by simp only [hdraft, hgrown], rfl⟩
      | blueprint blueprint =>
        obtain ⟨last, hreplay, hlast⟩ := Option.map_eq_some_iff.mp hgrow
        obtain ⟨rfl, rfl⟩ := Prod.mk.inj hlast
        -- The frame of the composite is made first, and the parts are grown with one level less
        have hgrown := graph_addComposite sketch spec.identifier spec.inletCount spec.exitCount false
        rw [hdraft, hgrown]
        have hparts := follows_grow library limit levels
        generalize sketch.addComposite spec.identifier spec.inletCount spec.exitCount false =
          framed at hreplay ⊢
        obtain ⟨draft', hdraft', hreplay'⟩ := replayAll_graph hparts framed.1 spec.identifier _
          (show { draft with graph := framed.2.graph }.graph = framed.2.graph from rfl) hreplay
        exact ⟨draft', by simp only [hreplay'], hdraft'⟩

end Sketch

namespace Library

/-- The sketch of a build, under the default limit on nesting. -/
def sketch? (library : Library) (identifier : String) : Option (NodeId × Sketch) :=
  (library.get? identifier).bind fun spec =>
    Sketch.grow library (({} : Limits).nestingLimit + 1) spec {}

/-- **A network is built by evaluating its sketch.** -/
theorem instantiate_of_sketch? {library : Library} {identifier : String} {root : NodeId}
    {sketch : Sketch} (h : library.sketch? identifier = some (root, sketch)) :
    ∃ net, library.instantiate identifier {} = .ok net ∧ net.root = root ∧
      net.graph = sketch.graph := by
  obtain ⟨spec, hspec, hgrow⟩ := Option.bind_eq_some_iff.mp h
  have hempty : ({} : Draft).graph = ({} : Sketch).graph := rfl
  obtain ⟨draft, hdraft, hgraph⟩ :=
    Sketch.follows_grow library ({} : Limits).nestingLimit _ hempty hgrow
  unfold instantiate build find
  simp only [hspec, hdraft]
  exact ⟨_, rfl, rfl, hgraph⟩

end Library

end TokenNet
