import TokenNet.Proofs.Change.Call
import TokenNet.Proofs.Change.Options
import TokenNet.Proofs.Chart.Network

/-!
# Charts of a library

Whether a graph has a chart can be computed, so a chart is checked against one build of a
specification.  This settles all builds of it: the marks of tracing do not show in a chart, and the
limit on nesting only decides whether there is a build.

## Main statements

- `Graph.charted_untraced`: charts do not show the marks of tracing.
- `Library.charted_of_follows`: a chart that fits one build fits every build.
- `Chart.Works.answered_of_follows`: so every run of a built network is answered as the rows say.
-/

namespace TokenNet

/-! ## Deciding -/

namespace Graph

instance (graph : Graph) : Decidable graph.Tight :=
  decidable_of_iff
    ((∀ record ∈ graph.inlets.toList, ∀ inner ∈ record.feeds, (graph.inletCell? inner).isSome) ∧
      ∀ record ∈ graph.outlets.toList, ∀ outer ∈ record.relay, (graph.outletCell? outer).isSome)
    ⟨fun h => ⟨h.1, h.2⟩, fun h => ⟨h.fed, h.relayed⟩⟩

instance (graph : Graph) : Decidable graph.Blank :=
  inferInstanceAs (Decidable (∀ slot ∈ graph.cells.slots.toList, ∀ cell ∈ slot.content, _))

instance (graph : Graph) (ports : Interface) (chart : Chart) :
    Decidable (graph.Charted ports chart) :=
  decidable_of_iff
    (graph.Tight ∧ graph.Blank ∧ ports.entry = some ⟨chart.start⟩ ∧
      ports.exits = (List.range chart.exits).map ExitId.mk ∧
      graph.outletWired ports.outlet = chart.gives ∧ (graph.outletCell? ports.outlet).isSome ∧
      (∀ inlet ∈ ports.inlets, inlet.index < graph.inlets.size ∧ graph.inletCell? inlet = none) ∧
      ports.inlets.map graph.inputSlots = chart.inputs ∧
      ∀ row ∈ chart.rows, graph.row? ports.outlet row.1 = some row.2)
    ⟨fun ⟨htight, hblank, hentry, hexits, hgives, houtlet, hloose, hinputs, hrows⟩ =>
        ⟨htight, hblank, hentry, hexits, hgives, houtlet, hloose, hinputs, hrows⟩,
      fun h => ⟨h.tight, h.blank, h.entry, h.exits, h.gives, h.outlet, h.loose, h.inputs, h.rows⟩⟩

/-! ## Marks of tracing -/

theorem map_kind_untraced (graph : Graph) (node : Option NodeId) :
    (node.bind graph.untraced.node?).map Node.kind = (node.bind graph.node?).map Node.kind := by
  cases node with
  | none => rfl
  | some node =>
    simp only [Option.bind_some, node?_untraced, Option.map_map]
    rfl

theorem jump?_untraced (graph : Graph) : ∀ (bound : Nat) (exit : ExitId),
    graph.untraced.jump? bound exit = graph.jump? bound exit
  | 0, _ => rfl
  | bound + 1, exit => by
    have htarget : graph.untraced.target? exit = graph.target? exit := rfl
    have hadmitted : graph.untraced.admitted? = graph.admitted? := rfl
    unfold jump?
    simp only [htarget, hadmitted, map_kind_untraced, jump?_untraced graph bound]

theorem outward_untraced (graph : Graph) : graph.untraced.outward = graph.outward := by
  have hsize : graph.untraced.outlets.size = graph.outlets.size := rfl
  have hown : graph.untraced.ownOutward = graph.ownOutward := rfl
  funext outlet
  unfold outward relayChain
  rw [hsize, relays_untraced, hown]

theorem row?_untraced (graph : Graph) (outlet : OutletId) (entry : Nat) :
    graph.untraced.row? outlet entry = graph.row? outlet entry := by
  have hadmitted : graph.untraced.admitted? = graph.admitted? := rfl
  have hcell : graph.untraced.outletCell? = graph.outletCell? := rfl
  have hsource : graph.untraced.sourceOf = graph.sourceOf := rfl
  have hslots : graph.untraced.slotsOf = graph.slotsOf := rfl
  have htouches : graph.untraced.touches = graph.touches := rfl
  unfold row?
  simp only [hadmitted, map_kind_untraced, size_nodes_untraced, jump?_untraced, hcell, hsource,
    outward_untraced, hslots, htouches]

/-- **Charts do not show the marks of tracing.** -/
theorem charted_untraced {graph : Graph} {ports : Interface} {chart : Chart} :
    graph.untraced.Charted ports chart ↔ graph.Charted ports chart := by
  constructor
  · intro h
    have hrows := h.rows
    simp only [row?_untraced] at hrows
    exact ⟨⟨h.tight.fed, h.tight.relayed⟩, h.blank, h.entry, h.exits, h.gives, h.outlet, h.loose,
      h.inputs, hrows⟩
  · intro h
    refine ⟨⟨h.tight.fed, h.tight.relayed⟩, h.blank, h.entry, h.exits, h.gives, h.outlet, h.loose,
      h.inputs, ?_⟩
    simp only [row?_untraced]
    exact h.rows

end Graph

/-! ## Builds -/

namespace Library

variable {library : Library} {identifier : String} {chart : Chart}
variable {options : BuildOptions} {net : Network}

/-- A specification has a single implementation, and building it comes to the chart. -/
def follows (library : Library) (identifier : String) (chart : Chart) : Bool :=
  ((library.find identifier).toOption.any fun spec => spec.implementations.length == 1) &&
    (library.instantiate identifier {}).toOption.any fun net =>
      (net.graph.interface? net.root).any fun ports => decide (net.graph.Charted ports chart)

theorem exists_of_follows (h : library.follows identifier chart = true) :
    ∃ net, library.instantiate identifier {} = .ok net := by
  unfold follows at h
  cases hnet : library.instantiate identifier {} with
  | error failure => simp [hnet, Except.toOption] at h
  | ok net => exact ⟨net, rfl⟩

theorem grow_of_instantiate (h : library.instantiate identifier options = .ok net) :
    ∃ spec draft, library.find identifier = .ok spec ∧
      Draft.grow library options.traced options.limits.nestingLimit
        (options.limits.nestingLimit + 1) spec options.implementation {} = .ok (net.root, draft) ∧
      net.graph = draft.graph ∧ net.limits = options.limits := by
  unfold instantiate at h
  split at h
  next => cases h
  next root draft hbuild =>
    -- The specification is found first, and its growth is the graph
    obtain rfl := Except.ok.inj h
    unfold build at hbuild
    split at hbuild
    next => cases hbuild
    next spec hspec => exact ⟨spec, draft, hspec, hbuild, rfl, rfl⟩

theorem lt_length_of_grow {traced : Bool} {limit index : Nat} {spec : Specification}
    {draft : Draft} {grown : NodeId × Draft} : ∀ {levels : Nat},
    Draft.grow library traced limit levels spec index draft = .ok grown →
    index < spec.implementations.length
  | 0, h => by
    simp [Draft.grow] at h
  | levels + 1, h => by
    by_contra hlength
    have hnone : spec.implementations[index]? = none := List.getElem?_eq_none (by omega)
    simp [Draft.grow, Specification.implementation, hnone] at h

/-- Builds of a single implementation come to the same graph but for the marks. -/
theorem untraced_eq_of_instantiate {options' : BuildOptions} {net' : Network}
    {spec : Specification} (hspec : library.find identifier = .ok spec)
    (hsingle : spec.implementations.length = 1)
    (h : library.instantiate identifier options = .ok net)
    (h' : library.instantiate identifier options' = .ok net') :
    net.root = net'.root ∧ net.graph.untraced = net'.graph.untraced := by
  obtain ⟨found, draft, hfound, hgrow, hgraph, _⟩ := grow_of_instantiate h
  obtain ⟨found', draft', hfound', hgrow', hgraph', _⟩ := grow_of_instantiate h'
  rw [hspec] at hfound hfound'
  obtain rfl := Except.ok.inj hfound
  obtain rfl := Except.ok.inj hfound'
  have hfirst : options.implementation = 0 := by
    have := lt_length_of_grow hgrow
    omega
  have hfirst' : options'.implementation = 0 := by
    have := lt_length_of_grow hgrow'
    omega
  rw [hfirst] at hgrow
  rw [hfirst'] at hgrow'
  -- Both come to one build in which as many levels may be nested as either needs
  have hboth := Draft.grow_untraced 0 _ (Nat.le_max_left _ (options'.limits.nestingLimit + 1))
    _ _ _ _ hgrow
  have hboth' := Draft.grow_untraced 0 _ (Nat.le_max_right (options.limits.nestingLimit + 1) _)
    _ _ _ _ hgrow'
  obtain ⟨hroot, hdraft⟩ := Prod.mk.inj (Except.ok.inj (hboth.symm.trans hboth'))
  rw [hgraph, hgraph']
  exact ⟨hroot, congrArg Draft.graph hdraft⟩

/-- **A chart that fits one build fits every build.** -/
theorem charted_of_follows (h : library.follows identifier chart = true)
    (hnet : library.instantiate identifier options = .ok net) :
    ∃ ports, net.graph.interface? net.root = some ports ∧ net.graph.Charted ports chart := by
  obtain ⟨plain, hplain⟩ := exists_of_follows h
  obtain ⟨spec, _, hspec, _⟩ := grow_of_instantiate hnet
  -- What the check has computed, as propositions about the build without tracing
  simp only [follows, hspec, hplain, Except.toOption, Option.any_some, Bool.and_eq_true,
    beq_iff_eq, Option.any_eq_true, decide_eq_true_eq] at h
  obtain ⟨hsingle, ports, hports, hchart⟩ := h
  obtain ⟨hroot, hgraph⟩ := untraced_eq_of_instantiate hspec hsingle hnet hplain
  refine ⟨ports, ?_, ?_⟩
  -- The traced build has the same interface and the same chart
  · rw [← Graph.interface?_untraced, hgraph, hroot, Graph.interface?_untraced]
    exact hports
  · rw [← Graph.charted_untraced, hgraph, Graph.charted_untraced]
    exact hchart

end Library

/-! ## Runs -/

namespace Chart

variable {chart : Chart} {steady : (Nat → Value) → Memory → Prop} {bound : (Nat → Value) → Nat}
variable {library : Library} {identifier : String} {options : BuildOptions} {net : Network}

/-- **Every run of a built network is answered as the rows say**, whatever the options of the build
and the use before. -/
theorem Works.answered_of_follows {done : (Nat → Value) → Memory → Nat → Memory → Prop}
    (h : chart.Works steady done bound) (hfollows : library.follows identifier chart = true)
    (hnet : library.instantiate identifier options = .ok net) (uses : List Use) :
    let used := (net.performAll (uses.map (Use.call net.root))).1
    ∃ memory, used.rootOutput? = (if chart.gives then some memory.out else none) ∧
      chart.Responds (done (Use.lastWritten uses) memory) (bound (Use.lastWritten uses))
        options.limits.chainLimit (used.perform .step).2 := by
  obtain ⟨ports, hports, hchart⟩ := Library.charted_of_follows hfollows hnet
  obtain ⟨_, _, _, _, _, hlimits⟩ := Library.grow_of_instantiate hnet
  have hlinked := (Network.leads_instantiate hnet).1.linked .empty
  rw [← hlimits]
  exact h.answered hlinked hports hchart uses

/-- Every run that ends, ends at an exit of the network if the rows say so. -/
theorem Meets.answered_of_follows {done : (Nat → Value) → Nat → Memory → Prop}
    (h : chart.Meets steady done bound) (hfollows : library.follows identifier chart = true)
    (hnet : library.instantiate identifier options = .ok net) (uses : List Use) :
    chart.Answers (done (Use.lastWritten uses)) (bound (Use.lastWritten uses))
      options.limits.chainLimit
      ((net.performAll (uses.map (Use.call net.root))).1.perform .step).2 := by
  obtain ⟨_, _, hresponds⟩ := h.works.answered_of_follows hfollows hnet uses
  exact hresponds.answers h.exits

end Chart

end TokenNet
