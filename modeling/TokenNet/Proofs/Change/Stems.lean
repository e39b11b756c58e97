import TokenNet.Proofs.Change.Inside
import TokenNet.Proofs.Change.Plan

/-!
# What nodes stem from

Every node of a built graph stems from a specification that the library has under some identifier:
it was grown from it at some point of the build, behind the nodes that were there at the time, and
what was built around it later has not changed its inside.  So what is known of growing one
specification, whatever comes before, holds inside every node of that specification, at every depth
of every program.

## Main statements

- `Draft.Stems`: a node was grown from its specification, and its inside is still the same.
- `Draft.growsStems_grow`: all that growing a node adds stems from specifications.
- `Library.stems_of_instantiate`: so does every node of a built network.
-/

namespace TokenNet

namespace Graph

theorem Constructs.linked {graph : Graph} (h : Constructs {} graph) : graph.Linked := by
  obtain ⟨_, hlaid⟩ := h.laid
  exact hlaid.represents.linked

theorem Constructs.closed {graph graph' : Graph} (h : Constructs graph graph')
    (hclosed : graph.Closed) : graph'.Closed := by
  induction h with
  | refl => exact hclosed
  | tail _ hstep ih => exact (hstep.change ih).closed ih

theorem Constructs.placed {graph graph' : Graph} (h : Constructs graph graph')
    {node parent : NodeId} (hparent : graph.parentOf? node = some parent) :
    graph'.parentOf? node = some parent := by
  induction h with
  | refl => exact hparent
  | tail _ hstep ih => exact (hstep.placed ih).1

/-- The identifier of the specification of a node. -/
def nameOf? (graph : Graph) (node : NodeId) : Option String :=
  (graph.node? node).bind fun record => some record.specification

theorem SamePlan.nameOf? {graph graph' : Graph} (h : graph.SamePlan graph') :
    graph'.nameOf? = graph.nameOf? :=
  funext fun node => h.bind_node? (fun _ => rfl) node

theorem nameOf?_adopt (graph : Graph) (composite part : NodeId) (role : String) (node : NodeId) :
    (graph.adopt composite role part).nameOf? node = graph.nameOf? node := by
  refine (bind_modifyNode ?_ _ composite node).trans (bind_modifyNode ?_ graph part node)
  · exact fun _ => rfl
  · exact fun _ => rfl

/-- What is built around a composite that has its place leaves its inside alone. -/
theorem Constructs.sameInside {graph graph' : Graph} (hbuilt : Constructs {} graph)
    (h : Constructs graph graph') {composite parent : NodeId}
    (hparent : graph.parentOf? composite = some parent) : SameInside composite graph graph' := by
  induction h with
  | refl => exact .refl composite graph
  | tail hsteps hstep ih =>
    have hbefore := hbuilt.trans hsteps
    exact ih.trans (hstep.sameInside (Constructs.linked hbefore) (Constructs.leveled hbefore)
      (Constructs.placed hsteps hparent))

end Graph

namespace Draft

open TokenNet.Graph

variable {library : Library} {traced : Bool} {limit : Nat} {start now : Draft} {node : NodeId}

/-- A node was grown from a specification of the library, and its inside is still the same. -/
def Stems (library : Library) (traced : Bool) (limit : Nat) (graph : Graph) (node : NodeId) : Prop :=
  ∃ levels identifier spec index start now, library.get? identifier = some spec ∧
    Constructs {} start.graph ∧
    grow library traced limit levels spec index start = .ok (node, now) ∧
    now.graph.nameOf? node = some spec.identifier ∧ SameInside node now.graph graph

theorem Stems.sameInside {graph graph' : Graph} (h : Stems library traced limit graph node)
    (hsame : SameInside node graph graph') : Stems library traced limit graph' node := by
  obtain ⟨levels, identifier, spec, index, start, now, hspec, hstart, hgrow, hname, hinside⟩ := h
  exact ⟨levels, identifier, spec, index, start, now, hspec, hstart, hgrow, hname,
    hinside.trans hsame⟩

/-- Every node with an interface behind the first ones was grown and has its place, one node apart
on which the build still works. -/
def AllStem (library : Library) (traced : Bool) (limit count : Nat) (worked : NodeId)
    (graph : Graph) : Prop :=
  ∀ node ports, count ≤ node.index → graph.interface? node = some ports → node ≠ worked →
    Stems library traced limit graph node ∧ ∃ parent, graph.parentOf? node = some parent

namespace AllStem

variable {count : Nat} {worked part : NodeId} {graph graph' : Graph} {record : Node}
  {ports : Interface}

/-- A new node is the only one with an interface that it adds. -/
theorem raises (h : Raises graph graph' record ports) :
    AllStem library traced limit graph.nodes.size ⟨graph.nodes.size⟩ graph' := by
  intro node found hcount hfound hne
  rcases h.interface?_cases hfound with hold | ⟨hnew, _⟩
  · obtain ⟨old, hold, _⟩ := Option.bind_eq_some_iff.mp hold
    exact absurd (Array.getElem?_eq_some_iff.mp hold).1 (Nat.not_lt.mpr hcount)
  · exact absurd hnew hne

/-- Steps that add no nodes. -/
theorem constructs (h : AllStem library traced limit count worked graph)
    (hbuilt : Constructs {} graph) (hsteps : Constructs graph graph')
    (hnodes : ∀ node ports, graph'.interface? node = some ports →
      ∃ ports, graph.interface? node = some ports) :
    AllStem library traced limit count worked graph' := by
  intro node ports' hcount hports' hne
  obtain ⟨ports, hports⟩ := hnodes node ports' hports'
  obtain ⟨hgrown, parent, hparent⟩ := h node ports hcount hports hne
  exact ⟨hgrown.sameInside (hbuilt.sameInside hsteps hparent), parent, hsteps.placed hparent⟩

/-- A part is grown behind the nodes that are there, and takes its place. -/
theorem adopt (h : AllStem library traced limit count worked graph) (hbuilt : Constructs {} graph)
    (hpart : Built graph part graph')
    (hlater : AllStem library traced limit graph.nodes.size part graph')
    (hgrown : Stems library traced limit graph' part) (hpending : graph'.Pending worked)
    (role : String) :
    AllStem library traced limit count worked (graph'.adopt worked role part) := by
  have hbuilt' := hbuilt.trans hpart.constructs
  intro node ports hcount hports hne
  rw [interface?_adopt] at hports
  by_cases hnode : node = part
  · subst hnode
    -- The part itself has been grown just now, and stands under the composite
    exact ⟨hgrown.sameInside (.of_adopt (Constructs.linked hbuilt') hpending hpart.loose role _),
      worked, parentOf?_adopt_part hpart.hosts role⟩
  · -- The node stands under the part, or it was there before
    have hplaced : Stems library traced limit graph' node ∧
        ∃ parent, graph'.parentOf? node = some parent := by
      rcases Nat.lt_or_ge node.index graph.nodes.size with hold | hnew
      · have hports' : graph.interface? node = some ports := by
          unfold Graph.interface? at hports ⊢
          -- An old node has been grown in the old graph, of which nothing inside it has changed
          rw [← hpart.retains node hold, hports]
        obtain ⟨hgrown, parent, hparent⟩ := h node ports hcount hports' hne
        exact ⟨hgrown.sameInside (hbuilt.sameInside hpart.constructs hparent), parent,
          hpart.constructs.placed hparent⟩
      · exact hlater node ports hnew hports hnode
    obtain ⟨hgrown, parent, hparent⟩ := hplaced
    exact ⟨hgrown.sameInside (.of_adopt (Constructs.linked hbuilt') hpending hpart.loose role _),
      parent, parentOf?_adopt hpart.loose hparent role⟩

end AllStem

/-! ## Logs -/

/-- A way of growing parts by which all that it adds stems from specifications. -/
def GrowsStems (library : Library) (traced : Bool) (limit : Nat) (growPart : Grow) : Prop :=
  ∀ {identifier spec draft part grown}, library.get? identifier = some spec →
    Constructs {} draft.graph → growPart spec draft = .ok (part, grown) →
    Built draft.graph part grown.graph ∧ Stems library traced limit grown.graph part ∧
      AllStem library traced limit draft.graph.nodes.size part grown.graph

/-- A composite of some name whose log is being carried out, and all that it has got so far. -/
structure Working (library : Library) (traced : Bool) (limit count : Nat) (composite : NodeId)
    (name : String) (graph : Graph) : Prop where
  built : Constructs {} graph
  pending : graph.Pending composite
  named : graph.nameOf? composite = some name
  all : AllStem library traced limit count composite graph

variable {growPart : Grow} {count : Nat} {composite : NodeId} {name : String}

theorem Working.rewire (h : Working library traced limit count composite name start.graph)
    (directive : Directive) : Working library traced limit count composite name
      (start.rewire composite name directive).graph := by
  have hworks := works_rewire (h.built.lineage .empty) h.pending name directive
  have hplan := samePlan_rewire start composite name directive
  refine ⟨h.built.trans hworks.constructs, hworks.pending, hplan.nameOf? ▸ h.named,
    h.all.constructs h.built hworks.constructs fun node ports hports => ?_⟩
  obtain ⟨ports, hports, _⟩ := hplan.symm.exists_interface? hports
  exact ⟨ports, hports⟩

theorem Working.replay (hgrow : GrowsStems library traced limit growPart)
    (h : Working library traced limit count composite name start.graph) {directive : Directive}
    (hreplay : replay library growPart composite name start directive = .ok now) :
    Working library traced limit count composite name now.graph := by
  cases directive with
  | part specification role =>
    rw [replay_part] at hreplay
    cases hmakeable : library.makeable? specification with
    -- A part that cannot be made leaves the graph as it is
    | none =>
      rw [hmakeable] at hreplay
      obtain rfl := Except.ok.inj hreplay
      rw [graph_foldl_skip]
      exact h
    | some spec =>
      rw [hmakeable] at hreplay
      cases hgrown : growPart spec start with
      | error failure => simp [hgrown] at hreplay
      | ok pair =>
        obtain ⟨part, grown⟩ := pair
        simp only [hgrown] at hreplay
        obtain rfl := Except.ok.inj hreplay
        obtain ⟨hpart, hself, hlater⟩ :=
          hgrow (Option.filter_eq_some_iff.mp hmakeable).1 h.built hgrown
        have hworks := hpart.works h.pending
        -- The part is grown behind the composite, which is still the one at work
        have hplaced : composite.index < part.index := hpart.place ▸ h.pending.lt_size
        have hadopts := hworks.trans (.adopt hworks.pending hplaced hpart.hosts hpart.loose role)
        have hnamed : grown.graph.nameOf? composite = some name := by
          unfold nameOf?
          rw [hpart.retains composite h.pending.lt_size]
          exact h.named
        rw [graph_adopt]
        exact ⟨h.built.trans hadopts.constructs, hadopts.pending,
          (nameOf?_adopt _ _ _ _ _).trans hnamed,
          h.all.adopt h.built hpart hlater hself hworks.pending role⟩
  -- A wiring stays inside the composite
  | _ =>
    obtain rfl := Except.ok.inj hreplay
    exact h.rewire _

theorem Working.replayAll (hgrow : GrowsStems library traced limit growPart) {log : List Directive}
    (h : Working library traced limit count composite name start.graph)
    (hreplay : replayAll library growPart composite name log start = .ok now) :
    Working library traced limit count composite name now.graph := by
  induction log generalizing start with
  | nil => exact Except.ok.inj hreplay ▸ h
  | cons directive rest ih =>
    unfold Draft.replayAll at hreplay
    split at hreplay
    next => cases hreplay
    next middle hfirst => exact ih (h.replay hgrow hfirst) hreplay

/-! ## Whole nodes -/

/-- **All that growing a node adds stems from specifications**, by induction on the levels that may
be nested. -/
theorem growsStems_grow (library : Library) (traced : Bool) (limit levels index : Nat) :
    GrowsStems library traced limit fun spec draft =>
      grow library traced limit levels spec index draft := by
  induction levels generalizing index with
  | zero =>
    intro _ _ _ _ _ _ _ hgrown
    cases hgrown
  | succ levels ih =>
    intro identifier spec start node now hspec hstart hgrown
    obtain ⟨framed, hcourse⟩ := exists_course_of_grow hspec hgrown
    have hbuilt := (hcourse.built (hstart.lineage .empty)).1
    -- The node itself is grown just now, so it is left to look at what stands behind it
    have hstems (hname : now.graph.nameOf? node = some spec.identifier)
        (hall : AllStem library traced limit start.graph.nodes.size node now.graph) :
        Built start.graph node now.graph ∧ Stems library traced limit now.graph node ∧
          AllStem library traced limit start.graph.nodes.size node now.graph :=
      ⟨hbuilt, ⟨_, _, _, _, _, _, hspec, hstart, hgrown, hname, .refl node _⟩, hall⟩
    -- A primitive is done at once
    rcases grow_eq_ok_iff.mp hgrown with ⟨primitive, _, rfl, rfl⟩ | ⟨log, _, rfl, hreplay⟩
    · rw [start.graph.fst_addNative primitive] at hstems ⊢
      have hraises := start.graph.raises_addNative spec.identifier traced primitive
      exact hstems (by simp only [nameOf?, hraises.node, Option.bind_some]) (.raises hraises)
    · have hraises := start.graph.raises_addComposite spec.identifier traced spec.inletCount
        spec.exitCount
      obtain ⟨hplace, _, _⟩ := start.graph.node?_addComposite spec.identifier spec.inletCount
        spec.exitCount traced
      rw [hplace] at hreplay hstems ⊢
      -- A composite starts as a frame, and is worked on by its log
      have hframe : Construct start.graph _ := .composite start.graph spec.identifier
        spec.inletCount spec.exitCount traced
      have hloose := (Built.of_raises hframe hraises).loose
      have hframed : Working library traced limit start.graph.nodes.size ⟨start.graph.nodes.size⟩
          spec.identifier
          (start.graph.addComposite spec.identifier spec.inletCount spec.exitCount traced).2 :=
        ⟨hstart.tail hframe, ⟨⟨_, hraises.node, rfl⟩, hloose⟩,
          by simp only [nameOf?, hraises.node, Option.bind_some], .raises hraises⟩
      have hdone := hframed.replayAll (fun hpart hdraft hgrown => ih 0 hpart hdraft hgrown) hreplay
      exact hstems hdone.named hdone.all

end Draft

/-- **Every node of a built network stems from a specification**, the root included. -/
theorem Library.stems_of_instantiate {library : Library} {identifier : String}
    {options : BuildOptions} {built : Network}
    (h : library.instantiate identifier options = .ok built) {node : NodeId} {ports : Interface}
    (hports : built.graph.interface? node = some ports) :
    Draft.Stems library options.traced options.limits.nestingLimit built.graph node := by
  obtain ⟨spec, root, draft, hspec, hgrow, rfl⟩ := instantiate_eq_ok_iff.mp h
  obtain ⟨_, hroot, hall⟩ := Draft.growsStems_grow library options.traced
    options.limits.nestingLimit _ _ hspec .refl hgrow
  by_cases hnode : node = root
  · exact hnode ▸ hroot
  · exact (hall node ports (Nat.zero_le _) hports hnode).1

end TokenNet
