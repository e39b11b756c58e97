import TokenNet.Proofs.Blueprint.Outline
import TokenNet.Proofs.Change.Replay
import TokenNet.Proofs.Graph.Retains

/-!
# Composites under construction

While a composite is being replayed, its parts have the faces that the library says they have, and
the composite has an entry exactly if one of the directives carried out so far exposes the entry of
a part which the token can enter.  So the view of the composite in the graph is the one that can be
read off the library, and at the end its own face is, too.

## Main statements

- `Staged`: what holds of a composite between two directives.
- `Staged.view_eq`, `Staged.face_eq`: the view and the face of a composite are those of the library.
- `Staged.grown`, `Staged.adopt`, `Staged.rewire`: what growing a part, giving it its role and
  wiring do to a composite.
-/

namespace TokenNet

/-! ## Records -/

namespace Node

/-- A composite of a specification: it has the ports that the specification declares, and a join
behind each exit. -/
def Frames (spec : Specification) (record : Node) : Prop :=
  ∃ ports parts, record.kind = .composite ports parts ∧ ports.inlets.length = spec.inletCount ∧
    ports.exits.length = spec.exitCount ∧ ports.joins.length = spec.exitCount

namespace Frames

variable {spec : Specification} {record : Node}

theorem addPart (h : record.Frames spec) (role : String) (part : NodeId) :
    (record.addPart role part).Frames spec := by
  obtain ⟨ports, parts, hkind, hports⟩ := h
  refine ⟨ports, parts.insert role part, ?_, hports⟩
  simp only [Node.addPart, hkind]

theorem setEntry (h : record.Frames spec) (entry : EntryId) :
    (record.modifyInterface fun ports => { ports with entry := some entry }).Frames spec ∧
      Node.entry? (record.modifyInterface fun ports => { ports with entry := some entry }) =
        some entry := by
  obtain ⟨ports, parts, hkind, hports⟩ := h
  refine ⟨⟨{ ports with entry := some entry }, parts, ?_, hports⟩, ?_⟩
  · simp only [modifyInterface, hkind]
  · simp only [modifyInterface, hkind, entry?]

theorem part?_addPart (h : record.Frames spec) (role : String) (part : NodeId) (other : String) :
    (record.addPart role part).part? other =
      if other = role then some part else record.part? other := by
  obtain ⟨ports, parts, hkind, _⟩ := h
  simp only [part?, parts?, Node.addPart, hkind, Option.bind_some, Table.get?_insert]

end Frames

end Node

namespace Graph

variable {graph graph' : Graph} {composite part : NodeId} {count : Nat} {role : String}

theorem face_congr {node : NodeId} (h : graph'.node? node = graph.node? node) :
    graph'.face node = graph.face node := by
  simp only [face, Directive.inletsOf, Directive.exitsOf, interface?, entryOf?, h]

/-- Giving a part its place changes no face. -/
theorem face_adopt (node : NodeId) :
    (graph.adopt composite role part).face node = graph.face node := by
  simp only [face, Directive.inletsOf, Directive.exitsOf, interface?_adopt, entryOf?_adopt]

@[simp] theorem nodes_apply_of_ne {rewiring : Rewiring} (graph : Graph)
    (h : ∀ composite entry, rewiring ≠ .enter composite entry) :
    (rewiring.apply graph).nodes = graph.nodes := by
  cases rewiring with
  | connect inlet outlet => exact (congrArg Graph.nodes (graph.bare_connect inlet outlet) :)
  | direct => rfl
  | feed outer inner => exact (congrArg Graph.nodes (graph.bare_feed outer inner) :)
  | relay outer inner => exact (congrArg Graph.nodes (graph.bare_relay outer inner) :)
  | enter composite entry => exact absurd rfl (h composite entry)

end Graph

/-! ## Wiring and nodes -/

/-- Only exposing an entry changes the entry of a composite. -/
theorem Directive.ne_enter_of_resolve {graph : Graph} {composite : NodeId} {name : String}
    {directive : Directive} {rewiring : Rewiring}
    (hdirective : ∀ role, directive ≠ .exposeEntry role)
    (h : directive.resolve graph composite name = .ok (some rewiring)) (other : NodeId)
    (entry : EntryId) : rewiring ≠ .enter other entry := by
  -- Behind the look-ups, which have all succeeded, the rewiring is of another kind
  cases directive with
  | part => cases h
  | dataFlow =>
    obtain ⟨_, _, h⟩ := Except.bind_eq_ok_iff.mp h
    obtain ⟨_, _, h⟩ := Except.bind_eq_ok_iff.mp h
    obtain ⟨_, _, rfl⟩ := Option.map_eq_some_iff.mp (Except.ok.inj h)
    nofun
  | controlFlow =>
    obtain ⟨_, _, h⟩ := Except.bind_eq_ok_iff.mp h
    obtain ⟨_, _, h⟩ := Except.bind_eq_ok_iff.mp h
    obtain ⟨_, _, h⟩ := Except.bind_eq_ok_iff.mp h
    obtain rfl := Option.some.inj (Except.ok.inj h)
    nofun
  | exposeInlet =>
    obtain ⟨_, _, h⟩ := Except.bind_eq_ok_iff.mp h
    obtain ⟨_, _, h⟩ := Except.bind_eq_ok_iff.mp h
    obtain ⟨_, _, h⟩ := Except.bind_eq_ok_iff.mp h
    obtain rfl := Option.some.inj (Except.ok.inj h)
    nofun
  | exposeOutlet =>
    obtain ⟨_, _, h⟩ := Except.bind_eq_ok_iff.mp h
    obtain ⟨_, _, h⟩ := Option.bind_eq_some_iff.mp (Except.ok.inj h)
    obtain ⟨_, _, h⟩ := Option.bind_eq_some_iff.mp h
    obtain rfl := Option.some.inj h
    nofun
  | exposeExit =>
    obtain ⟨_, _, h⟩ := Except.bind_eq_ok_iff.mp h
    obtain ⟨_, _, h⟩ := Except.bind_eq_ok_iff.mp h
    obtain ⟨_, _, h⟩ := Except.bind_eq_ok_iff.mp h
    obtain rfl := Option.some.inj (Except.ok.inj h)
    nofun
  | exposeEntry role => exact absurd rfl (hdirective role)

namespace Draft

variable (draft : Draft) (composite : NodeId) (name : String)

theorem nodes_rewire_of_ne {directive : Directive} (h : ∀ role, directive ≠ .exposeEntry role) :
    (draft.rewire composite name directive).graph.nodes = draft.graph.nodes := by
  unfold rewire
  split
  next => rw [graph_foldl_skip]
  next => rfl
  next rewiring hresolve =>
    exact Graph.nodes_apply_of_ne draft.graph (Directive.ne_enter_of_resolve h hresolve)

/-- Exposing an entry sets the entry of the composite if the part has one. -/
theorem graph_rewire_exposeEntry (role : String) :
    (draft.rewire composite name (.exposeEntry role)).graph =
      ((draft.graph.part? composite role).bind draft.graph.entryOf?).elim draft.graph
        (draft.graph.setEntry composite) := by
  -- The role may be vacant, and its part may have no entry; both leave the graph as it is
  cases hpart : draft.graph.part? composite role with
  | none =>
    have hresolve : (Directive.exposeEntry role).resolve draft.graph composite name =
        .error [.unknownRole name role] := by
      simp [Directive.resolve, Directive.findPart, hpart, bind, Except.bind]
    exact graph_rewire_of_error hresolve
  | some part =>
    cases hentry : draft.graph.entryOf? part with
    | none =>
      have hresolve : (Directive.exposeEntry role).resolve draft.graph composite name =
          .error [.noEntry name role] := by
        simp [Directive.resolve, Directive.findPart, hpart, Directive.findEntry, hentry, bind,
          Except.bind]
      rw [graph_rewire_of_error hresolve, Option.bind_some, hentry]
      rfl
    | some entry =>
      have hresolve : (Directive.exposeEntry role).resolve draft.graph composite name =
          .ok (some (.enter composite entry)) := by
        simp [Directive.resolve, Directive.findPart, hpart, Directive.findEntry, hentry, bind,
          Except.bind, pure, Except.pure]
      rw [graph_rewire hresolve, Option.bind_some, hentry]
      rfl

end Draft

/-! ## Between two directives -/

/-- A composite of a specification in a graph, after some directives that make parts and some that
wire have been carried out. -/
structure Staged (library : Library) (graph : Graph) (composite : NodeId) (spec : Specification)
    (made wired : List Directive) : Prop where
  closed : graph.Closed
  framed : ∃ record, graph.node? composite = some record ∧ record.Frames spec
  later : ∀ role part, graph.part? composite role = some part → composite.index < part.index
  parts : ∀ role, (graph.part? composite role).map graph.face =
    (library.cast? made role).map fun part => library.face part 0
  entry : (graph.entryOf? composite).isSome ↔ ∃ role part, .exposeEntry role ∈ wired ∧
    library.cast? made role = some part ∧ library.Enters part 0

namespace Staged

variable {library : Library} {graph graph' : Graph} {composite part : NodeId}
  {spec : Specification} {made wired : List Directive}

theorem lt_size (h : Staged library graph composite spec made wired) :
    composite.index < graph.nodes.size := by
  obtain ⟨record, hrecord, _⟩ := h.framed
  exact (Array.getElem?_eq_some_iff.mp hrecord).1

theorem interface? (h : Staged library graph composite spec made wired) :
    ∃ ports, graph.interface? composite = some ports ∧ ports.inlets.length = spec.inletCount ∧
      ports.exits.length = spec.exitCount ∧ ports.joins.length = spec.exitCount := by
  obtain ⟨record, hrecord, ports, parts, hkind, hports⟩ := h.framed
  refine ⟨ports, ?_, hports⟩
  simp only [Graph.interface?, hrecord, Option.bind_some, Node.interface?, hkind]

/-- Every join can be entered, so a composite has as many entries of joins as joins. -/
theorem length_joinEntriesOf (hclosed : graph.Closed) {ports : Interface}
    (hports : graph.interface? composite = some ports) :
    (Directive.joinEntriesOf graph composite).length = ports.joins.length := by
  -- Every join of a closed graph is there, and joins always admit control
  have henters : ∀ join ∈ ports.joins, (graph.entryOf? join).isSome := by
    intro join hmem
    obtain ⟨record, hrecord, hjoin⟩ := (hclosed.knows hports).joins join hmem
    obtain ⟨_, _, _, _, kind⟩ := record
    cases kind with
    | join entry exit => simp [Graph.entryOf?, hrecord, Node.entry?]
    | _ => cases hjoin
  unfold Directive.joinEntriesOf
  rw [hports, Option.map_some, Option.getD_some, List.length_filterMap_eq_countP,
    List.countP_eq_length]
  exact henters

/-- **The view of a composite is the one that the library gives it.** -/
theorem view_eq (h : Staged library graph composite spec made wired) :
    graph.view composite = library.view spec made := by
  obtain ⟨ports, hports, hinlets, _, hjoins⟩ := h.interface?
  ext1
  · exact funext h.parts
  · simp [Directive.inletsOf, hports, hinlets]
  · exact (length_joinEntriesOf h.closed hports).trans hjoins

/-- **The face of a finished composite is the one that the library gives it.** -/
theorem face_eq {index : Nat} {log : List Directive} (hlog : spec.log? index = some log)
    (h : Staged library graph composite spec made wired)
    (hmade : ∀ role, library.cast? made role = library.cast? log role)
    (hwired : ∀ role, .exposeEntry role ∈ wired ↔ .exposeEntry role ∈ log) :
    graph.face composite = library.face spec index := by
  obtain ⟨ports, hports, hinlets, hexits, _⟩ := h.interface?
  have hnative := Specification.primitive?_of_log? hlog
  have hentry := h.entry
  -- The entry is exposed in the graph just when the log says so
  simp only [hmade, hwired, ← Library.enters_iff hlog] at hentry
  ext1
  · simp [Directive.inletsOf, hports, hinlets, Specification.inletsAt, hnative]
  · simp [Directive.exitsOf, hports, hexits, Specification.exitsAt, hnative]
  · rw [Bool.eq_iff_iff]
    simpa using hentry

/-! ## Steps -/

/-- A new composite has no parts. -/
theorem start (hclosed : graph.Closed) (spec : Specification) (traced : Bool) :
    Staged library
      (graph.addComposite spec.identifier spec.inletCount spec.exitCount traced).2
      (graph.addComposite spec.identifier spec.inletCount spec.exitCount traced).1 spec [] [] := by
  obtain ⟨hplace, _, ports, hrecord, hinlets, hexits, hjoins, hentry⟩ :=
    graph.node?_addComposite spec.identifier spec.inletCount spec.exitCount traced
  -- A composite just added has no parts
  have hparts : ∀ role, (graph.addComposite spec.identifier spec.inletCount spec.exitCount
      traced).2.part? ⟨graph.nodes.size⟩ role = none := by
    intro role
    simp [Graph.part?, hrecord, Node.part?, Node.parts?, Table.get?]
  rw [hplace]
  refine ⟨(hclosed.addComposite _ _ _ _).1, ?_, ?_, ?_, ?_⟩
  · exact ⟨_, hrecord, ports, {}, rfl, hinlets, hexits, hjoins⟩
  · intro role part hpart
    rw [hparts] at hpart
    cases hpart
  · intro role
    rw [hparts]
    rfl
  · simp [Graph.entryOf?, hrecord, Node.entry?, hentry]

/-- Whatever is added behind a composite and its parts does not concern them. -/
theorem grown (h : Staged library graph composite spec made wired) (hclosed : graph'.Closed)
    (hkept : graph.Retains graph.nodes.size graph') :
    Staged library graph' composite spec made wired := by
  have hnode := hkept composite h.lt_size
  have hpart := Graph.part?_congr hnode
  refine ⟨hclosed, ?_, ?_, ?_, ?_⟩
  · rw [hnode]
    exact h.framed
  · rw [hpart]
    exact h.later
  · intro role
    rw [hpart, ← h.parts role]
    -- The parts are older than what has been added
    refine Option.map_congr fun part hmem => Graph.face_congr (hkept part ?_)
    obtain ⟨record, hrecord, _⟩ := h.closed.hosts_of_part? hmem
    exact (Array.getElem?_eq_some_iff.mp hrecord).1
  · simp only [Graph.entryOf?, hnode]
    exact h.entry

/-- A directive that brings no part into a role leaves the parts as they are. -/
theorem unfilled (h : Staged library graph composite spec made wired) {directive : Directive}
    (hfilling : ∀ role, library.filling? role directive = none) :
    Staged library graph composite spec (made ++ [directive]) wired := by
  have hcast : library.cast? (made ++ [directive]) = library.cast? made := by
    funext role
    rw [library.cast?_append_singleton, hfilling, Option.none_or]
  refine { h with parts := ?_, entry := ?_ }
  · rw [hcast]
    exact h.parts
  · rw [hcast]
    exact h.entry

/-- **A part takes its role.** -/
theorem adopt (h : Staged library graph composite spec made []) {specification role : String}
    {found : Specification} (hfound : library.makeable? specification = some found)
    (hlater : composite.index < part.index) (hhosts : graph.Hosts part)
    (hface : graph.face part = library.face found 0) :
    Staged library (graph.adopt composite role part) composite spec
      (made ++ [.part specification role]) [] := by
  have hne : composite ≠ part := fun hsame => Nat.ne_of_lt hlater (congrArg NodeId.index hsame)
  -- The record of the composite lists the part; what the record of the part says of its place is
  -- not part of its face
  obtain ⟨record, hrecord, hframes⟩ := h.framed
  have hadopted := graph.node?_adopt role hne
  rw [hrecord, Option.map_some] at hadopted
  have hpart : ∀ other, (graph.adopt composite role part).part? composite other =
      if other = role then some part else graph.part? composite other := by
    intro other
    simp only [Graph.part?, hadopted, hrecord, Option.bind_some, hframes.part?_addPart]
  have hfaces : (graph.adopt composite role part).face = graph.face := funext Graph.face_adopt
  refine ⟨(h.closed.adopt composite role hhosts).1, ?_, ?_, ?_, ?_⟩
  · exact ⟨_, hadopted, hframes.addPart role part⟩
  · intro other found hother
    rw [hpart] at hother
    split at hother
    next => exact Option.some.inj hother ▸ hlater
    next => exact h.later other found hother
  · intro other
    rw [hpart, hfaces, library.cast?_append_singleton]
    by_cases hother : other = role
    · simp [hother, Library.filling?, hfound, hface]
    · simp [hother, Ne.symm hother, Library.filling?, h.parts]
  · have hentry := congrArg Face.enters (congrFun hfaces composite)
    rw [Graph.face_enters, Graph.face_enters] at hentry
    rw [hentry, h.entry]
    simp

/-- The parts through which the token can enter, in the graph and in the library. -/
theorem exists_entryOf? (h : Staged library graph composite spec made wired) (role : String) :
    ((graph.part? composite role).bind graph.entryOf?).isSome ↔
      ∃ part, library.cast? made role = some part ∧ library.Enters part 0 := by
  have hparts := h.parts role
  cases hpart : graph.part? composite role with
  | none =>
    rw [hpart, Option.map_none, eq_comm, Option.map_eq_none_iff] at hparts
    simp [hparts]
  | some part =>
    rw [hpart, Option.map_some, eq_comm, Option.map_eq_some_iff] at hparts
    -- The part that has been made shows the face that the library foresees
    obtain ⟨found, hcast, hface⟩ := hparts
    have henters := congrArg Face.enters hface
    rw [Library.face_enters, Graph.face_enters] at henters
    simp [hcast, ← henters]

/-- Exposing the entry of a part that the token can enter. -/
theorem setEntry (h : Staged library graph composite spec made wired) {entry : EntryId}
    (hclosed : (graph.setEntry composite entry).Closed) {role : String} {found : Specification}
    (hcast : library.cast? made role = some found) (henters : library.Enters found 0) :
    Staged library (graph.setEntry composite entry) composite spec made
      (wired ++ [.exposeEntry role]) := by
  obtain ⟨record, hrecord, hframes⟩ := h.framed
  obtain ⟨hframes', hentry⟩ := hframes.setEntry entry
  have hnode : (graph.setEntry composite entry).node? composite = _ :=
    graph.node?_modifyNode composite _ composite
  rw [if_pos rfl, hrecord, Option.map_some] at hnode
  have hpart : (graph.setEntry composite entry).part? composite = graph.part? composite :=
    funext fun role => Graph.bind_modifyNode (Node.part?_modifyInterface _ · role) graph _ _
  refine ⟨hclosed, ⟨_, hnode, hframes'⟩, ?_, ?_, ?_⟩
  · rw [hpart]
    exact h.later
  · intro other
    rw [hpart, ← h.parts other]
    -- The composite is none of its parts
    refine Option.map_congr fun part hmem => Graph.face_congr ?_
    have hne : part ≠ composite := by
      rintro rfl
      exact Nat.lt_irrefl _ (h.later other part hmem)
    exact (graph.node?_modifyNode composite _ part).trans (if_neg hne)
  · simp only [Graph.entryOf?, hnode, Option.bind_some, hentry, Option.isSome_some, true_iff]
    exact ⟨role, found, by simp, hcast, henters⟩

/-- **A wiring changes at most the entry of the composite.** -/
theorem rewire {draft : Draft} (h : Staged library draft.graph composite spec made wired)
    (directive : Directive) :
    Staged library (draft.rewire composite spec.identifier directive).graph composite spec made
        (wired ++ [directive]) ∧
      draft.graph.Retains composite.index
        (draft.rewire composite spec.identifier directive).graph := by
  have hclosed := (Draft.leads_rewire h.closed composite spec.identifier directive).closed h.closed
  by_cases hother : ∀ role, directive ≠ .exposeEntry role
  · -- No record changes
    have hnodes := draft.nodes_rewire_of_ne composite spec.identifier hother
    have hkept := h.grown hclosed (.of_nodes_eq hnodes)
    refine ⟨{ hkept with entry := hkept.entry.trans ?_ }, .of_nodes_eq hnodes⟩
    simp [Ne.symm (hother _)]
  · push Not at hother
    obtain ⟨role, rfl⟩ := hother
    have hgraph := draft.graph_rewire_exposeEntry composite spec.identifier role
    have hexposed := h.exists_entryOf? role
    cases hfound : (draft.graph.part? composite role).bind draft.graph.entryOf? with
    | none =>
      -- The token cannot enter the part, so the directive is skipped
      rw [hfound] at hgraph hexposed
      rw [hgraph]
      have hnone : ¬ ∃ part, library.cast? made role = some part ∧ library.Enters part 0 :=
        fun hpart => Bool.false_ne_true (hexposed.mpr hpart)
      refine ⟨{ h with entry := h.entry.trans ?_ }, .refl _ _⟩
      constructor
      · rintro ⟨other, part, hmem, hpart⟩
        exact ⟨other, part, List.mem_append_left _ hmem, hpart⟩
      · rintro ⟨other, part, hmem, hpart⟩
        rcases List.mem_append.mp hmem with hold | hnew
        · exact ⟨other, part, hold, hpart⟩
        · obtain rfl : other = role := by simpa using hnew
          exact absurd ⟨part, hpart⟩ hnone
    | some entry =>
      -- The entry of the part takes the place of an earlier one
      rw [hfound] at hgraph hexposed
      obtain ⟨found, hcast, henters⟩ := hexposed.mp rfl
      rw [hgraph] at hclosed ⊢
      exact ⟨h.setEntry hclosed hcast henters, .setEntry (Nat.le_refl _) entry⟩

end Staged

end TokenNet
