import TokenNet.Proofs.Change.Construct

/-!
# Where exits lead

While a composite is built, an exit of one of its parts is directed at another of its parts or at
one of its joins, and the entry that it exposes is that of one of its parts.  So whatever an exit
leads to has the same parent as the owner of the exit, and an entry is passed down from a composite
to a part, to a part of that part, and so on, until it comes to the node that it admits to.

## Main statements

- `Below`: the nodes below a node.
- `Enclosed`: where exits lead and how entries are passed down.
- `Constructs.enclosed`: this holds of every graph that is built.
- `Enclosed.exists_passesDown`, `PassesDown.below_first`: an entry is passed down to the node that it
  admits to, past no node but those that expose it.
-/

namespace TokenNet.Graph

/-! ## Below a node -/

/-- A node stands below another if it is a part or a join of it, or of a part of it, and so on. -/
def Below (graph : Graph) : NodeId → NodeId → Prop :=
  Relation.TransGen fun node parent => graph.parentOf? node = some parent

/-- What is above a node is its parent and what is above that. -/
theorem below_iff {graph : Graph} {node parent above : NodeId}
    (h : graph.parentOf? node = some parent) :
    graph.Below node above ↔ above = parent ∨ graph.Below parent above := by
  unfold Below
  rw [Relation.TransGen.head'_iff, ← Relation.reflTransGen_iff_eq_or_transGen]
  constructor
  · rintro ⟨found, hfound, habove⟩
    obtain rfl := Option.some.inj (hfound.symm.trans h)
    exact habove
  · exact fun habove => ⟨parent, h, habove⟩

/-! ## Where exits lead -/

/-- An exit leads to a sibling of its owner, and an entry admits to the node it is found at or is
also the entry of something under that node. -/
structure Enclosed (graph : Graph) : Prop where
  target : ∀ {exit entry}, graph.target? exit = some entry → ∃ owner composite taker,
    graph.exitOwner? exit = some owner ∧ graph.parentOf? owner = some composite ∧
      graph.parentOf? taker = some composite ∧ graph.entryOf? taker = some entry
  opens : ∀ {node entry}, graph.entryOf? node = some entry →
    graph.admitted? entry = some node ∨
      ∃ part, graph.parentOf? part = some node ∧ graph.entryOf? part = some entry

theorem Enclosed.empty : Enclosed ({} : Graph) := by
  constructor <;> simp [target?, exit?, entryOf?, node?]

theorem target?_of_exits_eq {graph graph' : Graph} (h : graph'.exits = graph.exits) :
    graph'.target? = graph.target? := by
  funext exit
  unfold target? exit?
  rw [h]

theorem entryOf?_setEntry_self {graph : Graph} {composite : NodeId}
    (h : graph.IsComposite composite) (entry : EntryId) :
    (graph.setEntry composite entry).entryOf? composite = some entry := by
  obtain ⟨record, hrecord, hacts⟩ := h
  unfold entryOf? setEntry
  rw [node?_modifyNode, if_pos rfl, hrecord]
  obtain ⟨_, _, _, _, kind⟩ := record
  cases kind with
  | composite => rfl
  | native => cases hacts
  | join => cases hacts

/-! ### What one step of a build does -/

namespace Construct

variable {graph graph' : Graph}

/-- A node that has a parent keeps it, and keeps its entry. -/
theorem placed (h : Construct graph graph') {node parent : NodeId}
    (hparent : graph.parentOf? node = some parent) :
    graph'.parentOf? node = some parent ∧ graph'.entryOf? node = graph.entryOf? node := by
  rcases h.shape with ⟨record, ports, hraises⟩ | ⟨composite, role, part, hloose, rfl⟩ |
      ⟨composite, entry, hloose, rfl⟩ | hsame
  · obtain ⟨found, hfound, _⟩ := Option.bind_eq_some_iff.mp hparent
    refine ⟨hraises.parentOf?_old hparent, ?_⟩
    unfold entryOf?
    rw [hraises.node?_old hfound, hfound]
  · exact ⟨parentOf?_adopt hloose hparent role, entryOf?_adopt graph role node⟩
  · -- The composite that exposes an entry has no parent
    have hne : node ≠ composite := by
      rintro rfl
      rw [hloose] at hparent
      cases hparent
    exact ⟨(parentOf?_setEntry graph composite entry node).trans hparent,
      entryOf?_setEntry_of_ne graph composite entry hne⟩
  -- The wirings leave the tree as it is
  · rw [hsame.parentOf?, hsame.entryOf?]
    exact ⟨hparent, rfl⟩

theorem exitOwner? (h : Construct graph graph') {exit : ExitId} {owner : NodeId}
    (howner : graph.exitOwner? exit = some owner) : graph'.exitOwner? exit = some owner := by
  rcases h.shape with ⟨record, ports, hraises⟩ | ⟨_, _, _, _, rfl⟩ | ⟨_, _, _, rfl⟩ | hsame
  · exact hraises.exitOwner_old howner
  · exact howner
  · exact howner
  · rw [hsame.exits]
    exact howner

theorem admitted? (h : Construct graph graph') {entry : EntryId} {node : NodeId}
    (hadmitted : graph.admitted? entry = some node) : graph'.admitted? entry = some node := by
  rcases h.shape with ⟨record, ports, hraises⟩ | ⟨_, _, _, _, rfl⟩ | ⟨_, _, _, rfl⟩ | hsame
  · exact hraises.admitted hadmitted
  · exact hadmitted
  · exact hadmitted
  · rw [hsame.admitted?]
    exact hadmitted

/-- Only a step that directs an exit gives it a target, and that is the entry of a sibling. -/
theorem target?_cases (h : Construct graph graph') {exit : ExitId} {entry : EntryId}
    (htarget : graph'.target? exit = some entry) :
    graph.target? exit = some entry ∨ ∃ owner composite taker,
      graph.exitOwner? exit = some owner ∧ graph.parentOf? owner = some composite ∧
        graph.parentOf? taker = some composite ∧ graph.entryOf? taker = some entry := by
  cases h with
  | native primitive specification traced =>
    rw [(graph.raises_addNative specification traced primitive).target] at htarget
    exact Or.inl htarget
  | composite specification inletCount exitCount traced =>
    rw [(graph.raises_addComposite specification traced inletCount exitCount).target] at htarget
    exact Or.inl htarget
  | adopt => exact Or.inl htarget
  -- Wirings of data leave the exits alone
  | @connect _ _ _ inlet outlet =>
    have hexits := congrArg Graph.exits (graph.bare_connect inlet outlet)
    exact Or.inl (target?_of_exits_eq hexits ▸ htarget)
  | @feed _ _ outer inner =>
    have hexits := congrArg Graph.exits (graph.bare_feed outer inner)
    exact Or.inl (target?_of_exits_eq hexits ▸ htarget)
  | @relay _ _ outer inner =>
    have hexits := congrArg Graph.exits (graph.bare_relay outer inner)
    exact Or.inl (target?_of_exits_eq hexits ▸ htarget)
  | @direct composite giver taker directed sibling _ hgiver htaker hexit hentry =>
    rw [target?_setTarget] at htarget
    split at htarget
    next hsame =>
      obtain ⟨_, _, hsibling⟩ := Option.bind_eq_some_iff.mp htarget
      obtain rfl := Option.some.inj hsibling
      exact Or.inr ⟨giver, composite, taker, hsame ▸ hexit, hgiver, htaker, hentry⟩
    next => exact Or.inl htarget
  | enter => exact Or.inl htarget

/-- What is found at a node afterwards was found there before, admits to it, or was found at
something under it. -/
theorem entryOf?_cases (h : Construct graph graph') {node : NodeId} {entry : EntryId}
    (hentry : graph'.entryOf? node = some entry) :
    graph.entryOf? node = some entry ∨ graph'.admitted? entry = some node ∨
      ∃ part, graph.parentOf? part = some node ∧ graph.entryOf? part = some entry := by
  -- A new node, and any of its joins, is what its own entry admits to
  have hraised {record : Node} {ports : Interface} (hraises : Raises graph graph' record ports) :
      graph.entryOf? node = some entry ∨ graph'.admitted? entry = some node := by
    obtain ⟨found, hfound, hsome⟩ := Option.bind_eq_some_iff.mp hentry
    rcases hraises.cases hfound with hold | ⟨rfl, rfl⟩ | hlater
    · exact Or.inl (Option.bind_eq_some_iff.mpr ⟨found, hold, hsome⟩)
    · refine Or.inr (hraises.entry entry ?_).2
      rw [← hsome, Node.entry?_of_interface? hraises.interface]
    · obtain ⟨_, _, _, hkind, _, _, hadmitted⟩ := hraises.join hlater hfound
      simp only [Node.entry?, hkind, Option.some.injEq] at hsome
      exact Or.inr (hsome ▸ hadmitted)
  cases h with
  | native primitive specification traced =>
    exact (hraised (graph.raises_addNative specification traced primitive)).imp_right Or.inl
  | composite specification inletCount exitCount traced =>
    exact (hraised (graph.raises_addComposite specification traced inletCount
      exitCount)).imp_right Or.inl
  -- The tree is untouched, and with it the entry
  | adopt role =>
    rw [entryOf?_adopt] at hentry
    exact Or.inl hentry
  | connect =>
    rw [(SameTree.connect graph _ _).entryOf?] at hentry
    exact Or.inl hentry
  | feed =>
    rw [(SameTree.feed graph _ _).entryOf?] at hentry
    exact Or.inl hentry
  | relay =>
    rw [(SameTree.relay graph _ _).entryOf?] at hentry
    exact Or.inl hentry
  | direct =>
    rw [(SameTree.setTarget graph _ _).entryOf?] at hentry
    exact Or.inl hentry
  | @enter composite part exposed hpending hpart hexposed =>
    -- The composite takes the entry of its part over
    by_cases hne : node = composite
    · subst hne
      rw [entryOf?_setEntry_self hpending.isComposite] at hentry
      obtain rfl := Option.some.inj hentry
      exact Or.inr (Or.inr ⟨part, hpart, hexposed⟩)
    · rw [entryOf?_setEntry_of_ne graph composite exposed hne] at hentry
      exact Or.inl hentry

/-- **Every step of a build keeps the token enclosed.** -/
theorem enclosed (h : Construct graph graph') (henclosed : graph.Enclosed) : graph'.Enclosed := by
  constructor
  case target =>
    intro exit entry htarget
    -- A target that is new has been directed inside one composite, an old one stays where it is
    obtain ⟨owner, composite, taker, howner, hgiver, htaker, hentry⟩ :=
      (h.target?_cases htarget).elim henclosed.target id
    refine ⟨owner, composite, taker, h.exitOwner? howner, (h.placed hgiver).1,
      (h.placed htaker).1, ?_⟩
    rw [(h.placed htaker).2]
    exact hentry
  case opens =>
    intro node entry hentry
    have hunder : (∃ part, graph.parentOf? part = some node ∧ graph.entryOf? part = some entry) →
        ∃ part, graph'.parentOf? part = some node ∧ graph'.entryOf? part = some entry := by
      rintro ⟨part, hpart, hexposed⟩
      exact ⟨part, (h.placed hpart).1, (h.placed hpart).2.trans hexposed⟩
    -- An entry is old, or admits the node itself, or is that of a part
    rcases h.entryOf?_cases hentry with hold | hadmitted | hexposed
    · exact (henclosed.opens hold).imp h.admitted? hunder
    · exact Or.inl hadmitted
    · exact Or.inr (hunder hexposed)

end Construct

/-- What holds of the tree and of the exits of every graph that is built. -/
theorem Constructs.enclosed {graph graph' : Graph} (h : Constructs graph graph')
    (henclosed : graph.Enclosed) : graph'.Enclosed := by
  induction h with
  | refl => exact henclosed
  | tail _ hstep ih => exact hstep.enclosed ih

/-! ## How entries are passed down -/

/-- An entry is passed down from a node to another: each node on the way has it for its entry and
the next one stands under it. -/
def PassesDown (graph : Graph) (entry : EntryId) : NodeId → NodeId → Prop :=
  Relation.ReflTransGen fun node part =>
    graph.parentOf? part = some node ∧ graph.entryOf? part = some entry

section

variable {graph : Graph} {entry : EntryId}

/-- **The entry of a node is passed down to the node that it admits to.**  Parts come after their
composites, so there is an end to it. -/
theorem Enclosed.exists_passesDown (h : graph.Enclosed) (hlineage : graph.Lineage) {node : NodeId}
    (hentry : graph.entryOf? node = some entry) :
    ∃ last, graph.PassesDown entry node last ∧ graph.admitted? entry = some last := by
  -- The number of nodes behind the node decreases from a composite to its part
  induction hroom : graph.nodes.size - node.index using Nat.strongRecOn generalizing node with
  | ind room ih =>
    rcases h.opens hentry with hadmitted | ⟨part, hpart, hexposed⟩
    · exact ⟨node, .refl, hadmitted⟩
    · have hlater := (hlineage.above hpart).1
      obtain ⟨record, hrecord, _⟩ := Option.bind_eq_some_iff.mp hpart
      have hsize : part.index < graph.nodes.size := (Array.getElem?_eq_some_iff.mp hrecord).1
      obtain ⟨last, hpasses, hadmitted⟩ :=
        ih (graph.nodes.size - part.index) (by omega) hexposed rfl
      exact ⟨last, .head ⟨hpart, hexposed⟩ hpasses, hadmitted⟩

/-- What is above the start is above the end. -/
theorem PassesDown.below_last {first last above : NodeId} (h : graph.PassesDown entry first last)
    (hbelow : graph.Below first above) : graph.Below last above := by
  induction h with
  | refl => exact hbelow
  | tail _ hlast ih => exact (below_iff hlast.1).mpr (Or.inr ih)

/-- An entry that is passed down comes past those nodes only that have it for their entry: what is
above its end is above its start or passes it on. -/
theorem PassesDown.below_first {first last above : NodeId} (h : graph.PassesDown entry first last)
    (hentry : graph.entryOf? first = some entry) (hbelow : graph.Below last above) :
    graph.Below first above ∨ graph.entryOf? above = some entry := by
  induction h with
  | refl => exact Or.inl hbelow
  | @tail node part hpasses hlast ih =>
    rcases (below_iff hlast.1).mp hbelow with rfl | hbelow
    · -- The node just before the end is the start, or it was passed the entry itself
      rcases Relation.ReflTransGen.cases_tail hpasses with rfl | ⟨_, _, hpassed⟩
      · exact Or.inr hentry
      · exact Or.inr hpassed.2
    · exact ih hbelow

end

end TokenNet.Graph
