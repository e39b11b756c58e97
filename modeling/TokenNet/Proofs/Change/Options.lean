import TokenNet.Network
import TokenNet.Proofs.Graph.Bare

/-!
# What the options of a build decide

Tracing marks the nodes of a build and changes nothing else; the limit on nesting only decides
whether there is a build at all.  A build that does not end by an abort is therefore known from one
with other options, once its nodes are unmarked.

## Main statements

- `Directive.resolve_untraced`: directives do not look at the marks.
- `Draft.grow_untraced`: growing a node with other options comes to the same graph.
- `Draft.grow_untraced_eq`: without the marks, growing a node is aborted for the same reason or comes
  to the same draft.
-/

namespace TokenNet

/-- A node without the mark of tracing. -/
def Node.untraced (record : Node) : Node := { record with traced := false }

namespace Graph

/-- A graph without the marks of tracing. -/
def untraced (graph : Graph) : Graph := { graph with nodes := graph.nodes.map Node.untraced }

/-! ## Reading -/

theorem size_nodes_untraced (graph : Graph) : graph.untraced.nodes.size = graph.nodes.size :=
  Array.size_map

theorem node?_untraced (graph : Graph) (node : NodeId) :
    graph.untraced.node? node = (graph.node? node).map Node.untraced :=
  Array.getElem?_map

theorem interface?_untraced (graph : Graph) : graph.untraced.interface? = graph.interface? := by
  funext node
  unfold interface?
  rw [node?_untraced]
  cases graph.node? node <;> rfl

theorem part?_untraced (graph : Graph) : graph.untraced.part? = graph.part? := by
  funext composite role
  unfold part?
  rw [node?_untraced]
  cases graph.node? composite <;> rfl

theorem entryOf?_untraced (graph : Graph) : graph.untraced.entryOf? = graph.entryOf? := by
  funext node
  unfold entryOf?
  rw [node?_untraced]
  cases graph.node? node <;> rfl

theorem relays_untraced (graph : Graph) : ∀ (bound : Nat) (outlet : OutletId),
    graph.untraced.relays bound outlet = graph.relays bound outlet
  | 0, _ => rfl
  | bound + 1, outlet => by
    have houtlet : graph.untraced.outlet? = graph.outlet? := rfl
    have hwired : graph.untraced.outletWired = graph.outletWired := rfl
    unfold relays
    simp only [houtlet, hwired, relays_untraced graph bound]

/-! ## Wiring -/

theorem untraced_modifyNode (graph : Graph) (node : NodeId) {change : Node → Node}
    (h : ∀ record, (change record).untraced = change record.untraced) :
    (graph.modifyNode node change).untraced = graph.untraced.modifyNode node change :=
  congrArg (fun nodes => ({ graph with nodes } : Graph)) (map_modify_comm graph.nodes node.index h)

theorem untraced_modifyInterface (graph : Graph) (node : NodeId) (change : Interface → Interface) :
    (graph.modifyNode node (Node.modifyInterface change)).untraced =
      graph.untraced.modifyNode node (Node.modifyInterface change) :=
  untraced_modifyNode graph node fun _ => rfl

theorem untraced_modifyCell (graph : Graph) (cell : CellId) (change : Cell → Cell) :
    (graph.modifyCell cell change).untraced = graph.untraced.modifyCell cell change := rfl

theorem untraced_markInlet (graph : Graph) (inlet : InletId) :
    (graph.markInlet inlet).untraced = graph.untraced.markInlet inlet := rfl

theorem untraced_assign (graph : Graph) (port : Port) (cell : Option CellId) :
    (graph.assign port cell).untraced = graph.untraced.assign port cell := by
  cases port <;> rfl

theorem untraced_merge (graph : Graph) (absorbed survivor : CellId) :
    (graph.merge absorbed survivor).untraced = graph.untraced.merge absorbed survivor := by
  cases hold : graph.cell? absorbed with
  | none =>
    have hold : graph.cells.get? absorbed = none := hold
    have hold' : graph.untraced.cells.get? absorbed = none := hold
    simp only [merge, Store.remove_eq, hold, hold', Option.map_none]
  | some old =>
    have hold' : graph.untraced.cell? absorbed = some old := hold
    rw [merge_eq hold, merge_eq hold', untraced_modifyCell]
    congr 1
    exact (List.foldl_hom untraced fun g member => (untraced_assign g member _).symm).symm

theorem untraced_connect (graph : Graph) (inlet : InletId) (outlet : OutletId) :
    (graph.connect inlet outlet).untraced = graph.untraced.connect inlet outlet := by
  have hinlet : graph.untraced.inletCell? inlet = graph.inletCell? inlet := rfl
  have houtlet : graph.untraced.outletCell? outlet = graph.outletCell? outlet := rfl
  -- The cells that the two pins show are the same with and without the tracing
  unfold connect unite
  rw [hinlet, houtlet, untraced_markInlet]
  cases graph.inletCell? inlet with
  | none => cases graph.outletCell? outlet <;> rfl
  | some a =>
    cases graph.outletCell? outlet with
    | none => rfl
    | some b =>
      dsimp only
      split
      · rfl
      · rw [untraced_merge]

theorem untraced_feed (graph : Graph) (outer inner : InletId) :
    (graph.feed outer inner).untraced = graph.untraced.feed outer inner := by
  have hinner : graph.untraced.inletCell? inner = graph.inletCell? inner := rfl
  unfold feed ensureInletCell
  rw [hinner]
  cases graph.inletCell? inner <;> rfl

theorem untraced_relay (graph : Graph) (outer inner : OutletId) :
    (graph.relay outer inner).untraced = graph.untraced.relay outer inner := by
  have houter : graph.untraced.outletCell? outer = graph.outletCell? outer := rfl
  unfold relay ensureOutletCell
  rw [houter]
  cases graph.outletCell? outer <;> rfl

/-! ## Growth -/

theorem untraced_addNode (graph : Graph) (record : Node) :
    graph.untraced.addNode record.untraced =
      ((graph.addNode record).1, (graph.addNode record).2.untraced) := by
  unfold addNode untraced
  rw [Array.size_map, Array.map_push]

theorem untraced_times {α : Type} {grow : Graph → α × Graph}
    (h : ∀ graph, grow graph.untraced = ((grow graph).1, (grow graph).2.untraced)) :
    ∀ (count : Nat) (graph : Graph), graph.untraced.times grow count =
      ((graph.times grow count).1, (graph.times grow count).2.untraced)
  | 0, _ => rfl
  | count + 1, graph => by
    simp only [times, h, untraced_times h count]

theorem untraced_forEach {α β : Type} {grow grow' : Graph → α → β × Graph}
    (h : ∀ graph a, grow' graph.untraced a = ((grow graph a).1, (grow graph a).2.untraced)) :
    ∀ (members : List α) (graph : Graph), forEach grow' members graph.untraced =
      ((forEach grow members graph).1, (forEach grow members graph).2.untraced)
  | [], _ => rfl
  | first :: rest, graph => by
    simp only [forEach, h, untraced_forEach h rest]

theorem untraced_addJoin (composite : NodeId) (specification : String) (traced : Bool)
    (graph : Graph) (exit : ExitId) : addJoin composite specification false graph.untraced exit =
      ((addJoin composite specification traced graph exit).1,
        (addJoin composite specification traced graph exit).2.untraced) := by
  have hentry : ∀ (g : Graph) (owner : NodeId),
      g.untraced.addEntry owner = ((g.addEntry owner).1, (g.addEntry owner).2.untraced) :=
    fun _ _ => rfl
  unfold addJoin
  simp only [size_nodes_untraced, hentry]
  exact untraced_addNode _ ⟨specification, some composite, none, traced, .join _ exit⟩

/-- A native node is the same but for the mark. -/
theorem untraced_addNative (graph : Graph) (primitive : Primitive) (specification : String)
    (traced : Bool) : graph.untraced.addNative primitive specification false =
      ((graph.addNative primitive specification traced).1,
        (graph.addNative primitive specification traced).2.untraced) := by
  -- Each piece of the node is added alike, for tracing is no part of it
  have hinlets := fun owner => @untraced_times _ (addOwnInlet owner) fun _ => rfl
  have houtlet : ∀ (g : Graph) (owner : NodeId), addOwnOutlet owner g.untraced =
      ((addOwnOutlet owner g).1, (addOwnOutlet owner g).2.untraced) := fun _ _ => rfl
  have hmark : ∀ (g : Graph) (outlet : OutletId) (change : Outlet → Outlet),
      g.untraced.modifyOutlet outlet change = (g.modifyOutlet outlet change).untraced :=
    fun _ _ _ => rfl
  have hentry : ∀ (g : Graph) (owner : NodeId),
      g.untraced.addEntry owner = ((g.addEntry owner).1, (g.addEntry owner).2.untraced) :=
    fun _ _ => rfl
  have hexits := fun owner => @untraced_times _ (fun g => g.addExit owner) fun _ => rfl
  unfold addNative
  simp only [size_nodes_untraced, hinlets, houtlet, hmark, hentry, hexits]
  exact untraced_addNode _ ⟨specification, none, none, traced, .native primitive _⟩

/-- A composite without parts is the same but for the marks. -/
theorem untraced_addComposite (graph : Graph) (specification : String)
    (inletCount exitCount : Nat) (traced : Bool) :
    graph.untraced.addComposite specification inletCount exitCount false =
      ((graph.addComposite specification inletCount exitCount traced).1,
        (graph.addComposite specification inletCount exitCount traced).2.untraced) := by
  -- Each piece of the node is added alike; only the node itself says whether it is traced
  have hinlets := fun owner => @untraced_times _ (fun g => g.addInlet owner) fun _ => rfl
  have houtlet : ∀ (g : Graph) (owner : NodeId), addOwnOutlet owner g.untraced =
      ((addOwnOutlet owner g).1, (addOwnOutlet owner g).2.untraced) := fun _ _ => rfl
  have hexits := fun owner => @untraced_times _ (fun g => g.addExit owner) fun _ => rfl
  have hnode : ∀ (g : Graph) (ports : Interface),
      g.untraced.addNode ⟨specification, none, none, false, .composite ports {}⟩ =
        ((g.addNode ⟨specification, none, none, traced, .composite ports {}⟩).1,
          (g.addNode ⟨specification, none, none, traced, .composite ports {}⟩).2.untraced) :=
    fun g ports => untraced_addNode g ⟨specification, none, none, traced, .composite ports {}⟩
  have hjoins := fun node => untraced_forEach (untraced_addJoin node specification traced)
  unfold addComposite
  simp only [size_nodes_untraced, hinlets, houtlet, hexits, hnode, hjoins,
    untraced_modifyInterface]

theorem untraced_adopt (graph : Graph) (composite : NodeId) (role : String) (part : NodeId) :
    (graph.adopt composite role part).untraced = graph.untraced.adopt composite role part := by
  unfold adopt
  rw [untraced_modifyNode, untraced_modifyNode] <;> exact fun _ => rfl

end Graph

/-! ## Directives -/

theorem Rewiring.untraced_apply (graph : Graph) (rewiring : Rewiring) :
    (rewiring.apply graph).untraced = rewiring.apply graph.untraced := by
  cases rewiring with
  | connect inlet outlet => exact graph.untraced_connect inlet outlet
  | direct exit entry => rfl
  | feed outer inner => exact graph.untraced_feed outer inner
  | relay outer inner => exact graph.untraced_relay outer inner
  | enter composite entry => exact graph.untraced_modifyInterface composite _

theorem Rewiring.notices_untraced (graph : Graph) (rewiring : Rewiring) :
    rewiring.notices graph.untraced = rewiring.notices graph := by
  cases rewiring <;> rfl

/-- **Directives do not look at the marks.** -/
theorem Directive.resolve_untraced (graph : Graph) (composite : NodeId) (name : String)
    (directive : Directive) :
    directive.resolve graph.untraced composite name = directive.resolve graph composite name := by
  cases directive <;>
    simp only [resolve, findPart, inletsOf, exitsOf, joinEntriesOf, findEntry,
      Graph.part?_untraced, Graph.interface?_untraced, Graph.entryOf?_untraced]

/-! ## Drafts -/

namespace Draft

/-- A draft without the marks of tracing. -/
def untraced (draft : Draft) : Draft := { draft with graph := draft.graph.untraced }

theorem untraced_rewire (draft : Draft) (composite : NodeId) (name : String)
    (directive : Directive) : (draft.rewire composite name directive).untraced =
      draft.untraced.rewire composite name directive := by
  have hresolve := Directive.resolve_untraced draft.graph composite name directive
  unfold rewire
  rw [show draft.untraced.graph = draft.graph.untraced from rfl, hresolve]
  -- The directive resolves alike, and its issues or its rewiring are carried out alike
  cases directive.resolve draft.graph composite name with
  | error issues => exact (List.foldl_hom untraced fun _ _ => rfl).symm
  | ok rewiring =>
    cases rewiring with
    | none => rfl
    | some rewiring =>
      unfold untraced
      simp only [Rewiring.untraced_apply, Rewiring.notices_untraced]

theorem untraced_adopt (draft : Draft) (composite : NodeId) (name role : String)
    (part : NodeId) : (draft.adopt composite name role part).untraced =
      draft.untraced.adopt composite name role part := by
  have hpart := congrFun (congrFun draft.graph.part?_untraced composite) role
  unfold adopt
  rw [show draft.untraced.graph = draft.graph.untraced from rfl, hpart]
  unfold untraced
  rw [← Graph.untraced_adopt]
  dsimp only
  split <;> rfl

/-- A way of growing parts comes to the same as another, wherever this one succeeds. -/
def Agrees (growPart growPart' : Grow) : Prop :=
  ∀ spec draft node grown, growPart spec draft = .ok (node, grown) →
    growPart' spec draft.untraced = .ok (node, grown.untraced)

theorem replay_untraced {library : Library} {growPart growPart' : Grow}
    (h : Agrees growPart growPart') {composite : NodeId} {name : String} {directive : Directive}
    {draft draft' : Draft}
    (hreplay : replay library growPart composite name draft directive = .ok draft') :
    replay library growPart' composite name draft.untraced directive = .ok draft'.untraced := by
  unfold replay at hreplay ⊢
  cases directive with
  | part specification role =>
    dsimp only at hreplay ⊢
    cases hspec : library.get? specification with
    -- A part that is unknown or empty is skipped in both builds
    | none =>
      simp only [hspec] at hreplay ⊢
      exact congrArg Except.ok (congrArg untraced (Except.ok.inj hreplay))
    | some spec =>
      simp only [hspec] at hreplay ⊢
      split at hreplay
      next hempty =>
        rw [if_pos hempty]
        exact congrArg Except.ok (congrArg untraced (Except.ok.inj hreplay))
      next hsome =>
        rw [if_neg hsome]
        -- The part grows alike, and is taken in alike
        cases hgrow : growPart spec draft with
        | error failure => simp [hgrow] at hreplay
        | ok grown =>
          simp only [hgrow, h _ _ _ _ hgrow] at hreplay ⊢
          rw [← untraced_adopt]
          exact congrArg Except.ok (congrArg untraced (Except.ok.inj hreplay))
  | _ =>
    rw [← Except.ok.inj hreplay, untraced_rewire]

theorem replayAll_untraced {library : Library} {growPart growPart' : Grow}
    (h : Agrees growPart growPart') {composite : NodeId} {name : String} :
    ∀ (log : List Directive) {draft draft' : Draft},
    replayAll library growPart composite name log draft = .ok draft' →
    replayAll library growPart' composite name log draft.untraced = .ok draft'.untraced
  | [], _, _, hreplay => congrArg Except.ok (congrArg untraced (Except.ok.inj hreplay))
  | directive :: rest, draft, draft', hreplay => by
    unfold replayAll at hreplay ⊢
    cases hfirst : replay library growPart composite name draft directive with
    | error failure => simp [hfirst] at hreplay
    | ok replayed =>
      simp only [hfirst, replay_untraced h hfirst] at hreplay ⊢
      exact replayAll_untraced h rest hreplay

/-- **Growing a node with other options comes to the same graph but for the marks**, if as many
levels may be nested. -/
theorem grow_untraced {library : Library} {traced : Bool} {limit : Nat} (limit' : Nat) :
    ∀ (levels : Nat) {levels' index : Nat}, levels ≤ levels' →
    Agrees (fun spec draft => grow library traced limit levels spec index draft)
      fun spec draft => grow library false limit' levels' spec index draft
  | 0, _, _, _, _, _, _, _, h => by
    simp [grow] at h
  | levels + 1, 0, _, hle, _, _, _, _, _ => by
    omega
  | levels + 1, levels' + 1, index, hle, spec, draft, node, draft', h => by
    simp only [grow] at h ⊢
    cases himpl : spec.implementation index with
    | error refusal => simp [himpl] at h
    | ok implementation =>
      cases implementation with
      | native primitive =>
        simp only [himpl] at h ⊢
        obtain ⟨rfl, rfl⟩ := Prod.mk.inj (Except.ok.inj h)
        have hnative := draft.graph.untraced_addNative primitive spec.identifier traced
        simp only [untraced, hnative]
      | blueprint blueprint =>
        simp only [himpl] at h ⊢
        have hframe :=
          draft.graph.untraced_addComposite spec.identifier spec.inletCount spec.exitCount traced
        -- The parts are grown with one level less on both sides
        have hrest := @grow_untraced library traced limit limit' levels levels' 0
          (Nat.le_of_succ_le_succ hle)
        split at h
        next => simp at h
        next replayed hreplay =>
          obtain ⟨rfl, rfl⟩ := Prod.mk.inj (Except.ok.inj h)
          have hreplay' := replayAll_untraced hrest _ hreplay
          simp only [untraced] at hreplay' ⊢
          simp only [hframe, hreplay']

/-! ## Aborted drafts -/

/-- A way of growing parts is aborted like another, wherever this one is. -/
def Aborts (growPart growPart' : Grow) : Prop :=
  ∀ spec draft failure, growPart spec draft = .error failure →
    growPart' spec draft.untraced = .error failure

theorem replay_untraced_of_error {library : Library} {growPart growPart' : Grow}
    (h : Aborts growPart growPart') {composite : NodeId} {name : String} {directive : Directive}
    {draft : Draft} {failure : BuildFailure}
    (hreplay : replay library growPart composite name draft directive = .error failure) :
    replay library growPart' composite name draft.untraced directive = .error failure := by
  unfold replay at hreplay ⊢
  cases directive with
  | part specification role =>
    dsimp only at hreplay ⊢
    -- Only a part that is grown can abort a replay
    cases hspec : library.get? specification with
    | none => simp [hspec] at hreplay
    | some spec =>
      simp only [hspec] at hreplay ⊢
      split at hreplay
      next => cases hreplay
      next hsome =>
        rw [if_neg hsome]
        cases hgrow : growPart spec draft with
        | error reason =>
          simp only [hgrow, h _ _ _ hgrow] at hreplay ⊢
          exact hreplay
        | ok grown => simp [hgrow] at hreplay
  | _ => cases hreplay

theorem replayAll_untraced_of_error {library : Library} {growPart growPart' : Grow}
    (hagrees : Agrees growPart growPart') (haborts : Aborts growPart growPart')
    {composite : NodeId} {name : String} {log : List Directive} {draft : Draft}
    {failure : BuildFailure}
    (hreplay : replayAll library growPart composite name log draft = .error failure) :
    replayAll library growPart' composite name log draft.untraced = .error failure := by
  induction log generalizing draft with
  | nil => cases hreplay
  | cons directive rest ih =>
    unfold replayAll at hreplay ⊢
    -- The first directive may abort, or one of the rest
    cases hfirst : replay library growPart composite name draft directive with
    | error reason =>
      simp only [hfirst, replay_untraced_of_error haborts hfirst] at hreplay ⊢
      exact hreplay
    | ok replayed =>
      simp only [hfirst, replay_untraced hagrees hfirst] at hreplay ⊢
      exact ih hreplay

/-- **Where growing a node is aborted, it is aborted without the marks as well.** -/
theorem grow_untraced_of_error {library : Library} {traced : Bool} {limit levels index : Nat} :
    Aborts (fun spec draft => grow library traced limit levels spec index draft)
      fun spec draft => grow library false limit levels spec index draft := by
  induction levels generalizing index with
  | zero =>
    intro spec draft failure h
    exact h
  | succ levels ih =>
    intro spec draft failure h
    simp only [grow] at h ⊢
    cases himpl : spec.implementation index with
    | error refusal =>
      simp only [himpl] at h ⊢
      exact h
    | ok implementation =>
      cases implementation with
      | native primitive =>
        simp only [himpl] at h
        cases h
      | blueprint blueprint =>
        simp only [himpl] at h ⊢
        have hframe :=
          draft.graph.untraced_addComposite spec.identifier spec.inletCount spec.exitCount traced
        split at h
        next reason hreplay =>
          -- The replay is aborted in one of the parts, so the induction applies to that part
          have hreplay' :=
            replayAll_untraced_of_error (grow_untraced limit levels (Nat.le_refl levels)) ih hreplay
          simp only [untraced] at hreplay' ⊢
          simp only [hframe, hreplay']
          exact h
        next => cases h

/-- **Growing a node without the marks ends as growing it with them does.** -/
theorem grow_untraced_eq (library : Library) (traced : Bool) (limit levels : Nat)
    (spec : Specification) (index : Nat) (draft : Draft) :
    grow library false limit levels spec index draft.untraced =
      (grow library traced limit levels spec index draft).map fun (node, grown) =>
        (node, grown.untraced) := by
  cases hgrow : grow library traced limit levels spec index draft with
  | error failure => exact grow_untraced_of_error spec draft failure hgrow
  | ok grown => exact grow_untraced limit levels (Nat.le_refl levels) spec draft _ _ hgrow

end Draft

end TokenNet
