import TokenNet.Build
import TokenNet.Proofs.Change.Basic

/-!
# Builds change graphs

A build adds nodes and rewires them.  Whatever a directive resolves to names handles that the graph
has issued, so a build is a sequence of changes that begins with the empty graph.

## Main statements

- `Directive.issued_of_resolve`: a directive resolves to issued handles only.
- `Draft.leads_of_grow`: growing a node is a sequence of changes.
- `Library.leads_of_build`: so is a build, which leaves a root that can be used.
-/

namespace TokenNet

theorem Except.bind_eq_ok_iff {ε α β : Type} {x : Except ε α} {f : α → Except ε β} {b : β} :
    (x >>= f) = .ok b ↔ ∃ a, x = .ok a ∧ f a = .ok b := by
  cases x <;> simp [bind, Except.bind]

/-! ## Rewirings -/

namespace Rewiring

/-- The ports and entries that a rewiring names are issued. -/
def Issued (graph : Graph) : Rewiring → Prop
  | connect inlet outlet => graph.HasPort (.inlet inlet) ∧ graph.HasPort (.outlet outlet)
  | direct _ entry => graph.HasEntry entry
  | feed outer inner => graph.HasPort (.inlet outer) ∧ graph.HasPort (.inlet inner)
  | relay outer inner => graph.HasPort (.outlet outer) ∧ graph.HasPort (.outlet inner)
  | enter _ entry => graph.HasEntry entry

/-- A rewiring is a change. -/
theorem change_apply {graph : Graph} {rewiring : Rewiring} (h : rewiring.Issued graph) :
    graph.Change (rewiring.apply graph) := by
  cases rewiring with
  | connect inlet outlet => exact .connect graph h.1 h.2
  | direct exit entry =>
    refine .target graph exit fun other hother => ?_
    rw [Option.some.injEq] at hother
    exact hother ▸ h
  | feed outer inner => exact .feed graph outer h.2
  | relay outer inner => exact .relay graph inner h.1
  | enter composite entry => exact .entry graph composite h

end Rewiring

/-! ## Resolution -/

namespace Directive

variable {graph : Graph} {composite node : NodeId} {name role : String}

theorem both_eq_ok {α β : Type} {first : Lookup α} {second : Lookup β}
    {pair : α × β} : both first second = .ok pair ↔
      first = .ok pair.1 ∧ second = .ok pair.2 := by
  obtain ⟨a, b⟩ := pair
  cases first <;> cases second <;> simp [both]

theorem part?_of_findPart (h : findPart graph composite name role = .ok node) :
    graph.part? composite role = some node := by
  unfold findPart at h
  split at h
  next found hfound => exact hfound.trans (congrArg some (Except.ok.inj h))
  next => cases h

theorem mem_of_findPort {α : Type} {ports : List α} {owner : Option String} {port : PortKind}
    {index : Nat} {found : α} (h : findPort ports name owner port index = .ok found) :
    found ∈ ports := by
  unfold findPort at h
  split at h
  next hport => exact Except.ok.inj h ▸ List.mem_of_getElem? hport
  next => simp at h

theorem entryOf?_of_findEntry {entry : EntryId} (h : findEntry graph name role node = .ok entry) :
    graph.entryOf? node = some entry := by
  unfold findEntry at h
  split at h
  next hentry => exact hentry.trans (congrArg some (Except.ok.inj h))
  next => simp at h

theorem interface?_of_mem_inletsOf {inlet : InletId} (h : inlet ∈ inletsOf graph node) :
    ∃ ports, graph.interface? node = some ports ∧ inlet ∈ ports.inlets := by
  unfold inletsOf at h
  cases hports : graph.interface? node with
  | none => simp [hports] at h
  | some ports => exact ⟨ports, rfl, by simpa [hports] using h⟩

theorem interface?_of_mem_exitsOf {exit : ExitId} (h : exit ∈ exitsOf graph node) :
    ∃ ports, graph.interface? node = some ports ∧ exit ∈ ports.exits := by
  unfold exitsOf at h
  cases hports : graph.interface? node with
  | none => simp [hports] at h
  | some ports => exact ⟨ports, rfl, by simpa [hports] using h⟩

theorem interface?_of_mem_joinEntriesOf {entry : EntryId}
    (h : entry ∈ joinEntriesOf graph composite) : ∃ ports join,
      graph.interface? composite = some ports ∧ join ∈ ports.joins ∧
        graph.entryOf? join = some entry := by
  obtain ⟨join, hjoin, hentry⟩ := List.mem_filterMap.mp h
  cases hports : graph.interface? composite with
  | none => simp [hports] at hjoin
  | some ports => exact ⟨ports, join, rfl, by simpa [hports] using hjoin, hentry⟩

theorem hasPort_of_mem_inletsOf (hclosed : graph.Closed) {inlet : InletId}
    (h : inlet ∈ inletsOf graph node) : graph.HasPort (.inlet inlet) := by
  obtain ⟨ports, hports, hmem⟩ := interface?_of_mem_inletsOf h
  exact (hclosed.knows hports).inlets inlet hmem

theorem hasEntry_of_mem_joinEntriesOf (hclosed : graph.Closed) {entry : EntryId}
    (h : entry ∈ joinEntriesOf graph composite) : graph.HasEntry entry := by
  obtain ⟨_, _, _, _, hentry⟩ := interface?_of_mem_joinEntriesOf h
  exact hclosed.hasEntry_of_entryOf? hentry

/-- **A directive resolves to issued handles**: they all come from records of the graph. -/
theorem issued_of_resolve (hclosed : graph.Closed) {directive : Directive} {rewiring : Rewiring}
    (h : directive.resolve graph composite name = .ok (some rewiring)) :
    rewiring.Issued graph := by
  -- Ports are found in interfaces and entries in records, and a closed graph knows both
  cases directive with
  | part => simp [resolve, pure, Except.pure] at h
  | dataFlow source target index =>
    obtain ⟨⟨giver, taker⟩, _, h⟩ := Except.bind_eq_ok_iff.mp h
    obtain ⟨inlet, hinlet, h⟩ := Except.bind_eq_ok_iff.mp h
    obtain ⟨ports, hports, rfl⟩ := Option.map_eq_some_iff.mp (Except.ok.inj h)
    exact ⟨hasPort_of_mem_inletsOf hclosed (mem_of_findPort hinlet), (hclosed.knows hports).outlet⟩
  | controlFlow source index target =>
    obtain ⟨⟨giver, taker⟩, _, h⟩ := Except.bind_eq_ok_iff.mp h
    obtain ⟨exit, _, h⟩ := Except.bind_eq_ok_iff.mp h
    obtain ⟨entry, hentry, h⟩ := Except.bind_eq_ok_iff.mp h
    obtain rfl := Option.some.inj (Except.ok.inj h)
    exact hclosed.hasEntry_of_entryOf? (entryOf?_of_findEntry hentry)
  | exposeInlet role index external =>
    obtain ⟨node, _, h⟩ := Except.bind_eq_ok_iff.mp h
    obtain ⟨inner, hinner, h⟩ := Except.bind_eq_ok_iff.mp h
    obtain ⟨outer, houter, h⟩ := Except.bind_eq_ok_iff.mp h
    obtain rfl := Option.some.inj (Except.ok.inj h)
    exact ⟨hasPort_of_mem_inletsOf hclosed (mem_of_findPort houter),
      hasPort_of_mem_inletsOf hclosed (mem_of_findPort hinner)⟩
  | exposeOutlet role =>
    obtain ⟨node, _, h⟩ := Except.bind_eq_ok_iff.mp h
    obtain ⟨outer, houter, h⟩ := Option.bind_eq_some_iff.mp (Except.ok.inj h)
    obtain ⟨inner, hinner, h⟩ := Option.bind_eq_some_iff.mp h
    obtain rfl := Option.some.inj h
    exact ⟨(hclosed.knows houter).outlet, (hclosed.knows hinner).outlet⟩
  -- The exit of the part has been looked up too, but only the target needs to be known
  | exposeExit role index external =>
    obtain ⟨node, _, h⟩ := Except.bind_eq_ok_iff.mp h
    obtain ⟨exit, _, h⟩ := Except.bind_eq_ok_iff.mp h
    obtain ⟨entry, hentry, h⟩ := Except.bind_eq_ok_iff.mp h
    obtain rfl := Option.some.inj (Except.ok.inj h)
    exact hasEntry_of_mem_joinEntriesOf hclosed (mem_of_findPort hentry)
  | exposeEntry role =>
    obtain ⟨node, _, h⟩ := Except.bind_eq_ok_iff.mp h
    obtain ⟨entry, hentry, h⟩ := Except.bind_eq_ok_iff.mp h
    obtain rfl := Option.some.inj (Except.ok.inj h)
    exact hclosed.hasEntry_of_entryOf? (entryOf?_of_findEntry hentry)

end Directive

/-! ## Drafts -/

namespace Draft

theorem graph_foldl_skip (issues : List Issue) (draft : Draft) :
    (issues.foldl skip draft).graph = draft.graph := by
  induction issues generalizing draft with
  | nil => rfl
  | cons first rest ih => exact ih (draft.skip first)

theorem leads_rewire {draft : Draft} (hclosed : draft.graph.Closed) (composite : NodeId)
    (name : String) (directive : Directive) :
    draft.graph.Leads (draft.rewire composite name directive).graph := by
  unfold rewire
  split
  next => rw [graph_foldl_skip]
  next => exact .refl
  next rewiring hresolve =>
    exact .single (Rewiring.change_apply (Directive.issued_of_resolve hclosed hresolve))

theorem graph_adopt (draft : Draft) (composite : NodeId) (name role : String) (part : NodeId) :
    (draft.adopt composite name role part).graph = draft.graph.adopt composite role part := by
  unfold adopt
  dsimp only
  split <;> rfl

theorem leads_adopt (draft : Draft) (composite : NodeId) (name role : String) {part : NodeId}
    (hpart : draft.graph.Hosts part) :
    draft.graph.Leads (draft.adopt composite name role part).graph := by
  rw [graph_adopt]
  exact .single (.adopt draft.graph composite role hpart)

/-- Growing a part changes the graph and yields a node that can be a part. -/
def Grows (growPart : Grow) : Prop :=
  ∀ spec draft node draft', draft.graph.Closed → growPart spec draft = .ok (node, draft') →
    draft.graph.Leads draft'.graph ∧ draft'.graph.Hosts node

theorem leads_replay {library : Library} {growPart : Grow} (hgrow : Grows growPart)
    {composite : NodeId} {name : String} {directive : Directive} {draft draft' : Draft}
    (hclosed : draft.graph.Closed)
    (h : replay library growPart composite name draft directive = .ok draft') :
    draft.graph.Leads draft'.graph := by
  unfold replay at h
  split at h
  next specification role =>
    split at h
    next => exact Except.ok.inj h ▸ .refl
    -- Only here is a part grown and taken in
    next spec _ =>
      split at h
      next => exact Except.ok.inj h ▸ .refl
      next =>
        split at h
        next => simp at h
        next part grown hgrown =>
          obtain ⟨hleads, hhosts⟩ := hgrow spec draft part grown hclosed hgrown
          exact Except.ok.inj h ▸ hleads.trans (leads_adopt grown composite name role hhosts)
  next => exact Except.ok.inj h ▸ leads_rewire hclosed composite name _

theorem leads_replayAll {library : Library} {growPart : Grow} (hgrow : Grows growPart)
    {composite : NodeId} {name : String} :
    ∀ (log : List Directive) {draft draft' : Draft}, draft.graph.Closed →
    replayAll library growPart composite name log draft = .ok draft' →
    draft.graph.Leads draft'.graph
  | [], _, _, _, h => Except.ok.inj h ▸ .refl
  | directive :: rest, draft, draft', hclosed, h => by
    unfold replayAll at h
    split at h
    next => simp at h
    next replayed hreplay =>
      have hfirst := leads_replay hgrow hclosed hreplay
      exact hfirst.trans (leads_replayAll hgrow rest (hfirst.closed hclosed) h)

/-- **Growing a node is a sequence of changes**, by induction on the levels that may be nested. -/
theorem leads_of_grow {library : Library} {traced : Bool} {limit : Nat} :
    ∀ (levels : Nat) {index : Nat},
    Grows fun spec draft => grow library traced limit levels spec index draft
  | 0, _, _, _, _, _, _, h => by simp [grow] at h
  | levels + 1, index, spec, draft, node, draft', hclosed, h => by
    simp only [grow] at h
    split at h
    next => simp at h
    next primitive _ =>
      obtain ⟨rfl, rfl⟩ := Prod.mk.inj (Except.ok.inj h)
      exact ⟨.single (.native draft.graph primitive spec.identifier traced),
        (hclosed.addNative primitive spec.identifier traced).2.2⟩
    next blueprint _ =>
      split at h
      next => simp at h
      next replayed hreplay =>
        obtain ⟨rfl, rfl⟩ := Prod.mk.inj (Except.ok.inj h)
        obtain ⟨hframe, _, hhosts⟩ :=
          hclosed.addComposite spec.identifier spec.inletCount spec.exitCount traced
        -- The frame of the composite stands before its log is replayed, one level further down
        have hrest := leads_replayAll (leads_of_grow levels) _ hframe hreplay
        exact ⟨.trans (.single (.composite _ _ _ _ _)) hrest, (hrest.extends hframe).hosts hhosts⟩

end Draft

/-- **A build is a sequence of changes** that begins with the empty graph. -/
theorem Library.leads_of_build {library : Library} {identifier : String} {index nestingLimit : Nat}
    {traced : Bool} {root : NodeId} {draft : Draft}
    (h : library.build identifier index nestingLimit traced = .ok (root, draft)) :
    Graph.Leads {} draft.graph ∧ draft.graph.Hosts root := by
  unfold build at h
  split at h
  next => simp at h
  next spec _ => exact Draft.leads_of_grow (nestingLimit + 1) spec {} root draft .empty h

end TokenNet
