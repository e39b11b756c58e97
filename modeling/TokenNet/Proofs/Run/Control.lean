import Mathlib.Algebra.BigOperators.Group.List.Basic
import Mathlib.Algebra.GroupWithZero.Nat
import TokenNet.Proofs.Change.Basic
import TokenNet.Run

/-!
# The control graph

The control graph of a graph says where the token may go: an edge leads from a node that acts to
the node behind the target of one of its exits.  Firings leave it alone.  All that a firing changes
besides values is what one bit remembers, and a bit that fires is one call nearer to the call limit.

## Main statements

- `Graph.Hands`: the edges of the control graph.
- `Graph.Fires`, `Graph.fires_of_fire`: all that a firing can do to the control graph and to the
  counted calls.
- `Graph.Fires.sameControl`: it keeps the control graph.
- `Graph.Fires.allowance_lt`: a bit that fires uses up one of the calls that it is allowed.
-/

namespace TokenNet

/-! ## Counted calls -/

/-- The counter of calls stays at its largest value. -/
theorem Interface.toNat_calls_countCall (ports : Interface) :
    ports.countCall.calls.toNat = min (ports.calls.toNat + 1) (2 ^ 32 - 1) := by
  have hlt := ports.calls.toNat_lt
  have hadd : (ports.calls + 1).toNat = (ports.calls.toNat + 1) % 2 ^ 32 :=
    UInt32.toNat_add _ _
  unfold Interface.countCall
  dsimp only
  -- The counter stays where adding one would wrap it
  split
  next hzero =>
    rw [hzero] at hadd
    change 0 = _ at hadd
    omega
  next hsome =>
    have hne : (ports.calls + 1).toNat ≠ 0 := fun hsame => hsome (UInt32.toNat_inj.mp hsame)
    omega

/-- A counted call reaches the limit just when the number of calls does. -/
theorem Graph.callsExhausted_iff (ports : Interface) (limit : UInt32) :
    Graph.callsExhausted ports limit = true ↔ limit.toNat ≤ ports.calls.toNat + 1 := by
  have hlt := limit.toNat_lt
  unfold Graph.callsExhausted
  rw [decide_eq_true_eq, UInt32.le_iff_toNat_le, Interface.toNat_calls_countCall]
  omega

/-! ## Nodes -/

namespace Node

/-- Whether a node is a bit. -/
def isBit (record : Node) : Bool :=
  match record.kind with
  | .native .bit _ => true
  | _ => false

/-- The exits that a node can fire. -/
def ways (record : Node) : List ExitId :=
  match record.kind with
  | .native _ ports => ports.exits
  | .join _ exit => [exit]
  | .composite .. => []

/-- How many more calls of a node may be counted: those of a bit, up to the call limit. -/
def allowance (callLimit : UInt32) (record : Node) : Nat :=
  match record.kind with
  | .native .bit ports => callLimit.toNat - ports.calls.toNat
  | _ => 0

@[simp] theorem isBit_form (record : Node) : record.form.isBit = record.isBit := by
  obtain ⟨_, _, _, _, kind⟩ := record
  cases kind with
  | native primitive => cases primitive <;> rfl
  | _ => rfl

@[simp] theorem ways_form (record : Node) : record.form.ways = record.ways := by
  obtain ⟨_, _, _, _, kind⟩ := record
  cases kind <;> rfl

theorem acts_of_mem_ways {record : Node} {exit : ExitId} (h : exit ∈ record.ways) :
    record.acts = true := by
  obtain ⟨_, _, _, _, kind⟩ := record
  cases kind with
  | composite => simp [ways] at h
  | _ => rfl

theorem allowance_le (callLimit : UInt32) (record : Node) :
    record.allowance callLimit ≤ if record.isBit then callLimit.toNat else 0 := by
  obtain ⟨_, _, _, _, kind⟩ := record
  cases kind with
  | native primitive => cases primitive <;> simp [allowance, isBit]
  | _ => simp [allowance, isBit]

end Node

namespace Graph

/-! ## Edges and cycles -/

/-- An edge of the control graph: the first node can fire an exit that hands the token to an entry
of the second. -/
def Hands (graph : Graph) (giver taker : NodeId) : Prop :=
  ∃ record exit entry, graph.node? giver = some record ∧ exit ∈ record.ways ∧
    graph.target? exit = some entry ∧ graph.admitted? entry = some taker

/-- Whether a node is a bit. -/
def IsBit (graph : Graph) (node : NodeId) : Prop :=
  ∃ record, graph.node? node = some record ∧ record.isBit = true

instance (graph : Graph) (node : NodeId) : Decidable (graph.IsBit node) :=
  decidable_of_iff ((graph.node? node).any Node.isBit = true) (by simp [IsBit, Option.any_eq_true])

/-- Every cycle of the control graph passes through a bit.  A cycle is a walk along edges from a
node back to it that meets no node twice on its way. -/
def Guarded (graph : Graph) : Prop :=
  ∀ first rest, (first :: rest).Nodup → List.IsChain graph.Hands (first :: rest ++ [first]) →
    ∃ node ∈ first :: rest, graph.IsBit node

/-- The nodes to which a node can hand the token. -/
def takers (graph : Graph) (record : Node) : List NodeId :=
  record.ways.filterMap fun exit => (graph.target? exit).bind graph.admitted?

/-- The edges of the control graph, one after another. -/
def edges (graph : Graph) : List (NodeId × NodeId) :=
  graph.nodes.toList.zipIdx.flatMap fun (record, index) =>
    (graph.takers record).map fun taker => (⟨index⟩, taker)

/-- The edges are all there are. -/
theorem mem_edges_iff {graph : Graph} {giver taker : NodeId} :
    (giver, taker) ∈ graph.edges ↔ graph.Hands giver taker := by
  constructor
  -- An edge is a node with one of its exits, directed at an entry that admits the other node
  · intro hmem
    obtain ⟨⟨record, index⟩, hrecord, htaker⟩ := List.mem_flatMap.mp hmem
    obtain ⟨_, hfound, hsame⟩ := List.mem_map.mp htaker
    obtain ⟨rfl, rfl⟩ := Prod.mk.inj hsame
    obtain ⟨exit, hexit, htarget⟩ := List.mem_filterMap.mp hfound
    obtain ⟨entry, htarget, hadmitted⟩ := Option.bind_eq_some_iff.mp htarget
    have hat := List.mem_zipIdx_iff_getElem?.mp hrecord
    rw [Array.getElem?_toList] at hat
    exact ⟨record, exit, entry, hat, hexit, htarget, hadmitted⟩
  · rintro ⟨record, exit, entry, hrecord, hexit, htarget, hadmitted⟩
    refine List.mem_flatMap.mpr ⟨(record, giver.index), ?_, List.mem_map.mpr ⟨taker, ?_, rfl⟩⟩
    · rw [List.mem_zipIdx_iff_getElem?, Array.getElem?_toList]
      exact hrecord
    · refine List.mem_filterMap.mpr ⟨exit, hexit, ?_⟩
      rw [htarget, Option.bind_some, hadmitted]

/-- Where each edge has a bit at one of its ends, every cycle passes through a bit. -/
theorem guarded_of_edges {graph : Graph}
    (h : ∀ edge ∈ graph.edges, graph.IsBit edge.1 ∨ graph.IsBit edge.2) : graph.Guarded := by
  intro first rest _ hchain
  cases rest with
  | nil =>
    -- A node that hands the token to itself is at both ends
    have hloop : graph.Hands first first := (List.isChain_cons_cons.mp hchain).1
    exact ⟨first, List.mem_cons_self, (h _ (mem_edges_iff.mpr hloop)).elim id id⟩
  | cons second rest =>
    have hedge : graph.Hands first second := (List.isChain_cons_cons.mp hchain).1
    rcases h _ (mem_edges_iff.mpr hedge) with hbit | hbit
    · exact ⟨first, List.mem_cons_self, hbit⟩
    · exact ⟨second, List.mem_cons_of_mem _ List.mem_cons_self, hbit⟩

/-- The number of nodes to which the token may come: native nodes and joins. -/
def actorCount (graph : Graph) : Nat :=
  graph.nodes.toList.countP Node.acts

/-- The number of bits. -/
def bitCount (graph : Graph) : Nat :=
  graph.nodes.toList.countP Node.isBit

/-- How many more calls of all bits together may be counted. -/
def allowance (graph : Graph) (callLimit : UInt32) : Nat :=
  (graph.nodes.toList.map (Node.allowance callLimit)).sum

/-- At first each bit is allowed no more calls than the limit says. -/
theorem allowance_le (graph : Graph) (callLimit : UInt32) :
    graph.allowance callLimit ≤ graph.bitCount * callLimit.toNat := by
  unfold allowance bitCount
  induction graph.nodes.toList with
  | nil => simp
  | cons record rest ih =>
    have hfirst := record.allowance_le callLimit
    rw [List.map_cons, List.sum_cons, List.countP_cons]
    split at hfirst
    next hbit => rw [if_pos hbit, Nat.add_mul]; omega
    next hbit => rw [if_neg hbit, Nat.add_zero]; omega

/-- Nodes to which the token may come, each listed once, are no more than there are. -/
theorem length_le_actorCount {graph : Graph} {members : List NodeId} (hnodup : members.Nodup)
    (hacts : ∀ node ∈ members, graph.Acts node) : members.length ≤ graph.actorCount := by
  -- The numbers of nodes that act are as many as there are such nodes
  let actors := (List.range graph.nodes.size).filter fun i => graph.nodes[i]?.any Node.acts
  have hcount : actors.length = graph.actorCount := by
    have hrange : graph.nodes.toList.map some =
        (List.range graph.nodes.size).map fun i => graph.nodes[i]? := by
      refine List.ext_getElem (by simp) fun i hi _ => ?_
      have hlt : i < graph.nodes.size := by simpa using hi
      simp [hlt]
    have hsame := congrArg (List.countP fun record => record.any Node.acts) hrange
    rw [List.countP_map, List.countP_map] at hsame
    rw [← List.countP_eq_length_filter]
    exact hsame.symm
  have hsubset : members.map NodeId.index ⊆ actors := by
    intro i hi
    obtain ⟨node, hnode, rfl⟩ := List.mem_map.mp hi
    obtain ⟨record, hrecord, hact⟩ := hacts node hnode
    obtain ⟨hlt, hat⟩ := Array.getElem?_eq_some_iff.mp hrecord
    simp [actors, hlt, hat, hact]
  have hindices : (members.map NodeId.index).Nodup :=
    hnodup.map fun a b h => by cases a; cases b; exact congrArg NodeId.mk h
  have hle := (List.subperm_of_subset hindices hsubset).length_le
  rw [List.length_map, hcount] at hle
  exact hle

/-! ## Graphs with the same control graph -/

/-- Two graphs have the same nodes, up to what they remember, the same entries and the same
exits. -/
structure SameControl (graph graph' : Graph) : Prop where
  forms : graph'.nodes.map Node.form = graph.nodes.map Node.form
  entries : graph'.entries = graph.entries
  exits : graph'.exits = graph.exits

namespace SameControl

variable {graph graph' : Graph}

theorem of_bare_eq (h : graph'.bare = graph.bare) : graph.SameControl graph' where
  forms := congrArg (fun g => g.nodes.map Node.form) h
  entries := (congrArg Graph.entries h :)
  exits := (congrArg Graph.exits h :)

theorem trans {graph'' : Graph} (h : graph.SameControl graph') (h' : graph'.SameControl graph'') :
    graph.SameControl graph'' where
  forms := h'.forms.trans h.forms
  entries := h'.entries.trans h.entries
  exits := h'.exits.trans h.exits

theorem countCall (graph : Graph) (node : NodeId) (register : Value) :
    graph.SameControl (graph.countCall node register) where
  forms := by
    refine map_modify_eq graph.nodes node.index fun record => ?_
    obtain ⟨_, _, _, _, kind⟩ := record
    cases kind <;> rfl
  entries := rfl
  exits := rfl

theorem map_form_node? (h : graph.SameControl graph') (node : NodeId) :
    (graph'.node? node).map Node.form = (graph.node? node).map Node.form := by
  have hat := congrArg (fun forms => forms[node.index]?) h.forms
  simp only [Array.getElem?_map] at hat
  exact hat

/-- What does not look at what a node remembers finds the same. -/
theorem exists_node? (h : graph.SameControl graph') {node : NodeId} {record' : Node}
    (hrecord : graph'.node? node = some record') :
    ∃ record, graph.node? node = some record ∧ record.form = record'.form := by
  have hform := h.map_form_node? node
  rw [hrecord, Option.map_some] at hform
  exact Option.map_eq_some_iff.mp hform.symm

theorem target? (h : graph.SameControl graph') (exit : ExitId) :
    graph'.target? exit = graph.target? exit := by
  simp only [Graph.target?, exit?, h.exits]

theorem admitted? (h : graph.SameControl graph') (entry : EntryId) :
    graph'.admitted? entry = graph.admitted? entry := by
  simp only [Graph.admitted?, h.entries]

theorem hands (h : graph.SameControl graph') {giver taker : NodeId}
    (hhands : graph'.Hands giver taker) : graph.Hands giver taker := by
  obtain ⟨record', exit, entry, hrecord', hexit, htarget, hadmitted⟩ := hhands
  obtain ⟨record, hrecord, hform⟩ := h.exists_node? hrecord'
  refine ⟨record, exit, entry, hrecord, ?_, h.target? exit ▸ htarget, h.admitted? entry ▸ hadmitted⟩
  rw [← Node.ways_form, hform, Node.ways_form]
  exact hexit

theorem symm (h : graph.SameControl graph') : graph'.SameControl graph :=
  ⟨h.forms.symm, h.entries.symm, h.exits.symm⟩

theorem isBit (h : graph.SameControl graph') {node : NodeId} (hbit : graph.IsBit node) :
    graph'.IsBit node := by
  obtain ⟨record, hrecord, hisBit⟩ := hbit
  obtain ⟨record', hrecord', hform⟩ := h.symm.exists_node? hrecord
  refine ⟨record', hrecord', ?_⟩
  rw [← Node.isBit_form, hform, Node.isBit_form]
  exact hisBit

theorem acts (h : graph.SameControl graph') {node : NodeId} (hacts : graph.Acts node) :
    graph'.Acts node := by
  obtain ⟨record, hrecord, hact⟩ := hacts
  obtain ⟨record', hrecord', hform⟩ := h.symm.exists_node? hrecord
  refine ⟨record', hrecord', ?_⟩
  rw [← Node.acts_form, hform, Node.acts_form]
  exact hact

/-- A control graph all of whose cycles pass through a bit stays one. -/
theorem guarded (h : graph.SameControl graph') (hguarded : graph.Guarded) : graph'.Guarded := by
  intro first rest hnodup hcycle
  obtain ⟨node, hmem, hbit⟩ := hguarded first rest hnodup (hcycle.imp fun _ _ => h.hands)
  exact ⟨node, hmem, h.isBit hbit⟩

theorem actorCount (h : graph.SameControl graph') : graph'.actorCount = graph.actorCount := by
  have hcount := congrArg (fun forms => forms.toList.countP Node.acts) h.forms
  simp only [Array.toList_map, List.countP_map] at hcount
  have hacts : Node.acts ∘ Node.form = Node.acts := funext Node.acts_form
  rw [hacts] at hcount
  exact hcount

end SameControl

/-! ## Firings -/

theorem bare_writeOwnOutlet (graph : Graph) (outlet : OutletId) (value : Value) :
    (graph.writeOwnOutlet outlet value).bare = graph.bare :=
  (bare_setValue _ _ value).trans (bare_ensure graph (.outlet outlet))

theorem bare_writeOutlet (graph : Graph) (outlet : OutletId) (value : Value) :
    (graph.writeOutlet outlet value).bare = graph.bare := by
  unfold writeOutlet
  generalize outlet :: graph.relays graph.outlets.size outlet = outlets
  induction outlets generalizing graph with
  | nil => rfl
  | cons first rest ih => rw [List.foldl_cons, ih, bare_writeOwnOutlet]

/-- All that a firing which succeeds can do to the nodes, the entries and the exits of a graph. -/
inductive Fires (graph : Graph) (callLimit : UInt32) (node : NodeId) (record : Node) :
    Graph → Prop where
  /-- A node that is no bit changes nothing. -/
  | plain (graph' : Graph) (hbit : record.isBit = false) (hsame : graph'.bare = graph.bare) :
      Fires graph callLimit node record graph'
  /-- A bit sets its register and counts the call, which does not reach the limit. -/
  | bit (graph' : Graph) (ports : Interface) (register : Value)
      (hkind : record.kind = .native .bit ports)
      (hcalls : ports.calls.toNat + 1 < callLimit.toNat)
      (hsame : graph'.bare = (graph.countCall node register).bare) :
      Fires graph callLimit node record graph'

theorem Primitive.register_of_evaluate {primitive : Primitive} {readings : List Reading}
    {evaluation : Evaluation} (h : primitive.evaluate readings = .ok evaluation) :
    evaluation.register.isSome = primitive.isStateful := by
  cases primitive with
  | adder => exact Except.ok.inj h ▸ rfl
  | bit =>
    simp only [Primitive.evaluate] at h
    split at h
    next => exact Except.ok.inj h ▸ rfl
    next => cases h

theorem mem_exits_of_emit {graph : Graph} {node : NodeId} {ports : Interface}
    {evaluation : Evaluation} {events : List Event} {exit : ExitId}
    (h : (graph.emit node ports evaluation events).result = .ok exit) : exit ∈ ports.exits := by
  unfold emit at h
  dsimp only at h
  split at h
  next hexit => exact Except.ok.inj h ▸ List.mem_of_getElem? hexit
  next => cases h

/-- **A firing that succeeds comes from a node that acts, fires one of its exits, and changes at
most what one bit remembers.** -/
theorem fires_of_fire {graph : Graph} {callLimit : UInt32} {node : NodeId} {exit : ExitId}
    (h : (graph.fire callLimit node).result = .ok exit) : ∃ record,
      graph.node? node = some record ∧ exit ∈ record.ways ∧
        graph.Fires callLimit node record (graph.fire callLimit node).graph := by
  unfold fire at h ⊢
  cases hrecord : graph.node? node with
  | none => simp [hrecord] at h
  | some record =>
    refine ⟨record, rfl, ?_⟩
    simp only [hrecord] at h ⊢
    -- Composites do not fire, and joins fire their only exit
    cases hkind : record.kind with
    | composite => simp [hkind] at h
    | join entry found =>
      simp only [hkind, Except.ok.injEq] at h ⊢
      exact ⟨by simp [Node.ways, hkind, h], .plain _ (by simp [Node.isBit, hkind]) rfl⟩
    | native primitive ports =>
      have hways : record.ways = ports.exits := by simp [Node.ways, hkind]
      simp only [hkind, firePrimitive, hways] at h ⊢
      cases hevaluate : primitive.evaluate (ports.inlets.map graph.reading) with
      | error value => simp [hevaluate] at h
      | ok evaluation =>
        -- A primitive has something to remember just when it is a bit
        have hstateful := Primitive.register_of_evaluate hevaluate
        simp only [hevaluate] at h ⊢
        cases hregister : evaluation.register with
        | none =>
          rw [hregister] at hstateful
          simp only [hregister] at h ⊢
          refine ⟨mem_exits_of_emit h, .plain _ ?_ (bare_writeOutlet graph _ _)⟩
          cases primitive with
          | adder => simp [Node.isBit, hkind]
          | bit => cases hstateful
        | some register =>
          rw [hregister] at hstateful
          simp only [hregister] at h ⊢
          cases primitive with
          | adder => cases hstateful
          | bit =>
            by_cases hlimit : callsExhausted ports callLimit = true
            · simp [hlimit] at h
            · rw [if_neg hlimit] at h ⊢
              rw [callsExhausted_iff, Nat.not_le] at hlimit
              exact ⟨mem_exits_of_emit h, .bit _ ports register hkind hlimit
                (bare_writeOutlet (graph.countCall node register) _ _)⟩

namespace Fires

variable {graph graph' : Graph} {callLimit : UInt32} {node : NodeId} {record : Node}

/-- A firing keeps the control graph. -/
theorem sameControl (h : graph.Fires callLimit node record graph') : graph.SameControl graph' := by
  cases h with
  | plain hbit hsame => exact .of_bare_eq hsame
  | bit ports register hkind hcalls hsame =>
    exact (SameControl.countCall graph node register).trans (.of_bare_eq hsame)

end Fires

theorem allowance_of_bare_eq {graph graph' : Graph} (h : graph'.bare = graph.bare)
    (callLimit : UInt32) : graph'.allowance callLimit = graph.allowance callLimit :=
  (congrArg (fun g : Graph => g.allowance callLimit) h :)

/-- One member of a list that comes to count less makes the sum less. -/
theorem sum_map_modify_lt {α : Type} {weight : α → Nat} {change : α → α} {members : List α}
    {i : Nat} {a : α} (ha : members[i]? = some a) (hless : weight (change a) < weight a) :
    ((members.modify i change).map weight).sum < (members.map weight).sum := by
  induction members generalizing i with
  | nil => simp at ha
  | cons first rest ih =>
    cases i with
    | zero =>
      obtain rfl : first = a := by simpa using ha
      simpa using hless
    | succ i => simpa using ih (by simpa using ha)

/-- **A bit that fires uses up one of the calls that it is allowed.** -/
theorem Fires.allowance_lt {graph graph' : Graph} {callLimit : UInt32} {node : NodeId}
    {record : Node} (h : graph.Fires callLimit node record graph')
    (hrecord : graph.node? node = some record) (hbit : record.isBit = true) :
    graph'.allowance callLimit < graph.allowance callLimit := by
  cases h with
  | plain hplain => simp [hplain] at hbit
  | bit ports register hkind hcalls hsame =>
    rw [allowance_of_bare_eq hsame]
    have hat : graph.nodes.toList[node.index]? = some record := by
      rw [Array.getElem?_toList]
      exact hrecord
    -- Below the limit a counted call is one call more, for the counter is not full
    have hcount := ports.toNat_calls_countCall
    have hlimit := callLimit.toNat_lt
    have hless : (record.modifyInterface fun ports => { ports.countCall with register }).allowance
        callLimit < record.allowance callLimit := by
      simp only [Node.allowance, Node.modifyInterface, hkind]
      omega
    unfold Graph.allowance countCall modifyNode
    dsimp only
    rw [Array.toList_modify]
    exact sum_map_modify_lt hat hless

/-- A node that is no bit uses up nothing. -/
theorem Fires.allowance_eq {graph graph' : Graph} {callLimit : UInt32} {node : NodeId}
    {record : Node} (h : graph.Fires callLimit node record graph') (hbit : record.isBit = false) :
    graph'.allowance callLimit = graph.allowance callLimit := by
  cases h with
  | plain _ hsame => exact allowance_of_bare_eq hsame callLimit
  | bit ports _ hkind => simp [Node.isBit, hkind] at hbit

end Graph

end TokenNet
