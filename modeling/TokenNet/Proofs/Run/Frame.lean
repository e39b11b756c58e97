import TokenNet.Arithmetic
import TokenNet.Proofs.Change.Call
import TokenNet.Proofs.Flow.Values
import TokenNet.Proofs.Graph.Retains
import TokenNet.Proofs.Run.Guarded

/-!
# What a run leaves alone

A run changes values and what bits remember, and it leaves the wiring as it is.  Only an outlet that
was unplugged before is a case of its own: when it is written it gets a new cell, and no other port
shares that cell.

The layers follow the recursion of a run:

* writing an outlet writes the outlets of its chain of relays, one after the other;
* firing a node writes the outlet of a primitive, and a bit remembers something else;
* a run fires nodes until it ends or fails.

## Main statements

- `Fills`: what writing some outlets leaves alone.
- `Fired`, `fired_fire`: all that firing a node does to a graph.
- `Spares`: what firing some nodes leaves alone.
- `Run.spares_walk`: a walk leaves alone what the primitives it fires leave alone.
- `Network.execution_keeps_wiring`: what every run leaves alone, however it ends.
-/

namespace TokenNet

namespace Graph

/-! ## Writing outlets -/

/-- Writing an outlet writes outlets that are issued. -/
theorem hasPort_of_mem_relayChain {graph : Graph} (hclosed : graph.Closed) {outlet : OutletId}
    (houtlet : graph.HasPort (.outlet outlet)) :
    ∀ outer ∈ graph.relayChain outlet, graph.HasPort (.outlet outer) := by
  intro outer houter
  rcases List.mem_cons.mp houter with rfl | hlater
  · exact houtlet
  · exact hasPort_of_mem_relays hclosed _ _ outer hlater

/-- Some outlets were written.  Ports keep the cells they had, and cells keep the ports that share
them; a new cell is that of one of the outlets written, which had none. -/
structure Fills (written : OutletId → Prop) (graph graph' : Graph) : Prop where
  inlets : graph'.inlets = graph.inlets
  outlets : graph'.bare.outlets = graph.bare.outlets
  kept : ∀ {outlet cell}, graph.outletCell? outlet = some cell →
    graph'.outletCell? outlet = some cell
  live : ∀ {cell record}, graph.cell? cell = some record →
    ∃ value, graph'.cell? cell = some { record with value }
  fresh : ∀ {cell record}, graph.cell? cell = none → graph'.cell? cell = some record →
    ∃ outlet, written outlet ∧ graph.outletCell? outlet = none ∧
      graph'.outletCell? outlet = some cell ∧ record.readers = [] ∧ record.writers = [outlet]

namespace Fills

variable {graph graph' graph'' : Graph} {written later : OutletId → Prop}

theorem refl (written : OutletId → Prop) (graph : Graph) : Fills written graph graph where
  inlets := rfl
  outlets := rfl
  kept h := h
  live {_ record} h := ⟨record.value, h⟩
  fresh hnone hsome := by
    rw [hnone] at hsome
    cases hsome

theorem mono (h : Fills written graph graph') (hlater : ∀ outlet, written outlet → later outlet) :
    Fills later graph graph' :=
  { h with
    fresh := fun hnone hsome => by
      obtain ⟨outlet, hwritten, hrest⟩ := h.fresh hnone hsome
      exact ⟨outlet, hlater outlet hwritten, hrest⟩ }

theorem trans (h : Fills written graph graph') (h' : Fills written graph' graph'') :
    Fills written graph graph'' where
  inlets := h'.inlets.trans h.inlets
  outlets := h'.outlets.trans h.outlets
  kept hcell := h'.kept (h.kept hcell)
  live hrecord := by
    obtain ⟨_, hmiddle⟩ := h.live hrecord
    obtain ⟨value, hlast⟩ := h'.live hmiddle
    exact ⟨value, hlast⟩
  fresh {cell record} hnone hsome := by
    cases hmiddle : graph'.cell? cell with
    | none =>
      -- The outlet of a cell that the second write made had none in the first graph either
      obtain ⟨outlet, hwritten, hbefore, hafter⟩ := h'.fresh hmiddle hsome
      refine ⟨outlet, hwritten, ?_, hafter⟩
      rw [← Option.not_isSome_iff_eq_none, Option.isSome_iff_exists]
      rintro ⟨other, hother⟩
      rw [h.kept hother] at hbefore
      cases hbefore
    | some middle =>
      obtain ⟨outlet, hwritten, hbefore, hcell, hreaders, hwriters⟩ := h.fresh hnone hmiddle
      obtain ⟨_, hsame⟩ := h'.live hmiddle
      obtain rfl := Option.some.inj (hsome.symm.trans hsame)
      exact ⟨outlet, hwritten, hbefore, h'.kept hcell, hreaders, hwriters⟩

/-- Values do not matter. -/
theorem writeCells (written : OutletId → Prop) (graph : Graph) (cells : List CellId)
    (value : Value) : Fills written graph (graph.writeCells cells value) where
  inlets := inlets_writeCells cells graph value
  outlets := by rw [bare_writeCells]
  kept {outlet cell} h := (portCell?_writeCells cells graph value (.outlet outlet)).trans h
  live {cell record} h := by
    rw [cell?_writeCells, h]
    split
    · exact ⟨value, rfl⟩
    · exact ⟨record.value, rfl⟩
  fresh {cell record} hnone hsome := by
    rw [cell?_writeCells, hnone] at hsome
    split at hsome <;> cases hsome

/-- An outlet that has no cell gets one, which no other port shares. -/
theorem ensure (hlinked : graph.Linked) {outlet : OutletId}
    (houtlet : graph.HasPort (.outlet outlet)) (hwritten : written outlet) :
    Fills written graph (graph.ensure (.outlet outlet)).2 := by
  cases hcell : graph.portCell? (.outlet outlet) with
  | some cell =>
    rw [ensure_of_some hcell]
    exact refl written graph
  | none =>
    have hbare := bare_ensure graph (.outlet outlet)
    rw [ensure_of_none hcell] at hbare ⊢
    have hport := @portCell?_attach (graph.addCell 0).2 (.outlet outlet) houtlet (graph.addCell 0).1
    have hrecord := cell?_attach (graph.addCell 0).2 (.outlet outlet) (graph.addCell 0).1
    -- The new key finds nothing yet, so no cell in use is touched
    have hnew := cell?_addCell_fst hlinked.sound 0
    -- What the outlet has got is a cell with itself as the only writer
    constructor
    case inlets => rfl
    case outlets => exact (congrArg Graph.outlets hbare :)
    case kept =>
      intro other cell hother
      have hne : other ≠ outlet := by
        rintro rfl
        rw [show graph.outletCell? other = none from hcell] at hother
        cases hother
      refine (hport (.outlet other)).trans ?_
      rw [if_neg fun hsame => hne (Port.outlet.inj hsame), portCell?_addCell]
      exact hother
    case live =>
      intro cell record hlive
      refine ⟨record.value, ?_⟩
      have hne : cell ≠ (graph.addCell 0).1 := by
        rintro rfl
        rw [hnew] at hlive
        cases hlive
      rw [hrecord, if_neg hne, cell?_addCell hlinked.sound, if_neg hne, hlive]
    case fresh =>
      intro cell record hnone hsome
      rw [hrecord, cell?_addCell hlinked.sound] at hsome
      split at hsome
      next hsame =>
        obtain rfl := Option.some.inj hsome
        refine ⟨outlet, hwritten, hcell, ?_, rfl, rfl⟩
        refine (hport (.outlet outlet)).trans ?_
        rw [if_pos rfl, hsame]
      next =>
        rw [hnone] at hsome
        cases hsome

theorem writeOwnOutlet (hlinked : graph.Linked) {outlet : OutletId}
    (houtlet : graph.HasPort (.outlet outlet)) (hwritten : written outlet) (value : Value) :
    Fills written graph (graph.writeOwnOutlet outlet value) :=
  (ensure hlinked houtlet hwritten).trans (writeCells written _ _ value)

/-- Outlets are written one after the other. -/
theorem foldl_writeOwnOutlet (value : Value) (outlets : List OutletId) (hlinked : graph.Linked)
    (hclosed : graph.Closed) (hports : ∀ outlet ∈ outlets, graph.HasPort (.outlet outlet))
    (hwritten : ∀ outlet ∈ outlets, written outlet) :
    Fills written graph (outlets.foldl (fun g outlet => g.writeOwnOutlet outlet value) graph) := by
  induction outlets generalizing graph with
  | nil => exact refl written graph
  -- The first output is written, and the others in the graph that it leaves
  | cons first rest ih =>
    have hfirst := writeOwnOutlet hlinked (hports first List.mem_cons_self)
      (hwritten first List.mem_cons_self) value
    have hmove : graph.Moves (graph.writeOwnOutlet first value) :=
      .single (.emit graph (hports first List.mem_cons_self) value)
    have hmoves := hmove.leads
    refine hfirst.trans (ih (hmoves.linked hlinked) (hmoves.closed hclosed) ?_ ?_)
    · exact fun outlet hlater =>
        (hmoves.extends hclosed).hasPort (hports outlet (List.mem_cons_of_mem first hlater))
    · exact fun outlet hlater => hwritten outlet (List.mem_cons_of_mem first hlater)

/-- **Writing an outlet fills its chain of relays.** -/
theorem writeOutlet (hlinked : graph.Linked) (hclosed : graph.Closed) {outlet : OutletId}
    (houtlet : graph.HasPort (.outlet outlet)) (value : Value) :
    Fills (· ∈ graph.relayChain outlet) graph (graph.writeOutlet outlet value) := by
  apply foldl_writeOwnOutlet value _ hlinked hclosed
  · exact hasPort_of_mem_relayChain hclosed houtlet
  · exact fun _ h => h

end Fills

/-! ## Firing nodes -/

/-- Whether a node is a primitive that reads what it can work with. -/
def evaluates (graph : Graph) (node : NodeId) : Bool :=
  match (graph.node? node).map Node.kind with
  | some (.native primitive ports) => (primitive.evaluate (ports.inlets.map graph.reading)).toBool
  | _ => false

/-- A primitive emits through its own outlet and through the outlets on the chain of relays that
begins there. -/
def Emits (graph : Graph) (node : NodeId) (outlet : OutletId) : Prop :=
  ∃ record primitive ports, graph.node? node = some record ∧
    record.kind = .native primitive ports ∧ outlet ∈ graph.relayChain ports.outlet

/-- Only a bit has something to remember. -/
theorem isBit_of_evaluate {graph : Graph} {node : NodeId} {record : Node} {primitive : Primitive}
    {ports : Interface} (hrecord : graph.node? node = some record)
    (hkind : record.kind = .native primitive ports) {readings : List Reading}
    {evaluation : Evaluation} (hevaluate : primitive.evaluate readings = .ok evaluation)
    {register : Value} (hregister : evaluation.register = some register) : graph.IsBit node := by
  have hstateful := Primitive.register_of_evaluate hevaluate
  rw [hregister] at hstateful
  refine ⟨record, hrecord, ?_⟩
  cases primitive with
  | adder => cases hstateful
  | bit => simp [Node.isBit, hkind]

/-- What firing a node does to a graph: nothing, unless the node is a primitive that evaluates.  Then
it writes its outlet; a bit counts the call before, and then it may refuse to emit. -/
inductive Fired (graph : Graph) (node : NodeId) : Graph → Prop where
  | rest (h : graph.evaluates node = false) : Fired graph node graph
  | emit {record : Node} {primitive : Primitive} {ports : Interface}
      (hevaluates : graph.evaluates node = true) (hrecord : graph.node? node = some record)
      (hkind : record.kind = .native primitive ports) (value : Value) :
      Fired graph node (graph.writeOutlet ports.outlet value)
  | count (hevaluates : graph.evaluates node = true) (hbit : graph.IsBit node) (register : Value) :
      Fired graph node (graph.countCall node register)
  | countAndEmit {record : Node} {primitive : Primitive} {ports : Interface}
      (hevaluates : graph.evaluates node = true) (hbit : graph.IsBit node) (register : Value)
      (hrecord : graph.node? node = some record) (hkind : record.kind = .native primitive ports)
      (value : Value) :
      Fired graph node ((graph.countCall node register).writeOutlet ports.outlet value)

/-- **Firing a node does nothing else**, however it ends. -/
theorem fired_fire (graph : Graph) (callLimit : UInt32) (node : NodeId) :
    graph.Fired node (graph.fire callLimit node).graph := by
  unfold fire
  cases hrecord : graph.node? node with
  | none => exact .rest (by simp [evaluates, hrecord])
  | some record =>
    dsimp only
    cases hkind : record.kind with
    | join => exact .rest (by simp [evaluates, hrecord, hkind])
    | composite => exact .rest (by simp [evaluates, hrecord, hkind])
    | native primitive ports =>
      have hevaluates : graph.evaluates node =
          (primitive.evaluate (ports.inlets.map graph.reading)).toBool := by
        simp only [evaluates, hrecord, Option.map_some, hkind]
      dsimp only [firePrimitive]
      -- A primitive that refuses what it reads leaves everything as it is
      cases hevaluate : primitive.evaluate (ports.inlets.map graph.reading) with
      | error value => exact .rest (by rw [hevaluates, hevaluate]; rfl)
      | ok evaluation =>
        have hfires : graph.evaluates node = true := by rw [hevaluates, hevaluate]; rfl
        dsimp only
        cases hregister : evaluation.register with
        | none => exact .emit hfires hrecord hkind evaluation.output
        | some register =>
          -- Only a bit remembers, and only a bit counts
          have hbit := isBit_of_evaluate hrecord hkind hevaluate hregister
          dsimp only
          split
          next => exact .count hfires hbit register
          next => exact .countAndEmit hfires hbit register hrecord hkind evaluation.output

/-- A primitive is still the same one after a call was counted. -/
theorem exists_native_countCall {graph : Graph} {node : NodeId} {record : Node}
    {primitive : Primitive} {ports : Interface} (hrecord : graph.node? node = some record)
    (hkind : record.kind = .native primitive ports) (register : Value) : ∃ record' ports',
      (graph.countCall node register).node? node = some record' ∧
        record'.kind = .native primitive ports' ∧ ports'.outlet = ports.outlet := by
  refine ⟨record.modifyInterface fun ports => { ports.countCall with register },
    { ports.countCall with register }, ?_, ?_, rfl⟩
  · unfold Graph.countCall
    rw [node?_modifyNode, if_pos rfl, hrecord, Option.map_some]
  · simp only [Node.modifyInterface, hkind]

/-- Some primitives were fired.  Only bits among them remember something else, and only the outlets
through which they emit were written. -/
structure Spares (fired : List NodeId) (graph graph' : Graph) : Prop where
  entries : graph'.entries = graph.entries
  exits : graph'.exits = graph.exits
  node : ∀ node, graph'.node? node = graph.node? node ∨
    node ∈ fired ∧ graph.IsBit node ∧ ∃ register calls, graph'.node? node =
      (graph.node? node).map (Node.modifyInterface fun ports => { ports with register, calls })
  fills : Fills (fun outlet => ∃ node ∈ fired, graph.Emits node outlet) graph graph'

namespace Spares

variable {graph graph' graph'' : Graph} {fired later : List NodeId} {node : NodeId}

theorem refl (fired : List NodeId) (graph : Graph) : Spares fired graph graph where
  entries := rfl
  exits := rfl
  node _ := Or.inl rfl
  fills := .refl _ graph

theorem mono (h : Spares fired graph graph') (hsub : fired ⊆ later) :
    Spares later graph graph' where
  entries := h.entries
  exits := h.exits
  node other := (h.node other).imp_right fun ⟨hfired, hrest⟩ => ⟨hsub hfired, hrest⟩
  fills := h.fills.mono fun _ ⟨other, hfired, hemits⟩ => ⟨other, hsub hfired, hemits⟩

/-- The kind of a node stays, up to what it remembers. -/
theorem exists_native (h : Spares fired graph graph') {record' : Node} {primitive : Primitive}
    {ports' : Interface} (hrecord' : graph'.node? node = some record')
    (hkind' : record'.kind = .native primitive ports') :
    ∃ record ports, graph.node? node = some record ∧ record.kind = .native primitive ports ∧
      ports.outlet = ports'.outlet := by
  -- The node is as it was, or it is a bit that has remembered a value
  rcases h.node node with hsame | ⟨_, _, register, calls, hchange⟩
  · exact ⟨record', ports', hsame.symm.trans hrecord', hkind', rfl⟩
  · rw [hrecord'] at hchange
    obtain ⟨record, hrecord, rfl⟩ := Option.map_eq_some_iff.mp hchange.symm
    obtain ⟨_, _, _, _, kind⟩ := record
    cases kind with
    | native found ports =>
      obtain ⟨rfl, rfl⟩ := NodeKind.native.inj hkind'
      exact ⟨_, ports, hrecord, rfl, rfl⟩
    | composite => cases hkind'
    | join => cases hkind'

theorem emits (h : Spares fired graph graph') {outlet : OutletId}
    (hemits : graph'.Emits node outlet) :
    graph.Emits node outlet := by
  obtain ⟨record', primitive, ports', hrecord', hkind', hmem⟩ := hemits
  obtain ⟨record, ports, hrecord, hkind, hsame⟩ := h.exists_native hrecord' hkind'
  refine ⟨record, primitive, ports, hrecord, hkind, ?_⟩
  rwa [hsame, ← relayChain_of_eq h.fills.outlets]

theorem isBit (h : Spares fired graph graph') (hbit : graph'.IsBit node) : graph.IsBit node := by
  rcases h.node node with hsame | ⟨_, hbefore, _⟩
  · unfold IsBit at hbit ⊢
    rwa [hsame] at hbit
  · exact hbefore

theorem trans (h : Spares fired graph graph') (h' : Spares later graph' graph'') :
    Spares (fired ++ later) graph graph'' where
  entries := h'.entries.trans h.entries
  exits := h'.exits.trans h.exits
  -- A node is spared by both firings, or changed by the later one, or only by the first
  node other := by
    rcases h'.node other with hsame' | ⟨hlater, hbit, register', calls', hchange'⟩
    · rw [hsame']
      exact (h.node other).imp_right fun ⟨hfired, hrest⟩ =>
        ⟨List.mem_append_left later hfired, hrest⟩
    · refine Or.inr ⟨List.mem_append_right fired hlater, h.isBit hbit, register', calls', ?_⟩
      rcases h.node other with hsame | ⟨_, _, register, calls, hchange⟩
      · rw [hchange', hsame]
      · -- What a bit remembers last counts
        rw [hchange', hchange, Option.map_map]
        congr 1
        funext record
        obtain ⟨_, _, _, _, kind⟩ := record
        cases kind <;> rfl
  -- The later nodes emit what they would have emitted before
  fills := by
    have hfirst : Fills (fun outlet => ∃ node ∈ fired ++ later, graph.Emits node outlet) graph
        graph' := by
      refine h.fills.mono fun outlet hwritten => ?_
      obtain ⟨other, hfired, hemits⟩ := hwritten
      exact ⟨other, List.mem_append_left later hfired, hemits⟩
    refine hfirst.trans (h'.fills.mono fun outlet hwritten => ?_)
    obtain ⟨other, hlater, hemits⟩ := hwritten
    exact ⟨other, List.mem_append_right fired hlater, h.emits hemits⟩

/-- A counted call. -/
theorem countCall (graph : Graph) {node : NodeId} (hbit : graph.IsBit node) (register : Value) :
    Spares [node] graph (graph.countCall node register) where
  entries := rfl
  exits := rfl
  node other := by
    unfold Graph.countCall
    rw [node?_modifyNode]
    split
    next hsame =>
      obtain ⟨record, hrecord, _⟩ := hbit
      subst hsame
      -- The new count is that of the record found
      refine Or.inr ⟨List.mem_singleton_self other, ⟨record, hrecord, ‹_›⟩, register,
        ((record.interface?.map Interface.countCall).map Interface.calls).getD 0, ?_⟩
      rw [hrecord, Option.map_some, Option.map_some]
      congr 1
      obtain ⟨_, _, _, _, kind⟩ := record
      cases kind <;> simp [Node.modifyInterface, Node.interface?, Interface.countCall]
    next => exact Or.inl rfl
  fills := {
    inlets := rfl
    outlets := rfl
    kept := fun h => h
    live := (Fills.refl (fun _ => True) graph).live
    fresh := fun hnone hsome => absurd (hnone.symm.trans hsome) (by simp) }

/-- A primitive that writes its outlet. -/
theorem writeOutlet (hlinked : graph.Linked) (hclosed : graph.Closed) {record : Node}
    {primitive : Primitive} {ports : Interface} (hrecord : graph.node? node = some record)
    (hkind : record.kind = .native primitive ports) (value : Value) :
    Spares [node] graph (graph.writeOutlet ports.outlet value) := by
  have hport := hasPort_of_native hclosed hrecord hkind
  have hbare := bare_writeOutlet graph ports.outlet value
  constructor
  case entries => exact (congrArg Graph.entries hbare :)
  case exits => exact (congrArg Graph.exits hbare :)
  -- A write reaches cells, and no node is a cell
  case node =>
    have hnodes : (graph.writeOutlet ports.outlet value).nodes = graph.nodes :=
      (congrArg Graph.nodes hbare :)
    intro other
    refine Or.inl ?_
    unfold node?
    exact congrArg (·[other.index]?) hnodes
  case fills =>
    apply (Fills.writeOutlet hlinked hclosed hport value).mono
    exact fun outlet hmem =>
      ⟨node, List.mem_singleton_self node, record, primitive, ports, hrecord, hkind, hmem⟩

/-- **Firing a node spares what a primitive that evaluates does not write or remember.** -/
theorem fire (hlinked : graph.Linked) (hclosed : graph.Closed) (callLimit : UInt32)
    (node : NodeId) : Spares (if graph.evaluates node then [node] else []) graph
      (graph.fire callLimit node).graph := by
  have hfired := graph.fired_fire callLimit node
  generalize (graph.fire callLimit node).graph = after at hfired ⊢
  cases hfired with
  | rest h =>
    rw [h]
    exact .refl [] graph
  | emit hevaluates hrecord hkind value =>
    rw [hevaluates]
    exact writeOutlet hlinked hclosed hrecord hkind value
  | count hevaluates hbit register =>
    rw [hevaluates]
    exact countCall graph hbit register
  | countAndEmit hevaluates hbit register hrecord hkind value =>
    have hmoves : graph.Moves (graph.countCall node register) :=
      .single (move_countCall graph node register)
    -- After the call is counted the node is the same primitive, with the same outlet
    obtain ⟨record', ports', hrecord', hkind', hsame⟩ :=
      exists_native_countCall hrecord hkind register
    rw [hevaluates, ← hsame]
    apply ((countCall graph hbit register).trans (writeOutlet (hmoves.leads.linked hlinked)
      (hmoves.leads.closed hclosed) hrecord' hkind' value)).mono
    simp

end Spares

end Graph

/-! ## Runs -/

namespace Run

variable {callLimit : UInt32} {run : Nat}

/-- The primitives that a walk fires, in order.  A node that a walk asks to fire is left out if it is
a join or if it refuses because of what it reads. -/
def fired (callLimit : UInt32) (run : Nat) : Nat → EntryId → State → List NodeId
  | 0, _, _ => []
  | budget + 1, entry, state =>
    let node := nodeAt state.graph entry
    (if state.graph.evaluates node then [node] else []) ++
      match fireAt callLimit run entry state with
      | (_, .error _) => []
      | (state, .ok exit) =>
        match state.graph.target? exit with
        | some next => fired callLimit run budget next state
        | none => []

/-- What fires was asked to. -/
theorem fired_sublist_trail (budget : Nat) (entry : EntryId) (state : State) :
    (fired callLimit run budget entry state).Sublist (trail callLimit run budget entry state) := by
  induction budget generalizing entry state with
  | zero => exact .refl []
  | succ budget ih =>
    -- A node stands on the trail whether it evaluates or not
    have hfirst (node : NodeId) :
        (if state.graph.evaluates node then [node] else []).Sublist [node] := by
      split
      · exact .refl _
      · exact List.nil_sublist _
    unfold fired trail
    refine (hfirst _).append ?_
    rcases fireAt callLimit run entry state with ⟨after, fault | exit⟩
    · exact .refl []
    · dsimp only
      cases after.graph.target? exit with
      | none => exact .refl []
      | some next => exact ih next after

/-- **A walk spares what the primitives that it fires do not write or remember**, however it ends. -/
theorem spares_walk (limit : Nat) : ∀ (budget steps : Nat) (entry : EntryId) {state : State},
    state.graph.Linked → state.graph.Closed →
    Graph.Spares (fired callLimit run budget entry state) state.graph
      (walk callLimit limit run budget steps entry state).1.graph := by
  intro budget
  induction budget with
  | zero => exact fun _ _ state _ _ => .refl [] state.graph
  | succ budget ih =>
    -- The first firing spares what it can, and the rest of the walk after it
    intro steps entry state hlinked hclosed
    have hfire : Graph.Spares _ state.graph (fireAt callLimit run entry state).1.graph :=
      .fire hlinked hclosed callLimit (nodeAt state.graph entry)
    have hmoves := moves_fireAt hclosed callLimit run entry
    unfold fired walk
    rcases hfired : fireAt callLimit run entry state with ⟨after, fault | exit⟩
    · rw [hfired] at hfire
      simpa using hfire
    · rw [hfired] at hfire hmoves
      dsimp only
      cases htarget : after.graph.target? exit with
      | none => simpa using hfire
      | some next =>
        exact hfire.trans
          (ih (steps + 1) next (hmoves.leads.linked hlinked) (hmoves.leads.closed hclosed))

end Run

/-! ## Networks -/

namespace Network

variable {net : Network}

/-- The primitives that the next run fires, in order. -/
def fired (net : Network) : List NodeId :=
  match net.entry? with
  | none => []
  | some entry =>
    Run.fired net.limits.callLimit (net.runs + 1) net.limits.chainLimit entry
      ⟨net.graph, net.ledger⟩

theorem fired_sublist (net : Network) : net.fired.Sublist net.trail := by
  unfold fired trail
  cases net.entry? with
  | none => exact .refl []
  | some entry => exact Run.fired_sublist_trail _ _ _

theorem spares_execute (hlinked : net.graph.Linked) (hclosed : net.graph.Closed) :
    Graph.Spares net.fired net.graph net.execute.1.graph := by
  unfold fired execute
  cases net.entry? with
  | none => exact .refl [] net.graph
  | some entry => exact Run.spares_walk net.limits.chainLimit _ 0 entry hlinked hclosed

/-- **A run changes values and what bits remember, never the wiring**, whether it succeeds or fails.

* Every node is as it was, except that a bit which fired may have another register and another
  number of calls.
* Entries, exits and inlets are as they were, and outlets too, up to their cells.
* A port that had a cell has the same one, and every cell in use has the same readers and writers.
* A cell that was not in use before belongs to one outlet, which had none; a primitive that fired
  emits through it. -/
theorem execution_keeps_wiring (h : net.Reachable) :
    let graph := net.graph
    let graph' := net.execute.1.graph
    net.fired.Sublist net.trail ∧
    (∀ node, graph'.node? node = graph.node? node ∨
      node ∈ net.fired ∧ graph.IsBit node ∧ ∃ register calls, graph'.node? node =
        (graph.node? node).map (Node.modifyInterface fun ports => { ports with register, calls })) ∧
    graph'.entries = graph.entries ∧ graph'.exits = graph.exits ∧ graph'.inlets = graph.inlets ∧
    graph'.outlets.map Outlet.bare = graph.outlets.map Outlet.bare ∧
    (∀ port cell, graph.portCell? port = some cell → graph'.portCell? port = some cell) ∧
    (∀ cell record, graph.cell? cell = some record →
      ∃ value, graph'.cell? cell = some { record with value }) ∧
    (∀ port cell, graph.portCell? port = none → graph'.portCell? port = some cell →
      graph.cell? cell = none) ∧
    ∀ cell record, graph.cell? cell = none → graph'.cell? cell = some record →
      ∃ node ∈ net.fired, ∃ outlet, graph.Emits node outlet ∧ graph.outletCell? outlet = none ∧
        graph'.outletCell? outlet = some cell ∧ record.readers = [] ∧ record.writers = [outlet] := by
  -- The frame condition of the run, field by field
  intro graph graph'
  have hspares : graph.Spares net.fired graph' := spares_execute h.linked h.closed
  have hlinked : graph'.Linked := (moves_execute h.closed).leads.linked h.linked
  have hfills := hspares.fills
  refine ⟨net.fired_sublist, hspares.node, hspares.entries, hspares.exits, hfills.inlets,
    hfills.outlets, ?kept, fun _ _ => hfills.live, ?new, ?fresh⟩
  case kept =>
    intro port cell hcell
    cases port with
    | inlet inlet =>
      refine Eq.trans ?_ hcell
      simp only [Graph.portCell?, Graph.inletCell?, Graph.inlet?, hfills.inlets]
    | outlet outlet => exact hfills.kept hcell
  case new =>
    intro port cell hnone hcell
    -- A cell in use has the ports that it had before
    rw [← Option.not_isSome_iff_eq_none, Option.isSome_iff_exists]
    rintro ⟨record, hrecord⟩
    obtain ⟨value, hrecord'⟩ := hfills.live hrecord
    have hmember := (hlinked.mem_members hrecord' port).mpr hcell
    rw [(h.linked.mem_members hrecord port).mp hmember] at hnone
    cases hnone
  case fresh =>
    intro cell record hnone hrecord
    obtain ⟨outlet, ⟨node, hfired, hemits⟩, hrest⟩ := hfills.fresh hnone hrecord
    exact ⟨node, hfired, outlet, hemits, hrest⟩

/-- An alternator whose outlets 1 and 2 were unplugged, those of the adder 3 and of the composite 4. -/
def unpluggedAlternator : Network :=
  (((Arithmetic.library.instantiate "||" {}).toOption.getD default).performAll
    [.disconnectOutlet ⟨1⟩, .disconnectOutlet ⟨2⟩]).1

/-- A run fires the adder and two primitives below the composite, to whose outlet 2 the last of them is
relayed.  So the outlet gets a new cell, and the other nodes are as they were. -/
theorem wiring_of_unpluggedAlternator : ∃ built,
    Arithmetic.library.instantiate "||" {} = .ok built ∧
    (built.performAll [.disconnectOutlet ⟨1⟩, .disconnectOutlet ⟨2⟩]).1 = unpluggedAlternator ∧
    unpluggedAlternator.fired = [⟨3⟩, ⟨8⟩, ⟨9⟩] ∧
    unpluggedAlternator.graph.outletCell? ⟨2⟩ = none ∧
    (∃ cell, unpluggedAlternator.execute.1.graph.outletCell? ⟨2⟩ = some cell ∧
      unpluggedAlternator.graph.cell? cell = none) ∧
    ∀ node, node.index < 3 → unpluggedAlternator.execute.1.graph.node? node =
      unpluggedAlternator.graph.node? node := by
  obtain ⟨built, hbuilt, hnet⟩ : ∃ built, Arithmetic.library.instantiate "||" {} = .ok built ∧
      (built.performAll [.disconnectOutlet ⟨1⟩, .disconnectOutlet ⟨2⟩]).1 =
        unpluggedAlternator := ⟨_, by decide +kernel, rfl⟩
  have hfired : unpluggedAlternator.fired = [⟨3⟩, ⟨8⟩, ⟨9⟩] := by decide +kernel
  obtain ⟨hbefore, hafter⟩ : unpluggedAlternator.graph.outletCell? ⟨2⟩ = none ∧
      (unpluggedAlternator.execute.1.graph.outletCell? ⟨2⟩).isSome := by decide +kernel
  obtain ⟨cell, hcell⟩ := Option.isSome_iff_exists.mp hafter
  obtain ⟨_, hnodes, _, _, _, _, _, _, hnew, _⟩ :=
    execution_keeps_wiring ⟨_, _, _, built, _, hbuilt, hnet.symm⟩
  refine ⟨built, hbuilt, hnet, hfired, hbefore, ⟨cell, hcell, hnew (.outlet ⟨2⟩) cell hbefore hcell⟩,
    -- The nodes with small numbers are not among those that fire
    fun node hlt => (hnodes node).resolve_right fun ⟨hmem, _⟩ => ?_⟩
  rw [hfired] at hmem
  simp only [List.mem_cons, List.not_mem_nil, or_false] at hmem
  rcases hmem with rfl | rfl | rfl <;> simp at hlt

end Network

end TokenNet
