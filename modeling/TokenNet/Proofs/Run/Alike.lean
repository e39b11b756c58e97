import TokenNet.Proofs.Change.Call
import TokenNet.Proofs.Graph.Scheme

/-!
# Graphs of one scheme

Two graphs of one scheme differ in their cells only: in which keys the cells have, and in the order
in which their readers and writers and the feeds of inlets are listed.  Nothing that can be read of
a graph depends on that.  A run in the one is a run in the other, firing by firing, and the graphs it
leaves behind have one scheme again.

## Main statements

- `Graph.Alike`: graphs of one scheme.
- `Graph.Alike.portValue?`, `Graph.Alike.relays`: what can be read of them is the same.
- `Graph.Alike.fire`, `Run.walk_alike`: so are the firings of a node and whole walks.
-/

namespace TokenNet

namespace Graph

/-- Two graphs have one scheme. -/
def Alike (graph graph' : Graph) : Prop :=
  ∃ scheme, graph.HasScheme scheme ∧ graph'.HasScheme scheme

namespace Alike

variable {graph graph' : Graph}

/-! ### Reading -/

theorem frame (h : graph.Alike graph') : graph'.frame = graph.frame := by
  obtain ⟨_, hfirst, hsecond⟩ := h
  exact hsecond.frame.trans hfirst.frame.symm

theorem nodes (h : graph.Alike graph') : graph'.nodes = graph.nodes :=
  (congrArg Graph.nodes h.frame :)

theorem entries (h : graph.Alike graph') : graph'.entries = graph.entries :=
  (congrArg Graph.entries h.frame :)

theorem exits (h : graph.Alike graph') : graph'.exits = graph.exits :=
  (congrArg Graph.exits h.frame :)

theorem size_inlets (h : graph.Alike graph') : graph'.inlets.size = graph.inlets.size := by
  simpa [Graph.frame] using (congrArg (fun g => g.inlets.size) h.frame :)

theorem size_outlets (h : graph.Alike graph') : graph'.outlets.size = graph.outlets.size := by
  simpa [Graph.frame] using (congrArg (fun g => g.outlets.size) h.frame :)

theorem hasPort (h : graph.Alike graph') {port : Port} (hport : graph.HasPort port) :
    graph'.HasPort port := by
  cases port with
  | inlet inlet => exact Nat.lt_of_lt_of_eq hport h.size_inlets.symm
  | outlet outlet => exact Nat.lt_of_lt_of_eq hport h.size_outlets.symm

theorem node? (h : graph.Alike graph') : graph'.node? = graph.node? := by
  unfold Graph.node?
  rw [h.nodes]

theorem interface? (h : graph.Alike graph') : graph'.interface? = graph.interface? := by
  unfold Graph.interface?
  rw [h.node?]

theorem target? (h : graph.Alike graph') : graph'.target? = graph.target? := by
  unfold Graph.target? Graph.exit?
  rw [h.exits]

theorem class? (h : graph.Alike graph') (port : Port) : graph'.class? port = graph.class? port := by
  obtain ⟨_, hfirst, hsecond⟩ := h
  exact (hsecond.represents.class? port).trans (hfirst.represents.class? port).symm

theorem portWired (h : graph.Alike graph') (port : Port) :
    graph'.portWired port = graph.portWired port := by
  obtain ⟨_, hfirst, hsecond⟩ := h
  exact (hsecond.represents.wired port).trans (hfirst.represents.wired port).symm

theorem outletWired (h : graph.Alike graph') : graph'.outletWired = graph.outletWired :=
  funext fun outlet => h.portWired (.outlet outlet)

theorem portValue?_eq (graph : Graph) (port : Port) :
    graph.portValue? port = (graph.class? port).map Partition.Class.value := by
  unfold Graph.portValue? Graph.class? cellValue?
  cases graph.portCell? port with
  | none => rfl
  | some cell => simp only [Option.bind_some, Option.map_map]; rfl

/-- **Ports show the same.** -/
theorem portValue? (h : graph.Alike graph') (port : Port) :
    graph'.portValue? port = graph.portValue? port := by
  rw [portValue?_eq, portValue?_eq, h.class?]

theorem reading (h : graph.Alike graph') : graph'.reading = graph.reading := by
  funext inlet
  have hwired : graph'.inletWired inlet = graph.inletWired inlet := h.portWired (.inlet inlet)
  have hvalue : graph'.inletValue? inlet = graph.inletValue? inlet := h.portValue? (.inlet inlet)
  unfold Graph.reading
  rw [hwired, hvalue]

theorem relayOf? (h : graph.Alike graph') : graph'.relayOf? = graph.relayOf? := by
  obtain ⟨_, hfirst, hsecond⟩ := h
  exact hsecond.relay?.trans hfirst.relay?.symm

/-- **Outlets are relayed along the same chains.** -/
theorem relays (h : graph.Alike graph') (bound : Nat) (outlet : OutletId) :
    graph'.relays bound outlet = graph.relays bound outlet := by
  induction bound generalizing outlet with
  | zero => rfl
  | succ bound ih =>
    have hrelay := congrFun h.relayOf? outlet
    unfold Graph.relayOf? at hrelay
    unfold Graph.relays
    simp only [hrelay, h.outletWired, ih]

/-! ### Wiring -/

theorem connect (h : graph.Alike graph') {inlet : InletId} {outlet : OutletId}
    (hinlet : graph.HasPort (.inlet inlet)) (houtlet : graph.HasPort (.outlet outlet)) :
    (graph.connect inlet outlet).Alike (graph'.connect inlet outlet) := by
  have hinlet' := h.hasPort hinlet
  have houtlet' := h.hasPort houtlet
  obtain ⟨scheme, hfirst, hsecond⟩ := h
  exact ⟨_, hfirst.connect hinlet houtlet, hsecond.connect hinlet' houtlet'⟩

theorem detach (h : graph.Alike graph') (port : Port) :
    (graph.detach port).Alike (graph'.detach port) := by
  obtain ⟨scheme, hfirst, hsecond⟩ := h
  exact ⟨_, hfirst.detach port, hsecond.detach port⟩

theorem foldl_disconnectInlet (inlets : List InletId) (h : graph.Alike graph') :
    (inlets.foldl Graph.disconnectInlet graph).Alike
      (inlets.foldl Graph.disconnectInlet graph') := by
  induction inlets generalizing graph graph' with
  | nil => exact h
  | cons first rest ih => exact ih (h.detach (.inlet first))

theorem setTarget (h : graph.Alike graph') (exit : ExitId) (target : Option EntryId) :
    (graph.setTarget exit target).Alike (graph'.setTarget exit target) := by
  obtain ⟨scheme, hfirst, hsecond⟩ := h
  exact ⟨_, hfirst.setTarget exit target, hsecond.setTarget exit target⟩

/-! ### Writing -/

theorem write (h : graph.Alike graph') {port : Port} (hport : graph.HasPort port) (value : Value) :
    ((graph.ensure port).2.setValue (graph.ensure port).1 value).Alike
      ((graph'.ensure port).2.setValue (graph'.ensure port).1 value) := by
  have hport' := h.hasPort hport
  obtain ⟨scheme, hfirst, hsecond⟩ := h
  exact ⟨_, hfirst.write hport value, hsecond.write hport' value⟩

theorem renode (h : graph.Alike graph') (change : Array Node → Array Node) :
    { graph with nodes := change graph.nodes }.Alike
      { graph' with nodes := change graph'.nodes } := by
  obtain ⟨scheme, hfirst, hsecond⟩ := h
  exact ⟨_, hfirst.renode change, hsecond.renode change⟩

theorem modifyNode (h : graph.Alike graph') (node : NodeId) (change : Node → Node) :
    (graph.modifyNode node change).Alike (graph'.modifyNode node change) :=
  h.renode fun nodes => nodes.modify node.index change

theorem foldl_writeOwnOutlet (value : Value) (outlets : List OutletId) (h : graph.Alike graph')
    (hports : ∀ outlet ∈ outlets, graph.HasPort (.outlet outlet)) :
    (outlets.foldl (fun g reached => g.writeOwnOutlet reached value) graph).Alike
      (outlets.foldl (fun g reached => g.writeOwnOutlet reached value) graph') := by
  induction outlets generalizing graph graph' with
  | nil => exact h
  | cons first rest ih =>
    have hfirst := hports first List.mem_cons_self
    -- The write may settle a cell, but all ports stay
    refine ih (h.write hfirst value) fun outlet hmem => ?_
    have hkept := Extends.of_bare_eq (bare_write graph (.outlet first) value)
    exact hkept.hasPort (hports outlet (List.mem_cons_of_mem first hmem))

theorem writeOutlet (h : graph.Alike graph') (hclosed : graph.Closed) {outlet : OutletId}
    (houtlet : graph.HasPort (.outlet outlet)) (value : Value) :
    (graph.writeOutlet outlet value).Alike (graph'.writeOutlet outlet value) := by
  unfold Graph.writeOutlet
  -- In both graphs the value goes along the same chain of outlets
  rw [h.relays, h.size_outlets]
  refine h.foldl_writeOwnOutlet value _ fun outer hmem => ?_
  rcases List.mem_cons.mp hmem with rfl | hmem
  · exact houtlet
  · exact hasPort_of_mem_relays hclosed _ outlet outer hmem

end Alike

end Graph

/-! ## Firings -/

/-- Two firings leave graphs of one scheme behind and agree in all else. -/
structure Firing.Alike (firing firing' : Firing) : Prop where
  graph : firing.graph.Alike firing'.graph
  events : firing'.events = firing.events
  result : firing'.result = firing.result

namespace Graph.Alike

variable {graph graph' : Graph}

theorem emit (h : graph.Alike graph') (hclosed : graph.Closed) (node : NodeId) {ports : Interface}
    (houtlet : graph.HasPort (.outlet ports.outlet)) (evaluation : Evaluation)
    (events : List Event) :
    (graph.emit node ports evaluation events).Alike (graph'.emit node ports evaluation events) :=
  ⟨h.writeOutlet hclosed houtlet evaluation.output, rfl, rfl⟩

theorem firePrimitive (h : graph.Alike graph') (hclosed : graph.Closed) (callLimit : UInt32)
    (node : NodeId) (record : Node) (primitive : Primitive) {ports : Interface}
    (houtlet : graph.HasPort (.outlet ports.outlet)) :
    (graph.firePrimitive callLimit node record primitive ports).Alike
      (graph'.firePrimitive callLimit node record primitive ports) := by
  unfold Graph.firePrimitive
  rw [h.reading]
  dsimp only
  split
  next => exact ⟨h, rfl, rfl⟩
  next evaluation _ =>
    split
    next => exact h.emit hclosed node houtlet evaluation _
    next register _ =>
      -- The call is counted first, and the output is written only below the limit
      have hcounted : (graph.countCall node register).Alike (graph'.countCall node register) :=
        h.modifyNode node _
      have hleads : graph.Leads (graph.countCall node register) :=
        (move_countCall graph node register).uses.leads
      split
      next => exact ⟨hcounted, rfl, rfl⟩
      next =>
        exact hcounted.emit (hleads.closed hclosed) node ((hleads.extends hclosed).hasPort houtlet)
          evaluation _

/-- **A node fires alike in both graphs.** -/
theorem fire (h : graph.Alike graph') (hclosed : graph.Closed) (callLimit : UInt32)
    (node : NodeId) : (graph.fire callLimit node).Alike (graph'.fire callLimit node) := by
  unfold Graph.fire
  rw [h.node?]
  split
  next => exact ⟨h, rfl, rfl⟩
  next record hrecord =>
    split
    next => exact ⟨h, rfl, rfl⟩
    next => exact ⟨h, rfl, rfl⟩
    -- Only a primitive reads and writes pins
    next primitive ports hkind =>
      have hknown := hclosed.knowsNode hrecord
      unfold KnowsNode at hknown
      rw [hkind] at hknown
      exact h.firePrimitive hclosed callLimit node record primitive hknown.1.outlet

end Graph.Alike

/-! ## Walks -/

namespace Run

/-- Two states of a run have graphs of one scheme and the same ledger. -/
structure State.Alike (state state' : State) : Prop where
  graph : state.graph.Alike state'.graph
  ledger : state'.ledger = state.ledger

variable {state state' : State}

theorem fireAt_alike (h : state.Alike state') (hclosed : state.graph.Closed) (callLimit : UInt32)
    (run : Nat) (entry : EntryId) :
    (fireAt callLimit run entry state).1.Alike (fireAt callLimit run entry state').1 ∧
      (fireAt callLimit run entry state').2 = (fireAt callLimit run entry state).2 := by
  have hnode : nodeAt state'.graph entry = nodeAt state.graph entry := by
    unfold nodeAt Graph.admitted?
    rw [h.graph.entries, h.graph.nodes]
  have hfires := h.graph.fire hclosed callLimit (nodeAt state.graph entry)
  unfold fireAt
  rw [hnode]
  refine ⟨⟨hfires.graph, ?_⟩, hfires.result⟩
  dsimp only
  rw [h.ledger, hfires.events]

/-- **A token walks alike in both graphs**: the walks end in the same way, with the same ledger and
with graphs of one scheme. -/
theorem walk_alike (callLimit : UInt32) (limit run : Nat) :
    ∀ (budget steps : Nat) (entry : EntryId) {state state' : State}, state.Alike state' →
    state.graph.Closed →
    (walk callLimit limit run budget steps entry state).1.Alike
        (walk callLimit limit run budget steps entry state').1 ∧
      (walk callLimit limit run budget steps entry state').2 =
        (walk callLimit limit run budget steps entry state).2
  | 0, _, _, _, _, h, _ => ⟨h, rfl⟩
  | budget + 1, steps, entry, state, state', h, hclosed => by
    obtain ⟨hfired, hresult⟩ := fireAt_alike h hclosed callLimit run entry
    have hleads := (moves_fireAt hclosed callLimit run entry).leads
    have hclosed' := hleads.closed hclosed
    unfold walk
    -- Both tokens fire the same node and take the same exit or meet the same fault
    rcases hfire : fireAt callLimit run entry state with ⟨fired, result⟩
    rcases hfire' : fireAt callLimit run entry state' with ⟨fired', result'⟩
    rw [hfire, hfire'] at hfired
    rw [hfire, hfire'] at hresult
    rw [hfire] at hclosed'
    dsimp only at hfired hresult hclosed' ⊢
    subst hresult
    cases result' with
    | error fault => exact ⟨hfired, rfl⟩
    | ok exit =>
      dsimp only
      rw [hfired.graph.target?]
      cases fired.graph.target? exit with
      | none => exact ⟨hfired, rfl⟩
      | some next => exact walk_alike callLimit limit run budget (steps + 1) next hfired hclosed'

end Run

end TokenNet
