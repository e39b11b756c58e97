import TokenNet.Call
import TokenNet.Proofs.Change.Build

/-!
# Calls change graphs

A run writes values and counts calls; every other call writes a value, rewires or makes a node
remember something else.  All of them are sequences of changes, whatever handles a call is given
and however a run ends.  So is every history of a network: its build and the calls after it.

## Main statements

- `Graph.moves_fire`, `Run.moves_walk`: firings and runs are sequences of changes.
- `Network.obeys_perform`: what a call that does not run a network makes of its graph.
- `Network.uses_perform`: a call that redirects no exit is a sequence of changes, too.
- `Network.leads_perform`: every call is a sequence of changes.
- `Network.perform_induction`, `Network.performAll_induction`: how to prove what calls keep.
- `Network.perform_cases`: what a call does to a network beside its graph.
- `Network.sameBuild_perform`: no call changes the root or the issues.
- `Network.leads_of_instantiate`: so is the whole history of a network.
- `Network.Reachable.linked`, `Network.Reachable.closed`: what every network that can come about
  has.
-/

namespace TokenNet

namespace Graph

/-! ## Values -/

theorem uses_writeInlet (graph : Graph) {inlet : InletId} (hinlet : graph.HasPort (.inlet inlet))
    (value : Value) : graph.Uses (graph.writeInlet inlet value) :=
  uses_write graph hinlet value

/-- Every outlet of a chain of relays is issued. -/
theorem hasPort_of_mem_relays {graph : Graph} (hclosed : graph.Closed) :
    ∀ (bound : Nat) (outlet : OutletId), ∀ outer ∈ graph.relays bound outlet,
      graph.HasPort (.outlet outer)
  | 0, _, _, h => by simp [relays] at h
  | bound + 1, outlet, outer, h => by
    unfold relays at h
    split at h
    next => simp at h
    next next hnext =>
      obtain ⟨record, hrecord, hrelay⟩ := Option.bind_eq_some_iff.mp hnext
      have hport := hclosed.hasPort_of_relay hrecord hrelay
      -- The next outlet of the chain is stored in a record; those behind it follow by the bound.
      rcases List.mem_cons.mp h with rfl | hlater
      · exact hport
      · split at hlater
        · exact hasPort_of_mem_relays hclosed bound next outer hlater
        · simp at hlater

theorem moves_foldl_writeOwnOutlet (value : Value) :
    ∀ (outlets : List OutletId) {graph : Graph}, graph.Closed →
    (∀ outlet ∈ outlets, graph.HasPort (.outlet outlet)) →
    graph.Moves (outlets.foldl (fun g outlet => g.writeOwnOutlet outlet value) graph)
  | [], _, _, _ => .refl
  | first :: rest, graph, hclosed, h => by
    have hwrite : graph.Moves (graph.writeOwnOutlet first value) :=
      .single (.emit graph (h first List.mem_cons_self) value)
    -- A write issues and drops no handle, so the later outlets are still there
    have hext := hwrite.leads.extends hclosed
    exact hwrite.trans (moves_foldl_writeOwnOutlet value rest (hwrite.leads.closed hclosed)
      fun outlet hlater => hext.hasPort (h outlet (List.mem_cons_of_mem first hlater)))

theorem moves_writeOutlet {graph : Graph} (hclosed : graph.Closed) {outlet : OutletId}
    (houtlet : graph.HasPort (.outlet outlet)) (value : Value) :
    graph.Moves (graph.writeOutlet outlet value) := by
  refine moves_foldl_writeOwnOutlet value _ hclosed fun outer houter => ?_
  rcases List.mem_cons.mp houter with rfl | hlater
  · exact houtlet
  · exact hasPort_of_mem_relays hclosed _ _ outer hlater

theorem uses_foldl_disconnectInlet :
    ∀ (inlets : List InletId) (graph : Graph), graph.Uses (inlets.foldl disconnectInlet graph)
  | [], _ => .refl
  | first :: rest, graph =>
    .trans (.single (.detach graph (.inlet first))) (uses_foldl_disconnectInlet rest _)

/-! ## What nodes remember -/

/-- A change of a node that keeps its form. -/
theorem use_modifyNode (graph : Graph) (node : NodeId) {change : Node → Node}
    (hform : ∀ record, (change record).form = record.form) :
    graph.Use (graph.modifyNode node change) :=
  .remember graph (map_modify_eq graph.nodes node.index hform)

theorem move_countCall (graph : Graph) (node : NodeId) (register : Value) :
    graph.Move (graph.countCall node register) :=
  .remember graph (map_modify_eq graph.nodes node.index (Node.form_modifyInterface fun _ => rfl))

/-! ## Firings -/

/-- A primitive has the outlet that it writes. -/
theorem hasPort_of_native {graph : Graph} (hclosed : graph.Closed) {node : NodeId} {record : Node}
    {primitive : Primitive} {ports : Interface} (hrecord : graph.node? node = some record)
    (hkind : record.kind = .native primitive ports) : graph.HasPort (.outlet ports.outlet) := by
  have hknown := hclosed.knowsNode hrecord
  unfold KnowsNode at hknown
  rw [hkind] at hknown
  exact hknown.1.outlet

theorem moves_emit {graph : Graph} (hclosed : graph.Closed) (node : NodeId) {ports : Interface}
    (houtlet : graph.HasPort (.outlet ports.outlet)) (evaluation : Evaluation)
    (events : List Event) : graph.Moves (graph.emit node ports evaluation events).graph :=
  moves_writeOutlet hclosed houtlet evaluation.output

theorem moves_firePrimitive {graph : Graph} (hclosed : graph.Closed) (callLimit : UInt32)
    (node : NodeId) (record : Node) (primitive : Primitive) {ports : Interface}
    (houtlet : graph.HasPort (.outlet ports.outlet)) :
    graph.Moves (graph.firePrimitive callLimit node record primitive ports).graph := by
  unfold firePrimitive
  dsimp only
  split
  next => exact .refl
  next evaluation _ =>
    split
    next => exact moves_emit hclosed node houtlet evaluation _
    next register _ =>
      -- A node that keeps a count is written twice: first its count, then its output.
      have hcount : graph.Moves (graph.countCall node register) :=
        .single (move_countCall graph node register)
      split
      next => exact hcount
      next =>
        exact hcount.trans (moves_emit (hcount.leads.closed hclosed) node
          ((hcount.leads.extends hclosed).hasPort houtlet) evaluation _)

/-- **A firing is a sequence of changes.** -/
theorem moves_fire {graph : Graph} (hclosed : graph.Closed) (callLimit : UInt32) (node : NodeId) :
    graph.Moves (graph.fire callLimit node).graph := by
  unfold fire
  split
  next => exact .refl
  next record hrecord =>
    split
    next => exact .refl
    next => exact .refl
    next primitive ports hkind =>
      exact moves_firePrimitive hclosed callLimit node record primitive
        (hasPort_of_native hclosed hrecord hkind)

end Graph

/-! ## Runs -/

namespace Run

theorem moves_fireAt {state : State} (hclosed : state.graph.Closed) (callLimit : UInt32)
    (run : Nat) (entry : EntryId) :
    state.graph.Moves (fireAt callLimit run entry state).1.graph :=
  Graph.moves_fire hclosed callLimit _

/-- **A run is a sequence of changes**, however it ends. -/
theorem moves_walk (callLimit : UInt32) (limit run : Nat) :
    ∀ (budget steps : Nat) (entry : EntryId) {state : State}, state.graph.Closed →
    state.graph.Moves (walk callLimit limit run budget steps entry state).1.graph
  | 0, _, _, _, _ => .refl
  | budget + 1, steps, entry, state, hclosed => by
    have hfire := moves_fireAt hclosed callLimit run entry
    unfold walk
    split
    next hresult => rwa [hresult] at hfire
    -- The node has fired; the walk goes on if its exit has a target
    next exit hresult =>
      rw [hresult] at hfire
      split
      next next _ =>
        exact hfire.trans (moves_walk callLimit limit run budget _ next (hfire.leads.closed hclosed))
      next => exact hfire

end Run

/-! ## Calls -/

namespace Network

variable {net : Network}

theorem moves_execute (hclosed : net.graph.Closed) :
    net.graph.Moves net.execute.1.graph := by
  unfold execute
  split
  next => exact .refl
  next =>
    have hstate : (⟨net.graph, net.ledger⟩ : Run.State).graph.Closed := hclosed
    exact Run.moves_walk _ _ _ _ _ _ hstate

theorem interface?_of_interface {node : NodeId} {ports : Interface}
    (h : net.interface node = .ok ports) : net.graph.interface? node = some ports := by
  unfold interface at h
  split at h
  next => simp at h
  next record hrecord =>
    split at h
    next => simp at h
    next found hfound =>
      rw [Graph.interface?, hrecord, Option.bind_some, hfound, Except.ok.inj h]

theorem read_fst {α : Type} (net : Network) (result : Except AccessError α) (reply : α → Reply) :
    (net.read result reply).1 = net := by
  cases result <;> rfl

/-- The graph after an answered request has a property if the graph before has it and every success
gives it. -/
theorem change_induction {motive : Graph → Prop} {result : Except AccessError Network}
    (hbefore : motive net.graph) (h : ∀ changed, result = .ok changed → motive changed.graph) :
    motive (net.change result).1.graph := by
  cases result with
  | ok changed => exact h changed rfl
  | error error => exact hbefore

/-- A write that is not refused writes an inlet that the node lists. -/
theorem exists_of_writeInlet (hclosed : net.graph.Closed) {node : NodeId} {index : Nat}
    {value : Value} {changed : Network} (h : net.writeInlet node index value = .ok changed) :
    ∃ ports inlet, net.graph.interface? node = some ports ∧ ports.inlets[index]? = some inlet ∧
      net.graph.HasPort (.inlet inlet) ∧ changed.graph = net.graph.writeInlet inlet value := by
  obtain ⟨ports, hports, h⟩ := Except.bind_eq_ok_iff.mp h
  split at h
  next inlet hinlet =>
    obtain rfl := Except.ok.inj h
    have hinterface := interface?_of_interface hports
    have hport := (hclosed.knows hinterface).inlets inlet (List.mem_of_getElem? hinlet)
    exact ⟨ports, inlet, hinterface, hinlet, hport, rfl⟩
  next => cases h

/-- Setting a register writes the first inlet of the node. -/
theorem exists_of_setState (hclosed : net.graph.Closed) {node : NodeId} {value : Value}
    {changed : Network} (h : net.setState node value = .ok changed) :
    ∃ ports inlet, net.graph.interface? node = some ports ∧ ports.inlets[0]? = some inlet ∧
      net.graph.HasPort (.inlet inlet) ∧ changed.graph = (net.graph.modifyNode node
        (Node.modifyInterface fun ports => { ports with register := value })).writeInlet inlet
          value := by
  obtain ⟨ports, hports, h⟩ := Except.bind_eq_ok_iff.mp h
  split at h
  next => cases h
  next first rest hinlets =>
    obtain rfl := Except.ok.inj h
    -- The state sits behind the first input, which a closed graph knows
    have hinterface := interface?_of_interface hports
    have hport := (hclosed.knows hinterface).inlets first (by simp [hinlets])
    exact ⟨ports, first, hinterface, by simp [hinlets], hport, rfl⟩

theorem eq_of_rewire {known : Bool} {change : Graph → Graph} {changed : Network}
    (h : net.rewire known change = .ok changed) :
    known = true ∧ changed.graph = change net.graph := by
  unfold rewire at h
  split at h
  next hknown =>
    obtain rfl := Except.ok.inj h
    exact ⟨hknown, rfl⟩
  next => cases h

/-- The graph after a request to rewire, whether the request succeeds or not. -/
theorem rewire_induction {motive : Graph → Prop} {known : Bool} {change : Graph → Graph}
    (hbefore : motive net.graph) (h : known = true → motive (change net.graph)) :
    motive (net.change (net.rewire known change)).1.graph := by
  refine change_induction hbefore fun changed hchanged => ?_
  obtain ⟨hknown, hgraph⟩ := eq_of_rewire hchanged
  exact hgraph ▸ h hknown

/-- Unplugging detaches the ports of a composite and leaves every other node alone. -/
theorem eq_of_unplug {node : NodeId} {changed : Network} (h : net.unplug node = .ok changed) :
    changed.graph = net.graph ∨ ∃ ports, net.graph.interface? node = some ports ∧
      changed.graph =
        (ports.inlets.foldl Graph.disconnectInlet net.graph).disconnectOutlet ports.outlet := by
  unfold unplug at h
  split at h
  next => cases h
  next record hrecord =>
    -- Only a primitive is unplugged; any other node is left as it is
    split at h
    next ports _ hkind =>
      obtain rfl := Except.ok.inj h
      refine Or.inr ⟨ports, ?_, rfl⟩
      simp [Graph.interface?, hrecord, Node.interface?, hkind]
    next =>
      obtain rfl := Except.ok.inj h
      exact Or.inl rfl

end Network

/-- Whether a call wires an outlet into an inlet. -/
def Call.connects : Call → Bool
  | .connect .. => true
  | _ => false

/-- Whether a call gives or takes an exit its target. -/
def Call.redirects : Call → Bool
  | .direct .. | .undirect .. => true
  | _ => false

/-- Whether a call runs the network. -/
def Call.runs : Call → Bool
  | .execute | .step => true
  | _ => false

/-- What a call that does not run a network makes of its graph: nothing, if it only reads or is
refused, and otherwise what is asked for, with handles that are known. -/
inductive Graph.Obeys (graph : Graph) : Call → Graph → Prop where
  | rest {call : Call} : Obeys graph call graph
  | writeInlet {node : NodeId} {index : Nat} {value : Value} {ports : Interface} {inlet : InletId}
      (hports : graph.interface? node = some ports) (hinlet : ports.inlets[index]? = some inlet)
      (hport : graph.HasPort (.inlet inlet)) :
      Obeys graph (.writeInlet node index value) (graph.writeInlet inlet value)
  /-- A register is shown at the first inlet as well. -/
  | setState {node : NodeId} {value : Value} {ports : Interface} {inlet : InletId}
      (hports : graph.interface? node = some ports) (hinlet : ports.inlets[0]? = some inlet)
      (hport : graph.HasPort (.inlet inlet)) :
      Obeys graph (.setState node value) ((graph.modifyNode node
        (Node.modifyInterface fun ports => { ports with register := value })).writeInlet inlet
          value)
  | setCalls {node : NodeId} {calls : UInt32} : Obeys graph (.setCalls node calls)
      (graph.modifyNode node (Node.modifyInterface fun ports => { ports with calls }))
  | resetCalls : Obeys graph .resetCalls { graph with
      nodes := graph.nodes.map (Node.modifyInterface fun ports => { ports with calls := 0 }) }
  | setTraced {node : NodeId} {traced : Bool} : Obeys graph (.setTraced node traced)
      (graph.modifyNode node fun record => { record with traced })
  | connect {inlet : InletId} {outlet : OutletId} (hinlet : graph.HasPort (.inlet inlet))
      (houtlet : graph.HasPort (.outlet outlet)) :
      Obeys graph (.connect inlet outlet) (graph.connect inlet outlet)
  | disconnectInlet {inlet : InletId} :
      Obeys graph (.disconnectInlet inlet) (graph.detach (.inlet inlet))
  | disconnectOutlet {outlet : OutletId} :
      Obeys graph (.disconnectOutlet outlet) (graph.detach (.outlet outlet))
  /-- All data ports of a composite are detached, its outlet last. -/
  | unplug {node : NodeId} {ports : Interface} (hports : graph.interface? node = some ports) :
      Obeys graph (.unplug node)
        ((ports.inlets.foldl Graph.disconnectInlet graph).detach (.outlet ports.outlet))
  | direct {exit : ExitId} {entry : EntryId} (hentry : graph.HasEntry entry) :
      Obeys graph (.direct exit entry) (graph.setTarget exit (some entry))
  | undirect {exit : ExitId} : Obeys graph (.undirect exit) (graph.setTarget exit none)

namespace Graph.Obeys

variable {graph graph' : Graph} {call : Call}

/-- **A call that redirects no exit uses the graph.** -/
theorem uses (h : graph.Obeys call graph') (hcall : call.redirects = false) :
    graph.Uses graph' := by
  cases h with
  | rest => exact .refl
  | writeInlet _ _ hport => exact graph.uses_writeInlet hport _
  | @setState node value _ inlet _ _ hport =>
    -- The register is remembered first; the write of the inlet then goes to a changed graph.
    let remembered := graph.modifyNode node
      (Node.modifyInterface fun ports => { ports with register := value })
    have hset : graph.Use remembered :=
      graph.use_modifyNode node (Node.form_modifyInterface fun _ => rfl)
    exact .trans (.single hset) (remembered.uses_writeInlet hport value)
  | setCalls => exact .single (graph.use_modifyNode _ (Node.form_modifyInterface fun _ => rfl))
  | resetCalls =>
    refine .single (.remember graph ?_)
    rw [Array.map_map]
    exact congrArg (graph.nodes.map ·) (funext (Node.form_modifyInterface fun _ => rfl))
  | setTraced => exact .single (graph.use_modifyNode _ fun _ => rfl)
  | connect hinlet houtlet => exact .single (.connect graph hinlet houtlet)
  | disconnectInlet => exact .single (.detach graph _)
  | disconnectOutlet => exact .single (.detach graph _)
  | unplug => exact .tail (uses_foldl_disconnectInlet _ graph) (.detach _ _)
  | direct => cases hcall
  | undirect => cases hcall

/-- A call that redirects an exit does nothing else. -/
theorem eq_of_redirects (h : graph.Obeys call graph') (hcall : call.redirects = true) :
    graph' = graph ∨ ∃ exit target, (∀ entry ∈ target, graph.HasEntry entry) ∧
      graph' = graph.setTarget exit target := by
  cases h with
  | rest => exact Or.inl rfl
  | direct hentry =>
    exact Or.inr ⟨_, _, fun _ hmem => Option.some.inj hmem ▸ hentry, rfl⟩
  | undirect => exact Or.inr ⟨_, none, by simp, rfl⟩
  | _ => cases hcall

end Graph.Obeys

namespace Network

variable {net : Network}

/-- **A call that does not run a network is obeyed or refused**, whatever handles it is given. -/
theorem obeys_perform (hclosed : net.graph.Closed) {call : Call} (hruns : call.runs = false) :
    net.graph.Obeys call (net.perform call).1.graph := by
  have hread {α : Type} (result : Except AccessError α) (reply : α → Reply) :
      net.graph.Obeys call (net.read result reply).1.graph := by
    rw [read_fst]
    exact .rest
  -- A call that fails leaves the network alone, and so does one that only reads
  cases call with
  | writeInlet node index value =>
    refine change_induction .rest fun changed hchanged => ?_
    obtain ⟨ports, inlet, hports, hinlet, hport, hgraph⟩ := exists_of_writeInlet hclosed hchanged
    exact hgraph ▸ .writeInlet hports hinlet hport
  | readOutlet node => exact hread (net.output node) .value
  | readState node => exact hread (net.state node) .value
  | setState node value =>
    refine change_induction .rest fun changed hchanged => ?_
    obtain ⟨ports, inlet, hports, hinlet, hport, hgraph⟩ := exists_of_setState hclosed hchanged
    exact hgraph ▸ .setState hports hinlet hport
  | readCalls node => exact hread (net.calls node) .calls
  | setCalls node calls =>
    refine change_induction .rest fun changed hchanged => ?_
    obtain ⟨_, _, hchanged⟩ := Except.bind_eq_ok_iff.mp hchanged
    exact Except.ok.inj hchanged ▸ .setCalls
  | resetCalls => exact .resetCalls
  | setTraced node traced =>
    refine change_induction .rest fun changed hchanged => ?_
    unfold setTraced at hchanged
    split at hchanged
    next => cases hchanged
    next => exact Except.ok.inj hchanged ▸ .setTraced
  | clearLedger => exact .rest
  -- The handles of a wiring call are checked before anything is written
  | connect inlet outlet =>
    refine rewire_induction .rest fun hknown => ?_
    rw [Bool.and_eq_true] at hknown
    exact .connect (of_decide_eq_true hknown.1) (of_decide_eq_true hknown.2)
  | disconnectInlet inlet => exact rewire_induction .rest fun _ => .disconnectInlet
  | disconnectOutlet outlet => exact rewire_induction .rest fun _ => .disconnectOutlet
  | unplug node =>
    refine change_induction .rest fun changed hchanged => ?_
    rcases eq_of_unplug hchanged with hgraph | ⟨ports, hports, hgraph⟩
    · exact hgraph ▸ .rest
    · exact hgraph ▸ .unplug hports
  | direct exit entry =>
    refine rewire_induction .rest fun hknown => ?_
    rw [Bool.and_eq_true] at hknown
    have hentry : entry.index < net.graph.entries.size := of_decide_eq_true hknown.2
    exact .direct hentry
  | undirect exit => exact rewire_induction .rest fun _ => .undirect
  | execute => cases hruns
  | step => cases hruns

/-- A call that runs a network leaves what the run leaves. -/
theorem perform_fst_of_runs {call : Call} (hruns : call.runs = true) :
    (net.perform call).1 = net.execute.1 := by
  cases call with
  | execute => rfl
  | step => rfl
  | _ => cases hruns

/-- **A call that redirects no exit uses the graph**, whatever handles it is given. -/
theorem uses_perform (hclosed : net.graph.Closed) (call : Call) (hcall : call.redirects = false) :
    net.graph.Uses (net.perform call).1.graph := by
  -- A run is a sequence of moves; every other call is obeyed or refused.
  cases hruns : call.runs with
  | false => exact (obeys_perform hclosed hruns).uses hcall
  | true =>
    rw [perform_fst_of_runs hruns]
    exact (moves_execute hclosed).uses

/-- What holds of a graph however it is used and wherever an exit hands the token to, holds of it
after every call. -/
theorem perform_induction {motive : Graph → Prop} (hclosed : net.graph.Closed) (call : Call)
    (huses : ∀ {graph}, net.graph.Uses graph → motive graph)
    (htarget : ∀ exit target, (∀ entry ∈ target, net.graph.HasEntry entry) →
      motive (net.graph.setTarget exit target)) :
    motive (net.perform call).1.graph := by
  cases hcall : call.redirects with
  | false => exact huses (uses_perform hclosed call hcall)
  | true =>
    have hruns : call.runs = false := by
      -- A run does not redirect, so what is left is a call that is obeyed or refused
      cases call with
      | execute | step => cases hcall
      | _ => rfl
    rcases (obeys_perform hclosed hruns).eq_of_redirects hcall with
      hsame | ⟨exit, target, hentry, hset⟩
    · exact hsame ▸ huses .refl
    · exact hset ▸ htarget exit target hentry

/-- **A call is a sequence of changes**, whatever handles it is given. -/
theorem leads_perform (hclosed : net.graph.Closed) (call : Call) :
    net.graph.Leads (net.perform call).1.graph :=
  perform_induction hclosed call (·.leads) fun exit _ hentry =>
    .single (.target net.graph exit hentry)

/-- What every call keeps, every sequence of calls keeps. -/
theorem performAll_induction {kept : Graph → Graph → Prop} (hrefl : ∀ graph, kept graph graph)
    (htrans : ∀ {first second third}, kept first second → kept second third → kept first third)
    (hstep : ∀ {net : Network}, net.graph.Closed → ∀ call : Call,
      kept net.graph (net.perform call).1.graph) :
    ∀ (calls : List Call) {net : Network}, net.graph.Closed →
    kept net.graph (net.performAll calls).1.graph
  | [], net, _ => hrefl net.graph
  | call :: rest, _, hclosed =>
    -- What the first call leaves is closed again, which the later calls need
    have hlater := (leads_perform hclosed call).closed hclosed
    htrans (hstep hclosed call) (performAll_induction hrefl htrans hstep rest hlater)

theorem leads_performAll (calls : List Call) {net : Network} (hclosed : net.graph.Closed) :
    net.graph.Leads (net.performAll calls).1.graph :=
  performAll_induction (fun _ => .refl) .trans leads_perform calls hclosed

/-! ## What calls never change -/

/-- A request that is refused changes nothing. -/
theorem exists_graph_change {result : Except AccessError Network}
    (h : ∀ changed, result = .ok changed → ∃ graph, changed = { net with graph }) :
    ∃ graph, (net.change result).1 = { net with graph } := by
  cases result with
  | ok changed => exact h changed rfl
  | error error => exact ⟨net.graph, rfl⟩

theorem exists_graph_read {α : Type} (result : Except AccessError α) (reply : α → Reply) :
    ∃ graph, (net.read result reply).1 = { net with graph } :=
  ⟨net.graph, by rw [read_fst]⟩

theorem exists_graph_rewire (known : Bool) (change : Graph → Graph) :
    ∃ graph, (net.change (net.rewire known change)).1 = { net with graph } := by
  cases known with
  | true => exact ⟨change net.graph, rfl⟩
  | false => exact ⟨net.graph, rfl⟩

/-- **A call changes the graph at most, or it empties the ledger, or it runs the network.** -/
theorem perform_cases (net : Network) (call : Call) :
    (∃ graph, (net.perform call).1 = { net with graph }) ∨
      (net.perform call).1 = net.clearLedger ∨ (net.perform call).1 = net.execute.1 := by
  -- A call either changes the graph alone, or clears the ledger, or runs the network
  cases call with
  | writeInlet node index value =>
    refine Or.inl (exists_graph_change fun changed h => ?_)
    obtain ⟨ports, _, h⟩ := Except.bind_eq_ok_iff.mp h
    split at h
    next => exact ⟨_, (Except.ok.inj h).symm⟩
    next => cases h
  | setState node value =>
    refine Or.inl (exists_graph_change fun changed h => ?_)
    obtain ⟨ports, _, h⟩ := Except.bind_eq_ok_iff.mp h
    split at h
    next => cases h
    next => exact ⟨_, (Except.ok.inj h).symm⟩
  | setCalls node calls =>
    refine Or.inl (exists_graph_change fun changed h => ?_)
    obtain ⟨ports, _, h⟩ := Except.bind_eq_ok_iff.mp h
    exact ⟨_, (Except.ok.inj h).symm⟩
  | setTraced node traced =>
    refine Or.inl (exists_graph_change fun changed h => ?_)
    unfold setTraced at h
    split at h
    next => cases h
    next => exact ⟨_, (Except.ok.inj h).symm⟩
  | unplug node =>
    refine Or.inl (exists_graph_change fun changed h => ?_)
    unfold unplug at h
    split at h
    next => cases h
    next => split at h <;> exact ⟨_, (Except.ok.inj h).symm⟩
  | readOutlet node => exact Or.inl (exists_graph_read (net.output node) .value)
  | readState node => exact Or.inl (exists_graph_read (net.state node) .value)
  | readCalls node => exact Or.inl (exists_graph_read (net.calls node) .calls)
  | resetCalls => exact Or.inl ⟨_, rfl⟩
  | connect => exact Or.inl (exists_graph_rewire _ _)
  | disconnectInlet => exact Or.inl (exists_graph_rewire _ _)
  | disconnectOutlet => exact Or.inl (exists_graph_rewire _ _)
  | direct => exact Or.inl (exists_graph_rewire _ _)
  | undirect => exact Or.inl (exists_graph_rewire _ _)
  | clearLedger => exact Or.inr (Or.inl rfl)
  | execute => exact Or.inr (Or.inr rfl)
  | step => exact Or.inr (Or.inr rfl)

/-- Two networks have the same root and the same issues. -/
structure SameBuild (net net' : Network) : Prop where
  root : net'.root = net.root
  issues : net'.issues = net.issues

namespace SameBuild

theorem refl (net : Network) : net.SameBuild net :=
  ⟨rfl, rfl⟩

theorem trans {net' net'' : Network} (h : net.SameBuild net') (h' : net'.SameBuild net'') :
    net.SameBuild net'' :=
  ⟨h'.root.trans h.root, h'.issues.trans h.issues⟩

theorem execute (net : Network) : net.SameBuild net.execute.1 := by
  unfold Network.execute
  split <;> exact ⟨rfl, rfl⟩

end SameBuild

/-- **Every call keeps the root and the issues.** -/
theorem sameBuild_perform (net : Network) (call : Call) : net.SameBuild (net.perform call).1 := by
  rcases net.perform_cases call with ⟨graph, hcall⟩ | hcall | hcall
  · exact hcall ▸ ⟨rfl, rfl⟩
  · exact hcall ▸ ⟨rfl, rfl⟩
  · exact hcall ▸ .execute net

theorem sameBuild_performAll (net : Network) (calls : List Call) :
    net.SameBuild (net.performAll calls).1 := by
  induction calls generalizing net with
  | nil => exact .refl net
  | cons call rest ih => exact (net.sameBuild_perform call).trans (ih _)

/-! ## Histories -/

theorem leads_instantiate {library : Library} {identifier : String} {options : BuildOptions}
    {built : Network} (h : library.instantiate identifier options = .ok built) :
    Graph.Leads {} built.graph ∧ built.graph.Hosts built.root := by
  unfold Library.instantiate at h
  split at h
  next => cases h
  next root draft hbuild =>
    obtain rfl := Except.ok.inj h
    exact Library.leads_of_build hbuild

/-- **A history is a sequence of changes** that begins with the empty graph: the build and all
calls after it. -/
theorem leads_of_instantiate {library : Library} {identifier : String} {options : BuildOptions}
    {built : Network} (h : library.instantiate identifier options = .ok built)
    (calls : List Call) : Graph.Leads {} (built.performAll calls).1.graph :=
  have hbuilt := (leads_instantiate h).1
  hbuilt.trans (leads_performAll calls (hbuilt.closed .empty))

/-- A network that can come about: some library builds it, and then any calls are made. -/
def Reachable (net : Network) : Prop :=
  ∃ (library : Library) (identifier : String) (options : BuildOptions) (built : Network)
    (calls : List Call), library.instantiate identifier options = .ok built ∧
      net = (built.performAll calls).1

namespace Reachable

theorem leads (h : net.Reachable) : Graph.Leads {} net.graph := by
  obtain ⟨_, _, _, _, calls, hbuilt, rfl⟩ := h
  exact leads_of_instantiate hbuilt calls

theorem linked (h : net.Reachable) : net.graph.Linked :=
  h.leads.linked .empty

theorem closed (h : net.Reachable) : net.graph.Closed :=
  h.leads.closed .empty

end Reachable

end Network

end TokenNet
