import TokenNet.Call
import TokenNet.Proofs.Change.Options

/-!
# Tracing does not interfere

A traced node is recorded when it fires, and nothing else comes of the mark.  The argument forgets
all that tracing leaves behind, the marks, the ledger and the number of runs, and shows that
forgetting before an operation comes to the same as forgetting after it.  Two networks that become
equal once this is forgotten therefore stay so, and they answer alike.

## Main statements

- `Library.instantiate_untraced`: a build that marks every node is aborted like one that marks
  none, or ends with the same network but for the marks.
- `Graph.fire_untraced`: a firing does not look at the marks.
- `Network.perform_unmarked`: nor does any call.
- `Network.tracing_irrelevant`: calls that only concern the recording can be inserted anywhere.
-/

namespace TokenNet

/-! ## Builds -/

/-- A network without the marks of tracing. -/
def Network.untraced (net : Network) : Network := { net with graph := net.graph.untraced }

theorem Draft.untraced_empty : Draft.untraced {} = {} := by
  simp only [Draft.untraced, Graph.untraced, Array.map_empty]

/-- A build that marks its nodes ends like one that does not. -/
theorem Library.instantiate_untraced (library : Library) (identifier : String)
    (options : BuildOptions) :
    library.instantiate identifier { options with traced := false } =
      (library.instantiate identifier options).map Network.untraced := by
  unfold instantiate build
  cases library.find identifier with
  | error refusal => rfl
  | ok spec =>
    -- Growing without tracing is growing with it, and leaving it out afterwards
    have hgrow := Draft.grow_untraced_eq library options.traced options.limits.nestingLimit
      (options.limits.nestingLimit + 1) spec options.implementation {}
    rw [Draft.untraced_empty] at hgrow
    dsimp only
    rw [hgrow]
    cases Draft.grow library options.traced options.limits.nestingLimit
      (options.limits.nestingLimit + 1) spec options.implementation {} <;> rfl

/-! ## Firings -/

namespace Graph

theorem untraced_mark (graph : Graph) (node : NodeId) (traced : Bool) :
    (graph.modifyNode node fun record => { record with traced }).untraced = graph.untraced := by
  have hnodes := @map_modify_eq Node Node graph.nodes node.index
    (fun record => { record with traced }) Node.untraced fun _ => rfl
  exact congrArg (fun nodes => ({ graph with nodes } : Graph)) hnodes

theorem untraced_setValue (graph : Graph) (cell : CellId) (value : Value) :
    (graph.setValue cell value).untraced = graph.untraced.setValue cell value :=
  (List.foldl_hom untraced fun _ _ => rfl).symm

theorem untraced_writeInlet (graph : Graph) (inlet : InletId) (value : Value) :
    (graph.writeInlet inlet value).untraced = graph.untraced.writeInlet inlet value := by
  have hcell : graph.untraced.inletCell? inlet = graph.inletCell? inlet := rfl
  unfold writeInlet ensureInletCell
  rw [hcell]
  cases graph.inletCell? inlet <;> exact untraced_setValue _ _ value

theorem untraced_writeOwnOutlet (graph : Graph) (outlet : OutletId) (value : Value) :
    (graph.writeOwnOutlet outlet value).untraced = graph.untraced.writeOwnOutlet outlet value := by
  have hcell : graph.untraced.outletCell? outlet = graph.outletCell? outlet := rfl
  unfold writeOwnOutlet ensureOutletCell
  rw [hcell]
  cases graph.outletCell? outlet <;> exact untraced_setValue _ _ value

theorem untraced_writeOutlet (graph : Graph) (outlet : OutletId) (value : Value) :
    (graph.writeOutlet outlet value).untraced = graph.untraced.writeOutlet outlet value := by
  unfold writeOutlet
  rw [show graph.untraced.outlets.size = graph.outlets.size from rfl, relays_untraced]
  exact (List.foldl_hom untraced fun g member => (g.untraced_writeOwnOutlet member value).symm).symm

theorem emit_untraced (graph : Graph) (node : NodeId) (ports : Interface)
    (evaluation : Evaluation) (events : List Event) :
    graph.untraced.emit node ports evaluation [] =
      ⟨(graph.emit node ports evaluation events).graph.untraced, [],
        (graph.emit node ports evaluation events).result⟩ := by
  unfold emit
  rw [← untraced_writeOutlet]

/-- **A firing does not look at the marks**, which only decide what is recorded. -/
theorem fire_untraced (graph : Graph) (callLimit : UInt32) (node : NodeId) :
    graph.untraced.fire callLimit node =
      ⟨(graph.fire callLimit node).graph.untraced, [], (graph.fire callLimit node).result⟩ := by
  unfold fire
  rw [node?_untraced]
  cases graph.node? node with
  | none => rfl
  | some record =>
    obtain ⟨specification, parent, role, traced, kind⟩ := record
    cases kind with
    | composite ports parts => rfl
    | join entry exit => rfl
    | native primitive ports =>
      have hreading : graph.untraced.reading = graph.reading := rfl
      simp only [Option.map_some, Node.untraced, firePrimitive, hreading]
      -- The request is recorded before the inputs are judged, so a fault may follow it
      cases primitive.evaluate (ports.inlets.map graph.reading) with
      | error value => rfl
      | ok evaluation =>
        cases hregister : evaluation.register with
        | none =>
          simp only [hregister]
          exact graph.emit_untraced node ports evaluation _
        | some register =>
          have hcount : graph.untraced.countCall node register =
              (graph.countCall node register).untraced :=
            (graph.untraced_modifyInterface node _).symm
          simp only [hregister]
          rw [hcount]
          split
          · rfl
          · exact (graph.countCall node register).emit_untraced node ports evaluation _

/-! ## Unwiring -/

theorem untraced_dropOrphan (graph : Graph) (cell : CellId) :
    (graph.dropOrphan cell).untraced = graph.untraced.dropOrphan cell := by
  have hcell : graph.untraced.cell? cell = graph.cell? cell := rfl
  unfold dropOrphan
  rw [hcell]
  split <;> rfl

theorem untraced_disconnectInlet (graph : Graph) (inlet : InletId) :
    (graph.disconnectInlet inlet).untraced = graph.untraced.disconnectInlet inlet := by
  have hcell : graph.untraced.inletCell? inlet = graph.inletCell? inlet := rfl
  unfold disconnectInlet
  rw [hcell]
  cases graph.inletCell? inlet with
  | none => rfl
  | some cell => exact untraced_dropOrphan _ cell

theorem untraced_disconnectOutlet (graph : Graph) (outlet : OutletId) :
    (graph.disconnectOutlet outlet).untraced = graph.untraced.disconnectOutlet outlet := by
  have hcell : graph.untraced.outletCell? outlet = graph.outletCell? outlet := rfl
  unfold disconnectOutlet
  rw [hcell]
  cases graph.outletCell? outlet with
  | none => rfl
  | some cell => exact untraced_dropOrphan _ cell

end Graph

/-! ## Runs -/

namespace Run

theorem fireAt_untraced {callLimit : UInt32} {run run' : Nat} {entry : EntryId}
    {state state' : State} (h : state.graph.untraced = state'.graph.untraced) :
    (fireAt callLimit run entry state).1.graph.untraced =
        (fireAt callLimit run' entry state').1.graph.untraced ∧
      (fireAt callLimit run entry state).2 = (fireAt callLimit run' entry state').2 := by
  -- Which node stands at an entry does not depend on what is traced
  have hnode : ∀ graph : Graph, nodeAt graph.untraced entry = nodeAt graph entry := by
    intro graph
    unfold nodeAt
    rw [Graph.size_nodes_untraced]
    rfl
  have hfire (graph : Graph) := graph.fire_untraced callLimit (nodeAt graph entry)
  have hsame : nodeAt state.graph entry = nodeAt state'.graph entry := by
    rw [← hnode, h, hnode]
  have hfired := hfire state.graph
  rw [h, hsame, hfire state'.graph] at hfired
  obtain ⟨hgraph, -, hresult⟩ := Firing.mk.inj hfired
  exact ⟨by simpa only [fireAt, hsame] using hgraph.symm,
    by simpa only [fireAt, hsame] using hresult.symm⟩

/-- A walk does not look at the marks, the ledger or the number of the run. -/
theorem walk_untraced {callLimit : UInt32} {limit run run' : Nat} {budget steps : Nat}
    {entry : EntryId} {state state' : State} (h : state.graph.untraced = state'.graph.untraced) :
    (walk callLimit limit run budget steps entry state).1.graph.untraced =
        (walk callLimit limit run' budget steps entry state').1.graph.untraced ∧
      (walk callLimit limit run budget steps entry state).2 =
        (walk callLimit limit run' budget steps entry state').2 := by
  induction budget generalizing steps entry state state' with
  | zero => exact ⟨h, rfl⟩
  | succ budget ih =>
    obtain ⟨hgraph, hresult⟩ := @fireAt_untraced callLimit run run' entry state state' h
    unfold walk
    cases hfired : fireAt callLimit run entry state with
    | mk fired result =>
      cases hfired' : fireAt callLimit run' entry state' with
      | mk fired' result' =>
        rw [hfired, hfired'] at hgraph hresult
        obtain rfl : result = result' := hresult
        cases result with
        | error fault => exact ⟨hgraph, rfl⟩
        | ok exit =>
          -- Where the token goes next is not a matter of marks
          have htarget : fired.graph.target? exit = fired'.graph.target? exit :=
            (congrArg (fun graph : Graph => graph.target? exit) hgraph :)
          dsimp only
          rw [htarget]
          cases fired'.graph.target? exit with
          | none => exact ⟨hgraph, rfl⟩
          | some next => exact ih hgraph

end Run

/-! ## Calls -/

namespace Network

/-- A network without all that tracing leaves behind: the marks, the ledger and the number of
runs. -/
def unmarked (net : Network) : Network := { net.untraced with ledger := {}, runs := 0 }

theorem graph_unmarked (net : Network) : net.unmarked.graph = net.graph.untraced := rfl

theorem interface_unmarked (net : Network) : net.unmarked.interface = net.interface := by
  funext node
  unfold interface
  rw [graph_unmarked, Graph.node?_untraced]
  cases net.graph.node? node <;> rfl

theorem output_unmarked (net : Network) : net.unmarked.output = net.output := by
  funext node
  unfold output
  rw [interface_unmarked]
  rfl

theorem entry?_unmarked (net : Network) : net.unmarked.entry? = net.entry? := by
  unfold entry?
  rw [graph_unmarked, Graph.interface?_untraced]
  rfl

theorem exitPosition_unmarked (net : Network) : net.unmarked.exitPosition = net.exitPosition := by
  funext exit
  unfold exitPosition
  rw [graph_unmarked, Graph.interface?_untraced]
  rfl

theorem find?_unmarked (net : Network) : net.unmarked.find? = net.find? := by
  funext path
  unfold find?
  rw [graph_unmarked, Graph.part?_untraced]
  rfl

theorem specification_unmarked (net : Network) : net.unmarked.specification = net.specification := by
  unfold specification rootNode?
  rw [graph_unmarked, Graph.node?_untraced]
  show Option.getD (((net.graph.node? net.root).map Node.untraced).map Node.specification) "" = _
  cases net.graph.node? net.root <;> rfl

theorem registers_unmarked (net : Network) : net.unmarked.registers = net.registers := by
  unfold registers
  rw [graph_unmarked]
  unfold Graph.untraced
  rw [Array.toList_map, List.zipIdx_map, List.filterMap_map]
  rfl

/-- A change of the graph alone is made on the same network without the marks. -/
theorem rewire_unmarked (net : Network) (known : Bool) (change : Graph → Graph)
    (h : (change net.graph).untraced = change net.graph.untraced) :
    net.unmarked.rewire known change = (net.rewire known change).map unmarked := by
  unfold rewire
  split
  · rw [graph_unmarked, ← h]
    rfl
  · rfl

theorem writeInlet_unmarked (net : Network) (node : NodeId) (index : Nat) (value : Value) :
    net.unmarked.writeInlet node index value = (net.writeInlet node index value).map unmarked := by
  unfold writeInlet
  rw [interface_unmarked]
  cases net.interface node with
  | error error => rfl
  | ok ports =>
    dsimp only [bind, Except.bind]
    cases ports.inlets[index]? with
    | none => rfl
    -- The write is the same on the graph without marks
    | some inlet =>
      dsimp only
      rw [graph_unmarked, ← Graph.untraced_writeInlet]
      rfl

theorem setState_unmarked (net : Network) (node : NodeId) (value : Value) :
    net.unmarked.setState node value = (net.setState node value).map unmarked := by
  unfold setState
  rw [interface_unmarked]
  cases net.interface node with
  | error error => rfl
  | ok ports =>
    obtain ⟨inlets, _, _, _, _, _, _⟩ := ports
    cases inlets with
    | nil => rfl
    -- Remembering and writing both leave the marks alone
    | cons first rest =>
      show Except.ok _ = Except.ok _
      rw [graph_unmarked, ← Graph.untraced_modifyInterface, ← Graph.untraced_writeInlet]
      rfl

theorem setCalls_unmarked (net : Network) (node : NodeId) (calls : UInt32) :
    net.unmarked.setCalls node calls = (net.setCalls node calls).map unmarked := by
  unfold setCalls
  rw [interface_unmarked]
  cases net.interface node with
  | error error => rfl
  | ok ports =>
    show Except.ok _ = Except.ok _
    rw [graph_unmarked, ← Graph.untraced_modifyInterface]
    rfl

theorem resetCalls_unmarked (net : Network) : net.unmarked.resetCalls = net.resetCalls.unmarked := by
  unfold resetCalls unmarked untraced Graph.untraced
  simp only [Array.map_map]
  rfl

theorem connect_unmarked (net : Network) (inlet : InletId) (outlet : OutletId) :
    net.unmarked.connect inlet outlet = (net.connect inlet outlet).map unmarked :=
  net.rewire_unmarked _ _ (net.graph.untraced_connect inlet outlet)

theorem disconnectInlet_unmarked (net : Network) (inlet : InletId) :
    net.unmarked.disconnectInlet inlet = (net.disconnectInlet inlet).map unmarked :=
  net.rewire_unmarked _ _ (net.graph.untraced_disconnectInlet inlet)

theorem disconnectOutlet_unmarked (net : Network) (outlet : OutletId) :
    net.unmarked.disconnectOutlet outlet = (net.disconnectOutlet outlet).map unmarked :=
  net.rewire_unmarked _ _ (net.graph.untraced_disconnectOutlet outlet)

theorem direct_unmarked (net : Network) (exit : ExitId) (entry : EntryId) :
    net.unmarked.direct exit entry = (net.direct exit entry).map unmarked :=
  net.rewire_unmarked _ (fun graph => graph.setTarget exit (some entry)) rfl

theorem undirect_unmarked (net : Network) (exit : ExitId) :
    net.unmarked.undirect exit = (net.undirect exit).map unmarked :=
  net.rewire_unmarked _ (fun graph => graph.setTarget exit none) rfl

theorem unplug_unmarked (net : Network) (node : NodeId) :
    net.unmarked.unplug node = (net.unplug node).map unmarked := by
  unfold unplug
  rw [graph_unmarked, Graph.node?_untraced]
  cases net.graph.node? node with
  | none => rfl
  | some record =>
    obtain ⟨specification, parent, role, traced, kind⟩ := record
    cases kind with
    -- The pins of the composite are disconnected one after the other, marked or not
    | composite ports parts =>
      have hinlets : (ports.inlets.foldl Graph.disconnectInlet net.graph).untraced =
          ports.inlets.foldl Graph.disconnectInlet net.graph.untraced :=
        (List.foldl_hom Graph.untraced fun g inlet => (g.untraced_disconnectInlet inlet).symm).symm
      show Except.ok _ = Except.ok _
      rw [← hinlets, ← Graph.untraced_disconnectOutlet]
      rfl
    | _ => rfl

end Network

/-- Whether a call only concerns the recording: it marks a node or empties the ledger. -/
def Call.isTracing : Call → Bool
  | .setTraced .. => true
  | .clearLedger => true
  | _ => false

namespace Network

variable {net net' : Network}

theorem change_unmarked {result result' : Except AccessError Network}
    (h : net.unmarked = net'.unmarked) (hresult : result.map unmarked = result'.map unmarked) :
    (net.change result).1.unmarked = (net'.change result').1.unmarked ∧
      (net.change result).2 = (net'.change result').2 := by
  -- Both results are refusals, or both are changes
  cases result with
  | error error =>
    cases result' with
    | error error' =>
      obtain rfl : error = error' := Except.error.inj hresult
      exact ⟨h, rfl⟩
    | ok changed' => cases hresult
  | ok changed =>
    cases result' with
    | error error' => cases hresult
    | ok changed' => exact ⟨Except.ok.inj hresult, rfl⟩

theorem read_unmarked {α : Type} {result result' : Except AccessError α} {reply : α → Reply}
    (h : net.unmarked = net'.unmarked) (hresult : result = result') :
    (net.read result reply).1.unmarked = (net'.read result' reply).1.unmarked ∧
      (net.read result reply).2 = (net'.read result' reply).2 := by
  subst hresult
  cases result <;> exact ⟨h, rfl⟩

theorem execute_unmarked (h : net.unmarked = net'.unmarked) :
    net.execute.1.unmarked = net'.execute.1.unmarked ∧ net.execute.2 = net'.execute.2 := by
  have hentry : net.entry? = net'.entry? := by
    rw [← entry?_unmarked, h, entry?_unmarked]
  obtain ⟨hgraph, hroot, hlimits, -, hissues, -⟩ := Network.mk.inj h
  have hlimits : net.limits = net'.limits := hlimits
  unfold execute
  rw [hentry, hlimits]
  cases net'.entry? with
  | none => exact ⟨h, rfl⟩
  | some entry =>
    obtain ⟨hwalked, hresult⟩ := @Run.walk_untraced net'.limits.callLimit net'.limits.chainLimit
      (net.runs + 1) (net'.runs + 1) net'.limits.chainLimit 0 entry ⟨net.graph, net.ledger⟩
      ⟨net'.graph, net'.ledger⟩ hgraph
    dsimp only
    rw [hresult]
    generalize Run.walk net'.limits.callLimit net'.limits.chainLimit (net.runs + 1)
      net'.limits.chainLimit 0 entry ⟨net.graph, net.ledger⟩ = walked at hwalked ⊢
    generalize Run.walk net'.limits.callLimit net'.limits.chainLimit (net'.runs + 1)
      net'.limits.chainLimit 0 entry ⟨net'.graph, net'.ledger⟩ = walked' at hwalked ⊢
    have hlast : unmarked ⟨walked.1.graph, net.root, net'.limits, walked.1.ledger, net.issues,
        net.runs + 1⟩ = unmarked ⟨walked'.1.graph, net'.root, net'.limits, walked'.1.ledger,
          net'.issues, net'.runs + 1⟩ :=
      Network.mk.injEq .. ▸ ⟨hwalked, hroot, rfl, rfl, hissues, rfl⟩
    -- The position of the exit is read off the network that the walk leaves behind
    refine ⟨hlast, ?_⟩
    rw [← exitPosition_unmarked, hlast, exitPosition_unmarked]

/-- **No call looks at what tracing leaves behind**, and none makes more of it than tracing does. -/
theorem perform_unmarked (h : net.unmarked = net'.unmarked) (call : Call)
    (hcall : call.isTracing = false) :
    (net.perform call).1.unmarked = (net'.perform call).1.unmarked ∧
      (net.perform call).2 = (net'.perform call).2 := by
  have hinterface : net.interface = net'.interface := by
    rw [← interface_unmarked, h, interface_unmarked]
  have houtput : net.output = net'.output := by
    rw [← output_unmarked, h, output_unmarked]
  -- Each answer is the answer of the unmarked network, which the two have in common
  cases call with
  | setTraced node traced => cases hcall
  | clearLedger => cases hcall
  | readOutlet node => exact read_unmarked h (by rw [houtput])
  | readState node => exact read_unmarked h (by unfold state; rw [hinterface])
  | readCalls node => exact read_unmarked h (by unfold calls; rw [hinterface])
  | writeInlet node index value =>
    exact change_unmarked h (by rw [← writeInlet_unmarked, h, writeInlet_unmarked])
  | setState node value =>
    exact change_unmarked h (by rw [← setState_unmarked, h, setState_unmarked])
  | setCalls node calls =>
    exact change_unmarked h (by rw [← setCalls_unmarked, h, setCalls_unmarked])
  | resetCalls =>
    refine ⟨?_, rfl⟩
    show net.resetCalls.unmarked = net'.resetCalls.unmarked
    rw [← resetCalls_unmarked, h, resetCalls_unmarked]
  | connect inlet outlet =>
    exact change_unmarked h (by rw [← connect_unmarked, h, connect_unmarked])
  | disconnectInlet inlet =>
    exact change_unmarked h (by rw [← disconnectInlet_unmarked, h, disconnectInlet_unmarked])
  | disconnectOutlet outlet =>
    exact change_unmarked h (by rw [← disconnectOutlet_unmarked, h, disconnectOutlet_unmarked])
  | unplug node => exact change_unmarked h (by rw [← unplug_unmarked, h, unplug_unmarked])
  | direct exit entry => exact change_unmarked h (by rw [← direct_unmarked, h, direct_unmarked])
  | undirect exit => exact change_unmarked h (by rw [← undirect_unmarked, h, undirect_unmarked])
  -- A run answers alike, and so does what is shown afterwards
  | execute =>
    obtain ⟨hnet, hresult⟩ := execute_unmarked h
    refine ⟨hnet, ?_⟩
    show (net.execute.2.map Reply.ending).mapError Refusal.fault = _
    rw [hresult]
    rfl
  | step =>
    obtain ⟨hnet, hresult⟩ := execute_unmarked h
    have hroot : net.execute.1.root = net'.execute.1.root := (congrArg Network.root hnet :)
    have houtput : net.execute.1.rootOutput? = net'.execute.1.rootOutput? := by
      unfold rootOutput?
      rw [← output_unmarked, hnet, output_unmarked, hroot]
    refine ⟨hnet, ?_⟩
    show ((net.execute.2.map fun ending =>
      (⟨ending, net.execute.1.rootOutput?⟩ : Outcome)).map Reply.outcome).mapError Refusal.fault = _
    rw [hresult, houtput]
    rfl

/-- A call that only concerns the recording leaves everything else as it is. -/
theorem unmarked_perform_of_isTracing (net : Network) {call : Call}
    (hcall : call.isTracing = true) : (net.perform call).1.unmarked = net.unmarked := by
  cases call with
  | clearLedger => rfl
  | setTraced node traced =>
    show (net.change (net.setTraced node traced)).1.unmarked = net.unmarked
    unfold setTraced
    cases net.graph.node? node with
    | none => rfl
    | some record =>
      exact congrArg (fun graph => ({ net.unmarked with graph } : Network))
        (net.graph.untraced_mark node traced)
  | _ => cases hcall

/-! ## Histories -/

/-- The answers to those of several calls that do not concern the recording. -/
def answers (net : Network) (calls : List Call) : List (Except Refusal Reply) :=
  ((calls.zip (net.performAll calls).2).filter fun (call, _) => !call.isTracing).map Prod.snd

/-- What can be read of two networks is the same, the marks, the ledger and the number of runs
aside. -/
structure ReadsAlike (net net' : Network) : Prop where
  issues : net.issues = net'.issues
  specification : net.specification = net'.specification
  entry? : net.entry? = net'.entry?
  find? : net.find? = net'.find?
  interface : net.interface = net'.interface
  output : net.output = net'.output
  registers : net.registers = net'.registers
  values : net.graph.portValue? = net'.graph.portValue?
  outline : net.graph.outline = net'.graph.outline

theorem readsAlike_of_unmarked (h : net.unmarked = net'.unmarked) : net.ReadsAlike net' where
  issues := (congrArg Network.issues h :)
  specification := by rw [← specification_unmarked, h, specification_unmarked]
  entry? := by rw [← entry?_unmarked, h, entry?_unmarked]
  find? := by rw [← find?_unmarked, h, find?_unmarked]
  interface := by rw [← interface_unmarked, h, interface_unmarked]
  output := by rw [← output_unmarked, h, output_unmarked]
  registers := by rw [← registers_unmarked, h, registers_unmarked]
  values := (congrArg (fun net => net.graph.portValue?) h :)
  -- The outline is a list of names and roles, and tells of no marks
  outline := by
    have houtline (graph : Graph) : graph.untraced.outline = graph.outline := by
      unfold Graph.outline
      rw [Graph.size_nodes_untraced]
      rfl
    rw [← houtline, ← houtline net'.graph]
    exact congrArg (fun net => net.graph.outline) h

/-- A history comes to the same as the history without the calls that only concern the recording,
even from a network that was recorded otherwise. -/
theorem performAll_unmarked (h : net.unmarked = net'.unmarked) (calls : List Call) :
    (net.performAll calls).1.unmarked =
        (net'.performAll (calls.filter fun call => !call.isTracing)).1.unmarked ∧
      net.answers calls = (net'.performAll (calls.filter fun call => !call.isTracing)).2 := by
  induction calls generalizing net net' with
  | nil => exact ⟨h, rfl⟩
  | cons call rest ih =>
    cases hcall : call.isTracing with
    -- A tracing call changes the marks alone, and is not answered for
    | true =>
      have hfirst : (net.perform call).1.unmarked = net'.unmarked :=
        (net.unmarked_perform_of_isTracing hcall).trans h
      have hfilter : (call :: rest).filter (fun call => !call.isTracing) =
          rest.filter fun call => !call.isTracing := by
        simp [hcall]
      obtain ⟨hnet, hanswers⟩ := ih hfirst
      rw [hfilter]
      refine ⟨hnet, ?_⟩
      rw [← hanswers]
      simp [answers, performAll, hcall]
    -- Any other call is performed on both sides
    | false =>
      obtain ⟨hfirst, hanswer⟩ := perform_unmarked h call hcall
      have hfilter : (call :: rest).filter (fun call => !call.isTracing) =
          call :: rest.filter fun call => !call.isTracing := by
        simp [hcall]
      obtain ⟨hnet, hanswers⟩ := ih hfirst
      rw [hfilter]
      refine ⟨hnet, ?_⟩
      simp only [performAll]
      rw [← hanswers, ← hanswer]
      simp [answers, performAll, hcall]

/-- **Tracing does not interfere.**  A build that marks every node and a build that marks none are
aborted for the same reason or end with the same network but for the marks.  From networks that
differ only in what tracing leaves behind, histories that differ only in calls that concern the
recording get the same answers, and they lead to networks that again differ only in that and read
alike. -/
theorem tracing_irrelevant :
    (∀ (library : Library) (identifier : String) (options : BuildOptions),
      (library.instantiate identifier { options with traced := true }).map untraced =
        (library.instantiate identifier { options with traced := false }).map untraced) ∧
    ∀ (net net' : Network) (calls calls' : List Call), net.unmarked = net'.unmarked →
      (calls.filter fun call => !call.isTracing) = (calls'.filter fun call => !call.isTracing) →
      net.answers calls = net'.answers calls' ∧
        (net.performAll calls).1.unmarked = (net'.performAll calls').1.unmarked ∧
        (net.performAll calls).1.ReadsAlike (net'.performAll calls').1 := by
  constructor
  · intro library identifier options
    have hmarked := library.instantiate_untraced identifier { options with traced := true }
    have hplain := library.instantiate_untraced identifier { options with traced := false }
    exact hmarked.symm.trans hplain
  -- Both histories come to the one with all tracing calls left out
  · intro net net' calls calls' h hcalls
    obtain ⟨hnet, hanswers⟩ := performAll_unmarked h calls
    obtain ⟨hnet', hanswers'⟩ := performAll_unmarked (rfl : net'.unmarked = net'.unmarked) calls'
    rw [hcalls] at hnet hanswers
    have hlast := hnet.trans hnet'.symm
    exact ⟨hanswers.trans hanswers'.symm, hlast, readsAlike_of_unmarked hlast⟩

/-- A network of a single bit. -/
def ofBit (traced : Bool) : Network where
  graph := (Graph.addNative {} .bit "!" traced).2
  root := ⟨0⟩

/-- A bit whose first firing fails and whose second does not: once recorded, with the recording
stopped and the ledger emptied in between, and once not recorded at all. -/
theorem tracing_irrelevant_bit :
    (ofBit true).unmarked = (ofBit false).unmarked ∧
      (ofBit true).answers [.writeInlet ⟨0⟩ 0 2, .step, .setTraced ⟨0⟩ false, .clearLedger,
          .writeInlet ⟨0⟩ 0 1, .step] =
        (ofBit false).answers [.writeInlet ⟨0⟩ 0 2, .step, .writeInlet ⟨0⟩ 0 1, .step] := by
  have h : (ofBit true).unmarked = (ofBit false).unmarked := by decide +kernel
  exact ⟨h, (tracing_irrelevant.2 _ _ _ _ h rfl).1⟩

end Network

end TokenNet
