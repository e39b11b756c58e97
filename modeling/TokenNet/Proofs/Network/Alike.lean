import TokenNet.Proofs.Run.Alike

/-!
# Networks of one scheme

Two networks whose graphs have one scheme cannot be told apart by calls: every call is answered in
the same way by both, and leaves networks of one scheme behind.

## Main statements

- `Network.Alike`: networks of one scheme.
- `Network.Alike.perform`, `Network.Alike.performAll`: calls are answered alike.
-/

namespace TokenNet

namespace Network

/-- Two networks have graphs of one scheme and agree in all else, but for the order in which their
issues are listed and how often. -/
structure Alike (net net' : Network) : Prop where
  graph : net.graph.Alike net'.graph
  root : net'.root = net.root
  limits : net'.limits = net.limits
  ledger : net'.ledger = net.ledger
  issues : ∀ issue, issue ∈ net'.issues ↔ issue ∈ net.issues
  runs : net'.runs = net.runs

/-- Two results of a change: both are refused for the same reason, or the networks are alike. -/
inductive AlikeResults : Except AccessError Network → Except AccessError Network → Prop where
  | refused (error : AccessError) : AlikeResults (.error error) (.error error)
  | changed {net net' : Network} (h : net.Alike net') : AlikeResults (.ok net) (.ok net')

/-- Two answers to a call are the same, and the networks afterwards are alike. -/
structure AlikeAnswers (answer answer' : Network × Except Refusal Reply) : Prop where
  net : answer.1.Alike answer'.1
  reply : answer'.2 = answer.2

namespace Alike

variable {net net' : Network}

theorem regraph (h : net.Alike net') {graph graph' : Graph} (hgraph : graph.Alike graph') :
    { net with graph }.Alike { net' with graph := graph' } :=
  { h with graph := hgraph }

theorem change (h : net.Alike net') {result result' : Except AccessError Network}
    (hresult : AlikeResults result result') :
    AlikeAnswers (net.change result) (net'.change result') := by
  cases hresult with
  | refused error => exact ⟨h, rfl⟩
  | changed hchanged => exact ⟨hchanged, rfl⟩

theorem read (h : net.Alike net') {α : Type} {result result' : Except AccessError α}
    (hresult : result' = result) (reply : α → Reply) :
    AlikeAnswers (net.read result reply) (net'.read result' reply) := by
  subst hresult
  cases result' with
  | error error => exact ⟨h, rfl⟩
  | ok value => exact ⟨h, rfl⟩

/-! ### Reading -/

theorem interface (h : net.Alike net') (node : NodeId) :
    net'.interface node = net.interface node := by
  unfold Network.interface
  rw [h.graph.node?]

theorem output (h : net.Alike net') (node : NodeId) : net'.output node = net.output node := by
  have hvalue (outlet : OutletId) :
      net'.graph.outletValue? outlet = net.graph.outletValue? outlet :=
    h.graph.portValue? (.outlet outlet)
  unfold Network.output
  simp only [h.interface, h.graph.outletWired, hvalue]

theorem entry? (h : net.Alike net') : net'.entry? = net.entry? := by
  unfold Network.entry?
  rw [h.root, h.graph.interface?]

theorem exitPosition (h : net.Alike net') : net'.exitPosition = net.exitPosition := by
  funext exit
  unfold Network.exitPosition
  rw [h.root, h.graph.interface?]

/-! ### Values and memory -/

theorem writeInlet (h : net.Alike net') (hclosed : net.graph.Closed) (node : NodeId) (index : Nat)
    (value : Value) :
    AlikeResults (net.writeInlet node index value) (net'.writeInlet node index value) := by
  unfold Network.writeInlet
  rw [h.interface]
  cases hports : net.interface node with
  | error error => exact .refused error
  | ok ports =>
    dsimp only [bind, Except.bind]
    cases hinlet : ports.inlets[index]? with
    | none => exact .refused _
    -- The input is there in both networks, and both write it
    | some inlet =>
      have hknows := hclosed.knows (interface?_of_interface hports)
      exact .changed (h.regraph
        (h.graph.write (hknows.inlets inlet (List.mem_of_getElem? hinlet)) value))

theorem setState (h : net.Alike net') (hclosed : net.graph.Closed) (node : NodeId) (value : Value) :
    AlikeResults (net.setState node value) (net'.setState node value) := by
  unfold Network.setState
  rw [h.interface]
  cases hports : net.interface node with
  | error error => exact .refused error
  | ok ports =>
    dsimp only [bind, Except.bind]
    cases hinlets : ports.inlets with
    | nil => exact .refused _
    -- The register is remembered first, which leaves the graphs alike
    | cons first rest =>
      have hknows := hclosed.knows (interface?_of_interface hports)
      let remember := Node.modifyInterface fun ports => { ports with register := value }
      have hfirst : (net.graph.modifyNode node remember).HasPort (.inlet first) :=
        hknows.inlets first (hinlets ▸ List.mem_cons_self)
      exact .changed (h.regraph ((h.graph.modifyNode node remember).write hfirst value))

theorem setCalls (h : net.Alike net') (node : NodeId) (calls : UInt32) :
    AlikeResults (net.setCalls node calls) (net'.setCalls node calls) := by
  unfold Network.setCalls
  rw [h.interface]
  cases net.interface node with
  | error error => exact .refused error
  | ok ports => exact .changed (h.regraph (h.graph.modifyNode node _))

theorem setTraced (h : net.Alike net') (node : NodeId) (traced : Bool) :
    AlikeResults (net.setTraced node traced) (net'.setTraced node traced) := by
  unfold Network.setTraced
  rw [h.graph.node?]
  cases net.graph.node? node with
  | none => exact .refused _
  | some record => exact .changed (h.regraph (h.graph.modifyNode node _))

/-! ### Rewiring -/

theorem rewire (h : net.Alike net') {known known' : Bool} (hknown : known' = known)
    {change : Graph → Graph}
    (hchange : known = true → (change net.graph).Alike (change net'.graph)) :
    AlikeResults (net.rewire known change) (net'.rewire known' change) := by
  subst hknown
  unfold Network.rewire
  cases known' with
  | true => exact .changed (h.regraph (hchange rfl))
  | false => exact .refused _

theorem hasInlet (h : net.Alike net') (inlet : InletId) :
    net'.hasInlet inlet = net.hasInlet inlet := by
  unfold Network.hasInlet
  rw [h.graph.size_inlets]

theorem hasOutlet (h : net.Alike net') (outlet : OutletId) :
    net'.hasOutlet outlet = net.hasOutlet outlet := by
  unfold Network.hasOutlet
  rw [h.graph.size_outlets]

theorem hasEntry (h : net.Alike net') (entry : EntryId) :
    net'.hasEntry entry = net.hasEntry entry := by
  unfold Network.hasEntry
  rw [h.graph.entries]

theorem hasExit (h : net.Alike net') (exit : ExitId) : net'.hasExit exit = net.hasExit exit := by
  unfold Network.hasExit
  rw [h.graph.exits]

theorem connect (h : net.Alike net') (inlet : InletId) (outlet : OutletId) :
    AlikeResults (net.connect inlet outlet) (net'.connect inlet outlet) := by
  refine h.rewire (congrArg₂ (· && ·) (h.hasInlet inlet) (h.hasOutlet outlet)) fun hknown => ?_
  rw [Bool.and_eq_true] at hknown
  exact h.graph.connect (of_decide_eq_true hknown.1) (of_decide_eq_true hknown.2)

theorem unplug (h : net.Alike net') (node : NodeId) :
    AlikeResults (net.unplug node) (net'.unplug node) := by
  unfold Network.unplug
  rw [h.graph.node?]
  cases net.graph.node? node with
  | none => exact .refused _
  | some record =>
    dsimp only
    split
    next ports _ _ =>
      exact .changed (h.regraph ((h.graph.foldl_disconnectInlet ports.inlets).detach
        (.outlet ports.outlet)))
    next => exact .changed h

/-! ### Running -/

theorem execute (h : net.Alike net') (hclosed : net.graph.Closed) :
    net.execute.1.Alike net'.execute.1 ∧ net'.execute.2 = net.execute.2 := by
  unfold Network.execute
  rw [h.entry?]
  cases net.entry? with
  | none => exact ⟨h, rfl⟩
  | some entry =>
    have hstate : (⟨net.graph, net.ledger⟩ : Run.State).Alike ⟨net'.graph, net'.ledger⟩ :=
      ⟨h.graph, h.ledger⟩
    obtain ⟨hwalked, hresult⟩ := Run.walk_alike net.limits.callLimit net.limits.chainLimit
      (net.runs + 1) net.limits.chainLimit 0 entry hstate hclosed
    dsimp only
    rw [h.limits, h.runs, hresult]
    -- From here on only the states after the walks matter
    generalize Run.walk _ _ _ _ _ entry ⟨net.graph, net.ledger⟩ = walked at hwalked ⊢
    generalize Run.walk _ _ _ _ _ entry ⟨net'.graph, net'.ledger⟩ = walked' at hwalked ⊢
    have hafter : Network.Alike
        { net with graph := walked.1.graph, ledger := walked.1.ledger, runs := net.runs + 1 }
        { net' with graph := walked'.1.graph, ledger := walked'.1.ledger, runs := net.runs + 1 } :=
      ⟨hwalked.graph, h.root, h.limits, hwalked.ledger, h.issues, rfl⟩
    rw [h.limits] at hafter
    refine ⟨hafter, ?_⟩
    rw [hafter.exitPosition]

theorem step (h : net.Alike net') (hclosed : net.graph.Closed) :
    net.step.1.Alike net'.step.1 ∧ net'.step.2 = net.step.2 := by
  obtain ⟨hafter, hresult⟩ := h.execute hclosed
  have houtput : net'.execute.1.rootOutput? = net.execute.1.rootOutput? := by
    unfold rootOutput?
    rw [hafter.root, hafter.output]
  unfold Network.step
  dsimp only
  rw [hresult, houtput]
  exact ⟨hafter, rfl⟩

/-! ### Calls -/

/-- **Networks of one scheme answer every call alike.** -/
theorem perform (h : net.Alike net') (hclosed : net.graph.Closed) (call : Call) :
    AlikeAnswers (net.perform call) (net'.perform call) := by
  -- Reading calls answer alike, changing calls are refused alike or leave the graphs alike
  cases call with
  | writeInlet node index value => exact h.change (h.writeInlet hclosed node index value)
  | readOutlet node => exact h.read (h.output node) .value
  | readState node =>
    exact h.read (congrArg (Except.map Interface.register) (h.interface node)) .value
  | setState node value => exact h.change (h.setState hclosed node value)
  | readCalls node => exact h.read (congrArg (Except.map Interface.calls) (h.interface node)) .calls
  | setCalls node calls => exact h.change (h.setCalls node calls)
  | resetCalls => exact ⟨h.regraph (h.graph.renode fun nodes => nodes.map _), rfl⟩
  | setTraced node traced => exact h.change (h.setTraced node traced)
  | clearLedger => exact ⟨{ h with ledger := rfl }, rfl⟩
  | connect inlet outlet => exact h.change (h.connect inlet outlet)
  | disconnectInlet inlet =>
    exact h.change (h.rewire (h.hasInlet inlet) fun _ => h.graph.detach (.inlet inlet))
  | disconnectOutlet outlet =>
    exact h.change (h.rewire (h.hasOutlet outlet) fun _ => h.graph.detach (.outlet outlet))
  | unplug node => exact h.change (h.unplug node)
  | direct exit entry =>
    exact h.change (h.rewire (congrArg₂ (· && ·) (h.hasExit exit) (h.hasEntry entry))
      fun _ => h.graph.setTarget exit (some entry))
  | undirect exit =>
    exact h.change (h.rewire (h.hasExit exit) fun _ => h.graph.setTarget exit none)
  | execute =>
    obtain ⟨hafter, hresult⟩ := h.execute hclosed
    exact ⟨hafter, congrArg (fun result => (Except.map Reply.ending result).mapError Refusal.fault)
      hresult⟩
  | step =>
    obtain ⟨hafter, hresult⟩ := h.step hclosed
    exact ⟨hafter, congrArg (fun result => (Except.map Reply.outcome result).mapError Refusal.fault)
      hresult⟩

/-- **Networks of one scheme answer every history of calls alike.** -/
theorem performAll (h : net.Alike net') (hclosed : net.graph.Closed) (calls : List Call) :
    (net.performAll calls).1.Alike (net'.performAll calls).1 ∧
      (net'.performAll calls).2 = (net.performAll calls).2 := by
  induction calls generalizing net net' with
  | nil => exact ⟨h, rfl⟩
  | cons call rest ih =>
    have hanswers := h.perform hclosed call
    obtain ⟨hafter, hlater⟩ := ih hanswers.net ((leads_perform hclosed call).closed hclosed)
    refine ⟨hafter, ?_⟩
    unfold Network.performAll
    dsimp only
    rw [hanswers.reply, hlater]

end Alike

end Network

end TokenNet
