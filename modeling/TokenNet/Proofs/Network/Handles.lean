import TokenNet.Arithmetic
import TokenNet.Proofs.Graph.Strict

/-!
# Handles from outside

A call brings handles of its own, and they may belong to another network.  A call with a handle that
is out of range is refused and changes nothing; every other call looks up only what is there.  In
particular the token never comes to a node that cannot be fired, whatever the wiring of exits has
become.

## Main statements

- `Network.perform_of_foreign?`: foreign handles are refused.
- `Network.Strict.perform_eq`: no call misses a look-up.
- `Network.handles_are_safe`: both, and which faults a run can have.
-/

namespace TokenNet.Network

/-! ## Foreign handles -/

/-- The refusal of a node that the graph does not have. -/
def foreignNode? (net : Network) (node : NodeId) : Option AccessError :=
  if node.index < net.graph.nodes.size then none else some (.unknownNode node)

/-- The refusal of ports of which the graph lacks one. -/
def foreignPort? (known : Bool) : Option AccessError :=
  if known then none else some .unknownPort

/-- The refusal of a call that brings a handle which is out of range. -/
def foreign? (net : Network) : Call → Option AccessError
  | .writeInlet node _ _ | .readOutlet node | .readState node | .setState node _ | .readCalls node
  | .setCalls node _ | .setTraced node _ | .unplug node => net.foreignNode? node
  | .connect inlet outlet => foreignPort? (net.hasInlet inlet && net.hasOutlet outlet)
  | .disconnectInlet inlet => foreignPort? (net.hasInlet inlet)
  | .disconnectOutlet outlet => foreignPort? (net.hasOutlet outlet)
  | .direct exit entry => foreignPort? (net.hasExit exit && net.hasEntry entry)
  | .undirect exit => foreignPort? (net.hasExit exit)
  | .resetCalls | .clearLedger | .execute | .step => none

theorem node?_of_foreignNode? {net : Network} {node : NodeId} {error : AccessError}
    (h : net.foreignNode? node = some error) :
    net.graph.node? node = none ∧ error = .unknownNode node := by
  unfold foreignNode? at h
  split at h
  next => cases h
  next hrange =>
    exact ⟨Array.getElem?_eq_none (Nat.le_of_not_lt hrange), (Option.some.inj h).symm⟩

theorem interface_of_foreignNode? {net : Network} {node : NodeId} {error : AccessError}
    (h : net.foreignNode? node = some error) : net.interface node = .error error := by
  obtain ⟨hnode, rfl⟩ := node?_of_foreignNode? h
  simp [interface, hnode]

theorem rewire_of_foreignPort? {net : Network} {known : Bool} {error : AccessError}
    (h : foreignPort? known = some error) (change : Graph → Graph) :
    net.rewire known change = .error error := by
  unfold foreignPort? at h
  split at h
  next => cases h
  next hunknown => simp [rewire, hunknown, Option.some.inj h]

/-- **A call with a handle that is out of range is refused and changes nothing.** -/
theorem perform_of_foreign? {net : Network} {call : Call} {error : AccessError}
    (h : net.foreign? call = some error) : net.perform call = (net, .error (.access error)) := by
  -- Most calls look up the interface first, and stop there
  have hbind : ∀ {α : Type} {node : NodeId} {f : Interface → Except AccessError α},
      net.foreignNode? node = some error → (net.interface node >>= f) = .error error := by
    intro α node f hnode
    rw [interface_of_foreignNode? hnode]
    rfl
  cases call with
  | writeInlet node index value =>
    exact congrArg net.change (hbind h)
  | readOutlet node => exact congrArg (fun result => net.read result Reply.value) (hbind h)
  | readState node =>
    exact congrArg (fun result => net.read (Except.map Interface.register result) Reply.value)
      (interface_of_foreignNode? h)
  | setState node value => exact congrArg net.change (hbind h)
  | readCalls node =>
    exact congrArg (fun result => net.read (Except.map Interface.calls result) Reply.calls)
      (interface_of_foreignNode? h)
  | setCalls node calls => exact congrArg net.change (hbind h)
  | setTraced node traced =>
    obtain ⟨hnode, rfl⟩ := node?_of_foreignNode? h
    simp [perform, setTraced, hnode, change]
  | unplug node =>
    obtain ⟨hnode, rfl⟩ := node?_of_foreignNode? h
    simp [perform, unplug, hnode, change]
  | connect inlet outlet => exact congrArg net.change (rewire_of_foreignPort? h _)
  | disconnectInlet inlet => exact congrArg net.change (rewire_of_foreignPort? h _)
  | disconnectOutlet outlet => exact congrArg net.change (rewire_of_foreignPort? h _)
  | direct exit entry => exact congrArg net.change (rewire_of_foreignPort? h _)
  | undirect exit => exact congrArg net.change (rewire_of_foreignPort? h _)
  | resetCalls | clearLedger | execute | step => cases h

/-! ## Strict calls -/

namespace Strict

/-- The value at the outlet of a node. -/
def output (net : Network) (node : NodeId) : Option (Except AccessError Value) :=
  match net.interface node with
  | .error error => some (.error error)
  | .ok ports => do
    if (← net.graph.outlet? ports.outlet).wired then
      match net.graph.outletValue? ports.outlet with
      | some value => return .ok value
      | none => return .error (.outletUnconnected node)
    else return .error (.outletUnconnected node)

/-- Lets the token enter at the root and walk until it can go no further. -/
def execute (net : Network) : Option (Network × Except RunFault Ending) :=
  match net.entry? with
  | none => some (net, .error .noEntry)
  | some entry => do
    let limit := net.limits.chainLimit
    let (state, result) ← Graph.Strict.walk net.limits.callLimit limit (net.runs + 1) limit 0 entry
      ⟨net.graph, net.ledger⟩
    let net := { net with graph := state.graph, ledger := state.ledger, runs := net.runs + 1 }
    return (net, result.map fun (exit, steps) => ⟨exit, net.exitPosition exit, steps⟩)

/-- Runs a network and reads the output of the root. -/
def step (net : Network) : Option (Network × Except RunFault Outcome) := do
  match ← execute net with
  | (net, .error fault) => return (net, .error fault)
  | (net, .ok ending) => return (net, .ok ⟨ending, (← output net net.root).toOption⟩)

/-- A change that succeeds. -/
def done (net : Network) (graph : Option Graph) : Option (Network × Except Refusal Reply) :=
  graph.map fun graph => ({ net with graph }, .ok .done)

/-- A refused access. -/
def refused (net : Network) (error : AccessError) : Option (Network × Except Refusal Reply) :=
  some (net, .error (.access error))

/-- Changes the graph if the handles of a request are known. -/
def rewire (net : Network) (known : Bool) (change : Graph → Option Graph) :
    Option (Network × Except Refusal Reply) :=
  if known then done net (change net.graph) else refused net .unknownPort

/-- Answers a call.  Calls that look no port up are answered as before. -/
def perform (net : Network) : Call → Option (Network × Except Refusal Reply)
  | .writeInlet node index value =>
    match net.interface node with
    | .error error => refused net error
    | .ok ports =>
      match ports.inlets[index]? with
      | some inlet => done net (Graph.Strict.writeInlet net.graph inlet value)
      | none => refused net (.inletOutOfRange node index ports.inlets.length)
  | .setState node value =>
    match net.interface node with
    | .error error => refused net error
    | .ok ports =>
      match ports.inlets with
      | [] => refused net (.noInlets node)
      | first :: _ =>
        done net (Graph.Strict.writeInlet (net.graph.modifyNode node
          (Node.modifyInterface fun ports => { ports with register := value })) first value)
  | .readOutlet node => (output net node).map fun result => net.read result .value
  | .connect inlet outlet =>
    rewire net (net.hasInlet inlet && net.hasOutlet outlet) fun graph =>
      Graph.Strict.connect graph inlet outlet
  | .disconnectInlet inlet =>
    rewire net (net.hasInlet inlet) fun graph => Graph.Strict.disconnectInlet graph inlet
  | .disconnectOutlet outlet =>
    rewire net (net.hasOutlet outlet) fun graph => Graph.Strict.disconnectOutlet graph outlet
  | .unplug node =>
    match net.graph.node? node with
    | none => refused net (.unknownNode node)
    | some record =>
      match record.kind with
      | .composite ports _ =>
        done net do
          Graph.Strict.disconnectOutlet
            (← ports.inlets.foldlM Graph.Strict.disconnectInlet net.graph) ports.outlet
      | _ => done net net.graph
  | .direct exit entry =>
    rewire net (net.hasExit exit && net.hasEntry entry) fun graph =>
      Graph.Strict.setTarget graph exit (some entry)
  | .undirect exit =>
    rewire net (net.hasExit exit) fun graph => Graph.Strict.setTarget graph exit none
  | .execute => do
    let (net, result) ← execute net
    return (net, (result.map Reply.ending).mapError Refusal.fault)
  | .step => do
    let (net, result) ← step net
    return (net, (result.map Reply.outcome).mapError Refusal.fault)
  | call => some (net.perform call)

variable {net : Network}

theorem output_eq (h : net.graph.Closed) (node : NodeId) :
    output net node = some (net.output node) := by
  unfold output Network.output
  cases hports : net.interface node with
  | error error => rfl
  | ok ports =>
    have houtlet := (h.knows (interface?_of_interface hports)).outlet
    -- The outlet of a node is issued, so its record is found
    obtain ⟨record, hrecord⟩ := Option.isSome_iff_exists.mp (Graph.outlet?_isSome.mpr houtlet)
    have hwired : net.graph.outletWired ports.outlet = record.wired := by
      rw [Graph.outletWired, hrecord, Option.any_some]
    simp only [hrecord, hwired, bind, Option.bind, Except.bind]
    split
    next =>
      cases net.graph.outletValue? ports.outlet <;> rfl
    next => rfl

theorem execute_eq (hlinked : net.graph.Linked) (hclosed : net.graph.Closed) :
    execute net = some net.execute ∧ ∀ fault, net.execute.2 = .error fault →
      fault = .noEntry ∨ (∃ node value, fault = .invalidBit node value) ∨
        (∃ node, fault = .callLimit node net.limits.callLimit) ∨
          fault = .chainExhausted net.limits.chainLimit := by
  unfold execute Network.execute
  cases hentry : net.entry? with
  | none => exact ⟨rfl, fun _ h => Or.inl (Except.error.inj h).symm⟩
  | some entry =>
    obtain ⟨ports, hports, hentry⟩ := Option.bind_eq_some_iff.mp hentry
    -- The entry of the root is issued, so the walk begins at a node that can be fired
    have hissued := (hclosed.knows hports).entry entry hentry
    obtain ⟨hwalk, hfaults⟩ := Graph.Strict.walk_eq net.limits.callLimit net.limits.chainLimit
      (net.runs + 1) net.limits.chainLimit 0
      (show (⟨net.graph, net.ledger⟩ : Run.State).graph.Linked from hlinked) hclosed hissued
    refine ⟨by simp only [hwalk]; rfl, fun fault hfault => Or.inr ?_⟩
    refine hfaults fault ?_
    cases hresult : (Run.walk net.limits.callLimit net.limits.chainLimit (net.runs + 1)
        net.limits.chainLimit 0 entry ⟨net.graph, net.ledger⟩).2 with
    | ok ending => simp [hresult, Except.map] at hfault
    | error other => simpa [hresult, Except.map] using hfault

theorem step_eq (hlinked : net.graph.Linked) (hclosed : net.graph.Closed) :
    step net = some net.step := by
  have hrun := (moves_execute hclosed).leads
  unfold step Network.step
  rw [(execute_eq hlinked hclosed).1]
  generalize net.execute = outcome at hrun ⊢
  obtain ⟨after, result⟩ := outcome
  cases result with
  | error fault => rfl
  | ok ending => simp [output_eq (hrun.closed hclosed), rootOutput?, Except.map]

theorem rewire_eq {known : Bool} (strict : Graph → Option Graph) (change : Graph → Graph)
    (h : known = true → strict net.graph = some (change net.graph)) :
    rewire net known strict = some (net.change (net.rewire known change)) := by
  unfold rewire Network.rewire
  cases hknown : known with
  | false => rfl
  | true => simp [h hknown, done, Network.change]

theorem perform_writeInlet (hlinked : net.graph.Linked) (hclosed : net.graph.Closed)
    (node : NodeId) (index : Nat) (value : Value) :
    perform net (.writeInlet node index value) =
      some (net.perform (.writeInlet node index value)) := by
  simp only [perform, Network.perform, Network.writeInlet, bind, Except.bind]
  cases hports : net.interface node with
  | error error => rfl
  | ok ports =>
    -- A listed input is there, so writing it does not miss
    have hinlets := (hclosed.knows (interface?_of_interface hports)).inlets
    dsimp only
    cases hinlet : ports.inlets[index]? with
    | none => rfl
    | some inlet =>
      have hport := hinlets inlet (List.mem_of_getElem? hinlet)
      dsimp only
      rw [Graph.Strict.writeInlet_eq hlinked hclosed hport]
      rfl

/-- The register is set before the first inlet is looked up, and no handle is lost by it. -/
theorem perform_setState (hlinked : net.graph.Linked) (hclosed : net.graph.Closed) (node : NodeId)
    (value : Value) :
    perform net (.setState node value) = some (net.perform (.setState node value)) := by
  simp only [perform, Network.perform, Network.setState, bind, Except.bind]
  cases hports : net.interface node with
  | error error => rfl
  | ok ports =>
    have hinlets := (hclosed.knows (interface?_of_interface hports)).inlets
    dsimp only
    cases hfirst : ports.inlets with
    | nil => rfl
    | cons first rest =>
      -- Remembering the value keeps the input, which is written afterwards
      have hport := hinlets first (by simp [hfirst])
      have hchange : net.graph.Change (net.graph.modifyNode node
          (Node.modifyInterface fun ports => { ports with register := value })) :=
        Graph.Use.change (net.graph.use_modifyNode node (Node.form_modifyInterface fun _ => rfl))
      have hport' := (hchange.extends hclosed).hasPort hport
      dsimp only
      rw [Graph.Strict.writeInlet_eq (hchange.linked hlinked) (hchange.closed hclosed) hport']
      rfl

/-- Each inlet that is unwired leaves the handles of the composite in range. -/
theorem perform_unplug (hclosed : net.graph.Closed) (node : NodeId) :
    perform net (.unplug node) = some (net.perform (.unplug node)) := by
  simp only [perform, Network.perform, Network.unplug]
  cases hrecord : net.graph.node? node with
  | none => rfl
  | some record =>
    have hknown := hclosed.knowsNode hrecord
    unfold Graph.KnowsNode at hknown
    dsimp only
    cases hkind : record.kind with
    | native primitive ports => rfl
    | join entry exit => rfl
    | composite ports parts =>
      rw [hkind] at hknown
      -- The handles of the composite are in range before the loop; that they stay so is its
      -- invariant.
      let Keeps : Graph → Prop := fun g => net.graph.Extends g
      obtain ⟨hinlets, hext⟩ := foldlM_eq_some_foldl Keeps ports.inlets net.graph (.refl _)
        fun inlet hmem g hkeeps =>
          ⟨Graph.Strict.disconnectInlet_eq (hkeeps.hasPort (hknown.1.inlets inlet hmem)),
            hkeeps.trans (.of_bare_eq (Graph.bare_detach g (.inlet inlet)))⟩
      have houtlet := Graph.Strict.disconnectOutlet_eq (hext.hasPort hknown.1.outlet)
      dsimp only
      rw [hinlets, Option.bind_eq_bind, Option.bind_some, houtlet]
      rfl

/-- **No call misses a look-up.** -/
theorem perform_eq (hlinked : net.graph.Linked) (hclosed : net.graph.Closed) (call : Call) :
    perform net call = some (net.perform call) := by
  cases call with
  | writeInlet node index value => exact perform_writeInlet hlinked hclosed node index value
  | setState node value => exact perform_setState hlinked hclosed node value
  | readOutlet node =>
    simp only [perform, Network.perform, output_eq hclosed, Option.map_some]
  -- The operations on pins are guarded by their handles, and these are what the look-ups need
  | connect inlet outlet =>
    refine rewire_eq (Graph.Strict.connect · inlet outlet) (Graph.connect · inlet outlet)
      fun hknown => ?_
    rw [Bool.and_eq_true] at hknown
    exact Graph.Strict.connect_eq hlinked (of_decide_eq_true hknown.1) (of_decide_eq_true hknown.2)
  | disconnectInlet inlet =>
    exact rewire_eq (Graph.Strict.disconnectInlet · inlet) (Graph.disconnectInlet · inlet)
      fun hknown => Graph.Strict.disconnectInlet_eq (of_decide_eq_true hknown)
  | disconnectOutlet outlet =>
    exact rewire_eq (Graph.Strict.disconnectOutlet · outlet) (Graph.disconnectOutlet · outlet)
      fun hknown => Graph.Strict.disconnectOutlet_eq (of_decide_eq_true hknown)
  | unplug node => exact perform_unplug hclosed node
  | direct exit entry =>
    refine rewire_eq (Graph.Strict.setTarget · exit (some entry))
      (Graph.setTarget · exit (some entry)) fun hknown => ?_
    rw [Bool.and_eq_true] at hknown
    have hexit : exit.index < net.graph.exits.size := of_decide_eq_true hknown.1
    exact Graph.Strict.setTarget_eq hexit _
  | undirect exit =>
    refine rewire_eq (Graph.Strict.setTarget · exit none) (Graph.setTarget · exit none)
      fun hknown => ?_
    have hexit : exit.index < net.graph.exits.size := of_decide_eq_true hknown
    exact Graph.Strict.setTarget_eq hexit _
  | execute =>
    simp only [perform, Network.perform, (execute_eq hlinked hclosed).1]
    rfl
  | step =>
    simp only [perform, Network.perform, step_eq hlinked hclosed]
    rfl
  -- The remaining calls look nothing up behind the node
  | readState | readCalls | setCalls | resetCalls | setTraced | clearLedger => rfl

end Strict

/-! ## Safety -/

/-- Only running a network yields a fault. -/
theorem execute_of_fault {net : Network} {call : Call} {fault : RunFault}
    (h : (net.perform call).2 = .error (.fault fault)) : net.execute.2 = .error fault := by
  have hchange : ∀ result, (net.change result).2 ≠ .error (.fault fault) := by
    intro result
    cases result <;> simp [change]
  have hread : ∀ {α : Type} (result : Except AccessError α) (reply : α → Reply),
      (net.read result reply).2 ≠ .error (.fault fault) := by
    intro α result reply
    cases result <;> simp [read]
  -- Only the two running calls answer with a fault
  cases call with
  | writeInlet | setState | setCalls | setTraced | connect | disconnectInlet | disconnectOutlet
  | unplug | direct | undirect => exact absurd h (hchange _)
  | readOutlet | readState | readCalls => exact absurd h (hread _ _)
  | resetCalls | clearLedger => cases h
  | execute =>
    cases hresult : net.execute.2 with
    | ok ending => simp [perform, hresult, Except.map, Except.mapError] at h
    | error other => simpa [perform, hresult, Except.map, Except.mapError] using h
  | step =>
    cases hresult : net.execute.2 with
    | ok ending => simp [perform, step, hresult, Except.map, Except.mapError] at h
    | error other => simpa [perform, step, hresult, Except.map, Except.mapError] using h

/-- An entry admits the token to a native node or to a join. -/
def Admits (graph : Graph) (entry : EntryId) : Prop :=
  ∃ node record, graph.admitted? entry = some node ∧ graph.node? node = some record ∧
    ((∃ primitive ports, record.kind = .native primitive ports) ∨
      ∃ entry exit, record.kind = .join entry exit)

theorem admits_of_hasEntry {graph : Graph} (h : graph.Closed) {entry : EntryId}
    (hentry : graph.HasEntry entry) : Admits graph entry := by
  obtain ⟨node, hnode, record, hrecord, hacts⟩ := h.acts_of_hasEntry hentry
  refine ⟨node, record, hnode, hrecord, ?_⟩
  unfold Node.acts at hacts
  split at hacts
  next primitive ports hkind => exact Or.inl ⟨primitive, ports, hkind⟩
  next => cases hacts
  next entry exit hkind => exact Or.inr ⟨entry, exit, hkind⟩

/-- **Handles are safe in every network that can come about.**  No call misses a look-up, whatever
handles it brings.  A call with a handle that is out of range is refused and leaves the network as
it is.  A run that fails has no entry, reads a value that is not binary, or is stopped by one of the
two guards.  And every entry, every target of an exit and every exposed entry admits the token to a
node that can be fired. -/
theorem handles_are_safe {net : Network} (h : net.Reachable) :
    (∀ call, Strict.perform net call = some (net.perform call)) ∧
    (∀ call error, net.foreign? call = some error →
      net.perform call = (net, .error (.access error))) ∧
    (∀ call fault, (net.perform call).2 = .error (.fault fault) →
      fault = .noEntry ∨ (∃ node value, fault = .invalidBit node value) ∨
        (∃ node, fault = .callLimit node net.limits.callLimit) ∨
          fault = .chainExhausted net.limits.chainLimit) ∧
    (∀ entry, net.hasEntry entry → Admits net.graph entry) ∧
    (∀ exit entry, net.graph.target? exit = some entry → Admits net.graph entry) ∧
    (∀ node entry, net.graph.entryOf? node = some entry → Admits net.graph entry) := by
  have hlinked := h.linked
  have hclosed := h.closed
  refine ⟨Strict.perform_eq hlinked hclosed, fun _ _ => perform_of_foreign?, ?_, ?_, ?_, ?_⟩
  · intro call fault hfault
    -- Only a run ends with a fault
    exact (Strict.execute_eq hlinked hclosed).2 fault (execute_of_fault hfault)
  · intro entry hentry
    have hissued : entry.index < net.graph.entries.size := of_decide_eq_true hentry
    exact admits_of_hasEntry hclosed hissued
  · intro exit entry htarget
    exact admits_of_hasEntry hclosed (hclosed.hasEntry_of_target? htarget)
  · intro node entry hentry
    exact admits_of_hasEntry hclosed (hclosed.hasEntry_of_entryOf? hentry)

/-- A composite refuses an outlet of another network and runs without a missed look-up. -/
theorem handles_of_increment : ∃ built,
    Arithmetic.library.instantiate "++" {} = .ok built ∧
    built.foreign? (.connect ⟨0⟩ ⟨99⟩) = some .unknownPort ∧
    built.perform (.connect ⟨0⟩ ⟨99⟩) = (built, .error (.access .unknownPort)) ∧
    Strict.perform built .execute = some (built.perform .execute) := by
  have hsafe := handles_are_safe ⟨Arithmetic.library, "++", {}, _, [], rfl, rfl⟩
  exact ⟨_, rfl, rfl, hsafe.2.1 _ _ rfl, hsafe.1 .execute⟩

end TokenNet.Network
