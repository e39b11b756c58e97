import TokenNet.Proofs.Change.Plan
import TokenNet.Proofs.Change.Settled
import TokenNet.Proofs.Flow.Draws
import TokenNet.Proofs.Network.Handles
import TokenNet.Proofs.Network.Memory
import TokenNet.Proofs.Run.Attempts
import TokenNet.Proofs.Run.Bit

/-!
# Networks of bits

A network all of whose primitives are bits keeps binary values: it is built with zeros, rewiring
invents no values, and a bit that reads a binary value remembers and emits one.  So as long as only
binary values are written from outside, no firing is ever refused for what it reads.

## Main statements

- `Graph.Digital`: every cell and every register is binary.
- `Graph.Constructs.digital`: every network is built digital.
- `Graph.Digital.fire`: a firing keeps a network of bits digital and does not find an invalid input.
- `Network.digital_perform`: so does every call that writes binary values.
- `Network.bits_stay_binary`: so does every history.
-/

namespace TokenNet

/-! ## Networks of bits -/

/-- The primitive of a native node. -/
def Node.primitive? (record : Node) : Option Primitive :=
  match record.kind with
  | .native primitive _ => some primitive
  | _ => none

@[simp] theorem Node.primitive?_plan (record : Node) : record.plan.primitive? = record.primitive? := by
  obtain ⟨_, _, _, _, kind⟩ := record
  cases kind <;> rfl

theorem Node.interface?_modifyInterface (change : Interface → Interface) (record : Node) :
    (record.modifyInterface change).interface? = record.interface?.map change := by
  obtain ⟨_, _, _, _, kind⟩ := record
  cases kind <;> rfl

namespace Graph

/-- All primitives of a graph are bits. -/
def AllBits (graph : Graph) : Prop :=
  ∀ record ∈ graph.nodes.toList, ∀ primitive ∈ record.primitive?, primitive = .bit

instance (graph : Graph) : Decidable graph.AllBits :=
  inferInstanceAs (Decidable (∀ record ∈ graph.nodes.toList, ∀ primitive ∈ record.primitive?,
    primitive = .bit))

variable {graph graph' : Graph}

theorem AllBits.of_samePlan (h : graph.AllBits) (hplan : graph.SamePlan graph') :
    graph'.AllBits := by
  intro record' hrecord' primitive hprimitive
  have hmem : record'.plan ∈ graph.nodes.map Node.plan := by
    rw [← hplan.nodes]
    exact Array.mem_map_of_mem (Array.mem_toList_iff.mp hrecord')
  obtain ⟨record, hrecord, hsame⟩ := Array.mem_map.mp hmem
  refine h record (Array.mem_toList_iff.mpr hrecord) primitive ?_
  rwa [← Node.primitive?_plan, hsame, Node.primitive?_plan]

theorem AllBits.eq_bit (h : graph.AllBits) {node : NodeId} {record : Node} {primitive : Primitive}
    {ports : Interface} (hrecord : graph.node? node = some record)
    (hkind : record.kind = .native primitive ports) : primitive = .bit := by
  refine h record (Array.mem_toList_iff.mpr (Array.mem_of_getElem? hrecord)) primitive ?_
  simp [Node.primitive?, hkind]

/-! ## Binary values -/

/-- All that a graph keeps is binary. -/
structure Digital (graph : Graph) : Prop where
  cells : ∀ cell value, graph.cellValue? cell = some value → Binary value
  registers : ∀ node ports, graph.interface? node = some ports → Binary ports.register

namespace Digital

/-- What a node reads is binary, with or without a cell. -/
theorem binary_input (h : graph.Digital) (node : NodeId) : Binary (graph.input node) := by
  have hreading (inlet : InletId) : Binary (graph.reading inlet).value := by
    -- What cells hold is binary, and a pin without one reads as zero
    change Binary ((graph.inletValue? inlet).getD 0)
    cases hvalue : graph.inletValue? inlet with
    | none => exact Or.inl rfl
    | some value =>
      obtain ⟨cell, _, hcell⟩ := Option.bind_eq_some_iff.mp hvalue
      exact h.cells cell value hcell
  unfold input
  cases graph.interface? node with
  | none => exact Or.inl rfl
  | some ports =>
    rw [Option.map_some, Option.getD_some, firstReading]
    cases ports.inlets.head? with
    | none => exact Or.inl rfl
    | some inlet => exact hreading inlet

/-- A graph that draws binary values and remembers binary values is digital again. -/
theorem of_draws (h : graph.Digital) (hdraws : Draws Binary graph graph')
    (hregisters : ∀ node ports, graph'.interface? node = some ports → Binary ports.register) :
    graph'.Digital where
  cells cell value hvalue := by
    rcases hdraws value ⟨cell, hvalue⟩ with hbinary | ⟨other, hother⟩
    · exact hbinary
    · exact h.cells other value hother
  registers := hregisters

theorem of_nodes_eq (h : graph.Digital) (hdraws : Draws Binary graph graph')
    (hnodes : graph'.nodes = graph.nodes) : graph'.Digital :=
  h.of_draws hdraws fun node ports hports => h.registers node ports (by
    rwa [interface?, node?, hnodes] at hports)

/-- A change of what a node remembers. -/
theorem modifyInterface (h : graph.Digital) (node : NodeId) {change : Interface → Interface}
    (hchange : ∀ ports, Binary ports.register → Binary (change ports).register) :
    (graph.modifyNode node (Node.modifyInterface change)).Digital := by
  refine h.of_draws (.of_cells_eq rfl) fun other ports' hports' => ?_
  obtain ⟨record', hrecord', hinterface'⟩ := Option.bind_eq_some_iff.mp hports'
  rw [node?_modifyNode] at hrecord'
  split at hrecord'
  · obtain ⟨record, hrecord, rfl⟩ := Option.map_eq_some_iff.mp hrecord'
    rw [Node.interface?_modifyInterface] at hinterface'
    obtain ⟨ports, hinterface, rfl⟩ := Option.map_eq_some_iff.mp hinterface'
    exact hchange ports (h.registers other ports (Option.bind_eq_some_iff.mpr
      ⟨record, hrecord, hinterface⟩))
  · exact h.registers other ports' (Option.bind_eq_some_iff.mpr ⟨record', hrecord', hinterface'⟩)

/-! ### Firings -/

/-- **A firing keeps a graph of bits digital, and no bit finds an invalid input.** -/
theorem fire (h : graph.Digital) (hlinked : graph.Linked) (hbits : graph.AllBits)
    (callLimit : UInt32) (node : NodeId) : (graph.fire callLimit node).graph.Digital ∧
      ∀ asked value, (graph.fire callLimit node).result ≠ .error (.invalidBit asked value) := by
  cases hrecord : graph.node? node with
  | none => simpa only [Graph.fire, hrecord] using ⟨h, fun _ _ => by simp⟩
  | some record =>
    cases hkind : record.kind with
    | join => simpa only [Graph.fire, hrecord, hkind] using ⟨h, fun _ _ => by simp⟩
    | composite => simpa only [Graph.fire, hrecord, hkind] using ⟨h, fun _ _ => by simp⟩
    | native primitive ports =>
      obtain rfl := hbits.eq_bit hrecord hkind
      -- The register that a firing bit remembers is the one value that is new
      have hfires := firesBit_fire callLimit hrecord hkind
      have hcount {register : Value} (hregister : Binary register) :
          (graph.countCall node register).Digital := h.modifyInterface node fun _ _ => hregister
      generalize (graph.fire callLimit node).graph = graph',
        (graph.fire callLimit node).result = result at hfires ⊢
      cases hfires with
      | invalid hinput => exact absurd (h.binary_input node) hinput
      | exhausted register _ hregister => exact ⟨hcount hregister, fun _ _ => by simp⟩
      | emitted register result _ hregister _ hresult =>
        refine ⟨(hcount hregister).of_nodes_eq ?_ ?_, fun _ _ => ?_⟩
        · have hsound : (graph.countCall node register).cells.Sound := hlinked.sound
          exact .writeOutlet hsound (Or.inl rfl) ports.outlet hregister
        · exact (congrArg Graph.nodes (bare_writeOutlet (graph.countCall node register) _ _) :)
        · rcases hresult with rfl | ⟨exit, _, rfl⟩ <;> simp

end Digital

end Graph

/-! ## Calls -/

/-- The value that a call writes. -/
def Call.written? : Call → Option Value
  | .writeInlet _ _ value | .setState _ value => some value
  | _ => none

/-- What a call that does not run may bring up in cells: zero and the value that it writes. -/
def Call.Brings (call : Call) (value : Value) : Prop :=
  value = 0 ∨ call.written? = some value

theorem Graph.Obeys.draws {graph graph' : Graph} {call : Call} (h : graph.Obeys call graph')
    (hlinked : graph.Linked) : Graph.Draws call.Brings graph graph' := by
  have hzero : call.Brings 0 := Or.inl rfl
  cases h with
  | rest => exact .refl _ graph
  | @writeInlet _ _ value _ inlet => exact .writeInlet hlinked.sound hzero inlet (Or.inr rfl)
  | @setState node value _ inlet =>
    let remembered := graph.modifyNode node
      (Node.modifyInterface fun ports => { ports with register := value })
    -- Setting the state remembers the value first, and writes it then
    have hset : Graph.Draws (Call.Brings (.setState node value)) graph remembered :=
      .of_cells_eq rfl
    have hsound : remembered.cells.Sound := hlinked.sound
    exact hset.trans (.writeInlet hsound hzero inlet (Or.inr rfl))
  | setCalls => exact .of_cells_eq rfl
  | resetCalls => exact .of_cells_eq rfl
  | setTraced => exact .of_cells_eq rfl
  | @connect inlet outlet => exact .connect hlinked hzero inlet outlet
  | @disconnectInlet inlet => exact .detach graph (.inlet inlet)
  | @disconnectOutlet outlet => exact .detach graph (.outlet outlet)
  | @unplug _ ports =>
    refine Graph.Draws.trans ?_ (.detach _ (.outlet ports.outlet))
    exact .foldl_disconnectInlet ports.inlets graph
  | direct => exact .of_cells_eq rfl
  | undirect => exact .of_cells_eq rfl

namespace Network

variable {net : Network}

theorem draws_perform (hlinked : net.graph.Linked) (hclosed : net.graph.Closed) {call : Call}
    (hruns : call.runs = false) :
    Graph.Draws call.Brings net.graph (net.perform call).1.graph :=
  (obeys_perform hclosed hruns).draws hlinked

/-- A call that sets no register but a binary one keeps binary registers. -/
theorem registers_perform (hclosed : net.graph.Closed) {call : Call} (hruns : call.runs = false)
    (hcall : ∀ value ∈ call.written?, Binary value) (h : net.graph.Digital) (node : NodeId)
    (ports : Interface) (hports : (net.perform call).1.graph.interface? node = some ports) :
    Binary ports.register := by
  have hrecalls := recalls_perform hclosed hruns
  generalize (net.perform call).1.graph = graph' at hrecalls hports
  -- Only the nodes matter, so the graph may as well be the one that the change of the nodes gives
  have hsame {changed : Graph} (hnodes : graph'.nodes = changed.nodes) (hdigital : changed.Digital) :
      Binary ports.register :=
    hdigital.registers node ports (by rwa [Graph.interface?, Graph.node?, hnodes] at hports)
  cases hrecalls with
  | rest hnodes => exact hsame hnodes h
  | register hnodes => exact hsame hnodes (h.modifyInterface _ fun _ _ => hcall _ rfl)
  | calls hnodes => exact hsame hnodes (h.modifyInterface _ fun _ => id)
  | reset hnodes =>
    obtain ⟨record', hrecord', hinterface'⟩ := Option.bind_eq_some_iff.mp hports
    rw [Graph.node?, hnodes, Array.getElem?_map] at hrecord'
    obtain ⟨record, hrecord, rfl⟩ := Option.map_eq_some_iff.mp hrecord'
    rw [Node.interface?_modifyInterface] at hinterface'
    obtain ⟨old, hold, rfl⟩ := Option.map_eq_some_iff.mp hinterface'
    exact h.registers node old (Option.bind_eq_some_iff.mpr ⟨record, hrecord, hold⟩)
  | @traced changed traced _ hnodes =>
    have hkept := @Graph.bind_modifyNode _ Node.interface?
      (fun record => { record with traced }) (fun _ => rfl) net.graph changed node
    rw [Graph.interface?, Graph.node?, hnodes] at hports
    exact h.registers node ports (hkept.symm.trans hports)

/-- **A run keeps a network of bits digital at every moment, and it does not fail for what a bit
reads.** -/
theorem digital_execute (hlinked : net.graph.Linked) (hclosed : net.graph.Closed)
    (hbits : net.graph.AllBits) (h : net.graph.Digital) :
    net.execute.1.graph.Digital ∧ (∀ attempt ∈ net.attempts, attempt.graph.Digital) ∧
      ∀ node value, net.execute.2 ≠ .error (.invalidBit node value) := by
  have hrun := @execute_induction net (fun graph attempts graph' =>
    graph.Linked → graph.Closed → graph.AllBits → graph.Digital → graph'.Digital ∧
      ∀ attempt ∈ attempts, attempt.graph.Digital ∧ ∀ node value,
        (attempt.firing net.limits.callLimit).result ≠ .error (.invalidBit node value))
    ?rest ?fire hlinked hclosed hbits h
  case rest => exact fun graph _ _ _ hdigital => ⟨hdigital, fun _ hmem => nomatch hmem⟩
  -- One firing of a digital graph is valid, and leaves a digital graph to the later ones
  case fire =>
    intro graph node later graph' hlater hlinked hclosed hbits hdigital
    have hmoves := Graph.moves_fire hclosed net.limits.callLimit node
    obtain ⟨hfired, hvalid⟩ := hdigital.fire hlinked hbits net.limits.callLimit node
    obtain ⟨hlast, hattempts⟩ := hlater (hmoves.leads.linked hlinked) (hmoves.leads.closed hclosed)
      (hbits.of_samePlan hmoves.uses.samePlan) hfired
    refine ⟨hlast, fun attempt hmem => ?_⟩
    rcases List.mem_cons.mp hmem with rfl | hmem
    · exact ⟨hdigital, hvalid⟩
    · exact hattempts attempt hmem
  refine ⟨hrun.1, fun attempt hmem => (hrun.2 attempt hmem).1, fun node value hfault => ?_⟩
  -- A fault of the run is a spent limit or that of some attempt
  rcases attempt_of_execute_error hfault with hnone | hspent | ⟨attempt, hmem, hresult⟩
  · cases hnone
  · cases hspent
  · exact (hrun.2 attempt hmem).2 node value hresult

/-- **A call that writes binary values keeps a network of bits digital at every moment, and is not
refused for what a bit reads.** -/
theorem digital_perform (hlinked : net.graph.Linked) (hclosed : net.graph.Closed)
    (hbits : net.graph.AllBits) (h : net.graph.Digital) {call : Call}
    (hcall : ∀ value ∈ call.written?, Binary value) :
    (net.perform call).1.graph.Digital ∧
      (∀ attempt ∈ net.attemptsOf call, attempt.graph.Digital) ∧
      ∀ node value, (net.perform call).2 ≠ .error (.fault (.invalidBit node value)) := by
  obtain ⟨hlast, hattempts, hvalid⟩ := digital_execute hlinked hclosed hbits h
  have hfault (node : NodeId) (value : Value) :
      (net.perform call).2 ≠ .error (.fault (.invalidBit node value)) := fun hfault =>
    hvalid node value (execute_of_fault hfault)
  cases hruns : call.runs with
  | true =>
    cases call with
    | execute => exact ⟨hlast, hattempts, hfault⟩
    | step => exact ⟨hlast, hattempts, hfault⟩
    | _ => cases hruns
  | false =>
    -- A call that does not run brings zero or the value that it writes
    have hdraws : Graph.Draws Binary net.graph (net.perform call).1.graph := fun value hvalue =>
      (draws_perform hlinked hclosed hruns value hvalue).imp_left fun hbrings =>
        hbrings.elim Or.inl (hcall value)
    rw [attemptsOf_of_runs hruns]
    exact ⟨h.of_draws hdraws (registers_perform hclosed hruns hcall h), fun _ hmem => (nomatch hmem),
      hfault⟩

/-- **Every history that writes binary values keeps a network of bits digital.** -/
theorem digital_performAll {calls : List Call} (hlinked : net.graph.Linked)
    (hclosed : net.graph.Closed) (hbits : net.graph.AllBits) (h : net.graph.Digital)
    (hcalls : ∀ call ∈ calls, ∀ value ∈ call.written?, Binary value) :
    (net.performAll calls).1.graph.AllBits ∧ (net.performAll calls).1.graph.Digital ∧
      (∀ attempt ∈ net.history calls, attempt.graph.Digital) ∧
      ∀ answer ∈ (net.performAll calls).2, ∀ node value,
        answer ≠ .error (.fault (.invalidBit node value)) := by
  induction calls generalizing net with
  | nil => exact ⟨hbits, h, fun _ hmem => (nomatch hmem), fun _ hmem => nomatch hmem⟩
  | cons call rest ih =>
    rw [List.forall_mem_cons] at hcalls
    have hleads := leads_perform hclosed call
    obtain ⟨hlast, hattempts, hvalid⟩ := digital_perform hlinked hclosed hbits h hcalls.1
    obtain ⟨hbits', hlast', hattempts', hvalid'⟩ := ih (hleads.linked hlinked)
      (hleads.closed hclosed) (hbits.of_samePlan (samePlan_perform hclosed call)) hlast hcalls.2
    -- The attempts of the first call come before those of the rest
    refine ⟨hbits', hlast', fun attempt hmem => ?_, List.forall_mem_cons.mpr ⟨hvalid, hvalid'⟩⟩
    rcases List.mem_append.mp hmem with hmem | hmem
    · exact hattempts attempt hmem
    · exact hattempts' attempt hmem

end Network

/-! ## Builds -/

namespace Graph

variable {graph graph' : Graph}

/-- A step of a build leaves all registers at zero. -/
theorem Construct.registers (h : Construct graph graph')
    (hzero : ∀ node ports, graph.interface? node = some ports → ports.register = 0) :
    ∀ node ports, graph'.interface? node = some ports → ports.register = 0 := by
  intro node ports hports
  -- A node that is new starts at zero, and no other step touches a register
  cases h with
  | native primitive specification traced =>
    rcases (graph.raises_addNative specification traced primitive).interface?_cases hports with
      hold | ⟨_, rfl⟩
    · exact hzero node ports hold
    · rfl
  | composite specification inletCount exitCount traced =>
    rcases (graph.raises_addComposite specification traced inletCount exitCount).interface?_cases
      hports with hold | ⟨_, rfl⟩
    · exact hzero node ports hold
    · rfl
  | adopt role =>
    rw [interface?_adopt] at hports
    exact hzero node ports hports
  | enter =>
    rw [interface?_setEntry] at hports
    split at hports
    · obtain ⟨old, hold, rfl⟩ := Option.map_eq_some_iff.mp hports
      exact hzero node old hold
    · exact hzero node ports hports
  | connect =>
    refine hzero node ports ?_
    rwa [interface?, (SameTree.connect graph _ _).node?] at hports
  | feed =>
    refine hzero node ports ?_
    rwa [interface?, (SameTree.feed graph _ _).node?] at hports
  | relay =>
    refine hzero node ports ?_
    rwa [interface?, (SameTree.relay graph _ _).node?] at hports
  | direct => exact hzero node ports hports

/-- **A graph that has just been built keeps zeros only.** -/
theorem Constructs.digital (h : Constructs {} graph) : graph.Digital where
  cells cell value hvalue := by
    obtain ⟨partition, hlaid⟩ := h.laid
    obtain ⟨record, hrecord, rfl⟩ := Option.map_eq_some_iff.mp hvalue
    obtain ⟨port, hclass⟩ := hlaid.represents.exists_class_of_cell hrecord
    exact Or.inl (hlaid.blank port _ hclass)
  registers := by
    have hzero : ∀ node ports, graph.interface? node = some ports → ports.register = 0 := by
      induction h with
      | refl => exact fun node ports hports => by simp [interface?, node?] at hports
      | tail _ hstep ih => exact hstep.registers ih
    exact fun node ports hports => Or.inl (hzero node ports hports)

end Graph

namespace Network

/-- **Bits stay binary.**  A network all of whose primitives are bits is built from any library;
then calls are made that rewire it in any way, run it, and write binary values only.  At the end,
and at every attempt to fire a node on the way:

* every cell in use shows a binary value;
* the register of every node is binary.

No answer is that a bit has read an invalid value, and the next run will not end so either. -/
theorem bits_stay_binary {library : Library} {identifier : String} {options : BuildOptions}
    {built : Network} (hbuilt : library.instantiate identifier options = .ok built)
    (hbits : built.graph.AllBits) {calls : List Call}
    (hcalls : ∀ call ∈ calls, ∀ value ∈ call.written?, Binary value) :
    let net := (built.performAll calls).1
    (∀ graph ∈ net.graph :: (built.history calls).map Run.Attempt.graph,
      (∀ cell record, graph.cell? cell = some record → Binary record.value) ∧
      ∀ node ports, graph.interface? node = some ports → Binary ports.register) ∧
    (∀ answer ∈ (built.performAll calls).2, ∀ node value,
      answer ≠ .error (.fault (.invalidBit node value))) ∧
    ∀ node value, net.execute.2 ≠ .error (.invalidBit node value) := by
  -- The networks of calls are linked, closed and digital, as the empty graph is
  intro net
  have hleads := (leads_instantiate hbuilt).1
  have hlinked : built.graph.Linked := hleads.linked .empty
  have hclosed : built.graph.Closed := hleads.closed .empty
  have hlater := leads_performAll calls hclosed
  have hdigital : built.graph.Digital := (Library.built_of_instantiate hbuilt).constructs.digital
  obtain ⟨hbits', hlast, hattempts, hvalid⟩ :=
    digital_performAll hlinked hclosed hbits hdigital hcalls
  have hvalues {graph : Graph} (h : graph.Digital) :
      (∀ cell record, graph.cell? cell = some record → Binary record.value) ∧
        ∀ node ports, graph.interface? node = some ports → Binary ports.register :=
    ⟨fun cell record hrecord => h.cells cell record.value (by rw [Graph.cellValue?, hrecord]; rfl),
      h.registers⟩
  refine ⟨fun graph hmem => ?_, hvalid, (digital_execute (hlater.linked hlinked)
    (hlater.closed hclosed) hbits' hlast).2.2⟩
  rcases List.mem_cons.mp hmem with rfl | hmem
  · exact hvalues hlast
  · obtain ⟨attempt, hattempt, rfl⟩ := List.mem_map.mp hmem
    exact hvalues (hattempts attempt hattempt)

/-- A library with a composite around a bit, which has a directive that is skipped, and a composite
of two of them. -/
def toggles : Library where
  specifications :=
    (Library.primitives.specifications.insert "toggle" (.composite "toggle" 1 1
      [.part "!" "a", .exposeInlet "a" 0 0, .exposeOutlet "a", .exposeEntry "a", .exposeExit "a" 0 0,
        .exposeExit "a" 1 0, .controlFlow "a" 0 "b"])).insert "pair" (.composite "pair" 1 0
          [.part "toggle" "x", .part "toggle" "y", .exposeInlet "x" 0 0, .dataFlow "x" "y" 0,
            .exposeOutlet "y", .exposeEntry "x", .controlFlow "x" 0 "y"])

/-- The bits of the pair are the nodes 3 and 6. -/
def togglePair : Network :=
  (toggles.instantiate "pair" {}).toOption.getD default

/-- Runs the pair on one, wires the first bit to itself, sets its register, unwires the inlet of the
second bit and runs again. -/
def togglePairCalls : List Call :=
  [.writeInlet togglePair.root 0 1, .execute, .connect ⟨2⟩ ⟨2⟩, .setState ⟨3⟩ 1,
    .disconnectInlet ⟨4⟩, .step]

/-- The second bit no longer has a cell to read and takes zero for its input; all stays binary. -/
theorem binary_togglePair : ∃ built, toggles.instantiate "pair" {} = .ok built ∧
    built = togglePair ∧ built.issues.size = 2 ∧ built.graph.AllBits ∧
    (∀ call ∈ togglePairCalls, ∀ value ∈ call.written?, Binary value) ∧
    (built.history togglePairCalls).length = 8 ∧
    (built.performAll togglePairCalls).1.graph.inletCell? ⟨4⟩ = none ∧
    (built.performAll togglePairCalls).1.registers = [(⟨3⟩, 0), (⟨6⟩, 1)] ∧
    ∀ node value, (built.performAll togglePairCalls).1.execute.2 ≠
      .error (.invalidBit node value) := by
  obtain ⟨built, hbuilt, rfl⟩ : ∃ built, toggles.instantiate "pair" {} = .ok built ∧
      built = togglePair := ⟨_, by decide +kernel, rfl⟩
  have hbits : togglePair.graph.AllBits := by decide +kernel
  have hcalls : ∀ call ∈ togglePairCalls, ∀ value ∈ call.written?, Binary value := by
    simp [togglePairCalls, Call.written?, Binary]
  -- The claims about the fixed network are computed; that no input is invalid follows
  obtain ⟨hissues, hlength, hcell, hregisters⟩ : togglePair.issues.size = 2 ∧
      (togglePair.history togglePairCalls).length = 8 ∧
      (togglePair.performAll togglePairCalls).1.graph.inletCell? ⟨4⟩ = none ∧
      (togglePair.performAll togglePairCalls).1.registers = [(⟨3⟩, 0), (⟨6⟩, 1)] := by
    decide +kernel
  exact ⟨_, hbuilt, rfl, hissues, hbits, hcalls, hlength, hcell, hregisters,
    (bits_stay_binary hbuilt hbits hcalls).2.2⟩

end Network

end TokenNet
