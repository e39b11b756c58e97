import TokenNet.Call
import TokenNet.Proofs.Chart.Graph

/-!
# Networks with a chart

A chart of a whole network also says what is seen from outside: the slots that show each input,
the exits, whether there is an output, and where a run begins.  If the rows of the chart do what
they should from every memory that the network can be left in, then every run of the network does,
whatever was written before and however earlier runs went.

## Main statements

- `Chart.Works.serves`: use of the root leaves a steady memory for the values last written.
- `Chart.Works.answered`: every run is answered as the rows say.
-/

namespace TokenNet

/-! ## Charts of networks -/

/-- The chart of a network. -/
structure Chart where
  /-- The slots that show each input. -/
  inputs : List (List Nat)
  /-- The number of exits. -/
  exits : Nat
  /-- Whether there is an output. -/
  gives : Bool
  /-- Where a run begins. -/
  start : Nat
  rows : Listing

namespace Graph

/-- The slots at which a write to an inlet of the root shows. -/
def inputSlots (graph : Graph) (inlet : InletId) : List Nat :=
  inlet.index :: graph.slotsOf (graph.inward inlet)

/-- All values are zero, as they are after a build. -/
def Blank (graph : Graph) : Prop :=
  ∀ slot ∈ graph.cells.slots.toList, ∀ cell ∈ slot.content, cell.value = 0

/-- What a chart says of a graph that has not been used, whose root has the given ports. -/
structure Charted (graph : Graph) (ports : Interface) (chart : Chart) : Prop where
  tight : graph.Tight
  blank : graph.Blank
  entry : ports.entry = some ⟨chart.start⟩
  exits : ports.exits = (List.range chart.exits).map ExitId.mk
  gives : graph.outletWired ports.outlet = chart.gives
  outlet : (graph.outletCell? ports.outlet).isSome
  loose : ∀ inlet ∈ ports.inlets, inlet.index < graph.inlets.size ∧ graph.inletCell? inlet = none
  inputs : ports.inlets.map graph.inputSlots = chart.inputs
  rows : ∀ row ∈ chart.rows, graph.row? ports.outlet row.1 = some row.2

theorem Blank.shows {graph : Graph} (h : graph.Blank) (port : Port) : graph.shows port = 0 := by
  unfold Graph.shows portValue?
  cases hcell : graph.portCell? port with
  | none => rfl
  | some cell =>
    simp only [Option.bind_some, cellValue?]
    cases hrecord : graph.cell? cell with
    | none => rfl
    | some record =>
      -- A cell that is found is in some slot, and the slots hold zeros
      unfold cell? Store.get? at hrecord
      split at hrecord
      next slot hslot =>
        split at hrecord
        next =>
          have hmem : slot ∈ graph.cells.slots := Array.mem_of_getElem? hslot
          exact h slot hmem.val record hrecord
        next => cases hrecord
      next => cases hrecord

theorem mem_inputSlots {graph : Graph} {inlet : InletId} {s : Nat} : s ∈ graph.inputSlots inlet ↔
    (decide (Port.inlet ⟨s⟩ = .inlet inlet) ||
      graph.touches (graph.inward inlet) (.inlet ⟨s⟩)) = true := by
  unfold inputSlots
  rw [List.mem_cons, mem_slotsOf, Bool.or_eq_true, decide_eq_true_eq, Port.inlet.injEq]
  apply or_congr_left
  constructor
  · rintro rfl
    rfl
  · rintro rfl
    rfl

/-- Writing an inlet of the root changes the memory at its slots. -/
theorem memory_writeInlet {graph graph' : Graph} (h : graph.Keeps graph')
    (hlinked : graph.Linked) (htight : graph.Tight) (outlet : OutletId) {inlet : InletId}
    (hinlet : graph'.HasPort (.inlet inlet)) (hloose : graph.portCell? (.inlet inlet) = none)
    (value : Value) : (graph'.writeInlet inlet value).memory outlet =
      (graph'.memory outlet).write (graph.inputSlots inlet)
        (graph.touches (graph.inward inlet) (.outlet outlet)) value := by
  have hshows := h.shows_writeInlet hlinked htight hinlet hloose value
  unfold memory Memory.write
  rw [hshows]
  congr
  funext s
  rw [hshows]
  simp only [mem_inputSlots]

end Graph

/-! ## Use of the root -/

/-- What is done with a network: a value is written into an inlet of the root, or it is run. -/
inductive Use where
  | write (index : Nat) (value : Value)
  | run
deriving DecidableEq, Repr

namespace Use

/-- The call that is made. -/
def call (root : NodeId) : Use → Call
  | write index value => .writeInlet root index value
  | run => .step

/-- The inputs after a use, if the given ones were there before. -/
def inputs (before : Nat → Value) : Use → Nat → Value
  | write index value => fun i => if i = index then value else before i
  | run => before

/-- The values last written, which are zero at first. -/
def lastWritten (uses : List Use) : Nat → Value :=
  uses.foldl inputs fun _ => 0

end Use

/-! ## Contracts -/

/-- What the rows of a chart do.  Memories are *steady* for some inputs between runs and all along
a run, whatever the run was before; a run that ends is *done* as the inputs and the memory at its
beginning want it, and it needs no more firings than a bound. -/
structure Chart.Works (chart : Chart) (steady : (Nat → Value) → Memory → Prop)
    (done : (Nat → Value) → Memory → Nat → Memory → Prop) (bound : (Nat → Value) → Nat) : Prop where
  fresh : ∀ {memory}, (∀ s, memory.slot s = 0) → steady (fun _ => 0) memory
  idle : ∀ {inputs inputs' memory}, steady inputs memory →
    (∀ i < chart.inputs.length, inputs' i = inputs i) → steady inputs' memory
  write : ∀ {inputs memory index slots} emits value, chart.inputs[index]? = some slots →
    steady inputs memory →
    steady ((Use.write index value).inputs inputs) (memory.write slots emits value)
  ends : ∀ {inputs memory}, steady inputs memory →
    Ends chart.rows (steady inputs) (done inputs memory) (bound inputs) (.row chart.start) memory

/-- What the rows of a chart do whose runs all end at an exit of the network, whatever the memory at
the beginning of a run. -/
structure Chart.Meets (chart : Chart) (steady : (Nat → Value) → Memory → Prop)
    (done : (Nat → Value) → Nat → Memory → Prop) (bound : (Nat → Value) → Nat) : Prop where
  fresh : ∀ {memory}, (∀ s, memory.slot s = 0) → steady (fun _ => 0) memory
  idle : ∀ {inputs inputs' memory}, steady inputs memory →
    (∀ i < chart.inputs.length, inputs' i = inputs i) → steady inputs' memory
  write : ∀ {inputs memory index slots} emits value, chart.inputs[index]? = some slots →
    steady inputs memory →
    steady ((Use.write index value).inputs inputs) (memory.write slots emits value)
  ends : ∀ {inputs memory}, steady inputs memory →
    Ends chart.rows (steady inputs) (done inputs) (bound inputs) (.row chart.start) memory
  exits : ∀ {inputs index memory}, done inputs index memory → index < chart.exits

theorem Chart.Meets.works {chart : Chart} {steady : (Nat → Value) → Memory → Prop}
    {done : (Nat → Value) → Nat → Memory → Prop} {bound : (Nat → Value) → Nat}
    (h : chart.Meets steady done bound) : chart.Works steady (fun inputs _ => done inputs) bound :=
  ⟨h.fresh, h.idle, h.write, h.ends⟩

/-- How a run is answered: it ended as it should, at an exit of the network or elsewhere, or the
limit on firings stopped the run and was below the bound. -/
inductive Chart.Responds (chart : Chart) (done : Nat → Memory → Prop) (bound limit : Nat) :
    Except Refusal Reply → Prop where
  | ended {index : Nat} {memory : Memory} (steps : Nat) : done index memory →
    chart.Responds done bound limit (.ok (.outcome
      ⟨⟨⟨index⟩, if index < chart.exits then some index else none, steps⟩,
        if chart.gives then some memory.out else none⟩))
  | exhausted : limit < bound →
    chart.Responds done bound limit (.error (.fault (.chainExhausted limit)))

/-- How a run is answered that ends at an exit of the network: the exit and the output are as they
should be, or the limit on firings stopped the run and was below the bound. -/
inductive Chart.Answers (chart : Chart) (done : Nat → Memory → Prop) (bound limit : Nat) :
    Except Refusal Reply → Prop where
  | ended {index : Nat} {memory : Memory} (steps : Nat) : done index memory →
    chart.Answers done bound limit (.ok (.outcome
      ⟨⟨⟨index⟩, some index, steps⟩, if chart.gives then some memory.out else none⟩))
  | exhausted : limit < bound →
    chart.Answers done bound limit (.error (.fault (.chainExhausted limit)))

theorem Chart.Responds.answers {chart : Chart} {done : Nat → Memory → Prop} {bound limit : Nat}
    {answer : Except Refusal Reply} (h : chart.Responds done bound limit answer)
    (hexits : ∀ {index memory}, done index memory → index < chart.exits) :
    chart.Answers done bound limit answer := by
  cases h with
  | ended steps hdone =>
    rw [if_pos (hexits hdone)]
    exact .ended steps hdone
  | exhausted hless => exact .exhausted hless

/-! ## Networks in use -/

/-- A network after some use of its root. -/
structure Network.Keeps (net net' : Network) : Prop where
  graph : net.graph.Keeps net'.graph
  root : net'.root = net.root
  limits : net'.limits = net.limits

namespace Chart

variable {chart : Chart} {steady : (Nat → Value) → Memory → Prop}
variable {done : (Nat → Value) → Memory → Nat → Memory → Prop} {bound : (Nat → Value) → Nat}
variable {net net' : Network} {ports : Interface} {inputs : Nat → Value}

theorem interface_of_keeps (hports : net.graph.interface? net.root = some ports)
    (h : net.Keeps net') : net'.interface net'.root = .ok ports := by
  rw [← h.graph.interface?, ← h.root] at hports
  unfold Graph.interface? at hports
  obtain ⟨record, hrecord, hfound⟩ := Option.bind_eq_some_iff.mp hports
  unfold Network.interface
  simp only [hrecord, hfound]

/-- A write to an inlet of the root is refused if the chart does not list the input; otherwise it
changes the memory at the slots of the input. -/
theorem perform_writeInlet (hlinked : net.graph.Linked)
    (hports : net.graph.interface? net.root = some ports) (hchart : net.graph.Charted ports chart)
    (hkeeps : net.Keeps net') (index : Nat) (value : Value) :
    let answer := net'.perform (.writeInlet net.root index value)
    (chart.inputs.length ≤ index ∧ answer.1 = net') ∨
    (∃ slots emits, chart.inputs[index]? = some slots ∧ net.Keeps answer.1 ∧
      answer.1.graph.memory ports.outlet =
        (net'.graph.memory ports.outlet).write slots emits value) := by
  have hinterface := interface_of_keeps hports hkeeps
  rw [hkeeps.root] at hinterface
  dsimp only [Network.perform]
  unfold Network.writeInlet
  rw [hinterface]
  cases hinlet : ports.inlets[index]? with
  | none =>
    simp only [bind, Except.bind, hinlet]
    have hlength : ports.inlets.length ≤ index := List.getElem?_eq_none_iff.mp hinlet
    rw [← hchart.inputs, List.length_map]
    exact .inl ⟨hlength, rfl⟩
  | some inlet =>
    simp only [bind, Except.bind, hinlet]
    obtain ⟨hinside, hloose⟩ := hchart.loose inlet (List.mem_of_getElem? hinlet)
    have hport : net'.graph.HasPort (.inlet inlet) := by
      rw [← hkeeps.graph.inlets_size] at hinside
      exact hinside
    -- The chart lists the slots of each inlet in order
    have hslots : chart.inputs[index]? = some (net.graph.inputSlots inlet) := by
      rw [← hchart.inputs, List.getElem?_map, hinlet]
      rfl
    exact .inr ⟨_, _, hslots,
      ⟨hkeeps.graph.writeInlet hport hloose value, hkeeps.root, hkeeps.limits⟩,
      Graph.memory_writeInlet hkeeps.graph hlinked hchart.tight ports.outlet hport hloose value⟩

/-- **A write to an inlet of the root** renews the inputs. -/
theorem Works.serves_write (h : chart.Works steady done bound) (hlinked : net.graph.Linked)
    (hports : net.graph.interface? net.root = some ports) (hchart : net.graph.Charted ports chart)
    (hkeeps : net.Keeps net') (hsteady : steady inputs (net'.graph.memory ports.outlet))
    (index : Nat) (value : Value) :
    let answer := net'.perform (.writeInlet net.root index value)
    net.Keeps answer.1 ∧
      steady ((Use.write index value).inputs inputs) (answer.1.graph.memory ports.outlet) := by
  rcases perform_writeInlet hlinked hports hchart hkeeps index value with
    ⟨hlength, hsame⟩ | ⟨slots, emits, hslots, hkept, hmemory⟩
  · dsimp only
    rw [hsame]
    exact ⟨hkeeps, h.idle hsteady fun i hi => if_neg (by omega)⟩
  · exact ⟨hkept, hmemory ▸ h.write emits value hslots hsteady⟩

/-! ## Runs -/

theorem findIdx?_exits (exits index : Nat) :
    ((List.range exits).map ExitId.mk).findIdx? (fun e => e = ⟨index⟩) =
      if index < exits then some index else none := by
  split
  -- The exit with that index is there, and the earlier ones differ from it
  next hinside =>
    rw [List.findIdx?_eq_some_iff_getElem]
    refine ⟨by simpa using hinside, by simp, fun i hi => ?_⟩
    simp only [List.getElem_map, List.getElem_range, ExitId.mk.injEq, decide_eq_true_eq]
    omega
  next houtside =>
    rw [List.findIdx?_eq_none_iff]
    intro exit hexit
    obtain ⟨i, hi, rfl⟩ := List.mem_map.mp hexit
    have hless := List.mem_range.mp hi
    simp only [ExitId.mk.injEq, decide_eq_false_iff_not]
    omega

/-- What the root gives out is what its outlet shows. -/
theorem rootOutput?_of_keeps (hports : net.graph.interface? net.root = some ports)
    (hchart : net.graph.Charted ports chart) (hkeeps : net.Keeps net') : net'.rootOutput? =
      if chart.gives then some (net'.graph.memory ports.outlet).out else none := by
  -- The output has a cell, which the run has kept
  obtain ⟨cell, hcell⟩ := Option.isSome_iff_exists.mp hchart.outlet
  have hcell' : net'.graph.portCell? (.outlet ports.outlet) = some cell :=
    hkeeps.graph.kept (show net.graph.portCell? (.outlet ports.outlet) = some cell from hcell)
  obtain ⟨record, hrecord⟩ := hkeeps.graph.linked.live hcell'
  have hshows : net'.graph.shows (.outlet ports.outlet) = record.value := by
    simp [Graph.shows, Graph.portValue?, hcell', Graph.cellValue?, hrecord]
  have hvalue : net'.graph.outletValue? ports.outlet = some record.value := by
    have hcell' : net'.graph.outletCell? ports.outlet = some cell := hcell'
    simp [Graph.outletValue?, hcell', Graph.cellValue?, hrecord]
  have hgives : net'.graph.outletWired ports.outlet = chart.gives := by
    rw [Graph.outletWired_of_eq hkeeps.graph.bare_outlets, hchart.gives]
  -- Whether the root gives an output is decided by its mark
  unfold Network.rootOutput? Network.output
  rw [interface_of_keeps hports hkeeps]
  simp only [bind, Except.bind, hgives, hvalue, Graph.memory, hshows]
  cases chart.gives <;> rfl

/-- A run of the network ends as the rows say, or the limit on firings stops it on the way. -/
theorem perform_step {always : Memory → Prop} {wanted : Nat → Memory → Prop} {most : Nat}
    (hlinked : net.graph.Linked) (hports : net.graph.interface? net.root = some ports)
    (hchart : net.graph.Charted ports chart) (hkeeps : net.Keeps net')
    (h : Ends chart.rows always wanted most (.row chart.start)
      (net'.graph.memory ports.outlet)) :
    let answer := net'.perform .step
    let memory := answer.1.graph.memory ports.outlet
    net.Keeps answer.1 ∧ always memory ∧
      ((∃ index steps, wanted index memory ∧ answer.2 = .ok (.outcome
          ⟨⟨⟨index⟩, if index < chart.exits then some index else none, steps⟩,
            if chart.gives then some memory.out else none⟩)) ∨
        (net.limits.chainLimit < most ∧
          answer.2 = .error (.fault (.chainExhausted net.limits.chainLimit)))) := by
  have hentry : net'.entry? = some ⟨chart.start⟩ := by
    unfold Network.entry?
    rw [hkeeps.root, hkeeps.graph.interface?, hports]
    exact hchart.entry
  have hlands : Run.Lands net'.limits.chainLimit net.graph ports.outlet always wanted most
      net'.limits.chainLimit
      (Run.walk net'.limits.callLimit net'.limits.chainLimit (net'.runs + 1)
        net'.limits.chainLimit 0 ⟨chart.start⟩ ⟨net'.graph, net'.ledger⟩) :=
    h.lands hlinked hchart.tight hchart.rows _ _ _ hkeeps.graph rfl
  dsimp only [Network.perform, Network.step, Network.execute]
  simp only [hentry]
  -- The walk is known by how it lands, and nothing else of it matters
  generalize Run.walk _ _ _ _ _ _ _ = walked at hlands
  obtain ⟨state, result⟩ := walked
  obtain ⟨hgraph, hheld, hresult⟩ := hlands
  have hafter : net.Keeps { net' with
      graph := state.graph, ledger := state.ledger, runs := net'.runs + 1 } :=
    ⟨hgraph, hkeeps.root, hkeeps.limits⟩
  refine ⟨hafter, hheld, ?_⟩
  rw [← hkeeps.limits]
  -- The token has come to rest at an exit, which is translated to its position
  rcases hresult with ⟨index, steps, rfl, hdone⟩ | ⟨hless, rfl⟩
  · have houtput := rootOutput?_of_keeps hports hchart hafter
    have hposition : Network.exitPosition { net' with
        graph := state.graph, ledger := state.ledger, runs := net'.runs + 1 } ⟨index⟩ =
          if index < chart.exits then some index else none := by
      unfold Network.exitPosition
      rw [hafter.root, hafter.graph.interface?, hports, Option.bind_some, hchart.exits]
      exact findIdx?_exits chart.exits index
    simp only [Except.map, Except.mapError, houtput, hposition]
    exact .inl ⟨index, steps, hdone, rfl⟩
  · exact .inr ⟨hless, rfl⟩

/-- **A run of the network** is answered as the rows say, and leaves a steady memory. -/
theorem Works.serves_run (h : chart.Works steady done bound) (hlinked : net.graph.Linked)
    (hports : net.graph.interface? net.root = some ports) (hchart : net.graph.Charted ports chart)
    (hkeeps : net.Keeps net') (hsteady : steady inputs (net'.graph.memory ports.outlet)) :
    let answer := net'.perform .step
    (net.Keeps answer.1 ∧ steady inputs (answer.1.graph.memory ports.outlet)) ∧
      chart.Responds (done inputs (net'.graph.memory ports.outlet)) (bound inputs)
        net.limits.chainLimit answer.2 := by
  obtain ⟨hkept, hheld, hresult⟩ := perform_step hlinked hports hchart hkeeps (h.ends hsteady)
  refine ⟨⟨hkept, hheld⟩, ?_⟩
  rcases hresult with ⟨index, steps, hdone, hanswer⟩ | ⟨hless, hanswer⟩ <;> rw [hanswer]
  · exact .ended steps hdone
  · exact .exhausted hless

/-- **Use of the root** leaves a steady memory for the values last written. -/
theorem Works.serves (h : chart.Works steady done bound) (hlinked : net.graph.Linked)
    (hports : net.graph.interface? net.root = some ports)
    (hchart : net.graph.Charted ports chart) : ∀ (uses : List Use) {net' : Network}
    {inputs : Nat → Value}, net.Keeps net' → steady inputs (net'.graph.memory ports.outlet) →
    let used := (net'.performAll (uses.map (Use.call net.root))).1
    net.Keeps used ∧ steady (uses.foldl Use.inputs inputs) (used.graph.memory ports.outlet)
  | [], _, _, hkeeps, hsteady => ⟨hkeeps, hsteady⟩
  | .write index value :: rest, _, _, hkeeps, hsteady =>
    have hfirst := h.serves_write hlinked hports hchart hkeeps hsteady index value
    h.serves hlinked hports hchart rest hfirst.1 hfirst.2
  | .run :: rest, _, _, hkeeps, hsteady =>
    have hfirst := (h.serves_run hlinked hports hchart hkeeps hsteady).1
    h.serves hlinked hports hchart rest hfirst.1 hfirst.2

/-- **Every run is answered as the rows say**, for the values last written and whatever was done
before.  The memory at its beginning shows what the root gave out before. -/
theorem Works.answered (h : chart.Works steady done bound) (hlinked : net.graph.Linked)
    (hports : net.graph.interface? net.root = some ports) (hchart : net.graph.Charted ports chart)
    (uses : List Use) :
    let used := (net.performAll (uses.map (Use.call net.root))).1
    ∃ memory, used.rootOutput? = (if chart.gives then some memory.out else none) ∧
      chart.Responds (done (Use.lastWritten uses) memory) (bound (Use.lastWritten uses))
        net.limits.chainLimit (used.perform .step).2 := by
  have hfresh : steady (fun _ => 0) (net.graph.memory ports.outlet) :=
    h.fresh fun s => hchart.blank.shows (.inlet ⟨s⟩)
  have hserves := h.serves hlinked hports hchart uses ⟨.refl hlinked, rfl, rfl⟩ hfresh
  exact ⟨_, rootOutput?_of_keeps hports hchart hserves.1,
    (h.serves_run hlinked hports hchart hserves.1 hserves.2).2⟩

end Chart

end TokenNet
