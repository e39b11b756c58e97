import TokenNet.Proofs.Matrix.BitsBuild
import TokenNet.Proofs.Run.Control

/-!
# Runs of a bit matrix

A run of the network of a bit matrix toggles its bits.  One firing of a strip of bits toggles the
bit that fires and leads the token to the bit that follows, or fails as toggling fails; so a whole
walk ends as toggling ends.

## Main statements

- `Strip.fire`: one firing toggles one bit.
- `Strip.walk`: a walk toggles until no bit follows.
- `tally_runBits`: the numbers of a run.
- `runBits_toggles`: a run of a bit matrix is toggling.
-/

namespace TokenNet.Matrix

variable {net : Network} {plan : Plan} {looped bit : Nat} {toggles : Toggles}

/-! ## Seeds -/

/-- The interface of a bit tells what it is and how often it was called. -/
theorem Shape.interface (h : Shape net.graph plan toggles) (hbit : bit < plan.count) :
    ∃ calls, net.interface (bitNode bit) = .ok (bitPorts bit (toggles.bits bit) calls) ∧
      calls.toNat = toggles.calls bit := by
  obtain ⟨record, calls, hrecord, hkind, hcalls⟩ := h.bit bit hbit
  exact ⟨calls, by simp [Network.interface, hrecord, Node.interface?, hkind], hcalls⟩

/-- Setting the state of a bit sets its register and what it shows. -/
theorem Strip.setState (h : Strip net.graph plan looped toggles)
    (hbit : bit < plan.count) (hloop : bit < looped) (value : Value) :
    ∃ graph, net.setState (bitNode bit) value = .ok { net with graph } ∧
      Strip graph plan looped (toggles.set bit value) := by
  obtain ⟨calls, hports, _⟩ := h.shape.interface hbit
  let marked := net.graph.modifyNode (bitNode bit)
    (Node.modifyInterface fun ports => { ports with register := value })
  have hshape : Shape marked plan (toggles.set bit value) := by
    refine h.shape.modifyBit bit (fun calls hcalls => ⟨calls, ?_, hcalls⟩)
      fun other hne => ⟨?_, rfl⟩
    · simp [Toggles.set, bitPorts]
    · exact Function.update_of_ne hne _ _
  have hwires : Wires marked looped toggles := h.wires.of_same (.of_eq rfl rfl rfl)
  obtain ⟨cell, hcell⟩ := hwires.placed _ (hshape.hasPort_inlet hbit)
  -- Setting the state writes the register and the input of the bit
  have hset : net.setState (bitNode bit) value =
      .ok { net with graph := marked.writeInlet (bitInlet bit) value } := by
    simp [Network.setState, hports, bitPorts, marked, bind, Except.bind, pure, Except.pure]
  refine ⟨_, hset, ?_⟩
  rw [Graph.writeInlet_eq hcell]
  exact ⟨hshape.of_bare_eq (Graph.bare_writeCells _ _ _),
    hwires.write hshape.flat hloop rfl hcell value⟩

/-- Only the bits of a strip count. -/
theorem Strip.congr {graph : Graph} {toggles' : Toggles} (h : Strip graph plan looped toggles)
    (hbits : ∀ bit < plan.count, toggles'.bits bit = toggles.bits bit)
    (hcalls : ∀ bit < plan.count, toggles'.calls bit = toggles.calls bit) :
    Strip graph plan looped toggles' := by
  refine ⟨{ h.shape with bit := fun bit hbit => ?_ }, { h.wires with shows := ?_ }⟩
  · rw [hbits bit hbit, hcalls bit hbit]
    exact h.shape.bit bit hbit
  -- A pin of the strip belongs to some bit of the plan
  · intro port hport bit hbit
    have hlt : bit < plan.count := by
      have hinlets := h.shape.inlets
      have houtlets := h.shape.outlets
      cases port with
      | inlet inlet =>
        change inlet.index < _ at hport
        change inlet.index + 1 = _ at hbit
        omega
      | outlet outlet =>
        change outlet.index < _ at hport
        change outlet.index = _ at hbit
        omega
    rw [hbits bit hlt]
    exact h.wires.shows port hport bit hbit

/-- Seeds are given to the bits in order, from any bit on. -/
theorem Strip.seed (hlooped : plan.count ≤ looped) : ∀ (seeds : List Value) {first rest : Nat}
    {net : Network} {toggles : Toggles}, first + rest = plan.count →
    Strip net.graph plan looped toggles →
    ∃ graph, Matrix.seed net (((List.range' first rest).map bitNode).zip seeds) =
        .ok { net with graph } ∧
      Strip graph plan looped { toggles with
        bits := fun bit =>
          if first ≤ bit then seeds.getD (bit - first) (toggles.bits bit) else toggles.bits bit }
  | [], first, rest, net, toggles, _, h => by
    refine ⟨net.graph, by rw [List.zip_nil_right]; rfl, h.congr (fun bit _ => ?_) fun _ _ => rfl⟩
    -- No seeds are left, or no bits, and the rest keeps its values
    simp
  | value :: later, first, 0, net, toggles, hcount, h => by
    refine ⟨net.graph, rfl, h.congr (fun bit hbit => ?_) fun _ _ => rfl⟩
    exact if_neg (by omega)
  | value :: later, first, rest + 1, net, toggles, hcount, h => by
    -- The first bit takes the first seed
    obtain ⟨graph, hset, hstrip⟩ := h.setState (show first < plan.count by omega)
      (show first < looped by omega) value
    have hnet : Strip ({ net with graph } : Network).graph plan looped (toggles.set first value) :=
      hstrip
    obtain ⟨graph', hrest, hstrip'⟩ :=
      Strip.seed hlooped later (show first + 1 + rest = plan.count by omega) hnet
    refine ⟨graph', ?_, hstrip'.congr (fun bit _ => ?_) fun _ _ => rfl⟩
    · rw [List.range'_succ, List.map_cons, List.zip_cons_cons]
      unfold Matrix.seed
      rw [hset]
      exact hrest
    · change (if first ≤ bit then (value :: later).getD (bit - first) (toggles.bits bit)
        else toggles.bits bit) = if first + 1 ≤ bit then
          later.getD (bit - (first + 1)) (Function.update toggles.bits first value bit)
        else Function.update toggles.bits first value bit
      -- Bits before the first seed, the one that gets it, and those behind it
      rcases Nat.lt_trichotomy bit first with hlt | rfl | hgt
      · rw [if_neg (by omega), if_neg (by omega), Function.update_of_ne (Nat.ne_of_lt hlt)]
      · rw [if_pos (Nat.le_refl bit), if_neg (by omega), Function.update_self, Nat.sub_self]
        rfl
      · have hindex : bit - first = bit - (first + 1) + 1 := by omega
        rw [if_pos (by omega), if_pos (by omega), Function.update_of_ne (Nat.ne_of_gt hgt), hindex]
        rfl

/-! ## Firings -/

/-- How a run of a network reports that toggling stopped. -/
def Stop.fault (limits : Limits) : Stop → RunFault
  | .noBits => .noEntry
  | .invalid bit value => .invalidBit (bitNode bit) value
  | .tooOften bit => .callLimit (bitNode bit) limits.callLimit
  | .exhausted => .chainExhausted limits.chainLimit

/-- A bit negates zero and one, and no other value. -/
theorem negate?_eq (value : Value) : Primitive.negate? value =
    if value = 0 ∨ value = 1 then some (1 - value) else none := by
  unfold Primitive.negate?
  by_cases hzero : value = 0
  · simp [hzero]
  · by_cases hone : value = 1
    · simp [hone]
    · simp [hzero, hone]

theorem evaluate_bit (reading : Reading) : Primitive.bit.evaluate [reading] =
    if reading.value = 0 ∨ reading.value = 1 then
      .ok ⟨1 - reading.value, Primitive.branch (1 - reading.value), some (1 - reading.value)⟩
    else .error reading.value := by
  have hnegated := negate?_eq reading.value
  simp only [Primitive.evaluate, List.getElem?_cons_zero, Option.getD_some, hnegated]
  by_cases hbinary : reading.value = 0 ∨ reading.value = 1
  · simp only [if_pos hbinary]
  · simp only [if_neg hbinary]

theorem toNat_negated_le {value : Value} (h : value = 0 ∨ value = 1) :
    (1 - value).toInt.toNat ≤ 1 := by
  rcases h with rfl | rfl
  · decide
  · decide

/-- The exit of the column that belongs to what a bit has become. -/
theorem exits_branch {value : Value} (h : value = 0 ∨ value = 1) (register : Value)
    (calls : UInt32) : (bitPorts bit register calls).exits[Primitive.branch (1 - value)]? =
      some (bitExit (2 * bit + (1 - value).toInt.toNat)) := by
  rcases h with rfl | rfl
  · rfl
  · rfl

variable {graph : Graph} {matrix : Matrix}

/-- Counting a call of a bit and writing what the bit has become toggles it, as long as the counter
can count. -/
theorem Strip.toggle (h : Strip graph plan looped toggles) (hbit : bit < plan.count)
    (hloop : bit < looped) (hfew : (toggles.toggle bit).calls bit < 2 ^ 32) :
    Strip ((graph.countCall (bitNode bit) (1 - toggles.bits bit)).writeOutlet (bitOutlet bit)
      (1 - toggles.bits bit)) plan looped (toggles.toggle bit) := by
  let counted := graph.countCall (bitNode bit) (1 - toggles.bits bit)
  rw [Toggles.calls_toggle] at hfew
  have hshape : Shape counted plan (toggles.toggle bit) := by
    refine h.shape.modifyBit bit (fun calls hcalls => ?_) fun other hne => ⟨?_, ?_⟩
    · let ports := (bitPorts bit (toggles.bits bit) calls).countCall
      refine ⟨ports.calls, ?_, ?_⟩
      · simp [ports, Toggles.toggle, Toggles.count, Toggles.set, bitPorts, Interface.countCall]
      -- The counter stops at its largest value, which is not reached here
      · have hadd : ports.calls.toNat = min (calls.toNat + 1) (2 ^ 32 - 1) :=
          Interface.toNat_calls_countCall _
        rw [Toggles.calls_toggle]
        omega
    · exact Function.update_of_ne hne _ _
    · exact Function.update_of_ne hne _ _
  have hwires : Wires counted looped toggles := h.wires.of_same (.of_eq rfl rfl rfl)
  obtain ⟨cell, hcell⟩ := hwires.placed _ (hshape.hasPort_outlet hbit)
  rw [hshape.flat.writeOutlet_eq hcell]
  have hwritten := hwires.write hshape.flat hloop rfl hcell (1 - toggles.bits bit)
  -- Counting does not change what a bit shows
  exact ⟨hshape.of_bare_eq (Graph.bare_writeCells _ _ _), { hwritten with shows := hwritten.shows }⟩

/-- **One firing of a strip toggles a bit** and leads the token to the bit that follows, or it
fails as toggling does. -/
theorem Strip.fire (h : Strip graph plan looped toggles) (hlead : plan.lead = matrix.follower?)
    (hbit : bit < plan.count) (hloop : bit < looped) (limits : Limits) :
    let firing := graph.fire limits.callLimit (bitNode bit)
    match toggles.fire matrix limits.callLimit.toNat bit with
    | .error stop => firing.result = .error (stop.fault limits)
    | .ok (toggled, next) => Strip firing.graph plan looped toggled ∧
        ∃ exit, firing.result = .ok exit ∧ firing.graph.target? exit = next.map bitEntry := by
  obtain ⟨record, calls, hrecord, hkind, hcalls⟩ := h.shape.bit bit hbit
  let ports := bitPorts bit (toggles.bits bit) calls
  have hshown : (graph.reading (bitInlet bit)).value = toggles.bits bit :=
    h.wires.shows _ (h.shape.hasPort_inlet hbit) bit rfl
  have hfire : graph.fire limits.callLimit (bitNode bit) =
      graph.firePrimitive limits.callLimit (bitNode bit) record .bit ports := by
    unfold Graph.fire
    rw [hrecord]
    simp only [hkind]
    rfl
  -- The value read is the bit of the machine, so both decide by it
  have hreadings : ports.inlets.map graph.reading = [graph.reading (bitInlet bit)] := rfl
  rw [hfire]
  unfold Graph.firePrimitive Toggles.fire
  simp only [hreadings, evaluate_bit, hshown]
  by_cases hbinary : toggles.bits bit = 0 ∨ toggles.bits bit = 1
  · simp only [if_pos hbinary]
    -- The guard counts the call that is under way
    have hexhausted : Graph.callsExhausted ports limits.callLimit = true ↔
        limits.callLimit.toNat ≤ (toggles.toggle bit).calls bit := by
      rw [Graph.callsExhausted_iff, Toggles.calls_toggle, ← hcalls]
      rfl
    by_cases hmany : limits.callLimit.toNat ≤ (toggles.toggle bit).calls bit
    · rw [if_pos hmany, if_pos (hexhausted.mpr hmany)]
      rfl
    · rw [if_neg hmany, if_neg fun hlimit => hmany (hexhausted.mp hlimit)]
      have hlimit := limits.callLimit.toNat_lt
      have hstrip := h.toggle hbit hloop ((Nat.lt_of_not_le hmany).trans hlimit)
      let column := 2 * bit + (1 - toggles.bits bit).toInt.toNat
      have hexit : ports.exits[Primitive.branch (1 - toggles.bits bit)]? = some (bitExit column) :=
        exits_branch hbinary _ _
      have hcolumn : column < 2 * plan.count := by
        have hbinary' := toNat_negated_le hbinary
        omega
      refine ⟨hstrip, bitExit column, ?_, ?_⟩
      · unfold Graph.emit
        dsimp only
        rw [hexit]
      · have htarget := hstrip.shape.target column hcolumn
        rw [hlead] at htarget
        rw [Toggles.bits_toggle]
        exact htarget
  -- A value that is no bit stops both before anything is counted
  · simp only [if_neg hbinary]
    rfl

/-! ## Walks -/

theorem nodeAt_bitEntry (h : Shape graph plan toggles) (hbit : bit < plan.count) :
    Run.nodeAt graph (bitEntry bit) = bitNode bit := by
  unfold Run.nodeAt
  rw [h.admitted bit hbit, Option.getD_some]

/-- **A walk of a strip toggles until no bit follows**, or fails as toggling does. -/
theorem Strip.walk (hlead : plan.lead = matrix.follower?) (hcount : plan.count = matrix.length)
    (hlooped : plan.count ≤ looped) (limits : Limits) (run : Nat) :
    ∀ (budget steps : Nat) {bit : Nat} {toggles : Toggles} {graph : Graph} (ledger : Ledger),
    Strip graph plan looped toggles → bit < plan.count →
    let walked := Run.walk limits.callLimit limits.chainLimit run budget steps (bitEntry bit)
      ⟨graph, ledger⟩
    match toggles.run matrix limits.callLimit.toNat budget bit with
    | .error stop => walked.2 = .error (stop.fault limits)
    | .ok (ending, firings) => Strip walked.1.graph plan looped ending ∧
        ∃ exit, walked.2 = .ok (exit, steps + firings)
  | 0, _, _, _, _, _, _, _ => rfl
  -- One firing of the network is one firing of the machine
  | budget + 1, steps, bit, toggles, graph, ledger, h, hbit => by
    have hfire := h.fire hlead hbit (hbit.trans_le hlooped) limits
    unfold Run.walk Run.fireAt Toggles.run
    simp only [nodeAt_bitEntry h.shape hbit]
    cases htoggle : toggles.fire matrix limits.callLimit.toNat bit with
    | error stop =>
      rw [htoggle] at hfire
      simp only [hfire]
      rfl
    | ok toggled =>
      obtain ⟨toggled, next⟩ := toggled
      rw [htoggle] at hfire
      obtain ⟨hstrip, exit, hexit, htarget⟩ := hfire
      simp only [hexit, htarget]
      -- The walk ends where the machine has no next bit
      cases next with
      | none => exact ⟨hstrip, exit, rfl⟩
      | some next =>
        -- The matrix leads to its own bits only, so the next one can fire
        have hnext : next < plan.count := hcount ▸ Toggles.lt_length_of_fire htoggle
        have hrest := Strip.walk hlead hcount hlooped limits run budget (steps + 1)
          (ledger.record run (bitNode bit) (graph.fire limits.callLimit (bitNode bit)).events)
          hstrip hnext
        cases hrun : toggled.run matrix limits.callLimit.toNat budget next with
        | error stop =>
          rw [hrun] at hrest
          simp only [bind, Except.bind, hrun]
          exact hrest
        | ok ended =>
          obtain ⟨ending, firings⟩ := ended
          rw [hrun] at hrest
          obtain ⟨hending, exit, hended⟩ := hrest
          simp only [bind, Except.bind, hrun]
          refine ⟨hending, exit, ?_⟩
          rw [Nat.add_right_comm, Nat.add_assoc] at hended
          exact hended

/-! ## Whole runs -/

theorem mapM_eq_ok_map {α β ε : Type} {f : α → Except ε β} {g : α → β} :
    ∀ {members : List α}, (∀ a ∈ members, f a = .ok (g a)) →
      members.mapM f = .ok (members.map g)
  | [], _ => rfl
  | a :: rest, h => by
    have hrest := mapM_eq_ok_map fun b hb => h b (List.mem_cons_of_mem a hb)
    rw [List.mapM_cons, h a List.mem_cons_self, hrest]
    rfl

/-- The numbers that a run of a bit matrix tells. -/
def BitRun.tally (run : BitRun) : Tally where
  bits := run.registers
  calls := run.calls.map UInt32.toNat
  firings := run.steps

/-- The bits of a network are found under their roles. -/
theorem Shape.find? (h : Shape net.graph plan toggles) (hroot : net.root = ⟨0⟩)
    (hbit : bit < plan.count) : net.find? (bitRole bit) = some (bitNode bit) := by
  have hpart := (h.part? bit).trans (if_pos hbit)
  unfold Network.find?
  rw [split_bitRole, hroot]
  simp [hpart]

theorem Shape.bitNodes (h : Shape net.graph plan toggles) (hroot : net.root = ⟨0⟩)
    (hcount : plan.count = matrix.length) :
    matrix.bitNodes net = (List.range matrix.length).map bitNode := by
  unfold Matrix.bitNodes
  rw [← List.filterMap_eq_map]
  refine List.filterMap_congr fun bit hmem => ?_
  rw [← hcount, List.mem_range] at hmem
  exact h.find? hroot hmem

/-- The registers of a strip are its bits. -/
theorem Shape.states (h : Shape net.graph plan toggles) :
    ((List.range plan.count).map bitNode).mapM net.state =
      .ok ((List.range plan.count).map toggles.bits) := by
  rw [List.mapM_map]
  refine mapM_eq_ok_map fun bit hmem => ?_
  obtain ⟨calls, hports, _⟩ := h.interface (List.mem_range.mp hmem)
  simp only [Function.comp, Network.state, hports]
  rfl

/-- The counted calls of a strip are those of its bits. -/
theorem Shape.callCounts (h : Shape net.graph plan toggles) : ∃ calls : List UInt32,
    ((List.range plan.count).map bitNode).mapM net.calls = .ok calls ∧
      calls.map UInt32.toNat = (List.range plan.count).map toggles.calls := by
  refine ⟨(List.range plan.count).map fun bit => UInt32.ofNat (toggles.calls bit), ?_, ?_⟩
  · rw [List.mapM_map]
    -- The counters of the nodes are those of the machine, bit by bit
    refine mapM_eq_ok_map fun bit hmem => ?_
    obtain ⟨calls, hports, hcalls⟩ := h.interface (List.mem_range.mp hmem)
    rw [← hcalls, UInt32.ofNat_toNat]
    simp only [Function.comp, Network.calls, hports]
    rfl
  · rw [List.map_map]
    refine List.map_congr_left fun bit hmem => ?_
    obtain ⟨calls, _, hcalls⟩ := h.interface (List.mem_range.mp hmem)
    rw [Function.comp, ← hcalls, UInt32.ofNat_toNat]

/-- A strip at whose first bit the token enters is executed by a walk from there. -/
theorem Strip.execute (h : Strip net.graph plan looped toggles) (hroot : net.root = ⟨0⟩)
    (hlead : plan.lead = matrix.follower?) (hcount : plan.count = matrix.length)
    (hlooped : plan.count ≤ looped) (hfirst : plan.first = some 0) (hsome : 0 < plan.count) :
    match toggles.run matrix net.limits.callLimit.toNat net.limits.chainLimit 0 with
    | .error stop => net.execute.2 = .error (stop.fault net.limits)
    | .ok (ending, firings) => Strip net.execute.1.graph plan looped ending ∧
        ∃ reached, net.execute.2 = .ok reached ∧ reached.steps = firings := by
  have hentry : net.entry? = some (bitEntry 0) := by
    unfold Network.entry?
    rw [hroot, h.shape.rootEntry?, hfirst, Option.map_some]
  have hwalk := Strip.walk hlead hcount hlooped net.limits (net.runs + 1) net.limits.chainLimit 0
    net.ledger h hsome
  unfold Network.execute
  simp only [hentry]
  -- A run starts at the first bit, with the counters as they are
  cases hrun : toggles.run matrix net.limits.callLimit.toNat net.limits.chainLimit 0 with
  | error stop =>
    rw [hrun] at hwalk
    dsimp only at hwalk ⊢
    rw [hwalk]
    rfl
  | ok ended =>
    obtain ⟨ending, firings⟩ := ended
    rw [hrun] at hwalk
    obtain ⟨hstrip, exit, hended⟩ := hwalk
    refine ⟨hstrip, ?_⟩
    rw [hended, Nat.zero_add]
    exact ⟨_, rfl, rfl⟩

/-- Without bits there is no way in. -/
theorem Shape.execute (h : Shape net.graph plan toggles) (hroot : net.root = ⟨0⟩)
    (hfirst : plan.first = none) : net.execute = (net, .error .noEntry) := by
  have hentry : net.entry? = none := by
    unfold Network.entry?
    rw [hroot, h.rootEntry?, hfirst, Option.map_none]
  unfold Network.execute
  rw [hentry]

/-- The network of a bit matrix with seeds. -/
theorem seed_bitsNetwork {looped : Nat} {first : Option Nat} (seeds : List Value)
    (h : Strip net.graph ⟨matrix.length, matrix.follower?, first⟩ looped (.start []))
    (hroot : net.root = ⟨0⟩) (hlooped : matrix.length ≤ looped) :
    ∃ graph, Matrix.seed net ((matrix.bitNodes net).zip seeds) = .ok { net with graph } ∧
      Strip graph ⟨matrix.length, matrix.follower?, first⟩ looped (.start seeds) := by
  obtain ⟨graph, hseeded, hstrip⟩ := Strip.seed hlooped seeds (Nat.zero_add _) h
  refine ⟨graph, ?_, hstrip.congr (fun bit _ => ?_) fun _ _ => rfl⟩
  · rw [h.shape.bitNodes hroot rfl, List.range_eq_range']
    exact hseeded
  · change _ = if 0 ≤ bit then seeds.getD (bit - 0) 0 else 0
    rw [if_pos (Nat.zero_le bit)]
    rfl

theorem runBits_of_fault {seeds : List Value} {limits : Limits} {seeded : Network}
    {fault : RunFault} (hbuild : matrix.bitsNetwork limits = .ok net)
    (hseed : Matrix.seed net ((matrix.bitNodes net).zip seeds) = .ok seeded)
    (hfault : seeded.execute.2 = .error fault) :
    matrix.runBits seeds limits = .error (.refusal (.fault fault)) := by
  unfold runBits
  simp only [hbuild, hseed, hfault, refused, Except.mapError, bind, Except.bind]

theorem runBits_of_end {seeds : List Value} {limits : Limits} {seeded : Network} {ending : Ending}
    {registers : List Value} {calls : List UInt32}
    (hbuild : matrix.bitsNetwork limits = .ok net)
    (hseed : Matrix.seed net ((matrix.bitNodes net).zip seeds) = .ok seeded)
    (hend : seeded.execute.2 = .ok ending)
    (hregisters : (matrix.bitNodes net).mapM seeded.execute.1.state = .ok registers)
    (hcalls : (matrix.bitNodes net).mapM seeded.execute.1.calls = .ok calls) :
    matrix.runBits seeds limits = .ok ⟨registers, calls, ending.steps⟩ := by
  unfold runBits
  simp only [hbuild, hseed, hend, hregisters, hcalls, refused, Except.mapError, bind, Except.bind,
    pure, Except.pure]

/-- The numbers of a run are those of toggling, and a run fails where toggling stops early. -/
theorem tally_runBits (matrix : Matrix) (seeds : List Value) {limits : Limits}
    (hlevels : 1 ≤ limits.nestingLimit) :
    (matrix.runBits seeds limits).map BitRun.tally =
      (matrix.toggleBits seeds limits.callLimit.toNat limits.chainLimit).mapError fun stop =>
        .refusal (.fault (stop.fault limits)) := by
  obtain ⟨net, hbuild, hroot, rfl, hstrip⟩ := matrix.bitsNetwork_eq_ok hlevels
  obtain ⟨graph, hseed, hstart⟩ := seed_bitsNetwork seeds hstrip hroot (Nat.le_refl _)
  let seeded : Network := { net with graph }
  have hbegun : Strip seeded.graph _ matrix.length (.start seeds) := hstart
  unfold toggleBits
  by_cases hsome : 0 < matrix.length
  · have hexecute := hbegun.execute hroot rfl rfl (Nat.le_refl _) (if_pos hsome) hsome
    rw [if_pos hsome]
    cases hrun : Toggles.run matrix net.limits.callLimit.toNat net.limits.chainLimit
        (.start seeds) 0 with
    | error stop =>
      rw [hrun] at hexecute
      rw [runBits_of_fault hbuild hseed hexecute]
      rfl
    -- The run has ended, and states and counters are read off the nodes
    | ok ended =>
      obtain ⟨ending, firings⟩ := ended
      rw [hrun] at hexecute
      obtain ⟨hending, reached, hreached, hsteps⟩ := hexecute
      have hnodes := hstrip.shape.bitNodes hroot rfl
      obtain ⟨calls, hcalls, hcounts⟩ := hending.shape.callCounts
      have hregisters := hending.shape.states
      rw [← hnodes] at hcalls hregisters
      rw [runBits_of_end hbuild hseed hreached hregisters hcalls]
      change Except.ok (Tally.mk _ _ _) = Except.ok (Tally.mk _ _ _)
      rw [hcounts, hsteps]
  -- Without bits there is no entry, and the run fails at once
  · have hfault : seeded.execute.2 = .error .noEntry :=
      congrArg Prod.snd (hbegun.shape.execute hroot (if_neg hsome))
    rw [if_neg hsome, runBits_of_fault hbuild hseed hfault]
    rfl

/-- **A run of a bit matrix is toggling.**  The network of the matrix can be built and has its bits
under their roles.  Its run from given bits ends as toggling does, with the same bits, counts and
number of firings; and where toggling stops early, the run fails and names the same reason, bit and
limit. -/
theorem runBits_toggles (matrix : Matrix) (seeds : List Value) {limits : Limits}
    (hlevels : 1 ≤ limits.nestingLimit) :
    ∃ net, matrix.bitsNetwork limits = .ok net ∧
      (∀ bit < matrix.length, net.find? (bitRole bit) = some (bitNode bit)) ∧
      (matrix.runBits seeds limits).map BitRun.tally =
        (matrix.toggleBits seeds limits.callLimit.toNat limits.chainLimit).mapError fun stop =>
          .refusal (.fault (stop.fault limits)) := by
  obtain ⟨net, hbuild, hroot, -, hstrip⟩ := matrix.bitsNetwork_eq_ok hlevels
  exact ⟨net, hbuild, fun bit hbit => hstrip.shape.find? hroot hbit,
    matrix.tally_runBits seeds hlevels⟩

/-- Two bits that hand the token to each other, the first to the second when it becomes one and the
second to the first when it becomes one. -/
def handingPair : Matrix := [[0, 0, 0, 1], [0, 1, 0, 0]]

/-- From bits that are zero three firings happen. -/
theorem runBits_handingPair : 1 ≤ ({} : Limits).nestingLimit ∧
    ∃ net, handingPair.bitsNetwork {} = .ok net ∧
      (∀ bit < 2, net.find? (bitRole bit) = some (bitNode bit)) ∧
      (handingPair.runBits [] {}).map BitRun.tally = .ok ⟨[0, 1], [2, 1], 3⟩ := by
  have hlevels : 1 ≤ ({} : Limits).nestingLimit := by decide
  obtain ⟨net, hbuild, hfind, hrun⟩ := runBits_toggles handingPair [] hlevels
  exact ⟨hlevels, net, hbuild, hfind, hrun.trans (by decide +kernel)⟩

end TokenNet.Matrix
