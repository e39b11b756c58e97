import TokenNet.Proofs.Network.Memory
import TokenNet.Proofs.Run.Bit
import TokenNet.Proofs.Run.Frame

/-!
# The call limit over whole histories

The counter of a bit goes up by one each time the bit fires on a binary value, before the call limit
is looked at, and it stays at the largest value.  Nothing else that a run does changes it, and a
failed run does not take it back.  So it tells how often the bit has fired since it was last set,
and the limit bounds the successful firings of a whole history, not only those of one run.

The layers are those of a history: one firing, one run, one call, all calls.

## Main statements

- `Graph.tally?_fire`, `Graph.tally?_fire_of_ne`: what a firing does to a counter.
- `Run.Counts`: the counter of a bit at each of some attempts; `Run.Counts.eq_min` its closed form,
  `Run.Counts.countP_succeeds_le` the bound, `Run.Counts.result_of_exhausted` what comes after a
  call that reached the limit.
- `Network.counts_history`: every history counts so.
- `Network.call_limit_over_history`: the ceiling.
-/

namespace TokenNet

/-! ## Counters -/

/-- The counter of a bit; other nodes have none that matters. -/
def Node.tally? (record : Node) : Option Nat :=
  match record.kind with
  | .native .bit ports => some ports.calls.toNat
  | _ => none

namespace Graph

/-- The number of counted calls of a bit. -/
def tally? (graph : Graph) (node : NodeId) : Option Nat :=
  (graph.node? node).bind Node.tally?

variable {graph graph' : Graph} {node : NodeId} {count : Nat}

theorem exists_of_tally? (h : graph.tally? node = some count) : ∃ record ports,
    graph.node? node = some record ∧ record.kind = .native .bit ports ∧
      ports.calls.toNat = count := by
  obtain ⟨record, hrecord, htally⟩ := Option.bind_eq_some_iff.mp h
  unfold Node.tally? at htally
  split at htally
  next ports hkind => exact ⟨record, ports, hrecord, hkind, Option.some.inj htally⟩
  next => cases htally

theorem tally?_of_nodes_eq (h : graph'.nodes = graph.nodes) : graph'.tally? = graph.tally? := by
  funext node
  simp only [tally?, node?, h]

theorem tally?_writeOutlet (graph : Graph) (outlet : OutletId) (value : Value) :
    (graph.writeOutlet outlet value).tally? = graph.tally? :=
  tally?_of_nodes_eq (congrArg Graph.nodes (bare_writeOutlet graph outlet value) :)

theorem tally?_countCall_of_ne (graph : Graph) {other : NodeId} (hne : node ≠ other)
    (register : Value) : (graph.countCall other register).tally? node = graph.tally? node := by
  simp only [tally?, countCall, node?_modifyNode, if_neg hne]

theorem tally?_countCall (h : graph.tally? node = some count) (register : Value) :
    (graph.countCall node register).tally? node = some (min (count + 1) (2 ^ 32 - 1)) := by
  obtain ⟨record, ports, hrecord, hkind, rfl⟩ := exists_of_tally? h
  simp only [tally?, countCall, node?_modifyNode, if_true, hrecord, Option.map_some,
    Option.bind_some, Node.tally?, Node.modifyInterface, hkind,
    Interface.toNat_calls_countCall]

/-- Firing one node leaves the counters of all others alone. -/
theorem tally?_fire_of_ne (graph : Graph) (callLimit : UInt32) {other : NodeId}
    (hne : node ≠ other) : (graph.fire callLimit other).graph.tally? node = graph.tally? node := by
  have hfired := graph.fired_fire callLimit other
  generalize (graph.fire callLimit other).graph = graph' at hfired ⊢
  cases hfired with
  | rest => rfl
  | emit => rw [tally?_writeOutlet]
  | count => exact tally?_countCall_of_ne graph hne _
  | countAndEmit => rw [tally?_writeOutlet, tally?_countCall_of_ne graph hne]

theorem firesBit_of_tally? (h : graph.tally? node = some count) (callLimit : UInt32) :
    ∃ ports : Interface, ports.calls.toNat = count ∧ graph.FiresBit callLimit node ports
      (graph.fire callLimit node).graph (graph.fire callLimit node).result := by
  obtain ⟨record, ports, hrecord, hkind, hcount⟩ := exists_of_tally? h
  exact ⟨ports, hcount, firesBit_fire callLimit hrecord hkind⟩

/-- **Firing a bit counts a call if it reads a binary value**, even one that reaches the limit. -/
theorem tally?_fire (h : graph.tally? node = some count) (callLimit : UInt32) :
    (graph.fire callLimit node).graph.tally? node =
      some (if Binary (graph.input node) then min (count + 1) (2 ^ 32 - 1) else count) := by
  obtain ⟨ports, -, hfires⟩ := firesBit_of_tally? h callLimit
  generalize (graph.fire callLimit node).graph = graph', (graph.fire callLimit node).result = result
    at hfires ⊢
  cases hfires with
  | invalid hinput => rw [if_neg hinput, h]
  | exhausted register hinput => rw [if_pos hinput, tally?_countCall h]
  | emitted register result hinput => rw [if_pos hinput, tally?_writeOutlet, tally?_countCall h]

/-- Firing a node changes no node but bits. -/
theorem node?_fire_of_not_isBit (hplain : ¬ graph.IsBit node) (callLimit : UInt32) (asked : NodeId) :
    (graph.fire callLimit asked).graph.node? node = graph.node? node := by
  have hcount (hbit : graph.IsBit asked) (register : Value) :
      (graph.countCall asked register).node? node = graph.node? node := by
    rw [countCall, node?_modifyNode, if_neg]
    rintro rfl
    exact hplain hbit
  have hwrite (graph : Graph) (outlet : OutletId) (value : Value) :
      (graph.writeOutlet outlet value).node? node = graph.node? node :=
    (congrArg (fun g : Graph => g.node? node) (bare_writeOutlet graph outlet value) :)
  have hfired := graph.fired_fire callLimit asked
  generalize (graph.fire callLimit asked).graph = graph' at hfired ⊢
  -- What fires is a bit or it counts nothing
  cases hfired with
  | rest => rfl
  | emit => exact hwrite _ _ _
  | count hevaluates hbit register => exact hcount hbit register
  | countAndEmit hevaluates hbit register => exact (hwrite _ _ _).trans (hcount hbit register)

/-- **A firing of a bit succeeds only below the limit**, and on a binary value. -/
theorem lt_limit_of_fire {callLimit : UInt32} (h : graph.tally? node = some count)
    (hok : (graph.fire callLimit node).result.toBool = true) :
    Binary (graph.input node) ∧ count + 1 < callLimit.toNat := by
  obtain ⟨ports, rfl, hfires⟩ := firesBit_of_tally? h callLimit
  generalize (graph.fire callLimit node).graph = graph', (graph.fire callLimit node).result = result
    at hfires hok
  cases hfires with
  | invalid => cases hok
  | exhausted => cases hok
  | emitted register result hinput hregister hcalls => exact ⟨hinput, hcalls⟩

/-- A call of a bit fails for the limit only if it reaches the limit. -/
theorem limit_le_of_fire {callLimit : UInt32} (h : graph.tally? node = some count)
    (hfault : (graph.fire callLimit node).result = .error (.callLimit node callLimit)) :
    callLimit.toNat ≤ count + 1 := by
  obtain ⟨ports, rfl, hfires⟩ := firesBit_of_tally? h callLimit
  generalize (graph.fire callLimit node).graph = graph', (graph.fire callLimit node).result = result
    at hfires hfault
  cases hfires with
  | invalid => cases hfault
  | exhausted register hinput hregister hcalls => exact hcalls
  | emitted register result hinput hregister hcalls hresult =>
    rcases hresult with rfl | ⟨exit, _, rfl⟩ <;> cases hfault

/-- Once the limit is reached a bit fails. -/
theorem result_of_limit_le {callLimit : UInt32} (h : graph.tally? node = some count)
    (hlimit : callLimit.toNat ≤ count + 1) : (graph.fire callLimit node).result =
      .error (if Binary (graph.input node) then .callLimit node callLimit
        else .invalidBit node (graph.input node)) := by
  obtain ⟨ports, rfl, hfires⟩ := firesBit_of_tally? h callLimit
  generalize (graph.fire callLimit node).graph = graph', (graph.fire callLimit node).result = result
    at hfires ⊢
  cases hfires with
  | invalid hinput => rw [if_neg hinput]
  | exhausted register hinput => rw [if_pos hinput]
  | emitted register result hinput hregister hcalls => omega

end Graph

/-! ## Attempts -/

namespace Run

/-- Whether an attempt is to fire a node while it reads a binary value. -/
def Attempt.counts (node : NodeId) (attempt : Attempt) : Bool :=
  decide (attempt.node = node ∧ Binary (attempt.graph.input node))

/-- Whether an attempt is to fire a node and succeeds. -/
def Attempt.succeeds (callLimit : UInt32) (node : NodeId) (attempt : Attempt) : Bool :=
  decide (attempt.node = node) && (attempt.firing callLimit).result.toBool

/-- The counter of a bit goes through some attempts from one value to another: at each attempt it
has the value that those before have brought it to. -/
inductive Counts (node : NodeId) : Nat → List Attempt → Nat → Prop where
  | nil (count : Nat) : Counts node count [] count
  | cons {attempt : Attempt} {later : List Attempt} {count count' : Nat}
      (hcount : attempt.graph.tally? node = some count)
      (hlater : Counts node
        (if attempt.counts node then min (count + 1) (2 ^ 32 - 1) else count) later count') :
      Counts node count (attempt :: later) count'

namespace Counts

variable {node : NodeId} {count count' count'' : Nat} {attempts before after : List Attempt}
  {attempt : Attempt} {callLimit : UInt32}

theorem append (h : Counts node count before count') (h' : Counts node count' after count'') :
    Counts node count (before ++ after) count'' := by
  induction h with
  | nil => exact h'
  | cons hcount _ ih => exact .cons hcount (ih h')

theorem split (h : Counts node count (before ++ after) count'') :
    ∃ count', Counts node count before count' ∧ Counts node count' after count'' := by
  induction before generalizing count with
  | nil => exact ⟨count, .nil count, h⟩
  | cons first rest ih =>
    obtain _ | ⟨hcount, hlater⟩ := h
    obtain ⟨count', hrest, hafter⟩ := ih hlater
    exact ⟨count', .cons hcount hrest, hafter⟩

/-- **The counter tells how often the bit has fired on a binary value.** -/
theorem eq_min (h : Counts node count attempts count') (hcount : count ≤ 2 ^ 32 - 1) :
    count' = min (count + attempts.countP (·.counts node)) (2 ^ 32 - 1) := by
  induction h with
  | nil => rw [List.countP_nil, Nat.add_zero, Nat.min_eq_left hcount]
  | @cons attempt later count count' _ _ ih =>
    cases hcounts : attempt.counts node with
    | true =>
      rw [hcounts, if_pos rfl] at ih
      rw [List.countP_cons, if_pos hcounts, ih (Nat.min_le_right _ _)]
      omega
    | false =>
      rw [hcounts, if_neg Bool.false_ne_true] at ih
      rw [List.countP_cons, if_neg (by simp [hcounts]), Nat.add_zero, ih hcount]

/-- **No more attempts succeed than the limit leaves room for.** -/
theorem countP_succeeds_le (h : Counts node count attempts count') :
    attempts.countP (·.succeeds callLimit node) ≤ callLimit.toNat - 1 - count := by
  induction h with
  | nil => exact Nat.zero_le _
  | @cons attempt later count count' hcount hlater ih =>
    have hlimit := callLimit.toNat_lt
    rw [List.countP_cons]
    split
    next hsucceeds =>
      -- A success is counted, and the counter was not full
      rw [Attempt.succeeds, Bool.and_eq_true, decide_eq_true_eq] at hsucceeds
      obtain ⟨rfl, hok⟩ := hsucceeds
      obtain ⟨hinput, hless⟩ := Graph.lt_limit_of_fire hcount hok
      have hcounts : attempt.counts attempt.node = true := decide_eq_true ⟨rfl, hinput⟩
      rw [if_pos hcounts] at ih
      omega
    next =>
      -- The counter does not go down
      split at ih <;> omega

/-- **After a call that has reached the limit every later one fails.** -/
theorem result_of_exhausted (h : Counts node count (before ++ attempt :: after) count')
    (hcount : count ≤ 2 ^ 32 - 1) (hnode : attempt.node = node)
    (hfault : (attempt.firing callLimit).result = .error (.callLimit node callLimit))
    {later : Attempt} (hlater : later ∈ after) (hagain : later.node = node) :
    (later.firing callLimit).result = .error (if Binary (later.graph.input node) then
      .callLimit node callLimit else .invalidBit node (later.graph.input node)) := by
  subst hnode
  -- The counter at the attempt that failed, and at the later one
  obtain ⟨reached, hbefore, hrest⟩ := h.split
  have hreached := hbefore.eq_min hcount
  obtain _ | ⟨htally, _⟩ := hrest
  have hlimit := Graph.limit_le_of_fire htally hfault
  obtain ⟨between, beyond, rfl⟩ := List.append_of_mem hlater
  rw [← List.cons_append, ← List.append_assoc] at h
  obtain ⟨latest, hearlier, hlast⟩ := h.split
  have hlatest := hearlier.eq_min hcount
  obtain _ | ⟨htally', _⟩ := hlast
  have hle : reached ≤ latest := by
    rw [hreached, hlatest, List.countP_append]
    omega
  have hreached' : callLimit.toNat ≤ latest + 1 := Nat.le_trans hlimit (Nat.succ_le_succ hle)
  have hresult := Graph.result_of_limit_le htally' hreached'
  rw [← hagain] at hresult ⊢
  exact hresult

end Counts

end Run

/-! ## Calls -/

/-- Whether a call sets the counter of a node. -/
def Call.recounts (node : NodeId) : Call → Bool
  | .setCalls other _ => decide (other = node)
  | .resetCalls => true
  | _ => false

/-- A call that neither runs the network nor sets the counter of a node leaves it alone. -/
theorem Graph.Recalls.tally? {graph graph' : Graph} {call : Call} (h : graph.Recalls call graph')
    {node : NodeId} (hcall : call.recounts node = false) : graph'.tally? node = graph.tally? node := by
  have hkept {other : NodeId} {change : Node → Node}
      (hchange : ∀ record, (change record).tally? = record.tally?)
      (hnodes : graph'.nodes = (graph.modifyNode other change).nodes) :
      graph'.tally? node = graph.tally? node := by
    rw [tally?_of_nodes_eq hnodes]
    exact bind_modifyNode hchange graph other node
  -- Remembering a value and tracing leave the counter, and recounting is done to another node
  cases h with
  | rest hnodes => rw [tally?_of_nodes_eq hnodes]
  | register hnodes =>
    refine hkept (fun record => ?_) hnodes
    obtain ⟨_, _, _, _, kind⟩ := record
    cases kind with
    | native primitive => cases primitive <;> rfl
    | _ => rfl
  | calls hnodes =>
    rw [tally?_of_nodes_eq hnodes]
    simp only [Graph.tally?, node?_modifyNode, if_neg (Ne.symm (of_decide_eq_false hcall))]
  | reset => cases hcall
  | traced hnodes =>
    refine hkept (fun record => ?_) hnodes
    rfl

namespace Network

variable {net : Network} {node : NodeId} {count : Nat}

/-- The counter of a bit is the number of its counted calls. -/
theorem tally?_of_calls {start : UInt32} (hbit : net.graph.IsBit node)
    (hstart : net.calls node = .ok start) : net.graph.tally? node = some start.toNat := by
  obtain ⟨record, hrecord, hisBit⟩ := hbit
  unfold Node.isBit at hisBit
  split at hisBit
  next ports hkind =>
    simp only [calls, interface, hrecord, Node.interface?, hkind] at hstart
    simp only [Graph.tally?, hrecord, Option.bind_some, Node.tally?, hkind]
    exact congrArg (fun calls => some (UInt32.toNat calls)) (Except.ok.inj hstart)
  next => cases hisBit

theorem calls_of_tally? (h : net.graph.tally? node = some count) :
    ∃ calls, net.calls node = .ok calls ∧ calls.toNat = count := by
  obtain ⟨record, ports, hrecord, hkind, hcount⟩ := Graph.exists_of_tally? h
  refine ⟨ports.calls, ?_, hcount⟩
  simp only [calls, interface, hrecord, Node.interface?, hkind]
  rfl

/-- **A run counts**, however it ends. -/
theorem counts_execute (h : net.graph.tally? node = some count) :
    ∃ count', Run.Counts node count net.attempts count' ∧
      net.execute.1.graph.tally? node = some count' := by
  refine execute_induction (motive := fun graph attempts graph' => ∀ count,
    graph.tally? node = some count → ∃ count', Run.Counts node count attempts count' ∧
      graph'.tally? node = some count') ?rest ?fire count h
  case rest => exact fun _ count hcount => ⟨count, .nil count, hcount⟩
  case fire =>
    intro graph asked later graph' hlater count hcount
    -- The node itself is asked, or another one, which leaves its counter alone
    by_cases hsame : asked = node
    · subst hsame
      obtain ⟨count', hcounts, hlast⟩ := hlater _ (Graph.tally?_fire hcount _)
      refine ⟨count', .cons hcount ?_, hlast⟩
      simpa only [Run.Attempt.counts, true_and, decide_eq_true_eq] using hcounts
    · rw [Graph.tally?_fire_of_ne graph _ (Ne.symm hsame)] at hlater
      obtain ⟨count', hcounts, hlast⟩ := hlater count hcount
      refine ⟨count', .cons hcount ?_, hlast⟩
      simpa only [Run.Attempt.counts, hsame, false_and, decide_false, Bool.false_eq_true,
        if_false] using hcounts

theorem counts_perform (hclosed : net.graph.Closed) (h : net.graph.tally? node = some count)
    {call : Call} (hcall : call.recounts node = false) :
    ∃ count', Run.Counts node count (net.attemptsOf call) count' ∧
      (net.perform call).1.graph.tally? node = some count' := by
  cases hruns : call.runs with
  | true =>
    cases call with
    | execute => exact counts_execute h
    | step => exact counts_execute h
    | _ => cases hruns
  | false =>
    rw [attemptsOf_of_runs hruns, (recalls_perform hclosed hruns).tally? hcall]
    exact ⟨count, .nil count, h⟩

/-- **Every history counts**, as long as the counter is not set. -/
theorem counts_history {calls : List Call} (hclosed : net.graph.Closed)
    (h : net.graph.tally? node = some count)
    (hcalls : ∀ call ∈ calls, call.recounts node = false) :
    ∃ count', Run.Counts node count (net.history calls) count' ∧
      (net.performAll calls).1.graph.tally? node = some count' := by
  induction calls generalizing net count with
  | nil => exact ⟨count, .nil count, h⟩
  | cons call rest ih =>
    rw [List.forall_mem_cons] at hcalls
    obtain ⟨middle, hfirst, hmiddle⟩ := counts_perform hclosed h hcalls.1
    obtain ⟨count', hrest, hlast⟩ :=
      ih ((leads_perform hclosed call).closed hclosed) hmiddle hcalls.2
    exact ⟨count', hfirst.append hrest, hlast⟩

/-- **A run leaves a node that is not a bit alone**, its counter included, at every moment. -/
theorem calls_of_not_isBit (hplain : ¬ net.graph.IsBit node) :
    net.execute.1.calls node = net.calls node ∧
      ∀ attempt ∈ net.attempts, attempt.graph.node? node = net.graph.node? node := by
  have hsame := @execute_induction net (fun graph attempts graph' =>
    ¬ graph.IsBit node → graph'.node? node = graph.node? node ∧
      ∀ attempt ∈ attempts, attempt.graph.node? node = graph.node? node) ?rest ?fire hplain
  case rest => exact fun graph _ => ⟨rfl, fun _ hmem => nomatch hmem⟩
  case fire =>
    intro graph asked later graph' hlater hplain
    -- A node that is no bit is the same after each firing, whoever is asked
    have hfire := Graph.node?_fire_of_not_isBit hplain net.limits.callLimit asked
    obtain ⟨hlast, hattempts⟩ := hlater (by rwa [Graph.IsBit, hfire])
    rw [hfire] at hlast hattempts
    refine ⟨hlast, fun attempt hmem => ?_⟩
    rcases List.mem_cons.mp hmem with rfl | hmem
    · rfl
    · exact hattempts attempt hmem
  refine ⟨?_, hsame.2⟩
  unfold calls interface
  rw [hsame.1]

theorem limits_performAll (net : Network) (calls : List Call) :
    (net.performAll calls).1.limits = net.limits := by
  induction calls generalizing net with
  | nil => rfl
  | cons call rest ih => exact (ih _).trans (limits_perform net call)

/-- **The call limit is a ceiling on whole histories.**  For a bit of a network that can come about,
with a given number of counted calls, and for calls that do not set that number:

* no call changes the limit, and at most so many firings of the bit succeed as are left below it;
* at every attempt and at the end the counter is the given number plus the number of firings of the
  bit on a binary value so far, as long as there is room for it in 32 bits;
* after a firing of the bit that failed because of the limit every later one fails, because of the
  limit again or because of what it reads.

A run changes the counter of no other node, neither on its way nor in the end. -/
theorem call_limit_over_history (h : net.Reachable) {start : UInt32} (hbit : net.graph.IsBit node)
    (hstart : net.calls node = .ok start) {calls : List Call}
    (hcalls : ∀ call ∈ calls, call.recounts node = false) :
    let limit := net.limits.callLimit
    let history := net.history calls
    let tally := fun attempts : List Run.Attempt =>
      min (start.toNat + attempts.countP (·.counts node)) (2 ^ 32 - 1)
    (net.performAll calls).1.limits.callLimit = limit ∧
    history.countP (·.succeeds limit node) ≤ limit.toNat - 1 - start.toNat ∧
    (∀ before attempt after, history = before ++ attempt :: after →
      attempt.graph.tally? node = some (tally before)) ∧
    (∃ count, (net.performAll calls).1.calls node = .ok count ∧ count.toNat = tally history) ∧
    (∀ before attempt after, history = before ++ attempt :: after → attempt.node = node →
      (attempt.firing limit).result = .error (.callLimit node limit) →
      ∀ later ∈ after, later.node = node → (later.firing limit).result =
        .error (if Binary (later.graph.input node) then .callLimit node limit
          else .invalidBit node (later.graph.input node))) ∧
    ∀ other, ¬ net.graph.IsBit other → net.execute.1.calls other = net.calls other ∧
      ∀ attempt ∈ net.attempts, attempt.graph.node? other = net.graph.node? other := by
  intro limit history tally
  have hlt : start.toNat ≤ 2 ^ 32 - 1 := Nat.le_sub_one_of_lt start.toNat_lt
  obtain ⟨count, hcounts, hlast⟩ := counts_history h.closed (tally?_of_calls hbit hstart) hcalls
  refine ⟨by rw [limits_performAll], hcounts.countP_succeeds_le, ?always, ?last, ?exhausted,
    fun other => calls_of_not_isBit⟩
  -- An attempt stands behind those before it, so the counter shows how many they were
  case always =>
    intro before attempt after hsplit
    rw [show net.history calls = _ from hsplit] at hcounts
    obtain ⟨reached, hbefore, hrest⟩ := hcounts.split
    obtain _ | ⟨htally, _⟩ := hrest
    rw [htally, hbefore.eq_min hlt]
  case last =>
    obtain ⟨reached, hreached, hsame⟩ := calls_of_tally? hlast
    exact ⟨reached, hreached, hsame.trans (hcounts.eq_min hlt)⟩
  case exhausted =>
    intro before attempt after hsplit hnode hfault later hlater hagain
    rw [show net.history calls = _ from hsplit] at hcounts
    exact hcounts.result_of_exhausted hlt hnode hfault hlater hagain

/-- A bit on its own. -/
def loneBit : Network :=
  (Library.primitives.instantiate "!" {}).toOption.getD default

/-- Twenty runs, one run on a value that is not binary, and one more. -/
def loneBitCalls : List Call :=
  List.replicate 20 .execute ++
    [.writeInlet loneBit.root 0 7, .execute, .writeInlet loneBit.root 0 0, .execute]

/-- The limit of 20 lets 19 of the 22 firings succeed; the counter goes up for all but the one on
seven. -/
theorem call_limit_of_loneBit : ∃ built, Library.primitives.instantiate "!" {} = .ok built ∧
    built = loneBit ∧ loneBit.graph.IsBit loneBit.root ∧ loneBit.calls loneBit.root = .ok 0 ∧
    (∀ call ∈ loneBitCalls, call.recounts loneBit.root = false) ∧
    (loneBit.history loneBitCalls).length = 22 ∧
    (loneBit.history loneBitCalls).countP (·.succeeds 20 loneBit.root) = 19 ∧
    (loneBit.performAll loneBitCalls).1.calls loneBit.root = .ok 21 := by
  obtain ⟨built, hbuilt, hnet⟩ : ∃ built, Library.primitives.instantiate "!" {} = .ok built ∧
      built = loneBit := ⟨_, by decide +kernel, rfl⟩
  have hbit : loneBit.graph.IsBit loneBit.root := by decide +kernel
  have hstart : loneBit.calls loneBit.root = .ok 0 := by decide +kernel
  have hcalls : ∀ call ∈ loneBitCalls, call.recounts loneBit.root = false := by decide +kernel
  obtain ⟨hlength, hsuccesses, hcounted⟩ : (loneBit.history loneBitCalls).length = 22 ∧
      (loneBit.history loneBitCalls).countP (·.succeeds 20 loneBit.root) = 19 ∧
      (loneBit.history loneBitCalls).countP (·.counts loneBit.root) = 21 := by decide +kernel
  -- The counter after the calls, by the theorem and the number of attempts that count
  obtain ⟨_, _, _, ⟨count, hcount, htally⟩, _⟩ :=
    call_limit_over_history ⟨_, _, _, built, [], hbuilt, hnet.symm⟩ hbit hstart hcalls
  dsimp only at htally
  rw [hcounted] at htally
  refine ⟨built, hbuilt, hnet, hbit, hstart, hcalls, hlength, hsuccesses, ?_⟩
  rw [hcount, UInt32.toNat_inj.mp (htally.trans (by decide : _ = UInt32.toNat 21))]

end Network

end TokenNet
