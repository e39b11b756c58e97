import TokenNet.Proofs.Change.Call
import TokenNet.Proofs.Graph.Partition

/-!
# Regrouping data ports

Four calls change which data ports are wired together: wiring, the two ways to unwire a port, and
unplugging a composite.  On the partition of data ports into classes they are joining and leaving,
and nothing else; a call with a handle of another graph does nothing.

## Main statements

- `Network.regrouped_perform`: a call acts on the partition as its actions do.
- `Network.regrouping_refines_partition`: so does every sequence of calls, and ports share a cell
  exactly when they are in one class.
-/

namespace TokenNet

/-- Whether a call regroups data ports. -/
def Call.regroups : Call → Bool
  | .connect .. | .disconnectInlet .. | .disconnectOutlet .. | .unplug .. => true
  | _ => false

namespace Network

/-- What a call that regroups data ports does to their partition.  Which ports there are and which of
them belong to a node is read from the network; regrouping does not change it. -/
def actions (net : Network) : Call → List Partition.Action
  | .connect inlet outlet =>
    if net.hasInlet inlet && net.hasOutlet outlet then [.join inlet outlet] else []
  | .disconnectInlet inlet => if net.hasInlet inlet then [.leave (.inlet inlet)] else []
  | .disconnectOutlet outlet => if net.hasOutlet outlet then [.leave (.outlet outlet)] else []
  | .unplug node =>
    match (net.graph.node? node).map Node.kind with
    | some (.composite ports _) =>
      ports.inlets.map (fun inlet => .leave (.inlet inlet)) ++ [.leave (.outlet ports.outlet)]
    | _ => []
  | _ => []

/-! ## Regrouping keeps the frame -/

/-- Two networks have the same nodes and equally many data ports. -/
structure SameFrame (net net' : Network) : Prop where
  nodes : net'.graph.nodes = net.graph.nodes
  inlets : net'.graph.inlets.size = net.graph.inlets.size
  outlets : net'.graph.outlets.size = net.graph.outlets.size

variable {net net' net'' : Network}

theorem SameFrame.refl (net : Network) : net.SameFrame net :=
  ⟨rfl, rfl, rfl⟩

theorem SameFrame.of_bare_eq {graph : Graph} (h : graph.bare = net.graph.bare) :
    net.SameFrame { net with graph } where
  nodes := (congrArg Graph.nodes h :)
  inlets := by simpa [Graph.bare] using (congrArg (fun g => g.inlets.size) h :)
  outlets := by simpa [Graph.bare] using (congrArg (fun g => g.outlets.size) h :)

theorem SameFrame.actions_eq (h : net.SameFrame net') : net'.actions = net.actions := by
  funext call
  unfold actions hasInlet hasOutlet Graph.node?
  rw [h.nodes, h.inlets, h.outlets]

theorem sameFrame_connect (net : Network) (inlet : InletId) (outlet : OutletId) :
    net.SameFrame { net with graph := net.graph.connect inlet outlet } := by
  have hbare := Graph.bare_unite net.graph inlet outlet
  have hframe := SameFrame.of_bare_eq hbare
  refine ⟨hframe.nodes, ?_, hframe.outlets⟩
  exact Array.size_modify.trans hframe.inlets

theorem bare_foldl_disconnectInlet :
    ∀ (inlets : List InletId) (graph : Graph),
    (inlets.foldl Graph.disconnectInlet graph).bare = graph.bare
  | [], _ => rfl
  | first :: rest, graph =>
    (bare_foldl_disconnectInlet rest _).trans (Graph.bare_detach graph (.inlet first))

/-! ## One call -/

/-- Unwiring inlets one after another is leaving one after another. -/
theorem represents_foldl_disconnectInlet :
    ∀ (inlets : List InletId) {graph : Graph} {partition : Partition},
    graph.Represents partition → (inlets.foldl Graph.disconnectInlet graph).Represents
      ((inlets.map fun inlet => Partition.Action.leave (.inlet inlet)).foldl Partition.act partition)
  | [], _, _, h => h
  | first :: rest, _, _, h => represents_foldl_disconnectInlet rest (h.detach (.inlet first))

/-- The answer to a rewiring with known handles. -/
theorem perform_rewire_of_known {known : Bool} {change : Graph → Graph} (h : known = true) :
    (net.change (net.rewire known change)).1 = { net with graph := change net.graph } := by
  simp [rewire, h, Network.change]

/-- The answer to a rewiring with a handle of another graph. -/
theorem perform_rewire_of_unknown {known : Bool} {change : Graph → Graph} (h : known = false) :
    (net.change (net.rewire known change)).1 = net := by
  simp [rewire, h, Network.change]

/-- A network came out of another by actions on its partition, and the frame is kept. -/
structure Regrouped (net : Network) (partition : Partition) (actions : List Partition.Action)
    (net' : Network) : Prop where
  represents : net'.graph.Represents (actions.foldl Partition.act partition)
  frame : net.SameFrame net'

theorem Regrouped.refl {partition : Partition} (h : net.graph.Represents partition) :
    net.Regrouped partition [] net :=
  ⟨h, .refl net⟩

/-- A rewiring that may be refused is the one action it stands for, or nothing. -/
theorem regrouped_rewire {partition : Partition} (h : net.graph.Represents partition)
    {known : Bool} {change : Graph → Graph} {action : Partition.Action}
    (hchange : known = true →
      net.Regrouped partition [action] { net with graph := change net.graph }) :
    net.Regrouped partition (if known then [action] else [])
      (net.change (net.rewire known change)).1 := by
  cases known with
  | false =>
    rw [perform_rewire_of_unknown rfl]
    exact .refl h
  | true =>
    rw [perform_rewire_of_known rfl]
    exact hchange rfl

/-- Unplugging a composite lets its inlets leave one after another, and then its outlet; unplugging
another node does nothing. -/
theorem regrouped_unplug {partition : Partition} (h : net.graph.Represents partition)
    (node : NodeId) :
    net.Regrouped partition (net.actions (.unplug node)) (net.change (net.unplug node)).1 := by
  -- The three ways there is nothing to unplug all leave the network as it is
  have hidle (hactions : net.actions (.unplug node) = [])
      (hnet : (net.change (net.unplug node)).1 = net) :
      net.Regrouped partition (net.actions (.unplug node)) (net.change (net.unplug node)).1 := by
    rw [hactions, hnet]
    exact .refl h
  cases hrecord : net.graph.node? node with
  | none => exact hidle (by simp [actions, hrecord]) (by simp [unplug, hrecord, change])
  | some record =>
    cases hkind : record.kind with
    | native primitive ports =>
      exact hidle (by simp [actions, hrecord, hkind]) (by simp [unplug, hrecord, hkind, change])
    | join entry exit =>
      exact hidle (by simp [actions, hrecord, hkind]) (by simp [unplug, hrecord, hkind, change])
    | composite ports parts =>
      have hactions : net.actions (.unplug node) =
          ports.inlets.map (fun inlet => .leave (.inlet inlet)) ++
            [.leave (.outlet ports.outlet)] := by
        simp [actions, hrecord, hkind]
      have hnet : (net.change (net.unplug node)).1 = { net with
          graph := (ports.inlets.foldl Graph.disconnectInlet net.graph).disconnectOutlet
            ports.outlet } := by
        simp [unplug, hrecord, hkind, change]
      have hinlets := represents_foldl_disconnectInlet ports.inlets h
      have hbare := (Graph.bare_detach _ (.outlet ports.outlet)).trans
        (bare_foldl_disconnectInlet ports.inlets net.graph)
      rw [hactions, hnet]
      refine ⟨?_, .of_bare_eq hbare⟩
      rw [List.foldl_append]
      exact hinlets.detach (.outlet ports.outlet)

/-- **A call acts on the partition as its actions do**, and keeps the frame. -/
theorem regrouped_perform {partition : Partition} (h : net.graph.Represents partition)
    {call : Call} (hcall : call.regroups) :
    net.Regrouped partition (net.actions call) (net.perform call).1 := by
  cases call with
  | connect inlet outlet =>
    -- The handles have been checked, so both pins are there
    refine regrouped_rewire h fun hknown => ?_
    obtain ⟨hinlet, houtlet⟩ := Bool.and_eq_true_iff.mp hknown
    exact ⟨h.connect (of_decide_eq_true hinlet) (of_decide_eq_true houtlet),
      sameFrame_connect net inlet outlet⟩
  | disconnectInlet inlet =>
    exact regrouped_rewire h fun _ =>
      ⟨h.detach (.inlet inlet), .of_bare_eq (Graph.bare_detach net.graph (.inlet inlet))⟩
  | disconnectOutlet outlet =>
    exact regrouped_rewire h fun _ =>
      ⟨h.detach (.outlet outlet), .of_bare_eq (Graph.bare_detach net.graph (.outlet outlet))⟩
  | unplug node => exact regrouped_unplug h node
  | _ => simp [Call.regroups] at hcall

/-! ## Sequences of calls -/

theorem represents_performAll :
    ∀ (calls : List Call) {net : Network} {partition : Partition},
    net.graph.Represents partition → (∀ call ∈ calls, call.regroups) →
    (net.performAll calls).1.graph.Represents
      ((calls.flatMap net.actions).foldl Partition.act partition)
  | [], _, _, h, _ => h
  | call :: rest, net, partition, h, hcalls => by
    obtain ⟨hfirst, hframe⟩ := regrouped_perform h (hcalls call List.mem_cons_self)
    have hrest := represents_performAll rest hfirst fun later hlater =>
      hcalls later (List.mem_cons_of_mem call hlater)
    rw [hframe.actions_eq] at hrest
    rw [List.flatMap_cons, List.foldl_append]
    exact hrest

/-- **Regrouping refines a partition.**  Take any network that can come about and any calls that
regroup its data ports.  The classes of ports afterwards, their values and the marks of all ports
are those of the partition before, changed by joining and leaving alone.  So two ports share a cell
exactly when they are in one class, the ports of a class all show its value, ports without a class
have no cell, and there are no other cells than those of the classes. -/
theorem regrouping_refines_partition {net : Network} (h : net.Reachable) (calls : List Call)
    (hcalls : ∀ call ∈ calls, call.regroups) :
    let graph := (net.performAll calls).1.graph
    let partition := (calls.flatMap net.actions).foldl Partition.act h.linked.partition
    (∀ port, graph.class? port = partition.class? port) ∧
    (∀ port, graph.portWired port = partition.wired port) ∧
    (∀ port other, (∃ cell, graph.portCell? port = some cell ∧ graph.portCell? other = some cell) ↔
      ∃ found, partition.class? port = some found ∧ other ∈ found.ports) ∧
    (∀ port found, partition.class? port = some found →
      ∀ other ∈ found.ports, graph.portValue? other = some found.value) ∧
    (∀ port, partition.class? port = none → graph.portCell? port = none) ∧
    (∀ cell record, graph.cell? cell = some record →
      ∃ port, partition.class? port = some record.toClass) := by
  intro graph partition
  have hfinal : graph.Represents partition :=
    represents_performAll calls h.linked.represents hcalls
  refine ⟨hfinal.class?, hfinal.wired, fun _ _ => hfinal.shares_iff,
    fun _ _ hclass _ => hfinal.portValue?_of_class? hclass, fun port hclass => ?_,
    fun _ _ => hfinal.exists_class_of_cell⟩
  -- A port without a class can have no cell, for every cell is some class
  rw [← hfinal.class?] at hclass
  cases hcell : graph.portCell? port with
  | none => rfl
  | some cell =>
    obtain ⟨record, hrecord⟩ := hfinal.linked.live hcell
    rw [Graph.class?_of_cell hcell hrecord] at hclass
    cases hclass

/-- An adder whose outlet is wired into both inlets and which then loses the second: one class is
left, that of the first inlet and the outlet. -/
theorem classes_of_looped_adder : ∃ (built : Network) (h : built.Reachable),
    let calls : List Call := [.connect ⟨1⟩ ⟨0⟩, .connect ⟨0⟩ ⟨0⟩, .disconnectInlet ⟨1⟩]
    Library.primitives.instantiate "+" {} = .ok built ∧
    (∀ call ∈ calls, call.regroups) ∧
    (built.performAll calls).1.graph.class? (.inlet ⟨0⟩) =
      some ⟨{.inlet ⟨0⟩, .outlet ⟨0⟩}, 0⟩ ∧
    ∀ port, (built.performAll calls).1.graph.class? port =
      ((calls.flatMap built.actions).foldl Partition.act h.linked.partition).class? port := by
  have hcalls : ∀ call ∈ [Call.connect ⟨1⟩ ⟨0⟩, .connect ⟨0⟩ ⟨0⟩, .disconnectInlet ⟨1⟩],
      call.regroups := by decide
  have hreach : Network.Reachable _ := ⟨Library.primitives, "+", {}, _, [], rfl, rfl⟩
  exact ⟨_, hreach, rfl, hcalls, by decide +kernel,
    (regrouping_refines_partition hreach _ hcalls).1⟩

end Network

end TokenNet
