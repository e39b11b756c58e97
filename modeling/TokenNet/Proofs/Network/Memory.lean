import TokenNet.Proofs.Change.Call
import TokenNet.Proofs.Graph.Retains
import TokenNet.Proofs.Network.Classes
import TokenNet.Proofs.Run.Attempts

/-!
# What calls make nodes remember

Between two runs nodes change only in what they remember: a register, a number of calls, or whether
they are traced.  Four calls set it, each its own part; all other calls leave the nodes as they are.
No call changes the limits.

## Main statements

- `Graph.Recalls`, `Network.recalls_perform`: all that a call without a run does to the nodes.
- `Network.limits_perform`: every call keeps the limits.
-/

namespace TokenNet

theorem Network.attemptsOf_of_runs {net : Network} {call : Call} (h : call.runs = false) :
    net.attemptsOf call = [] := by
  cases call with
  | execute => cases h
  | step => cases h
  | _ => rfl

/-- What a call that does not run a network does to the nodes of its graph. -/
inductive Graph.Recalls (graph : Graph) : Call → Graph → Prop where
  /-- Nothing. -/
  | rest {call : Call} {graph' : Graph} (hnodes : graph'.nodes = graph.nodes) :
      Recalls graph call graph'
  /-- A register is set. -/
  | register {node : NodeId} {value : Value} {graph' : Graph}
      (hnodes : graph'.nodes = (graph.modifyNode node
        (Node.modifyInterface fun ports => { ports with register := value })).nodes) :
      Recalls graph (.setState node value) graph'
  /-- A number of calls is set. -/
  | calls {node : NodeId} {calls : UInt32} {graph' : Graph}
      (hnodes : graph'.nodes = (graph.modifyNode node
        (Node.modifyInterface fun ports => { ports with calls })).nodes) :
      Recalls graph (.setCalls node calls) graph'
  /-- All numbers of calls are set to zero. -/
  | reset {graph' : Graph} (hnodes : graph'.nodes = graph.nodes.map
      (Node.modifyInterface fun ports => { ports with calls := 0 })) :
      Recalls graph .resetCalls graph'
  /-- The recording of a node is started or stopped. -/
  | traced {node : NodeId} {traced : Bool} {graph' : Graph}
      (hnodes : graph'.nodes = (graph.modifyNode node fun record => { record with traced }).nodes) :
      Recalls graph (.setTraced node traced) graph'

namespace Graph.Recalls

variable {graph graph' : Graph} {call : Call}

theorem of_bare_eq (h : graph'.bare = graph.bare) : graph.Recalls call graph' :=
  .rest (congrArg Graph.nodes h :)

theorem refl (graph : Graph) (call : Call) : graph.Recalls call graph :=
  .rest rfl

end Graph.Recalls

theorem Graph.Obeys.recalls {graph graph' : Graph} {call : Call} (h : graph.Obeys call graph') :
    graph.Recalls call graph' := by
  cases h with
  | rest => exact .refl graph call
  | @writeInlet _ _ value _ inlet => exact .of_bare_eq (bare_write graph (.inlet inlet) value)
  | @setState node value _ inlet =>
    -- The write after the register is set reaches cells only
    have hbare := bare_write (graph.modifyNode node
      (Node.modifyInterface fun ports => { ports with register := value })) (.inlet inlet) value
    exact .register (congrArg Graph.nodes hbare :)
  | setCalls => exact .calls rfl
  | resetCalls => exact .reset rfl
  | setTraced => exact .traced rfl
  | @connect inlet outlet => exact .rest (congrArg Graph.nodes (bare_connect graph inlet outlet) :)
  | @disconnectInlet inlet => exact .of_bare_eq (bare_detach graph (.inlet inlet))
  | @disconnectOutlet outlet => exact .of_bare_eq (bare_detach graph (.outlet outlet))
  | @unplug _ ports =>
    exact .of_bare_eq ((bare_detach _ (.outlet ports.outlet)).trans
      (Network.bare_foldl_disconnectInlet ports.inlets graph))
  | direct => exact .rest rfl
  | undirect => exact .rest rfl

namespace Network

/-- **A call that does not run a network changes at most what its nodes remember.** -/
theorem recalls_perform {net : Network} (hclosed : net.graph.Closed) {call : Call}
    (hcall : call.runs = false) : net.graph.Recalls call (net.perform call).1.graph :=
  (obeys_perform hclosed hcall).recalls

/-! ## Limits -/

theorem limits_execute (net : Network) : net.execute.1.limits = net.limits := by
  unfold execute
  split <;> rfl

/-- **Every call keeps the limits.** -/
theorem limits_perform (net : Network) (call : Call) :
    (net.perform call).1.limits = net.limits := by
  rcases net.perform_cases call with ⟨graph, hcall⟩ | hcall | hcall
  · rw [hcall]
  · rw [hcall, clearLedger]
  · rw [hcall, limits_execute]

end Network

end TokenNet
