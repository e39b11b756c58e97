import TokenNet.Network

/-!
# Calls

Everything that can be asked of a network from outside is a call.  A call is answered by a reply or
a refusal, and it leaves a network behind; a history of use is a list of calls.
-/

namespace TokenNet

/-- A request to a network. -/
inductive Call where
  /-- Writes a value into an inlet of a node. -/
  | writeInlet (node : NodeId) (index : Nat) (value : Value)
  /-- Reads the value at the outlet of a node. -/
  | readOutlet (node : NodeId)
  /-- Reads the register of a node. -/
  | readState (node : NodeId)
  /-- Sets the register of a node. -/
  | setState (node : NodeId) (value : Value)
  /-- Reads the counted calls of a node. -/
  | readCalls (node : NodeId)
  /-- Sets the counted calls of a node. -/
  | setCalls (node : NodeId) (calls : UInt32)
  /-- Sets the counted calls of every node to zero. -/
  | resetCalls
  /-- Starts or stops the recording of a node. -/
  | setTraced (node : NodeId) (traced : Bool)
  /-- Empties the ledger. -/
  | clearLedger
  /-- Wires an outlet into an inlet. -/
  | connect (inlet : InletId) (outlet : OutletId)
  /-- Takes an inlet out of its class. -/
  | disconnectInlet (inlet : InletId)
  /-- Takes an outlet out of its class. -/
  | disconnectOutlet (outlet : OutletId)
  /-- Takes all data ports of a composite out of their classes. -/
  | unplug (node : NodeId)
  /-- Lets an exit hand the token to an entry. -/
  | direct (exit : ExitId) (entry : EntryId)
  /-- Lets a run end at an exit. -/
  | undirect (exit : ExitId)
  /-- Runs the network. -/
  | execute
  /-- Runs the network and reads the output of the root. -/
  | step
deriving DecidableEq, Repr, Inhabited

/-- The answer to a call that is not refused. -/
inductive Reply where
  | done
  | value (value : Value)
  | calls (calls : UInt32)
  | ending (ending : Ending)
  | outcome (outcome : Outcome)
deriving DecidableEq, Repr, Inhabited

/-- Why a call is refused. -/
inductive Refusal where
  | access (error : AccessError)
  | fault (reason : RunFault)
deriving DecidableEq, Repr, Inhabited

namespace Refusal

/-- The wording of a refusal. -/
def message : Refusal → String
  | access error => error.message
  | fault reason => reason.message

/-- Whether a loop guard is the reason. -/
def isDivergence : Refusal → Bool
  | access _ => false
  | fault reason => reason.isDivergence

end Refusal

namespace Network

/-! ## Answering calls -/

/-- A change that succeeds replaces the network; a change that is refused leaves it. -/
def change (net : Network) (result : Except AccessError Network) :
    Network × Except Refusal Reply :=
  match result with
  | .ok changed => (changed, .ok .done)
  | .error error => (net, .error (.access error))

/-- A reading leaves the network as it is. -/
def read {α : Type} (net : Network) (result : Except AccessError α) (reply : α → Reply) :
    Network × Except Refusal Reply :=
  match result with
  | .ok value => (net, .ok (reply value))
  | .error error => (net, .error (.access error))

/-- Answers a call. -/
def perform (net : Network) : Call → Network × Except Refusal Reply
  | .writeInlet node index value => net.change (net.writeInlet node index value)
  | .readOutlet node => net.read (net.output node) .value
  | .readState node => net.read (net.state node) .value
  | .setState node value => net.change (net.setState node value)
  | .readCalls node => net.read (net.calls node) .calls
  | .setCalls node calls => net.change (net.setCalls node calls)
  | .resetCalls => (net.resetCalls, .ok .done)
  | .setTraced node traced => net.change (net.setTraced node traced)
  | .clearLedger => (net.clearLedger, .ok .done)
  | .connect inlet outlet => net.change (net.connect inlet outlet)
  | .disconnectInlet inlet => net.change (net.disconnectInlet inlet)
  | .disconnectOutlet outlet => net.change (net.disconnectOutlet outlet)
  | .unplug node => net.change (net.unplug node)
  | .direct exit entry => net.change (net.direct exit entry)
  | .undirect exit => net.change (net.undirect exit)
  | .execute =>
    let (net, result) := net.execute
    (net, (result.map Reply.ending).mapError Refusal.fault)
  | .step =>
    let (net, result) := net.step
    (net, (result.map Reply.outcome).mapError Refusal.fault)

/-- Answers calls in order, whatever the answers are. -/
def performAll (net : Network) : List Call → Network × List (Except Refusal Reply)
  | [] => (net, [])
  | call :: rest =>
    let (net, answer) := net.perform call
    let (net, answers) := net.performAll rest
    (net, answer :: answers)

/-- Answers calls in order, up to the first that is refused.  The answer is the last one. -/
def attempt (net : Network) : List Call → Network × Except Refusal Reply
  | [] => (net, .ok .done)
  | [call] => net.perform call
  | call :: next :: rest =>
    match net.perform call with
    | (net, .ok _) => net.attempt (next :: rest)
    | (net, .error refusal) => (net, .error refusal)

/-- The calls that write values into the inlets of the root, first inlet first. -/
def inputCalls (net : Network) (inputs : List Value) : List Call :=
  inputs.zipIdx.map fun (value, index) => .writeInlet net.root index value

/-! ## Notices -/

/-- The lines that a run has added to the ledger. -/
def linesSince (before after : Network) : List Ledger.Line :=
  after.ledger.lines.toList.drop before.ledger.lines.size

/-- What a line of the ledger reports: requests are reported, emits are not. -/
def lineNotice? (line : Ledger.Line) : Option Notice :=
  match line.event with
  | .request specification inputs => some (.requested specification inputs)
  | .emit .. => none

/-- What the end of a run reports. -/
def endingNotices (after : Network) : Except RunFault Ending → List Notice
  | .ok ending => [.runFinished after.runs ending.steps ending.exit ending.position]
  | .error (.chainExhausted limit) => [.runAborted after.runs limit]
  | .error _ => []

/-- What a run reports: nothing if it cannot begin. -/
def runNotices (before : Network) : List Notice :=
  let (after, result) := before.execute
  match before.entry? with
  | none => []
  | some _ =>
    .runStarted after.runs after.specification ::
      ((linesSince before after).filterMap lineNotice? ++ endingNotices after result)

/-- What a refused access reports. -/
def accessNotices (net : Network) : AccessError → List Notice
  | .inletOutOfRange node index arity => [.inletOutOfRange node index arity]
  | .outletUnconnected node =>
    match net.interface node with
    | .ok ports => if net.graph.outletWired ports.outlet then [] else [.outletLoose node]
    | .error _ => []
  | .noInlets node => [.stateless node]
  | _ => []

/-- What a call reports. -/
def callNotices (net : Network) (call : Call) : List Notice :=
  match call with
  | .execute | .step => net.runNotices
  | .connect inlet outlet =>
    if net.hasInlet inlet && net.hasOutlet outlet then
      Rewiring.connectNotices net.graph inlet outlet
    else []
  | call =>
    match (net.perform call).2 with
    | .error (.access error) => net.accessNotices error
    | _ => []

/-- What answering calls in order reports, whatever the answers are. -/
def performAllNotices (net : Network) : List Call → List Notice
  | [] => []
  | call :: rest => net.callNotices call ++ (net.perform call).1.performAllNotices rest

/-- What an attempt reports. -/
def attemptNotices (net : Network) : List Call → List Notice
  | [] => []
  | call :: rest =>
    net.callNotices call ++
      match net.perform call with
      | (net, .ok _) => net.attemptNotices rest
      | (_, .error _) => []

end Network

end TokenNet
