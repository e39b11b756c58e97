import TokenNet.Call

/-!
# Batches

A batch runs one network on several cases in turn.  A case is a list of values for the inlets of
the root, and its report says how the run ended or why it failed.  What the network remembers is
carried from case to case; only the ledger is emptied before each one, and the counted calls too
if the batch asks for it.
-/

namespace TokenNet

/-- What became of one case. -/
structure Report where
  inputs : List Value
  output : Option Value
  position : Option Nat
  steps : Nat
  error : Option String
  /-- Whether a loop guard stopped the run. -/
  diverged : Bool
deriving DecidableEq, Repr, Inhabited

namespace Report

/-- Whether the case did not fail. -/
def isOk (report : Report) : Bool :=
  report.error.isNone

/-- The report of a case that failed. -/
def failed (inputs : List Value) (refusal : Refusal) : Report :=
  ⟨inputs, none, none, 0, some refusal.message, refusal.isDivergence⟩

/-- The report of the answer to a case. -/
def ofAnswer (inputs : List Value) : Except Refusal Reply → Report
  | .ok (.outcome outcome) =>
    ⟨inputs, outcome.output, outcome.ending.position, outcome.ending.steps, none, false⟩
  | .ok _ => ⟨inputs, none, none, 0, none, false⟩
  | .error refusal => failed inputs refusal

end Report

namespace Network

/-- The calls that a case consists of. -/
def caseCalls (net : Network) (reset : Bool) (inputs : List Value) : List Call :=
  .clearLedger :: ((if reset then [.resetCalls] else []) ++ net.inputCalls inputs ++ [.step])

/-- Runs a network on one case. -/
def runCase (net : Network) (reset : Bool) (inputs : List Value) : Network × Report :=
  let (after, answer) := net.attempt (net.caseCalls reset inputs)
  (after, Report.ofAnswer inputs answer)

/-- Runs a network on several cases in turn. -/
def runCases (net : Network) (reset : Bool) : List (List Value) → Network × List Report
  | [] => (net, [])
  | inputs :: rest =>
    let (net, report) := net.runCase reset inputs
    let (net, reports) := net.runCases reset rest
    (net, report :: reports)

/-- What running a case reports. -/
def caseNotices (net : Network) (reset : Bool) (inputs : List Value) : List Notice :=
  let calls := net.caseCalls reset inputs
  net.attemptNotices calls ++
    match (net.attempt calls).2 with
    | .ok _ => []
    | .error refusal => [.caseFailed inputs refusal.message]

/-- What running several cases reports. -/
def casesNotices (net : Network) (reset : Bool) : List (List Value) → List Notice
  | [] => []
  | inputs :: rest =>
    net.caseNotices reset inputs ++ (net.runCase reset inputs).1.casesNotices reset rest

end Network

/-- The sum over the reports of a batch: a score for each case that succeeded and a penalty for
each that failed.  The sum of no case at all is minus zero, the neutral element of floating-point
addition. -/
def reward (penalty : Float) (score : Report → Float) (reports : List Report) : Float :=
  reports.foldl (fun total report => total + if report.isOk then score report else penalty) (-0.0)

end TokenNet
