import TokenNet.Handle
import TokenNet.Issue
import TokenNet.Primitive
import TokenNet.Store

/-!
# Notices

Work on libraries and networks is reported by notices.  A notice says what happened and carries
what its wording names; how severe it is depends only on what happened.
-/

namespace TokenNet

/-- How much attention a notice asks for, from most to least. -/
inductive Severity where
  | error
  | warning
  | info
  | debug
deriving DecidableEq, Repr, Inhabited

/-- The position of a severity, most severe first. -/
def Severity.rank : Severity → Nat
  | error => 0
  | warning => 1
  | info => 2
  | debug => 3

/-- What can happen to a library or a network. -/
inductive Notice where
  /-- A specification was added to a library. -/
  | added (identifier : String)
  /-- A specification was not added because its identifier is taken. -/
  | kept (identifier : String)
  /-- A specification was asked for that the library does not hold. -/
  | missing (identifier : String)
  /-- A blueprint was offered to a native specification. -/
  | closed (identifier : String)
  /-- An implementation was asked for that the specification does not have. -/
  | noImplementation (identifier : String) (index available : Nat)
  /-- A directive was skipped. -/
  | skipped (issue : Issue)
  /-- One cell absorbed another with its readers and writers. -/
  | merging (absorbed survivor : Store.Key) (readers writers : Nat)
  /-- A network was built. -/
  | instantiated (identifier : String) (nodes cells issues : Nat)
  /-- A value was written to an inlet that the node does not have. -/
  | inletOutOfRange (node : NodeId) (index arity : Nat)
  /-- A value was read from an outlet that was never wired. -/
  | outletLoose (node : NodeId)
  /-- A state was set on a node without inlets. -/
  | stateless (node : NodeId)
  /-- A run began. -/
  | runStarted (run : Nat) (identifier : String)
  /-- A traced primitive was asked to fire. -/
  | requested (specification : String) (inputs : List Value)
  /-- A run was cut off. -/
  | runAborted (run steps : Nat)
  /-- A run came to its end. -/
  | runFinished (run steps : Nat) (exit : ExitId) (position : Option Nat)
  /-- A case of a batch failed. -/
  | caseFailed (inputs : List Value) (reason : String)
deriving DecidableEq, Repr, Inhabited

namespace Notice

/-- The severity of a notice. -/
def severity : Notice → Severity
  | added .. | merging .. | instantiated .. | runStarted .. | runFinished .. => .debug
  | caseFailed .. => .debug
  | requested .. => .info
  | kept .. | missing .. | closed .. | noImplementation .. | skipped .. => .warning
  | inletOutOfRange .. | outletLoose .. | stateless .. | runAborted .. => .warning

/-- The wording of a cell. -/
private def cellText (cell : Store.Key) : String :=
  "VariableId(SlotId \x7b index: " ++ toString cell.slot ++
    ", generation: " ++ toString cell.generation ++ " \x7d)"

/-- The wording of an optional position. -/
private def positionText : Option Nat → String
  | some position => s!"Some({position})"
  | none => "None"

/-- The wording of a list of values without brackets. -/
private def valuesText (values : List Value) : String :=
  ", ".intercalate (values.map fun value => toString value.toInt)

/-- The wording of a notice. -/
def text : Notice → String
  | added id => s!"adding specification `{id}`"
  | kept id => s!"specification `{id}` already exists, keeping the first"
  | missing id => s!"no specification `{id}` in library"
  | closed id => s!"cannot add a program implementation to native `{id}`"
  | noImplementation id index available =>
    s!"`{id}` has no implementation {index} ({available} available)"
  | skipped issue => issue.message
  | merging absorbed survivor readers writers =>
    "merging variable " ++ cellText absorbed ++ " into " ++ cellText survivor ++
      s!" ({readers} readers, {writers} writers)"
  | instantiated id nodes cells issues =>
    s!"instantiated `{id}`: {nodes} nodes, {cells} variables, {issues} issue(s)"
  | inletOutOfRange node index arity =>
    s!"{node.label}: data input {index} out of range (arity {arity})"
  | outletLoose node => s!"{node.label}: data output was never connected"
  | stateless node => s!"{node.label}: no data input to hold the internal state"
  | runStarted run id => s!"run {run} of `{id}`"
  | requested specification inputs => s!"request: {specification}(" ++ valuesText inputs ++ ")"
  | runAborted run steps => s!"run {run} aborted after {steps} steps"
  | runFinished run steps exit position =>
    s!"run {run} finished after {steps} steps at ControlOutId({exit.index}) (exit " ++
      positionText position ++ ")"
  | caseFailed inputs reason => "case [" ++ valuesText inputs ++ s!"] failed: {reason}"

end Notice

end TokenNet
