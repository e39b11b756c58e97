import TokenNet.Handle
import TokenNet.Primitive

/-!
# The ledger

The ledger records the firings of traced primitives in the order in which they happen.  A firing
is recorded in two lines: the *request*, with the inputs that the primitive read, and the *emit*,
with the output that it wrote and the exit that it fired.  A firing that fails leaves only its
request.
-/

namespace TokenNet

/-- What a line of the ledger records. -/
inductive Event where
  /-- A primitive was asked to fire. -/
  | request (specification : String) (inputs : List Value)
  /-- A primitive wrote its output and fired the exit at a position. -/
  | emit (output : Value) (exit : Nat)
deriving DecidableEq, Repr, Inhabited

/-- A line of the ledger: the run it belongs to, counted from one, and the node that fired. -/
structure Ledger.Line where
  run : Nat
  node : NodeId
  event : Event
deriving DecidableEq, Repr, Inhabited

/-- The recorded firings, earliest first. -/
structure Ledger where
  lines : Array Ledger.Line := #[]
deriving DecidableEq, Repr, Inhabited

namespace Ledger

/-- Records events of one node in one run. -/
def record (ledger : Ledger) (run : Nat) (node : NodeId) (events : List Event) : Ledger :=
  events.foldl (fun ledger event => ⟨ledger.lines.push ⟨run, node, event⟩⟩) ledger

/-- Whether nothing is recorded. -/
def isEmpty (ledger : Ledger) : Bool :=
  ledger.lines.isEmpty

/-- The lines of one run. -/
def ofRun (ledger : Ledger) (run : Nat) : List Line :=
  ledger.lines.toList.filter fun line => line.run = run

/-- The lines of one node. -/
def ofNode (ledger : Ledger) (node : NodeId) : List Line :=
  ledger.lines.toList.filter fun line => line.node = node

/-- The requests in order: which node was asked to fire, and with which inputs. -/
def requests (ledger : Ledger) : List (NodeId × List Value) :=
  ledger.lines.toList.filterMap fun line =>
    match line.event with
    | .request _ inputs => some (line.node, inputs)
    | .emit .. => none

end Ledger

end TokenNet
