/-!
# Bounded reachability

The values that can be reached from a start by following a successor function, found one layer
after another: the first layer is the start, and each later layer holds the successors of the
layer before that have not been met yet.  The search ends with the first empty layer, or after a
given number of layers.
-/

namespace TokenNet.Reach

variable {α : Type} [DecidableEq α]

/-- The successors of a layer that are new, each once. -/
def layer (next : α → List α) (reached frontier : List α) : List α :=
  (frontier.flatMap next).eraseDups.filter fun a => !reached.contains a

/-- Adds at most the given number of further layers to what has been reached. -/
def extend (next : α → List α) : Nat → List α → List α → List α
  | 0, reached, _ => reached
  | bound + 1, reached, frontier =>
    match layer next reached frontier with
    | [] => reached
    | fresh => extend next bound (reached ++ fresh) fresh

/-- What is reached from a start within the given number of layers, the start included. -/
def within (next : α → List α) (bound : Nat) (start : α) : List α :=
  extend next bound [start] [start]

end TokenNet.Reach
