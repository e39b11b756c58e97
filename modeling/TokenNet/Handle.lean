/-!
# Handles

A network is a graph whose parts are addressed by handles and never by reference.  Nodes and
ports are only ever added, so a handle is a position in order of creation, counted separately
for each kind:

* a **node** is a place where the control token can rest;
* an **inlet** and an **outlet** are a node's data input and data output;
* an **entry** and an **exit** are a node's control input and control output.

Every handle is its own type, so a data port cannot be passed where a control port is meant.
-/

namespace TokenNet

/-- A node, by its position in order of creation. -/
structure NodeId where
  index : Nat
deriving DecidableEq, Repr, Inhabited

/-- A data input, by its position among all data inputs. -/
structure InletId where
  index : Nat
deriving DecidableEq, Repr, Inhabited

/-- A data output, by its position among all data outputs. -/
structure OutletId where
  index : Nat
deriving DecidableEq, Repr, Inhabited

/-- A control input, by its position among all control inputs. -/
structure EntryId where
  index : Nat
deriving DecidableEq, Repr, Inhabited

/-- A control output, by its position among all control outputs. -/
structure ExitId where
  index : Nat
deriving DecidableEq, Repr, Inhabited

/-- Messages name a node by its position after a number sign. -/
def NodeId.label (node : NodeId) : String :=
  "#" ++ toString node.index

end TokenNet
