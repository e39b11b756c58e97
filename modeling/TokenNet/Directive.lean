/-!
# Directives

A blueprint describes a composite by a log of directives: which parts it has and how they are
wired to each other and to the outside.  Parts are named by their roles, and a role is looked up
only when the log is replayed.

Replay goes through the log in phases, so that every part exists before anything is wired and all
inner edges exist before anything is exposed.  Within a phase the order of the log is kept.
-/

namespace TokenNet

/-- One step in the construction of a composite. -/
inductive Directive where
  /-- Makes a part of a specification and gives it a role. -/
  | part (specification role : String)
  /-- Wires the outlet of the source into an inlet of the target. -/
  | dataFlow (source target : String) (inlet : Nat)
  /-- Lets an exit of the source hand the token to the target. -/
  | controlFlow (source : String) (exit : Nat) (target : String)
  /-- Feeds an inlet of a part from an inlet of the composite. -/
  | exposeInlet (role : String) (inlet external : Nat)
  /-- Relays the outlet of a part to the outlet of the composite. -/
  | exposeOutlet (role : String)
  /-- Lets the token enter the composite at a part. -/
  | exposeEntry (role : String)
  /-- Lets the token leave the composite by an exit of the composite when it leaves a part by an
  exit of the part. -/
  | exposeExit (role : String) (exit external : Nat)
deriving DecidableEq, Repr, Inhabited

/-- The stages of a replay. -/
inductive Phase where
  | parts
  | flow
  | inlets
  | outlet
  | exits
  | entry
deriving DecidableEq, Repr, Inhabited

/-- The phases in the order in which they are replayed. -/
def Phase.all : List Phase :=
  [.parts, .flow, .inlets, .outlet, .exits, .entry]

namespace Directive

/-- The phase a directive belongs to.  Data and control edges share one phase. -/
def phase : Directive → Phase
  | part .. => .parts
  | dataFlow .. => .flow
  | controlFlow .. => .flow
  | exposeInlet .. => .inlets
  | exposeOutlet .. => .outlet
  | exposeEntry .. => .entry
  | exposeExit .. => .exits

/-- A log in the order in which it is replayed: phase by phase, and within a phase as issued. -/
def replayOrder (log : List Directive) : List Directive :=
  Phase.all.flatMap fun phase => log.filter fun directive => directive.phase = phase

end Directive

end TokenNet
