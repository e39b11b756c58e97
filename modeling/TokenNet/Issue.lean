/-!
# Issues

A directive that cannot be carried out is skipped, and the replay records why.  Issues are part
of the network that a replay builds; they never abort it.
-/

namespace TokenNet

/-- The kind of port whose position was out of range. -/
inductive PortKind where
  | inlet
  | exit
deriving DecidableEq, Repr, Inhabited

/-- The wording of a kind of port. -/
def PortKind.label : PortKind → String
  | inlet => "data input"
  | exit => "control output"

/-- Why a directive of a composite was skipped, or, for a role given twice, what it displaced. -/
inductive Issue where
  /-- No part has the role. -/
  | unknownRole (composite role : String)
  /-- The part is of a specification that the library does not hold. -/
  | unknownSpecification (composite role specification : String)
  /-- The part is of a specification without any implementation. -/
  | missingImplementation (composite role specification : String)
  /-- A port of a part, or of the composite itself if no role is given, is out of range. -/
  | portOutOfRange (composite : String) (role : Option String) (port : PortKind)
      (index arity : Nat)
  /-- The later part takes the role over from the earlier one. -/
  | duplicateRole (composite role : String)
  /-- The token cannot enter the part. -/
  | noEntry (composite role : String)
deriving DecidableEq, Repr, Inhabited

/-- The wording of an issue. -/
def Issue.message : Issue → String
  | unknownRole composite role => s!"{composite}: no sub-node with role `{role}`"
  | unknownSpecification composite role specification =>
    s!"{composite}: role `{role}` uses unknown specification `{specification}`"
  | missingImplementation composite role specification =>
    s!"{composite}: role `{role}` uses `{specification}`, which has no implementation"
  | portOutOfRange composite (some role) port index arity =>
    s!"{composite}: {port.label} {index} of `{role}` is out of range (arity {arity})"
  | portOutOfRange composite none port index arity =>
    s!"{composite}: external {port.label} {index} is out of range (arity {arity})"
  | duplicateRole composite role =>
    s!"{composite}: role `{role}` defined twice, keeping the later one"
  | noEntry composite role => s!"{composite}: `{role}` has no exposed control input"

end TokenNet
