import TokenNet.Call
import TokenNet.Text.Line
import TokenNet.Text.Literal

/-!
# Trials

A trial runs a network under expectations.  Each check either holds or fails with a reason that
names what was expected and what was found; a failed check leaves behind what the network did.
-/

namespace TokenNet

/-! ## Literals of results -/

/-- A position as a literal. -/
private def natLiteral (n : Nat) : String := toString n

/-- A value as a literal. -/
private def valueLiteral (value : Value) : String := toString value.toInt

/-- The end of a run as a literal. -/
def Ending.literal (ending : Ending) : String :=
  Text.record "Exit"
    [("control_out", s!"ControlOutId({ending.exit.index})"),
      ("exit_index", Text.optional natLiteral ending.position),
      ("steps", natLiteral ending.steps)]

/-- A kind of port as a literal. -/
def PortKind.literal : PortKind → String
  | inlet => "DataIn"
  | exit => "ControlOut"

/-- An issue as a literal. -/
def Issue.literal : Issue → String
  | unknownRole composite role =>
    Text.record "UnknownRole" [("program", Text.quoted composite), ("role", Text.quoted role)]
  | unknownSpecification composite role specification =>
    Text.record "UnknownSpecification"
      [("program", Text.quoted composite), ("role", Text.quoted role),
        ("specification", Text.quoted specification)]
  | missingImplementation composite role specification =>
    Text.record "MissingImplementation"
      [("program", Text.quoted composite), ("role", Text.quoted role),
        ("specification", Text.quoted specification)]
  | portOutOfRange composite role port index arity =>
    Text.record "PinOutOfRange"
      [("program", Text.quoted composite), ("role", Text.optional Text.quoted role),
        ("pin", port.literal), ("index", natLiteral index), ("arity", natLiteral arity)]
  | duplicateRole composite role =>
    Text.record "DuplicateRole" [("program", Text.quoted composite), ("role", Text.quoted role)]
  | noEntry composite role =>
    Text.record "NoControlInput" [("program", Text.quoted composite), ("role", Text.quoted role)]

/-! ## Literals of errors -/

/-- A node as a literal. -/
def NodeId.literal (node : NodeId) : String :=
  s!"InstanceId({node.index})"

/-- A refusal of a library as a literal. -/
def RegistryError.literal : RegistryError → String
  | duplicate id => s!"DuplicateSpecification({Text.quoted id})"
  | unknown id => s!"UnknownSpecification({Text.quoted id})"
  | outOfRange id index available =>
    Text.record "ImplementationOutOfRange"
      [("specification", Text.quoted id), ("index", natLiteral index),
        ("available", natLiteral available)]
  | native id => s!"NativeSpecification({Text.quoted id})"

/-- An aborted build as a literal. -/
def BuildError.literal : BuildError → String
  | registry refusal => s!"Library({refusal.literal})"
  | nestingTooDeep id limit =>
    Text.record "NestingTooDeep" [("specification", Text.quoted id), ("limit", natLiteral limit)]

/-- A refused access as a literal. -/
def AccessError.literal : AccessError → String
  | inletOutOfRange node index arity =>
    Text.record "InputOutOfRange"
      [("node", node.literal), ("index", natLiteral index), ("arity", natLiteral arity)]
  | outletUnconnected node => s!"OutputUnconnected({node.literal})"
  | noInlets node => s!"NoDataInputs({node.literal})"
  | noInterface node => s!"NoInterface({node.literal})"
  | unknownNode node => s!"UnknownInstance({node.literal})"
  | unknownPort => "UnknownPin"

/-! ## Failed checks -/

/-- Why a trial fails.  Most reasons begin with the identifier of the network. -/
inductive TrialFailure where
  | build (identifier : String) (error : BuildError)
  | input (identifier : String) (error : AccessError)
  | run (identifier : String) (fault : RunFault)
  | unexpectedEnd (identifier : String) (ending : Ending)
  | wrongOutput (identifier : String) (expected : Value) (found : Option Value)
  | wrongExit (identifier : String) (expected : Nat) (found : Option Nat)
  | noRegister (path : String) (error : AccessError)
  | wrongRegister (path : String) (expected found : Value)
  | issues (identifier : String) (issues : List Issue)
  | noNode (identifier path : String)
deriving DecidableEq, Repr, Inhabited

/-- The wording of a failed check. -/
def TrialFailure.message : TrialFailure → String
  | build id error => s!"cannot instantiate `{id}`: {error.message}"
  | input id error => s!"`{id}`: {error.message}"
  | run id fault => s!"`{id}` failed: {fault.message}"
  | unexpectedEnd id ending => s!"`{id}` expected to fail but ended at {ending.literal}"
  | wrongOutput id expected found =>
    s!"`{id}` expected output {valueLiteral expected} but got " ++
      Text.optional valueLiteral found
  | wrongExit id expected found =>
    s!"`{id}` expected exit {expected} but got " ++ Text.optional natLiteral found
  | noRegister path error => s!"`{path}`: {error.message}"
  | wrongRegister path expected found =>
    "Register '" ++ path ++ "' expected " ++ valueLiteral expected ++ " but got " ++
      valueLiteral found
  | issues id found => s!"`{id}` replayed with issues: " ++ Text.list Issue.literal found
  | noNode id path => s!"`{id}` has no bug at '" ++ path ++ "'"

/-- The part of the wording that is shown: its first line. -/
def TrialFailure.summary (failure : TrialFailure) : String :=
  Text.firstLine failure.message

namespace Network.Trial

/-! ## Checks -/

/-- A network of a library, traced or not. -/
def start (library : Library) (identifier : String) (traced : Bool) :
    Except TrialFailure Network :=
  (library.instantiate identifier { traced }).mapError (.build identifier)

/-- Writes values into the inlets of the root, first inlet first. -/
def withInputs (net : Network) (values : List Value) : Network × Except TrialFailure Unit :=
  match net.attempt (net.inputCalls values) with
  | (after, .error (.access error)) => (after, .error (.input net.specification error))
  | (after, _) => (after, .ok ())

/-- Runs the network and expects the run to end. -/
def run (net : Network) : Network × Except TrialFailure Outcome :=
  let (after, result) := net.step
  (after, result.mapError (.run net.specification))

/-- Runs the network and expects the run to fail. -/
def runFailing (net : Network) : Network × Except TrialFailure RunFault :=
  match net.step with
  | (after, .ok outcome) => (after, .error (.unexpectedEnd net.specification outcome.ending))
  | (after, .error fault) => (after, .ok fault)

/-- Runs the network and expects an output of the root. -/
def expectOutput (net : Network) (expected : Value) : Network × Except TrialFailure Outcome :=
  match run net with
  | (after, .ok outcome) =>
    if outcome.output = some expected then (after, .ok outcome)
    else (after, .error (.wrongOutput net.specification expected outcome.output))
  | failed => failed

/-- Runs the network and expects it to leave by an exit of the root. -/
def expectExit (net : Network) (expected : Nat) : Network × Except TrialFailure Outcome :=
  match run net with
  | (after, .ok outcome) =>
    if outcome.ending.position = some expected then (after, .ok outcome)
    else (after, .error (.wrongExit net.specification expected outcome.ending.position))
  | failed => failed

/-- The node at a path. -/
def node (net : Network) (path : String) : Except TrialFailure NodeId :=
  match net.find? path with
  | some found => .ok found
  | none => .error (.noNode net.specification path)

/-- Sets the register of the node at a path. -/
def setState (net : Network) (path : String) (value : Value) :
    Network × Except TrialFailure (Except Refusal Reply) :=
  match node net path with
  | .ok found =>
    let (after, answer) := net.perform (.setState found value)
    (after, .ok answer)
  | .error failure => (net, .error failure)

/-- Expects the register of the node at a path to hold a value. -/
def expectRegister (net : Network) (path : String) (expected : Value) :
    Except TrialFailure Unit := do
  let found ← (net.state (← node net path)).mapError (.noRegister path)
  if found = expected then return () else throw (.wrongRegister path expected found)

/-- Expects the build of the network to have skipped nothing. -/
def expectClean (net : Network) : Except TrialFailure Unit :=
  if net.issues.isEmpty then .ok ()
  else .error (.issues net.specification net.issues.toList)

end Network.Trial

end TokenNet
