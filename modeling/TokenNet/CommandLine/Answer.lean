import TokenNet.Arithmetic
import TokenNet.Batch
import TokenNet.CommandLine.Command
import TokenNet.Document
import TokenNet.Limits.Search
import TokenNet.Matrix.Adders
import TokenNet.Matrix.Bits
import TokenNet.Matrix.Written

/-!
# Answers

A command is answered by a document, or it fails with a reason; warnings come before either.  The
limits under which it runs are those of the settings file that the command line names, or else
those of the working folder.
-/

namespace TokenNet.CommandLine

/-! ## Documents of results -/

/-- The document of a specification: its identifier and its shape. -/
def specificationDocument (spec : Specification) : Document :=
  .record
    [("id", .text spec.identifier), ("inputs", .natural spec.inletCount),
      ("outputs", .natural spec.exitCount), ("primitive", .flag spec.isNative)]

/-- The document of a run: how it ended, or why it failed. -/
def runDocument : Except RunFault Outcome → Document
  | .ok outcome => .record
    [("exit", .optional .natural outcome.ending.position),
      ("output", .optional .value outcome.output), ("steps", .natural outcome.ending.steps)]
  | .error fault => .record
    [("diverged", .flag fault.isDivergence), ("error", .text fault.message)]

/-- The document of a line of the ledger. -/
def lineDocument (line : Ledger.Line) : Document :=
  match line.event with
  | .request specification inputs => .record
    [("inputs", .listOf .value inputs), ("node", .text line.node.label),
      ("request", .text specification), ("run", .natural line.run)]
  | .emit output exit => .record
    [("control_out", .natural exit), ("node", .text line.node.label),
      ("output", .value output), ("run", .natural line.run)]

/-- The document of the end of a bit matrix. -/
def bitRunDocument (run : Matrix.BitRun) : Document :=
  .record
    [("call_counters", .listOf (fun calls => .natural calls.toNat) run.calls),
      ("registers", .listOf .value run.registers), ("steps", .natural run.steps)]

/-- The document of a report. -/
def reportDocument (report : Report) : Document :=
  .record
    [("diverged", .flag report.diverged), ("error", .optional .text report.error),
      ("exit_index", .optional .natural report.position), ("inputs", .listOf .value report.inputs),
      ("output", .optional .value report.output), ("steps", .natural report.steps)]

/-! ## Failures -/

/-- Why a command fails. -/
inductive CommandError where
  /-- The settings file that the command line names cannot be had. -/
  | settings (file : String)
  /-- The settings of the working folder are malformed. -/
  | folderSettings
  | written (error : Matrix.WrittenError)
  | failure (reason : Failure)
  /-- The results of so many runs would take more bytes than any object may. -/
  | tooManyRuns
  /-- There is no memory for the results of the runs, which would take so many bytes. -/
  | outOfMemory (bytes : Nat)
deriving DecidableEq, Repr, Inhabited

/-- The wording of a failed command. -/
def CommandError.message : CommandError → String
  | settings file => "Failed to load " ++ file
  | folderSettings => "invalid engine config"
  | written error => error.message
  | failure reason => reason.message
  | tooManyRuns => "capacity overflow"
  | outOfMemory bytes => s!"memory allocation of {bytes} bytes failed"

/-- The exit code of a failed command.  Without memory the command is cut off and has none. -/
def CommandError.code : CommandError → Option UInt32
  | tooManyRuns => some 101
  | outOfMemory _ => none
  | _ => some 1

/-- The complaints of a failed command.  Only a failure that the command was prepared for is called
an error. -/
def CommandError.complaints : CommandError → List String
  | tooManyRuns => ["", tooManyRuns.message]
  | outOfMemory bytes => [(outOfMemory bytes).message]
  | error => ["Error: " ++ error.message]

/-! ## Runs -/

/-- The bytes that the result of a run takes. -/
def resultSize : Nat := 32

/-- The bytes of memory that there are: 32 times 1024 cubed. -/
def memorySize : Nat := 32 * (1024 * 1024 * 1024)

/-- Makes room for the results of runs.  No object may take half of the address space. -/
def reserve (runs : Nat) : Except CommandError Unit :=
  let bytes := runs * resultSize
  if UInt64.size / 2 ≤ bytes then .error .tooManyRuns
  else if memorySize ≤ bytes then .error (.outOfMemory bytes)
  else .ok ()

/-- Runs a network several times, up to the first run that fails. -/
def runTimes (net : Network) : Nat → Network × List (Except RunFault Outcome)
  | 0 => (net, [])
  | times + 1 =>
    match net.step with
    | (after, .error fault) => (after, [.error fault])
    | (after, result) =>
      let (last, results) := runTimes after times
      (last, result :: results)

/-- Runs a network several times on inputs of its root.  Room for the results is made after the
inputs are written and before the first run. -/
def runNetwork (net : Network) (inputs : List Value) (steps : Nat) (traced : Bool) :
    Except CommandError Document :=
  match net.attempt (net.inputCalls inputs) with
  | (_, .error refusal) => .error (.failure (.refusal refusal))
  | (ready, .ok _) => do
    reserve steps
    let (after, results) := runTimes ready steps
    -- The trace comes behind what is always shown, and only when it was asked for
    let shown : List (String × Document) :=
      [("runs", .listOf runDocument results), ("spec", .text net.specification)]
    let trace : List (String × Document) :=
      if traced then [("trace", .listOf lineDocument after.ledger.lines.toList)] else []
    return .record (shown ++ trace)

/-! ## Commands -/

/-- The document of a bit matrix that is run once. -/
def runBits (matrix seeds : String) (limits : Limits) : Except CommandError Document := do
  let matrix ← (Matrix.ofText matrix).mapError .written
  let seeds ← (Matrix.valuesOfText seeds).mapError .written
  return bitRunDocument (← (matrix.runBits seeds limits).mapError .failure)

/-- The document of an adder network that is evaluated on cases. -/
def runAdders (count : Nat) (control data : String) (cases : List String) (limits : Limits) :
    Except CommandError Document := do
  let control ← (Matrix.ofText control).mapError .written
  let data ← (Matrix.ofText data).mapError .written
  let cases ← (cases.mapM Matrix.valuesOfText).mapError .written
  let reports ← (Matrix.runAdders count control data cases limits).mapError fun error =>
    .failure (.build error)
  return .listOf reportDocument reports

/-- The warnings of a command and its result. -/
def perform (command : Command) (limits : Limits) : List String × Except CommandError Document :=
  match command with
  | .list => ([], .ok (.listOf specificationDocument Arithmetic.library.sorted))
  | .run specification inputs steps traced =>
    match Arithmetic.library.instantiate specification { limits, traced } with
    | .error error => ([], .error (.failure (.build error)))
    | .ok net =>
      (net.issues.toList.map fun issue => "warning: " ++ issue.message,
        runNetwork net inputs steps traced)
  | .bits matrix seeds => ([], runBits matrix seeds limits)
  | .adders count control data cases => ([], runAdders count control data cases limits)

/-! ## Command lines -/

/-- What a command line leaves behind: its exit code unless it was cut off, the text of its output
and the lines of its complaints. -/
structure Answer where
  code : Option UInt32
  output : String := ""
  complaints : List String := []
deriving DecidableEq, Repr, Inhabited

/-- The answer to a command line that is refused. -/
def Answer.refused (error : UsageError) : Answer :=
  { code := some 2, complaints := ["error: " ++ error.message] }

/-- The answer to a command that fails. -/
def Answer.failed (warnings : List String) (error : CommandError) : Answer :=
  { code := error.code, complaints := warnings ++ error.complaints }

/-- The answer to a command under limits. -/
def Answer.ofCommand (command : Command) (limits : Limits) : Answer :=
  match perform command limits with
  | (warnings, .ok document) =>
    { code := some 0, output := document.render ++ "\n", complaints := warnings }
  | (warnings, .error error) => Answer.failed warnings error

/-- The limits under which a command runs in a working folder. -/
def limitsFor {m : Type → Type} [Monad m] (read? : Path → m (Option String)) (folder : Path)
    (settings : Option String) : m (Except CommandError Limits) := do
  match settings with
  | some file =>
    return (← Limits.ofFile read? folder file).mapError fun _ => .settings file
  | none =>
    match ← Limits.discover read? folder with
    | .ok (limits, _) => return .ok limits
    | .error _ => return .error .folderSettings

/-- Answers a command line in a working folder. -/
def answer {m : Type → Type} [Monad m] (read? : Path → m (Option String)) (folder : Path)
    (words : List String) : m Answer := do
  match Invocation.ofWords words with
  | .error error => return .refused error
  | .ok invocation =>
    match ← limitsFor read? folder invocation.settings with
    | .error error => return .failed [] error
    | .ok limits => return .ofCommand invocation.command limits

end TokenNet.CommandLine
