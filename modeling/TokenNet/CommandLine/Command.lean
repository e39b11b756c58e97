import TokenNet.CommandLine.Parameter
import TokenNet.Primitive
import TokenNet.Text.Numeral

/-!
# Commands

A command line names one of four commands: to list the programs of the arithmetic library, to run
one of them, to run a bit matrix, or to evaluate an adder network on cases.  With every command a
settings file can be given, before the command or after it; the one after it counts.
-/

namespace TokenNet.CommandLine

/-- What a command line asks for.  Matrices and values stand in it as they are written. -/
inductive Command where
  | list
  | run (specification : String) (inputs : List Value) (steps : Nat) (traced : Bool)
  | bits (matrix seeds : String)
  | adders (count : Nat) (control data : String) (cases : List String)
deriving DecidableEq, Repr, Inhabited

/-- A command and the settings file to run it under. -/
structure Invocation where
  settings : Option String
  command : Command
deriving DecidableEq, Repr, Inhabited

/-! ## Parameters of commands -/

/-- The parameter that names a settings file. -/
def settingsParameter : Parameter := { name := "config" }

/-- The commands by their names, each with the parameters that it has. -/
def commandParameters : List (String × List Parameter) :=
  [("list", []),
    ("run",
      [{ name := "input", letter := some 'i', operand := .number, repeats := true },
        { name := "steps" }, { name := "debug", operand := .nothing }]),
    ("bits", [{ name := "matrix" }, { name := "positions" }]),
    ("adder",
      [{ name := "bugs" }, { name := "control" }, { name := "data" },
        { name := "case", operand := .anything, repeats := true }])]

/-! ## Reading -/

/-- A value read from a text, which is blamed on its parameter if it does not read. -/
def readAs {α : Type} (read? : String → Option α) (name text : String) : Except UsageError α :=
  match read? text with
  | some value => .ok value
  | none => .error (.invalidValue name text)

/-- The one plain word that must be given. -/
def onlyWord (given : Given) (name : String) : Except UsageError String :=
  match given.words with
  | [] => .error (.missing name)
  | [word] => .ok word
  | _ :: next :: _ => .error (.unexpected next)

/-- Refuses plain words. -/
def noWords (given : Given) : Except UsageError Unit :=
  match given.words with
  | [] => .ok ()
  | word :: _ => .error (.unexpected word)

/-- The command of a name. -/
def readCommand (name : String) (given : Given) : Except UsageError Command :=
  match name with
  | "list" => do
    noWords given
    return .list
  | "run" => do
    let specification ← onlyWord given "spec"
    let inputs ← (given.all "input").mapM (readAs Text.int64? "input")
    let steps ← readAs Text.word64? "steps" ((given.value? "steps").getD "1")
    return .run specification inputs steps (given.value? "debug").isSome
  | "bits" => do
    noWords given
    return .bits (← given.require "matrix") ((given.value? "positions").getD "")
  | "adder" => do
    noWords given
    let count ← readAs Text.word64? "bugs" (← given.require "bugs")
    return .adders count (← given.require "control") (← given.require "data") (given.all "case")
  | other => .error (.unknownCommand other)

/-- The settings file that is given; its name must not be empty. -/
def readSettings (given : Given) : Except UsageError (Option String) :=
  match given.value? settingsParameter.name with
  | some "" => .error (.invalidValue settingsParameter.name "")
  | file => .ok file

/-- What the words of a command line ask for. -/
def Invocation.ofWords (words : List String) : Except UsageError Invocation := do
  let before ← give [settingsParameter] true words
  let early ← readSettings before
  match before.words with
  | [] => throw .noCommand
  | name :: rest =>
    match commandParameters.lookup name with
    | none => throw (.unknownCommand name)
    | some parameters =>
      let given ← give (settingsParameter :: parameters) false rest
      let late ← readSettings given
      -- Settings named behind the command win over those named before it
      return ⟨late.or early, ← readCommand name given⟩

end TokenNet.CommandLine
