/-!
# Parameters

The words of a command line are plain words and parameters.  A parameter is named by two dashes and
a name, or by one dash and a letter if it has one.  Its value follows an equals sign, stands right
behind the letter, or is the next word; a switch has no value.  After a word of two dashes all words
are plain.

A word that begins with a dash is not taken as the value of the parameter before it, so that a
forgotten value does not swallow a parameter; some parameters make exceptions.
-/

namespace TokenNet.CommandLine

/-! ## Kinds of parameters -/

/-- What a parameter takes as its value if the value is a word of its own. -/
inductive Operand where
  /-- A switch takes no value at all. -/
  | nothing
  /-- A plain word. -/
  | word
  /-- A plain word or a negative number. -/
  | number
  /-- Any word. -/
  | anything
deriving DecidableEq, Repr, Inhabited

/-- A kind of parameter. -/
structure Parameter where
  name : String
  letter : Option Char := none
  operand : Operand := .word
  /-- Whether the parameter may be given several times. -/
  repeats : Bool := false
deriving DecidableEq, Repr, Inhabited

/-- Why a command line is refused. -/
inductive UsageError where
  | unknownParameter (word : String)
  | missingValue (name : String)
  | unneededValue (name : String)
  | repeated (name : String)
  | invalidValue (name value : String)
  | missing (name : String)
  | unexpected (word : String)
  | unknownCommand (word : String)
  | noCommand
deriving DecidableEq, Repr, Inhabited

/-- The wording of a refused command line. -/
def UsageError.message : UsageError → String
  | unknownParameter word => "unknown parameter '" ++ word ++ "'"
  | missingValue name => "parameter '" ++ name ++ "' needs a value"
  | unneededValue name => "parameter '" ++ name ++ "' takes no value"
  | repeated name => "parameter '" ++ name ++ "' is given twice"
  | invalidValue name value => "invalid value '" ++ value ++ "' for '" ++ name ++ "'"
  | missing name => "'" ++ name ++ "' is missing"
  | unexpected word => "unexpected word '" ++ word ++ "'"
  | unknownCommand word => "unknown command '" ++ word ++ "'"
  | noCommand => "no command is given"

/-! ## Words -/

/-- What a word of a command line looks like. -/
inductive Word where
  | plain
  /-- Two dashes. -/
  | divider
  /-- A name and the value behind an equals sign. -/
  | long (name : String) (attached : Option String)
  /-- A letter and what stands behind it. -/
  | short (letter : Char) (attached : List Char)
deriving DecidableEq, Repr, Inhabited

/-- What a word looks like.  A single dash is a plain word. -/
def Word.ofText (text : String) : Word :=
  match text.toList with
  | ['-', '-'] => .divider
  | '-' :: '-' :: rest =>
    .long (String.ofList (rest.takeWhile (· ≠ '=')))
      (match rest.dropWhile (· ≠ '=') with
        | [] => none
        | _ :: attached => some (String.ofList attached))
  | '-' :: letter :: attached => .short letter attached
  | _ => .plain

/-- The value that stands behind a letter, if there is one; an equals sign before it is left out. -/
def attachedValue? : List Char → Option String
  | [] => none
  | '=' :: value => some (String.ofList value)
  | value => some (String.ofList value)

/-- Whether a parameter takes a word as its value. -/
def Parameter.takes (parameter : Parameter) (text : String) : Bool :=
  match parameter.operand, Word.ofText text with
  | .nothing, _ => false
  | .anything, _ => true
  | _, .plain => true
  | .number, .short letter attached => (letter :: attached).all Char.isDigit
  | _, _ => false

/-! ## Given parameters -/

/-- What a command line gives: the parameters with their values, in order, and the plain words.
A switch is given with an empty value. -/
structure Given where
  values : List (String × String) := []
  words : List String := []
deriving DecidableEq, Repr, Inhabited

namespace Given

/-- What is given with one more parameter before it. -/
def withValue (given : Given) (name value : String) : Given :=
  { given with values := (name, value) :: given.values }

/-- What is given with one more plain word before it. -/
def withWord (given : Given) (word : String) : Given :=
  { given with words := word :: given.words }

/-- The values of a parameter in order. -/
def all (given : Given) (name : String) : List String :=
  given.values.filterMap fun (other, value) => if other = name then some value else none

/-- The value of a parameter. -/
def value? (given : Given) (name : String) : Option String :=
  (given.all name).head?

/-- The value of a parameter that must be given. -/
def require (given : Given) (name : String) : Except UsageError String :=
  match given.value? name with
  | some value => .ok value
  | none => .error (.missing name)

/-- Refuses a parameter that is given several times although it may not. -/
def checkRepeats (given : Given) (parameters : List Parameter) : Except UsageError Unit :=
  match parameters.find? fun p => !p.repeats && 1 < (given.all p.name).length with
  | some p => .error (.repeated p.name)
  | none => .ok ()

end Given

/-! ## Scanning -/

/-- Reads parameters and words.  A pending parameter waits for its value.  The scan of a leading
part ends before its first plain word and gives all words from there on; no divider may stand
in it. -/
def scan (parameters : List Parameter) (leading : Bool) :
    Option Parameter → List String → Except UsageError Given
  | none, [] => .ok {}
  | some pending, [] => .error (.missingValue pending.name)
  -- A parameter waits for its value, which is the next word if it can be one
  | some pending, text :: rest =>
    if pending.takes text then do
      return (← scan parameters leading none rest).withValue pending.name text
    else .error (.missingValue pending.name)
  | none, text :: rest =>
    match Word.ofText text with
    -- Before the name of the command the first plain word ends the scan
    | .plain =>
      if leading then .ok { words := text :: rest }
      else do return (← scan parameters leading none rest).withWord text
    -- Behind the divider all words are plain
    | .divider => if leading then .error .noCommand else .ok { words := rest }
    | .long name attached =>
      match parameters.find? fun p => p.name == name with
      | none => .error (.unknownParameter text)
      | some parameter =>
        match parameter.operand, attached with
        | .nothing, none => do
          return (← scan parameters leading none rest).withValue parameter.name ""
        | .nothing, some _ => .error (.unneededValue parameter.name)
        | _, some value => do
          return (← scan parameters leading none rest).withValue parameter.name value
        | _, none => scan parameters leading (some parameter) rest
    | .short letter attached =>
      match parameters.find? fun p => p.letter == some letter with
      | none => .error (.unknownParameter text)
      | some parameter =>
        match attachedValue? attached with
        | some value => do
          return (← scan parameters leading none rest).withValue parameter.name value
        | none => scan parameters leading (some parameter) rest

/-- What the words of a command line give. -/
def give (parameters : List Parameter) (leading : Bool) (words : List String) :
    Except UsageError Given := do
  let given ← scan parameters leading none words
  given.checkRepeats parameters
  return given

end TokenNet.CommandLine
