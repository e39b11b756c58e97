import TokenNet.Failure
import TokenNet.Matrix.Basic

/-!
# Bit matrices

A matrix of n rows and 2n columns describes n bits that hand the token to each other.  Bit k is
wired to itself, so that it toggles whenever it fires, and column 2k + b says where the token goes
when bit k has become b: to the bit of a marked row.  If several rows are marked the last one
counts, because an exit has one target.

The token enters at bit 0.  A run starts from given bits and is read off from the registers and
the counted calls at its end.
-/

namespace TokenNet.Matrix

/-! ## The network of a matrix -/

/-- The identifier of the specification of a bit matrix. -/
def bitsIdentifier : String := "CF_Translate"

/-- The role of a bit. -/
def bitRole (index : Nat) : String :=
  Primitive.bit.identifier ++ "_" ++ toString index

/-- The directives that make a bit and wire it to itself. -/
def bitDirectives (index : Nat) : List Directive :=
  [.part Primitive.bit.identifier (bitRole index), .dataFlow (bitRole index) (bitRole index) 0]

/-- The directives that lead to the bit of a row. -/
def bitEdges (matrix : Matrix) (row : Nat) : List Directive :=
  (matrix.markedColumns row matrix.columns).map fun column =>
    .controlFlow (bitRole (column / 2)) (column % 2) (bitRole row)

/-- The specification of the network of a bit matrix. -/
def bitsSpecification (matrix : Matrix) : Specification :=
  let rows := List.range matrix.length
  .composite bitsIdentifier 0 2
    (rows.flatMap bitDirectives ++ rows.flatMap (bitEdges matrix) ++ [.exposeEntry (bitRole 0)])

/-- The network of a bit matrix. -/
def bitsNetwork (matrix : Matrix) (limits : Limits) : Except BuildError Network :=
  matrix.bitsSpecification.instantiateAlone limits

/-! ## Runs -/

/-- The bits at the end of a run. -/
structure BitRun where
  registers : List Value
  calls : List UInt32
  steps : Nat
deriving DecidableEq, Repr, Inhabited

/-- The nodes of the bits of a matrix, in order. -/
def bitNodes (matrix : Matrix) (net : Network) : List NodeId :=
  (List.range matrix.length).filterMap fun index => net.find? (bitRole index)

/-- Sets the bits to given values in order; bits without a value stay as they are. -/
def seed (net : Network) : List (NodeId × Value) → Except AccessError Network
  | [] => .ok net
  | (node, value) :: rest => do seed (← net.setState node value) rest

/-- Moves a refusal into the failures. -/
def refused {α : Type} (result : Except AccessError α) : Except Failure α :=
  result.mapError fun error => .refusal (.access error)

/-- Sets the bits of a matrix, runs its network once and reads the bits back. -/
def runBits (matrix : Matrix) (seeds : List Value) (limits : Limits) : Except Failure BitRun := do
  let net ← (matrix.bitsNetwork limits).mapError Failure.build
  let nodes := matrix.bitNodes net
  let (after, result) := (← refused (seed net (nodes.zip seeds))).execute
  let ending ← result.mapError fun fault => Failure.refusal (.fault fault)
  let registers ← refused (nodes.mapM after.state)
  let calls ← refused (nodes.mapM after.calls)
  return ⟨registers, calls, ending.steps⟩

/-! ## Isolation -/

/-- Whether a bit has no edge at all: nothing that it leads to and nothing that leads to it.  The
position is a machine word, and the columns of the bit are found by doubling it as a word. -/
def isIsolated (matrix : Matrix) (position : UInt64) : Bool :=
  let bits := matrix.length
  let first := 2 * position
  let leadsNowhere := (List.range (2 * bits)).all fun column =>
    !matrix.marked position.toNat column
  let neverReached := (List.range bits).all fun row =>
    !matrix.marked row first.toNat && !matrix.marked row (first + 1).toNat
  leadsNowhere && neverReached

/-! ## Rewards -/

/-- The weights of a reward. -/
structure BitRewards where
  /-- Added when every position of the goal is met. -/
  win : Float := 1000.0
  /-- The whole reward of a run that a loop guard stopped. -/
  failure : Float := -10.0
  /-- Added for each position of the goal that is met. -/
  partialMatch : Float := 1.0
deriving Repr, Inhabited

/-- Whether a bit meets its goal: minus one asks for a bit that fired, zero for one that did not,
and k for one that fired and ended as k minus one. -/
def meetsGoal (goal register : Value) (calls : UInt32) : Bool :=
  if goal = -1 then decide (0 < calls)
  else if goal = 0 then decide (calls = 0)
  else decide (0 < calls) && decide (goal = register + 1)

/-- For each position of a goal, whether the run meets it.  A position behind the last bit is not
met. -/
def goalsMet (run : BitRun) (goal : List Value) : List Bool :=
  goal.zipIdx.map fun (wanted, index) =>
    match run.registers[index]?, run.calls[index]? with
    | some register, some calls => meetsGoal wanted register calls
    | _, _ => false

/-- The reward of a run that ended. -/
def scoreRun (rewards : BitRewards) (goal : List Value) (run : BitRun) : Float :=
  let met := goalsMet run goal
  let partialSum := met.foldl (fun total hit => if hit then total + rewards.partialMatch else total) 0.0
  if met.all id then partialSum + rewards.win else partialSum

/-- Runs a matrix from bits that are all zero and scores the end against a goal. -/
def bitReward (goal : List Value) (matrix : Matrix) (rewards : BitRewards) (limits : Limits) :
    Except Failure Float :=
  match matrix.runBits [] limits with
  | .ok run => .ok (scoreRun rewards goal run)
  | .error failure =>
    match failure with
    | .refusal (.fault fault) => if fault.isDivergence then .ok rewards.failure else .error failure
    | _ => .error failure

end TokenNet.Matrix
