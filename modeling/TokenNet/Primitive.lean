/-!
# Primitives

A primitive is a node behaviour that is not made of other nodes.  It maps the readings of its
inlets to an output value and to the exit that fires; a stateful primitive also replaces the
register of its node.

There are two primitives:

* the **adder** sums its two inputs when both are wired; an inlet that is not wired makes it a
  constant, whatever value the inlet happens to show;
* the **bit** negates a binary input and remembers the result.
-/

namespace TokenNet

/-- Values are 64-bit two's complement integers; addition wraps. -/
abbrev Value := Int64

/-- What a primitive sees on one of its inlets. -/
structure Reading where
  wired : Bool
  value : Value
deriving DecidableEq, Repr, Inhabited

/-- The reading of an inlet that shows a value through a wire. -/
def Reading.wire (value : Value) : Reading := ⟨true, value⟩

/-- The reading of an inlet that was never wired. -/
def Reading.loose : Reading := ⟨false, 0⟩

/-- What one firing of a primitive yields: the output, the position of the exit that fires, and
the new register, if the primitive is stateful. -/
structure Evaluation where
  output : Value
  exit : Nat
  register : Option Value
deriving DecidableEq, Repr, Inhabited

/-- The behaviours a node can have of its own. -/
inductive Primitive where
  /-- Two inlets; sums them when both are wired. -/
  | adder
  /-- One binary inlet; emits its negation and remembers it. -/
  | bit
deriving DecidableEq, Repr, Inhabited

namespace Primitive

/-- Every primitive, in the order in which a library lists them. -/
def all : List Primitive := [adder, bit]

/-- The name under which a library keeps a primitive. -/
def identifier : Primitive → String
  | adder => "+"
  | bit => "!"

/-- The primitive of a name. -/
def ofIdentifier? (name : String) : Option Primitive :=
  all.find? fun primitive => primitive.identifier == name

/-- The number of inlets. -/
def inletCount : Primitive → Nat
  | adder => 2
  | bit => 1

/-- The number of exits. -/
def exitCount (_ : Primitive) : Nat := 2

/-- Whether a firing replaces the register and counts against the call limit. -/
def isStateful : Primitive → Bool
  | adder => false
  | bit => true

/-- Zero fires the first exit and every other value the second. -/
def branch (output : Value) : Nat :=
  if output = 0 then 0 else 1

/-- The sum of two wired inputs.  With a single wire the first inlet counts as one and the second
as minus one; with none the sum is zero. -/
def sum : Reading → Reading → Value
  | ⟨false, _⟩, ⟨false, _⟩ => 0
  | ⟨true, _⟩, ⟨false, _⟩ => 1
  | ⟨false, _⟩, ⟨true, _⟩ => -1
  | ⟨true, a⟩, ⟨true, b⟩ => a + b

/-- The negation of a binary value. -/
def negate? (value : Value) : Option Value :=
  if value = 0 then some 1 else if value = 1 then some 0 else none

/-- The wording of a binary input that is not binary. -/
def invalidBitMessage (value : Value) : String :=
  s!"bit input must be 0 or 1, got {value.toInt}"

/-- One firing of a primitive; a bit whose input is not binary answers with that input.  An inlet
without a reading counts as loose. -/
def evaluate : Primitive → List Reading → Except Value Evaluation
  | adder, readings =>
    let output := sum (readings[0]?.getD Reading.loose) (readings[1]?.getD Reading.loose)
    .ok ⟨output, branch output, none⟩
  | bit, readings =>
    let input := (readings[0]?.getD Reading.loose).value
    -- Only zero and one can be negated
    match negate? input with
    | some output => .ok ⟨output, branch output, some output⟩
    | none => .error input

end Primitive

end TokenNet
