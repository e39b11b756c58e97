import TokenNet.Library

/-!
# Arithmetic

A library of composites that compute with nothing but adders.  Constants come from adders that are
not fully wired: with its first inlet wired an adder is the constant one, with its second the
constant minus one, and with none the constant zero.

Everything else is counting.  A sum is a single firing; a negation, and with it a difference or a
comparison, counts from the operand to zero; a product adds repeatedly.  All arithmetic is that of
the adder and wraps around.
-/

namespace TokenNet.Arithmetic

/-- The identifier of the primitive that everything is made of. -/
def adder : String := Primitive.adder.identifier

/-! ## Single steps -/

/-- Adds one: the first adder makes the constant one, the second adds it to the input. -/
def increment : Specification :=
  .composite "++" 1 2 [
    .part adder "0_001",
    .part adder "1_001",
    .dataFlow "0_001" "1_001" 0,
    .part adder "+_001",
    .dataFlow "1_001" "+_001" 1,
    .controlFlow "1_001" 1 "+_001",
    .exposeEntry "1_001",
    .exposeExit "+_001" 0 0,
    .exposeExit "+_001" 1 1,
    .exposeInlet "+_001" 0 0,
    .exposeOutlet "+_001"]

/-- Subtracts one: the first adder makes the constant minus one, the second adds it to the input. -/
def decrement : Specification :=
  .composite "--" 1 2 [
    .part adder "0_001",
    .part adder "-1_001",
    .dataFlow "0_001" "-1_001" 1,
    .part adder "+_001",
    .dataFlow "-1_001" "+_001" 1,
    .controlFlow "-1_001" 1 "+_001",
    .exposeEntry "-1_001",
    .exposeExit "+_001" 0 0,
    .exposeExit "+_001" 1 1,
    .exposeInlet "+_001" 0 0,
    .exposeOutlet "+_001"]

/-- Copies the input: an adder adds the constant zero to it. -/
def assignment : Specification :=
  .composite ":=" 1 1 [
    .part adder "0_001",
    .part adder "+_001",
    .dataFlow "0_001" "+_001" 1,
    .exposeEntry "+_001",
    .exposeExit "+_001" 0 0,
    .exposeExit "+_001" 1 0,
    .exposeInlet "+_001" 0 0,
    .exposeOutlet "+_001"]

/-! ## Iterators -/

/-- Adds one at every run: the last adder also reads its own output, so that it goes on from the
last result until a new input is written. -/
def incrementIterator : Specification :=
  .composite "+++" 1 1 [
    .part adder "0_001",
    .part adder "1_001",
    .dataFlow "0_001" "1_001" 0,
    .part adder "+_001",
    .dataFlow "1_001" "+_001" 0,
    .dataFlow "+_001" "+_001" 1,
    .controlFlow "1_001" 1 "+_001",
    .exposeEntry "1_001",
    .exposeExit "+_001" 0 0,
    .exposeExit "+_001" 1 0,
    .exposeInlet "+_001" 1 0,
    .exposeOutlet "+_001"]

/-- Subtracts one at every run, going on from the last result until a new input is written. -/
def decrementIterator : Specification :=
  .composite "---" 1 1 [
    .part adder "0_001",
    .part adder "1_001",
    .dataFlow "0_001" "1_001" 1,
    .part adder "+_001",
    .dataFlow "1_001" "+_001" 0,
    .dataFlow "+_001" "+_001" 1,
    .controlFlow "1_001" 1 "+_001",
    .exposeEntry "1_001",
    .exposeExit "+_001" 0 0,
    .exposeExit "+_001" 1 0,
    .exposeInlet "+_001" 1 0,
    .exposeOutlet "+_001"]

/-! ## Tests -/

/-- Tests for zero: leaves by the second exit if the input is zero and by the first otherwise. -/
def isZero : Specification :=
  .composite "==0" 1 2 [
    .part adder "+_001",
    .exposeEntry "+_001",
    .exposeInlet "+_001" 0 0,
    .exposeInlet "+_001" 1 0,
    .exposeExit "+_001" 0 1,
    .exposeExit "+_001" 1 0]

/-- Leaves by its two exits in turn: an inner adder is incremented on one way and decremented on the
other. -/
def alternator : Specification :=
  .composite "||" 0 2 [
    .part adder "+_001",
    .part "++" "++_001",
    .part "--" "--_001",
    .part adder "0_001",
    .controlFlow "+_001" 0 "++_001",
    .controlFlow "+_001" 1 "--_001",
    -- The adder in front reads what was counted last
    .dataFlow "0_001" "+_001" 0,
    .dataFlow "++_001" "+_001" 1,
    .dataFlow "--_001" "++_001" 0,
    .dataFlow "--_001" "+_001" 1,
    .dataFlow "++_001" "--_001" 0,
    .exposeEntry "+_001",
    .exposeExit "++_001" 0 0,
    .exposeExit "++_001" 1 0,
    .exposeExit "--_001" 0 1,
    .exposeExit "--_001" 1 1]

/-- Tests for a positive input.  It counts up from the input on one branch and down on the other, one
step each in turn, and sees which of the two comes to zero first. -/
def isPositive : Specification :=
  .composite "?+" 1 2 [
    .part adder "0_001",
    .part adder "1_001",
    .dataFlow "0_001" "1_001" 0,
    .controlFlow "1_001" 1 "==0_001",
    .part "==0" "==0_001",
    .part ":=" ":=_001",
    .dataFlow "1_001" ":=_001" 0,
    .controlFlow "==0_001" 1 ":=_001",
    -- Both counters start at the input
    .controlFlow "==0_001" 0 ":=_002",
    .part ":=" ":=_002",
    .controlFlow ":=_002" 0 ":=_003",
    .part ":=" ":=_003",
    .controlFlow ":=_003" 0 "||_001",
    .part "||" "||_001",
    -- The counters take turns until one of them is zero
    .controlFlow "||_001" 0 "++_001",
    .controlFlow "||_001" 1 "--_001",
    .part "++" "++_001",
    .controlFlow "++_001" 0 ":=_004",
    .controlFlow "++_001" 1 "||_001",
    .part "--" "--_001",
    .controlFlow "--_001" 0 ":=_005",
    .controlFlow "--_001" 1 "||_001",
    .part ":=" ":=_004",
    .part ":=" ":=_005",
    -- A counter reads its start, and then its own last value
    .dataFlow ":=_002" "++_001" 0,
    .dataFlow "++_001" "++_001" 0,
    .dataFlow ":=_003" "--_001" 0,
    .dataFlow "--_001" "--_001" 0,
    .dataFlow "0_001" ":=_004" 0,
    .dataFlow "1_001" ":=_005" 0,
    .exposeEntry "1_001",
    .exposeInlet "==0_001" 0 0,
    .exposeInlet ":=_002" 0 0,
    .exposeInlet ":=_003" 0 0,
    .exposeOutlet ":=_001",
    .exposeOutlet ":=_004",
    .exposeOutlet ":=_005",
    .exposeExit ":=_001" 0 0,
    .exposeExit ":=_004" 0 0,
    .exposeExit ":=_005" 0 1]

/-! ## Operations -/

/-- Changes the sign: it counts the input towards zero and the result away from zero at the same
pace. -/
def negation : Specification :=
  .composite "-x" 1 1 [
    .part adder "0_001",
    .part "==0" "==0_001",
    .controlFlow "==0_001" 1 ":=_001",
    .part ":=" ":=_001",
    -- Neither counter has taken a step yet: zero and the input are copied
    .controlFlow "==0_001" 0 ":=_004",
    .part ":=" ":=_004",
    .controlFlow ":=_004" 0 "?+_001",
    .part "?+" "?+_001",
    .controlFlow "?+_001" 0 ":=_002",
    .part ":=" ":=_002",
    .controlFlow "?+_001" 1 ":=_003",
    .part ":=" ":=_003",
    -- One step of the result, and then one of the input
    .controlFlow ":=_002" 0 "+++_001",
    .part "+++" "+++_001",
    .controlFlow ":=_003" 0 "---_001",
    .part "---" "---_001",
    .controlFlow "+++_001" 0 "++_001",
    .part "++" "++_001",
    .controlFlow "---_001" 0 "--_001",
    .part "--" "--_001",
    .controlFlow "++_001" 1 "+++_001",
    .controlFlow "--_001" 1 "---_001",
    .dataFlow "0_001" ":=_004" 0,
    .dataFlow ":=_004" "+++_001" 0,
    .dataFlow ":=_004" "---_001" 0,
    .dataFlow ":=_002" "++_001" 0,
    .dataFlow "++_001" "++_001" 0,
    .dataFlow ":=_003" "--_001" 0,
    .dataFlow "--_001" "--_001" 0,
    .exposeEntry "==0_001",
    .exposeExit ":=_001" 0 0,
    .exposeExit "++_001" 0 0,
    .exposeExit "--_001" 0 0,
    .exposeInlet "==0_001" 0 0,
    .exposeInlet "?+_001" 0 0,
    .exposeInlet ":=_001" 0 0,
    .exposeInlet ":=_002" 0 0,
    .exposeInlet ":=_003" 0 0,
    .exposeOutlet ":=_001",
    .exposeOutlet "+++_001",
    .exposeOutlet "---_001"]

/-- Subtracts the second input from the first: it adds the negation of the second. -/
def difference : Specification :=
  .composite "-" 2 2 [
    .part "-x" "-x_001",
    .part adder "+_001",
    .controlFlow "-x_001" 0 "+_001",
    .dataFlow "-x_001" "+_001" 1,
    .exposeEntry "-x_001",
    .exposeExit "+_001" 0 0,
    .exposeExit "+_001" 1 1,
    .exposeInlet "+_001" 0 0,
    .exposeInlet "-x_001" 0 1,
    .exposeOutlet "+_001"]

/-- Tests two inputs for equality: its output is one and it leaves by the second exit if their
difference is zero; otherwise the output is zero and it leaves by the first. -/
def comparison : Specification :=
  .composite "==" 2 2 [
    .part adder "0_001",
    .part adder "1_001",
    .dataFlow "0_001" "1_001" 0,
    .controlFlow "1_001" 1 "-_001",
    .part "-" "-_001",
    .controlFlow "-_001" 0 ":=_001",
    .part ":=" ":=_001",
    .controlFlow "-_001" 1 ":=_002",
    .part ":=" ":=_002",
    .dataFlow "1_001" ":=_001" 0,
    .dataFlow "0_001" ":=_002" 0,
    .exposeEntry "1_001",
    .exposeExit ":=_002" 0 0,
    .exposeExit ":=_001" 0 1,
    .exposeInlet "-_001" 0 0,
    .exposeInlet "-_001" 1 1,
    .exposeOutlet ":=_001",
    .exposeOutlet ":=_002"]

/-- Multiplies: it adds the second input to a sum as often as the first input says. -/
def product : Specification :=
  .composite "*" 2 1 [
    .part adder "0_001",
    .part adder "0_002",
    .part adder "0_003",
    .controlFlow "0_001" 0 "0_002",
    .controlFlow "0_002" 0 "0_003",
    .controlFlow "0_003" 0 "==_001",
    .part "==" "==_001",
    -- The counter has come to the first input, or the second input is zero
    .controlFlow "==_001" 1 ":=_001",
    .part ":=" ":=_001",
    .controlFlow "==_001" 0 "==_002",
    .part "==" "==_002",
    .controlFlow "==_002" 1 ":=_001",
    .controlFlow "==_002" 0 "+_001",
    .part adder "+_001",
    -- The counter goes on behind a sum that is not zero
    .controlFlow "+_001" 1 "+++_001",
    .part "+++" "+++_001",
    .controlFlow "+++_001" 0 "==_001",
    .dataFlow "0_001" "==_001" 1,
    .dataFlow "0_002" ":=_001" 0,
    .dataFlow "0_003" "==_002" 1,
    .dataFlow "0_002" "+_001" 1,
    .dataFlow "0_001" "+++_001" 0,
    .dataFlow "+_001" ":=_001" 0,
    .dataFlow "+_001" "+_001" 1,
    .dataFlow "+++_001" "==_001" 1,
    .exposeEntry "0_001",
    .exposeExit ":=_001" 0 0,
    .exposeInlet "==_001" 0 0,
    .exposeInlet "==_002" 0 1,
    .exposeInlet "+_001" 0 1,
    .exposeOutlet ":=_001"]

/-! ## Selection -/

/-- Copies one of the two inputs: the first argument names the one that is copied if the first input
is larger than the second, and the other argument the one that is copied otherwise. -/
def selectBySign (identifier : String) (larger other : Nat) : Specification :=
  .composite identifier 2 2 [
    .part "-" "-_001",
    .part "?+" "?+_001",
    .part ":=" ":=_001",
    .part ":=" ":=_002",
    .dataFlow "-_001" "?+_001" 0,
    .exposeInlet ":=_001" 0 other,
    .exposeInlet ":=_002" 0 larger,
    .exposeInlet "-_001" 0 0,
    .exposeInlet "-_001" 1 1,
    .exposeOutlet ":=_001",
    .exposeOutlet ":=_002",
    .exposeExit ":=_001" 0 0,
    .exposeExit ":=_002" 0 1,
    .exposeEntry "-_001",
    .controlFlow "-_001" 0 "?+_001",
    .controlFlow "-_001" 1 "?+_001",
    .controlFlow "?+_001" 0 ":=_001",
    .controlFlow "?+_001" 1 ":=_002"]

/-- The larger of two inputs. -/
def maximum : Specification :=
  selectBySign "max" 0 1

/-- The smaller of two inputs. -/
def minimum : Specification :=
  selectBySign "min" 1 0

/-! ## The library -/

/-- The composites of arithmetic.  Each stands behind those that it is made of. -/
def specifications : List Specification :=
  [increment, decrement, assignment, incrementIterator, decrementIterator, isZero, alternator,
    isPositive, negation, difference, comparison, product, maximum, minimum]

/-- The edits that add arithmetic to a library. -/
def edits : List Library.Edit :=
  specifications.map .add

/-- Adds arithmetic to a library, up to the first identifier that is taken. -/
def install (library : Library) : Library × Except RegistryError Unit :=
  library.editAll edits

/-- The primitives and the composites of arithmetic. -/
def library : Library :=
  (install Library.primitives).1

end TokenNet.Arithmetic
