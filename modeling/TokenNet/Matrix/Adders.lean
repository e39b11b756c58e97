import TokenNet.Batch
import TokenNet.Failure
import TokenNet.Matrix.Basic

/-!
# Adder matrices

Two matrices describe a network of n adders with two inputs, one output and two exits.

* The **control matrix** has n + 2 rows and 2n + 1 columns.  Column 2k + o says where the token goes
  from exit o of adder k: to the adder of a marked row, or out of the network by its first or second
  exit if one of the last two rows is marked.  The last column marks the adders at which the token
  may enter; the last of them counts.
* The **data matrix** has 2n + 1 rows and n + 2 columns.  Row 2i + k lists what is wired into inlet
  k of adder i: the outlets of the adders of marked columns, and the first or second input of the
  network if one of the last two columns is marked.  The last row marks the adders whose outlets
  are relayed to the output.
-/

namespace TokenNet.Matrix

/-- The identifier of the specification of an adder network. -/
def addersIdentifier : String := "bug_program"

/-- The role of an adder. -/
def adderRole (index : Nat) : String :=
  Primitive.adder.identifier ++ "_" ++ toString index

/-! ## Control -/

/-- The directive of a marked cell of the control matrix: an edge to an adder, or out of the
network. -/
def controlDirective (innerRows row column : Nat) : Directive :=
  let source := adderRole (column / 2)
  if row < innerRows then .controlFlow source (column % 2) (adderRole row)
  else .exposeExit source (column % 2) (if row = innerRows then 0 else 1)

/-- The directives of the edges of a control matrix, row by row. -/
def controlEdges (control : Matrix) : List Directive :=
  let innerRows := control.length - 2
  let innerColumns := control.columns - 1
  (List.range control.length).flatMap fun row =>
    (control.markedColumns row innerColumns).map (controlDirective innerRows row)

/-- The directives of the marked cells of the last column of a control matrix. -/
def controlEntries (control : Matrix) : List Directive :=
  match control.columns with
  | 0 => []
  | last + 1 =>
    (positions (control.length - 2) fun row => control.marked row last).map fun row =>
      .exposeEntry (adderRole row)

/-! ## Data -/

/-- The directive of a marked cell of the data matrix: an edge from an adder, or from an input of
the network. -/
def dataDirective (innerColumns row column : Nat) : Directive :=
  let target := adderRole (row / 2)
  if column < innerColumns then .dataFlow (adderRole column) target (row % 2)
  else .exposeInlet target (row % 2) (if column = innerColumns then 0 else 1)

/-- The directives of the edges of a data matrix, row by row. -/
def dataEdges (data : Matrix) : List Directive :=
  let innerColumns := data.columns - 2
  (List.range (data.length - 1)).flatMap fun row =>
    (data.markedColumns row data.columns).map (dataDirective innerColumns row)

/-- The directives of the marked cells of the last row of a data matrix. -/
def dataOutputs (data : Matrix) : List Directive :=
  match data.length with
  | 0 => []
  | last + 1 =>
    (data.markedColumns last (data.columns - 2)).map fun column => .exposeOutlet (adderRole column)

/-! ## The network of two matrices -/

/-- The specification of the network of a number of adders and two matrices. -/
def addersSpecification (count : Nat) (control data : Matrix) : Specification :=
  let adders : List Directive := (List.range count).map fun index =>
    .part Primitive.adder.identifier (adderRole index)
  .composite addersIdentifier 2 2
    (adders ++ controlEdges control ++ controlEntries control ++ dataEdges data ++ dataOutputs data)

/-- The network of a number of adders and two matrices. -/
def addersNetwork (count : Nat) (control data : Matrix) (limits : Limits) :
    Except BuildError Network :=
  (addersSpecification count control data).instantiateAlone limits

/-- Builds the network of two matrices and runs it on cases. -/
def runAdders (count : Nat) (control data : Matrix) (cases : List (List Value)) (limits : Limits) :
    Except BuildError (List Report) :=
  (addersNetwork count control data limits).map fun net => (net.runCases false cases).2

end TokenNet.Matrix
