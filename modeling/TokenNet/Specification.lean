import TokenNet.Directive
import TokenNet.Primitive

/-!
# Specifications

A specification names a kind of node and fixes the number of its inlets and exits.  How such a
node is made is said by its implementations, of which there may be none, one or several: a
primitive, or a blueprint of directives.

A specification whose first implementation is a primitive is *native* and takes no blueprints.
-/

namespace TokenNet

/-- The log of directives that builds a composite. -/
structure Blueprint where
  directives : List Directive := []
deriving DecidableEq, Repr, Inhabited

/-- A log with further directives at its end. -/
def Blueprint.record (blueprint : Blueprint) (directives : List Directive) : Blueprint :=
  { directives := blueprint.directives ++ directives }

/-- A way of making a node. -/
inductive Implementation where
  | native (primitive : Primitive)
  | blueprint (blueprint : Blueprint)
deriving DecidableEq, Repr, Inhabited

/-- A named kind of node with its arity and its implementations. -/
structure Specification where
  identifier : String
  inletCount : Nat
  exitCount : Nat
  implementations : List Implementation := []
deriving DecidableEq, Repr, Inhabited

/-! ## Refusals -/

/-- Why a library or a specification refuses a request. -/
inductive RegistryError where
  /-- The identifier is taken. -/
  | duplicate (identifier : String)
  /-- No specification has the identifier. -/
  | unknown (identifier : String)
  /-- The specification has no implementation at that position. -/
  | outOfRange (identifier : String) (index available : Nat)
  /-- A native specification takes no blueprints. -/
  | native (identifier : String)
deriving DecidableEq, Repr, Inhabited

/-- The wording of a refusal. -/
def RegistryError.message : RegistryError → String
  | duplicate id => s!"specification `{id}` already exists in the library"
  | unknown id => s!"specification `{id}` is not in the library"
  | outOfRange id index available =>
    s!"specification `{id}` has {available} implementation(s), index {index} is out of range"
  | native id => s!"specification `{id}` is native and cannot take program implementations"

namespace Specification

/-! ## Making specifications -/

/-- The specification of a primitive. -/
def ofPrimitive (primitive : Primitive) : Specification where
  identifier := primitive.identifier
  inletCount := primitive.inletCount
  exitCount := primitive.exitCount
  implementations := [.native primitive]

/-- A specification with one blueprint. -/
def composite (identifier : String) (inletCount exitCount : Nat) (log : List Directive) :
    Specification where
  identifier
  inletCount
  exitCount
  implementations := [.blueprint ⟨log⟩]

/-! ## Reading -/

/-- Whether the first implementation is a primitive. -/
def isNative (spec : Specification) : Bool :=
  match spec.implementations with
  | .native _ :: _ => true
  | _ => false

/-- The implementation at a position. -/
def implementation (spec : Specification) (index : Nat) : Except RegistryError Implementation :=
  match spec.implementations[index]? with
  | some implementation => .ok implementation
  | none => .error (.outOfRange spec.identifier index spec.implementations.length)

/-! ## Changing -/

/-- Adds a blueprint behind the other implementations. -/
def addBlueprint (spec : Specification) (log : List Directive) :
    Except RegistryError Specification :=
  if spec.isNative then .error (.native spec.identifier)
  else .ok { spec with implementations := spec.implementations ++ [.blueprint ⟨log⟩] }

/-- Replaces the implementation at a position. -/
def replaceImplementation (spec : Specification) (index : Nat) (implementation : Implementation) :
    Except RegistryError Specification := do
  let _ ← spec.implementation index
  return { spec with implementations := spec.implementations.set index implementation }

/-- Records further directives in the blueprint at a position. -/
def extendBlueprint (spec : Specification) (index : Nat) (log : List Directive) :
    Except RegistryError Specification := do
  match ← spec.implementation index with
  | .blueprint blueprint => spec.replaceImplementation index (.blueprint (blueprint.record log))
  | .native _ => .error (.native spec.identifier)

end Specification

end TokenNet
