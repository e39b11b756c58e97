import TokenNet.Notice
import TokenNet.Specification
import TokenNet.Table

/-!
# Libraries

A library holds specifications under their identifiers.  The first specification of an identifier
stays; everything that changes a library afterwards is an *edit*, and an edit that is refused
changes nothing.
-/

namespace TokenNet

/-- Specifications under their identifiers. -/
structure Library where
  specifications : Table Specification := {}
deriving DecidableEq, Repr, Inhabited

namespace Library

/-! ## Reading -/

/-- The specification of an identifier, if there is one. -/
def get? (library : Library) (identifier : String) : Option Specification :=
  library.specifications.get? identifier

/-- The specification of an identifier. -/
def find (library : Library) (identifier : String) : Except RegistryError Specification :=
  match library.get? identifier with
  | some spec => .ok spec
  | none => .error (.unknown identifier)

/-- Whether a specification has the identifier. -/
def contains (library : Library) (identifier : String) : Bool :=
  library.specifications.contains identifier

/-- The number of specifications. -/
def size (library : Library) : Nat :=
  library.specifications.size

/-- The specifications in ascending order of their identifiers. -/
def sorted (library : Library) : List Specification :=
  library.specifications.sorted.map Prod.snd

/-! ## Editing -/

/-- Adds a specification unless its identifier is taken. -/
def add (library : Library) (spec : Specification) : Except RegistryError Library :=
  if library.contains spec.identifier then .error (.duplicate spec.identifier)
  else .ok { specifications := library.specifications.insert spec.identifier spec }

/-- Changes the specification of an identifier in a way that may be refused. -/
def update (library : Library) (identifier : String)
    (change : Specification → Except RegistryError Specification) :
    Except RegistryError Library := do
  let spec ← change (← library.find identifier)
  return { specifications := library.specifications.insert identifier spec }

/-- A change of a library. -/
inductive Edit where
  /-- Adds a specification. -/
  | add (spec : Specification)
  /-- Adds a blueprint to a specification. -/
  | addBlueprint (identifier : String) (log : List Directive)
  /-- Records further directives in a blueprint of a specification. -/
  | extendBlueprint (identifier : String) (index : Nat) (log : List Directive)
  /-- Replaces an implementation of a specification. -/
  | replaceImplementation (identifier : String) (index : Nat) (implementation : Implementation)
deriving Repr, Inhabited

/-- Carries an edit out. -/
def edit (library : Library) : Edit → Except RegistryError Library
  | .add spec => library.add spec
  | .addBlueprint id log => library.update id fun spec => spec.addBlueprint log
  | .extendBlueprint id index log => library.update id fun spec => spec.extendBlueprint index log
  | .replaceImplementation id index implementation =>
    library.update id fun spec => spec.replaceImplementation index implementation

/-- Carries edits out in order, up to the first that is refused. -/
def editAll (library : Library) : List Edit → Library × Except RegistryError Unit
  | [] => (library, .ok ())
  | first :: rest =>
    match library.edit first with
    | .ok library => library.editAll rest
    | .error refusal => (library, .error refusal)

/-! ## Notices -/

/-- What looking an identifier up reports. -/
def findNotices (library : Library) (identifier : String) : List Notice :=
  match library.get? identifier with
  | some _ => []
  | none => [.missing identifier]

/-- What looking an implementation up reports. -/
def implementationNotices (spec : Specification) (index : Nat) : List Notice :=
  match spec.implementation index with
  | .ok _ => []
  | .error _ => [.noImplementation spec.identifier index spec.implementations.length]

/-- What an edit reports. -/
def editNotices (library : Library) : Edit → List Notice
  | .add spec =>
    if library.contains spec.identifier then [.kept spec.identifier] else [.added spec.identifier]
  | .addBlueprint id _ =>
    match library.get? id with
    | some spec => if spec.isNative then [.closed spec.identifier] else []
    | none => [.missing id]
  | .extendBlueprint id _ _ => library.findNotices id
  | .replaceImplementation id _ _ => library.findNotices id

/-- What a sequence of edits reports, up to the first that is refused. -/
def editAllNotices (library : Library) : List Edit → List Notice
  | [] => []
  | first :: rest =>
    library.editNotices first ++
      match library.edit first with
      | .ok library => library.editAllNotices rest
      | .error _ => []

/-! ## First libraries -/

/-- The library without specifications. -/
def empty : Library := {}

/-- The library of the primitives. -/
def primitives : Library :=
  { specifications := Primitive.all.foldl
      (fun table primitive =>
        table.insert primitive.identifier (Specification.ofPrimitive primitive)) {} }

end Library

end TokenNet
