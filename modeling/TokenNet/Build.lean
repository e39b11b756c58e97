import TokenNet.Library
import TokenNet.Rewiring

/-!
# Builds

A build replays blueprints into a graph.  Nodes are made depth first: before a composite is wired,
each of its parts has been made and wired completely.

Only two things abort a build: an implementation of the root that does not exist, and a part
nested deeper than the limit.  Everything else that cannot be done is skipped and recorded as an
issue.  A specification that contains itself nests without end, so the limit is also what makes
every build finite.
-/

namespace TokenNet

/-- Why a build is aborted. -/
inductive BuildError where
  | registry (refusal : RegistryError)
  /-- A node of the specification would stand deeper than the limit. -/
  | nestingTooDeep (identifier : String) (limit : Nat)
deriving DecidableEq, Repr, Inhabited

/-- The wording of an aborted build. -/
def BuildError.message : BuildError → String
  | registry refusal => s!"cannot instantiate: {refusal.message}"
  | nestingTooDeep id limit => s!"instantiating `{id}` nests programs deeper than {limit} levels"

/-- An aborted build and what was reported before. -/
structure BuildFailure where
  error : BuildError
  notices : Array Notice
deriving DecidableEq, Repr, Inhabited

/-- A build in progress: the graph so far, the issues so far, and all that was reported. -/
structure Draft where
  graph : Graph := {}
  issues : Array Issue := #[]
  notices : Array Notice := #[]
deriving DecidableEq, Repr, Inhabited

namespace Draft

/-! ## Single directives -/

/-- Records an issue. -/
def skip (draft : Draft) (issue : Issue) : Draft :=
  { draft with issues := draft.issues.push issue, notices := draft.notices.push (.skipped issue) }

/-- Carries a directive that wires out, or records the issues that forbid it. -/
def rewire (draft : Draft) (composite : NodeId) (name : String) (directive : Directive) : Draft :=
  match directive.resolve draft.graph composite name with
  | .error issues => issues.foldl skip draft
  | .ok none => draft
  | .ok (some rewiring) =>
    let reported := rewiring.notices draft.graph
    { draft with graph := rewiring.apply draft.graph, notices := draft.notices.appendList reported }

/-- Gives a finished part its role.  If the role was taken, the part takes it over. -/
def adopt (draft : Draft) (composite : NodeId) (name role : String) (part : NodeId) : Draft :=
  -- The part takes the role in any case, and the issue comes after it
  let taken := (draft.graph.part? composite role).isSome
  let draft := { draft with graph := draft.graph.adopt composite role part }
  if taken then draft.skip (.duplicateRole name role) else draft

/-- How the parts of a composite are made. -/
abbrev Grow := Specification → Draft → Except BuildFailure (NodeId × Draft)

/-- Carries a directive out; parts are made by the given function. -/
def replay (library : Library) (grow : Grow) (composite : NodeId) (name : String) (draft : Draft)
    (directive : Directive) : Except BuildFailure Draft :=
  match directive with
  | .part specification role =>
    match library.get? specification with
    | none => .ok (draft.skip (.unknownSpecification name role specification))
    | some spec =>
      if spec.implementations.isEmpty then
        .ok (draft.skip (.missingImplementation name role specification))
      else
        -- When growing the part fails, the whole build does
        match grow spec draft with
        | .error failure => .error failure
        | .ok (part, draft) => .ok (draft.adopt composite name role part)
  | directive => .ok (draft.rewire composite name directive)

/-- Carries the directives of a log out in the given order. -/
def replayAll (library : Library) (grow : Grow) (composite : NodeId) (name : String) :
    List Directive → Draft → Except BuildFailure Draft
  | [], draft => .ok draft
  | directive :: rest, draft =>
    match replay library grow composite name draft directive with
    | .error failure => .error failure
    | .ok draft => replayAll library grow composite name rest draft

/-! ## Whole nodes -/

/-- Adds a node of a specification with everything below it, in the implementation at a position.
The first number says how many more levels may be nested, this one included; `limit` is the
limit that an abort names. -/
def grow (library : Library) (traced : Bool) (limit : Nat) :
    Nat → Specification → Nat → Draft → Except BuildFailure (NodeId × Draft)
  | 0, spec, _, draft => .error ⟨.nestingTooDeep spec.identifier limit, draft.notices⟩
  | levels + 1, spec, index, draft =>
    match spec.implementation index with
    | .error refusal =>
      .error ⟨.registry refusal, draft.notices.appendList (Library.implementationNotices spec index)⟩
    | .ok (.native primitive) =>
      let (node, graph) := draft.graph.addNative primitive spec.identifier traced
      .ok (node, { draft with graph })
    | .ok (.blueprint blueprint) =>
      let (node, graph) :=
        draft.graph.addComposite spec.identifier spec.inletCount spec.exitCount traced
      -- Parts are always made in their first implementation, one level further down
      let growPart : Grow := fun part draft => grow library traced limit levels part 0 draft
      match replayAll library growPart node spec.identifier
          (Directive.replayOrder blueprint.directives) { draft with graph } with
      | .error failure => .error failure
      | .ok draft => .ok (node, draft)

end Draft

/-! ## Builds of a library -/

namespace Library

/-- Builds a node of the specification of an identifier in an empty graph. -/
def build (library : Library) (identifier : String) (index nestingLimit : Nat) (traced : Bool) :
    Except BuildFailure (NodeId × Draft) :=
  match library.find identifier with
  | .error refusal => .error ⟨.registry refusal, #[.missing identifier]⟩
  | .ok spec => Draft.grow library traced nestingLimit (nestingLimit + 1) spec index {}

end Library

end TokenNet
