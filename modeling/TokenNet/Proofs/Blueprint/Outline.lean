import Mathlib.Data.List.Induction
import TokenNet.Proofs.Blueprint.View

/-!
# Blueprints without a build

What directives will see of a composite can be read off the library, without building anything: the
last part directive with a role says which specification the part is of, and that specification
says how many ports the part has.  Whether the token can enter a part is found by following the
entries that composites expose inward, down to a native node.

## Main definitions

- `Library.cast?`: which specification has a role in a log.
- `Library.Enters`: whether the token can enter a node of a specification.
- `Library.face`, `Library.view`: the face of a node and the view of a composite.
- `Library.appraise`: the issues that a directive raises, given a view.
-/

namespace TokenNet

/-! ## Specifications -/

namespace Specification

/-- The log of the blueprint at a position. -/
def log? (spec : Specification) (index : Nat) : Option (List Directive) :=
  match spec.implementations[index]? with
  | some (.blueprint blueprint) => some blueprint.directives
  | _ => none

/-- The primitive at a position. -/
def primitive? (spec : Specification) (index : Nat) : Option Primitive :=
  match spec.implementations[index]? with
  | some (.native primitive) => some primitive
  | _ => none

/-- The number of inlets of a node: that of the primitive if there is one, otherwise the declared
one. -/
def inletsAt (spec : Specification) (index : Nat) : Nat :=
  ((spec.primitive? index).map Primitive.inletCount).getD spec.inletCount

/-- The number of exits of a node: that of the primitive if there is one, otherwise the declared
one. -/
def exitsAt (spec : Specification) (index : Nat) : Nat :=
  ((spec.primitive? index).map Primitive.exitCount).getD spec.exitCount

theorem primitive?_of_log? {spec : Specification} {index : Nat} {log : List Directive}
    (h : spec.log? index = some log) : spec.primitive? index = none := by
  unfold log? at h
  unfold primitive?
  split at h
  next hblueprint => rw [hblueprint]
  next => cases h

theorem log?_of_primitive? {spec : Specification} {index : Nat} {primitive : Primitive}
    (h : spec.primitive? index = some primitive) : spec.log? index = none := by
  cases hlog : spec.log? index with
  | none => rfl
  | some log => cases (primitive?_of_log? hlog).symm.trans h

theorem implementation_eq_native {spec : Specification} {index : Nat} {primitive : Primitive} :
    spec.implementation index = .ok (.native primitive) ↔
      spec.primitive? index = some primitive := by
  unfold implementation primitive?
  cases spec.implementations[index]? with
  | none => simp
  | some implementation => cases implementation <;> simp

theorem implementation_eq_blueprint {spec : Specification} {index : Nat} {log : List Directive} :
    spec.implementation index = .ok (.blueprint ⟨log⟩) ↔ spec.log? index = some log := by
  unfold implementation log?
  cases spec.implementations[index]? with
  | none => simp
  | some implementation =>
    cases implementation with
    | native primitive => simp
    | blueprint blueprint =>
      obtain ⟨directives⟩ := blueprint
      simp

end Specification

namespace Library

variable (library : Library)

/-! ## Roles -/

/-- The specification of an identifier if a part can be made of it: it is known and has an
implementation. -/
def makeable? (identifier : String) : Option Specification :=
  (library.get? identifier).filter fun spec => !spec.implementations.isEmpty

/-- The specification that a directive brings into a role. -/
def filling? (role : String) : Directive → Option Specification
  | .part specification given => if given = role then library.makeable? specification else none
  | _ => none

/-- The specification that has a role once a log has been carried out: a later part takes the role
over from an earlier one. -/
def cast? (log : List Directive) (role : String) : Option Specification :=
  log.reverse.findSome? (library.filling? role)

@[simp] theorem cast?_nil (role : String) : library.cast? [] role = none := rfl

theorem cast?_append_singleton (log : List Directive) (directive : Directive) (role : String) :
    library.cast? (log ++ [directive]) role =
      (library.filling? role directive).or (library.cast? log role) := by
  simp [cast?, List.findSome?_cons]
  cases library.filling? role directive <;> rfl

/-- Only parts have roles. -/
theorem cast?_filter_parts (log : List Directive) (role : String) :
    library.cast? (log.filter fun directive => directive.phase = .parts) role =
      library.cast? log role := by
  -- From the end, since the last part with a role has it
  induction log using List.reverseRecOn with
  | nil => rfl
  | append_singleton log directive ih =>
    rw [List.filter_append, cast?_append_singleton, ← ih]
    cases directive with
    | part specification given => exact cast?_append_singleton _ _ _ _
    | _ => simp [filling?, Directive.phase]

/-! ## Entries -/

/-- The token can enter a node of a specification, in the implementation at a position. -/
inductive Enters : Specification → Nat → Prop where
  /-- It can enter every native node. -/
  | native {spec : Specification} {index : Nat} {primitive : Primitive}
      (himplementation : spec.primitive? index = some primitive) : Enters spec index
  /-- It can enter a composite that exposes the entry of a part which it can enter. -/
  | exposed {spec part : Specification} {index : Nat} {log : List Directive} {role : String}
      (himplementation : spec.log? index = some log) (hexposed : .exposeEntry role ∈ log)
      (hcast : library.cast? log role = some part) (hpart : Enters part 0) : Enters spec index

variable {library} in
/-- A composite is entered through the entry that it exposes. -/
theorem enters_iff {spec : Specification} {index : Nat} {log : List Directive}
    (hlog : spec.log? index = some log) : library.Enters spec index ↔
      ∃ role part, .exposeEntry role ∈ log ∧ library.cast? log role = some part ∧
        library.Enters part 0 := by
  constructor
  -- Only an entry that a composite exposes lets control in
  · intro h
    cases h with
    | native hprimitive =>
      rw [Specification.primitive?_of_log? hlog] at hprimitive
      cases hprimitive
    | exposed hother hexposed hcast hpart =>
      obtain rfl := Option.some.inj (hother.symm.trans hlog)
      exact ⟨_, _, hexposed, hcast, hpart⟩
  · rintro ⟨role, part, hexposed, hcast, hpart⟩
    exact .exposed hlog hexposed hcast hpart

open Classical in
/-- The face of a node of a specification, in the implementation at a position. -/
@[simps] noncomputable def face (spec : Specification) (index : Nat) : Face where
  inlets := spec.inletsAt index
  exits := spec.exitsAt index
  enters := library.Enters spec index

/-- The view of a composite of a specification whose parts have been made by a log. -/
@[simps] noncomputable def view (spec : Specification) (log : List Directive) : View where
  part? role := (library.cast? log role).map fun part => library.face part 0
  inlets := spec.inletCount
  exits := spec.exitCount

theorem view_filter_parts (spec : Specification) (log : List Directive) :
    library.view spec (log.filter fun directive => directive.phase = .parts) =
      library.view spec log := by
  simp only [view, cast?_filter_parts]

/-! ## Issues -/

/-- The issues of asking for a part in a role that may be taken. -/
def partIssues (taken : Bool) (name specification role : String) : List Issue :=
  match library.get? specification with
  | none => [.unknownSpecification name role specification]
  | some part =>
    if part.implementations.isEmpty then [.missingImplementation name role specification]
    else if taken then [.duplicateRole name role] else []

section

variable {library} {name specification role : String}

/-- A part that can be made raises an issue only if its role is taken. -/
theorem partIssues_of_some {part : Specification} (h : library.makeable? specification = some part)
    (taken : Bool) : library.partIssues taken name specification role =
      if taken then [.duplicateRole name role] else [] := by
  obtain ⟨hget, himplemented⟩ := Option.filter_eq_some_iff.mp h
  unfold partIssues
  simp_all

/-- The role of a part that cannot be made does not matter. -/
theorem partIssues_of_none (h : library.makeable? specification = none) (taken : Bool) :
    library.partIssues taken name specification role =
      library.partIssues false name specification role := by
  unfold partIssues
  unfold makeable? at h
  cases hget : library.get? specification with
  | none => rfl
  | some part => simp_all [Option.filter]

/-- A part that cannot be made meets with objections. -/
theorem objects_partIssues (h : library.makeable? specification = none) (taken : Bool)
    (name role : String) :
    library.partIssues taken name specification role ≠ [] ∧
      ∀ issue ∈ library.partIssues taken name specification role,
        issue.isDuplicateRole = false := by
  unfold makeable? at h
  unfold partIssues
  -- What cannot be made is unknown or empty, and either is objected to
  cases hget : library.get? specification with
  | none => simp [Issue.isDuplicateRole]
  | some part =>
    rw [hget] at h
    have hempty : part.implementations.isEmpty = true := by simpa [Option.filter] using h
    simp [hempty, Issue.isDuplicateRole]

end

/-- The issues that a directive raises in a composite of that view and name. -/
def appraise (view : View) (name : String) : Directive → List Issue
  | .part specification role =>
    library.partIssues (view.part? role).isSome name specification role
  | directive => Directive.issuesOf (directive.examine view name)

end Library

end TokenNet
