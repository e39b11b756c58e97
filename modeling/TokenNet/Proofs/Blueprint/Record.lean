import TokenNet.Network
import TokenNet.Proofs.Blueprint.Staged

/-!
# What a build records

A build carries out one directive after another, those of a part before the directive that asks for
the part.  The *record* of a build lists them in that order, each with the place of its log in the
library and with the issues that it raised.

## Main statements

- `Draft.record`: the record of a build.
- `Draft.replay_part`, `Draft.grow_eq_ok_iff`: what asking for a part and growing a node do.
- `Draft.raised_eq_appraise`: a directive raises what can be read off the view of its composite.
- `Draft.issues_rewire_eq`, `Draft.issues_adopt`: what is raised is what is added to the issues.
-/

namespace TokenNet

/-! ## Steps -/

/-- One directive of a build: under which identifier and in which implementation the library holds
its log, and which issues it raised. -/
structure Step where
  identifier : String
  implementation : Nat
  directive : Directive
  issues : List Issue
deriving DecidableEq, Repr, Inhabited

namespace Library

variable (library : Library)

/-- The part that a directive asks for: the identifier and the specification. -/
def asked? : Directive → Option (String × Specification)
  | .part specification _ => (library.makeable? specification).map fun part => (specification, part)
  | _ => none

/-- What belongs to the part that a directive asks for, if it asks for one. -/
def below {α : Type} (default : α) (ofPart : String → Specification → α) (directive : Directive) :
    α :=
  (library.asked? directive).elim default fun (identifier, part) => ofPart identifier part

variable {library} in
theorem asked?_eq_some_iff {directive : Directive} {identifier : String} {part : Specification} :
    library.asked? directive = some (identifier, part) ↔
      ∃ role, directive = .part identifier role ∧ library.makeable? identifier = some part := by
  cases directive with
  | part specification role =>
    simp only [asked?, Option.map_eq_some_iff, Prod.mk.injEq, Directive.part.injEq]
    constructor
    · rintro ⟨found, hfound, rfl, rfl⟩
      exact ⟨role, ⟨rfl, rfl⟩, hfound⟩
    · rintro ⟨_, ⟨rfl, _⟩, hfound⟩
      exact ⟨part, hfound, rfl, rfl⟩
  | _ => simp [asked?]

/-- Wirings ask for no part. -/
theorem asked?_of_wiring {directive : Directive} (h : directive.phase ≠ .parts) :
    library.asked? directive = none := by
  cases directive with
  | part => exact absurd rfl h
  | _ => rfl

theorem below_of_wiring {α : Type} {default : α} {ofPart : String → Specification → α}
    {directive : Directive} (h : directive.phase ≠ .parts) :
    library.below default ofPart directive = default := by
  rw [below, library.asked?_of_wiring h, Option.elim_none]

theorem below_of_asked {α : Type} {default : α} {ofPart : String → Specification → α}
    {directive : Directive} {identifier : String} {part : Specification}
    (h : library.asked? directive = some (identifier, part)) :
    library.below default ofPart directive = ofPart identifier part := by
  rw [below, h, Option.elim_some]

end Library

/-! ## The record -/

namespace Draft

variable (library : Library)

/-- The issues that a directive of a composite raises on a draft. -/
def raised (composite : NodeId) (name : String) (draft : Draft) : Directive → List Issue
  | .part specification role =>
    library.partIssues (draft.graph.part? composite role).isSome name specification role
  | directive => Directive.issuesOf (directive.resolve draft.graph composite name)

/-- The record of a replay; parts are made and recorded by the given functions. -/
def recordAll (growPart : Grow) (recordPart : String → Specification → Draft → List Step)
    (identifier : String) (index : Nat) (composite : NodeId) (name : String) :
    List Directive → Draft → List Step
  | [], _ => []
  | directive :: rest, draft =>
    let later :=
      match replay library growPart composite name draft directive with
      | .error _ => []
      | .ok draft => recordAll growPart recordPart identifier index composite name rest draft
    library.below [] (fun identifier part => recordPart identifier part draft) directive ++
      ⟨identifier, index, directive, draft.raised library composite name directive⟩ :: later

/-- The record of growing a node of a specification that the library holds under an identifier. -/
def record (traced : Bool) (limit : Nat) :
    Nat → String → Specification → Nat → Draft → List Step
  | 0, _, _, _, _ => []
  | levels + 1, identifier, spec, index, draft =>
    match spec.log? index with
    | none => []
    | some log =>
      let (node, graph) :=
        draft.graph.addComposite spec.identifier spec.inletCount spec.exitCount traced
      recordAll library (fun part draft => grow library traced limit levels part 0 draft)
        (fun identifier part draft => record traced limit levels identifier part 0 draft)
        identifier index node spec.identifier (Directive.replayOrder log)
        { draft with graph }

end Draft

/-- The record of building a network. -/
def Library.record (library : Library) (identifier : String) (options : BuildOptions) : List Step :=
  match library.get? identifier with
  | none => []
  | some spec =>
    Draft.record library options.traced options.limits.nestingLimit
      (options.limits.nestingLimit + 1) identifier spec options.implementation {}

/-- A network is what a build grows in an empty graph. -/
theorem Library.instantiate_eq_ok_iff {library : Library} {identifier : String}
    {options : BuildOptions} {net : Network} : library.instantiate identifier options = .ok net ↔
      ∃ spec root draft, library.get? identifier = some spec ∧
        Draft.grow library options.traced options.limits.nestingLimit
          (options.limits.nestingLimit + 1) spec options.implementation {} = .ok (root, draft) ∧
        net = { graph := draft.graph, root, limits := options.limits, issues := draft.issues } := by
  unfold instantiate build find
  cases library.get? identifier with
  | none => simp
  | some spec =>
    -- The specification is there, so the outcome is that of the growth
    dsimp only
    cases hgrow : Draft.grow library options.traced options.limits.nestingLimit
      (options.limits.nestingLimit + 1) spec options.implementation {} with
    | error failure => simp [hgrow]
    | ok grown =>
      obtain ⟨root, draft⟩ := grown
      simp [hgrow, eq_comm]

/-- A log is recorded in two pieces. -/
theorem Draft.recordAll_append {library : Library} {growPart : Grow}
    {recordPart : String → Specification → Draft → List Step}
    {identifier : String} {index : Nat} {composite : NodeId} {name : String}
    {first second : List Directive} {draft middle : Draft}
    (h : replayAll library growPart composite name first draft = .ok middle) :
    recordAll library growPart recordPart identifier index composite name (first ++ second) draft =
      recordAll library growPart recordPart identifier index composite name first draft ++
        recordAll library growPart recordPart identifier index composite name second middle := by
  induction first generalizing draft with
  | nil =>
    obtain rfl := Except.ok.inj h
    rfl
  | cons directive rest ih =>
    unfold replayAll at h
    split at h
    next => cases h
    -- The rest of the first log is recorded in the graph that its first directive has left
    next replayed hreplay =>
      simp only [List.cons_append, recordAll, hreplay, ih h, List.append_assoc]

/-! ## Single directives -/

namespace Draft

variable {library : Library}

theorem raised_of_wiring {composite : NodeId} {name : String} {draft : Draft}
    {directive : Directive} (h : directive.phase ≠ .parts) :
    draft.raised library composite name directive =
      Directive.issuesOf (directive.resolve draft.graph composite name) := by
  cases directive with
  | part => exact absurd rfl h
  | _ => rfl

/-- A directive raises what can be read off the view of its composite. -/
theorem raised_eq_appraise (library : Library) (composite : NodeId) (name : String) (draft : Draft)
    (directive : Directive) : draft.raised library composite name directive =
      library.appraise (draft.graph.view composite) name directive := by
  have hview := directive.issuesOf_examine draft.graph composite name
  cases directive with
  | part specification role =>
    -- Whether the role is taken does not depend on who has it
    simp only [raised, Library.appraise, Graph.view_part?, Option.isSome_map]
  | _ => exact hview.symm

theorem issues_foldl_skip (issues : List Issue) (draft : Draft) :
    (issues.foldl skip draft).issues.toList = draft.issues.toList ++ issues := by
  induction issues generalizing draft with
  | nil => simp
  | cons first rest ih =>
    rw [List.foldl_cons, ih, skip, Array.toList_push, List.append_assoc, List.singleton_append]

theorem issues_adopt (draft : Draft) (composite : NodeId) (name role : String) (part : NodeId) :
    (draft.adopt composite name role part).issues.toList = draft.issues.toList ++
      if (draft.graph.part? composite role).isSome then [.duplicateRole name role] else [] := by
  unfold adopt
  dsimp only
  split
  next => exact Array.toList_push
  next => exact (List.append_nil _).symm

/-- A directive raises what forbids it. -/
theorem toList_issues_rewire (draft : Draft) (composite : NodeId) (name : String)
    (directive : Directive) : (draft.rewire composite name directive).issues.toList =
      draft.issues.toList ++
        Directive.issuesOf (directive.resolve draft.graph composite name) := by
  unfold rewire
  -- The cases are those of `rewire`: skipped, without effect, carried out
  rcases directive.resolve draft.graph composite name with issues | (_ | rewiring)
  · exact issues_foldl_skip issues draft
  · exact (List.append_nil _).symm
  · exact (List.append_nil _).symm

/-- Wirings raise what is recorded. -/
theorem issues_rewire_eq (library : Library) (draft : Draft) (composite : NodeId) (name : String)
    {directive : Directive} (h : directive.phase ≠ .parts) :
    (draft.rewire composite name directive).issues.toList =
      draft.issues.toList ++ draft.raised library composite name directive := by
  rw [raised_of_wiring h, toList_issues_rewire]

/-- What asking for a part does. -/
theorem replay_part (growPart : Grow) (composite : NodeId) (name specification role : String)
    (draft : Draft) :
    replay library growPart composite name draft (.part specification role) =
      match library.makeable? specification with
      | none => .ok ((library.partIssues false name specification role).foldl skip draft)
      | some part =>
        match growPart part draft with
        | .error failure => .error failure
        | .ok (node, grown) => .ok (grown.adopt composite name role node) := by
  unfold replay Library.makeable? Library.partIssues
  dsimp only
  -- A part cannot be made if it is unknown or has no implementation
  cases library.get? specification with
  | none => rfl
  | some part =>
    cases hempty : part.implementations.isEmpty with
    | true => simp [Option.filter, hempty]
    | false => cases hgrow : growPart part draft <;> simp [Option.filter, hempty, hgrow]

/-- What growing a node does: it adds a native node, or it frames a composite and replays its
log. -/
theorem grow_eq_ok_iff {traced : Bool} {limit levels : Nat} {spec : Specification} {index : Nat}
    {draft draft' : Draft} {node : NodeId} :
    grow library traced limit (levels + 1) spec index draft = .ok (node, draft') ↔
      (∃ primitive, spec.primitive? index = some primitive ∧
        node = (draft.graph.addNative primitive spec.identifier traced).1 ∧
        draft' = { draft with
          graph := (draft.graph.addNative primitive spec.identifier traced).2 }) ∨
      ∃ log, spec.log? index = some log ∧
        node = (draft.graph.addComposite spec.identifier spec.inletCount spec.exitCount
          traced).1 ∧
        replayAll library (fun part draft => grow library traced limit levels part 0 draft) node
          spec.identifier (Directive.replayOrder log) { draft with
            graph := (draft.graph.addComposite spec.identifier spec.inletCount spec.exitCount
              traced).2 } = .ok draft' := by
  constructor
  -- The branches of a growth that succeeds, and what they say of the implementation
  · intro h
    simp only [grow] at h
    split at h
    next => cases h
    next primitive himplementation =>
      obtain ⟨rfl, rfl⟩ := Prod.mk.inj (Except.ok.inj h)
      exact .inl ⟨primitive, Specification.implementation_eq_native.mp himplementation, rfl, rfl⟩
    next blueprint himplementation =>
      obtain ⟨log⟩ := blueprint
      have hlog := Specification.implementation_eq_blueprint.mp himplementation
      split at h
      next => cases h
      next replayed hreplay =>
        obtain ⟨rfl, rfl⟩ := Prod.mk.inj (Except.ok.inj h)
        exact .inr ⟨log, hlog, rfl, hreplay⟩
  · rintro (⟨primitive, hprimitive, rfl, rfl⟩ | ⟨log, hlog, rfl, hreplay⟩)
    · simp only [grow, Specification.implementation_eq_native.mpr hprimitive]
    · simp only [grow, Specification.implementation_eq_blueprint.mpr hlog, hreplay]

end Draft

end TokenNet
