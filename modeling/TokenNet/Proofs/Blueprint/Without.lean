import TokenNet.Proofs.Blueprint.Forecast

/-!
# Blueprints without their bad directives

A directive that cannot be carried out leaves nothing but its issues.  So a library may as well do
without it: if every directive that met with an objection in a build is taken out of its log, the
same build leaves the same graph, and of the issues only those of roles given twice remain.

## Main statements

- `Library.without`: a library without some directives of its blueprints.
- `Trims`: two builds in progress that differ in their issues only.
- `Library.judged_record`: a directive meets with the same objections in every copy of its
  composite.
- `Library.instantiate_without_flagged`: bad directives have no effect but their issues.
-/

namespace TokenNet

/-! ## Leaving directives out -/

/-- An implementation without some directives. -/
def Implementation.without (bad : Directive → Bool) : Implementation → Implementation
  | .native primitive => .native primitive
  | .blueprint ⟨log⟩ => .blueprint ⟨log.filter fun directive => !bad directive⟩

namespace Specification

/-- A specification without some directives of its blueprints, which are told apart by their
positions. -/
def without (bad : Nat → Directive → Bool) (spec : Specification) : Specification :=
  { spec with
    implementations := spec.implementations.mapIdx fun index implementation =>
      implementation.without (bad index) }

variable (bad : Nat → Directive → Bool) (spec : Specification)

@[simp] theorem isEmpty_implementations_without :
    (spec.without bad).implementations.isEmpty = spec.implementations.isEmpty := by
  rw [Bool.eq_iff_iff, List.isEmpty_iff, List.isEmpty_iff]
  exact List.mapIdx_eq_nil_iff

@[simp] theorem primitive?_without (index : Nat) :
    (spec.without bad).primitive? index = spec.primitive? index := by
  unfold primitive? without
  dsimp only
  rw [List.getElem?_mapIdx]
  cases spec.implementations[index]? with
  | none => rfl
  | some implementation => cases implementation <;> rfl

@[simp] theorem log?_without (index : Nat) : (spec.without bad).log? index =
    (spec.log? index).map (List.filter fun directive => !bad index directive) := by
  unfold log? without
  dsimp only
  rw [List.getElem?_mapIdx]
  cases spec.implementations[index]? with
  | none => rfl
  | some implementation => cases implementation <;> rfl

end Specification

namespace Library

/-- A library without some directives of its blueprints, which are told apart by the identifiers
under which the library holds them and by their positions. -/
def without (library : Library) (bad : String → Nat → Directive → Bool) : Library where
  specifications := library.specifications.mapNamed fun identifier spec =>
    spec.without (bad identifier)

variable (library : Library) (bad : String → Nat → Directive → Bool) (identifier : String)

@[simp] theorem get?_without : (library.without bad).get? identifier =
    (library.get? identifier).map (Specification.without (bad identifier)) :=
  Table.get?_mapNamed _ _ _

/-- Parts can be made as before. -/
@[simp] theorem makeable?_without : (library.without bad).makeable? identifier =
    (library.makeable? identifier).map (Specification.without (bad identifier)) := by
  unfold makeable?
  rw [get?_without, Option.filter_map]
  congr 2
  funext spec
  simp

end Library

/-- Taking directives out of a log takes them out of its replay. -/
theorem Directive.replayOrder_filter (keep : Directive → Bool) (log : List Directive) :
    replayOrder (log.filter keep) = (replayOrder log).filter keep := by
  unfold replayOrder
  rw [List.filter_flatMap]
  simp only [List.filter_filter, Bool.and_comm]

/-! ## Objections -/

/-- The issues that forbid a directive. -/
def Issue.objections (issues : List Issue) : List Issue :=
  issues.filter fun issue => !issue.isDuplicateRole

/-- The objections that a directive met with. -/
def Step.objections (step : Step) : List Issue :=
  Issue.objections step.issues

theorem Issue.objections_eq_self {issues : List Issue}
    (h : ∀ issue ∈ issues, issue.isDuplicateRole = false) : objections issues = issues := by
  unfold objections
  rw [List.filter_eq_self]
  intro issue hmem
  rw [h issue hmem]
  rfl

namespace Draft

variable {library : Library} {draft : Draft} {composite : NodeId} {name : String}

/-- A part that is made meets with no objection. -/
theorem objections_raised_of_some {specification role : String} {part : Specification}
    (hmakeable : library.makeable? specification = some part) :
    Issue.objections (draft.raised library composite name (.part specification role)) = [] := by
  unfold raised
  dsimp only
  rw [Library.partIssues_of_some hmakeable]
  split <;> rfl

/-- A part that cannot be made meets with objections. -/
theorem objections_raised_of_none {specification role : String}
    (hmakeable : library.makeable? specification = none) :
    Issue.objections (draft.raised library composite name (.part specification role)) ≠ [] := by
  obtain ⟨hne, hall⟩ := Library.objects_partIssues hmakeable
    (draft.graph.part? composite role).isSome name role
  unfold raised
  dsimp only
  rw [Issue.objections_eq_self hall]
  exact hne

/-- A wiring that is skipped meets with objections. -/
theorem objections_raised_of_error {directive : Directive} (hwiring : directive.phase ≠ .parts)
    {issues : List Issue}
    (hresolve : directive.resolve draft.graph composite name = .error issues) :
    Issue.objections (draft.raised library composite name directive) ≠ [] := by
  obtain ⟨hne, hall⟩ := Directive.Objects.resolve draft.graph composite name directive _ hresolve
  rw [raised_of_wiring hwiring, hresolve]
  unfold Directive.issuesOf
  rw [Issue.objections_eq_self hall]
  exact hne

/-- A wiring that resolves meets with no objection. -/
theorem objections_raised_of_ok {directive : Directive} (hwiring : directive.phase ≠ .parts)
    {rewiring : Option Rewiring}
    (hresolve : directive.resolve draft.graph composite name = .ok rewiring) :
    Issue.objections (draft.raised library composite name directive) = [] := by
  rw [raised_of_wiring hwiring, hresolve]
  rfl

end Draft

/-! ## Two builds -/

/-- Two builds in progress: they have the same graph, and one of them has no other issues than those
of roles given twice. -/
structure Trims (draft trimmed : Draft) : Prop where
  graph : trimmed.graph = draft.graph
  issues : trimmed.issues.toList = draft.issues.toList.filter Issue.isDuplicateRole

namespace Trims

variable {draft trimmed : Draft}

/-- Objections are trimmed. -/
theorem skip (h : Trims draft trimmed) {issues : List Issue}
    (hissues : ∀ issue ∈ issues, issue.isDuplicateRole = false) :
    Trims (issues.foldl Draft.skip draft) trimmed := by
  have hnone : issues.filter Issue.isDuplicateRole = [] := by
    rw [List.filter_eq_nil_iff]
    intro issue hmem
    simp [hissues issue hmem]
  refine ⟨?_, ?_⟩
  · rw [Draft.graph_foldl_skip]
    exact h.graph
  · rw [Draft.issues_foldl_skip, List.filter_append, hnone, List.append_nil]
    exact h.issues

/-- A part takes its role in both. -/
theorem adopt (h : Trims draft trimmed) (composite : NodeId) (name role : String)
    (part : NodeId) :
    Trims (draft.adopt composite name role part) (trimmed.adopt composite name role part) := by
  refine ⟨?_, ?_⟩
  · rw [Draft.graph_adopt, Draft.graph_adopt, h.graph]
  · rw [Draft.issues_adopt, Draft.issues_adopt, h.issues, h.graph, List.filter_append]
    split <;> rfl

/-- A wiring that resolves is carried out in both. -/
theorem rewire (h : Trims draft trimmed) {composite : NodeId} {name : String}
    {directive : Directive} {rewiring : Option Rewiring}
    (hresolve : directive.resolve draft.graph composite name = .ok rewiring) :
    Trims (draft.rewire composite name directive) (trimmed.rewire composite name directive) := by
  unfold Draft.rewire
  rw [h.graph, hresolve]
  cases rewiring with
  | none => exact h
  | some rewiring => exact ⟨rfl, h.issues⟩

end Trims

/-! ## Whole logs -/

/-- A record says which directives are bad. -/
def Judges (bad : String → Nat → Directive → Bool) (steps : List Step) : Prop :=
  ∀ step ∈ steps, bad step.identifier step.implementation step.directive =
    !step.objections.isEmpty

section

variable {library : Library} {bad : String → Nat → Directive → Bool}
  {growPart growPart' : Draft.Grow} {recordPart : String → Specification → Draft → List Step}

/-- Parts are made alike in both builds. -/
def Spares (bad : String → Nat → Directive → Bool) (growPart growPart' : Draft.Grow)
    (recordPart : String → Specification → Draft → List Step) : Prop :=
  ∀ identifier part draft trimmed node grown, Trims draft trimmed →
    growPart part draft = .ok (node, grown) → Judges bad (recordPart identifier part draft) →
    ∃ trimmed', growPart' (part.without (bad identifier)) trimmed = .ok (node, trimmed') ∧
      Trims grown trimmed'

variable {identifier : String} {index : Nat} {composite : NodeId} {name : String}

/-- **A good directive** is carried out in both builds. -/
theorem Spares.replay_good (hspares : Spares bad growPart growPart' recordPart)
    {directive : Directive} {draft draft' trimmed : Draft} (h : Trims draft trimmed)
    (hreplay : Draft.replay library growPart composite name draft directive = .ok draft')
    (hbelow : Judges bad (library.below []
      (fun identifier part => recordPart identifier part draft) directive))
    (hgood : Issue.objections (draft.raised library composite name directive) = []) :
    ∃ trimmed', Draft.replay (library.without bad) growPart' composite name trimmed directive =
      .ok trimmed' ∧ Trims draft' trimmed' := by
  -- Parts are grown in both builds; other directives are resolved in both
  by_cases hwiring : directive.phase = .parts
  · cases directive with
    | part specification role =>
      rw [Draft.replay_part] at hreplay ⊢
      rw [Library.makeable?_without]
      cases hmakeable : library.makeable? specification with
      | none => exact absurd hgood (Draft.objections_raised_of_none hmakeable)
      | some part =>
        rw [hmakeable] at hreplay
        dsimp only [Option.map_some] at hreplay ⊢
        split at hreplay
        next => cases hreplay
        next node grown hgrow =>
          obtain rfl := Except.ok.inj hreplay
          have hasked : library.asked? (.part specification role) = some (specification, part) := by
            rw [Library.asked?, hmakeable, Option.map_some]
          have hrecord : Judges bad (recordPart specification part draft) := by
            rwa [library.below_of_asked hasked] at hbelow
          obtain ⟨trimmed', hgrow', htrims⟩ :=
            hspares specification part draft trimmed node grown h hgrow hrecord
          rw [hgrow']
          exact ⟨_, rfl, htrims.adopt composite name role node⟩
    | _ => cases hwiring
  -- A wiring that raises nothing is resolved, and resolved alike in the smaller build
  · rw [Draft.replay_of_wiring hwiring] at hreplay ⊢
    obtain rfl := Except.ok.inj hreplay
    cases hresolve : directive.resolve draft.graph composite name with
    | error issues => exact absurd hgood (Draft.objections_raised_of_error hwiring hresolve)
    | ok rewiring => exact ⟨_, rfl, h.rewire hresolve⟩

/-- **A bad directive** leaves nothing but its objections. -/
theorem Trims.replay_bad {directive : Directive} {draft draft' trimmed : Draft}
    (h : Trims draft trimmed)
    (hreplay : Draft.replay library growPart composite name draft directive = .ok draft')
    (hbad : Issue.objections (draft.raised library composite name directive) ≠ []) :
    Trims draft' trimmed := by
  -- A bad part is unknown or has no implementation; another bad directive does not resolve
  by_cases hwiring : directive.phase = .parts
  · cases directive with
    | part specification role =>
      rw [Draft.replay_part] at hreplay
      cases hmakeable : library.makeable? specification with
      | none =>
        rw [hmakeable] at hreplay
        obtain rfl := Except.ok.inj hreplay
        exact h.skip (Library.objects_partIssues hmakeable false _ _).2
      | some part => exact absurd (Draft.objections_raised_of_some hmakeable) hbad
    | _ => cases hwiring
  · rw [Draft.replay_of_wiring hwiring] at hreplay
    obtain rfl := Except.ok.inj hreplay
    cases hresolve : directive.resolve draft.graph composite name with
    | error issues =>
      unfold Draft.rewire
      rw [hresolve]
      exact h.skip (Directive.Objects.resolve _ composite name directive issues hresolve).2
    | ok rewiring => exact absurd (Draft.objections_raised_of_ok hwiring hresolve) hbad

theorem judges_append {steps steps' : List Step} :
    Judges bad (steps ++ steps') ↔ Judges bad steps ∧ Judges bad steps' :=
  List.forall_mem_append

theorem judges_cons {step : Step} {steps : List Step} : Judges bad (step :: steps) ↔
    (bad step.identifier step.implementation step.directive = !step.objections.isEmpty) ∧
      Judges bad steps :=
  List.forall_mem_cons

/-- **A log without its bad directives** does what the whole log does, by induction on the log. -/
theorem Spares.replayAll (hspares : Spares bad growPart growPart' recordPart) :
    ∀ (rest : List Directive) {draft draft' trimmed : Draft}, Trims draft trimmed →
    Draft.replayAll library growPart composite name rest draft = .ok draft' →
    Judges bad (Draft.recordAll library growPart recordPart identifier index composite name rest
      draft) →
    ∃ trimmed', Draft.replayAll (library.without bad) growPart' composite name
        (rest.filter fun directive => !bad identifier index directive) trimmed = .ok trimmed' ∧
      Trims draft' trimmed'
  | [], draft, draft', trimmed, h, hreplay, _ => by
    obtain rfl := Except.ok.inj hreplay
    exact ⟨trimmed, rfl, h⟩
  | directive :: rest, draft, draft', trimmed, h, hreplay, hjudges => by
    unfold Draft.replayAll at hreplay
    split at hreplay
    next => cases hreplay
    next middle hfirst =>
      unfold Draft.recordAll at hjudges
      rw [hfirst, judges_append, judges_cons] at hjudges
      obtain ⟨hbelow, hjudged, hlater⟩ := hjudges
      dsimp only [Step.objections] at hjudged
      cases hobjections : Issue.objections (draft.raised library composite name directive) with
      | nil =>
        -- The directive is kept, and both builds take a step
        rw [hobjections] at hjudged
        obtain ⟨trimmed', hfirst', htrims⟩ := hspares.replay_good h hfirst hbelow hobjections
        rw [List.filter_cons_of_pos (by simp [hjudged]), Draft.replayAll, hfirst']
        exact Spares.replayAll hspares rest htrims hreplay hlater
      | cons issue issues =>
        -- The directive is left out, and only the whole build takes a step
        rw [hobjections] at hjudged
        have htrims := h.replay_bad hfirst (by simp [hobjections])
        rw [List.filter_cons_of_neg (by simp [hjudged])]
        exact Spares.replayAll hspares rest htrims hreplay hlater

end

/-! ## Whole builds -/

/-- **A node without bad directives** is grown like the whole one, by induction on the levels that
may be nested. -/
theorem Draft.spares_grow {library : Library} {bad : String → Nat → Directive → Bool}
    {traced : Bool} {limit : Nat} :
    ∀ (levels : Nat) {identifier : String} {spec : Specification} {index : Nat}
      {draft trimmed : Draft} {node : NodeId} {draft' : Draft}, Trims draft trimmed →
    grow library traced limit levels spec index draft = .ok (node, draft') →
    Judges bad (record library traced limit levels identifier spec index draft) →
    ∃ trimmed', grow (library.without bad) traced limit levels (spec.without (bad identifier)) index
      trimmed = .ok (node, trimmed') ∧ Trims draft' trimmed'
  | 0, _, _, _, _, _, _, _, _, h, _ => by simp [grow] at h
  | levels + 1, identifier, spec, index, draft, trimmed, node, draft', htrims, h, hjudges => by
    have hstart (graph : Graph) : Trims { draft with graph } { trimmed with graph } :=
      ⟨rfl, htrims.issues⟩
    rcases grow_eq_ok_iff.mp h with ⟨primitive, hprimitive, rfl, rfl⟩ | ⟨log, hlog, rfl, hreplay⟩
    · have hprimitive' : (spec.without (bad identifier)).primitive? index = some primitive := by
        rw [Specification.primitive?_without, hprimitive]
      rw [← htrims.graph]
      exact ⟨_, grow_eq_ok_iff.mpr (.inl ⟨primitive, hprimitive', rfl, rfl⟩), hstart _⟩
    · have hlog' : (spec.without (bad identifier)).log? index =
          some (log.filter fun directive => !bad identifier index directive) := by
        rw [Specification.log?_without, hlog, Option.map_some]
      -- The parts are spared with one level less
      have hspares : Spares bad (fun part draft => grow library traced limit levels part 0 draft)
          (fun part draft => grow (library.without bad) traced limit levels part 0 draft)
          (fun identifier part draft =>
            record library traced limit levels identifier part 0 draft) :=
        fun _ _ _ _ _ _ => spares_grow levels
      simp only [record, hlog] at hjudges
      obtain ⟨trimmed', hreplay', htrims'⟩ := hspares.replayAll _ (hstart _) hreplay hjudges
      rw [← Directive.replayOrder_filter] at hreplay'
      rw [← htrims.graph] at hreplay' ⊢
      exact ⟨trimmed', grow_eq_ok_iff.mpr (.inr ⟨_, hlog', rfl, hreplay'⟩), htrims'⟩

/-! ## Judgement -/

namespace Library

/-- The objections that a directive meets with in every copy of its composite. -/
noncomputable def objectionsTo (library : Library) (identifier : String) (index : Nat)
    (directive : Directive) : List Issue :=
  match library.get? identifier with
  | none => []
  | some spec =>
    match spec.log? index with
    | none => []
    | some log => Issue.objections
      (library.appraise (library.view spec log) spec.identifier directive)

/-- Steps whose objections are those of the library. -/
def Judged (library : Library) (steps : List Step) : Prop :=
  ∀ step ∈ steps,
    step.objections = library.objectionsTo step.identifier step.implementation step.directive

section

variable {library : Library}

/-- Whether a role is taken does not matter to the objections. -/
theorem objections_partIssues (taken taken' : Bool) (name specification role : String) :
    Issue.objections (library.partIssues taken name specification role) =
      Issue.objections (library.partIssues taken' name specification role) := by
  cases hmakeable : library.makeable? specification with
  | none => rw [partIssues_of_none hmakeable taken, partIssues_of_none hmakeable taken']
  | some part =>
    rw [partIssues_of_some hmakeable, partIssues_of_some hmakeable]
    -- That a role is taken is no objection
    cases taken <;> cases taken' <;> rfl

variable {forecastPart : String → Specification → Option (List Step)}
  (hpart : ∀ identifier part nested, library.get? identifier = some part →
    forecastPart identifier part = some nested → library.Judged nested)
  {identifier : String} {index : Nat} {spec : Specification} {log : List Directive}

include hpart in
theorem judged_below {directive : Directive} {nested : List Step}
    (h : library.below (some []) forecastPart directive = some nested) :
    library.Judged nested := by
  cases hasked : library.asked? directive with
  | none =>
    rw [below, hasked] at h
    obtain rfl := Option.some.inj h
    exact List.forall_mem_nil _
  | some asked =>
    rw [library.below_of_asked hasked] at h
    obtain ⟨_, _, hmakeable⟩ := asked?_eq_some_iff.mp hasked
    exact hpart _ _ nested (Option.filter_eq_some_iff.mp hmakeable).1 h

include hpart in
theorem judged_forecastParts (hget : library.get? identifier = some spec)
    (hlog : spec.log? index = some log) : ∀ (rest made : List Directive) {steps : List Step},
    (∀ directive ∈ rest, directive.phase = .parts) →
    library.forecastParts forecastPart identifier index spec made rest = some steps →
    library.Judged steps
  | [], made, steps, _, h => by
    obtain rfl := Option.some.inj h
    exact List.forall_mem_nil _
  | directive :: rest, made, steps, hphase, h => by
    obtain ⟨nested, later, hnested, hlater, rfl⟩ := forecastParts_cons.mp h
    have hrest := judged_forecastParts hget hlog rest _
      (fun later hmem => hphase later (List.mem_cons_of_mem _ hmem)) hlater
    -- The first directive is judged by what is below it and by its own objections
    refine List.forall_mem_append.mpr ⟨judged_below hpart hnested,
      List.forall_mem_cons.mpr ⟨?_, hrest⟩⟩
    cases directive with
    | part specification role =>
      simp only [Step.objections, objectionsTo, hget, hlog, appraise]
      exact objections_partIssues _ _ _ _ _
    | _ => cases hphase _ List.mem_cons_self

include hpart in
theorem judged_forecastLog (hget : library.get? identifier = some spec)
    (hlog : spec.log? index = some log) {steps : List Step}
    (h : library.forecastLog forecastPart identifier index spec log = some steps) :
    library.Judged steps := by
  obtain ⟨parts, hparts, rfl⟩ := forecastLog_eq_some_iff.mp h
  refine List.forall_mem_append.mpr ⟨judged_forecastParts hpart hget hlog _ [] (by simp) hparts,
    List.forall_mem_map.mpr fun directive _ => ?_⟩
  simp only [Step.objections, objectionsTo, hget, hlog]

end

/-- **A forecast judges every directive as the library does**, wherever it stands. -/
theorem judged_forecast {library : Library} : ∀ (levels : Nat) {identifier : String}
    {spec : Specification} {index : Nat} {steps : List Step},
    library.get? identifier = some spec →
    library.forecast levels identifier spec index = some steps → library.Judged steps
  | 0, _, _, _, _, _, h => by cases h
  | levels + 1, identifier, spec, index, steps, hget, h => by
    unfold forecast at h
    split at h
    next =>
      obtain rfl := Option.some.inj h
      exact List.forall_mem_nil _
    next log hlog =>
      exact judged_forecastLog (fun _ _ _ => judged_forecast levels) hget hlog h

end Library

/-! ## Networks -/

/-- Whether a directive of a log met with an objection in one of the steps. -/
def flagged (steps : List Step) (identifier : String) (index : Nat) (directive : Directive) :
    Bool :=
  steps.any fun step => step.identifier = identifier && step.implementation = index &&
    step.directive = directive && !step.objections.isEmpty

/-- A directive that is judged alike everywhere is flagged by its own steps. -/
theorem judges_flagged {library : Library} {steps : List Step} (h : library.Judged steps) :
    Judges (flagged steps) steps := by
  intro step hstep
  rw [Bool.eq_iff_iff]
  constructor
  · intro hflagged
    obtain ⟨other, hother, hsame⟩ := List.any_eq_true.mp hflagged
    simp only [Bool.and_eq_true, decide_eq_true_eq] at hsame
    obtain ⟨⟨⟨hidentifier, hindex⟩, hdirective⟩, hobjections⟩ := hsame
    -- The other step is of the same directive, so the library objects to this one, too
    rwa [h other hother, hidentifier, hindex, hdirective, ← h step hstep] at hobjections
  · intro hobjections
    refine List.any_eq_true.mpr ⟨step, hstep, ?_⟩
    simpa using hobjections

namespace Library

variable {library : Library} {identifier : String} {options : BuildOptions} {net : Network}

theorem judged_record (h : library.instantiate identifier options = .ok net) :
    library.Judged (library.record identifier options) := by
  obtain ⟨_, spec, hget, hforecast⟩ := foreseen_of_instantiate h
  exact judged_forecast _ hget hforecast

/-- **Bad directives have no effect but their issues.**  The issues of a network are those of the
steps of its build, in order.  Steps of the same directive met with the same objections.  And
without the directives that met with objections, the build leaves the same network, of whose issues
those of roles given twice remain. -/
theorem instantiate_without_flagged (h : library.instantiate identifier options = .ok net) :
    net.issues.toList = (library.record identifier options).flatMap Step.issues ∧
      (∀ step ∈ library.record identifier options, ∀ other ∈ library.record identifier options,
        step.identifier = other.identifier → step.implementation = other.implementation →
        step.directive = other.directive → step.objections = other.objections) ∧
      (library.without (flagged (library.record identifier options))).instantiate identifier
        options = .ok { net with issues := net.issues.filter Issue.isDuplicateRole } := by
  have hjudged := judged_record h
  refine ⟨(foreseen_of_instantiate h).1, ?_, ?_⟩
  · intro step hstep other hother hidentifier hindex hdirective
    rw [hjudged step hstep, hjudged other hother, hidentifier, hindex, hdirective]
  · have hjudges := judges_flagged hjudged
    -- From here on it only matters that the flagged directives are the ones that were objected to
    generalize flagged (library.record identifier options) = bad at hjudges ⊢
    obtain ⟨spec, root, draft, hget, hgrow, rfl⟩ := instantiate_eq_ok_iff.mp h
    have hrecord : library.record identifier options =
        Draft.record library options.traced options.limits.nestingLimit
          (options.limits.nestingLimit + 1) identifier spec options.implementation {} := by
      unfold record
      rw [hget]
    rw [hrecord] at hjudges
    obtain ⟨trimmed, hgrow', hgraph, hissues⟩ := Draft.spares_grow _ ⟨rfl, rfl⟩ hgrow hjudges
    rw [instantiate_eq_ok_iff]
    refine ⟨spec.without (bad identifier), root, trimmed, ?_, hgrow', ?_⟩
    · rw [get?_without, hget, Option.map_some]
    · have hsame : trimmed.issues = draft.issues.filter Issue.isDuplicateRole := by
        rw [← Array.toList_inj, hissues, Array.toList_filter]
      rw [hgraph, hsame]

/-- A library with a composite two of whose directives, a part and a wiring, are bad, and in which a
role is given twice; another composite has it as a part in two roles. -/
def twins : Library where
  specifications :=
    (primitives.specifications.insert "sloppy" (.composite "sloppy" 1 1
      [.part "+" "a", .part "missing" "b", .part "!" "a", .exposeInlet "a" 0 3, .exposeExit "a" 0 0,
        .exposeEntry "a"])).insert "twins" (.composite "twins" 0 1
      [.part "sloppy" "left", .part "sloppy" "right", .controlFlow "left" 0 "right",
        .exposeExit "right" 0 0, .exposeEntry "left"])

/-- The network of the twins. -/
def twinsNetwork : Network :=
  (twins.instantiate "twins" {}).toOption.getD default

/-- The twins have three issues each, two of them objections. -/
theorem instantiate_twins : twins.instantiate "twins" {} = .ok twinsNetwork ∧
    twinsNetwork.issues.size = 6 ∧
    (twins.without (flagged (twins.record "twins" {}))).instantiate "twins" {} =
      .ok { twinsNetwork with
        issues := #[.duplicateRole "sloppy" "a", .duplicateRole "sloppy" "a"] } := by
  have hbuild : twins.instantiate "twins" {} = .ok twinsNetwork := by decide +kernel
  have hduplicates : twinsNetwork.issues.filter Issue.isDuplicateRole =
      #[.duplicateRole "sloppy" "a", .duplicateRole "sloppy" "a"] := by decide +kernel
  refine ⟨hbuild, by decide +kernel, ?_⟩
  rw [← hduplicates]
  exact (instantiate_without_flagged hbuild).2.2

end Library

end TokenNet
