import TokenNet.Proofs.Blueprint.Record

/-!
# Forecasts

The record of a build can be *forecast* from the library alone: a directive raises the same issues
wherever its composite stands and whatever has been built before.  The forecast follows the nesting
of the parts, as the build does, so it is made for a number of levels.

## Main statements

- `Library.forecast`: what a build will record.
- `Draft.grown_of_grow`: a build records what was forecast, its issues are the recorded ones, and it
  leaves a node with the face that the library gives it.
-/

namespace TokenNet

/-! ## The forecast -/

namespace Directive

/-- The directives of a log that wire, in the order in which they are replayed. -/
def wirings (log : List Directive) : List Directive :=
  [Phase.flow, .inlets, .outlet, .exits, .entry].flatMap fun phase =>
    log.filter fun directive => directive.phase = phase

/-- A log is replayed part by part first. -/
theorem replayOrder_eq (log : List Directive) : replayOrder log =
    (log.filter fun directive => directive.phase = .parts) ++ wirings log :=
  rfl

theorem mem_wirings {log : List Directive} {directive : Directive} :
    directive ∈ wirings log ↔ directive ∈ log ∧ directive.phase ≠ .parts := by
  simp only [wirings, List.mem_flatMap, List.mem_filter, decide_eq_true_eq]
  cases hphase : directive.phase <;> simp

end Directive

namespace Library

variable (library : Library)

/-- What the directives that make the parts of a composite will record, after some others. -/
noncomputable def forecastParts (forecastPart : String → Specification → Option (List Step))
    (identifier : String) (index : Nat) (spec : Specification) :
    List Directive → List Directive → Option (List Step)
  | _, [] => some []
  | made, directive :: rest => do
    let below ← library.below (some []) forecastPart directive
    let later ← forecastParts forecastPart identifier index spec (made ++ [directive]) rest
    return below ++ ⟨identifier, index, directive,
      library.appraise (library.view spec made) spec.identifier directive⟩ :: later

/-- What a log will record. -/
noncomputable def forecastLog (forecastPart : String → Specification → Option (List Step))
    (identifier : String) (index : Nat) (spec : Specification) (log : List Directive) :
    Option (List Step) := do
  let parts ← library.forecastParts forecastPart identifier index spec []
    (log.filter fun directive => directive.phase = .parts)
  return parts ++ (Directive.wirings log).map fun directive => ⟨identifier, index, directive,
    library.appraise (library.view spec log) spec.identifier directive⟩

/-- What a build will record that nests no deeper than a number of levels; nothing if it does. -/
noncomputable def forecast : Nat → String → Specification → Nat → Option (List Step)
  | 0, _, _, _ => none
  | levels + 1, identifier, spec, index =>
    match spec.log? index with
    | none => some []
    | some log =>
      library.forecastLog (fun identifier part => forecast levels identifier part 0)
        identifier index spec log

section

variable {library : Library} {forecastPart : String → Specification → Option (List Step)}
  {identifier : String} {index : Nat} {spec : Specification} {steps : List Step}

/-- The steps of a part directive are those of the part, and then its own one. -/
theorem forecastParts_cons {made rest : List Directive} {directive : Directive} :
    library.forecastParts forecastPart identifier index spec made (directive :: rest) = some steps ↔
      ∃ nested later, library.below (some []) forecastPart directive = some nested ∧
        library.forecastParts forecastPart identifier index spec (made ++ [directive]) rest =
          some later ∧
        nested ++ ⟨identifier, index, directive,
          library.appraise (library.view spec made) spec.identifier directive⟩ :: later =
            steps := by
  simp [forecastParts, Option.bind_eq_some_iff]

theorem forecastLog_eq_some_iff {log : List Directive} :
    library.forecastLog forecastPart identifier index spec log = some steps ↔
      ∃ parts, library.forecastParts forecastPart identifier index spec []
          (log.filter fun directive => directive.phase = .parts) = some parts ∧
        (parts ++ (Directive.wirings log).map fun directive => ⟨identifier, index, directive,
          library.appraise (library.view spec log) spec.identifier directive⟩) = steps := by
  simp [forecastLog, Option.bind_eq_some_iff]

end

end Library

/-! ## Records are as forecast -/

/-- What growing a node of a specification on a draft has done: the older nodes are as they were,
the new one has the face that the library gives it, and the issues are those of the steps, which
were foreseen. -/
structure Grown (library : Library) (spec : Specification) (index : Nat) (steps : List Step)
    (forecast : Option (List Step)) (draft : Draft) (node : NodeId) (draft' : Draft) : Prop where
  closed : draft'.graph.Closed
  hosts : draft'.graph.Hosts node
  later : draft.graph.nodes.size ≤ node.index
  retains : draft.graph.Retains draft.graph.nodes.size draft'.graph
  face : draft'.graph.face node = library.face spec index
  issues : draft'.issues.toList = draft.issues.toList ++ steps.flatMap Step.issues
  foreseen : forecast = some steps

namespace Grown

variable {library : Library} {spec : Specification} {index : Nat} {draft : Draft}

/-- A native node raises nothing. -/
theorem native {primitive : Primitive} (hprimitive : spec.primitive? index = some primitive)
    (hclosed : draft.graph.Closed) (traced : Bool) :
    Grown library spec index [] (some []) draft
      (draft.graph.addNative primitive spec.identifier traced).1
      { draft with graph := (draft.graph.addNative primitive spec.identifier traced).2 } := by
  have hplace := draft.graph.fst_addNative primitive spec.identifier traced
  have hnode := draft.graph.node?_addNative primitive spec.identifier traced
    ⟨draft.graph.nodes.size⟩
  rw [if_pos rfl] at hnode
  obtain ⟨hclosed', _, hhosts⟩ := hclosed.addNative primitive spec.identifier traced
  refine ⟨hclosed', hhosts, ?_, .addNative _ _ _, ?_, ?_, rfl⟩
  · exact Nat.le_of_eq (congrArg NodeId.index hplace).symm
  -- What the node shows is what the library says of the primitive
  · have henters : library.Enters spec index := .native hprimitive
    rw [hplace]
    ext1
    · simp [Directive.inletsOf, Graph.interface?, hnode, Node.interface?, Graph.nativePorts,
        Specification.inletsAt, hprimitive]
    · simp [Directive.exitsOf, Graph.interface?, hnode, Node.interface?, Graph.nativePorts,
        Specification.exitsAt, hprimitive]
    · simp [Graph.entryOf?, hnode, Node.entry?, Graph.nativePorts, henters]
  · simp

end Grown

/-! ## Replaying a log -/

section Replaying

variable {library : Library} {growPart : Draft.Grow}
  {recordPart : String → Specification → Draft → List Step}
  {forecastPart : String → Specification → Option (List Step)} {composite : NodeId}
  {spec : Specification} (identifier : String) (index : Nat)

/-- What carrying out some directives has done to a composite under construction. -/
structure Told (library : Library) (composite : NodeId) (spec : Specification)
    (made wired : List Directive) (steps : List Step) (draft draft' : Draft) : Prop where
  staged : Staged library draft'.graph composite spec made wired
  retains : draft.graph.Retains composite.index draft'.graph
  issues : draft'.issues.toList = draft.issues.toList ++ steps.flatMap Step.issues

/-- Parts are made as foreseen. -/
def Foresees (library : Library) (growPart : Draft.Grow)
    (recordPart : String → Specification → Draft → List Step)
    (forecastPart : String → Specification → Option (List Step)) : Prop :=
  ∀ identifier part draft node grown, draft.graph.Closed →
    growPart part draft = .ok (node, grown) →
    Grown library part 0 (recordPart identifier part draft) (forecastPart identifier part) draft
      node grown

/-- **A part directive**: the part is made and takes its role, or its issues are recorded. -/
theorem Foresees.part (hforesees : Foresees library growPart recordPart forecastPart)
    {made : List Directive} {draft draft' : Draft} {specification role : String}
    (h : Staged library draft.graph composite spec made [])
    (hreplay : Draft.replay library growPart composite spec.identifier draft
      (.part specification role) = .ok draft') :
    library.below (some []) forecastPart (.part specification role) =
        some (library.below [] (fun identifier part => recordPart identifier part draft)
          (.part specification role)) ∧
      Told library composite spec (made ++ [.part specification role]) []
        (library.below [] (fun identifier part => recordPart identifier part draft)
          (.part specification role) ++ [⟨identifier, index, .part specification role,
            draft.raised library composite spec.identifier (.part specification role)⟩])
        draft draft' := by
  rw [Draft.replay_part] at hreplay
  unfold Library.below Library.asked? Draft.raised
  dsimp only
  cases hmakeable : library.makeable? specification with
  | none =>
    -- Nothing happens but that the issues are raised
    rw [hmakeable] at hreplay
    obtain rfl := Except.ok.inj hreplay
    refine ⟨rfl, ?_, ?_, ?_⟩
    · rw [Draft.graph_foldl_skip]
      refine h.unfilled fun other => ?_
      simp [Library.filling?, hmakeable]
    · rw [Draft.graph_foldl_skip]
      exact .refl _ _
    · rw [Draft.issues_foldl_skip]
      simp [Library.partIssues_of_none hmakeable (Option.isSome _)]
  | some part =>
    rw [hmakeable] at hreplay
    dsimp only at hreplay
    split at hreplay
    next => cases hreplay
    next node grown hgrow =>
      -- The part is grown behind the composite, and then it takes its role
      obtain rfl := Except.ok.inj hreplay
      have hpart := hforesees specification part draft node grown h.closed hgrow
      have hstaged := h.grown hpart.closed hpart.retains
      have hlater : composite.index < node.index := Nat.lt_of_lt_of_le h.lt_size hpart.later
      -- The composite has the same parts as before its new part was grown
      have htaken := congrFun (Graph.part?_congr (hpart.retains composite h.lt_size)) role
      refine ⟨hpart.foreseen, ?_, ?_, ?_⟩
      · rw [Draft.graph_adopt]
        exact hstaged.adopt hmakeable hlater hpart.hosts hpart.face
      · rw [Draft.graph_adopt]
        exact (hpart.retains.mono (Nat.le_of_lt h.lt_size)).trans
          (.adopt (Nat.le_refl _) (Nat.le_of_lt hlater) role)
      · rw [Draft.issues_adopt, hpart.issues, htaken]
        simp [Library.partIssues_of_some hmakeable]

theorem Told.trans {made made' wired wired' : List Directive} {steps steps' : List Step}
    {draft draft' draft'' : Draft} (h : Told library composite spec made wired steps draft draft')
    (h' : Told library composite spec made' wired' steps' draft' draft'') :
    Told library composite spec made' wired' (steps ++ steps') draft draft'' where
  staged := h'.staged
  retains := h.retains.trans h'.retains
  issues := by rw [h'.issues, h.issues, List.flatMap_append, List.append_assoc]

/-- **The parts of a log** are recorded as forecast, by induction on the log. -/
theorem Foresees.parts (hforesees : Foresees library growPart recordPart forecastPart) :
    ∀ (rest made : List Directive) {draft draft' : Draft},
    Staged library draft.graph composite spec made [] →
    (∀ directive ∈ rest, directive.phase = .parts) →
    Draft.replayAll library growPart composite spec.identifier rest draft = .ok draft' →
    library.forecastParts forecastPart identifier index spec made rest =
        some (Draft.recordAll library growPart recordPart identifier index composite
          spec.identifier rest draft) ∧
      Told library composite spec (made ++ rest) []
        (Draft.recordAll library growPart recordPart identifier index composite spec.identifier
          rest draft) draft draft'
  | [], made, draft, draft', h, _, hreplay => by
    obtain rfl := Except.ok.inj hreplay
    refine ⟨rfl, ?_, .refl _ _, (List.append_nil _).symm⟩
    rw [List.append_nil]
    exact h
  | directive :: rest, made, draft, draft', h, hphase, hreplay => by
    unfold Draft.replayAll at hreplay
    split at hreplay
    next => cases hreplay
    next middle hfirst =>
      have hpart := hphase directive List.mem_cons_self
      cases directive with
      | part specification role =>
        -- The part first, and then the rest in the graph that it has grown
        obtain ⟨hbelow, htold⟩ := hforesees.part identifier index h hfirst
        obtain ⟨hlater, htold'⟩ := parts hforesees rest _ htold.staged
          (fun later hmem => hphase later (List.mem_cons_of_mem _ hmem)) hreplay
        -- What the directive raises depends on the view that the earlier ones have left
        have hraised := Draft.raised_eq_appraise library composite spec.identifier
          draft (.part specification role)
        rw [h.view_eq] at hraised
        unfold Draft.recordAll
        rw [hfirst, Library.forecastParts_cons, ← hraised]
        refine ⟨⟨_, _, hbelow, hlater, rfl⟩, ?_⟩
        have hwhole := htold.trans htold'
        rwa [List.append_assoc, List.append_assoc, List.singleton_append] at hwhole
      | _ => cases hpart

variable (growPart recordPart) in
/-- **The wirings of a log** are recorded as forecast. -/
theorem told_wirings {made : List Directive} : ∀ (rest wired : List Directive) {draft : Draft},
    Staged library draft.graph composite spec made wired →
    (∀ directive ∈ rest, directive.phase ≠ .parts) →
    (Draft.recordAll library growPart recordPart identifier index composite spec.identifier rest
        draft = rest.map fun directive => ⟨identifier, index, directive,
          library.appraise (library.view spec made) spec.identifier directive⟩) ∧
      Told library composite spec made (wired ++ rest)
        (Draft.recordAll library growPart recordPart identifier index composite spec.identifier
          rest draft) draft (draft.rewireAll composite spec.identifier rest)
  | [], wired, draft, h, _ => by
    refine ⟨rfl, ?_, .refl _ _, (List.append_nil _).symm⟩
    rw [List.append_nil]
    exact h
  | directive :: rest, wired, draft, h, hphase => by
    have hwiring := hphase directive List.mem_cons_self
    obtain ⟨hstaged, hretains⟩ := h.rewire directive
    obtain ⟨hlater, htold⟩ := told_wirings rest (wired ++ [directive]) hstaged
      fun later hmem => hphase later (List.mem_cons_of_mem _ hmem)
    have hraised := Draft.raised_eq_appraise library composite spec.identifier draft directive
    -- A wiring is one step, and nothing is below it
    have hrecord : Draft.recordAll library growPart recordPart identifier index composite
        spec.identifier (directive :: rest) draft =
          [⟨identifier, index, directive,
            draft.raised library composite spec.identifier directive⟩] ++
            Draft.recordAll library growPart recordPart identifier index composite spec.identifier
              rest (draft.rewire composite spec.identifier directive) := by
      rw [Draft.recordAll, Draft.replay_of_wiring hwiring, library.below_of_wiring hwiring]
      rfl
    have hfirst : Told library composite spec made (wired ++ [directive])
        [⟨identifier, index, directive,
            draft.raised library composite spec.identifier directive⟩] draft
        (draft.rewire composite spec.identifier directive) := by
      refine ⟨hstaged, hretains, ?_⟩
      rw [Draft.issues_rewire_eq library draft composite spec.identifier hwiring]
      simp
    have hwhole := hfirst.trans htold
    rw [hrecord]
    -- What the first directive raises depends on the view of all parts, which no wiring changes
    refine ⟨?_, ?_⟩
    · rw [hlater, hraised, h.view_eq]
      rfl
    · rwa [List.append_assoc] at hwhole

/-- **A whole log** is recorded as forecast. -/
theorem Foresees.log (hforesees : Foresees library growPart recordPart forecastPart)
    {log : List Directive} {draft draft' : Draft}
    (h : Staged library draft.graph composite spec [] [])
    (hreplay : Draft.replayAll library growPart composite spec.identifier
      (Directive.replayOrder log) draft = .ok draft') :
    library.forecastLog forecastPart identifier index spec log =
        some (Draft.recordAll library growPart recordPart identifier index composite spec.identifier
          (Directive.replayOrder log) draft) ∧
      Told library composite spec (log.filter fun directive => directive.phase = .parts)
        (Directive.wirings log)
        (Draft.recordAll library growPart recordPart identifier index composite spec.identifier
          (Directive.replayOrder log) draft) draft draft' := by
  rw [Directive.replayOrder_eq] at hreplay ⊢
  obtain ⟨middle, hparts, hwirings⟩ := Draft.exists_of_replayAll_append hreplay
  have hphase : ∀ directive ∈ Directive.wirings log, directive.phase ≠ .parts :=
    fun _ hmem => (Directive.mem_wirings.mp hmem).2
  rw [Draft.replayAll_of_wirings hphase] at hwirings
  obtain rfl := Except.ok.inj hwirings
  obtain ⟨hforecast, htold⟩ := hforesees.parts identifier index _ [] h (by simp) hparts
  obtain ⟨hrecord, htold'⟩ := told_wirings growPart recordPart identifier index
    (Directive.wirings log) [] htold.staged hphase
  rw [Draft.recordAll_append hparts]
  refine ⟨Library.forecastLog_eq_some_iff.mpr ⟨_, hforecast, ?_⟩, htold.trans htold'⟩
  -- The wirings see what the parts of the log have made
  rw [hrecord, List.nil_append, library.view_filter_parts]

end Replaying

/-! ## Growing a node -/

/-- **A build records what was forecast**, by induction on the levels that may be nested. -/
theorem Draft.grown_of_grow {library : Library} {traced : Bool} {limit : Nat} :
    ∀ (levels : Nat) (identifier : String) (spec : Specification) (index : Nat)
      (draft : Draft) (node : NodeId) (draft' : Draft), draft.graph.Closed →
    grow library traced limit levels spec index draft = .ok (node, draft') →
    Grown library spec index (record library traced limit levels identifier spec index draft)
      (library.forecast levels identifier spec index) draft node draft'
  | 0, _, _, _, _, _, _, _, h => by simp [grow] at h
  | levels + 1, identifier, spec, index, draft, node, draft', hclosed, h => by
    have hhosts := (leads_of_grow (levels + 1) spec draft node draft' hclosed h).2
    rcases grow_eq_ok_iff.mp h with ⟨primitive, hprimitive, rfl, rfl⟩ | ⟨log, hlog, rfl, hreplay⟩
    · simp only [record, Library.forecast, Specification.log?_of_primitive? hprimitive]
      exact .native hprimitive hclosed traced
    · obtain ⟨hplace, hframe, _⟩ :=
        draft.graph.node?_addComposite spec.identifier spec.inletCount spec.exitCount traced
      -- The parts are grown with one level less
      have hforesees : Foresees library
          (fun part draft => grow library traced limit levels part 0 draft)
          (fun identifier part draft => record library traced limit levels identifier part 0 draft)
          (fun identifier part => library.forecast levels identifier part 0) :=
        fun identifier part => grown_of_grow levels identifier part 0
      obtain ⟨hforecast, htold⟩ := hforesees.log identifier index
        (.start hclosed spec traced) hreplay
      simp only [record, Library.forecast, hlog]
      have hlater : draft.graph.nodes.size ≤ _ :=
        Nat.le_of_eq (congrArg NodeId.index hplace).symm
      refine ⟨htold.staged.closed, hhosts, hlater, ?_, ?_, htold.issues, hforecast⟩
      · exact hframe.trans (htold.retains.mono hlater)
      · -- All directives of the log have been carried out, be it in another order
        refine htold.staged.face_eq hlog (library.cast?_filter_parts log) fun role => ?_
        simp [Directive.mem_wirings, Directive.phase]

/-- **The issues of a network are the recorded ones**, and the record can be forecast. -/
theorem Library.foreseen_of_instantiate {library : Library} {identifier : String}
    {options : BuildOptions} {net : Network}
    (h : library.instantiate identifier options = .ok net) :
    net.issues.toList = (library.record identifier options).flatMap Step.issues ∧
      ∃ spec, library.get? identifier = some spec ∧
        library.forecast (options.limits.nestingLimit + 1) identifier spec options.implementation =
          some (library.record identifier options) := by
  obtain ⟨spec, root, draft, hget, hgrow, rfl⟩ := instantiate_eq_ok_iff.mp h
  have hgrown := Draft.grown_of_grow _ identifier spec _ {} root draft .empty hgrow
  have hissues := hgrown.issues
  -- A build starts from a draft without issues
  rw [show ({} : Draft).issues.toList = [] from rfl, List.nil_append] at hissues
  unfold record
  rw [hget]
  exact ⟨hissues, spec, rfl, hgrown.foreseen⟩

end TokenNet
