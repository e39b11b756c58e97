import TokenNet.Proofs.Blueprint.Forecast
import TokenNet.Proofs.Blueprint.Shuffled
import TokenNet.Proofs.Network.Renaming

/-!
# Libraries with rearranged data wirings

The data directives of a log are a set: they can be permuted, repeated and moved past all others.
Libraries that differ in no more than that build networks that no sequence of calls can tell apart.
Their cells may have other keys, but one renaming of keys makes the networks the same.

## Main statements

- `Directive.Rearranged`, `Library.Rearranged`: logs and libraries that differ only so.
- `Draft.grow_alike`: growing a node in two such libraries has the same outcome.
- `Library.instantiate_rearranged`: so has a build, and all that is done with the networks later.
-/

namespace TokenNet

/-! ## Rearranged logs -/

namespace Directive

variable {log log' : List Directive}

/-- Two logs have the same data directives, and phase by phase the same other directives in the same
order. -/
structure Rearranged (log log' : List Directive) : Prop where
  data : ∀ directive, directive.isData = true → (directive ∈ log' ↔ directive ∈ log)
  control : ∀ phase : Phase,
    (log'.filter fun d => !d.isData && decide (d.phase = phase)) =
      log.filter fun d => !d.isData && decide (d.phase = phase)

namespace Rearranged

theorem refl (log : List Directive) : Rearranged log log where
  data _ _ := Iff.rfl
  control _ := rfl

/-- In each phase the directives are shuffled. -/
theorem shuffled (h : Rearranged log log') (phase : Phase) :
    Shuffled isData (log.filter fun d => d.phase = phase)
      (log'.filter fun d => d.phase = phase) where
  mem_loose directive hdata := by simp only [List.mem_filter, h.data directive hdata]
  fixed := by
    rw [List.filter_filter, List.filter_filter]
    exact h.control phase

/-- In a phase without data directives they are the same. -/
theorem filter_eq (h : Rearranged log log') {phase : Phase}
    (hphase : ∀ directive : Directive, directive.phase = phase → directive.isData = false) :
    (log'.filter fun d => d.phase = phase) = log.filter fun d => d.phase = phase := by
  have hcontrol (log : List Directive) : (log.filter fun d => d.phase = phase) =
      log.filter fun d => !d.isData && decide (d.phase = phase) := by
    refine List.filter_congr fun directive _ => ?_
    by_cases h : directive.phase = phase <;> simp [h, hphase directive]
  rw [hcontrol log, hcontrol log', h.control phase]

/-- The parts are the same. -/
theorem parts (h : Rearranged log log') :
    (log'.filter fun d => d.phase = .parts) = log.filter fun d => d.phase = .parts :=
  h.filter_eq fun directive hphase => by cases directive <;> first | rfl | cases hphase

/-- So are the entries that are exposed. -/
theorem entry (h : Rearranged log log') :
    (log'.filter fun d => d.phase = .entry) = log.filter fun d => d.phase = .entry :=
  h.filter_eq fun directive hphase => by cases directive <;> first | rfl | cases hphase

end Rearranged

theorem rearranged_iff : Rearranged log log' ↔
    (∀ directive ∈ log', directive.isData = true → directive ∈ log) ∧
      (∀ directive ∈ log, directive.isData = true → directive ∈ log') ∧
      ∀ phase ∈ Phase.all, (log'.filter fun d => !d.isData && decide (d.phase = phase)) =
        log.filter fun d => !d.isData && decide (d.phase = phase) := by
  constructor
  · intro h
    exact ⟨fun directive hmem hdata => (h.data directive hdata).mp hmem,
      fun directive hmem hdata => (h.data directive hdata).mpr hmem, fun phase _ => h.control phase⟩
  · rintro ⟨hold, hnew, hcontrol⟩
    have hall (phase : Phase) : phase ∈ Phase.all := by cases phase <;> decide
    exact ⟨fun directive hdata => ⟨fun hmem => hold directive hmem hdata,
      fun hmem => hnew directive hmem hdata⟩, fun phase => hcontrol phase (hall phase)⟩

instance (log log' : List Directive) : Decidable (Rearranged log log') :=
  decidable_of_iff' _ rearranged_iff

end Directive

/-! ## Rearranged libraries -/

/-- Two implementations are the same up to a rearrangement of the log. -/
inductive Implementation.Rearranged : Implementation → Implementation → Prop where
  | native (primitive : Primitive) : Rearranged (.native primitive) (.native primitive)
  | blueprint {log log' : List Directive} (h : Directive.Rearranged log log') :
      Rearranged (.blueprint ⟨log⟩) (.blueprint ⟨log'⟩)

theorem Implementation.Rearranged.refl (implementation : Implementation) :
    implementation.Rearranged implementation := by
  cases implementation with
  | native primitive => exact .native primitive
  | blueprint blueprint => exact .blueprint (.refl blueprint.directives)

/-- Two specifications are the same up to rearrangements of the logs. -/
structure Specification.Rearranged (spec spec' : Specification) : Prop where
  identifier : spec'.identifier = spec.identifier
  inletCount : spec'.inletCount = spec.inletCount
  exitCount : spec'.exitCount = spec.exitCount
  implementations :
    List.Forall₂ Implementation.Rearranged spec.implementations spec'.implementations

namespace Specification.Rearranged

variable {spec spec' : Specification}

theorem refl (spec : Specification) : spec.Rearranged spec where
  identifier := rfl
  inletCount := rfl
  exitCount := rfl
  implementations := List.forall₂_same.mpr fun implementation _ => .refl implementation

theorem composite (identifier : String) (inletCount exitCount : Nat) {log log' : List Directive}
    (h : Directive.Rearranged log log') :
    (composite identifier inletCount exitCount log).Rearranged
      (composite identifier inletCount exitCount log') where
  identifier := rfl
  inletCount := rfl
  exitCount := rfl
  implementations := .cons (.blueprint h) .nil

theorem isEmpty (h : spec.Rearranged spec') :
    spec'.implementations.isEmpty = spec.implementations.isEmpty := by
  rw [Bool.eq_iff_iff, List.isEmpty_iff_length_eq_zero, List.isEmpty_iff_length_eq_zero,
    h.implementations.length_eq]

/-- At a position there is the same implementation up to a rearrangement, or the same refusal. -/
theorem implementation (h : spec.Rearranged spec') (index : Nat) :
    (∃ refusal, spec.implementation index = .error refusal ∧
      spec'.implementation index = .error refusal) ∨
    ∃ made made', spec.implementation index = .ok made ∧ spec'.implementation index = .ok made' ∧
      made.Rearranged made' := by
  unfold Specification.implementation
  -- Both have equally many implementations, so a position is in range for both or for neither
  by_cases hindex : index < spec.implementations.length
  · have hindex' := h.implementations.length_eq ▸ hindex
    rw [List.getElem?_eq_getElem hindex, List.getElem?_eq_getElem hindex']
    exact Or.inr ⟨_, _, rfl, rfl, h.implementations.get hindex hindex'⟩
  · have hindex' := h.implementations.length_eq ▸ hindex
    rw [List.getElem?_eq_none (Nat.le_of_not_lt hindex),
      List.getElem?_eq_none (Nat.le_of_not_lt hindex')]
    exact Or.inl ⟨_, rfl, by rw [h.identifier, h.implementations.length_eq]⟩

end Specification.Rearranged

/-- Two libraries are the same up to rearrangements of the logs. -/
def Library.Rearranged (library library' : Library) : Prop :=
  ∀ identifier, Option.Rel Specification.Rearranged (library.get? identifier)
    (library'.get? identifier)

namespace Library.Rearranged

variable {library library' : Library}

theorem refl (library : Library) : library.Rearranged library := by
  intro identifier
  cases library.get? identifier with
  | none => exact .none
  | some spec => exact .some (.refl spec)

theorem insert (h : library.Rearranged library') (identifier : String)
    {spec spec' : Specification} (hspec : spec.Rearranged spec') :
    Rearranged { specifications := library.specifications.insert identifier spec }
      { specifications := library'.specifications.insert identifier spec' } := by
  intro other
  unfold Library.get?
  rw [Table.get?_insert, Table.get?_insert]
  split
  next => exact .some hspec
  next => exact h other

theorem get?_cases (h : library.Rearranged library') (identifier : String) :
    (library.get? identifier = none ∧ library'.get? identifier = none) ∨
    ∃ spec spec', library.get? identifier = some spec ∧ library'.get? identifier = some spec' ∧
      spec.Rearranged spec' := by
  have hget := h identifier
  generalize library.get? identifier = found at hget ⊢
  generalize library'.get? identifier = found' at hget ⊢
  cases hget with
  | none => exact Or.inl ⟨rfl, rfl⟩
  | some hspec => exact Or.inr ⟨_, _, rfl, rfl, hspec⟩

/-- The same parts can be made. -/
theorem makeable?_cases (h : library.Rearranged library') (identifier : String) :
    (library.makeable? identifier = none ∧ library'.makeable? identifier = none) ∨
    ∃ spec spec', library.makeable? identifier = some spec ∧
      library'.makeable? identifier = some spec' ∧ spec.Rearranged spec' := by
  unfold Library.makeable?
  rcases h.get?_cases identifier with ⟨hnone, hnone'⟩ | ⟨spec, spec', hspec, hspec', hrearranged⟩
  · rw [hnone, hnone']
    exact Or.inl ⟨rfl, rfl⟩
  · rw [hspec, hspec', Option.filter_some, Option.filter_some, hrearranged.isEmpty]
    split
    next => exact Or.inr ⟨_, _, rfl, rfl, hrearranged⟩
    next => exact Or.inl ⟨rfl, rfl⟩

/-- The same parts raise the same issues. -/
theorem partIssues (h : library.Rearranged library') (taken : Bool)
    (name specification role : String) :
    library'.partIssues taken name specification role =
      library.partIssues taken name specification role := by
  unfold Library.partIssues
  rcases h.get?_cases specification with ⟨hnone, hnone'⟩ | ⟨spec, spec', hspec, hspec', hrearranged⟩
  · rw [hnone, hnone']
  · simp only [hspec, hspec', hrearranged.isEmpty]

end Library.Rearranged

/-! ## Drafts in two libraries -/

namespace Draft

/-- Two results of building: both builds are aborted for the same reason, or what they have made is
alike. -/
inductive AlikeResults {α : Type} (alike : α → α → Prop) :
    Except BuildFailure α → Except BuildFailure α → Prop where
  | aborted {failure failure' : BuildFailure} (h : failure'.error = failure.error) :
      AlikeResults alike (.error failure) (.error failure')
  | made {a a' : α} (h : alike a a') : AlikeResults alike (.ok a) (.ok a')

/-- Two grown nodes have one handle, and the drafts that hold them are alike. -/
def AlikeNodes (grown grown' : NodeId × Draft) : Prop :=
  grown'.1 = grown.1 ∧ grown.2.Alike grown'.2

/-- Two ways of making parts make alike parts of specifications that are rearranged. -/
def GrowsAlike (growPart growPart' : Grow) : Prop :=
  ∀ spec spec' draft draft', spec.Rearranged spec' → draft.Alike draft' →
    AlikeResults AlikeNodes (growPart spec draft) (growPart' spec' draft')

section

variable {draft draft' : Draft}

/-- The same issues are skipped alike. -/
theorem Alike.foldl_skip (h : draft.Alike draft') (issues : List Issue) :
    (issues.foldl skip draft).Alike (issues.foldl skip draft') := by
  refine ⟨?_, ?_, ?_, fun issue => ?_⟩
  · rw [graph_foldl_skip, graph_foldl_skip]
    exact h.scheme
  · rw [graph_foldl_skip]
    exact h.closed
  · rw [graph_foldl_skip]
    exact h.closed'
  · have hold := h.issues issue
    rw [← Array.mem_toList_iff, ← Array.mem_toList_iff] at hold ⊢
    rw [issues_foldl_skip, issues_foldl_skip, List.mem_append, List.mem_append, hold]

/-- A part takes its role alike in both. -/
theorem Alike.adopt (h : draft.Alike draft') (composite : NodeId) (name role : String)
    {part : NodeId} (hhosts : draft.graph.Hosts part) :
    (draft.adopt composite name role part).Alike (draft'.adopt composite name role part) := by
  have hhosts' : draft'.graph.Hosts part := by
    unfold Graph.Hosts
    rw [h.graph.node?]
    exact hhosts
  refine ⟨?_, (leads_adopt draft composite name role hhosts).closed h.closed,
    (leads_adopt draft' composite name role hhosts').closed h.closed', fun issue => ?_⟩
  -- Both graphs change the same records of their frames
  · obtain ⟨scheme, hblank, hfirst, hsecond⟩ := h.scheme
    let place (nodes : Array Node) : Array Node :=
      (nodes.modify part.index fun node =>
        { node with parent := some composite, role := some role }).modify composite.index
          (Node.addPart role part)
    rw [graph_adopt, graph_adopt]
    exact ⟨{ scheme with frame := { scheme.frame with nodes := place scheme.frame.nodes } }, hblank,
      hfirst.renode place, hsecond.renode place⟩
  -- The role is taken in both graphs or in neither, so the same issue is raised
  · have hpart : draft'.graph.part? composite role = draft.graph.part? composite role := by
      unfold Graph.part?
      rw [h.graph.node?]
    have hold := h.issues issue
    rw [← Array.mem_toList_iff, ← Array.mem_toList_iff] at hold ⊢
    rw [issues_adopt, issues_adopt, hpart, List.mem_append, List.mem_append, hold]

end

variable {library library' : Library} {growPart growPart' : Grow} {log log' : List Directive}
  {draft draft' : Draft}

/-- **A directive** is carried out alike in both libraries. -/
theorem replay_alike (hlibrary : library.Rearranged library') (hgrow : Grows growPart)
    (halike : GrowsAlike growPart growPart') (composite : NodeId) (name : String)
    (h : draft.Alike draft') (directive : Directive) :
    AlikeResults Alike (replay library growPart composite name draft directive)
      (replay library' growPart' composite name draft' directive) := by
  by_cases hphase : directive.phase = .parts
  · obtain ⟨specification, role, rfl⟩ :
        ∃ specification role, directive = .part specification role := by
      cases directive <;> first | exact ⟨_, _, rfl⟩ | cases hphase
    rw [replay_part, replay_part, hlibrary.partIssues]
    rcases hlibrary.makeable?_cases specification with
      ⟨hnone, hnone'⟩ | ⟨spec, spec', hspec, hspec', hrearranged⟩
    · -- The part cannot be made from either library
      rw [hnone, hnone']
      exact .made (h.foldl_skip _)
    · rw [hspec, hspec']
      dsimp only
      -- Either both parts are made, or both builds are aborted alike
      have hgrown := halike spec spec' draft draft' hrearranged h
      generalize hresult : growPart spec draft = result at hgrown ⊢
      generalize growPart' spec' draft' = result' at hgrown ⊢
      cases hgrown with
      | aborted hsame => exact .aborted hsame
      | @made made made' hmade =>
        obtain ⟨node, grown⟩ := made
        obtain ⟨node', grown'⟩ := made'
        obtain ⟨hnode, hdraft⟩ := hmade
        obtain rfl : node' = node := hnode
        have hhosts := (hgrow spec draft node' grown h.closed hresult).2
        exact .made (hdraft.adopt composite name role hhosts)
  · rw [replay_of_wiring hphase, replay_of_wiring hphase]
    exact .made (h.rewire composite name directive)

/-- **The same directives** are carried out alike in both libraries. -/
theorem replayAll_alike (hlibrary : library.Rearranged library') (hgrow : Grows growPart)
    (halike : GrowsAlike growPart growPart') (composite : NodeId) (name : String)
    (h : draft.Alike draft') (log : List Directive) :
    AlikeResults Alike (replayAll library growPart composite name log draft)
      (replayAll library' growPart' composite name log draft') := by
  induction log generalizing draft draft' with
  | nil => exact .made h
  | cons first rest ih =>
    have hfirst := replay_alike hlibrary hgrow halike composite name h first
    unfold replayAll
    -- The first results are alike: both abort in the same way, or both go on
    generalize replay library growPart composite name draft first = result at hfirst ⊢
    generalize replay library' growPart' composite name draft' first = result' at hfirst ⊢
    cases hfirst with
    | aborted hsame => exact .aborted hsame
    | made hmade => exact ih hmade

/-- The directives of some phases wire alike in both. -/
theorem rewireAll_phases_alike (composite : NodeId) (name : String) (h : draft.Alike draft')
    (hlog : Directive.Rearranged log log') (phases : List Phase) :
    (draft.rewireAll composite name
      (phases.flatMap fun phase => log.filter fun d => d.phase = phase)).Alike
      (draft'.rewireAll composite name
        (phases.flatMap fun phase => log'.filter fun d => d.phase = phase)) := by
  induction phases generalizing draft draft' with
  | nil => exact h
  | cons first rest ih =>
    rw [List.flatMap_cons, List.flatMap_cons, rewireAll_append, rewireAll_append]
    refine ih ?_
    by_cases hentry : first = .entry
    · -- Which entry is exposed last matters, but no data directive is among them
      rw [hentry, hlog.entry]
      exact h.rewireAll composite name _
    · refine h.rewireAll_of_shuffled (hlog.shuffled first) fun directive hmem role hexpose => ?_
      have hphase := of_decide_eq_true (List.mem_filter.mp hmem).2
      rw [hexpose] at hphase
      exact hentry hphase.symm

/-- **Rearranged logs** are carried out alike in both libraries. -/
theorem replayAll_alike_of_rearranged (hlibrary : library.Rearranged library')
    (hgrow : Grows growPart) (halike : GrowsAlike growPart growPart') (composite : NodeId)
    (name : String) (h : draft.Alike draft') (hlog : Directive.Rearranged log log') :
    AlikeResults Alike
      (replayAll library growPart composite name (Directive.replayOrder log) draft)
      (replayAll library' growPart' composite name (Directive.replayOrder log') draft') := by
  have hwirings (log : List Directive) :
      ∀ directive ∈ Directive.wirings log, directive.phase ≠ .parts :=
    fun _ hmem => (Directive.mem_wirings.mp hmem).2
  have hparts := replayAll_alike hlibrary hgrow halike composite name h
    (log.filter fun d => d.phase = .parts)
  -- The parts come first and are the same; only they can abort the build
  rw [Directive.replayOrder_eq, Directive.replayOrder_eq, hlog.parts]
  generalize hfirst : replayAll library growPart composite name
    (log.filter fun d => d.phase = .parts) draft = result at hparts
  generalize hsecond : replayAll library' growPart' composite name
    (log.filter fun d => d.phase = .parts) draft' = result' at hparts
  cases hparts with
  | aborted hsame =>
    rw [replayAll_append_of_error hfirst, replayAll_append_of_error hsecond]
    exact .aborted hsame
  | made hmade =>
    rw [replayAll_append hfirst, replayAll_append hsecond, replayAll_of_wirings (hwirings log),
      replayAll_of_wirings (hwirings log')]
    exact .made (rewireAll_phases_alike composite name hmade hlog _)

/-! ## Growth in two libraries -/

/-- A native node is added alike to both. -/
theorem Alike.addNative (h : draft.Alike draft') (primitive : Primitive) (specification : String)
    (traced : Bool) : Alike
      { draft with graph := (draft.graph.addNative primitive specification traced).2 }
      { draft' with graph := (draft'.graph.addNative primitive specification traced).2 } where
  scheme := by
    obtain ⟨scheme, hblank, hfirst, hsecond⟩ := h.scheme
    exact ⟨_, hblank.grows (Graph.grows_settleNative scheme.frame primitive scheme.partition),
      hfirst.addNative specification traced primitive,
      hsecond.addNative specification traced primitive⟩
  closed := (h.closed.addNative primitive specification traced).1
  closed' := (h.closed'.addNative primitive specification traced).1
  issues := h.issues

/-- A composite is framed alike in both. -/
theorem Alike.addComposite (h : draft.Alike draft') (specification : String)
    (inletCount exitCount : Nat) (traced : Bool) : Alike
      { draft with
        graph := (draft.graph.addComposite specification inletCount exitCount traced).2 }
      { draft' with
        graph := (draft'.graph.addComposite specification inletCount exitCount traced).2 } where
  scheme := by
    -- Framing a composite settles its outlet, which shares a class with no other port
    obtain ⟨scheme, hblank, hfirst, hsecond⟩ := h.scheme
    exact ⟨_, hblank.grow (.settle scheme.partition _),
      hfirst.addComposite specification traced inletCount exitCount,
      hsecond.addComposite specification traced inletCount exitCount⟩
  closed := (h.closed.addComposite specification inletCount exitCount traced).1
  closed' := (h.closed'.addComposite specification inletCount exitCount traced).1
  issues := h.issues

/-- **Growing a node has the same outcome in both libraries**, by induction on the levels that may
be nested. -/
theorem grow_alike (hlibrary : library.Rearranged library') (traced : Bool) (limit levels : Nat)
    (index : Nat) : GrowsAlike
      (fun spec draft => grow library traced limit levels spec index draft)
      (fun spec draft => grow library' traced limit levels spec index draft) := by
  induction levels generalizing index with
  | zero =>
    intro spec spec' draft draft' hspec h
    simp only [grow, hspec.identifier]
    exact .aborted rfl
  | succ levels ih =>
    intro spec spec' draft draft' hspec h
    -- Alike drafts have equally many nodes, so the new node gets the same number
    have hnodes : draft'.graph.nodes.size = draft.graph.nodes.size :=
      congrArg Array.size h.graph.nodes
    simp only [grow, hspec.identifier, hspec.inletCount, hspec.exitCount]
    rcases hspec.implementation index with
      ⟨refusal, hrefused, hrefused'⟩ | ⟨made, made', hfound, hfound', hmade⟩
    · rw [hrefused, hrefused']
      exact .aborted rfl
    · rw [hfound, hfound']
      cases hmade with
      | native primitive =>
        refine .made ⟨?_, h.addNative primitive spec.identifier traced⟩
        dsimp only
        rw [Graph.fst_addNative, Graph.fst_addNative, hnodes]
      | @blueprint log log' hlog =>
        dsimp only
        have hnode := (draft.graph.node?_addComposite spec.identifier spec.inletCount
          spec.exitCount traced).1
        have hnode' := (draft'.graph.node?_addComposite spec.identifier spec.inletCount
          spec.exitCount traced).1
        rw [hnodes] at hnode'
        rw [hnode, hnode']
        -- The parts are grown with one level less
        have hreplayed := replayAll_alike_of_rearranged hlibrary (leads_of_grow levels) (ih 0)
          ⟨draft.graph.nodes.size⟩ spec.identifier
          (h.addComposite spec.identifier spec.inletCount spec.exitCount traced) hlog
        generalize replayAll library _ _ _ _ _ = result at hreplayed ⊢
        generalize replayAll library' _ _ _ _ _ = result' at hreplayed ⊢
        cases hreplayed with
        | aborted hsame => exact .aborted hsame
        | made hdraft => exact .made ⟨rfl, hdraft⟩

/-- The empty draft is like itself: it has no classes. -/
theorem Alike.empty : Alike {} {} where
  scheme := by
    have hscheme := Graph.Laid.empty.represents.hasScheme
    exact ⟨_, Graph.Laid.empty.blank, hscheme, hscheme⟩
  closed := .empty
  closed' := .empty
  issues _ := Iff.rfl

end Draft

/-! ## Networks of two libraries -/

namespace Library

variable {library library' : Library}

/-- **A build has the same outcome in both libraries.** -/
theorem build_alike (h : library.Rearranged library') (identifier : String)
    (index nestingLimit : Nat) (traced : Bool) :
    Draft.AlikeResults Draft.AlikeNodes (library.build identifier index nestingLimit traced)
      (library'.build identifier index nestingLimit traced) := by
  unfold build find
  rcases h.get?_cases identifier with ⟨hnone, hnone'⟩ | ⟨spec, spec', hspec, hspec', hrearranged⟩
  · rw [hnone, hnone']
    exact .aborted rfl
  · rw [hspec, hspec']
    exact Draft.grow_alike h traced nestingLimit (nestingLimit + 1) index spec spec' {} {}
      hrearranged .empty

/-- **Data wirings are a set.**  If the data directives in some logs of a library are permuted,
repeated and moved past the others, a build is refused for the same reason as before, or the
networks are the same up to a renaming of cells.  They stay so under all calls, which both answer in
the same way, and all their ports show the same. -/
theorem instantiate_rearranged (h : library.Rearranged library') (identifier : String)
    (options : BuildOptions) :
    (∃ error, library.instantiate identifier options = .error error ∧
      library'.instantiate identifier options = .error error) ∨
    ∃ net net', library.instantiate identifier options = .ok net ∧
      library'.instantiate identifier options = .ok net' ∧ net.Renamed net' ∧
      ∀ calls : List Call, (net.performAll calls).1.Renamed (net'.performAll calls).1 ∧
        (net'.performAll calls).2 = (net.performAll calls).2 ∧
        ∀ port, (net'.performAll calls).1.graph.portValue? port =
          (net.performAll calls).1.graph.portValue? port := by
  have hbuild := build_alike h identifier options.implementation options.limits.nestingLimit
    options.traced
  unfold instantiate
  generalize library.build _ _ _ _ = result at hbuild ⊢
  generalize library'.build _ _ _ _ = result' at hbuild ⊢
  cases hbuild with
  | aborted hsame => exact Or.inl ⟨_, rfl, congrArg Except.error hsame⟩
  | @made made made' hmade =>
    obtain ⟨hroot, hdraft⟩ := hmade
    -- The networks differ in their graphs and issues only
    have halike : Network.Alike
        { graph := made.2.graph, root := made.1, limits := options.limits, issues := made.2.issues }
        { graph := made'.2.graph, root := made'.1, limits := options.limits,
          issues := made'.2.issues } :=
      ⟨hdraft.graph, hroot, rfl, rfl, hdraft.issues, rfl⟩
    refine Or.inr ⟨_, _, rfl, rfl, halike.renamed, fun calls => ?_⟩
    obtain ⟨hafter, hanswers⟩ := halike.performAll hdraft.closed calls
    exact ⟨hafter.renamed, hanswers, hafter.graph.portValue?⟩

/-! ### Two adders that drive one inlet -/

/-- The library of the primitives and of one composite with a given log. -/
def driven (log : List Directive) : Library where
  specifications := primitives.specifications.insert "driven" (.composite "driven" 2 1 log)

/-- Three adders in a row; the first drives an inlet of the third, and the second drives both. -/
def drivenLog : List Directive :=
  [.part "+" "a", .part "+" "b", .part "+" "c", .dataFlow "a" "c" 0, .dataFlow "b" "c" 1,
    .dataFlow "b" "c" 0, .controlFlow "a" 1 "b", .controlFlow "b" 1 "c", .exposeInlet "a" 0 0,
    .exposeInlet "b" 0 1, .exposeOutlet "c", .exposeEntry "a", .exposeExit "c" 1 0]

/-- The same with the data directives in front, in another order and one of them twice. -/
def drivenRearranged : List Directive :=
  [.exposeOutlet "c", .dataFlow "b" "c" 0, .exposeInlet "b" 0 1, .dataFlow "b" "c" 1,
    .dataFlow "a" "c" 0, .dataFlow "b" "c" 0, .exposeInlet "a" 0 0, .part "+" "a", .part "+" "b",
    .part "+" "c", .controlFlow "a" 1 "b", .controlFlow "b" 1 "c", .exposeEntry "a",
    .exposeExit "c" 1 0]

/-- Runs the adders with 5 and 2. -/
def drivenCalls : List Call :=
  [.writeInlet ⟨0⟩ 0 5, .writeInlet ⟨0⟩ 1 2, .step]

/-- The cells that the adders share have different keys, and the outputs are the same. -/
theorem instantiate_rearranged_driven : (driven drivenLog).Rearranged (driven drivenRearranged) ∧
    ∃ net net', (driven drivenLog).instantiate "driven" {} = .ok net ∧
      (driven drivenRearranged).instantiate "driven" {} = .ok net' ∧
      net.graph.outletCell? ⟨1⟩ ≠ net'.graph.outletCell? ⟨1⟩ ∧ net.Renamed net' ∧
      (net'.performAll drivenCalls).2 =
        [.ok .done, .ok .done, .ok (.outcome ⟨⟨⟨0⟩, some 0, 4⟩, some 2⟩)] := by
  have hlog : Directive.Rearranged drivenLog drivenRearranged := by decide +kernel
  have hlibrary : (driven drivenLog).Rearranged (driven drivenRearranged) :=
    (Rearranged.refl primitives).insert "driven" (.composite "driven" 2 1 hlog)
  have hbuilds : ((driven drivenLog).instantiate "driven" {}).isOk = true := by decide +kernel
  refine ⟨hlibrary, ?_⟩
  -- The build succeeds, as evaluation shows, so the first case cannot be
  rcases instantiate_rearranged hlibrary "driven" {} with
    ⟨error, herror, _⟩ | ⟨net, net', hnet, hnet', hrenamed, hcalls⟩
  · rw [herror] at hbuilds
    cases hbuilds
  · refine ⟨net, net', hnet, hnet', ?_, hrenamed, ?_⟩
    · have hkeys : ((driven drivenLog).instantiate "driven" {}).toOption.bind
            (fun net => net.graph.outletCell? ⟨1⟩) ≠
          ((driven drivenRearranged).instantiate "driven" {}).toOption.bind
            (fun net => net.graph.outletCell? ⟨1⟩) := by decide +kernel
      rwa [hnet, hnet'] at hkeys
    · have hanswers : ((driven drivenLog).instantiate "driven" {}).toOption.map
            (fun net => (net.performAll drivenCalls).2) =
          some [.ok .done, .ok .done, .ok (.outcome ⟨⟨⟨0⟩, some 0, 4⟩, some 2⟩)] := by
        decide +kernel
      rw [hnet] at hanswers
      exact (hcalls drivenCalls).2.1.trans (Option.some.inj hanswers)

end Library

end TokenNet
