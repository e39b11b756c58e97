import Mathlib.Data.List.Count
import TokenNet.Network
import TokenNet.Proofs.Change.Build
import TokenNet.Proofs.Table

/-!
# Logs in phases

A log is replayed in the order in which a stable sort by phases puts it: the phases come one after
another, and within each of them the directives stand as they were issued.  A build sees nothing of
a log but this order, so logs that are the same phase by phase can stand for each other.

## Main statements

- `Directive.Sorted`: a log sorted by phases, stably.
- `Directive.sorted_replayOrder`, `Directive.Sorted.eq_replayOrder`: the order of a replay is the
  only such log.
- `Draft.grow_of_samePhases`: growing a node in libraries whose logs are the same phase by phase.
- `Library.replay_goes_by_phases`: all of this for logs, builds and edits of a library.
-/

namespace TokenNet

/-- The place of a phase among the phases. -/
def Phase.rank (phase : Phase) : Nat :=
  Phase.all.idxOf phase

namespace Directive

variable {log log' : List Directive}

/-! ## Sorted logs -/

/-- The directives of a phase, in the order of the log. -/
def ofPhase (phase : Phase) (log : List Directive) : List Directive :=
  log.filter fun directive => directive.phase = phase

/-- The first of two directives can stand before the second. -/
def inOrder (first second : Directive) : Bool :=
  first.phase.rank ≤ second.phase.rank

/-- A log that has the directives of another one sorted by phases, those of a phase in the order of
the other log. -/
structure Sorted (log sorted : List Directive) : Prop where
  perm : sorted.Perm log
  pairwise : sorted.Pairwise fun first second => inOrder first second
  stable : ∀ phase, ofPhase phase sorted = ofPhase phase log

theorem mem_ofPhase {phase : Phase} {directive : Directive} :
    directive ∈ ofPhase phase log ↔ directive ∈ log ∧ directive.phase = phase := by
  simp [ofPhase]

/-- Within a phase every order is in order. -/
theorem pairwise_ofPhase (phase : Phase) (log : List Directive) :
    (ofPhase phase log).Pairwise fun first second => inOrder first second := by
  refine List.Pairwise.imp_of_mem (fun hfirst hsecond _ => ?_)
    (List.pairwise_of_forall fun _ _ => trivial)
  simp [inOrder, (mem_ofPhase.mp hfirst).2, (mem_ofPhase.mp hsecond).2]

/-- Logs with the same directives in each phase have the same directives. -/
theorem perm_of_ofPhase_eq (h : ∀ phase, ofPhase phase log = ofPhase phase log') :
    log.Perm log' := by
  rw [List.perm_iff_count]
  intro directive
  have hcount (log : List Directive) :
      (ofPhase directive.phase log).count directive = log.count directive :=
    List.count_filter (by simp)
  rw [← hcount log, h, hcount]

/-- A replay goes through the phases of a log. -/
theorem ofPhase_replayOrder (phase : Phase) (log : List Directive) :
    ofPhase phase (replayOrder log) = ofPhase phase log := by
  -- Filtering one phase by another leaves all of it or nothing
  have hother (other : Phase) : ofPhase phase (ofPhase other log) =
      if other = phase then ofPhase phase log else [] := by
    split
    next hsame =>
      rw [hsame, ofPhase, ofPhase, List.filter_filter]
      simp only [Bool.and_self]
    next hne =>
      rw [ofPhase, List.filter_eq_nil_iff]
      intro directive hmem hphase
      exact hne ((mem_ofPhase.mp hmem).2.symm.trans (of_decide_eq_true hphase))
  calc ofPhase phase (replayOrder log)
    _ = Phase.all.flatMap fun other => ofPhase phase (ofPhase other log) := List.filter_flatMap
    _ = Phase.all.flatMap fun other => if other = phase then ofPhase phase log else [] := by
      simp only [hother]
    _ = ofPhase phase log := by cases phase <;> simp [Phase.all]

theorem pairwise_replayOrder (log : List Directive) :
    (replayOrder log).Pairwise fun first second => inOrder first second := by
  have hphases : Phase.all.Pairwise fun first second => first.rank ≤ second.rank := by decide
  refine List.pairwise_flatMap.mpr ⟨fun phase _ => ?_, hphases.imp fun hle first hfirst second
    hsecond => ?_⟩
  · exact pairwise_ofPhase phase log
  · simp [inOrder, (mem_ofPhase.mp hfirst).2, (mem_ofPhase.mp hsecond).2, hle]

/-- **The order of a replay** is a stable sort by phases. -/
theorem sorted_replayOrder (log : List Directive) : Sorted log (replayOrder log) where
  perm := perm_of_ofPhase_eq fun phase => ofPhase_replayOrder phase log
  pairwise := pairwise_replayOrder log
  stable phase := ofPhase_replayOrder phase log

/-- A directive that can stand before all others of a log stays in front of them. -/
theorem replayOrder_cons {first : Directive} {rest : List Directive}
    (h : ∀ directive ∈ rest, inOrder first directive) :
    replayOrder (first :: rest) = first :: replayOrder rest := by
  have hnone (phase : Phase) (hlt : phase.rank < first.phase.rank) :
      (rest.filter fun directive => directive.phase = phase) = [] := by
    rw [List.filter_eq_nil_iff]
    intro directive hmem hphase
    have hle := h directive hmem
    simp only [inOrder, decide_eq_true_eq] at hle hphase
    rw [hphase] at hle
    exact Nat.not_lt.mpr hle hlt
  -- The phases before that of the first directive are empty
  unfold replayOrder
  cases hfirst : first.phase <;> rw [hfirst] at hnone
  all_goals simp [Phase.all, hfirst, hnone, Phase.rank]

/-- A log that is sorted by phases is replayed as it stands. -/
theorem replayOrder_of_pairwise (h : log.Pairwise fun first second => inOrder first second) :
    replayOrder log = log := by
  induction log with
  | nil => rfl
  | cons first rest ih =>
    obtain ⟨hfirst, hrest⟩ := List.pairwise_cons.mp h
    rw [replayOrder_cons hfirst, ih hrest]

/-- A replay sees of a log what each phase has, and nothing else. -/
theorem replayOrder_eq_iff :
    replayOrder log = replayOrder log' ↔ ∀ phase, ofPhase phase log = ofPhase phase log' := by
  constructor
  · intro h phase
    rw [← ofPhase_replayOrder, h, ofPhase_replayOrder]
  · intro h
    exact List.flatMap_congr fun phase _ => h phase

/-- **There is no other** stable sort by phases. -/
theorem Sorted.eq_replayOrder {sorted : List Directive} (h : Sorted log sorted) :
    sorted = replayOrder log := by
  rw [← replayOrder_of_pairwise h.pairwise, replayOrder_eq_iff]
  exact h.stable

/-- Sorting by phases with a stable sort gives the order of a replay. -/
theorem replayOrder_eq_mergeSort (log : List Directive) :
    replayOrder log = log.mergeSort inOrder := by
  have htrans (a b c : Directive) (hab : inOrder a b = true) (hbc : inOrder b c = true) :
      inOrder a c = true := by
    simp only [inOrder, decide_eq_true_eq] at hab hbc ⊢
    exact Nat.le_trans hab hbc
  have htotal (a b : Directive) : (inOrder a b || inOrder b a) = true := by
    simpa [inOrder] using Nat.le_total a.phase.rank b.phase.rank
  refine (Sorted.eq_replayOrder ⟨log.mergeSort_perm inOrder, log.pairwise_mergeSort htrans htotal,
    fun phase => ?_⟩).symm
  -- The directives of a phase are sorted already, so the sort leaves them as they are
  have hsub : (ofPhase phase log).Sublist (ofPhase phase (log.mergeSort inOrder)) := by
    have hfilter := (List.sublist_mergeSort htrans htotal (pairwise_ofPhase phase log)
      List.filter_sublist).filter
      fun directive => decide (directive.phase = phase)
    simpa only [ofPhase, List.filter_filter, Bool.and_self] using hfilter
  exact (hsub.eq_of_length ((log.mergeSort_perm inOrder).filter _).length_eq.symm).symm

end Directive

/-! ## Libraries -/

/-- An implementation whose log stands in the order of its replay. -/
def Implementation.inPhases : Implementation → Implementation
  | .native primitive => .native primitive
  | .blueprint ⟨log⟩ => .blueprint ⟨Directive.replayOrder log⟩

/-- Implementations that are the same in the order of their replay: none, one primitive, or logs with
one replay. -/
theorem Implementation.cases_of_inPhases_eq {found found' : Option Implementation}
    (h : found'.map inPhases = found.map inPhases) :
    (found' = none ∧ found = none) ∨
      (∃ primitive, found' = some (.native primitive) ∧ found = some (.native primitive)) ∨
      ∃ log' log, found' = some (.blueprint ⟨log'⟩) ∧ found = some (.blueprint ⟨log⟩) ∧
        Directive.replayOrder log' = Directive.replayOrder log := by
  cases found with
  | none => exact Or.inl ⟨Option.map_eq_none_iff.mp h, rfl⟩
  | some implementation =>
    -- An implementation stays of its kind, and a primitive stays itself
    obtain ⟨implementation', rfl, hsame⟩ := Option.map_eq_some_iff.mp h
    cases implementation with
    | native primitive =>
      cases implementation' with
      | native primitive' =>
        exact Or.inr (Or.inl ⟨primitive, congrArg some hsame, rfl⟩)
      | blueprint => cases hsame
    | blueprint blueprint =>
      cases implementation' with
      | native => cases hsame
      | blueprint blueprint' =>
        refine Or.inr (Or.inr ⟨_, _, rfl, rfl, ?_⟩)
        simpa only [inPhases, Implementation.blueprint.injEq, Blueprint.mk.injEq] using hsame

namespace Specification

variable {spec spec' : Specification}

/-- A specification whose logs stand in the order of their replay. -/
def inPhases (spec : Specification) : Specification :=
  { spec with implementations := spec.implementations.map Implementation.inPhases }

theorem isEmpty_inPhases (spec : Specification) :
    spec.inPhases.implementations.isEmpty = spec.implementations.isEmpty :=
  List.isEmpty_map

end Specification

/-- Two libraries have the same specifications up to the order in which the directives of different
phases stand in the logs. -/
def Library.SamePhases (library library' : Library) : Prop :=
  ∀ identifier, (library'.get? identifier).map Specification.inPhases =
    (library.get? identifier).map Specification.inPhases

namespace Draft

variable {library library' : Library} {growPart growPart' : Grow}

/-- **A directive** is carried out in the same way in both libraries, if parts are. -/
theorem replay_of_samePhases (hlibrary : library.SamePhases library')
    (hgrow : ∀ {spec spec'} draft, spec'.inPhases = spec.inPhases →
      growPart' spec' draft = growPart spec draft)
    (composite : NodeId) (name : String) (draft : Draft) (directive : Directive) :
    replay library' growPart' composite name draft directive =
      replay library growPart composite name draft directive := by
  cases directive with
  | part specification role =>
    have hget := hlibrary specification
    unfold replay
    dsimp only
    cases hspec : library.get? specification with
    | none =>
      rw [hspec, Option.map_none, Option.map_eq_none_iff] at hget
      rw [hget]
    | some spec =>
      rw [hspec, Option.map_some] at hget
      obtain ⟨spec', hspec', hsame⟩ := Option.map_eq_some_iff.mp hget
      -- A specification is skipped as empty in both libraries or in none
      have hempty : spec'.implementations.isEmpty = spec.implementations.isEmpty := by
        rw [← spec'.isEmpty_inPhases, hsame, spec.isEmpty_inPhases]
      simp only [hspec', hempty, hgrow draft hsame]
  | _ => rfl

theorem replayAll_of_samePhases (hlibrary : library.SamePhases library')
    (hgrow : ∀ {spec spec'} draft, spec'.inPhases = spec.inPhases →
      growPart' spec' draft = growPart spec draft)
    (composite : NodeId) (name : String) (log : List Directive) (draft : Draft) :
    replayAll library' growPart' composite name log draft =
      replayAll library growPart composite name log draft := by
  induction log generalizing draft with
  | nil => rfl
  | cons first rest ih =>
    -- The first directive does the same in both libraries, and the rest follow by induction
    unfold replayAll
    rw [replay_of_samePhases hlibrary hgrow]
    split
    · rfl
    · exact ih _

/-- **Growing a node** comes to the same in both libraries, by induction on the levels that may be
nested. -/
theorem grow_of_samePhases (hlibrary : library.SamePhases library') (traced : Bool)
    (limit levels : Nat) {spec spec' : Specification} (hspec : spec'.inPhases = spec.inPhases)
    (index : Nat) (draft : Draft) : grow library' traced limit levels spec' index draft =
      grow library traced limit levels spec index draft := by
  induction levels generalizing spec spec' index draft with
  | zero => simp only [grow, show spec'.identifier = spec.identifier from
      (congrArg Specification.identifier hspec :)]
  | succ levels ih =>
    obtain ⟨identifier, inletCount, exitCount, made⟩ := spec
    obtain ⟨identifier', inletCount', exitCount', made'⟩ := spec'
    -- Specifications that agree in phases have the same name, ports and number of implementations
    obtain ⟨rfl, rfl, rfl, hmade⟩ := Specification.mk.inj hspec
    have hat : (made'[index]?).map Implementation.inPhases =
        (made[index]?).map Implementation.inPhases := by
      rw [← List.getElem?_map, hmade, List.getElem?_map]
    have hlength : made'.length = made.length := by
      simpa using congrArg List.length hmade
    simp only [grow, Specification.implementation, Library.implementationNotices]
    generalize made'[index]? = found' at hat ⊢
    generalize made[index]? = found at hat ⊢
    -- The implementation is missing in both, or the same primitive, or two logs with equal phases
    obtain ⟨rfl, rfl⟩ | ⟨primitive, rfl, rfl⟩ | ⟨log', log, rfl, rfl, hlog⟩ :=
      Implementation.cases_of_inPhases_eq hat
    · simp only [hlength]
    · rfl
    · -- The parts are grown with one level less
      simp only [hlog, replayAll_of_samePhases hlibrary fun draft hpart => ih hpart 0 draft]

end Draft

namespace Library

variable {library library' : Library}

/-- **A build** comes to the same in both libraries. -/
theorem build_of_samePhases (h : library.SamePhases library') (identifier : String)
    (index nestingLimit : Nat) (traced : Bool) :
    library'.build identifier index nestingLimit traced =
      library.build identifier index nestingLimit traced := by
  have hget := h identifier
  unfold build find
  -- A name is missing in both libraries, or found in both with the same phases
  cases hspec : library.get? identifier with
  | none =>
    rw [hspec, Option.map_none, Option.map_eq_none_iff] at hget
    rw [hget]
  | some spec =>
    rw [hspec, Option.map_some] at hget
    obtain ⟨spec', hspec', hsame⟩ := Option.map_eq_some_iff.mp hget
    rw [hspec']
    exact Draft.grow_of_samePhases h traced nestingLimit (nestingLimit + 1) hsame index {}

/-- A log can be replaced by another one that is the same phase by phase. -/
theorem exists_edit_samePhases {identifier : String} {spec : Specification} {index : Nat}
    {log log' : List Directive} (hspec : library.get? identifier = some spec)
    (hlog : spec.implementations[index]? = some (.blueprint ⟨log⟩))
    (hphases : ∀ phase, Directive.ofPhase phase log' = Directive.ofPhase phase log) :
    ∃ library', library.edit (.replaceImplementation identifier index (.blueprint ⟨log'⟩)) =
      .ok library' ∧ library.SamePhases library' := by
  have hfind : library.find identifier = .ok spec := by
    unfold find
    rw [hspec]
  have hfound : spec.implementation index = .ok (.blueprint ⟨log⟩) := by
    unfold Specification.implementation
    rw [hlog]
  refine ⟨_, Except.bind_eq_ok_iff.mpr ⟨spec, hfind, Except.bind_eq_ok_iff.mpr
    ⟨_, Except.bind_eq_ok_iff.mpr ⟨_, hfound, rfl⟩, rfl⟩⟩, fun other => ?_⟩
  unfold get?
  rw [Table.get?_insert]
  split
  next hname =>
    -- The new log has the order of replay of the old one
    have hreplay : Implementation.inPhases (.blueprint ⟨log'⟩) =
        Implementation.inPhases (.blueprint ⟨log⟩) :=
      congrArg (fun log => Implementation.blueprint ⟨log⟩)
        (Directive.replayOrder_eq_iff.mpr hphases)
    have hset : (spec.implementations.set index (.blueprint ⟨log'⟩)).map Implementation.inPhases =
        spec.implementations.map Implementation.inPhases := by
      obtain ⟨hindex, hhere⟩ := List.getElem?_eq_some_iff.mp hlog
      rw [List.map_set, hreplay, ← List.map_set, ← hhere, List.set_getElem_self]
    rw [hname, show library.specifications.get? identifier = some spec from hspec,
      Option.map_some, Option.map_some, Specification.inPhases, hset]
    rfl
  next => rfl

/-- **A replay goes by phases.**  The order in which a log is replayed is the one stable sort of the
log by phases, and sorting again changes nothing.  Libraries whose logs are the same phase by phase
build the same networks with the same issues, or fail for the same reasons; and every log of a
library can be replaced by any other that is the same phase by phase. -/
theorem replay_goes_by_phases :
    (∀ log : List Directive, Directive.Sorted log (Directive.replayOrder log) ∧
      (∀ sorted, Directive.Sorted log sorted → sorted = Directive.replayOrder log) ∧
      Directive.replayOrder log = log.mergeSort Directive.inOrder ∧
      Directive.replayOrder log = Phase.all.flatMap (fun phase => Directive.ofPhase phase log) ∧
      Directive.replayOrder (Directive.replayOrder log) = Directive.replayOrder log) ∧
    (∀ library library' : Library, library.SamePhases library' →
      ∀ (identifier : String) (options : BuildOptions),
        library'.instantiate identifier options = library.instantiate identifier options ∧
        library'.instantiateNotices identifier options =
          library.instantiateNotices identifier options) ∧
    ∀ (library : Library) (identifier : String) (spec : Specification) (index : Nat)
      (log log' : List Directive), library.get? identifier = some spec →
      spec.implementations[index]? = some (.blueprint ⟨log⟩) →
      (∀ phase, Directive.ofPhase phase log' = Directive.ofPhase phase log) →
      ∃ library', library.edit (.replaceImplementation identifier index (.blueprint ⟨log'⟩)) =
        .ok library' ∧ library.SamePhases library' := by
  refine ⟨fun log => ⟨Directive.sorted_replayOrder log,
      fun sorted => Directive.Sorted.eq_replayOrder, Directive.replayOrder_eq_mergeSort log, rfl, ?_⟩,
    fun library library' h identifier options => ?_,
    fun library identifier spec index log log' => exists_edit_samePhases⟩
  -- A log in the order of phases is its own replay order
  · exact Directive.replayOrder_of_pairwise (Directive.pairwise_replayOrder log)
  · unfold instantiate instantiateNotices
    rw [build_of_samePhases h]
    exact ⟨rfl, rfl⟩

/-! ### A log that goes part by part -/

/-- Two adders in a row, described part by part; a third part cannot be made. -/
def inRowLog : List Directive :=
  [.part "+" "a", .exposeEntry "a", .exposeInlet "a" 0 0, .part "+" "b", .exposeInlet "b" 1 1,
    .dataFlow "a" "b" 0, .controlFlow "a" 1 "b", .exposeOutlet "b", .exposeExit "b" 1 0,
    .part "missing" "c", .dataFlow "b" "c" 0]

/-- The same with what is exposed in front of what is there. -/
def inRowExposedFirst : List Directive :=
  [.exposeEntry "a", .exposeExit "b" 1 0, .exposeOutlet "b", .exposeInlet "a" 0 0,
    .dataFlow "a" "b" 0, .exposeInlet "b" 1 1, .controlFlow "a" 1 "b", .dataFlow "b" "c" 0,
    .part "+" "a", .part "+" "b", .part "missing" "c"]

/-- The library of the primitives and of the two adders. -/
def inRow : Library where
  specifications := primitives.specifications.insert "in row" (.composite "in row" 2 1 inRowLog)

/-- The two logs are replayed in the same order, and one can stand for the other. -/
theorem replay_of_inRow :
    Directive.replayOrder inRowExposedFirst = inRowLog.mergeSort Directive.inOrder ∧
      ∃ library', inRow.edit
          (.replaceImplementation "in row" 0 (.blueprint ⟨inRowExposedFirst⟩)) = .ok library' ∧
        library' ≠ inRow ∧
        library'.instantiate "in row" {} = inRow.instantiate "in row" {} ∧
        (inRow.instantiate "in row" {}).toOption.map (fun net => net.issues.size) = some 2 := by
  -- The logs differ only in how directives of different phases are mixed
  have hphases (phase : Phase) :
      Directive.ofPhase phase inRowExposedFirst = Directive.ofPhase phase inRowLog := by
    cases phase <;> decide
  obtain ⟨hlogs, hbuilds, hedits⟩ := replay_goes_by_phases
  obtain ⟨library', hedit, hsame⟩ := hedits inRow "in row" (.composite "in row" 2 1 inRowLog) 0
    inRowLog inRowExposedFirst (by decide +kernel) rfl hphases
  refine ⟨?_, library', hedit, ?_, (hbuilds inRow library' hsame "in row" {}).1, by decide +kernel⟩
  · rw [← (hlogs inRowLog).2.2.1]
    exact Directive.replayOrder_eq_iff.mpr hphases
  · rintro rfl
    have hchanged : inRow.edit
        (.replaceImplementation "in row" 0 (.blueprint ⟨inRowExposedFirst⟩)) ≠ .ok inRow := by
      decide +kernel
    exact hchanged hedit

end Library

end TokenNet
