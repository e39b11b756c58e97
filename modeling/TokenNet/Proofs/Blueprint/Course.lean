import TokenNet.Proofs.Blueprint.Record

/-!
# The course of a build

Growing a node adds a native node, or it frames a composite and then carries out the directives of
its log one after another; a directive that asks for a part grows the part in the same way and gives
it its place.  Here this is said once without the levels, logs and failures of the program, so that
a property of builds is proved by an induction whose cases are the things that can happen.

## Main statements

- `Draft.Course`: what growing a node has come to, up to some point.
- `Draft.exists_course_of_grow`: whatever is grown comes about in this way.
- `Draft.exists_course_of_instantiate`: so does the graph of every network, beginning with nothing.
-/

namespace TokenNet.Draft

/-- A node was grown from a first draft on, up to some point.  The number says how many levels may
be nested from the node on, its own included.  The flag says whether the node is a composite, whose
log is being carried out. -/
inductive Course (library : Library) (traced : Bool) :
    Nat → Draft → NodeId → Draft → Bool → Prop where
  /-- A native node is added. -/
  | native (levels : Nat) (start : Draft) {identifier : String} {spec : Specification} {index : Nat}
      {primitive : Primitive} (hspec : library.get? identifier = some spec)
      (hprimitive : spec.primitive? index = some primitive) :
      Course library traced (levels + 1) start ⟨start.graph.nodes.size⟩
        { start with graph := (start.graph.addNative primitive spec.identifier traced).2 } false
  /-- A composite is framed. -/
  | frame (levels : Nat) (start : Draft) {identifier : String} {spec : Specification} {index : Nat}
      {log : List Directive} (hspec : library.get? identifier = some spec)
      (hlog : spec.log? index = some log) :
      Course library traced (levels + 1) start ⟨start.graph.nodes.size⟩
        { start with
          graph := (start.graph.addComposite spec.identifier spec.inletCount spec.exitCount
            traced).2 } true
  /-- A directive that wires is carried out. -/
  | rewire {levels : Nat} {start now : Draft} {composite : NodeId}
      (h : Course library traced (levels + 1) start composite now true) (name : String)
      (directive : Directive) :
      Course library traced (levels + 1) start composite (now.rewire composite name directive) true
  /-- A part that cannot be made is skipped. -/
  | skip {levels : Nat} {start now : Draft} {composite : NodeId}
      (h : Course library traced (levels + 1) start composite now true) {issues : List Issue}
      (hissues : ∀ issue ∈ issues, issue.isDuplicateRole = false) :
      Course library traced (levels + 1) start composite (issues.foldl Draft.skip now) true
  /-- A part is grown and takes its place. -/
  | adopt {levels : Nat} {start now grown : Draft} {composite part : NodeId} {framed : Bool}
      (h : Course library traced (levels + 1) start composite now true)
      (hpart : Course library traced levels now part grown framed) (name role : String) :
      Course library traced (levels + 1) start composite (grown.adopt composite name role part) true

variable {library : Library} {traced : Bool} {levels : Nat}

/-- A way of growing parts by which every part of the library is grown. -/
def PartsHaveCourses (library : Library) (traced : Bool) (levels : Nat) (growPart : Grow) : Prop :=
  ∀ {identifier spec draft part grown}, library.get? identifier = some spec →
    growPart spec draft = .ok (part, grown) →
    ∃ framed, Course library traced levels draft part grown framed

section

variable {growPart : Grow} {start now draft' : Draft} {composite : NodeId} {name : String}

theorem Course.replay (hgrow : PartsHaveCourses library traced levels growPart)
    (h : Course library traced (levels + 1) start composite now true) {directive : Directive}
    (hreplay : replay library growPart composite name now directive = .ok draft') :
    Course library traced (levels + 1) start composite draft' true := by
  cases directive with
  | part specification role =>
    rw [replay_part] at hreplay
    -- A part that cannot be made is skipped; one that can be made is grown first.
    cases hmakeable : library.makeable? specification with
    | none =>
      rw [hmakeable] at hreplay
      obtain rfl := Except.ok.inj hreplay
      exact h.skip (library.objects_partIssues hmakeable false name role).2
    | some part =>
      rw [hmakeable] at hreplay
      have hspec : library.get? specification = some part :=
        (Option.filter_eq_some_iff.mp hmakeable).1
      cases hgrown : growPart part now with
      | error failure => simp [hgrown] at hreplay
      | ok pair =>
        obtain ⟨node, grown⟩ := pair
        simp only [hgrown] at hreplay
        obtain rfl := Except.ok.inj hreplay
        obtain ⟨framed, hpart⟩ := hgrow hspec hgrown
        exact h.adopt hpart name role
  | _ =>
    obtain rfl := Except.ok.inj hreplay
    exact h.rewire name _

theorem Course.replayAll (hgrow : PartsHaveCourses library traced levels growPart) {log : List Directive}
    (h : Course library traced (levels + 1) start composite now true)
    (hreplay : replayAll library growPart composite name log now = .ok draft') :
    Course library traced (levels + 1) start composite draft' true := by
  induction log generalizing now with
  | nil => exact Except.ok.inj hreplay ▸ h
  | cons directive rest ih =>
    unfold Draft.replayAll at hreplay
    split at hreplay
    next => cases hreplay
    next middle hfirst => exact ih (h.replay hgrow hfirst) hreplay

end

/-- **Whatever is grown comes about in this way**, by induction on the levels that may be nested. -/
theorem exists_course_of_grow {limit : Nat} {identifier : String} {spec : Specification}
    {index : Nat} {draft draft' : Draft} {node : NodeId}
    (hspec : library.get? identifier = some spec)
    (h : grow library traced limit levels spec index draft = .ok (node, draft')) :
    ∃ framed, Course library traced levels draft node draft' framed := by
  induction levels generalizing identifier spec index draft node draft' with
  | zero => cases h
  | succ levels ih =>
    rcases grow_eq_ok_iff.mp h with ⟨primitive, hprimitive, rfl, rfl⟩ | ⟨log, hlog, rfl, hreplay⟩
    -- A native node takes the next place in the graph, and nothing else is left to do
    · rw [draft.graph.fst_addNative primitive]
      exact ⟨false, .native levels draft hspec hprimitive⟩
    · obtain ⟨hplace, _, _⟩ := draft.graph.node?_addComposite spec.identifier spec.inletCount
        spec.exitCount traced
      rw [hplace] at hreplay ⊢
      exact ⟨true, (Course.frame levels draft hspec hlog).replayAll
        (fun hpart hgrown => ih hpart hgrown) hreplay⟩

/-- The course of the build of a network. -/
theorem exists_course_of_instantiate {library : Library} {identifier : String}
    {options : BuildOptions} {built : Network}
    (h : library.instantiate identifier options = .ok built) : ∃ draft framed,
      Course library options.traced (options.limits.nestingLimit + 1) {} built.root draft framed ∧
        built.graph = draft.graph ∧ built.issues = draft.issues := by
  obtain ⟨spec, root, draft, hspec, hgrow, rfl⟩ := Library.instantiate_eq_ok_iff.mp h
  obtain ⟨framed, hcourse⟩ := exists_course_of_grow hspec hgrow
  exact ⟨draft, framed, hcourse, rfl, rfl⟩

end TokenNet.Draft
