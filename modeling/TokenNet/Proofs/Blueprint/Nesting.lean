import TokenNet.Network
import TokenNet.Proofs.Blueprint.Forecast

/-!
# Nesting

A specification unfolds into a tree: below a composite stand the parts that its log asks for and
that can be made, in the order of the log.  The tree has no end if the specification contains
itself, but a build looks at no more of it than the nesting limit allows.  It is aborted just where
a depth-first walk meets the first node below that limit, and nothing below the root can abort it
otherwise: a part that is unknown or has no implementation is not in the tree.

## Main statements

- `Draft.meets_grow`: growing a node succeeds or is aborted as the tree says.
- `Draft.grow_of_le`: more levels change nothing for a node that can be grown.
- `Library.instantiate_iff`: which networks can be built, and what happens to the others.
-/

namespace TokenNet

/-! ## The tree of a specification -/

theorem Specification.primitive?_of_log?_none {spec : Specification} {index : Nat}
    (hindex : index < spec.implementations.length) (h : spec.log? index = none) :
    ∃ primitive, spec.primitive? index = some primitive := by
  unfold log? at h
  unfold primitive?
  rw [List.getElem?_eq_getElem hindex] at h ⊢
  cases hfound : spec.implementations[index] with
  | native primitive => exact ⟨primitive, rfl⟩
  | blueprint blueprint => simp [hfound] at h

namespace Library

/-- A node in the tree of a specification. -/
structure Occurrence where
  depth : Nat
  specification : Specification
deriving DecidableEq, Repr, Inhabited

variable (library : Library)

/-- The specifications of the parts of a node, in the order of its log.  A native node has none. -/
def children (spec : Specification) (index : Nat) : List Specification :=
  ((spec.log? index).getD []).filterMap fun directive => (library.asked? directive).map Prod.snd

theorem children_of_none {spec : Specification} {index : Nat} (h : spec.log? index = none) :
    library.children spec index = [] := by
  rw [children, h]
  rfl

theorem findSome?_children {α : Type} {spec : Specification} {index : Nat} {log : List Directive}
    (h : spec.log? index = some log) (search : Specification → Option α) :
    (library.children spec index).findSome? search =
      (log.filterMap library.asked?).findSome? fun asked => search asked.2 := by
  rw [children, h, Option.getD_some, ← List.map_filterMap, List.findSome?_map]
  rfl

/-- The tree of a specification in the implementation at a position, depth first and down to so many
levels below the root, which stands at a given depth.  Parts are made by their first
implementation. -/
def unfold : Nat → Nat → Specification → Nat → List Occurrence
  | 0, depth, spec, _ => [⟨depth, spec⟩]
  | levels + 1, depth, spec, index =>
    ⟨depth, spec⟩ ::
      (library.children spec index).flatMap fun child => unfold levels (depth + 1) child 0

/-- The first node of the tree at a depth. -/
def firstAt (levels depth : Nat) (spec : Specification) (index : Nat) : Option Occurrence :=
  (library.unfold levels depth spec index).find? fun node => node.depth = depth + levels

theorem firstAt_succ (levels depth : Nat) (spec : Specification) (index : Nat) :
    library.firstAt (levels + 1) depth spec index =
      (library.children spec index).findSome? fun child =>
        library.firstAt levels (depth + 1) child 0 := by
  unfold firstAt
  rw [Library.unfold, List.find?_cons_of_neg (by simp), List.find?_flatMap]
  congr 2
  funext node
  rw [Nat.add_assoc, Nat.add_comm 1 levels]

/-- No node of the tree stands deeper than it was unfolded. -/
theorem depth_le_of_mem_unfold {levels depth index : Nat} {spec : Specification}
    {node : Occurrence} (h : node ∈ library.unfold levels depth spec index) :
    node.depth ≤ depth + levels := by
  induction levels generalizing depth spec index with
  | zero =>
    rw [List.mem_singleton.mp h]
    exact Nat.le_add_right _ _
  | succ levels ih =>
    rcases List.mem_cons.mp h with rfl | h
    · exact Nat.le_add_right _ _
    · obtain ⟨child, _, h⟩ := List.mem_flatMap.mp h
      have hle := ih h
      omega

/-- The parts come first when a log is replayed, and in the order of the log. -/
theorem filterMap_asked?_replayOrder (log : List Directive) :
    (Directive.replayOrder log).filterMap library.asked? = log.filterMap library.asked? := by
  rw [Directive.replayOrder_eq, List.filterMap_append, List.filterMap_filter]
  have hwirings : (Directive.wirings log).filterMap library.asked? = [] := by
    refine List.filterMap_eq_nil_iff.mpr fun directive hmem => ?_
    exact library.asked?_of_wiring (Directive.mem_wirings.mp hmem).2
  rw [hwirings, List.append_nil]
  refine List.filterMap_congr fun directive _ => ?_
  split
  next => rfl
  next hwiring => exact (library.asked?_of_wiring (by simpa using hwiring)).symm

end Library

/-! ## Growing -/

namespace Draft

variable {library : Library} {traced : Bool} {limit : Nat}

/-- The outcome of a build that is aborted at a node of the tree, or not at all. -/
def Meets {α : Type} (limit : Nat) (first : Option Library.Occurrence)
    (outcome : Except BuildFailure α) : Prop :=
  match first with
  | some node => ∃ notices,
      outcome = .error ⟨.nestingTooDeep node.specification.identifier limit, notices⟩
  | none => ∃ result, outcome = .ok result

theorem Meets.map {α β : Type} {first : Option Library.Occurrence}
    {outcome : Except BuildFailure α} (h : Meets limit first outcome) (f : α → β) :
    Meets limit first (outcome.map f) := by
  cases first with
  | some node =>
    obtain ⟨notices, rfl⟩ := h
    exact ⟨notices, rfl⟩
  | none =>
    obtain ⟨result, rfl⟩ := h
    exact ⟨f result, rfl⟩

/-- **A replay is aborted at the first part that is**, and by nothing else. -/
theorem meets_replayAll {growPart : Grow} {first : Specification → Option Library.Occurrence}
    (hgrow : ∀ {identifier part}, library.makeable? identifier = some part → ∀ draft,
      Meets limit (first part) (growPart part draft))
    (composite : NodeId) (name : String) (log : List Directive) (draft : Draft) :
    Meets limit ((log.filterMap library.asked?).findSome? fun asked => first asked.2)
      (replayAll library growPart composite name log draft) := by
  induction log generalizing draft with
  | nil => exact ⟨draft, rfl⟩
  | cons directive rest ih =>
    unfold replayAll
    cases hasked : library.asked? directive with
    | none =>
      -- A wiring is carried out, and a part that cannot be made is skipped
      obtain ⟨next, hnext⟩ : ∃ next,
          replay library growPart composite name draft directive = .ok next := by
        cases directive with
        | part specification role =>
          have hmakeable : library.makeable? specification = none := by
            simpa [Library.asked?] using hasked
          -- A part is grown, or its first node that is too deep aborts the log
          exact ⟨_, by rw [replay_part, hmakeable]⟩
        | _ => exact ⟨_, rfl⟩
      rw [List.filterMap_cons_none hasked, hnext]
      exact ih next
    | some asked =>
      obtain ⟨identifier, part⟩ := asked
      obtain ⟨role, rfl, hmakeable⟩ := Library.asked?_eq_some_iff.mp hasked
      have hpart := hgrow hmakeable draft
      rw [List.filterMap_cons_some hasked, List.findSome?_cons, replay_part, hmakeable]
      cases hfirst : first part with
      | some node =>
        rw [hfirst] at hpart
        obtain ⟨notices, hpart⟩ := hpart
        exact ⟨notices, by simp only [hpart]⟩
      | none =>
        rw [hfirst] at hpart
        obtain ⟨⟨node, grown⟩, hpart⟩ := hpart
        simp only [hpart]
        exact ih _

section Steps

variable {levels : Nat} {spec : Specification} {index : Nat}

theorem grow_of_primitive {primitive : Primitive} (h : spec.primitive? index = some primitive)
    (draft : Draft) :
    grow library traced limit (levels + 1) spec index draft =
      .ok ((draft.graph.addNative primitive spec.identifier traced).1,
        { draft with graph := (draft.graph.addNative primitive spec.identifier traced).2 }) := by
  rw [grow, Specification.implementation_eq_native.mpr h]

theorem grow_of_log {log : List Directive} (h : spec.log? index = some log) (draft : Draft) :
    grow library traced limit (levels + 1) spec index draft =
      let framed := draft.graph.addComposite spec.identifier spec.inletCount spec.exitCount traced
      (replayAll library (fun part draft => grow library traced limit levels part 0 draft) framed.1
        spec.identifier (Directive.replayOrder log) { draft with graph := framed.2 }).map
          (Prod.mk framed.1) := by
  rw [grow, Specification.implementation_eq_blueprint.mpr h]
  dsimp only
  split
  next hreplay => rw [hreplay, Except.map]
  next hreplay => rw [hreplay, Except.map]

end Steps

/-- **Growing a node succeeds or is aborted as its tree says**: it is aborted if a node stands as
many levels below it as may not be nested any more, and the abort names the first such node.  The
induction is on the levels. -/
theorem meets_grow (library : Library) (traced : Bool) (limit levels depth : Nat)
    {spec : Specification} {index : Nat} (hindex : index < spec.implementations.length)
    (draft : Draft) :
    Meets limit (library.firstAt levels depth spec index)
      (grow library traced limit levels spec index draft) := by
  induction levels generalizing depth spec index draft with
  | zero =>
    have hfirst : library.firstAt 0 depth spec index = some ⟨depth, spec⟩ := by
      simp [Library.firstAt, Library.unfold]
    rw [hfirst]
    exact ⟨draft.notices, rfl⟩
  | succ levels ih =>
    rw [library.firstAt_succ]
    cases hlog : spec.log? index with
    | none =>
      obtain ⟨primitive, hprimitive⟩ := Specification.primitive?_of_log?_none hindex hlog
      rw [library.children_of_none hlog, grow_of_primitive hprimitive]
      exact ⟨_, rfl⟩
    | some log =>
      -- Parts are grown from their first implementation, which they have
      have hgrow {identifier : String} {part : Specification}
          (hmakeable : library.makeable? identifier = some part) (draft : Draft) :
          Meets limit (library.firstAt levels (depth + 1) part 0)
            (grow library traced limit levels part 0 draft) := by
        have hsome := (Option.filter_eq_some_iff.mp hmakeable).2
        exact ih (depth + 1) (List.length_pos_iff.mpr (by simpa using hsome)) draft
      rw [library.findSome?_children hlog, grow_of_log hlog, ← library.filterMap_asked?_replayOrder]
      exact (meets_replayAll hgrow _ _ _ _).map _

/-! ## More levels -/

/-- What one way of growing parts makes, another one makes as well. -/
def Extends (growPart growPart' : Grow) : Prop :=
  ∀ part draft grown, growPart part draft = .ok grown → growPart' part draft = .ok grown

theorem replayAll_of_extends {growPart growPart' : Grow} (h : Extends growPart growPart')
    {composite : NodeId} {name : String} {log : List Directive} {draft draft' : Draft}
    (hreplay : replayAll library growPart composite name log draft = .ok draft') :
    replayAll library growPart' composite name log draft = .ok draft' := by
  induction log generalizing draft with
  | nil => exact hreplay
  | cons directive rest ih =>
    unfold replayAll at hreplay ⊢
    cases hfirst : replay library growPart composite name draft directive with
    | error failure => simp [hfirst] at hreplay
    | ok next =>
      have hsame : replay library growPart' composite name draft directive = .ok next := by
        cases directive with
        | part specification role =>
          rw [replay_part] at hfirst ⊢
          cases hmakeable : library.makeable? specification with
          | none => rwa [hmakeable] at hfirst
          | some part =>
            rw [hmakeable] at hfirst
            cases hgrown : growPart part draft with
            | error failure => simp [hgrown] at hfirst
            | ok grown =>
              simp only [hgrown, h part draft grown hgrown] at hfirst ⊢
              exact hfirst
        -- Other directives grow nothing
        | _ => exact hfirst
      simp only [hfirst, hsame] at hreplay ⊢
      exact ih hreplay

/-- **More levels change nothing** for a node that can be grown. -/
theorem grow_of_le (limit' : Nat) {levels levels' index : Nat} (hle : levels ≤ levels') :
    Extends (fun spec draft => grow library traced limit levels spec index draft)
      fun spec draft => grow library traced limit' levels' spec index draft := by
  induction levels generalizing levels' index with
  | zero =>
    intro spec draft grown h
    cases h
  | succ levels ih =>
    intro spec draft grown h
    obtain ⟨levels', rfl⟩ : ∃ n, levels' = n + 1 := ⟨levels' - 1, by omega⟩
    obtain ⟨node, draft'⟩ := grown
    dsimp only at h ⊢
    -- Each part is grown one level deeper, in both builds alike
    rcases grow_eq_ok_iff.mp h with ⟨primitive, hprimitive, hnode, hgrown⟩ | ⟨log, hlog, hnode, hgrown⟩
    · exact grow_eq_ok_iff.mpr (.inl ⟨primitive, hprimitive, hnode, hgrown⟩)
    · exact grow_eq_ok_iff.mpr (.inr ⟨log, hlog, hnode,
        replayAll_of_extends (ih (Nat.le_of_succ_le_succ hle)) hgrown⟩)

end Draft

/-! ## Networks -/

namespace Library

variable {library : Library} {identifier : String} {options : BuildOptions}

/-- The tree of the root of a network that is to be built, down to the first level that is too
deep. -/
def treeOf (library : Library) (options : BuildOptions) (spec : Specification) : List Occurrence :=
  library.unfold (options.limits.nestingLimit + 1) 0 spec options.implementation

theorem instantiate_of_unknown (h : library.get? identifier = none) :
    library.instantiate identifier options = .error (.registry (.unknown identifier)) := by
  unfold instantiate build find
  rw [h]

theorem instantiate_of_outOfRange {spec : Specification} (h : library.get? identifier = some spec)
    (hindex : spec.implementations.length ≤ options.implementation) :
    library.instantiate identifier options = .error (.registry
      (.outOfRange spec.identifier options.implementation spec.implementations.length)) := by
  unfold instantiate build find
  rw [h]
  simp only [Draft.grow, Specification.implementation, List.getElem?_eq_none hindex]

/-- No node is too deep just if none stands on the first level that is. -/
theorem find?_treeOf_eq_none {spec : Specification} :
    ((library.treeOf options spec).find? fun node =>
        node.depth = options.limits.nestingLimit + 1) = none ↔
      ∀ node ∈ library.treeOf options spec, node.depth ≤ options.limits.nestingLimit := by
  rw [List.find?_eq_none]
  refine forall₂_congr fun node hmem => ?_
  have hle := library.depth_le_of_mem_unfold hmem
  simp only [decide_eq_true_eq]
  omega

/-- If the root has the implementation, the tree decides. -/
theorem instantiate_of_tree {spec : Specification} (h : library.get? identifier = some spec)
    (hindex : options.implementation < spec.implementations.length) :
    match (library.treeOf options spec).find? fun node =>
        node.depth = options.limits.nestingLimit + 1 with
    | some node => library.instantiate identifier options = .error
        (.nestingTooDeep node.specification.identifier options.limits.nestingLimit)
    | none => ∃ net, library.instantiate identifier options = .ok net := by
  have hgrow := Draft.meets_grow library options.traced options.limits.nestingLimit
    (options.limits.nestingLimit + 1) 0 hindex {}
  unfold firstAt at hgrow
  rw [Nat.zero_add] at hgrow
  unfold treeOf instantiate build find
  rw [h]
  dsimp only
  -- Either some node is too deep, and the first of them is named, or all are grown
  cases hfirst : (library.unfold (options.limits.nestingLimit + 1) 0 spec
      options.implementation).find? fun node =>
        node.depth = options.limits.nestingLimit + 1 with
  | some node =>
    rw [hfirst] at hgrow
    obtain ⟨notices, hgrow⟩ := hgrow
    simp only [hgrow]
  | none =>
    rw [hfirst] at hgrow
    obtain ⟨grown, hgrow⟩ := hgrow
    exact ⟨_, by rw [hgrow]⟩

/-- A larger limit on nesting changes nothing about a network that can be built. -/
theorem instantiate_of_le {net : Network} {larger : Nat}
    (h : library.instantiate identifier options = .ok net)
    (hle : options.limits.nestingLimit ≤ larger) :
    let limits := { options.limits with nestingLimit := larger }
    library.instantiate identifier { options with limits } = .ok { net with limits } := by
  unfold instantiate build at h ⊢
  cases hfind : library.find identifier with
  | error refusal => simp [hfind] at h
  | ok spec =>
    simp only [hfind] at h ⊢
    cases hgrow : Draft.grow library options.traced options.limits.nestingLimit
        (options.limits.nestingLimit + 1) spec options.implementation {} with
    | error failure => simp [hgrow] at h
    | ok grown =>
      rw [hgrow] at h
      -- With more levels the same graph is grown
      have hlarger := Draft.grow_of_le larger (Nat.succ_le_succ hle) spec {} grown hgrow
      dsimp only at hlarger
      rw [hlarger]
      obtain rfl := Except.ok.inj h
      rfl

/-- **Which networks can be built, and what happens to the others.**  This holds of every library,
also of one whose specifications contain themselves.

* The build is refused by the registry if the identifier is unknown, or else if the root lacks the
  implementation that was chosen.  No part is refused in this way.
* Otherwise it is aborted if the tree of the root has a node one level below the limit on nesting,
  and the abort names the first such node that a depth-first walk meets.
* Otherwise it succeeds, and a larger limit gives the same network. -/
theorem instantiate_iff (library : Library) (identifier : String) (options : BuildOptions) :
    let limit := options.limits.nestingLimit
    let outcome := library.instantiate identifier options
    (∀ refusal, outcome = .error (.registry refusal) ↔
      (library.get? identifier = none ∧ refusal = .unknown identifier) ∨
      ∃ spec, library.get? identifier = some spec ∧
        spec.implementations.length ≤ options.implementation ∧
        refusal =
          .outOfRange spec.identifier options.implementation spec.implementations.length) ∧
    (∀ name named, outcome = .error (.nestingTooDeep name named) ↔
      named = limit ∧ ∃ spec node, library.get? identifier = some spec ∧
        options.implementation < spec.implementations.length ∧
        (library.treeOf options spec).find? (fun node => node.depth = limit + 1) = some node ∧
        name = node.specification.identifier) ∧
    ((∃ net, outcome = .ok net) ↔ ∃ spec, library.get? identifier = some spec ∧
      options.implementation < spec.implementations.length ∧
      ∀ node ∈ library.treeOf options spec, node.depth ≤ limit) ∧
    ∀ net larger, outcome = .ok net → limit ≤ larger →
      let limits := { options.limits with nestingLimit := larger }
      library.instantiate identifier { options with limits } = .ok { net with limits } := by
  intro limit outcome
  refine and_assoc.mp (and_assoc.mp ⟨?_, fun net larger => instantiate_of_le⟩)
  cases hspec : library.get? identifier with
  | none =>
    have houtcome : outcome = .error (.registry (.unknown identifier)) :=
      instantiate_of_unknown hspec
    simp [houtcome, eq_comm]
  | some spec =>
    simp only [Option.some.injEq, exists_eq_left', reduceCtorEq, false_and, false_or]
    -- The three outcomes exclude each other, so each one decides all the equivalences
    rcases Nat.lt_or_ge options.implementation spec.implementations.length with hindex | hindex
    · have houtcome := instantiate_of_tree hspec hindex
      rw [← find?_treeOf_eq_none]
      cases hfirst : (library.treeOf options spec).find? fun node =>
          node.depth = options.limits.nestingLimit + 1 with
      | some node =>
        rw [hfirst] at houtcome
        simp [outcome, houtcome, hindex, limit, hfirst, and_comm, eq_comm]
      | none =>
        rw [hfirst] at houtcome
        obtain ⟨net, houtcome⟩ := houtcome
        simp [outcome, houtcome, hindex, limit, hfirst]
    -- No implementation has that index, so nothing is grown at all
    · have houtcome : outcome = _ := instantiate_of_outOfRange hspec hindex
      simp [houtcome, hindex, Nat.not_lt.mpr hindex, eq_comm]

/-- Two composites that contain each other.  The second one also asks for a part that is unknown. -/
def volley : Library where
  specifications :=
    (primitives.specifications.insert "ping" (.composite "ping" 0 1 [.part "pong" "a"])).insert
      "pong" (.composite "pong" 0 1 [.part "unknown" "a", .part "+" "b", .part "ping" "c"])

/-- With two levels below the root the second composite, met once more on the third level, is the
first node that is too deep.  The adder beside it ends there, and the unknown part does not count. -/
theorem instantiate_volley :
    volley.instantiate "ping" { limits := { nestingLimit := 2 } } =
      .error (.nestingTooDeep "pong" 2) := by
  refine ((instantiate_iff volley "ping" _).2.1 _ _).mpr ⟨rfl, ?_⟩
  exact ⟨.composite "ping" 0 1 [.part "pong" "a"],
    ⟨3, .composite "pong" 0 1 [.part "unknown" "a", .part "+" "b", .part "ping" "c"]⟩,
    by decide +kernel, by decide, by decide +kernel, rfl⟩

end Library

end TokenNet
