import Mathlib.Data.Finset.Card
import TokenNet.Proofs.Change.Plan
import TokenNet.Proofs.Graph.Owned

/-!
# Places of nodes

While a composite is built, every node behind it has got its place under some composite, so in the
end only the root has none.  Giving a part its place may displace the part that had the role before:
that one stands under the composite as it did, but the composite does not know it any more.  Each
time this happens an issue is recorded.

## Main statements

- `Draft.Course.exists_parent`: everything behind a node that is grown has a place behind it.
- `Draft.Course.exists_depths`: no part stands deeper than the levels of the build allow.
- `Displaced`: a node that its composite does not know.
- `Draft.Course.tally`: the displaced nodes are counted by the issues.
-/

namespace TokenNet

namespace Graph

variable {graph graph' : Graph}

/-! ## Owners in built graphs -/

/-- What owners list is part of the plan. -/
theorem Owned.of_samePlan (h : graph.Owned) (hsame : graph.SamePlan graph') : graph'.Owned := by
  constructor
  -- Each field is read in the first graph and carried over by the plan
  case inlet =>
    intro inlet owner howner
    rw [hsame.inlets] at howner
    obtain ⟨ports, hports, hcount⟩ := h.inlet howner
    obtain ⟨ports', hports', hinlets, _⟩ := hsame.exists_interface? hports
    exact ⟨ports', hports', hinlets ▸ hcount⟩
  case outlet =>
    intro outlet owner howner
    rw [hsame.outlets] at howner
    obtain ⟨ports, hports, hlists⟩ := h.outlet howner
    obtain ⟨ports', hports', _, houtlet, _⟩ := hsame.exists_interface? hports
    exact ⟨ports', hports', houtlet.trans hlists⟩
  case exit =>
    intro exit owner howner
    rw [hsame.exits] at howner
    obtain ⟨ports, hports, hcount⟩ := h.exit howner
    obtain ⟨ports', hports', _, _, hexits, _⟩ := hsame.exists_interface? hports
    exact ⟨ports', hports', hexits ▸ hcount⟩
  case joins =>
    intro node ports' hcomposite hports'
    obtain ⟨ports, hports, _, _, hexits, hjoins⟩ := hsame.symm.exists_interface? hports'
    obtain ⟨hnodup, hreturns⟩ := h.joins (hsame.symm.isComposite hcomposite) hports
    rw [← hexits, ← hjoins]
    -- The return of a join is in its record, of which the plan keeps the kind
    refine ⟨hnodup, hreturns.imp fun join exit hreturn => ?_⟩
    obtain ⟨record, entry, hrecord, hkind⟩ := hreturn
    obtain ⟨record', hrecord', hplan⟩ := hsame.exists_node? hrecord
    refine ⟨record', entry, hrecord', ?_⟩
    rwa [← Node.kind_plan_eq_join, hplan, Node.kind_plan_eq_join]
  case role =>
    intro composite role node hpart
    rw [hsame.part?] at hpart
    obtain ⟨hhosts, hrole⟩ := h.role hpart
    exact ⟨hsame.hosts hhosts, (hsame.bind_node? Node.role_plan node).trans hrole⟩

/-- **Every step of a build lets owners list what they own.** -/
theorem Construct.owned (h : Construct graph graph') (hlineage : graph.Lineage)
    (howned : graph.Owned) : graph'.Owned := by
  -- Adding a node extends the lists, adopting moves a part, and nothing else touches the plan
  cases h with
  | native primitive specification traced =>
    exact howned.raises (graph.raises_addNative specification traced primitive)
      (graph.lists_addNative specification traced primitive)
  | composite specification inletCount exitCount traced =>
    exact howned.raises (graph.raises_addComposite specification traced inletCount exitCount)
      (graph.lists_addComposite specification traced inletCount exitCount)
  | adopt role hpending hlater hpart hloose =>
    have hne : _ ≠ _ := fun h => Nat.ne_of_lt hlater (congrArg NodeId.index h)
    exact howned.adopt hpending.isComposite hne hpart hloose hlineage role
  | connect => exact howned.of_samePlan (.of_sameTree (.connect graph _ _))
  | feed => exact howned.of_samePlan (.of_sameTree (.feed graph _ _))
  | relay => exact howned.of_samePlan (.of_sameTree (.relay graph _ _))
  | direct => exact howned.of_samePlan (.of_sameTree (.setTarget graph _ _))
  | enter => exact howned.of_samePlan (.setEntry graph _ _)

theorem Constructs.owned (h : Constructs graph graph') (hlineage : graph.Lineage)
    (howned : graph.Owned) : graph'.Owned := by
  induction h with
  | refl => exact howned
  | tail hsteps hstep ih => exact hstep.owned (Constructs.lineage hsteps hlineage) ih

/-! ## Displaced nodes -/

/-- A node that can be a part stands under a composite that does not know it. -/
def Displaced (graph : Graph) (node : NodeId) : Prop :=
  graph.Hosts node ∧
    ∃ parent, graph.parentOf? node = some parent ∧ ∀ role, graph.part? parent role ≠ some node

/-- Whether a composite knows a node as a part. -/
def knows (graph : Graph) (composite node : NodeId) : Bool :=
  ((graph.node? composite).bind Node.parts?).any fun parts =>
    parts.rows.any fun row => decide (row.2 = node)

theorem knows_iff {composite node : NodeId} :
    graph.knows composite node = true ↔ ∃ role, graph.part? composite role = some node := by
  unfold knows part? Node.part?
  cases (graph.node? composite) with
  | none => simp
  | some record =>
    cases hparts : record.parts? with
    | none => simp [hparts]
    | some parts =>
      simp only [Option.bind_some, hparts, Option.any_some, List.any_eq_true, decide_eq_true_eq,
        Table.get?_eq_some_iff]
      -- The composite lists the node just when some role is mapped to it
      constructor
      · rintro ⟨⟨role, _⟩, hmem, rfl⟩
        exact ⟨role, hmem⟩
      · rintro ⟨role, hmem⟩
        exact ⟨(role, node), hmem, rfl⟩

instance (graph : Graph) (node : NodeId) : Decidable (graph.Displaced node) :=
  decidable_of_iff ((graph.node? node).any (fun record => !record.isJoin) = true ∧
      (graph.parentOf? node).any (fun parent => !graph.knows parent node) = true) <| by
    unfold Displaced Hosts
    simp only [Option.any_eq_true, Bool.not_eq_true', ← Bool.not_eq_true, knows_iff, not_exists]

/-- The displaced nodes. -/
def displaced (graph : Graph) : Finset NodeId :=
  ((Finset.range graph.nodes.size).image NodeId.mk).filter graph.Displaced

theorem lt_size_of_parentOf? {node parent : NodeId} (h : graph.parentOf? node = some parent) :
    node.index < graph.nodes.size := by
  obtain ⟨record, hrecord, _⟩ := Option.bind_eq_some_iff.mp h
  exact (Array.getElem?_eq_some_iff.mp hrecord).1

@[simp] theorem mem_displaced {node : NodeId} : node ∈ graph.displaced ↔ graph.Displaced node := by
  unfold displaced
  rw [Finset.mem_filter, Finset.mem_image]
  refine ⟨And.right, fun h => ⟨⟨node.index, ?_, rfl⟩, h⟩⟩
  obtain ⟨_, parent, hparent, _⟩ := h
  exact Finset.mem_range.mpr (lt_size_of_parentOf? hparent)

/-- Displaced nodes can be read off the plan. -/
theorem SamePlan.displaced (h : graph.SamePlan graph') : graph'.displaced = graph.displaced := by
  have hhosts (node : NodeId) : graph'.Hosts node ↔ graph.Hosts node := ⟨h.symm.hosts, h.hosts⟩
  apply Finset.ext
  intro node
  simp only [mem_displaced, Displaced, hhosts, h.parentOf?, h.part?]

/-- A new node displaces none. -/
theorem Raises.displaced {record : Node} {ports : Interface}
    (h : Raises graph graph' record ports) : graph'.displaced = graph.displaced := by
  apply Finset.ext
  intro node
  rw [mem_displaced, mem_displaced]
  constructor
  · rintro ⟨⟨found, hfound, hjoin⟩, parent, hparent, hunknown⟩
    -- An old node keeps its parent and its role
    rcases h.cases hfound with hold | ⟨rfl, rfl⟩ | hlater
    · have hparent' : graph.parentOf? node = some parent := by
        unfold parentOf? at hparent ⊢
        rwa [hold, ← hfound]
      refine ⟨⟨found, hold, hjoin⟩, parent, hparent', fun role hpart => hunknown role ?_⟩
      obtain ⟨other, hother, hrole⟩ := Option.bind_eq_some_iff.mp hpart
      exact Option.bind_eq_some_iff.mpr ⟨other, h.node?_old hother, hrole⟩
    -- The new node has no parent, and its joins are joins
    · unfold parentOf? at hparent
      rw [hfound, Option.bind_some, h.parent] at hparent
      cases hparent
    · obtain ⟨_, _, _, hkind, _⟩ := h.join hlater hfound
      simp [Node.isJoin, hkind] at hjoin
  · rintro ⟨⟨found, hfound, hjoin⟩, parent, hparent, hunknown⟩
    exact ⟨⟨found, h.node?_old hfound, hjoin⟩, parent, h.parentOf?_old hparent,
      fun role hpart => hunknown role (h.part?_cases hpart)⟩

section

variable {composite part : NodeId} (hcomposite : graph.IsComposite composite)
  (hne : composite ≠ part) (hloose : graph.parentOf? part = none) (hlineage : graph.Lineage)
  (howned : graph.Owned) (role : String)

include hcomposite hne hloose hlineage howned

/-- A part that takes its place displaces the part that had the role, and no other. -/
theorem displaced_adopt_iff (node : NodeId) : (graph.adopt composite role part).Displaced node ↔
    graph.Displaced node ∨ graph.part? composite role = some node := by
  have hext := Extends.adopt graph composite part role
  -- Adopting changes no node into a join or back
  have hhosts : (graph.adopt composite role part).Hosts node ↔ graph.Hosts node := by
    refine ⟨?_, hext.hosts⟩
    rintro ⟨found, hfound, hjoin⟩
    obtain ⟨old, hold, _⟩ := exists_of_node?_adopt hfound
    obtain ⟨found', hfound', _, hsame⟩ := hext.nodes hold
    obtain rfl := Option.some.inj (hfound.symm.trans hfound')
    exact ⟨old, hold, hsame.symm.trans hjoin⟩
  unfold Displaced
  rw [hhosts, parentOf?_adopt_eq]
  by_cases hnode : node = part
  · -- The part itself is known, and it was no part of anything before
    subst hnode
    rw [if_pos rfl, hloose]
    constructor
    · rintro ⟨_, parent, hparent, hunknown⟩
      obtain ⟨_, _, rfl⟩ := Option.map_eq_some_iff.mp hparent
      refine absurd ?_ (hunknown role)
      rw [part?_adopt hcomposite hne, if_pos ⟨rfl, rfl⟩]
    · rintro (⟨_, _, hparent, _⟩ | hpart)
      · cases hparent
      · rw [hlineage.part hpart] at hloose
        cases hloose
  · rw [if_neg hnode]
    constructor
    · rintro ⟨hnode', parent, hparent, hunknown⟩
      -- Whoever is displaced now was so before, or it has just lost the role
      by_cases htaken : graph.part? composite role = some node
      · exact Or.inr htaken
      · refine Or.inl ⟨hnode', parent, hparent, fun given hgiven => ?_⟩
        refine hunknown given ?_
        rw [part?_adopt hcomposite hne, if_neg, hgiven]
        rintro ⟨rfl, rfl⟩
        exact htaken hgiven
    · rintro (⟨hnode', parent, hparent, hunknown⟩ | htaken)
      · refine ⟨hnode', parent, hparent, fun given => ?_⟩
        rw [part?_adopt hcomposite hne]
        split
        · exact fun hsame => hnode (Option.some.inj hsame).symm
        · exact hunknown given
      · obtain ⟨hnode', hrole⟩ := howned.role htaken
        refine ⟨hnode', composite, hlineage.part htaken, fun given => ?_⟩
        rw [part?_adopt hcomposite hne]
        split
        · exact fun hsame => hnode (Option.some.inj hsame).symm
        · -- The node has one role only, and that is taken from it
          next hother =>
            intro hgiven
            obtain rfl := Option.some.inj ((howned.role hgiven).2.symm.trans hrole)
            exact hother ⟨rfl, rfl⟩

theorem card_displaced_adopt : (graph.adopt composite role part).displaced.card =
    graph.displaced.card + if (graph.part? composite role).isSome then 1 else 0 := by
  have hmem := displaced_adopt_iff hcomposite hne hloose hlineage howned role
  cases htaken : graph.part? composite role with
  | none =>
    rw [htaken] at hmem
    have hsame : (graph.adopt composite role part).displaced = graph.displaced := by
      apply Finset.ext
      simpa using hmem
    rw [hsame]
    rfl
  | some old =>
    rw [htaken] at hmem
    -- The one that had the role is the one that is displaced
    have hinsert : (graph.adopt composite role part).displaced = insert old graph.displaced := by
      apply Finset.ext
      intro node
      rw [mem_displaced, hmem, Finset.mem_insert, mem_displaced, Option.some.injEq, or_comm, eq_comm]
    -- It was not displaced before, since it had the role
    have hnew : old ∉ graph.displaced := by
      rw [mem_displaced]
      rintro ⟨_, parent, hparent, hunknown⟩
      obtain rfl := Option.some.inj ((hlineage.part htaken).symm.trans hparent)
      exact hunknown role htaken
    rw [hinsert, Finset.card_insert_of_notMem hnew]
    rfl

end

/-! ## Depths -/

/-- The depths of the nodes that stand under a node: each is one deeper than its parent, and whatever
can be a part is less deep than the number of levels. -/
structure Depths (graph : Graph) (top : NodeId) (levels : Nat) (depth : NodeId → Nat) : Prop where
  origin : depth top = 0
  child : ∀ {node parent}, graph.parentOf? node = some parent → top.index ≤ parent.index →
    depth node = depth parent + 1
  bounded : ∀ {node}, graph.Hosts node → top.index ≤ node.index → depth node < levels

/-- Depths can be read off the plan. -/
theorem Depths.of_samePlan {top : NodeId} {levels : Nat} {depth : NodeId → Nat}
    (h : graph.Depths top levels depth) (hsame : graph.SamePlan graph') :
    graph'.Depths top levels depth where
  origin := h.origin
  child hparent hle := h.child (hsame.parentOf? ▸ hparent) hle
  bounded hnode hle := h.bounded (hsame.symm.hosts hnode) hle

/-- A new node stands on top of its joins. -/
theorem Raises.depths {record : Node} {ports : Interface} (h : Raises graph graph' record ports)
    (hlineage : graph'.Lineage) (levels : Nat) : graph'.Depths ⟨graph.nodes.size⟩ (levels + 1)
      fun node => if node = ⟨graph.nodes.size⟩ then 0 else 1 := by
  constructor
  case origin => exact if_pos rfl
  case child =>
    -- A node behind the new one is one of its joins, which are its children
    intro node parent hparent hle
    have hless : graph.nodes.size < node.index :=
      Nat.lt_of_le_of_lt hle (hlineage.above hparent).1
    have hne : node ≠ ⟨graph.nodes.size⟩ := fun heq => Nat.ne_of_gt hless (congrArg NodeId.index heq)
    obtain ⟨found, hfound, hsome⟩ := Option.bind_eq_some_iff.mp hparent
    obtain rfl := Option.some.inj (hsome.symm.trans (h.join hless hfound).1)
    simp [hne]
  case bounded =>
    rintro node ⟨found, hfound, hjoin⟩ hle
    -- The joins do not count, so only the new node itself has a depth to bound
    rcases Nat.eq_or_lt_of_le hle with heq | hless
    · have hnew : node = ⟨graph.nodes.size⟩ := congrArg NodeId.mk heq.symm
      simp [hnew]
    · obtain ⟨_, _, _, hkind, _⟩ := h.join hless hfound
      simp [Node.isJoin, hkind] at hjoin

end Graph

/-! ## The course of a build -/

/-- The number of times that a role was given twice. -/
def duplicates (issues : List Issue) : Nat :=
  issues.countP Issue.isDuplicateRole

theorem duplicates_append_of_objections {issues more : List Issue}
    (h : ∀ issue ∈ more, issue.isDuplicateRole = false) :
    duplicates (issues ++ more) = duplicates issues := by
  have hnone : more.countP Issue.isDuplicateRole = 0 := by
    apply List.countP_eq_zero.mpr
    intro issue hissue
    simp [h issue hissue]
  unfold duplicates
  rw [List.countP_append, hnone, Nat.add_zero]

namespace Draft.Course

variable {library : Library} {traced : Bool} {levels : Nat} {start now : Draft} {node : NodeId}
  {framed : Bool}

/-- **Everything behind a node that is grown stands under it**, or under something behind it. -/
theorem exists_parent (h : Course library traced levels start node now framed)
    (hlineage : start.graph.Lineage) {other : NodeId} (hlater : node.index < other.index)
    (hsize : other.index < now.graph.nodes.size) :
    ∃ parent, now.graph.parentOf? other = some parent ∧ node.index ≤ parent.index := by
  have hexists {graph : Graph} (hsize : other.index < graph.nodes.size) :
      ∃ record, graph.node? other = some record :=
    ⟨_, Array.getElem?_eq_getElem hsize⟩
  have hraised {graph graph' : Graph} {record : Node} {ports : Interface}
      (hraises : Graph.Raises graph graph' record ports) (hlater : graph.nodes.size < other.index)
      (hsize : other.index < graph'.nodes.size) : ∃ parent, graph'.parentOf? other = some parent ∧
        graph.nodes.size ≤ parent.index := by
    -- All other new nodes are joins of the new node
    obtain ⟨found, hfound⟩ := hexists hsize
    refine ⟨⟨graph.nodes.size⟩, ?_, Nat.le_refl _⟩
    simp [Graph.parentOf?, hfound, (hraises.join hlater hfound).1]
  induction h with
  | native => exact hraised (Graph.raises_addNative _ _ _ _) hlater hsize
  | frame => exact hraised (Graph.raises_addComposite _ _ _ _ _) hlater hsize
  | @rewire _ _ now composite _ name directive ih =>
    have hplan := now.samePlan_rewire composite name directive
    rw [hplan.parentOf?]
    rw [hplan.size] at hsize
    exact ih hlineage hlater hsize
  | skip _ _ ih =>
    rw [graph_foldl_skip] at hsize ⊢
    exact ih hlineage hlater hsize
  | @adopt _ start now grown composite part _ hcourse hpart name role ih ihpart =>
    obtain ⟨hbuilt, hframed⟩ := hcourse.built hlineage
    have hpending : now.graph.Pending composite := ⟨hframed rfl, hbuilt.loose⟩
    -- The part was placed behind all that there was before it
    have hlineage' := hbuilt.constructs.lineage hlineage
    have hgrown := (hpart.built hlineage').1
    have hplace : part.index = now.graph.nodes.size := congrArg NodeId.index hgrown.place
    have hbefore : composite.index < part.index := hplace ▸ hpending.lt_size
    rw [graph_adopt] at hsize ⊢
    rw [Graph.parentOf?_adopt_eq]
    have hsize' : other.index < grown.graph.nodes.size := by
      simpa [Graph.adopt, Graph.modifyNode] using hsize
    split
    · obtain ⟨record, hrecord⟩ := hexists hsize'
      exact ⟨composite, by simp [hrecord], Nat.le_refl _⟩
    · next hne =>
      rcases Nat.lt_trichotomy other.index part.index with hlt | heq | hgt
      · -- The nodes before the part were there before it was grown
        rw [hplace] at hlt
        unfold Graph.parentOf?
        rw [hgrown.retains other hlt]
        exact ih hlineage hlater hlt
      · exact absurd (congrArg NodeId.mk heq) hne
      · obtain ⟨parent, hparent, hle⟩ := ihpart hlineage' hgt hsize'
        exact ⟨parent, hparent, Nat.le_trans (Nat.le_of_lt hbefore) hle⟩

/-- **No part stands deeper than the levels allow.** -/
theorem exists_depths (h : Course library traced levels start node now framed)
    (hlineage : start.graph.Lineage) : ∃ depth, now.graph.Depths node levels depth := by
  induction h with
  | @native levels start _ spec _ primitive =>
    have hraises := start.graph.raises_addNative spec.identifier traced primitive
    exact ⟨_, hraises.depths (hlineage.raises hraises) levels⟩
  | @frame levels start _ spec =>
    have hraises :=
      start.graph.raises_addComposite spec.identifier traced spec.inletCount spec.exitCount
    exact ⟨_, hraises.depths (hlineage.raises hraises) levels⟩
  | @rewire _ _ now composite _ name directive ih =>
    obtain ⟨depth, hdepths⟩ := ih hlineage
    exact ⟨depth, hdepths.of_samePlan (now.samePlan_rewire composite name directive)⟩
  | skip _ _ ih =>
    rw [graph_foldl_skip]
    exact ih hlineage
  | @adopt levels start now grown composite part _ hcourse hpart name role ih ihpart =>
    obtain ⟨hbuilt, hframed⟩ := hcourse.built hlineage
    have hpending : now.graph.Pending composite := ⟨hframed rfl, hbuilt.loose⟩
    have hlineage' := hbuilt.constructs.lineage hlineage
    have hgrown := (hpart.built hlineage').1
    have hplace : part.index = now.graph.nodes.size := congrArg NodeId.index hgrown.place
    have hbefore : composite.index < part.index := hplace ▸ hpending.lt_size
    obtain ⟨depth, hdepths⟩ := ih hlineage
    obtain ⟨depth', hdepths'⟩ := ihpart hlineage'
    have hretains {other : NodeId} (hlt : other.index < part.index) :
        grown.graph.node? other = now.graph.node? other := hgrown.retains other (hplace ▸ hlt)
    rw [graph_adopt]
    -- The part and what stands under it is one level deeper under the composite
    refine ⟨fun other => if other.index < part.index then depth other else depth' other + 1, ?_⟩
    constructor
    case origin => simp [hbefore, hdepths.origin]
    case child =>
      intro other parent hparent hle
      rw [Graph.parentOf?_adopt_eq] at hparent
      -- The parent of the part is the composite, which is on the first level
      split at hparent
      next heq =>
        obtain ⟨_, _, rfl⟩ := Option.map_eq_some_iff.mp hparent
        simp [heq, hbefore, hdepths.origin, hdepths'.origin]
      next hne =>
        have hless := ((hgrown.constructs.lineage hlineage').above hparent).1
        rcases Nat.lt_trichotomy other.index part.index with hlt | heq | hgt
        · rw [if_pos hlt, if_pos (Nat.lt_trans hless hlt)]
          refine hdepths.child ?_ hle
          rwa [Graph.parentOf?, ← hretains hlt]
        · exact absurd (congrArg NodeId.mk heq) hne
        · -- What stands behind the part stands under the part
          obtain ⟨other', hother', hle'⟩ := hpart.exists_parent hlineage' hgt (by
            obtain ⟨_, hrecord, _⟩ := Option.bind_eq_some_iff.mp hparent
            exact (Array.getElem?_eq_some_iff.mp hrecord).1)
          obtain rfl := Option.some.inj (hparent.symm.trans hother')
          rw [if_neg (Nat.not_lt.mpr (Nat.le_of_lt hgt)), if_neg (Nat.not_lt.mpr hle'),
            hdepths'.child hparent hle']
    case bounded =>
      -- The adoption changes no node but in its parts, so each depth was bounded before
      rintro other ⟨found, hfound, hjoin⟩ hle
      obtain ⟨old, hold, _⟩ := Graph.exists_of_node?_adopt hfound
      obtain ⟨found', hfound', _, hsame⟩ :=
        (Graph.Extends.adopt grown.graph composite part role).nodes hold
      obtain rfl := Option.some.inj (hfound.symm.trans hfound')
      have hjoin' : old.isJoin = false := hsame.symm.trans hjoin
      split
      next hlt => exact hdepths.bounded ⟨old, hretains hlt ▸ hold, hjoin'⟩ hle
      next hge =>
        exact Nat.succ_lt_succ (hdepths'.bounded ⟨old, hold, hjoin'⟩ (Nat.le_of_not_lt hge))

/-- **The displaced nodes are counted by the issues**: whenever a role is given twice, one more is
displaced. -/
theorem tally (h : Course library traced levels start node now framed)
    (hlineage : start.graph.Lineage) (howned : start.graph.Owned) :
    now.graph.displaced.card + duplicates start.issues.toList =
      start.graph.displaced.card + duplicates now.issues.toList := by
  induction h with
  | native => rw [(Graph.raises_addNative _ _ _ _).displaced]
  | frame => rw [(Graph.raises_addComposite _ _ _ _ _).displaced]
  | @rewire _ _ now composite _ name directive ih =>
    rw [(now.samePlan_rewire composite name directive).displaced, ih hlineage howned,
      toList_issues_rewire, duplicates_append_of_objections]
    -- Directives that are not carried out never report a role that is taken
    intro issue hissue
    cases hresolve : directive.resolve now.graph composite name with
    | ok => simp [hresolve, Directive.issuesOf] at hissue
    | error issues =>
      rw [hresolve] at hissue
      exact (Directive.Objects.resolve _ _ _ _ issues hresolve).2 issue hissue
  | skip _ hissues ih =>
    rw [graph_foldl_skip, issues_foldl_skip, duplicates_append_of_objections hissues]
    exact ih hlineage howned
  | @adopt _ start now grown composite part _ hcourse hpart name role ih ihpart =>
    obtain ⟨hbuilt, hframed⟩ := hcourse.built hlineage
    have hlineage' := hbuilt.constructs.lineage hlineage
    have howned' := hbuilt.constructs.owned hlineage howned
    have hgrown := (hpart.built hlineage').1
    have hpending : now.graph.Pending composite := ⟨hframed rfl, hbuilt.loose⟩
    have hworks := hgrown.works hpending
    have hne : composite ≠ part := by
      rintro rfl
      exact Nat.ne_of_lt hpending.lt_size (congrArg NodeId.index hgrown.place)
    -- One more is displaced just when one more duplicate is reported
    have hcard := Graph.card_displaced_adopt hworks.pending.isComposite hne hgrown.loose
      (hworks.constructs.lineage hlineage') (hworks.constructs.owned hlineage' howned') role
    have hissues : duplicates (grown.adopt composite name role part).issues.toList =
        duplicates grown.issues.toList +
          if (grown.graph.part? composite role).isSome then 1 else 0 := by
      rw [issues_adopt, duplicates, List.countP_append]
      split <;> rfl
    have hfirst := ih hlineage howned
    have hsecond := ihpart hlineage' howned'
    rw [graph_adopt, hcard, hissues]
    omega

end Draft.Course

end TokenNet
