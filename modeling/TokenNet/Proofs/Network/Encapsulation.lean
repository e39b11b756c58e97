import TokenNet.Proofs.Change.Enclosed
import TokenNet.Proofs.Change.Placed
import TokenNet.Proofs.Network.Eager
import TokenNet.Proofs.Run.Conveys

/-!
# Data encapsulation

The ports of a composite expose ports of its own parts, whatever a network is used for.  So a port
exposes another one level deeper, and a chain of exposed ports is no longer than the nesting is
deep.

As long as nothing is wired by calls, ports share a cell only if they belong to parts of one
composite.  Then a value that comes into a composite comes through one of its inlets, which exposes
an inlet of a part, and a value that comes out of it comes through its outlet, which exposes the
outlet of a part.  A call that wires ports of different levels opens the only other way.

The proof goes in layers: walks that come into a set, the boundary of a composite, the depth of
chains, and then what calls keep.

## Main statements

- `Graph.Nested.enters_or_leaks`, `Graph.Nested.leaves_or_leaks`: how values cross a boundary.
- `Graph.Nests`: the depths of nodes and the lengths of chains.
- `Network.data_encapsulated`: every network is encapsulated after every history of calls, and it is
  sealed as long as they wire nothing.
-/

namespace TokenNet

/-! ## Walks and chains -/

section

variable {α : Type} {step : α → α → Prop} {first last : α}

/-- A walk that comes into a set takes a step into it. -/
theorem exists_step_into {inside : α → Prop} (h : Relation.ReflTransGen step first last)
    (hfirst : ¬ inside first) (hlast : inside last) :
    ∃ before after, Relation.ReflTransGen step first before ∧ step before after ∧
      Relation.ReflTransGen step after last ∧ ¬ inside before ∧ inside after := by
  induction h with
  | refl => exact absurd hlast hfirst
  | @tail between last hwalk hstep ih =>
    by_cases hbetween : inside between
    · obtain ⟨before, after, hto, hinto, hfrom, hcross⟩ := ih hbetween
      exact ⟨before, after, hto, hinto, hfrom.tail hstep, hcross⟩
    · exact ⟨between, last, hwalk, hstep, .refl, hbetween, hlast⟩

variable {rank : α → Nat} (hrank : ∀ a b, step a b → rank b = rank a + 1)

include hrank

/-- A chain of steps that climb by one climbs by its length. -/
theorem rank_getLast_of_isChain (rest : List α) (first : α) (h : (first :: rest).IsChain step) :
    rank ((first :: rest).getLast (List.cons_ne_nil first rest)) = rank first + rest.length := by
  induction rest generalizing first with
  | nil => rfl
  | cons next rest ih =>
    obtain ⟨hstep, hlater⟩ := List.isChain_cons_cons.mp h
    rw [List.getLast_cons (List.cons_ne_nil next rest), ih next hlater, hrank first next hstep,
      List.length_cons]
    omega

/-- A chain of steps that climb comes nowhere twice. -/
theorem nodup_of_isChain {chain : List α} (h : chain.IsChain step) : chain.Nodup := by
  have hclimbs : (chain.map rank).IsChain (· < ·) := by
    apply (List.isChain_map rank).mpr
    apply h.imp
    intro a b hstep
    exact (hrank a b hstep).symm ▸ Nat.lt_succ_self (rank a)
  have hnodup : (chain.map rank).Nodup := (List.isChain_iff_pairwise.mp hclimbs).imp Nat.ne_of_lt
  exact hnodup.of_map rank

end

namespace Graph

variable {graph graph' : Graph} {composite : NodeId} {port other source outer inner : Port}

/-! ## The boundary of a composite -/

/-- A port is inside a composite if its owner stands below it. -/
def Inside (graph : Graph) (composite : NodeId) (port : Port) : Prop :=
  ∃ owner, graph.ownerOf? port = some owner ∧ graph.Below owner composite

theorem inside_iff_of_ownerOf? {owner : NodeId} (h : graph.ownerOf? port = some owner) :
    graph.Inside composite port ↔ graph.Below owner composite := by
  simp [Inside, h]

/-- What is inside a composite belongs to a part of it, or to a part of something inside. -/
theorem inside_iff_of_siteOf? {site : NodeId} (h : graph.siteOf? port = some site) :
    graph.Inside composite port ↔ composite = site ∨ graph.Below site composite := by
  obtain ⟨part, hpart, hparent⟩ := siteOf?_eq_some_iff.mp h
  rw [inside_iff_of_ownerOf? hpart, below_iff hparent]

/-- Ports on one level are inside the same composites. -/
theorem Level.inside_iff (h : graph.Level port other) :
    graph.Inside composite port ↔ graph.Inside composite other := by
  rcases h with rfl | ⟨site, hport, hother⟩
  · rfl
  · rw [inside_iff_of_siteOf? hport, inside_iff_of_siteOf? hother]

/-- A value comes into a composite through an inlet of it, which exposes an inlet of a part. -/
def Enters (graph : Graph) (composite : NodeId) (source port : Port) : Prop :=
  ∃ outer inner, graph.Feeds outer inner ∧ graph.ownerOf? (.inlet outer) = some composite ∧
    graph.siteOf? (.inlet inner) = some composite ∧
      graph.Reaches source (.inlet outer) ∧ graph.Reaches (.inlet inner) port

/-- A value comes out of a composite through its outlet, which exposes the outlet of a part. -/
def Leaves (graph : Graph) (composite : NodeId) (source port : Port) : Prop :=
  ∃ outer inner, graph.relayOf? inner = some outer ∧
    graph.ownerOf? (.outlet outer) = some composite ∧
      graph.siteOf? (.outlet inner) = some composite ∧
        graph.Reaches source (.outlet inner) ∧ graph.Reaches (.outlet outer) port

/-- A value comes along a cell that is shared by ports on different levels. -/
def Leaks (graph : Graph) (source port : Port) : Prop :=
  ∃ giver taker, graph.SharesCell giver taker ∧ ¬ graph.Level giver taker ∧
    graph.Reaches source giver ∧ graph.Reaches taker port

theorem Leveled.not_leaks (h : graph.Leveled) : ¬ graph.Leaks source port :=
  fun ⟨giver, taker, hshares, hlevel, _⟩ => hlevel (h giver taker hshares)

/-- A composite to which an exposing port belongs has the exposed one inside, and no other boundary
lies between the two. -/
theorem Nested.inside_iff (h : graph.Nested) (hexposes : graph.Exposes outer inner) :
    graph.Inside composite inner ↔
      graph.Inside composite outer ∨
        graph.ownerOf? outer = some composite ∧ graph.siteOf? inner = some composite := by
  obtain ⟨site, howner, hsite⟩ := h outer inner hexposes
  rw [inside_iff_of_siteOf? hsite, inside_iff_of_ownerOf? howner, howner, hsite, and_self,
    Option.some.injEq, or_comm, eq_comm]

/-- **What comes into a composite comes through its inlets**, unless it leaks. -/
theorem Nested.enters_or_leaks (h : graph.Nested) (hreaches : graph.Reaches source port)
    (hsource : ¬ graph.Inside composite source) (hport : graph.Inside composite port) :
    graph.Enters composite source port ∨ graph.Leaks source port := by
  obtain ⟨before, after, hto, hstep, hfrom, hbefore, hafter⟩ :=
    exists_step_into hreaches hsource hport
  cases hstep with
  | share hshares =>
    exact Or.inr ⟨before, after, hshares, fun hlevel => hbefore (hlevel.inside_iff.mpr hafter),
      hto, hfrom⟩
  | @feed outer inner hfeeds =>
    obtain ⟨howner, hsite⟩ := ((h.inside_iff (.feed hfeeds)).mp hafter).resolve_left hbefore
    exact Or.inl ⟨outer, inner, hfeeds, howner, hsite, hto, hfrom⟩
  | relay hrelay =>
    -- A relay never leads into a composite
    exact absurd ((h.inside_iff (.relay hrelay)).mpr (Or.inl hafter)) hbefore

/-- **What comes out of a composite comes through its outlet**, unless it leaks. -/
theorem Nested.leaves_or_leaks (h : graph.Nested) (hreaches : graph.Reaches source port)
    (hsource : graph.Inside composite source) (hport : ¬ graph.Inside composite port) :
    graph.Leaves composite source port ∨ graph.Leaks source port := by
  -- Coming out of it is coming into what is outside
  obtain ⟨before, after, hto, hstep, hfrom, hbefore, hafter⟩ :=
    @exists_step_into _ _ _ _ (¬ graph.Inside composite ·) hreaches (not_not_intro hsource) hport
  rw [not_not] at hbefore
  cases hstep with
  | share hshares =>
    exact Or.inr ⟨before, after, hshares, fun hlevel => hafter (hlevel.inside_iff.mp hbefore),
      hto, hfrom⟩
  | feed hfeeds =>
    -- A feed never leads out of a composite
    exact absurd ((h.inside_iff (.feed hfeeds)).mpr (Or.inl hbefore)) hafter
  | @relay inner outer hrelay =>
    obtain ⟨howner, hsite⟩ := ((h.inside_iff (.relay hrelay)).mp hbefore).resolve_left hafter
    exact Or.inl ⟨outer, inner, hrelay, howner, hsite, hto, hfrom⟩

/-! ## Chains -/

/-- How deep the nodes are nested, and how far exposed ports lead. -/
structure Nests (graph : Graph) (root : NodeId) (limit : Nat) (depth : NodeId → Nat) : Prop where
  root : depth root = 0
  child : ∀ {node parent}, graph.parentOf? node = some parent → depth node = depth parent + 1
  bounded : ∀ {port owner}, graph.ownerOf? port = some owner → depth owner ≤ limit
  /-- A chain of exposed ports comes nowhere twice, and it is as long as it leads down. -/
  chain : ∀ {outer inner chain}, (outer :: chain).IsChain graph.Exposes →
    inner = (outer :: chain).getLast (List.cons_ne_nil outer chain) →
    (outer :: chain).Nodup ∧ chain.length ≤ limit ∧
      ∀ {above below}, graph.ownerOf? outer = some above → graph.ownerOf? inner = some below →
        depth below = depth above + chain.length

/-- The owner of a port can be a part. -/
theorem Owned.hosts (h : graph.Owned) {owner : NodeId} (howner : graph.ownerOf? port = some owner) :
    graph.Hosts owner := by
  obtain ⟨ports, hports⟩ : ∃ ports, graph.interface? owner = some ports := by
    cases port with
    | inlet inlet =>
      obtain ⟨ports, hports, _⟩ := h.inlet howner
      exact ⟨ports, hports⟩
    | outlet outlet =>
      obtain ⟨ports, hports, _⟩ := h.outlet howner
      exact ⟨ports, hports⟩
  obtain ⟨record, hrecord, hinterface⟩ := Option.bind_eq_some_iff.mp hports
  refine ⟨record, hrecord, ?_⟩
  cases hkind : record.kind <;> simp [Node.isJoin, Node.interface?, hkind] at hinterface ⊢

theorem Nested.nests (h : graph.Nested) (howned : graph.Owned) {root : NodeId}
    (hroot : root.index = 0) {limit : Nat} {depth : NodeId → Nat}
    (hdepths : graph.Depths root (limit + 1) depth) : graph.Nests root limit depth := by
  have hchild {node parent : NodeId} (hparent : graph.parentOf? node = some parent) :
      depth node = depth parent + 1 := hdepths.child hparent (hroot ▸ Nat.zero_le _)
  have hbounded {port : Port} {owner : NodeId} (howner : graph.ownerOf? port = some owner) :
      depth owner ≤ limit :=
    Nat.le_of_lt_succ (hdepths.bounded (howned.hosts howner) (hroot ▸ Nat.zero_le _))
  -- A port is as deep as its owner
  let rank (port : Port) : Nat := (graph.ownerOf? port).elim 0 depth
  have hrank (outer inner : Port) (hexposes : graph.Exposes outer inner) :
      rank inner = rank outer + 1 := by
    obtain ⟨composite, howner, hsite⟩ := h outer inner hexposes
    obtain ⟨part, hpart, hparent⟩ := siteOf?_eq_some_iff.mp hsite
    simp only [rank, howner, hpart, Option.elim_some]
    exact hchild hparent
  constructor
  case root => exact hdepths.origin
  case child => exact hchild
  case bounded => exact hbounded
  case chain =>
    intro outer inner chain hchain hinner
    have hlast := rank_getLast_of_isChain hrank chain outer hchain
    rw [← hinner] at hlast
    refine ⟨nodup_of_isChain hrank hchain, ?_, ?_⟩
    · have hle : rank inner ≤ limit := by
        cases howner : graph.ownerOf? inner with
        | none => simp [rank, howner]
        | some owner => simpa [rank, howner] using hbounded howner
      omega
    · intro above below habove hbelow
      simpa [rank, habove, hbelow] using hlast

end Graph

/-! ## Networks -/

namespace Network

open TokenNet.Graph

variable {net : Network}

/-- The ports of composites expose ports of their own parts, and values cross the boundaries of
composites at exposed ports or leak. -/
structure Encapsulated (net : Network) (limit : Nat) : Prop where
  /-- An inlet of a composite feeds inlets of its parts. -/
  feed : ∀ {outer inner}, net.graph.Feeds outer inner → ∃ composite part,
    net.graph.IsComposite composite ∧ net.graph.inletOwner? outer = some composite ∧
      net.graph.inletOwner? inner = some part ∧ net.graph.parentOf? part = some composite
  /-- An outlet is relayed to the outlet of the parent. -/
  relay : ∀ {inner outer}, net.graph.relayOf? inner = some outer → ∃ composite ports part,
    net.graph.IsComposite composite ∧ net.graph.interface? composite = some ports ∧
      ports.outlet = outer ∧ net.graph.outletOwner? inner = some part ∧
        net.graph.parentOf? part = some composite
  nests : ∃ depth, net.graph.Nests net.root limit depth
  enters : ∀ {composite source port}, net.graph.Reaches source port →
    ¬ net.graph.Inside composite source → net.graph.Inside composite port →
    net.graph.Enters composite source port ∨ net.graph.Leaks source port
  leaves : ∀ {composite source port}, net.graph.Reaches source port →
    net.graph.Inside composite source → ¬ net.graph.Inside composite port →
    net.graph.Leaves composite source port ∨ net.graph.Leaks source port
  /-- A call that does not wire changes only what is reached from the ports that it touches. -/
  shows : ∀ {call : Call} {port}, call.connects = false →
    (net.perform call).1.graph.shows port ≠ net.graph.shows port →
    ∃ source, net.Touches source call ∧ net.graph.Reaches source port

/-- Ports share a cell on one level only, so nothing leaks. -/
structure Sealed (net : Network) : Prop where
  level : ∀ {port other}, net.graph.SharesCell port other → port ≠ other →
    ∃ composite, net.graph.siteOf? port = some composite ∧
      net.graph.siteOf? other = some composite
  root : ∀ {port other}, net.graph.ownerOf? port = some net.root →
    net.graph.SharesCell port other → other = port
  enters : ∀ {composite source port}, net.graph.Reaches source port →
    ¬ net.graph.Inside composite source → net.graph.Inside composite port →
    net.graph.Enters composite source port
  leaves : ∀ {composite source port}, net.graph.Reaches source port →
    net.graph.Inside composite source → ¬ net.graph.Inside composite port →
    net.graph.Leaves composite source port

/-! ### What calls keep -/

/-- No call changes what is fed or relayed. -/
theorem sameLinks_perform (hclosed : net.graph.Closed) (call : Call) :
    net.graph.SameLinks (net.perform call).1.graph := by
  refine perform_induction hclosed call ?_ ?_
  · exact fun huses => huses.sameLinks
  · exact fun _ _ _ => ⟨rfl, rfl⟩

theorem sameLinks_performAll (hclosed : net.graph.Closed) (calls : List Call) :
    net.graph.SameLinks (net.performAll calls).1.graph :=
  performAll_induction .refl .trans sameLinks_perform calls hclosed

/-- **A call that does not wire lets ports share cells on one level only.** -/
theorem leveled_perform (hlinked : net.graph.Linked) (hclosed : net.graph.Closed)
    (hleveled : net.graph.Leveled) {call : Call} (hcall : call.connects = false) :
    (net.perform call).1.graph.Leveled := by
  have hpushes := pushes_perform hlinked hclosed hcall
  have hsites := (samePlan_perform hclosed call).siteOf?
  intro port other hshares
  unfold Level
  rw [hsites]
  exact (hpushes.shares hshares).elim Or.inl (hleveled port other)

theorem leveled_performAll {calls : List Call} (hlinked : net.graph.Linked)
    (hclosed : net.graph.Closed) (hleveled : net.graph.Leveled)
    (hcalls : ∀ call ∈ calls, call.connects = false) : (net.performAll calls).1.graph.Leveled := by
  induction calls generalizing net with
  | nil => exact hleveled
  | cons call rest ih =>
    have hcall := hcalls call List.mem_cons_self
    exact ih (pushes_perform hlinked hclosed hcall).linked
      ((leads_perform hclosed call).closed hclosed)
      (leveled_perform hlinked hclosed hleveled hcall)
      fun later hlater => hcalls later (List.mem_cons_of_mem call hlater)

/-! ### The boundaries of a network -/

theorem sealed_of_leveled (hnested : net.graph.Nested) (hleveled : net.graph.Leveled)
    (hroot : net.graph.parentOf? net.root = none) : net.Sealed := by
  -- Two ports of a class stand on one level
  have hlevel {port other : Port} (hshares : net.graph.SharesCell port other) (hne : port ≠ other) :
      ∃ composite, net.graph.siteOf? port = some composite ∧
        net.graph.siteOf? other = some composite :=
    (hleveled port other hshares).resolve_left hne
  constructor
  case level => exact hlevel
  case root =>
    -- The root stands under nothing, so its ports are on no level
    intro port other howner hshares
    by_contra hne
    obtain ⟨composite, hport, _⟩ := hlevel hshares (Ne.symm hne)
    obtain ⟨part, hpart, hparent⟩ := siteOf?_eq_some_iff.mp hport
    obtain rfl := Option.some.inj (howner.symm.trans hpart)
    rw [hroot] at hparent
    cases hparent
  case enters =>
    exact fun hreaches hsource hport =>
      (hnested.enters_or_leaks hreaches hsource hport).resolve_right hleveled.not_leaks
  case leaves =>
    exact fun hreaches hsource hport =>
      (hnested.leaves_or_leaks hreaches hsource hport).resolve_right hleveled.not_leaks

/-- **Data is encapsulated.**  Whatever a network is used for, its composites expose ports of their
own parts, chains of exposed ports are no longer than the nesting is deep, and values cross the
boundary of a composite at exposed ports or leak.  Nothing leaks as long as no call has wired
anything, and so right after the network has been built. -/
theorem data_encapsulated {library : Library} {identifier : String} {options : BuildOptions}
    {built : Network} (hbuilt : library.instantiate identifier options = .ok built)
    (calls : List Call) : let net := (built.performAll calls).1
    net.Encapsulated options.limits.nestingLimit ∧
      ((∀ call ∈ calls, call.connects = false) → net.Sealed) := by
  intro net
  have hgrown := Library.built_of_instantiate hbuilt
  have hlineage := hgrown.constructs.lineage .empty
  have hclosed : built.graph.Closed := (leads_instantiate hbuilt).1.closed .empty
  have hlinked : built.graph.Linked := (leads_instantiate hbuilt).1.linked .empty
  have hplan : built.graph.SamePlan net.graph := samePlan_performAll hclosed calls
  have hroot : net.root = built.root := (built.sameBuild_performAll calls).root
  have hleads : built.graph.Leads net.graph := leads_performAll calls hclosed
  -- The plan and the links are those of the build, whatever the calls were
  have hnested : net.graph.Nested :=
    hgrown.constructs.nested.of_same hplan (sameLinks_performAll hclosed calls)
  have howned : net.graph.Owned := (hgrown.constructs.owned .empty .empty).of_samePlan hplan
  have hcomposite {part composite : NodeId} (hparent : net.graph.parentOf? part = some composite) :
      net.graph.IsComposite composite := by
    rw [hplan.parentOf?] at hparent
    exact hplan.isComposite (hlineage.above hparent).2
  refine ⟨?encapsulated, fun hcalls => ?sealed⟩
  case sealed =>
    -- Without connections the classes stay on their levels, and so nothing leaks
    have hleveled := leveled_performAll hlinked hclosed hgrown.constructs.leveled hcalls
    refine sealed_of_leveled hnested hleveled ?_
    rw [hplan.parentOf?, hroot]
    exact hgrown.loose
  case encapsulated =>
    constructor
    case feed =>
      intro outer inner hfeeds
      obtain ⟨composite, houter, hsite⟩ := hnested _ _ (.feed hfeeds)
      obtain ⟨part, hinner, hparent⟩ := siteOf?_eq_some_iff.mp hsite
      exact ⟨composite, part, hcomposite hparent, houter, hinner, hparent⟩
    case relay =>
      intro inner outer hrelay
      obtain ⟨composite, houter, hsite⟩ := hnested _ _ (.relay hrelay)
      obtain ⟨part, hinner, hparent⟩ := siteOf?_eq_some_iff.mp hsite
      obtain ⟨ports, hports, houtlet⟩ := howned.outlet houter
      exact ⟨composite, ports, part, hcomposite hparent, hports, houtlet, hinner, hparent⟩
    -- How deep a chain can lead is how deep the root is nested
    case nests =>
      obtain ⟨draft, _, hcourse, hgraph, _⟩ := Draft.exists_course_of_instantiate hbuilt
      obtain ⟨depth, hdepths⟩ := hcourse.exists_depths .empty
      rw [← hgraph, ← hroot] at hdepths
      have hfirst : net.root.index = 0 := by
        rw [hroot, hgrown.place]
        rfl
      exact ⟨depth, hnested.nests howned hfirst (hdepths.of_samePlan hplan)⟩
    case enters => exact hnested.enters_or_leaks
    case leaves => exact hnested.leaves_or_leaks
    -- What a port shows changes only by a call, which has pushed it there
    case shows =>
      intro call port hcall hchanged
      exact (pushes_perform (hleads.linked hlinked) (hleads.closed hclosed) hcall).shows hchanged

/-- The composite with a box after a run.  The inlet 4 of the box, which is its node 2, feeds an inlet
of the adder in the box, which is node 3 and stands two levels below the root.  What comes from the
first to the second enters the box. -/
theorem boxedTop_encapsulated : boxed.instantiate "top" {} = .ok boxedTop ∧
    let net := (boxedTop.performAll [.writeInlet ⟨0⟩ 0 5, .step]).1
    net.Sealed ∧ (∃ depth, net.graph.Nests net.root ({} : Limits).nestingLimit depth ∧
      depth ⟨2⟩ = 1 ∧ depth ⟨3⟩ = 2) ∧
        net.graph.Enters ⟨2⟩ (.inlet ⟨4⟩) (.inlet ⟨5⟩) := by
  have hbuilt : boxed.instantiate "top" {} = .ok boxedTop := by decide +kernel
  refine ⟨hbuilt, ?_⟩
  intro net
  obtain ⟨hencapsulated, hsealed⟩ := data_encapsulated hbuilt [.writeInlet ⟨0⟩ 0 5, .step]
  have hseals : net.Sealed := hsealed (by decide)
  obtain ⟨hfeeds, houter, hinner⟩ : ⟨5⟩ ∈ net.graph.feedsOf ⟨4⟩ ∧
      net.graph.ownerOf? (.inlet ⟨4⟩) = some ⟨2⟩ ∧ net.graph.ownerOf? (.inlet ⟨5⟩) = some ⟨3⟩ := by
    decide +kernel
  obtain ⟨hroot, htop, hbox, hadder⟩ : net.root = ⟨0⟩ ∧ net.graph.parentOf? ⟨0⟩ = none ∧
      net.graph.parentOf? ⟨2⟩ = some ⟨0⟩ ∧ net.graph.parentOf? ⟨3⟩ = some ⟨2⟩ := by
    decide +kernel
  refine ⟨hseals, ?nests, hseals.enters (.single (.feed hfeeds)) ?outside ?inside⟩
  case nests =>
    obtain ⟨depth, hnests⟩ := hencapsulated.nests
    have hfirst : depth ⟨2⟩ = 1 := by
      rw [hnests.child hbox, ← hroot, hnests.root]
    exact ⟨depth, hnests, hfirst, by rw [hnests.child hadder, hfirst]⟩
  case outside =>
    -- The box itself stands below the root only
    rw [inside_iff_of_ownerOf? houter, below_iff hbox]
    rintro (hsame | hbelow)
    · cases hsame
    · obtain ⟨parent, hparent, _⟩ := Relation.TransGen.head'_iff.mp hbelow
      rw [htop] at hparent
      cases hparent
  case inside =>
    rw [inside_iff_of_ownerOf? hinner, below_iff hadder]
    exact Or.inl rfl

end Network

end TokenNet
