import TokenNet.Proofs.Change.Enclosed
import TokenNet.Proofs.Change.Placed
import TokenNet.Proofs.Network.Arity
import TokenNet.Proofs.Text.Fields

/-!
# Paths of roles

A path names a node by the roles of the nodes on the way down to it.  A composite knows a part only
under the role that the part has, so following a path down and reading the roles off the parents
upwards come to the same: a node is found just if everything on the way is known to its parent, and
then by one path only.  Roles can be empty, which paths can express, and can hold the separator of
paths, which they cannot.

## Main statements

- `Graph.Registered`: a node is known to its parent under its role.
- `Graph.RolesTo`: the roles on the way from a node down to another.
- `Graph.Rooted.foldlM_part?`: following roles down finds the registered node whose roles they are.
- `Network.addressed_of_history`: paths and nodes after every history of calls.
-/

namespace TokenNet

namespace Graph

variable {graph graph' : Graph} {root node other : NodeId} {roles roles' : List String}

/-! ## The way to a node -/

/-- A node is known to its parent under the role that it has. -/
def Registered (graph : Graph) (node : NodeId) : Prop :=
  ∃ parent role, graph.parentOf? node = some parent ∧ graph.roleOf? node = some role ∧
    graph.part? parent role = some node

/-- A node and what is above it, up to a top node. -/
def OnWay (graph : Graph) (top node other : NodeId) : Prop :=
  (other = node ∨ graph.Below node other) ∧ other ≠ top

/-- The roles on the way from a top node down to a node, the highest first. -/
inductive RolesTo (graph : Graph) (top : NodeId) : NodeId → List String → Prop where
  /-- The top node is reached without a role. -/
  | top : RolesTo graph top top []
  /-- A child is reached by one role more than its parent. -/
  | child {node parent : NodeId} {role : String} {roles : List String}
      (hparent : graph.parentOf? node = some parent) (hrole : graph.roleOf? node = some role)
      (h : RolesTo graph top parent roles) : RolesTo graph top node (roles ++ [role])

theorem rolesTo_nil_iff : graph.RolesTo root node [] ↔ node = root := by
  constructor
  · intro h
    generalize hroles : ([] : List String) = roles at h
    cases h with
    | top => rfl
    | child => exact absurd hroles (by simp)
  · rintro rfl
    exact .top

theorem rolesTo_append_iff {role : String} : graph.RolesTo root node (roles ++ [role]) ↔
    ∃ parent, graph.parentOf? node = some parent ∧ graph.roleOf? node = some role ∧
      graph.RolesTo root parent roles := by
  constructor
  · intro h
    generalize hroles : roles ++ [role] = given at h
    cases h with
    | top => exact absurd hroles (by simp)
    | child hparent hrole h =>
      obtain ⟨rfl, rfl⟩ := List.append_singleton_inj.mp hroles
      exact ⟨_, hparent, hrole, h⟩
  · rintro ⟨parent, hparent, hrole, h⟩
    exact .child hparent hrole h

/-! ## Rooted graphs -/

/-- A node without a parent is the root of a tree in which composites know parts of theirs under the
roles that these have. -/
structure Rooted (graph : Graph) (root : NodeId) : Prop where
  loose : graph.parentOf? root = none
  above : ∀ {node parent}, graph.parentOf? node = some parent → parent.index < node.index
  part : ∀ {composite role node}, graph.part? composite role = some node →
    graph.parentOf? node = some composite ∧ graph.roleOf? node = some role ∧ graph.Hosts node

namespace Rooted

/-- A graph of the same plan is rooted like the graph that was built. -/
theorem of_samePlan (hlineage : graph.Lineage) (howned : graph.Owned)
    (hloose : graph.parentOf? root = none) (hplan : graph.SamePlan graph') :
    graph'.Rooted root where
  loose := (congrFun hplan.parentOf? root).trans hloose
  above hparent := (hlineage.above (hplan.parentOf? ▸ hparent)).1
  part {composite role node} hpart := by
    rw [hplan.part?] at hpart
    obtain ⟨hhosts, hrole⟩ := howned.role hpart
    exact ⟨(congrFun hplan.parentOf? node).trans (hlineage.part hpart),
      (hplan.bind_node? Node.role_plan node).trans hrole, hplan.hosts hhosts⟩

variable (h : graph.Rooted root)

include h

theorem ne_of_parentOf? {parent : NodeId} (hparent : graph.parentOf? node = some parent) :
    node ≠ root := by
  rintro rfl
  rw [h.loose] at hparent
  cases hparent

/-- Nothing is on the way to the root. -/
theorem not_onWay_root : ¬ graph.OnWay root root other := by
  rintro ⟨rfl | hbelow, hne⟩
  · exact hne rfl
  · obtain ⟨parent, hparent, _⟩ := Relation.TransGen.head'_iff.mp hbelow
    rw [h.loose] at hparent
    cases hparent

/-- On the way to a node there is the node itself and what is on the way to its parent. -/
theorem onWay_iff {parent : NodeId} (hparent : graph.parentOf? node = some parent) :
    graph.OnWay root node other ↔ other = node ∨ graph.OnWay root parent other := by
  unfold OnWay
  rw [below_iff hparent]
  constructor
  · rintro ⟨hself | hupper, hne⟩
    · exact Or.inl hself
    · exact Or.inr ⟨hupper, hne⟩
  · rintro (rfl | ⟨hupper, hne⟩)
    · exact ⟨Or.inl rfl, h.ne_of_parentOf? hparent⟩
    · exact ⟨Or.inr hupper, hne⟩

/-- **Following roles down** finds the node that they lead to, if everything on the way is
registered.  The induction is from the last role on, since parents are read upwards. -/
theorem foldlM_part? : roles.foldlM graph.part? root = some node ↔
    graph.RolesTo root node roles ∧
      ∀ other, graph.OnWay root node other → graph.Registered other := by
  -- Induction on the roles from the last one, as each step of the fold goes down one level
  induction roles using List.reverseRecOn generalizing node with
  | nil =>
    rw [rolesTo_nil_iff]
    constructor
    · intro hfold
      obtain rfl := Option.some.inj hfold
      exact ⟨rfl, fun _ hway => absurd hway h.not_onWay_root⟩
    · rintro ⟨rfl, _⟩
      rfl
  | append_singleton roles role ih =>
    rw [List.foldlM_append, rolesTo_append_iff]
    constructor
    · intro hfold
      obtain ⟨parent, hup, hlast⟩ := Option.bind_eq_some_iff.mp hfold
      have hpart : graph.part? parent role = some node := by
        simpa [List.foldlM_cons, List.foldlM_nil] using hlast
      obtain ⟨hparent, hrole, _⟩ := h.part hpart
      obtain ⟨hroles, hregistered⟩ := ih.mp hup
      refine ⟨⟨parent, hparent, hrole, hroles⟩, fun other hway => ?_⟩
      -- A node on the way is the last one or lies further up
      rcases (h.onWay_iff hparent).mp hway with rfl | hupper
      · exact ⟨parent, role, hparent, hrole, hpart⟩
      · exact hregistered other hupper
    · rintro ⟨⟨parent, hparent, hrole, hroles⟩, hregistered⟩
      have hup : roles.foldlM graph.part? root = some parent :=
        ih.mpr ⟨hroles, fun other hupper =>
          hregistered other ((h.onWay_iff hparent).mpr (Or.inr hupper))⟩
      -- The node is registered in its parent, under its role
      obtain ⟨parent', role', hparent', hrole', hpart⟩ :=
        hregistered node ((h.onWay_iff hparent).mpr (Or.inl rfl))
      obtain rfl := Option.some.inj (hparent'.symm.trans hparent)
      obtain rfl := Option.some.inj (hrole'.symm.trans hrole)
      refine Option.bind_eq_some_iff.mpr ⟨parent', hup, ?_⟩
      simpa [List.foldlM_cons, List.foldlM_nil] using hpart

/-- There is one way to a node only. -/
theorem rolesTo_unique (hroles : graph.RolesTo root node roles)
    (hroles' : graph.RolesTo root node roles') : roles = roles' := by
  induction hroles generalizing roles' with
  | top =>
    cases hroles' with
    | top => rfl
    | child hparent => exact absurd rfl (h.ne_of_parentOf? hparent)
  -- A node has one parent and one role, so the last steps are the same
  | child hparent hrole _ ih =>
    cases hroles' with
    | top => exact absurd rfl (h.ne_of_parentOf? hparent)
    | child hparent' hrole' hup =>
      obtain rfl := Option.some.inj (hparent.symm.trans hparent')
      obtain rfl := Option.some.inj (hrole.symm.trans hrole')
      rw [ih hup]

/-- If everything on the way to a node is registered, the way begins at the root. -/
theorem exists_rolesTo
    (hregistered : ∀ other, graph.OnWay root node other → graph.Registered other) :
    ∃ roles, graph.RolesTo root node roles := by
  -- By induction on the position of the node, since parents come first
  obtain ⟨position⟩ := node
  induction position using Nat.strong_induction_on with
  | h position ih =>
    by_cases hroot : (⟨position⟩ : NodeId) = root
    · exact ⟨[], rolesTo_nil_iff.mpr hroot⟩
    · obtain ⟨parent, role, hparent, hrole, _⟩ := hregistered ⟨position⟩ ⟨Or.inl rfl, hroot⟩
      obtain ⟨roles, hroles⟩ := ih parent.index (h.above hparent) fun other hupper =>
        hregistered other ((h.onWay_iff hparent).mpr (Or.inr hupper))
      exact ⟨roles ++ [role], .child hparent hrole hroles⟩

/-- The roles on the way are those of the nodes on the way. -/
theorem exists_onWay_of_mem (hroles : graph.RolesTo root node roles) {role : String}
    (hmem : role ∈ roles) :
    ∃ other, graph.OnWay root node other ∧ graph.roleOf? other = some role := by
  induction hroles with
  | top => exact absurd hmem List.not_mem_nil
  | child hparent hrole _ ih =>
    rcases List.mem_append.mp hmem with hupper | hlast
    · obtain ⟨other, hway, hother⟩ := ih hupper
      exact ⟨other, (h.onWay_iff hparent).mpr (Or.inr hway), hother⟩
    · obtain rfl := List.mem_singleton.mp hlast
      exact ⟨_, (h.onWay_iff hparent).mpr (Or.inl rfl), hrole⟩

/-- **What is registered** can be a part, is not the root and was not displaced. -/
theorem registered_iff (htree : ∀ {node}, graph.Hosts node → node ≠ root →
    graph.parentOf? node ≠ none) :
    graph.Registered node ↔ node ≠ root ∧ graph.Hosts node ∧ ¬ graph.Displaced node := by
  constructor
  · rintro ⟨parent, role, hparent, _, hpart⟩
    refine ⟨h.ne_of_parentOf? hparent, (h.part hpart).2.2, ?_⟩
    rintro ⟨_, parent', hparent', hunknown⟩
    obtain rfl := Option.some.inj (hparent'.symm.trans hparent)
    exact hunknown role hpart
  -- A node below the root has a parent, in which it is displaced unless it is registered
  · rintro ⟨hne, hhosts, hknown⟩
    obtain ⟨parent, hparent⟩ := Option.ne_none_iff_exists'.mp (htree hhosts hne)
    obtain ⟨role, hpart⟩ : ∃ role, graph.part? parent role = some node := by
      by_contra hunknown
      exact hknown ⟨hhosts, parent, hparent, not_exists.mp hunknown⟩
    exact ⟨parent, role, hparent, (h.part hpart).2.1, hpart⟩

end Rooted

end Graph

namespace Network

/-- A path leads to a node just if the path shows the roles on the way to the node. -/
theorem find?_eq_some_iff {net : Network} {path : String} {node : NodeId} :
    net.find? path = some node ↔ ∃ roles : List String, roles ≠ [] ∧
      (∀ role ∈ roles, '/' ∉ role.toList) ∧ "/".intercalate roles = path ∧
      roles.foldlM net.graph.part? net.root = some node := by
  have hslash : String.singleton '/' = "/" := rfl
  unfold find?
  constructor
  · intro hfold
    obtain ⟨hne, hfree, hjoin⟩ := Text.split_eq_iff.mp (rfl : Text.split '/' path = _)
    exact ⟨_, hne, hfree, hslash ▸ hjoin, hfold⟩
  · rintro ⟨roles, hne, hfree, hjoin, hfold⟩
    rw [Text.split_eq_iff.mpr ⟨hne, hfree, hslash ▸ hjoin⟩]
    exact hfold

/-- **Paths and nodes.**  What a path leads to, which nodes are registered, and that all nodes with
a path have one path each. -/
structure Addressed (net : Network) : Prop where
  /-- A path leads to the node for which it joins the roles on the way; everything on the way is
  registered. -/
  find : ∀ {path node}, net.find? path = some node ↔
    node ≠ net.root ∧ (∀ other, net.graph.OnWay net.root node other → net.graph.Registered other) ∧
      ∃ roles, net.graph.RolesTo net.root node roles ∧ (∀ role ∈ roles, '/' ∉ role.toList) ∧
        "/".intercalate roles = path
  /-- Registered are all nodes but the root, the joins and those that were displaced. -/
  registered : ∀ {node}, net.graph.Registered node ↔
    node ≠ net.root ∧ net.graph.Hosts node ∧ ¬ net.graph.Displaced node
  /-- Two paths to one node are the same. -/
  unique : ∀ {path path' node}, net.find? path = some node → net.find? path' = some node →
    path = path'
  /-- A node has a path if all on the way is registered, under roles without slashes. -/
  found : ∀ {node}, node ≠ net.root →
    (∀ other, net.graph.OnWay net.root node other → net.graph.Registered other ∧
      ∀ role, net.graph.roleOf? other = some role → '/' ∉ role.toList) →
    ∃ path, net.find? path = some node

/-- In a rooted graph, paths are the roles on the way. -/
theorem addressed_of_rooted {net : Network} (h : net.graph.Rooted net.root)
    (htree : ∀ {node}, net.graph.Hosts node → node ≠ net.root → net.graph.parentOf? node ≠ none) :
    net.Addressed := by
  -- A path leads down through parts, so each node on the way is registered
  have hfind {path : String} {node : NodeId} : net.find? path = some node ↔
      node ≠ net.root ∧
        (∀ other, net.graph.OnWay net.root node other → net.graph.Registered other) ∧
        ∃ roles, net.graph.RolesTo net.root node roles ∧ (∀ role ∈ roles, '/' ∉ role.toList) ∧
          "/".intercalate roles = path := by
    rw [find?_eq_some_iff]
    constructor
    · rintro ⟨roles, hne, hfree, hjoin, hfold⟩
      obtain ⟨hroles, hregistered⟩ := h.foldlM_part?.mp hfold
      refine ⟨?_, hregistered, roles, hroles, hfree, hjoin⟩
      rintro rfl
      exact hne (h.rolesTo_unique hroles .top)
    · rintro ⟨hroot, hregistered, roles, hroles, hfree, hjoin⟩
      refine ⟨roles, ?_, hfree, hjoin, h.foldlM_part?.mpr ⟨hroles, hregistered⟩⟩
      rintro rfl
      exact hroot (Graph.rolesTo_nil_iff.mp hroles)
  constructor
  case find => exact hfind
  case registered => exact h.registered_iff htree
  case unique =>
    intro path path' node hpath hpath'
    obtain ⟨_, _, roles, hroles, _, rfl⟩ := hfind.mp hpath
    obtain ⟨_, _, roles', hroles', _, rfl⟩ := hfind.mp hpath'
    rw [h.rolesTo_unique hroles hroles']
  -- The roles from the root, joined, are the path
  case found =>
    intro node hroot hway
    obtain ⟨roles, hroles⟩ := h.exists_rolesTo fun other hother => (hway other hother).1
    refine ⟨"/".intercalate roles, hfind.mpr ⟨hroot, fun other hother => (hway other hother).1,
      roles, hroles, fun role hmem => ?_, rfl⟩⟩
    obtain ⟨other, hother, hrole⟩ := h.exists_onWay_of_mem hroles hmem
    exact (hway other hother).2 role hrole

/-- **Paths name nodes uniquely**, after every history of calls. -/
theorem addressed_of_history {library : Library} {identifier : String} {options : BuildOptions}
    {built : Network} (hbuilt : library.instantiate identifier options = .ok built)
    (calls : List Call) : (built.performAll calls).1.Addressed := by
  have hplan := samePlan_performAll ((leads_instantiate hbuilt).1.closed .empty) calls
  have hroot : (built.performAll calls).1.root = built.root :=
    (built.sameBuild_performAll calls).root
  obtain ⟨draft, _, hcourse, hgraph, _⟩ := Draft.exists_course_of_instantiate hbuilt
  have hgrown := Library.built_of_instantiate hbuilt
  apply addressed_of_rooted
  · rw [hroot]
    exact .of_samePlan (hgrown.constructs.lineage .empty) (hgrown.constructs.owned .empty .empty)
      hgrown.loose hplan
  · intro node hhosts hne
    rw [hroot, show built.root = ⟨0⟩ from hgrown.place] at hne
    -- The root comes first, and everything behind it was given a place
    obtain ⟨record, hrecord, _⟩ := hplan.symm.hosts hhosts
    have hlater : built.root.index < node.index := by
      rw [show built.root = ⟨0⟩ from hgrown.place]
      exact Nat.pos_of_ne_zero fun hzero => hne (congrArg NodeId.mk hzero)
    have hsize : node.index < draft.graph.nodes.size :=
      hgraph ▸ (Array.getElem?_eq_some_iff.mp hrecord).1
    obtain ⟨parent, hparent, _⟩ := hcourse.exists_parent .empty hlater hsize
    rw [hplan.parentOf?, hgraph, hparent]
    exact Option.some_ne_none parent

end Network

/-! ### A harbour with awkward roles -/

/-- A pier has a part without a name, one whose role looks like a path, and one that loses its role
to another; the harbour has two piers, one of them without a name, and a part whose role ends with a
slash. -/
def Library.harbour : Library where
  specifications :=
    (primitives.specifications.insert "pier" (.composite "pier" 0 1
      [.part "+" "", .part "+" "a/b", .part "+" "x", .part "!" "x"])).insert "harbour"
        (.composite "harbour" 0 0 [.part "pier" "in", .part "pier" "", .part "+" "in/"])

/-- The network of the harbour. -/
def Network.harbour : Network :=
  (Library.harbour.instantiate "harbour" {}).toOption.getD default

/-- A part without a name is found, and so is the part that took the role over.  No path leads to
the one that lost it, and none to the one whose role looks like a path. -/
theorem Network.addressed_of_harbour :
    Library.harbour.instantiate "harbour" {} = .ok harbour ∧
      (harbour.performAll [.setCalls ⟨6⟩ 4, .step]).1.Addressed ∧
      (["", "in/", "in/x", "/x", "in/a/b"].map
        (harbour.performAll [.setCalls ⟨6⟩ 4, .step]).1.find?) =
          [some ⟨7⟩, some ⟨3⟩, some ⟨6⟩, some ⟨12⟩, none] ∧
      ∀ path, (harbour.performAll [.setCalls ⟨6⟩ 4, .step]).1.find? path ≠ some ⟨5⟩ := by
  have hbuilt : Library.harbour.instantiate "harbour" {} = .ok harbour := by decide +kernel
  have haddressed := addressed_of_history hbuilt [.setCalls ⟨6⟩ 4, .step]
  refine ⟨hbuilt, haddressed, by decide +kernel, fun path hpath => ?_⟩
  obtain ⟨hne, hregistered, _⟩ := haddressed.find.mp hpath
  obtain ⟨_, _, hknown⟩ := haddressed.registered.mp (hregistered ⟨5⟩ ⟨Or.inl rfl, hne⟩)
  exact hknown (by decide +kernel)

end TokenNet
