import Mathlib.Data.List.Forall2
import TokenNet.Proofs.Graph.Lineage

/-!
# Owners list what they own

The tree of nodes says that whatever a node lists belongs to it.  Conversely, a port is listed by the
node that it belongs to, and only once; the joins of a composite stand behind its exits, in the same
order; and the role under which a composite knows a part is the role that the part has.

## Main statements

- `Owned`: owners list what they own.
- `Lists`: what a new node lists, `lists_addNative` and `lists_addComposite`.
- `Owned.raises`, `Owned.adopt`: growing keeps this.
-/

namespace TokenNet.Graph

/-- The role of a node. -/
def roleOf? (graph : Graph) (node : NodeId) : Option String :=
  (graph.node? node).bind Node.role

/-- A join hands the token to an exit. -/
def ReturnsBy (graph : Graph) (join : NodeId) (exit : ExitId) : Prop :=
  ∃ record entry, graph.node? join = some record ∧ record.kind = .join entry exit

/-- Every port is listed once by its owner, the joins of a composite stand behind its exits in order,
and a part has the role under which its composite knows it. -/
structure Owned (graph : Graph) : Prop where
  inlet : ∀ {inlet owner}, graph.inletOwner? inlet = some owner →
    ∃ ports, graph.interface? owner = some ports ∧ ports.inlets.count inlet = 1
  outlet : ∀ {outlet owner}, graph.outletOwner? outlet = some owner →
    ∃ ports, graph.interface? owner = some ports ∧ ports.outlet = outlet
  exit : ∀ {exit owner}, graph.exitOwner? exit = some owner →
    ∃ ports, graph.interface? owner = some ports ∧ ports.exits.count exit = 1
  joins : ∀ {node ports}, graph.IsComposite node → graph.interface? node = some ports →
    ports.joins.Nodup ∧ List.Forall₂ graph.ReturnsBy ports.joins ports.exits
  role : ∀ {composite role node}, graph.part? composite role = some node →
    graph.Hosts node ∧ graph.roleOf? node = some role

theorem Owned.empty : Owned ({} : Graph) := by
  constructor <;>
    simp [inletOwner?, outletOwner?, exitOwner?, inlet?, outlet?, exit?, part?, interface?, node?,
      IsComposite]

/-! ## What a new node lists -/

/-- A later graph has one node more, and the new ports are those that it lists. -/
structure Lists (graph graph' : Graph) (record : Node) (ports : Interface) : Prop where
  inlet : ∀ {inlet owner}, graph'.inletOwner? inlet = some owner →
    graph.inletOwner? inlet = some owner ∨
      owner = ⟨graph.nodes.size⟩ ∧ ports.inlets.count inlet = 1
  outlet : ∀ {outlet owner}, graph'.outletOwner? outlet = some owner →
    graph.outletOwner? outlet = some owner ∨
      owner = ⟨graph.nodes.size⟩ ∧ ports.outlet = outlet
  exit : ∀ {exit owner}, graph'.exitOwner? exit = some owner →
    graph.exitOwner? exit = some owner ∨
      owner = ⟨graph.nodes.size⟩ ∧ ports.exits.count exit = 1
  joins : record.acts = false →
    ports.joins.Nodup ∧ List.Forall₂ graph'.ReturnsBy ports.joins ports.exits

/-- Handles that stand in a row are different, so each of them occurs once. -/
theorem count_map_range {α : Type} [DecidableEq α] {handle : Nat → α}
    (hhandle : Function.Injective handle) (first : Nat) {count i : Nat} (hle : first ≤ i)
    (hlt : i < first + count) :
    ((List.range count).map fun j => handle (first + j)).count (handle i) = 1 := by
  apply List.count_eq_one_of_mem
  · refine List.Nodup.map (fun a b hab => ?_) List.nodup_range
    exact Nat.add_left_cancel (hhandle hab)
  · obtain ⟨j, rfl⟩ := Nat.exists_eq_add_of_le hle
    exact List.mem_map.mpr ⟨j, List.mem_range.mpr (Nat.lt_of_add_lt_add_left hlt), rfl⟩

/-- The ports of a new node are the next ones, in order. -/
theorem Lists.of_bare {graph graph' : Graph} {record : Node} {ports : Interface}
    {inletCount exitCount : Nat} {wired : Bool}
    (hin : graph'.bare.inlets =
      graph.bare.inlets ++ Array.replicate inletCount { owner := ⟨graph.nodes.size⟩ })
    (hout : graph'.bare.outlets = graph.bare.outlets.push { owner := ⟨graph.nodes.size⟩, wired })
    (hexit : graph'.exits =
      graph.exits ++ Array.replicate exitCount { owner := ⟨graph.nodes.size⟩ })
    (hinlets : ports.inlets = (List.range inletCount).map fun i => ⟨graph.inlets.size + i⟩)
    (houtlet : ports.outlet = ⟨graph.outlets.size⟩)
    (hexits : ports.exits = (List.range exitCount).map fun i => ⟨graph.exits.size + i⟩)
    (hjoins : record.acts = false →
      ports.joins.Nodup ∧ List.Forall₂ graph'.ReturnsBy ports.joins ports.exits) :
    Lists graph graph' record ports where
  -- The lists say which pins are new, and their positions say that each is listed once
  inlet {inlet owner} howner := by
    rw [inletOwner?_of_append hin] at howner
    split at howner
    next => exact Or.inl howner
    next hnew =>
      split at howner
      next hlt =>
        refine Or.inr ⟨(Option.some.inj howner).symm, ?_⟩
        rw [hinlets]
        exact count_map_range (fun _ _ h => InletId.mk.inj h) _ (Nat.le_of_not_lt hnew) hlt
      next => cases howner
  -- A node has one output, so there is nothing to count
  outlet {outlet owner} howner := by
    rw [outletOwner?_of_push hout] at howner
    split at howner
    next hnew =>
      refine Or.inr ⟨(Option.some.inj howner).symm, ?_⟩
      rw [houtlet, ← hnew]
    next => exact Or.inl howner
  exit {exit owner} howner := by
    rw [exitOwner?_of_append hexit] at howner
    split at howner
    next => exact Or.inl howner
    next hnew =>
      split at howner
      next hlt =>
        refine Or.inr ⟨(Option.some.inj howner).symm, ?_⟩
        rw [hexits]
        exact count_map_range (fun _ _ h => ExitId.mk.inj h) _ (Nat.le_of_not_lt hnew) hlt
      next => cases howner
  joins := hjoins

section

variable (graph : Graph) (specification : String) (traced : Bool)

theorem lists_addNative (primitive : Primitive) :
    Lists graph (graph.addNative primitive specification traced).2
      { specification, traced, kind := .native primitive (graph.nativePorts primitive) }
      (graph.nativePorts primitive) := by
  have hbare := bare_addNative graph primitive specification traced
  -- A primitive has two exits, one after the other
  have hexits (exits : Array Exit) (exit : Exit) :
      (exits.push exit).push exit = exits ++ Array.replicate 2 exit := by
    apply Array.toList_inj.mp
    simp
  apply Lists.of_bare
  case hin => exact (congrArg Graph.inlets hbare :)
  case hout => exact (congrArg Graph.outlets hbare :)
  case hexit => exact (congrArg Graph.exits hbare :).trans (hexits _ _)
  case hjoins => exact nofun
  all_goals rfl

theorem lists_addComposite (inletCount exitCount : Nat) :
    Lists graph (graph.addComposite specification inletCount exitCount traced).2
      { specification, traced,
        kind := .composite (graph.compositePorts inletCount exitCount) {} }
      (graph.compositePorts inletCount exitCount) := by
  have hbare := bare_addComposite graph specification inletCount exitCount traced
  apply Lists.of_bare
  case hin => exact (congrArg Graph.inlets hbare :)
  case hout => exact (congrArg Graph.outlets hbare :)
  case hexit => exact (congrArg Graph.exits hbare :)
  case hjoins =>
    intro _
    have hnodes : (graph.addComposite specification inletCount exitCount traced).2.nodes = _ :=
      (congrArg Graph.nodes hbare :)
    constructor
    -- The joins are numbered apart
    · refine List.Nodup.map (fun a b hab => ?_) List.nodup_range
      exact Nat.add_left_cancel (NodeId.mk.inj hab)
    · -- The join behind an exit has the same position as the exit
      unfold compositePorts
      rw [List.forall₂_map_left_iff, List.forall₂_map_right_iff, List.forall₂_same]
      intro i hi
      refine ⟨graph.joinRecord specification traced i, _, ?_, rfl⟩
      rw [node?_join hnodes, List.getElem?_map, List.getElem?_range (List.mem_range.mp hi)]
      rfl
  all_goals rfl

end

/-! ## Growing -/

theorem Raises.interface?_old {graph graph' : Graph} {record : Node} {ports : Interface}
    (h : Raises graph graph' record ports) {node : NodeId} {found : Interface}
    (hfound : graph.interface? node = some found) : graph'.interface? node = some found := by
  obtain ⟨other, hother, hports⟩ := Option.bind_eq_some_iff.mp hfound
  exact Option.bind_eq_some_iff.mpr ⟨other, h.node?_old hother, hports⟩

theorem Raises.interface?_new {graph graph' : Graph} {record : Node} {ports : Interface}
    (h : Raises graph graph' record ports) : graph'.interface? ⟨graph.nodes.size⟩ = some ports :=
  Option.bind_eq_some_iff.mpr ⟨record, h.node, h.interface⟩

/-- What a composite knows as its part it knew before, since a new node has no parts. -/
theorem Raises.part?_cases {graph graph' : Graph} {record : Node} {ports : Interface}
    (h : Raises graph graph' record ports) {composite node : NodeId} {role : String}
    (hpart : graph'.part? composite role = some node) : graph.part? composite role = some node := by
  obtain ⟨found, hfound, hrole⟩ := Option.bind_eq_some_iff.mp hpart
  rcases h.cases hfound with hold | ⟨rfl, rfl⟩ | hlater
  · exact Option.bind_eq_some_iff.mpr ⟨found, hold, hrole⟩
  · rw [h.parts] at hrole
    cases hrole
  · obtain ⟨_, _, _, hkind, _⟩ := h.join hlater hfound
    simp [Node.part?, Node.parts?, hkind] at hrole

/-- **A new node lists what it owns.** -/
theorem Owned.raises {graph graph' : Graph} {record : Node} {ports : Interface} (h : graph.Owned)
    (hraises : Raises graph graph' record ports) (hlists : Lists graph graph' record ports) :
    graph'.Owned := by
  constructor
  case inlet =>
    intro inlet owner howner
    -- An old pin is listed where it was, and a new one by the new node
    rcases hlists.inlet howner with hold | ⟨rfl, hcount⟩
    · obtain ⟨found, hfound, hcount⟩ := h.inlet hold
      exact ⟨found, hraises.interface?_old hfound, hcount⟩
    · exact ⟨ports, hraises.interface?_new, hcount⟩
  case outlet =>
    intro outlet owner howner
    rcases hlists.outlet howner with hold | ⟨rfl, hsame⟩
    · obtain ⟨found, hfound, hsame⟩ := h.outlet hold
      exact ⟨found, hraises.interface?_old hfound, hsame⟩
    · exact ⟨ports, hraises.interface?_new, hsame⟩
  case exit =>
    intro exit owner howner
    rcases hlists.exit howner with hold | ⟨rfl, hcount⟩
    · obtain ⟨found, hfound, hcount⟩ := h.exit hold
      exact ⟨found, hraises.interface?_old hfound, hcount⟩
    · exact ⟨ports, hraises.interface?_new, hcount⟩
  case joins =>
    rintro node found ⟨other, hother, hacts⟩ hfound
    -- A node that does not act is an old one or the new one: joins act
    rcases hraises.cases hother with hold | ⟨rfl, rfl⟩ | hlater
    · have hports : graph.interface? node = some found := by
        obtain ⟨same, hsame, hinterface⟩ := Option.bind_eq_some_iff.mp hfound
        obtain rfl := Option.some.inj (hother.symm.trans hsame)
        exact Option.bind_eq_some_iff.mpr ⟨other, hold, hinterface⟩
      obtain ⟨hnodup, hreturns⟩ := h.joins ⟨other, hold, hacts⟩ hports
      refine ⟨hnodup, hreturns.imp fun join exit hreturn => ?_⟩
      obtain ⟨behind, entry, hbehind, hkind⟩ := hreturn
      exact ⟨behind, entry, hraises.node?_old hbehind, hkind⟩
    · obtain rfl := Option.some.inj (hraises.interface?_new.symm.trans hfound)
      exact hlists.joins hacts
    · obtain ⟨_, _, _, hkind, _⟩ := hraises.join hlater hother
      simp [Node.acts, hkind] at hacts
  -- Only an old composite has parts, for the new one is empty still
  case role =>
    intro composite role node hpart
    obtain ⟨⟨found, hfound, hjoin⟩, hrole⟩ := h.role (hraises.part?_cases hpart)
    obtain ⟨other, hother, hsome⟩ := Option.bind_eq_some_iff.mp hrole
    exact ⟨⟨found, hraises.node?_old hfound, hjoin⟩,
      Option.bind_eq_some_iff.mpr ⟨other, hraises.node?_old hother, hsome⟩⟩

/-! ### Parts that take their place -/

section

variable {graph : Graph} {composite part : NodeId}

/-- Taking up a part leaves joins what they are. -/
theorem ReturnsBy.adopt {join : NodeId} {exit : ExitId} (h : graph.ReturnsBy join exit)
    (role : String) : (graph.adopt composite role part).ReturnsBy join exit := by
  obtain ⟨record, entry, hrecord, hkind⟩ := h
  have hplaced : ∃ placed, (graph.modifyNode part fun node =>
      { node with parent := some composite, role := some role }).node? join = some placed ∧
        placed.kind = .join entry exit := by
    rw [node?_modifyNode, hrecord]
    -- The part is placed first, and then listed; neither changes what a join is
    split
    · exact ⟨_, rfl, hkind⟩
    · exact ⟨_, rfl, hkind⟩
  obtain ⟨placed, hplaced, hkind'⟩ := hplaced
  unfold ReturnsBy Graph.adopt
  rw [node?_modifyNode, hplaced]
  split
  · refine ⟨_, entry, rfl, ?_⟩
    simp [Node.addPart, hkind']
  · exact ⟨placed, entry, rfl, hkind'⟩

/-- A node has the same role after a part was taken up, unless it is that part. -/
theorem roleOf?_adopt (role : String) (node : NodeId) :
    (graph.adopt composite role part).roleOf? node =
      if node = part then (graph.node? node).map fun _ => role else graph.roleOf? node := by
  unfold roleOf? Graph.adopt
  rw [@bind_modifyNode String Node.role (Node.addPart role part) fun _ => rfl, node?_modifyNode]
  split
  · cases graph.node? node <;> rfl
  · rfl

/-- The composite knows the part under its role; whatever else was known as a part still is. -/
theorem part?_adopt (hcomposite : graph.IsComposite composite) (hne : composite ≠ part)
    (role : String) (other : NodeId) (given : String) :
    (graph.adopt composite role part).part? other given =
      if other = composite ∧ given = role then some part else graph.part? other given := by
  unfold part?
  by_cases hother : other = composite
  · subst hother
    obtain ⟨record, hrecord, hacts⟩ := hcomposite
    rw [node?_adopt graph role hne, hrecord, Option.map_some, Option.bind_some, Option.bind_some]
    obtain ⟨_, _, _, _, kind⟩ := record
    -- Only a composite has a table of parts to put the role into
    cases kind with
    | composite ports parts =>
      refine (Table.get?_insert parts role part given).trans ?_
      simp only [true_and]
      rfl
    | native => cases hacts
    | join => cases hacts
  -- Another composite keeps its table, even if it is the part
  · rw [if_neg fun h => hother h.1]
    unfold Graph.adopt
    rw [node?_modifyNode, if_neg hother]
    exact @bind_modifyNode NodeId (fun record => record.part? given)
      (fun record => { record with parent := some composite, role := some role }) (fun _ => rfl)
      graph part other

/-- **A part that takes its place is known under its role.** -/
theorem Owned.adopt (h : graph.Owned) (hcomposite : graph.IsComposite composite)
    (hne : composite ≠ part) (hpart : graph.Hosts part) (hloose : graph.parentOf? part = none)
    (hlineage : graph.Lineage)
    (role : String) : (graph.adopt composite role part).Owned := by
  have hext := Extends.adopt graph composite part role
  constructor
  -- Interfaces and owners are the same, so the lists are
  case inlet =>
    intro inlet owner howner
    rw [interface?_adopt]
    exact h.inlet howner
  case outlet =>
    intro outlet owner howner
    rw [interface?_adopt]
    exact h.outlet howner
  case exit =>
    intro exit owner howner
    rw [interface?_adopt]
    exact h.exit howner
  case joins =>
    rintro node ports ⟨found, hfound, hacts⟩ hports
    rw [interface?_adopt] at hports
    obtain ⟨old, hold, hsame, _⟩ := exists_of_node?_adopt hfound
    obtain ⟨hnodup, hreturns⟩ := h.joins ⟨old, hold, hsame.symm.trans hacts⟩ hports
    exact ⟨hnodup, hreturns.imp fun join exit hreturn => hreturn.adopt role⟩
  case role =>
    intro other given node hnode
    rw [part?_adopt hcomposite hne] at hnode
    split at hnode
    -- The part is written down under the role that it is listed under
    next hsame =>
      obtain rfl := Option.some.inj hnode
      refine ⟨hext.hosts hpart, ?_⟩
      obtain ⟨record, hrecord, _⟩ := hpart
      rw [roleOf?_adopt, if_pos rfl, hrecord, hsame.2]
      rfl
    next =>
      obtain ⟨hhosts, hrole⟩ := h.role hnode
      -- The part was no part of anything before
      have hne : node ≠ part := by
        rintro rfl
        rw [hlineage.part hnode] at hloose
        cases hloose
      refine ⟨hext.hosts hhosts, ?_⟩
      rw [roleOf?_adopt, if_neg hne, hrole]

end

end TokenNet.Graph
