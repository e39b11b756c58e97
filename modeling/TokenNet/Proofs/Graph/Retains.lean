import TokenNet.Proofs.Graph.Native

/-!
# Nodes that stay as they are

A graph grows behind the nodes that it has, and what is done to a composite does not touch the nodes
made before it.  So whoever keeps the handle of an old node finds the old record behind it.

## Main statements

- `Retains.addNative`, `Retains.addComposite`: growth leaves all nodes as they are.
- `Retains.adopt`, `Retains.setEntry`: a change of a composite leaves the nodes before it as they
  are.
- `node?_addComposite`: the record of a new composite.
-/

namespace TokenNet

/-! ## Records -/

namespace Node

@[simp] theorem interface?_addPart (role : String) (part : NodeId) (record : Node) :
    (record.addPart role part).interface? = record.interface? := by
  obtain ⟨_, _, _, _, kind⟩ := record
  cases kind <;> rfl

@[simp] theorem entry?_addPart (role : String) (part : NodeId) (record : Node) :
    Node.entry? (record.addPart role part) = record.entry? := by
  obtain ⟨_, _, _, _, kind⟩ := record
  cases kind <;> rfl

@[simp] theorem part?_modifyInterface (change : Interface → Interface) (record : Node)
    (role : String) : (record.modifyInterface change).part? role = record.part? role := by
  obtain ⟨_, _, _, _, kind⟩ := record
  cases kind <;> rfl

end Node

namespace Graph


theorem node?_modifyNode (graph : Graph) (changed : NodeId) (change : Node → Node)
    (node : NodeId) : (graph.modifyNode changed change).node? node =
      if node = changed then (graph.node? node).map change else graph.node? node := by
  obtain ⟨i⟩ := node
  obtain ⟨j⟩ := changed
  by_cases hij : j = i
  · simp [node?, modifyNode, Array.getElem?_modify, hij]
  · simp [node?, modifyNode, Array.getElem?_modify, hij, Ne.symm hij]

theorem part?_congr {graph graph' : Graph} {node : NodeId} (h : graph'.node? node = graph.node? node) :
    graph'.part? node = graph.part? node := by
  funext role
  simp only [part?, h]

/-- What a change of a node does not touch, it leaves as it is everywhere. -/
theorem bind_modifyNode {α : Type} {read : Node → Option α} {change : Node → Node}
    (h : ∀ record, read (change record) = read record) (graph : Graph) (changed node : NodeId) :
    ((graph.modifyNode changed change).node? node).bind read = (graph.node? node).bind read := by
  rw [node?_modifyNode]
  split
  next => rw [Option.bind_map, Function.comp_def, funext h]
  next => rfl

/-! ## Taking up parts -/

section

variable (graph : Graph) {composite part : NodeId} (role : String)

theorem interface?_adopt (node : NodeId) :
    (graph.adopt composite role part).interface? node = graph.interface? node := by
  refine (bind_modifyNode (Node.interface?_addPart role part) _ composite node).trans
    (bind_modifyNode ?_ graph part node)
  exact fun _ => rfl

theorem entryOf?_adopt (node : NodeId) :
    (graph.adopt composite role part).entryOf? node = graph.entryOf? node := by
  refine (bind_modifyNode (Node.entry?_addPart role part) _ composite node).trans
    (bind_modifyNode ?_ graph part node)
  exact fun _ => rfl

theorem node?_adopt (hne : composite ≠ part) : (graph.adopt composite role part).node? composite =
    (graph.node? composite).map (Node.addPart role part) := by
  unfold adopt
  rw [node?_modifyNode, if_pos rfl, node?_modifyNode, if_neg hne]

end

/-! ## Old nodes -/

/-- The nodes before a position are in a later graph what they were. -/
def Retains (count : Nat) (graph graph' : Graph) : Prop :=
  ∀ node : NodeId, node.index < count → graph'.node? node = graph.node? node

namespace Retains

variable {count : Nat} {graph graph' graph'' : Graph}

theorem refl (count : Nat) (graph : Graph) : Retains count graph graph :=
  fun _ _ => rfl

theorem trans (h : Retains count graph graph') (h' : Retains count graph' graph'') :
    Retains count graph graph'' :=
  fun node hnode => (h' node hnode).trans (h node hnode)

theorem mono {bound : Nat} (h : Retains count graph graph') (hle : bound ≤ count) :
    Retains bound graph graph' :=
  fun node hnode => h node (Nat.lt_of_lt_of_le hnode hle)

theorem of_nodes_eq (h : graph'.nodes = graph.nodes) : Retains count graph graph' := by
  intro node _
  unfold node?
  rw [h]

theorem modifyNode {changed : NodeId} (hle : count ≤ changed.index) (change : Node → Node) :
    Retains count graph (graph.modifyNode changed change) := by
  intro node hnode
  have hne : node ≠ changed := by
    rintro rfl
    exact Nat.not_lt_of_ge hle hnode
  rw [node?_modifyNode, if_neg hne]

theorem addNode (hle : count ≤ graph.nodes.size) (record : Node) :
    Retains count graph (graph.addNode record).2 := by
  intro node hnode
  have hne : node.index ≠ graph.nodes.size := Nat.ne_of_lt (Nat.lt_of_lt_of_le hnode hle)
  unfold node? Graph.addNode
  rw [Array.getElem?_push, if_neg hne]

/-- **A new native node leaves all nodes as they are.** -/
theorem addNative (primitive : Primitive) (specification : String) (traced : Bool) :
    Retains graph.nodes.size graph (graph.addNative primitive specification traced).2 := by
  intro node hnode
  have hne : node ≠ ⟨graph.nodes.size⟩ := by
    rintro rfl
    exact Nat.lt_irrefl _ hnode
  rw [node?_addNative, if_neg hne]

theorem addJoins (composite : NodeId) (specification : String) (traced : Bool) :
    ∀ (exits : List ExitId) {graph : Graph}, count ≤ graph.nodes.size →
    Retains count graph (graph.forEach (addJoin composite specification traced) exits).2
  | [], graph, _ => refl count graph
  | exit :: rest, graph, hle => by
    -- One join adds an entry and a node, both behind those that are kept
    have hentry : Retains count graph (graph.addEntry ⟨graph.nodes.size⟩).2 := of_nodes_eq rfl
    have hfirst : Retains count graph (addJoin composite specification traced graph exit).2 :=
      hentry.trans (.addNode hle _)
    have hsize : count ≤ (addJoin composite specification traced graph exit).2.nodes.size := by
      simpa [addJoin, Graph.addNode, addEntry] using Nat.le_succ_of_le hle
    exact hfirst.trans (addJoins composite specification traced rest hsize)

/-- Giving a part its place leaves the nodes before the composite and the part as they are. -/
theorem adopt {composite part : NodeId} (hcomposite : count ≤ composite.index)
    (hpart : count ≤ part.index) (role : String) :
    Retains count graph (graph.adopt composite role part) :=
  (modifyNode hpart _).trans (modifyNode hcomposite _)

theorem setEntry {composite : NodeId} (hle : count ≤ composite.index) (entry : EntryId) :
    Retains count graph (graph.setEntry composite entry) :=
  modifyNode hle _

end Retains

/-! ## New composites -/

theorem length_addJoins (composite : NodeId) (specification : String) (traced : Bool) :
    ∀ (exits : List ExitId) (graph : Graph),
    (graph.forEach (addJoin composite specification traced) exits).1.length = exits.length
  | [], _ => rfl
  | _ :: rest, _ => congrArg (· + 1) (length_addJoins composite specification traced rest _)

/-- **A new composite** stands behind the other nodes, has no parts and no entry, and has as many
joins as exits.  The other nodes stay as they are. -/
theorem node?_addComposite (graph : Graph) (specification : String) (inletCount exitCount : Nat)
    (traced : Bool) :
    (graph.addComposite specification inletCount exitCount traced).1 = ⟨graph.nodes.size⟩ ∧
      Retains graph.nodes.size graph
        (graph.addComposite specification inletCount exitCount traced).2 ∧
      ∃ ports, (graph.addComposite specification inletCount exitCount traced).2.node?
          ⟨graph.nodes.size⟩ = some { specification, traced, kind := .composite ports {} } ∧
        ports.inlets.length = inletCount ∧ ports.exits.length = exitCount ∧
        ports.joins.length = exitCount ∧ ports.entry = none := by
  have hinlets := Sprouts.times (fun g => Sprouts.addInlet g ⟨graph.nodes.size⟩) inletCount graph
  have hin := length_times (fun g => g.addInlet ⟨graph.nodes.size⟩) inletCount graph
  simp only [addComposite]
  generalize graph.times (fun g => g.addInlet ⟨graph.nodes.size⟩) inletCount = fed
    at hinlets hin ⊢
  have houtlet := Sprouts.addOwnOutlet ⟨graph.nodes.size⟩ fed.2
  generalize fed.2.addOwnOutlet ⟨graph.nodes.size⟩ = ported at houtlet ⊢
  have hexits := Sprouts.times (fun g => Sprouts.addExit g ⟨graph.nodes.size⟩) exitCount ported.2
  have hout := length_times (fun g => g.addExit ⟨graph.nodes.size⟩) exitCount ported.2
  generalize ported.2.times (fun g => g.addExit ⟨graph.nodes.size⟩) exitCount = framed
    at hexits hout ⊢
  have hnodes : framed.2.nodes = graph.nodes := ((hinlets.trans houtlet).trans hexits).nodes
  have hsize : framed.2.nodes.size = graph.nodes.size := congrArg Array.size hnodes
  have hplace : ∀ record, (framed.2.addNode record).1 = ⟨graph.nodes.size⟩ :=
    fun _ => congrArg NodeId.mk hsize
  let ports : Interface := { inlets := fed.1, outlet := ported.1, exits := framed.1 }
  let record : Node := { specification, traced, kind := .composite ports {} }
  have hrecord := node?_addNode_fst framed.2 record
  have hgrown : Retains graph.nodes.size graph (framed.2.addNode record).2 :=
    (Retains.of_nodes_eq hnodes).trans (.addNode (Nat.le_of_eq hsize.symm) record)
  -- The joins stand behind the composite, so they leave its record as it is
  have hcount : (framed.2.addNode record).2.nodes.size = graph.nodes.size + 1 := by
    simp [addNode, hsize]
  have hjoins := Retains.addJoins ⟨graph.nodes.size⟩ specification traced framed.1
    (Nat.le_of_eq hcount.symm)
  have hlength := length_addJoins ⟨graph.nodes.size⟩ specification traced framed.1
    (framed.2.addNode record).2
  rw [hplace] at hrecord ⊢
  generalize (framed.2.addNode record).2.forEach
    (addJoin ⟨graph.nodes.size⟩ specification traced) framed.1 = joined at hjoins hlength ⊢
  -- The last step lists the joins in the interface of the composite
  refine ⟨rfl, ?_, { ports with joins := joined.1 }, ?_, hin, hout, hlength.trans hout, rfl⟩
  · exact (hgrown.trans (hjoins.mono (Nat.le_succ _))).trans (.modifyNode (Nat.le_refl _) _)
  · have hkept := (hjoins ⟨graph.nodes.size⟩ (Nat.lt_succ_self _)).trans hrecord
    rw [node?_modifyNode, if_pos rfl, hkept]
    rfl

end Graph

end TokenNet
