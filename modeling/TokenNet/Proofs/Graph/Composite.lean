import TokenNet.Proofs.Graph.Retains

/-!
# Composites in a graph

The handles that a new composite gets are the next ones of each kind, in order, and its joins are
the nodes right behind it.

## Main statements

- `bare_addComposite`: what a new composite adds, cells apart.
-/

namespace TokenNet.Graph

/-- The ports that a composite gets in a graph. -/
def compositePorts (graph : Graph) (inletCount exitCount : Nat) : Interface where
  inlets := (List.range inletCount).map fun i => ⟨graph.inlets.size + i⟩
  outlet := ⟨graph.outlets.size⟩
  exits := (List.range exitCount).map fun i => ⟨graph.exits.size + i⟩
  joins := (List.range exitCount).map fun i => ⟨graph.nodes.size + 1 + i⟩

/-- The record of the join behind the exit at a position of a composite. -/
def joinRecord (graph : Graph) (specification : String) (traced : Bool) (i : Nat) : Node where
  specification
  parent := some ⟨graph.nodes.size⟩
  traced
  kind := .join ⟨graph.entries.size + i⟩ ⟨graph.exits.size + i⟩

/-! ## The single steps -/

theorem times_succ {α : Type} (grow : Graph → α × Graph) (count : Nat) (graph : Graph) :
    graph.times grow (count + 1) = ((grow graph).1 :: ((grow graph).2.times grow count).1,
      ((grow graph).2.times grow count).2) := rfl

theorem forEach_cons {α β : Type} (grow : Graph → α → β × Graph) (a : α) (rest : List α)
    (graph : Graph) :
    graph.forEach grow (a :: rest) = ((grow graph a).1 :: ((grow graph a).2.forEach grow rest).1,
      ((grow graph a).2.forEach grow rest).2) := rfl

theorem times_addInlet (owner : NodeId) (count : Nat) (graph : Graph) :
    graph.times (fun g => g.addInlet owner) count =
      ((List.range count).map fun i => ⟨graph.inlets.size + i⟩,
        { graph with inlets := graph.inlets ++ Array.replicate count { owner } }) := by
  induction count generalizing graph with
  | zero => simp [times]
  | succ count ih =>
    have hshift : ∀ i, graph.inlets.size + 1 + i = graph.inlets.size + (i + 1) := by omega
    rw [times_succ, ih]
    simp [addInlet, List.range_succ_eq_map, Array.replicate_succ', hshift, Function.comp_def,
      ← Array.append_assoc]

theorem times_addExit (owner : NodeId) (count : Nat) (graph : Graph) :
    graph.times (fun g => g.addExit owner) count =
      ((List.range count).map fun i => ⟨graph.exits.size + i⟩,
        { graph with exits := graph.exits ++ Array.replicate count { owner } }) := by
  induction count generalizing graph with
  | zero => simp [times]
  | succ count ih =>
    have hshift : ∀ i, graph.exits.size + 1 + i = graph.exits.size + (i + 1) := by omega
    rw [times_succ, ih]
    simp [addExit, List.range_succ_eq_map, Array.replicate_succ', hshift, Function.comp_def,
      ← Array.append_assoc]

/-- The joins behind exits that stand in a row, and the entries that admit to them. -/
theorem forEach_addJoin (composite : NodeId) (specification : String) (traced : Bool)
    (first count : Nat) (graph : Graph) :
    graph.forEach (addJoin composite specification traced)
        ((List.range count).map fun i => ⟨first + i⟩) =
      ((List.range count).map fun i => ⟨graph.nodes.size + i⟩,
        { graph with
          nodes := graph.nodes ++ ((List.range count).map fun i =>
            ({ specification, parent := some composite, traced,
               kind := .join ⟨graph.entries.size + i⟩ ⟨first + i⟩ } : Node)).toArray
          entries := graph.entries ++
            ((List.range count).map fun i => (⟨graph.nodes.size + i⟩ : NodeId)).toArray }) := by
  induction count generalizing first graph with
  | zero => simp [forEach]
  -- The first join takes the first number, and the rest are counted from the next
  | succ count ih =>
    have hnode : ∀ i, graph.nodes.size + 1 + i = graph.nodes.size + (i + 1) := by omega
    have hentry : ∀ i, graph.entries.size + 1 + i = graph.entries.size + (i + 1) := by omega
    have hexit : ∀ i, first + 1 + i = first + (i + 1) := by omega
    have hrest : (List.range (count + 1)).map (fun i => (⟨first + i⟩ : ExitId)) =
        ⟨first⟩ :: (List.range count).map fun i => ⟨first + 1 + i⟩ := by
      simp [List.range_succ_eq_map, Function.comp_def, hexit]
    rw [hrest, forEach_cons, ih]
    simp [addJoin, addNode, addEntry, List.range_succ_eq_map, Function.comp_def, hnode, hentry,
      hexit]

theorem modify_size_push_append {α : Type} (records later : Array α) (a : α) (change : α → α) :
    (records.push a ++ later).modify records.size change = records.push (change a) ++ later := by
  refine Array.ext_getElem? fun i => ?_
  rw [Array.getElem?_modify, Array.getElem?_append, Array.getElem?_append, Array.size_push,
    Array.size_push, Array.getElem?_push, Array.getElem?_push]
  by_cases hi : i = records.size
  · simp [hi]
  · simp [hi, Ne.symm hi]

/-! ## Whole composites -/

/-- **A composite without its cells**: its ports, and one join with an entry for each exit. -/
theorem bare_addComposite (graph : Graph) (specification : String) (inletCount exitCount : Nat)
    (traced : Bool) :
    let owner : NodeId := ⟨graph.nodes.size⟩
    (graph.addComposite specification inletCount exitCount traced).2.bare =
      { nodes := graph.nodes.push
            { specification, traced,
              kind := .composite (graph.compositePorts inletCount exitCount) {} } ++
          ((List.range exitCount).map (graph.joinRecord specification traced)).toArray
        inlets := graph.bare.inlets ++ Array.replicate inletCount { owner }
        outlets := graph.bare.outlets.push { owner }
        entries := graph.entries ++
          ((List.range exitCount).map fun i => (⟨graph.nodes.size + 1 + i⟩ : NodeId)).toArray
        exits := graph.exits ++ Array.replicate exitCount { owner } } := by
  intro owner
  have hfed := times_addInlet owner inletCount graph
  simp only [addComposite]
  generalize graph.times (fun g => g.addInlet ⟨graph.nodes.size⟩) inletCount = fed at hfed ⊢
  -- The later steps do not look at the data ports
  have hbare : (fed.2.addOwnOutlet owner).2.bare = (fed.2.bare.addOutlet owner).2 :=
    bare_addOwnOutlet owner fed.2
  have hported : (fed.2.addOwnOutlet owner).1 = ⟨fed.2.outlets.size⟩ := rfl
  have hnodes : (fed.2.addOwnOutlet owner).2.nodes = fed.2.nodes := rfl
  have hentries : (fed.2.addOwnOutlet owner).2.entries = fed.2.entries := rfl
  have hexits : (fed.2.addOwnOutlet owner).2.exits = fed.2.exits := rfl
  generalize fed.2.addOwnOutlet ⟨graph.nodes.size⟩ = ported
    at hbare hported hnodes hentries hexits ⊢
  rw [hfed] at hbare hported hnodes hentries hexits
  rw [hfed]
  dsimp only at hbare hported hnodes hentries hexits ⊢
  -- The exits are counted off behind those that are there
  have hframed := times_addExit owner exitCount ported.2
  generalize ported.2.times (fun g => g.addExit ⟨graph.nodes.size⟩) exitCount = framed
    at hframed ⊢
  rw [hframed]
  dsimp only [addNode]
  rw [hnodes, hexits, hported, forEach_addJoin]
  -- The joins come behind the composite, and change no pin
  have hinlets := congrArg Graph.inlets hbare
  have houtlets := congrArg Graph.outlets hbare
  simp only [bare, addOutlet] at hinlets houtlets
  simp only [bare, modifyNode, modify_size_push_append, hentries, hinlets, houtlets]
  simp only [Array.size_push, List.push_append_toArray, Array.map_append, Array.map_replicate,
    mk.injEq, and_self, and_true]
  exact ⟨rfl, rfl⟩

end TokenNet.Graph
