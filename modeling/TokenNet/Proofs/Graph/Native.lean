import TokenNet.Proofs.Graph.Growth

/-!
# Native nodes in a graph

The handles that a new native node gets are the next ones of each kind, in order.  What its ports
keep one by one, the whole node keeps.

## Main statements

- `node?_addNative`, `admitted?_addNative`, `target?_addNative`: the records of a new native node.
- `bare_addNative`: what a new native node adds, cells apart.
- `addNative_induction`: what the making of ports keeps, the making of a native node keeps.
-/

namespace TokenNet.Graph

/-! ## Handles -/

/-- The ports that a native node of a primitive gets in a graph. -/
def nativePorts (graph : Graph) (primitive : Primitive) : Interface where
  inlets := (List.range primitive.inletCount).map fun i => ⟨graph.inlets.size + i⟩
  outlet := ⟨graph.outlets.size⟩
  entry := some ⟨graph.entries.size⟩
  exits := (List.range primitive.exitCount).map fun i => ⟨graph.exits.size + i⟩

section

variable (graph : Graph) (primitive : Primitive) (specification : String) (traced : Bool)

/-- A new native node stands behind the other nodes. -/
theorem fst_addNative :
    (graph.addNative primitive specification traced).1 = ⟨graph.nodes.size⟩ := by
  cases primitive <;> rfl

theorem nodes_addNative : (graph.addNative primitive specification traced).2.nodes =
    graph.nodes.push
      { specification, traced, kind := .native primitive (graph.nativePorts primitive) } := by
  cases primitive <;>
    simp [addNative, nativePorts, times, addOwnInlet, addOwnOutlet, addInlet, addOutlet, addCell,
      attachReader, attachWriter, modifyInlet, modifyOutlet, modifyCell, addEntry, addExit,
      addNode, Primitive.inletCount, Primitive.exitCount, List.range_succ]

/-- A new native node leaves the other records as they are. -/
theorem node?_addNative (node : NodeId) :
    (graph.addNative primitive specification traced).2.node? node =
      if node = ⟨graph.nodes.size⟩ then
        some { specification, traced, kind := .native primitive (graph.nativePorts primitive) }
      else graph.node? node := by
  obtain ⟨i⟩ := node
  unfold node?
  rw [nodes_addNative, Array.getElem?_push]
  simp only [NodeId.mk.injEq]

theorem entries_addNative : (graph.addNative primitive specification traced).2.entries =
    graph.entries.push ⟨graph.nodes.size⟩ := by
  cases primitive <;> rfl

/-- Its entry admits the token to it. -/
theorem admitted?_addNative (entry : EntryId) :
    (graph.addNative primitive specification traced).2.admitted? entry =
      if entry = ⟨graph.entries.size⟩ then some ⟨graph.nodes.size⟩ else graph.admitted? entry := by
  obtain ⟨i⟩ := entry
  unfold admitted?
  rw [entries_addNative, Array.getElem?_push]
  simp only [EntryId.mk.injEq]

theorem exits_addNative : (graph.addNative primitive specification traced).2.exits =
    (graph.exits.push { owner := ⟨graph.nodes.size⟩ }).push
      { owner := ⟨graph.nodes.size⟩ } := by
  cases primitive <;> rfl

/-- Its exits lead nowhere. -/
theorem target?_addNative (exit : ExitId) :
    (graph.addNative primitive specification traced).2.target? exit = graph.target? exit := by
  unfold target? exit?
  rw [exits_addNative, Array.getElem?_push, Array.getElem?_push, Array.size_push]
  split
  -- The two new exits have no target, and neither has an exit that is not there
  next hlast =>
    rw [hlast, Array.getElem?_eq_none (Nat.le_succ _)]
    rfl
  next =>
    split
    next hfirst =>
      rw [hfirst, Array.getElem?_eq_none (Nat.le_refl _)]
      rfl
    next => rfl

theorem size_inlets_addNative : (graph.addNative primitive specification traced).2.inlets.size =
    graph.inlets.size + primitive.inletCount := by
  cases primitive <;>
    simp [addNative, times, addOwnInlet, addOwnOutlet, addInlet, addOutlet, addCell, attachReader,
      attachWriter, modifyInlet, modifyOutlet, modifyCell, addEntry, addExit, addNode,
      Primitive.inletCount, Primitive.exitCount]

theorem size_outlets_addNative :
    (graph.addNative primitive specification traced).2.outlets.size = graph.outlets.size + 1 := by
  cases primitive <;>
    simp [addNative, times, addOwnInlet, addOwnOutlet, addInlet, addOutlet, addCell, attachReader,
      attachWriter, modifyInlet, modifyOutlet, modifyCell, addEntry, addExit, addNode,
      Primitive.inletCount, Primitive.exitCount]

end

theorem modify_size_push {α : Type} (records : Array α) (a : α) (change : α → α) :
    (records.push a).modify records.size change = records.push (change a) := by
  refine Array.ext_getElem? fun i => ?_
  rw [Array.getElem?_modify, Array.getElem?_push, Array.getElem?_push]
  by_cases hi : i = records.size
  · simp [hi]
  · simp [hi, Ne.symm hi]

/-- An inlet with a cell of its own is, its cell apart, a plain new inlet. -/
theorem bare_addOwnInlet (owner : NodeId) (graph : Graph) :
    (Graph.addOwnInlet owner graph).2.bare = (graph.bare.addInlet owner).2 := by
  rw [addOwnInlet_eq, bare_ensure]
  simp [bare, addInlet, Inlet.bare]

/-- An outlet with a cell of its own is, its cell apart, a plain new outlet. -/
theorem bare_addOwnOutlet (owner : NodeId) (graph : Graph) :
    (graph.addOwnOutlet owner).2.bare = (graph.bare.addOutlet owner).2 := by
  rw [addOwnOutlet_eq, bare_ensure]
  simp [bare, addOutlet, Outlet.bare]

theorem bare_addOwnInlets (owner : NodeId) (count : Nat) (graph : Graph) :
    (graph.times (Graph.addOwnInlet owner) count).2.bare =
      { graph.bare with
        inlets := graph.bare.inlets ++ Array.replicate count { owner } } := by
  induction count generalizing graph with
  | zero => simp [times]
  | succ count ih =>
    change ((Graph.addOwnInlet owner graph).2.times (Graph.addOwnInlet owner) count).2.bare = _
    rw [ih, bare_addOwnInlet, Array.replicate_succ', ← Array.append_assoc, Array.append_singleton]
    rfl

/-- **A native node without its cells**: one record more of each kind of port. -/
theorem bare_addNative (graph : Graph) (primitive : Primitive) (specification : String)
    (traced : Bool) :
    let owner : NodeId := ⟨graph.nodes.size⟩
    (graph.addNative primitive specification traced).2.bare =
      { nodes := graph.nodes.push
          { specification, traced, kind := .native primitive (graph.nativePorts primitive) }
        inlets := graph.bare.inlets ++ Array.replicate primitive.inletCount { owner }
        outlets := graph.bare.outlets.push { owner, wired := true }
        entries := graph.entries.push owner
        exits := (graph.exits.push { owner }).push { owner } } := by
  intro owner
  let fed := (graph.times (Graph.addOwnInlet owner) primitive.inletCount).2
  let ported := fed.addOwnOutlet owner
  -- The inputs first, then the output with its mark
  have hfed : fed.bare = { graph.bare with
      inlets := graph.bare.inlets ++ Array.replicate primitive.inletCount { owner } } :=
    bare_addOwnInlets owner primitive.inletCount graph
  have hmarked : (ported.2.markOutlet ported.1).bare = { fed.bare with
      outlets := fed.bare.outlets.push { owner, wired := true } } := by
    have hnew : ported.1.index = fed.bare.outlets.size := Array.size_map.symm
    rw [bare_markOutlet, bare_addOwnOutlet]
    unfold markOutlet modifyOutlet addOutlet
    rw [hnew, modify_size_push]
  rw [← graph.nodes_addNative primitive specification traced,
    ← graph.entries_addNative primitive specification traced,
    ← graph.exits_addNative primitive specification traced]
  rw [hfed] at hmarked
  have hinlets := congrArg Graph.inlets hmarked
  have houtlets := congrArg Graph.outlets hmarked
  -- Entry, exits and record leave the ports made before as they are
  have hin : (graph.addNative primitive specification traced).2.inlets =
      (ported.2.markOutlet ported.1).inlets := by cases primitive <;> rfl
  have hout : (graph.addNative primitive specification traced).2.outlets =
      (ported.2.markOutlet ported.1).outlets := by cases primitive <;> rfl
  unfold bare at hinlets houtlets ⊢
  dsimp only at hinlets houtlets ⊢
  rw [hin, hout, hinlets, houtlets]

/-! ## Port by port -/

/-- **What the making of ports keeps, the making of a native node keeps.** -/
theorem addNative_induction {P : Graph → Prop}
    (hinlet : ∀ graph owner, P graph → P (Graph.addOwnInlet owner graph).2)
    (houtlet : ∀ graph owner, P graph → P (graph.addOwnOutlet owner).2)
    (hmark : ∀ graph outlet, P graph → P (graph.markOutlet outlet))
    (hrest : ∀ graph graph', graph'.inlets = graph.inlets → graph'.outlets = graph.outlets →
      graph'.cells = graph.cells → P graph → P graph')
    {graph : Graph} (h : P graph) (primitive : Primitive) (specification : String)
    (traced : Bool) : P (graph.addNative primitive specification traced).2 := by
  let owner : NodeId := ⟨graph.nodes.size⟩
  let fed := (graph.times (Graph.addOwnInlet owner) primitive.inletCount).2
  let ported := fed.addOwnOutlet owner
  let marked := ported.2.markOutlet ported.1
  -- Inputs, output and mark change the ports; entry, exits and record are the rest
  have hinlets : P fed := times_induction (hinlet · owner) primitive.inletCount h
  have hmarked : P marked := hmark _ _ (houtlet fed owner hinlets)
  have hentry := hrest marked (marked.addEntry owner).2 rfl rfl rfl hmarked
  let whole := (times (fun g => g.addExit owner) primitive.exitCount (marked.addEntry owner).2).2
  have hexits : P whole := times_induction
    (fun g => hrest g (g.addExit owner).2 rfl rfl rfl) primitive.exitCount hentry
  exact hrest whole (whole.addNode _).2 rfl rfl rfl hexits

/-- Giving one port a cell moves no other port. -/
theorem portCell?_ensure_of_ne {graph : Graph} {changed port : Port} (h : graph.HasPort changed)
    (hne : port ≠ changed) : (graph.ensure changed).2.portCell? port = graph.portCell? port := by
  cases hcell : graph.portCell? changed with
  | some cell => rw [ensure_of_some hcell]
  | none =>
    have hadded : (graph.addCell 0).2.HasPort changed := by cases changed <;> exact h
    rw [ensure_of_none hcell, portCell?_attach hadded, if_neg hne, portCell?_addCell]

/-- **A new native node moves no port that was there before.** -/
theorem portCell?_addNative {graph : Graph} {port : Port} (h : graph.HasPort port)
    (primitive : Primitive) (specification : String) (traced : Bool) :
    (graph.addNative primitive specification traced).2.portCell? port = graph.portCell? port := by
  -- A port that is already there is none of the new ones
  refine (addNative_induction
    (P := fun g => g.HasPort port ∧ g.portCell? port = graph.portCell? port)
    (fun g owner hg => ?_) (fun g owner hg => ?_) (fun g outlet hg => ?_)
    (fun g g' hin hout _ hg => ?_) ⟨h, rfl⟩ primitive specification traced).2
  · have hne : port ≠ .inlet (g.addInlet owner).1 := by
      rintro rfl
      exact absurd hg.1 (Nat.lt_irrefl _)
    refine ⟨(Sprouts.addOwnInlet owner g).toExtends.hasPort hg.1, ?_⟩
    rw [addOwnInlet_eq, portCell?_ensure_of_ne (hasPort_addInlet g owner) hne, portCell?_addInlet,
      hg.2]
  · have hne : port ≠ .outlet (g.addOutlet owner).1 := by
      rintro rfl
      exact absurd hg.1 (Nat.lt_irrefl _)
    refine ⟨(Sprouts.addOwnOutlet owner g).toExtends.hasPort hg.1, ?_⟩
    rw [addOwnOutlet_eq, portCell?_ensure_of_ne (hasPort_addOutlet g owner) hne,
      portCell?_addOutlet, hg.2]
  · refine ⟨(Sprouts.markOutlet g outlet).toExtends.hasPort hg.1, ?_⟩
    rw [← hg.2]
    refine portCell?_modifyOutlet_of_cell_eq g outlet ?_ port
    exact fun _ => rfl
  · cases port with
    | inlet inlet =>
      refine ⟨Nat.lt_of_lt_of_eq hg.1 (congrArg Array.size hin.symm), ?_⟩
      rw [← hg.2]
      simp only [portCell?, inletCell?, inlet?, hin]
    | outlet outlet =>
      refine ⟨Nat.lt_of_lt_of_eq hg.1 (congrArg Array.size hout.symm), ?_⟩
      rw [← hg.2]
      simp only [portCell?, outletCell?, outlet?, hout]

end TokenNet.Graph
