import TokenNet.Proofs.Change.Call

/-!
# Strict look-ups

A graph answers a look-up out of range with nothing and leaves such a change undone.  Here are the
same operations with *strict* look-ups: one that misses leaves the whole operation without a result.
Only look-ups that check their handle themselves are as before: those of cells, whose keys may be
stale, and those of nodes, which may belong to another graph.

On a graph that is linked and closed, the strict operations have results, and they are those of the
operations they stand for.  So no look-up of a port with a handle that is stored in the graph, or
that has been checked, is ever out of range.

## Main statements

- `Strict.connect_eq`, `Strict.writeInlet_eq`, `Strict.writeOutlet_eq`: wiring and writing never
  miss.
- `Strict.fire_eq`, `Strict.walk_eq`: firings and runs never miss.
- `answers_fire`: a node that acts fires one of its exits, unless its primitive refuses.
-/

namespace TokenNet

/-! ## Lists of partial steps -/

theorem mapM_eq_some_map {α β : Type} {f : α → Option β} {g : α → β} :
    ∀ (members : List α), (∀ a ∈ members, f a = some (g a)) →
      members.mapM f = some (members.map g)
  | [], _ => rfl
  | a :: rest, h => by
    rw [List.mapM_cons, h a List.mem_cons_self,
      mapM_eq_some_map rest fun b hb => h b (List.mem_cons_of_mem a hb)]
    rfl

/-- Partial steps that have results as long as an invariant holds, and keep it, have a result
together, which keeps it too. -/
theorem foldlM_eq_some_foldl {α σ : Type} (P : σ → Prop) {f : σ → α → Option σ} {g : σ → α → σ} :
    ∀ (members : List α) (s : σ), P s →
      (∀ a ∈ members, ∀ t, P t → f t a = some (g t a) ∧ P (g t a)) →
      members.foldlM f s = some (members.foldl g s) ∧ P (members.foldl g s)
  | [], _, hs, _ => ⟨rfl, hs⟩
  | a :: rest, s, hs, h => by
    obtain ⟨hstep, hkept⟩ := h a List.mem_cons_self s hs
    rw [List.foldlM_cons, hstep, Option.bind_eq_bind, Option.bind_some, List.foldl_cons]
    exact foldlM_eq_some_foldl P rest (g s a) hkept fun b hb => h b (List.mem_cons_of_mem a hb)

namespace Graph

/-! ## Strict operations -/

namespace Strict

/-- Changes an inlet. -/
def modifyInlet (graph : Graph) (inlet : InletId) (change : Inlet → Inlet) : Option Graph :=
  (graph.inlet? inlet).map fun _ => graph.modifyInlet inlet change

/-- Changes an outlet. -/
def modifyOutlet (graph : Graph) (outlet : OutletId) (change : Outlet → Outlet) : Option Graph :=
  (graph.outlet? outlet).map fun _ => graph.modifyOutlet outlet change

/-- Sets or clears where an exit hands the token to. -/
def setTarget (graph : Graph) (exit : ExitId) (target : Option EntryId) : Option Graph :=
  (graph.exit? exit).map fun _ => graph.setTarget exit target

/-- Lets an inlet read a cell. -/
def attachReader (graph : Graph) (inlet : InletId) (cell : CellId) : Option Graph :=
  modifyInlet (graph.modifyCell cell fun c => c.addReader inlet) inlet
    fun record => { record with cell := some cell }

/-- Lets an outlet write a cell. -/
def attachWriter (graph : Graph) (outlet : OutletId) (cell : CellId) : Option Graph :=
  modifyOutlet (graph.modifyCell cell fun c => c.addWriter outlet) outlet
    fun record => { record with cell := some cell }

/-- The cell an inlet reads; a new one if it has none. -/
def ensureInletCell (graph : Graph) (inlet : InletId) : Option (CellId × Graph) := do
  match (← graph.inlet? inlet).cell with
  | some cell => return (cell, graph)
  | none =>
    let (cell, graph) := graph.addCell 0
    return (cell, ← attachReader graph inlet cell)

/-- The cell an outlet writes; a new one if it has none. -/
def ensureOutletCell (graph : Graph) (outlet : OutletId) : Option (CellId × Graph) := do
  match (← graph.outlet? outlet).cell with
  | some cell => return (cell, graph)
  | none =>
    let (cell, graph) := graph.addCell 0
    return (cell, ← attachWriter graph outlet cell)

/-- Moves all ports of one cell to another and gives the first cell up. -/
def merge (graph : Graph) (absorbed survivor : CellId) : Option Graph :=
  match graph.cells.remove absorbed with
  | none => some graph
  | some (old, cells) => do
    let graph := { graph with cells }
    let graph ← old.readers.foldlM (fun g inlet =>
      modifyInlet g inlet fun record => { record with cell := some survivor }) graph
    let graph ← old.writers.foldlM (fun g outlet =>
      modifyOutlet g outlet fun record => { record with cell := some survivor }) graph
    return graph.modifyCell survivor fun cell => cell.absorb old

/-- Puts an inlet and an outlet into one class. -/
def unite (graph : Graph) (inlet : InletId) (outlet : OutletId) : Option Graph := do
  match (← graph.inlet? inlet).cell, (← graph.outlet? outlet).cell with
  | some a, some b => if a = b then return graph else merge graph a b
  | none, some b => attachReader graph inlet b
  | some a, none => attachWriter graph outlet a
  | none, none =>
    let (cell, graph) := graph.addCell 0
    attachWriter (← attachReader graph inlet cell) outlet cell

/-- Wires an outlet into an inlet. -/
def connect (graph : Graph) (inlet : InletId) (outlet : OutletId) : Option Graph := do
  modifyInlet (← unite graph inlet outlet) inlet fun record => { record with wired := true }

/-- Takes an inlet out of its class. -/
def disconnectInlet (graph : Graph) (inlet : InletId) : Option Graph := do
  match (← graph.inlet? inlet).cell with
  | none => return graph
  | some cell =>
    let graph ← modifyInlet graph inlet fun record => { record with cell := none }
    return (graph.modifyCell cell fun c => c.dropReader inlet).dropOrphan cell

/-- Takes an outlet out of its class. -/
def disconnectOutlet (graph : Graph) (outlet : OutletId) : Option Graph := do
  match (← graph.outlet? outlet).cell with
  | none => return graph
  | some cell =>
    let graph ← modifyOutlet graph outlet fun record => { record with cell := none }
    return (graph.modifyCell cell fun c => c.dropWriter outlet).dropOrphan cell

/-- The cells of the inlets that an inlet feeds. -/
def fedCells (graph : Graph) (inlet : InletId) : Option (List CellId) := do
  return (← (← graph.inlet? inlet).feeds.mapM graph.inlet?).filterMap Inlet.cell

/-- The cells that are fed directly from a cell. -/
def successors (graph : Graph) (cell : CellId) : Option (List CellId) :=
  match graph.cell? cell with
  | some record => do return (← record.readers.mapM (fedCells graph)).flatten
  | none => some []

/-- Adds at most the given number of further layers to the cells that have been reached. -/
def extend (graph : Graph) : Nat → List CellId → List CellId → Option (List CellId)
  | 0, reached, _ => some reached
  | bound + 1, reached, frontier => do
    let met := (← frontier.mapM (successors graph)).flatten
    match met.eraseDups.filter fun cell => !reached.contains cell with
    | [] => return reached
    | fresh => extend graph bound (reached ++ fresh) fresh

/-- Writes a cell and every cell fed from it. -/
def setValue (graph : Graph) (cell : CellId) (value : Value) : Option Graph := do
  let reached ← extend graph (graph.cells.slots.size + 1) [cell] [cell]
  return reached.foldl (fun g reached => g.modifyCell reached fun c => { c with value }) graph

/-- Writes an inlet; one without a cell gets one. -/
def writeInlet (graph : Graph) (inlet : InletId) (value : Value) : Option Graph := do
  let (cell, graph) ← ensureInletCell graph inlet
  setValue graph cell value

/-- The outlets to which an outlet is relayed, nearest first. -/
def relays (graph : Graph) : Nat → OutletId → Option (List OutletId)
  | 0, _ => some []
  | bound + 1, outlet => do
    match (← graph.outlet? outlet).relay with
    | none => return []
    | some outer =>
      if (← graph.outlet? outer).wired then return outer :: (← relays graph bound outer)
      else return [outer]

/-- Writes one outlet and what is fed from its cell. -/
def writeOwnOutlet (graph : Graph) (outlet : OutletId) (value : Value) : Option Graph := do
  let (cell, graph) ← ensureOutletCell graph outlet
  setValue graph cell value

/-- Writes an outlet and every outlet to which it is relayed. -/
def writeOutlet (graph : Graph) (outlet : OutletId) (value : Value) : Option Graph := do
  let outer ← relays graph graph.outlets.size outlet
  (outlet :: outer).foldlM (fun g reached => writeOwnOutlet g reached value) graph

/-- What a primitive sees on an inlet. -/
def reading (graph : Graph) (inlet : InletId) : Option Reading := do
  return ⟨(← graph.inlet? inlet).wired, (graph.inletValue? inlet).getD 0⟩

/-- Writes the output of an evaluation and names the exit that it fires. -/
def emit (graph : Graph) (node : NodeId) (ports : Interface) (evaluation : Evaluation)
    (events : List Event) : Option Firing := do
  let graph ← writeOutlet graph ports.outlet evaluation.output
  match ports.exits[evaluation.exit]? with
  | some exit => return ⟨graph, events, .ok exit⟩
  | none => return ⟨graph, events, .error (.notExecutable node)⟩

/-- Fires a native node with the given ports. -/
def firePrimitive (graph : Graph) (callLimit : UInt32) (node : NodeId) (record : Node)
    (primitive : Primitive) (ports : Interface) : Option Firing := do
  let readings ← ports.inlets.mapM (reading graph)
  let request : List Event :=
    if record.traced then [.request record.specification (readings.map Reading.value)] else []
  match primitive.evaluate readings with
  | .error value => return ⟨graph, request, .error (.invalidBit node value)⟩
  | .ok evaluation =>
    let events :=
      if record.traced then request ++ [.emit evaluation.output evaluation.exit] else request
    match evaluation.register with
    | none => emit graph node ports evaluation events
    | some register =>
      let graph := graph.countCall node register
      if callsExhausted ports callLimit then
        return ⟨graph, request, .error (.callLimit node callLimit)⟩
      else emit graph node ports evaluation events

/-- Fires a node. -/
def fire (graph : Graph) (callLimit : UInt32) (node : NodeId) : Option Firing :=
  match graph.node? node with
  | none => some ⟨graph, [], .error (.notExecutable node)⟩
  | some record =>
    match record.kind with
    | .join _ exit => some ⟨graph, [], .ok exit⟩
    | .composite .. => some ⟨graph, [], .error (.notExecutable node)⟩
    | .native primitive ports => firePrimitive graph callLimit node record primitive ports

/-- Lets the token walk from an entry. -/
def walk (callLimit : UInt32) (limit run : Nat) :
    Nat → Nat → EntryId → Run.State → Option (Run.State × Except RunFault (ExitId × Nat))
  | 0, _, _, state => some (state, .error (.chainExhausted limit))
  | budget + 1, steps, entry, state => do
    let node ← state.graph.admitted? entry
    let firing ← fire state.graph callLimit node
    let state : Run.State := ⟨firing.graph, state.ledger.record run node firing.events⟩
    match firing.result with
    | .error fault => return (state, .error fault)
    | .ok exit =>
      match (← state.graph.exit? exit).target with
      | some next => walk callLimit limit run budget (steps + 1) next state
      | none => return (state, .ok (exit, steps + 1))

/-! ## Wiring never misses -/

theorem modifyInlet_eq {graph : Graph} {inlet : InletId} (h : graph.HasPort (.inlet inlet))
    (change : Inlet → Inlet) :
    modifyInlet graph inlet change = some (graph.modifyInlet inlet change) := by
  obtain ⟨record, hrecord⟩ := Option.isSome_iff_exists.mp (inlet?_isSome.mpr h)
  rw [modifyInlet, hrecord, Option.map_some]

theorem modifyOutlet_eq {graph : Graph} {outlet : OutletId} (h : graph.HasPort (.outlet outlet))
    (change : Outlet → Outlet) :
    modifyOutlet graph outlet change = some (graph.modifyOutlet outlet change) := by
  obtain ⟨record, hrecord⟩ := Option.isSome_iff_exists.mp (outlet?_isSome.mpr h)
  rw [modifyOutlet, hrecord, Option.map_some]

theorem setTarget_eq {graph : Graph} {exit : ExitId} (h : graph.HasExit exit)
    (target : Option EntryId) : setTarget graph exit target = some (graph.setTarget exit target) := by
  obtain ⟨record, hrecord⟩ : ∃ record, graph.exit? exit = some record :=
    Option.isSome_iff_exists.mp (by simpa [exit?, HasExit] using h)
  rw [setTarget, hrecord, Option.map_some]

theorem attachReader_eq {graph : Graph} {inlet : InletId} (h : graph.HasPort (.inlet inlet))
    (cell : CellId) : attachReader graph inlet cell = some (graph.attachReader inlet cell) := by
  have hport : (graph.modifyCell cell fun c => c.addReader inlet).HasPort (.inlet inlet) := h
  exact modifyInlet_eq hport _

theorem attachWriter_eq {graph : Graph} {outlet : OutletId} (h : graph.HasPort (.outlet outlet))
    (cell : CellId) : attachWriter graph outlet cell = some (graph.attachWriter outlet cell) := by
  have hport : (graph.modifyCell cell fun c => c.addWriter outlet).HasPort (.outlet outlet) := h
  exact modifyOutlet_eq hport _

theorem ensureInletCell_eq {graph : Graph} {inlet : InletId} (h : graph.HasPort (.inlet inlet)) :
    ensureInletCell graph inlet = some (graph.ensureInletCell inlet) := by
  obtain ⟨record, hrecord⟩ := Option.isSome_iff_exists.mp (inlet?_isSome.mpr h)
  have hport : (graph.addCell 0).2.HasPort (.inlet inlet) := h
  unfold ensureInletCell Graph.ensureInletCell inletCell?
  rw [hrecord, Option.bind_some]
  cases hcell : record.cell with
  | some cell => simp [hcell]
  | none => simp [hcell, attachReader_eq hport]

theorem ensureOutletCell_eq {graph : Graph} {outlet : OutletId}
    (h : graph.HasPort (.outlet outlet)) :
    ensureOutletCell graph outlet = some (graph.ensureOutletCell outlet) := by
  obtain ⟨record, hrecord⟩ := Option.isSome_iff_exists.mp (outlet?_isSome.mpr h)
  have hport : (graph.addCell 0).2.HasPort (.outlet outlet) := h
  unfold ensureOutletCell Graph.ensureOutletCell outletCell?
  rw [hrecord, Option.bind_some]
  cases hcell : record.cell with
  | some cell => simp [hcell]
  | none => simp [hcell, attachWriter_eq hport]

theorem foldlM_modifyInlet_eq {graph : Graph} {inlets : List InletId}
    (h : ∀ inlet ∈ inlets, graph.HasPort (.inlet inlet)) (change : Inlet → Inlet) :
    inlets.foldlM (fun g inlet => modifyInlet g inlet change) graph =
        some (inlets.foldl (fun g inlet => g.modifyInlet inlet change) graph) ∧
      ∀ port, graph.HasPort port →
        (inlets.foldl (fun g inlet => g.modifyInlet inlet change) graph).HasPort port := by
  let Keeps : Graph → Prop := fun g => ∀ port, graph.HasPort port → g.HasPort port
  refine foldlM_eq_some_foldl Keeps inlets graph (fun _ => id) fun inlet hmem g hkeeps => ?_
  refine ⟨modifyInlet_eq (hkeeps _ (h inlet hmem)) change, fun port hport => ?_⟩
  exact (Extends.modifyInlet g inlet change).hasPort (hkeeps port hport)

theorem foldlM_modifyOutlet_eq {graph : Graph} {outlets : List OutletId}
    (h : ∀ outlet ∈ outlets, graph.HasPort (.outlet outlet)) (change : Outlet → Outlet) :
    outlets.foldlM (fun g outlet => modifyOutlet g outlet change) graph =
      some (outlets.foldl (fun g outlet => g.modifyOutlet outlet change) graph) := by
  let Keeps : Graph → Prop := fun g => ∀ port, graph.HasPort port → g.HasPort port
  refine (foldlM_eq_some_foldl Keeps outlets graph (fun _ => id) fun outlet hmem g hkeeps => ?_).1
  refine ⟨modifyOutlet_eq (hkeeps _ (h outlet hmem)) change, fun port hport => ?_⟩
  exact (Extends.modifyOutlet g outlet change).hasPort (hkeeps port hport)

/-- The ports that a merge moves are issued, because the absorbed cell lists only such ports. -/
theorem merge_eq {graph : Graph} (h : graph.Linked) (absorbed survivor : CellId) :
    merge graph absorbed survivor = some (graph.merge absorbed survivor) := by
  unfold merge Graph.merge
  rw [Store.remove_eq]
  cases hold : graph.cells.get? absorbed with
  | none => rfl
  | some old =>
    -- The members of a cell are ports, so none of the assignments misses
    have hold : graph.cell? absorbed = some old := hold
    have hreaders : ∀ inlet ∈ old.readers, graph.HasPort (.inlet inlet) := fun inlet hmem =>
      hasPort_of_portCell? ((h.mem_members hold _).mp (Cell.inlet_mem_members.mpr hmem))
    have hwriters : ∀ outlet ∈ old.writers, graph.HasPort (.outlet outlet) := fun outlet hmem =>
      hasPort_of_portCell? ((h.mem_members hold _).mp (Cell.outlet_mem_members.mpr hmem))
    obtain ⟨hin, hkeeps⟩ := foldlM_modifyInlet_eq
      (show ∀ inlet ∈ old.readers, ({ graph with cells := graph.cells.erase absorbed } :
        Graph).HasPort (.inlet inlet) from hreaders)
      fun record => { record with cell := some survivor }
    have hout := foldlM_modifyOutlet_eq (fun outlet hmem => hkeeps _ (hwriters outlet hmem))
      fun record => { record with cell := some survivor }
    simp only [Option.map_some, hin, hout, Option.bind_eq_bind, Option.bind_some, Option.pure_def]

theorem unite_eq {graph : Graph} (h : graph.Linked) {inlet : InletId} {outlet : OutletId}
    (hinlet : graph.HasPort (.inlet inlet)) (houtlet : graph.HasPort (.outlet outlet)) :
    unite graph inlet outlet = some (graph.unite inlet outlet) := by
  obtain ⟨record, hrecord⟩ := Option.isSome_iff_exists.mp (inlet?_isSome.mpr hinlet)
  obtain ⟨record', hrecord'⟩ := Option.isSome_iff_exists.mp (outlet?_isSome.mpr houtlet)
  have hinlet' : (graph.addCell 0).2.HasPort (.inlet inlet) := hinlet
  have houtlet' : ((graph.addCell 0).2.attach (.inlet inlet) (graph.addCell 0).1).HasPort
      (.outlet outlet) := by
    rw [attach_eq, hasPort_assign]
    exact houtlet
  have hboth := attachWriter_eq houtlet' (graph.addCell 0).1
  unfold unite Graph.unite inletCell? outletCell?
  rw [hrecord, hrecord', Option.bind_some, Option.bind_some]
  -- Four cases, as the input and the output have a cell or none
  cases ha : record.cell with
  | some a =>
    cases hb : record'.cell with
    | some b =>
      simp only [Option.bind_eq_bind, Option.bind_some, ha, hb, merge_eq h]
      split <;> rfl
    | none => simp [ha, hb, attachWriter_eq houtlet]
  | none =>
    cases hb : record'.cell with
    | some b => simp [ha, hb, attachReader_eq hinlet]
    | none =>
      simp only [Option.bind_eq_bind, Option.bind_some, ha, hb, attachReader_eq hinlet']
      exact hboth

/-- **Wiring never misses.** -/
theorem connect_eq {graph : Graph} (h : graph.Linked) {inlet : InletId} {outlet : OutletId}
    (hinlet : graph.HasPort (.inlet inlet)) (houtlet : graph.HasPort (.outlet outlet)) :
    connect graph inlet outlet = some (graph.connect inlet outlet) := by
  have hport := (Extends.of_bare_eq (bare_unite graph inlet outlet)).hasPort hinlet
  unfold connect
  rw [unite_eq h hinlet houtlet, Option.bind_eq_bind, Option.bind_some, modifyInlet_eq hport]
  rfl

theorem disconnectInlet_eq {graph : Graph} {inlet : InletId} (h : graph.HasPort (.inlet inlet)) :
    disconnectInlet graph inlet = some (graph.disconnectInlet inlet) := by
  obtain ⟨record, hrecord⟩ := Option.isSome_iff_exists.mp (inlet?_isSome.mpr h)
  unfold disconnectInlet Graph.disconnectInlet inletCell?
  rw [hrecord, Option.bind_some]
  cases hcell : record.cell with
  | none => simp [hcell]
  | some cell => simp [hcell, modifyInlet_eq h]

theorem disconnectOutlet_eq {graph : Graph} {outlet : OutletId}
    (h : graph.HasPort (.outlet outlet)) :
    disconnectOutlet graph outlet = some (graph.disconnectOutlet outlet) := by
  obtain ⟨record, hrecord⟩ := Option.isSome_iff_exists.mp (outlet?_isSome.mpr h)
  unfold disconnectOutlet Graph.disconnectOutlet outletCell?
  rw [hrecord, Option.bind_some]
  cases hcell : record.cell with
  | none => simp [hcell]
  | some cell => simp [hcell, modifyOutlet_eq h]

/-! ## Writing never misses -/

theorem fedCells_eq {graph : Graph} (h : graph.Closed) {inlet : InletId}
    (hinlet : graph.HasPort (.inlet inlet)) :
    fedCells graph inlet = some (graph.fedCells inlet) := by
  obtain ⟨record, hrecord⟩ := Option.isSome_iff_exists.mp (inlet?_isSome.mpr hinlet)
  -- What a closed graph feeds is there
  have hfeeds : ∀ inner ∈ record.feeds,
      graph.inlet? inner = some ((graph.inlet? inner).getD default) := by
    intro inner hinner
    obtain ⟨found, hfound⟩ := Option.isSome_iff_exists.mp
      (inlet?_isSome.mpr (h.hasPort_of_feeds hrecord hinner))
    rw [hfound, Option.getD_some]
  unfold fedCells Graph.fedCells
  rw [hrecord]
  simp only [Option.bind_eq_bind, Option.bind_some, mapM_eq_some_map _ hfeeds, Option.pure_def,
    List.filterMap_map]
  congr 1
  refine List.filterMap_congr fun inner hinner => ?_
  unfold inletCell?
  rw [hfeeds inner hinner, Option.bind_some]
  rfl

theorem successors_eq {graph : Graph} (hlinked : graph.Linked) (hclosed : graph.Closed)
    (cell : CellId) : successors graph cell = some (graph.successors cell) := by
  unfold successors Graph.successors
  cases hrecord : graph.cell? cell with
  | none => rfl
  | some record =>
    have hreaders : ∀ inlet ∈ record.readers, fedCells graph inlet = some (graph.fedCells inlet) := by
      intro inlet hmem
      have hport := (hlinked.mem_members hrecord _).mp (Cell.inlet_mem_members.mpr hmem)
      exact fedCells_eq hclosed (hasPort_of_portCell? hport)
    simp only [mapM_eq_some_map _ hreaders]
    rfl

theorem extend_eq {graph : Graph} (hlinked : graph.Linked) (hclosed : graph.Closed) :
    ∀ (bound : Nat) (reached frontier : List CellId),
    extend graph bound reached frontier =
      some (Reach.extend graph.successors bound reached frontier)
  | 0, _, _ => rfl
  | bound + 1, reached, frontier => by
    unfold extend Reach.extend Reach.layer
    -- All the cells of the frontier have successors, so the layer is the same
    rw [mapM_eq_some_map frontier fun cell _ => successors_eq hlinked hclosed cell]
    simp only [Option.bind_eq_bind, Option.bind_some, ← List.flatMap_def]
    split
    next hlayer => rw [hlayer]; rfl
    next hlayer =>
      split
      next hnil => exact absurd hnil hlayer
      next => exact extend_eq hlinked hclosed bound _ _

theorem setValue_eq {graph : Graph} (hlinked : graph.Linked) (hclosed : graph.Closed)
    (cell : CellId) (value : Value) :
    setValue graph cell value = some (graph.setValue cell value) := by
  unfold setValue
  rw [extend_eq hlinked hclosed]
  rfl

/-- **Writing an inlet never misses.** -/
theorem writeInlet_eq {graph : Graph} (hlinked : graph.Linked) (hclosed : graph.Closed)
    {inlet : InletId} (hinlet : graph.HasPort (.inlet inlet)) (value : Value) :
    writeInlet graph inlet value = some (graph.writeInlet inlet value) := by
  have hlinked' := hlinked.ensure hinlet
  have hclosed' := hclosed.of_bare_eq (bare_ensure graph (.inlet inlet))
  unfold writeInlet
  rw [ensureInletCell_eq hinlet]
  exact setValue_eq hlinked' hclosed' _ value

theorem writeOwnOutlet_eq {graph : Graph} (hlinked : graph.Linked) (hclosed : graph.Closed)
    {outlet : OutletId} (houtlet : graph.HasPort (.outlet outlet)) (value : Value) :
    writeOwnOutlet graph outlet value = some (graph.writeOwnOutlet outlet value) := by
  have hlinked' := hlinked.ensure houtlet
  have hclosed' := hclosed.of_bare_eq (bare_ensure graph (.outlet outlet))
  unfold writeOwnOutlet
  rw [ensureOutletCell_eq houtlet]
  exact setValue_eq hlinked' hclosed' _ value

theorem relays_eq {graph : Graph} (hclosed : graph.Closed) :
    ∀ (bound : Nat) {outlet : OutletId}, graph.HasPort (.outlet outlet) →
    relays graph bound outlet = some (graph.relays bound outlet)
  | 0, _, _ => rfl
  | bound + 1, outlet, houtlet => by
    obtain ⟨record, hrecord⟩ := Option.isSome_iff_exists.mp (outlet?_isSome.mpr houtlet)
    unfold relays Graph.relays outletWired
    rw [hrecord, Option.bind_some, Option.bind_eq_bind, Option.bind_some]
    cases hrelay : record.relay with
    | none => rfl
    -- The next output is there, and it decides by its mark whether the chain goes on
    | some outer =>
      have houter := hclosed.hasPort_of_relay hrecord hrelay
      obtain ⟨record', hrecord'⟩ := Option.isSome_iff_exists.mp (outlet?_isSome.mpr houter)
      simp only [hrecord', Option.bind_some, Option.any_some, relays_eq hclosed bound houter]
      split <;> rfl

/-- **Writing an outlet never misses**, however far it is relayed. -/
theorem writeOutlet_eq {graph : Graph} (hlinked : graph.Linked) (hclosed : graph.Closed)
    {outlet : OutletId} (houtlet : graph.HasPort (.outlet outlet)) (value : Value) :
    writeOutlet graph outlet value = some (graph.writeOutlet outlet value) := by
  -- While the outputs are written one after the other, the graph stays linked and keeps its ports
  let Keeps : Graph → Prop := fun g => g.Linked ∧ g.Closed ∧ graph.Extends g
  have hports : ∀ outer ∈ outlet :: graph.relays graph.outlets.size outlet,
      graph.HasPort (.outlet outer) := by
    intro outer houter
    rcases List.mem_cons.mp houter with rfl | hlater
    · exact houtlet
    · exact hasPort_of_mem_relays hclosed _ _ outer hlater
  unfold writeOutlet
  rw [relays_eq hclosed _ houtlet]
  refine (foldlM_eq_some_foldl Keeps _ graph ⟨hlinked, hclosed, .refl graph⟩
    fun outer hmem g hkeeps => ?_).1
  obtain ⟨hg, hg', hext⟩ := hkeeps
  have hport := hext.hasPort (hports outer hmem)
  have hleads := (Move.emit g hport value).uses.leads
  exact ⟨writeOwnOutlet_eq hg hg' hport value, hleads.linked hg, hleads.closed hg',
    hext.trans (hleads.extends hg')⟩

/-! ## Runs never miss -/

theorem reading_eq {graph : Graph} {inlet : InletId} (h : graph.HasPort (.inlet inlet)) :
    reading graph inlet = some (graph.reading inlet) := by
  obtain ⟨record, hrecord⟩ := Option.isSome_iff_exists.mp (inlet?_isSome.mpr h)
  unfold reading Graph.reading inletWired
  rw [hrecord, Option.any_some]
  rfl

theorem emit_eq {graph : Graph} (hlinked : graph.Linked) (hclosed : graph.Closed) (node : NodeId)
    {ports : Interface} (houtlet : graph.HasPort (.outlet ports.outlet)) (evaluation : Evaluation)
    (events : List Event) :
    emit graph node ports evaluation events = some (graph.emit node ports evaluation events) := by
  unfold emit Graph.emit
  rw [writeOutlet_eq hlinked hclosed houtlet, Option.bind_eq_bind, Option.bind_some]
  cases ports.exits[evaluation.exit]? <;> rfl

theorem firePrimitive_eq {graph : Graph} (hlinked : graph.Linked) (hclosed : graph.Closed)
    (callLimit : UInt32) (node : NodeId) (record : Node) (primitive : Primitive)
    {ports : Interface} (hports : graph.Knows ports) :
    firePrimitive graph callLimit node record primitive ports =
      some (graph.firePrimitive callLimit node record primitive ports) := by
  unfold firePrimitive Graph.firePrimitive
  rw [mapM_eq_some_map ports.inlets fun inlet hinlet => reading_eq (hports.inlets inlet hinlet),
    Option.bind_eq_bind, Option.bind_some]
  dsimp only
  cases primitive.evaluate (ports.inlets.map graph.reading) with
  | error value => rfl
  | ok evaluation =>
    cases hregister : evaluation.register with
    | none =>
      simp only [hregister]
      exact emit_eq hlinked hclosed node hports.outlet evaluation _
    | some register =>
      -- The call is counted before the outlet is looked up, and no handle is lost by it
      have hcount := (move_countCall graph node register).uses.leads
      simp only [hregister]
      split
      next => rfl
      next =>
        exact emit_eq (hcount.linked hlinked) (hcount.closed hclosed) node
          ((hcount.extends hclosed).hasPort hports.outlet) evaluation _

/-- **A firing never misses.** -/
theorem fire_eq {graph : Graph} (hlinked : graph.Linked) (hclosed : graph.Closed)
    (callLimit : UInt32) (node : NodeId) :
    fire graph callLimit node = some (graph.fire callLimit node) := by
  unfold fire Graph.fire
  cases hrecord : graph.node? node with
  | none => rfl
  | some record =>
    cases hkind : record.kind with
    | join entry exit => simp only [hkind]
    | composite ports parts => simp only [hkind]
    -- Joins and composites are not looked into; only a primitive reads its pins
    | native primitive ports =>
      have hknown := hclosed.knowsNode hrecord
      unfold KnowsNode at hknown
      rw [hkind] at hknown
      simp only [hkind]
      exact firePrimitive_eq hlinked hclosed callLimit node record primitive hknown.1

end Strict

/-! ## What a firing answers -/

theorem Primitive.exit_lt_exitCount {primitive : Primitive} {readings : List Reading}
    {evaluation : Evaluation} (h : primitive.evaluate readings = .ok evaluation) :
    evaluation.exit < primitive.exitCount := by
  -- A primitive leaves by one of the first two exits, which each primitive has
  have hbranch : ∀ value : Value, Primitive.branch value < 2 := by
    intro value
    unfold Primitive.branch
    split <;> omega
  cases primitive with
  | adder =>
    obtain rfl := Except.ok.inj h
    exact hbranch _
  | bit =>
    simp only [Primitive.evaluate] at h
    split at h
    next output _ =>
      obtain rfl := Except.ok.inj h
      exact hbranch output
    next => cases h

/-- What a node that acts may answer: an exit of the graph, or a fault of its primitive. -/
def Answers (graph : Graph) (callLimit : UInt32) (node : NodeId) : Except RunFault ExitId → Prop
  | .ok exit => graph.HasExit exit
  | .error fault => (∃ value, fault = .invalidBit node value) ∨ fault = .callLimit node callLimit

theorem answers_emit {graph graph' : Graph} {primitive : Primitive} {ports : Interface}
    (hports : graph.Knows ports) (hlength : ports.exits.length = primitive.exitCount)
    (callLimit : UInt32) (node : NodeId) {evaluation : Evaluation}
    (hexit : evaluation.exit < primitive.exitCount) (events : List Event) :
    graph.Answers callLimit node (graph'.emit node ports evaluation events).result := by
  unfold emit
  rw [List.getElem?_eq_getElem (hlength ▸ hexit)]
  exact hports.exits _ (List.getElem_mem _)

/-- **A node that acts fires one of its exits**, unless its primitive refuses. -/
theorem answers_fire {graph : Graph} (hclosed : graph.Closed) (callLimit : UInt32) {node : NodeId}
    (hacts : graph.Acts node) : graph.Answers callLimit node (graph.fire callLimit node).result := by
  obtain ⟨record, hrecord, hacts⟩ := hacts
  have hknown := hclosed.knowsNode hrecord
  unfold fire
  unfold KnowsNode at hknown
  unfold Node.acts at hacts
  rw [hrecord]
  cases hkind : record.kind with
  | join entry exit =>
    rw [hkind] at hknown
    simp only [hkind]
    exact hknown.2
  | composite ports parts => simp [hkind] at hacts
  | native primitive ports =>
    rw [hkind] at hknown
    obtain ⟨hports, _, hlength⟩ := hknown
    simp only [hkind, firePrimitive]
    cases hevaluate : primitive.evaluate (ports.inlets.map graph.reading) with
    | error value => exact Or.inl ⟨value, rfl⟩
    | ok evaluation =>
      -- The primitive names one of as many exits as the node has
      have hexit := Primitive.exit_lt_exitCount hevaluate
      cases hregister : evaluation.register with
      | none =>
        simp only [hregister]
        exact answers_emit hports hlength callLimit node hexit _
      | some register =>
        simp only [hregister]
        split
        next => exact Or.inr rfl
        next => exact answers_emit hports hlength callLimit node hexit _

/-! ## Whole runs -/

/-- **A run never misses**: it has a result with strict look-ups, and its only faults are those of
primitives and the bound on its length.  The induction is on the firings still allowed; the graph
stays linked and closed, and the entry to come is always issued. -/
theorem Strict.walk_eq (callLimit : UInt32) (limit run : Nat) :
    ∀ (budget steps : Nat) {entry : EntryId} {state : Run.State}, state.graph.Linked →
    state.graph.Closed → state.graph.HasEntry entry →
    walk callLimit limit run budget steps entry state =
        some (Run.walk callLimit limit run budget steps entry state) ∧
      ∀ fault, (Run.walk callLimit limit run budget steps entry state).2 = .error fault →
        (∃ node value, fault = .invalidBit node value) ∨
          (∃ node, fault = .callLimit node callLimit) ∨ fault = .chainExhausted limit
  | 0, _, _, _, _, _, _ => ⟨rfl, fun _ h => Or.inr (Or.inr (Except.error.inj h).symm)⟩
  -- The entry has been issued, so a node that acts stands behind it
  | budget + 1, steps, entry, state, hlinked, hclosed, hentry => by
    obtain ⟨node, hnode, hacts⟩ := hclosed.acts_of_hasEntry hentry
    have hleads := (moves_fire hclosed callLimit node).leads
    have hanswers := answers_fire hclosed callLimit hacts
    have hat : Run.nodeAt state.graph entry = node := by simp [Run.nodeAt, hnode]
    unfold walk Run.walk Run.fireAt
    rw [hnode, hat]
    simp only [Option.bind_eq_bind, Option.bind_some, fire_eq hlinked hclosed]
    cases hresult : (state.graph.fire callLimit node).result with
    | error fault =>
      rw [hresult] at hanswers
      refine ⟨rfl, fun other hother => ?_⟩
      obtain rfl := Except.error.inj hother
      rcases hanswers with ⟨value, rfl⟩ | rfl
      · exact Or.inl ⟨node, value, rfl⟩
      · exact Or.inr (Or.inl ⟨node, rfl⟩)
    | ok exit =>
      rw [hresult] at hanswers
      have hlinked' := hleads.linked hlinked
      have hclosed' := hleads.closed hclosed
      have hexit := (hleads.extends hclosed).hasExit hanswers
      obtain ⟨record, hrecord⟩ : ∃ record,
          (state.graph.fire callLimit node).graph.exit? exit = some record :=
        Option.isSome_iff_exists.mp (by simpa [exit?, HasExit] using hexit)
      simp only [target?, hrecord, Option.bind_some]
      cases htarget : record.target with
      | none => exact ⟨rfl, fun _ h => nomatch h⟩
      | some next =>
        have hat : (state.graph.fire callLimit node).graph.target? exit = some next := by
          rw [target?, hrecord, Option.bind_some, htarget]
        -- The entry to come is the target of an exit, so it is issued
        have hnext := hclosed'.hasEntry_of_target? hat
        exact walk_eq callLimit limit run budget (steps + 1) hlinked' hclosed' hnext

end Graph

end TokenNet
