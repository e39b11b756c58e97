import Mathlib.Algebra.BigOperators.Group.Finset.Basic
import TokenNet.Proofs.Change.Call
import TokenNet.Proofs.Flow.Values

/-!
# Sweeps

A value is written cell by cell.  A *sweep* keeps a list of cells that are still to be looked at:
one of them is taken out at a time, and unless it was looked at before it is written and all cells
that are fed directly from it are put in.  Nothing is said about which cell is taken out next, and
in which order cells are put in; a stack, a queue, and any order of readers and feeds are special
cases.

Every sweep ends, and they all end with the same graph: that in which exactly the cells that can be
reached are written.  Cycles of cells, which come about when cells of different levels are united,
do no harm, since no cell is written twice.

## Main statements

- `Bridges`: a reader of one cell feeds an inlet that reads another.
- `Sweep.Turn`: one turn of a sweep.
- `Sweep.Under`, `Sweep.Under.turn`: the invariant of sweeps, kept by every turn.
- `Sweep.Under.weight_turn`: a bound on the number of turns left, which goes down by one with each.
- `propagation_is_exact`: what writing a cell does.
-/

namespace TokenNet.Graph

/-! ## Bridges -/

/-- Some reader of the first cell feeds an inlet whose cell is the second. -/
def Bridges (graph : Graph) (a b : CellId) : Prop :=
  ∃ record, graph.cell? a = some record ∧ ∃ reader ∈ record.readers,
    ∃ pin, graph.inlet? reader = some pin ∧ ∃ inner ∈ pin.feeds, graph.inletCell? inner = some b

variable {graph graph' : Graph} {start : CellId} {value : Value}

theorem mem_successors_iff {a b : CellId} : b ∈ graph.successors a ↔ graph.Bridges a b := by
  unfold successors Bridges
  cases hcell : graph.cell? a with
  | none => simp
  | some record => simp [List.mem_flatMap, mem_fedCells]

theorem Bridges.live (h : graph.Linked) {a b : CellId} (hbridges : graph.Bridges a b) :
    ∃ record, graph.cell? b = some record := by
  obtain ⟨_, _, _, _, _, _, inner, _, hinner⟩ := hbridges
  exact h.live (show graph.portCell? (.inlet inner) = some b from hinner)

/-- Bridges lead from cells in use to cells in use. -/
theorem live_of_bridges (h : graph.Linked) {cell : CellId}
    (hstart : ∃ record, graph.cell? start = some record)
    (hbridges : Relation.ReflTransGen graph.Bridges start cell) :
    ∃ record, graph.cell? cell = some record := by
  rcases hbridges.cases_tail with rfl | ⟨_, _, hlast⟩
  · exact hstart
  · exact hlast.live h

/-- A write reaches what bridges lead to, as soon as bridges lead to cells in use only. -/
theorem mem_reached_iff (hlive : ∀ {a b}, graph.Bridges a b → ∃ record, graph.cell? b = some record)
    {cell : CellId} :
    cell ∈ graph.reached start ↔ Relation.ReflTransGen graph.Bridges start cell :=
  mem_reached_of mem_successors_iff hlive

/-! ## Writing some cells -/

/-- A slot is written just when its key is among the cells. -/
theorem slots_writeCells (cells : List CellId) (graph : Graph) (value : Value) (slot : Nat) :
    (graph.writeCells cells value).cells.slots[slot]? = graph.cells.slots[slot]?.map fun held =>
      if ⟨slot, held.generation⟩ ∈ cells then
        { held with content := held.content.map fun c => { c with value } }
      else held := by
  induction cells generalizing graph with
  | nil => simp [writeCells]
  -- Writing one cell changes one slot, and only if the slot is of its generation
  | cons first rest ih =>
    refine (ih (graph.modifyCell first fun c => { c with value })).trans ?_
    obtain ⟨slot', generation⟩ := first
    simp only [modifyCell, Store.modify, Array.getElem?_modify, List.mem_cons, Store.Key.mk.injEq]
    cases graph.cells.slots[slot]? with
    | none => simp
    | some held =>
      obtain ⟨generation', content⟩ := held
      by_cases hslot : slot' = slot
      · by_cases hgeneration : generation' = generation
        · cases content <;> simp [hslot, hgeneration]
        · simp [hslot, hgeneration]
      · simp [hslot, Ne.symm hslot]

/-- **Which cells are written matters, not how often and in which order.** -/
theorem writeCells_congr {cells cells' : List CellId} (h : ∀ cell, cell ∈ cells ↔ cell ∈ cells')
    (graph : Graph) (value : Value) :
    graph.writeCells cells value = graph.writeCells cells' value := by
  -- The slots agree, and nothing else is written
  have hslots : (graph.writeCells cells value).cells.slots =
      (graph.writeCells cells' value).cells.slots := by
    refine Array.ext_getElem? fun slot => ?_
    simp only [slots_writeCells, h]
  rw [← writeCells_eq cells, ← writeCells_eq cells', hslots]

/-! ## Sweeps -/

/-- A sweep under way: the graph, the cells still to be looked at, and those looked at so far. -/
structure Sweep where
  graph : Graph
  pending : List CellId
  seen : List CellId

namespace Sweep

/-- The sweep that begins with a cell. -/
def initial (graph : Graph) (cell : CellId) : Sweep :=
  ⟨graph, [cell], []⟩

/-- One turn of a sweep that writes a value. -/
inductive Turn (value : Value) : Sweep → Sweep → Prop where
  /-- A cell that was looked at before is dropped. -/
  | drop {graph : Graph} {pending rest seen : List CellId} {cell : CellId}
      (htaken : pending.Perm (cell :: rest)) (hseen : cell ∈ seen) :
      Turn value ⟨graph, pending, seen⟩ ⟨graph, rest, seen⟩
  /-- A new cell is written, and what is fed directly from it is put in. -/
  | write {graph : Graph} {pending rest seen fed : List CellId} {cell : CellId}
      (htaken : pending.Perm (cell :: rest)) (hnew : cell ∉ seen)
      (hfed : fed.Perm (graph.successors cell)) :
      Turn value ⟨graph, pending, seen⟩
        ⟨graph.modifyCell cell fun c => { c with value }, fed ++ rest, seen ++ [cell]⟩

/-- A given number of turns. -/
inductive Turns (value : Value) : Nat → Sweep → Sweep → Prop where
  | rest (sweep : Sweep) : Turns value 0 sweep sweep
  | turn {count : Nat} {first last next : Sweep} (hturns : Turns value count first last)
      (hturn : Turn value last next) : Turns value (count + 1) first next

/-- As long as there are cells to be looked at there is a next turn. -/
theorem exists_turn {sweep : Sweep} (h : sweep.pending ≠ []) :
    ∃ next, Turn value sweep next := by
  obtain ⟨graph, pending, seen⟩ := sweep
  obtain ⟨cell, rest, rfl⟩ := List.exists_cons_of_ne_nil h
  by_cases hseen : cell ∈ seen
  · exact ⟨_, .drop (.refl _) hseen⟩
  · exact ⟨_, .write (.refl _) hseen (.refl _)⟩

/-- What is known of a sweep that began with a cell of a graph: the cells looked at are written;
they and those still to be looked at can be reached, the first cell is one of them, and so is every
cell that is fed directly from a cell looked at. -/
structure Under (graph : Graph) (start : CellId) (value : Value) (sweep : Sweep) : Prop where
  written : sweep.graph = graph.writeCells sweep.seen value
  begun : start ∈ sweep.seen ∨ start ∈ sweep.pending
  reached : ∀ cell, cell ∈ sweep.seen ∨ cell ∈ sweep.pending →
    Relation.ReflTransGen graph.Bridges start cell
  done : ∀ cell ∈ sweep.seen, ∀ next, graph.Bridges cell next →
    next ∈ sweep.seen ∨ next ∈ sweep.pending

namespace Under

variable {sweep next : Sweep}

theorem initial (graph : Graph) (start : CellId) (value : Value) :
    Under graph start value (.initial graph start) where
  written := rfl
  begun := Or.inr (List.mem_singleton_self start)
  reached cell h := by
    rcases h with hseen | hpending
    · cases hseen
    · rw [List.mem_singleton.mp hpending]
  done cell h := nomatch h

/-- **Every turn keeps the invariant.** -/
theorem turn (h : Under graph start value sweep) (hturn : Turn value sweep next) :
    Under graph start value next := by
  cases hturn with
  -- A cell that has been seen is dropped: nothing is written, and nothing was pending for it
  | @drop current pending rest seen cell htaken hseen =>
    have hmem (other : CellId) : other ∈ seen ∨ other ∈ pending ↔ other ∈ seen ∨ other ∈ rest := by
      rw [htaken.mem_iff, List.mem_cons]
      constructor
      · rintro (hold | rfl | hlater)
        exacts [.inl hold, .inl hseen, .inr hlater]
      · rintro (hold | hlater)
        exacts [.inl hold, .inr (.inr hlater)]
    exact ⟨h.written, (hmem start).mp h.begun, fun other hother => h.reached other
      ((hmem other).mpr hother), fun other hother after hafter =>
        (hmem after).mp (h.done other hother after hafter)⟩
  -- A new cell is written, and what it feeds is pending from now on
  | @write current pending rest seen fed cell htaken hnew hfed =>
    have hwritten : current = graph.writeCells seen value := h.written
    have hfed' (other : CellId) : other ∈ fed ↔ graph.Bridges cell other := by
      rw [hfed.mem_iff, hwritten, successors_writeCells, mem_successors_iff]
    have hcell : Relation.ReflTransGen graph.Bridges start cell :=
      h.reached cell (Or.inr (htaken.mem_iff.mpr List.mem_cons_self))
    -- What was known of the cells seen and pending holds of them still
    have hkept (other : CellId) (hother : other ∈ seen ∨ other ∈ pending) :
        other ∈ seen ++ [cell] ∨ other ∈ fed ++ rest := by
      rw [htaken.mem_iff, List.mem_cons] at hother
      simp only [List.mem_append, List.mem_singleton]
      tauto
    constructor
    case written =>
      rw [hwritten, writeCells_append]
      rfl
    case begun => exact hkept start h.begun
    case reached =>
      intro other hother
      simp only [List.mem_append, List.mem_singleton, hfed'] at hother
      rcases hother with (hold | rfl) | (hbridges | hrest)
      · exact h.reached other (Or.inl hold)
      · exact hcell
      · exact hcell.tail hbridges
      · exact h.reached other (Or.inr (htaken.mem_iff.mpr (List.mem_cons_of_mem cell hrest)))
    case done =>
      intro other hother after hafter
      rcases List.mem_append.mp hother with hold | hlast
      · exact hkept after (h.done other hold after hafter)
      · rw [List.mem_singleton.mp hlast] at hafter
        exact Or.inr (List.mem_append_left rest ((hfed' after).mpr hafter))

/-- **A sweep that has ended has looked at exactly the cells that can be reached.** -/
theorem mem_seen_iff (h : Under graph start value sweep) (hended : sweep.pending = [])
    {cell : CellId} : cell ∈ sweep.seen ↔ Relation.ReflTransGen graph.Bridges start cell := by
  constructor
  · exact fun hseen => h.reached cell (Or.inl hseen)
  · intro hreach
    induction hreach with
    | refl => simpa [hended] using h.begun
    | tail _ hbridges ih => simpa [hended] using h.done _ ih _ hbridges

end Under

/-! ### The number of turns -/

/-- How often cells can be put in after some have been looked at. -/
def room (graph : Graph) (seen : List CellId) : Nat :=
  ∑ cell ∈ graph.liveCells with cell ∉ seen, (graph.successors cell).length

/-- Looking at a new cell uses up the room for what is fed from it. -/
theorem room_append {seen : List CellId} {cell : CellId} (hnew : cell ∉ seen) :
    room graph (seen ++ [cell]) + (graph.successors cell).length = room graph seen := by
  have hfilter : (graph.liveCells.filter fun other => other ∉ seen ++ [cell]) =
      (graph.liveCells.filter fun other => other ∉ seen).erase cell := by
    ext other
    simp only [Finset.mem_filter, Finset.mem_erase, List.mem_append, List.mem_singleton]
    tauto
  -- A live cell that is seen takes its own share of the room away
  unfold room
  rw [hfilter]
  by_cases hlive : cell ∈ graph.liveCells
  · exact Finset.sum_erase_add _ _ (Finset.mem_filter.mpr ⟨hlive, hnew⟩)
  · -- A cell that is not in use feeds nothing
    have hnone : graph.successors cell = [] := by
      rw [mem_liveCells, ← Option.isSome_iff_exists, Option.not_isSome_iff_eq_none] at hlive
      rw [successors, hlive]
    rw [hnone, List.length_nil, Nat.add_zero, Finset.erase_eq_of_notMem]
    exact fun hmem => hlive (Finset.mem_filter.mp hmem).1

/-- A bound on the number of turns left. -/
def weight (graph : Graph) (sweep : Sweep) : Nat :=
  sweep.pending.length + room graph sweep.seen

/-- **Every turn uses up one of the turns left.** -/
theorem Under.weight_turn {sweep next : Sweep} (h : Under graph start value sweep)
    (hturn : Turn value sweep next) : weight graph next + 1 = weight graph sweep := by
  cases hturn with
  | drop htaken hseen =>
    simp only [weight, htaken.length_eq, List.length_cons]
    omega
  | @write current pending rest seen fed cell htaken hnew hfed =>
    have hwritten : current = graph.writeCells seen value := h.written
    have hfed' : fed.length = (graph.successors cell).length := by
      rw [hfed.length_eq, hwritten, successors_writeCells]
    have hroom := @room_append graph seen cell hnew
    simp only [weight, htaken.length_eq, List.length_cons, List.length_append, hfed']
    omega

/-- A sweep keeps the invariant, and takes no more turns than it had left. -/
theorem Turns.under {first sweep : Sweep} {count : Nat} (hturns : Turns value count first sweep)
    (h : Under graph start value first) :
    Under graph start value sweep ∧ weight graph sweep + count = weight graph first := by
  induction hturns with
  | rest => exact ⟨h, rfl⟩
  | turn _ hturn ih =>
    obtain ⟨hunder, hweight⟩ := ih h
    have hless := hunder.weight_turn hturn
    exact ⟨hunder.turn hturn, by omega⟩

end Sweep

/-! ## Order -/

/-- Two graphs differ at most in the order in which inlets list what they feed and cells list the
ports that share them. -/
structure Reordered (graph graph' : Graph) : Prop where
  inlet : ∀ inlet, Option.Rel (fun pin pin' : Inlet =>
    pin' = { pin with feeds := pin'.feeds } ∧ pin.feeds.Perm pin'.feeds)
    (graph.inlet? inlet) (graph'.inlet? inlet)
  cell : ∀ cell, Option.Rel (fun record record' : Cell => record'.value = record.value ∧
    record.readers.Perm record'.readers ∧ record.writers.Perm record'.writers)
    (graph.cell? cell) (graph'.cell? cell)

namespace Reordered

theorem inletCell? (h : graph.Reordered graph') (inlet : InletId) :
    graph'.inletCell? inlet = graph.inletCell? inlet := by
  have hpins := h.inlet inlet
  unfold Graph.inletCell?
  generalize graph.inlet? inlet = found, graph'.inlet? inlet = found' at hpins ⊢
  cases hpins with
  | some hpin => rw [Option.bind_some, Option.bind_some, hpin.1]
  | none => rfl

theorem cellValue? (h : graph.Reordered graph') (cell : CellId) :
    graph'.cellValue? cell = graph.cellValue? cell := by
  have hcells := h.cell cell
  unfold Graph.cellValue?
  generalize graph.cell? cell = found, graph'.cell? cell = found' at hcells ⊢
  cases hcells with
  | some hcell => rw [Option.map_some, Option.map_some, hcell.1]
  | none => rfl

/-- **Bridges do not depend on the order of lists.** -/
theorem bridges_iff (h : graph.Reordered graph') {a b : CellId} :
    graph'.Bridges a b ↔ graph.Bridges a b := by
  -- The pins feed the same inputs, in another order
  have hfeeds (reader : InletId) :
      (∃ pin, graph'.inlet? reader = some pin ∧
        ∃ inner ∈ pin.feeds, graph'.inletCell? inner = some b) ↔
      ∃ pin, graph.inlet? reader = some pin ∧
        ∃ inner ∈ pin.feeds, graph.inletCell? inner = some b := by
    have hpins := h.inlet reader
    generalize graph.inlet? reader = found, graph'.inlet? reader = found' at hpins ⊢
    cases hpins with
    | some hpin => simp [hpin.2.mem_iff, h.inletCell?]
    | none => simp
  -- The cell has the same readers, in another order
  have hcells := h.cell a
  unfold Bridges
  simp only [hfeeds]
  generalize graph.cell? a = found, graph'.cell? a = found' at hcells ⊢
  cases hcells with
  | some hcell => simp [hcell.2.1.mem_iff]
  | none => simp

end Reordered

/-! ## What writing a cell does -/

open Classical in
/-- A cell shows the value written if bridges lead to it, and what it showed before otherwise. -/
theorem cellValue?_setValue
    (hlive : ∀ {a b}, graph.Bridges a b → ∃ record, graph.cell? b = some record) (cell : CellId) :
    (graph.setValue start value).cellValue? cell =
      if Relation.ReflTransGen graph.Bridges start cell then
        (graph.cellValue? cell).map fun _ => value
      else graph.cellValue? cell := by
  rw [setValue_eq, cellValue?, cell?_writeCells]
  simp only [mem_reached_iff hlive]
  split
  · rw [cellValue?, Option.map_map, Option.map_map]
    rfl
  · rfl

/-- **Writing a cell is exact.**  In every graph that comes about by any changes, a value is written
into a cell in use.

* It is stored in exactly the cells to which bridges lead, the cell itself included.  All of them
  are in use, and no list of ports changes.
* Every other cell is as it was, and so is everything but the cells.
* Every sweep ends after no more turns than one and the number of ways in which one cell is fed from
  another, and it ends with this graph.
* Another order of the lists of readers, writers and feeds makes no difference to any value. -/
theorem propagation_is_exact (h : Leads {} graph) {held : Cell} (hstart : graph.cell? start = some held)
    (value : Value) :
    let graph' := graph.setValue start value
    let Reached := Relation.ReflTransGen graph.Bridges start
    (∀ cell, Reached cell → ∃ record, graph.cell? cell = some record ∧
      graph'.cell? cell = some { record with value }) ∧
    (∀ cell, ¬ Reached cell → graph'.cell? cell = graph.cell? cell) ∧
    { graph' with cells := graph.cells } = graph ∧
    (∀ turns sweep, Sweep.Turns value turns (.initial graph start) sweep →
      turns ≤ 1 + ∑ cell ∈ graph.liveCells, (graph.successors cell).length ∧
      (sweep.pending ≠ [] → ∃ next, Sweep.Turn value sweep next) ∧
      (sweep.pending = [] → sweep.graph = graph')) ∧
    ∀ other, graph.Reordered other → ∀ cell,
      (other.setValue start value).cellValue? cell = graph'.cellValue? cell := by
  intro graph' Reached
  have hlinked : graph.Linked := h.linked .empty
  have hlive {a b : CellId} : graph.Bridges a b → ∃ record, graph.cell? b = some record :=
    Bridges.live hlinked
  have hreached {cell : CellId} : cell ∈ graph.reached start ↔ Reached cell := mem_reached_iff hlive
  have hcell (cell : CellId) := cell?_writeCells value cell (graph.reached start) graph
  refine ⟨fun cell hmem => ?written, fun cell hmem => ?kept, ?rest, fun turns sweep hturns => ?sweep,
    fun other hother cell => ?order⟩
  case written =>
    obtain ⟨record, hrecord⟩ := live_of_bridges hlinked ⟨held, hstart⟩ hmem
    refine ⟨record, hrecord, (hcell cell).trans ?_⟩
    rw [if_pos (hreached.mpr hmem), hrecord, Option.map_some]
  case kept => exact (hcell cell).trans (if_neg (mt hreached.mp hmem))
  case rest =>
    have hsame := writeCells_eq (graph.reached start) graph value
    exact congrArg (fun g : Graph => { g with cells := graph.cells }) hsame.symm
  case sweep =>
    -- The weight of a sweep bounds its turns, and an ended sweep has seen what is reached
    obtain ⟨hunder, hweight⟩ := hturns.under (.initial graph start value)
    refine ⟨?_, Sweep.exists_turn, fun hended => ?_⟩
    · simp only [Sweep.weight, Sweep.initial, Sweep.room, List.length_singleton, List.not_mem_nil,
        not_false_eq_true, Finset.filter_true] at hweight
      omega
    · rw [hunder.written]
      exact writeCells_congr (fun _ => (hunder.mem_seen_iff hended).trans hreached.symm) graph value
  case order =>
    -- The values depend on which bridges there are, and not on the order of the lists
    have hbridges : other.Bridges = graph.Bridges := by
      funext a b
      exact propext hother.bridges_iff
    have hlive' {a b : CellId} (hab : other.Bridges a b) : ∃ record, other.cell? b = some record := by
      obtain ⟨record, hrecord⟩ := hlive (hother.bridges_iff.mp hab)
      rcases hrel : other.cell? b with _ | record'
      · have hcells := hother.cell b
        rw [hrecord, hrel] at hcells
        cases hcells
      · exact ⟨record', rfl⟩
    rw [cellValue?_setValue hlive', cellValue?_setValue hlive, hbridges, hother.cellValue?]

/-! ## A ring of bridges -/

/-- A library with a box around an adder, and a composite of two boxes. -/
def ring : Library where
  specifications :=
    (Library.primitives.specifications.insert "box" (.composite "box" 1 0
      [.part "+" "a", .exposeInlet "a" 0 0])).insert "ring" (.composite "ring" 1 0
        [.part "box" "x", .part "box" "y", .exposeInlet "x" 0 0])

/-- The inlets inside the boxes are wired to the outlets inside, each together with the inlet of the
other box. -/
def ringNetwork : Network :=
  (((ring.instantiate "ring" {}).toOption.getD default).performAll
    [.connect ⟨2⟩ ⟨2⟩, .connect ⟨4⟩ ⟨2⟩, .connect ⟨5⟩ ⟨4⟩, .connect ⟨1⟩ ⟨4⟩]).1

/-- The cells of the two outlets feed each other.  Writing one writes the other, and no sweep takes
more than three turns. -/
theorem propagation_of_ring : ∃ built, ring.instantiate "ring" {} = .ok built ∧
    (built.performAll [.connect ⟨2⟩ ⟨2⟩, .connect ⟨4⟩ ⟨2⟩, .connect ⟨5⟩ ⟨4⟩, .connect ⟨1⟩ ⟨4⟩]).1 =
      ringNetwork ∧
    ∃ a b : CellId, a ≠ b ∧ ringNetwork.graph.outletCell? ⟨4⟩ = some a ∧
      ringNetwork.graph.outletCell? ⟨2⟩ = some b ∧
      ringNetwork.graph.Bridges a b ∧ ringNetwork.graph.Bridges b a ∧
      (∃ record, (ringNetwork.graph.setValue a 5).cell? b = some record ∧ record.value = 5) ∧
      ∀ turns sweep, Sweep.Turns 5 turns (.initial ringNetwork.graph a) sweep → turns ≤ 3 := by
  obtain ⟨built, hbuilt, hnet⟩ : ∃ built, ring.instantiate "ring" {} = .ok built ∧
      (built.performAll [.connect ⟨2⟩ ⟨2⟩, .connect ⟨4⟩ ⟨2⟩, .connect ⟨5⟩ ⟨4⟩,
        .connect ⟨1⟩ ⟨4⟩]).1 = ringNetwork := ⟨_, by decide +kernel, rfl⟩
  obtain ⟨hone, htwo⟩ : ringNetwork.graph.outletCell? ⟨4⟩ = some ⟨8, 0⟩ ∧
      ringNetwork.graph.outletCell? ⟨2⟩ = some ⟨4, 0⟩ := by decide +kernel
  -- The two cells feed each other
  have hforth : ringNetwork.graph.Bridges ⟨8, 0⟩ ⟨4, 0⟩ :=
    mem_successors_iff.mp (by decide +kernel)
  have hback : ringNetwork.graph.Bridges ⟨4, 0⟩ ⟨8, 0⟩ :=
    mem_successors_iff.mp (by decide +kernel)
  -- The theorem applies because the network is one that calls have built
  have hreach : ringNetwork.Reachable := ⟨_, _, _, built, _, hbuilt, hnet.symm⟩
  obtain ⟨held, hheld⟩ := hback.live hreach.linked
  have hexact := propagation_is_exact hreach.leads hheld 5
  obtain ⟨record, _, hwritten⟩ := hexact.1 ⟨4, 0⟩ (.single hforth)
  refine ⟨built, hbuilt, hnet, ⟨8, 0⟩, ⟨4, 0⟩, by decide, hone, htwo, hforth, hback,
    ⟨_, hwritten, rfl⟩, fun turns sweep hturns => ?_⟩
  have hbound : 1 + ∑ cell ∈ ringNetwork.graph.liveCells,
      (ringNetwork.graph.successors cell).length = 3 := by decide +kernel
  exact hbound ▸ (hexact.2.2.2.1 turns sweep hturns).1

end TokenNet.Graph
