import TokenNet.Proofs.Change.Relays
import TokenNet.Proofs.Flow.Sweep
import TokenNet.Proofs.Run.Frame

/-!
# Pushing values outward

A value that is written at an outlet is also written at the outlet to which that one is relayed, and
so on to the end of the chain of relays.  Each of these writes gives the outlet a cell if it has
none, and spreads over all cells to which bridges lead from there.  A later write may come to cells
that an earlier one has written; since both write one value, all cells that some outlet of the chain
covers show it in the end.

The layers are:

* one write, as an instance of `Spreads`;
* one write after another, by `Spreads.append`;
* the loop that follows the relays without any bound on its turns, and which is never left early.

## Main statements

- `Covers`: the cells to which bridges lead from that of an outlet.
- `Spreads`: some outlets were written with one value.
- `PushedOn`, `Descends.pushedOn`: the loop along the relays, and that it ends.
- `Network.outward_push_is_exact`: what writing an outlet does in every network that can come about.
-/

namespace TokenNet

namespace Graph

variable {graph graph' graph'' : Graph} {outlet : OutletId} {value : Value}

/-! ## Covered cells -/

/-- Writing outlets builds no bridges: a new cell is read by nobody. -/
theorem Fills.bridges_eq {written : OutletId → Prop} (h : Fills written graph graph') :
    graph'.Bridges = graph.Bridges := by
  have hpins : graph'.inlet? = graph.inlet? := by
    funext inlet
    unfold inlet?
    rw [h.inlets]
  have hcells : graph'.inletCell? = graph.inletCell? := by
    funext inlet
    unfold inletCell?
    rw [hpins]
  funext a b
  unfold Bridges
  rw [hpins, hcells]
  refine propext ⟨?_, ?_⟩
  · rintro ⟨record', hrecord', reader, hreader, hfeeds⟩
    cases hrecord : graph.cell? a with
    | none =>
      -- A cell that was not there before has no readers
      obtain ⟨_, _, _, _, hreaders, _⟩ := h.fresh hrecord hrecord'
      rw [hreaders] at hreader
      cases hreader
    | some record =>
      obtain ⟨_, hlive⟩ := h.live hrecord
      obtain rfl := Option.some.inj (hrecord'.symm.trans hlive)
      exact ⟨record, rfl, reader, hreader, hfeeds⟩
  · rintro ⟨record, hrecord, hfeeds⟩
    obtain ⟨_, hlive⟩ := h.live hrecord
    exact ⟨_, hlive, hfeeds⟩

/-- Bridges lead to a cell from that of an outlet. -/
def Covers (graph : Graph) (outlet : OutletId) (cell : CellId) : Prop :=
  ∃ start, graph.outletCell? outlet = some start ∧
    Relation.ReflTransGen graph.Bridges start cell

theorem Fills.covers {written : OutletId → Prop} (h : Fills written graph graph') {cell : CellId}
    (hcovers : graph.Covers outlet cell) : graph'.Covers outlet cell := by
  obtain ⟨start, hstart, hreach⟩ := hcovers
  exact ⟨start, h.kept hstart, h.bridges_eq ▸ hreach⟩

theorem Fills.covers_iff_of_outletCell? {written : OutletId → Prop} (h : Fills written graph graph')
    {start cell : CellId} (hstart : graph.outletCell? outlet = some start) :
    graph'.Covers outlet cell ↔ graph.Covers outlet cell := by
  refine ⟨fun hcovers => ?_, h.covers⟩
  obtain ⟨start', hstart', hreach⟩ := hcovers
  obtain rfl := Option.some.inj (hstart'.symm.trans (h.kept hstart))
  exact ⟨start', hstart, h.bridges_eq ▸ hreach⟩

/-! ## Writes -/

/-- Some outlets were written with one value: they have cells, the cells that they cover show the
value, and all other cells are as they were. -/
structure Spreads (outlets : List OutletId) (value : Value) (graph graph' : Graph) : Prop where
  fills : Fills (· ∈ outlets) graph graph'
  written : ∀ outlet ∈ outlets, ∃ cell, graph'.outletCell? outlet = some cell
  shown : ∀ outlet ∈ outlets, ∀ cell, graph'.Covers outlet cell →
    graph'.cellValue? cell = some value
  kept : ∀ cell, (∀ outlet ∈ outlets, ¬ graph'.Covers outlet cell) →
    graph'.cell? cell = graph.cell? cell

/-- The outlet of a cell that is written covers exactly the cells that the write reaches. -/
theorem covers_setValue (hlinked : graph.Linked) {start cell : CellId}
    (hstart : graph.outletCell? outlet = some start) (value : Value) :
    (graph.setValue start value).Covers outlet cell ↔ cell ∈ graph.reached start := by
  have hwritten := Fills.writeCells (fun _ => True) graph (graph.reached start) value
  rw [setValue_eq, Covers, hwritten.kept hstart, hwritten.bridges_eq,
    mem_reached_iff (Bridges.live hlinked)]
  simp

namespace Spreads

theorem refl (value : Value) (graph : Graph) : Spreads [] value graph graph where
  fills := .refl _ graph
  written _ h := nomatch h
  shown _ h := nomatch h
  kept _ _ := rfl

/-- **One write.** -/
theorem writeOwnOutlet (hlinked : graph.Linked) (houtlet : graph.HasPort (.outlet outlet))
    (value : Value) : Spreads [outlet] value graph (graph.writeOwnOutlet outlet value) := by
  have hfills : Fills (· ∈ [outlet]) graph (graph.writeOwnOutlet outlet value) :=
    .writeOwnOutlet hlinked houtlet (List.mem_singleton_self outlet) value
  have hstart := portCell?_ensure houtlet
  have hensured := hlinked.ensure houtlet
  have hother {cell : CellId} := @cell?_ensure_of_ne graph hlinked.sound (.outlet outlet) cell
  have hwrite : graph.writeOwnOutlet outlet value =
    (graph.ensure (.outlet outlet)).2.setValue (graph.ensure (.outlet outlet)).1 value := rfl
  rw [hwrite] at hfills ⊢
  generalize (graph.ensure (.outlet outlet)).1 = start at hstart hother hfills ⊢
  generalize (graph.ensure (.outlet outlet)).2 = ensured at hstart hensured hother hfills ⊢
  -- From here on only the cell that the outlet has now matters
  have hcovers {cell : CellId} := @covers_setValue ensured outlet hensured start cell hstart value
  have hreached {cell : CellId} := @mem_reached_iff ensured start (Bridges.live hensured) cell
  refine ⟨hfills, fun other hmem => ?_, fun other hmem cell hcell => ?_, fun cell hcell => ?_⟩
  · rw [List.mem_singleton.mp hmem]
    exact ⟨start, (portCell?_writeCells _ ensured value (.outlet outlet)).trans hstart⟩
  · rw [List.mem_singleton.mp hmem, hcovers] at hcell
    obtain ⟨record, hrecord⟩ := live_of_bridges hensured (hensured.live hstart) (hreached.mp hcell)
    rw [setValue_eq, cellValue?, cell?_writeCells, if_pos hcell, hrecord]
    rfl
  · have hunreached := mt hcovers.mpr (hcell outlet (List.mem_singleton_self outlet))
    have hne : cell ≠ start := by
      rintro rfl
      exact hunreached (hreached.mpr .refl)
    rw [setValue_eq, cell?_writeCells, if_neg hunreached, hother hne]

/-- **One write after another.** -/
theorem append {outlets later : List OutletId} (h : Spreads outlets value graph graph')
    (h' : Spreads later value graph' graph'') : Spreads (outlets ++ later) value graph graph'' := by
  have hcovers {outlet : OutletId} (hmem : outlet ∈ outlets) {cell : CellId} :
      graph''.Covers outlet cell ↔ graph'.Covers outlet cell := by
    obtain ⟨start, hstart⟩ := h.written outlet hmem
    exact h'.fills.covers_iff_of_outletCell? hstart
  constructor
  case fills =>
    exact (h.fills.mono fun _ => List.mem_append_left later).trans
      (h'.fills.mono fun _ => List.mem_append_right outlets)
  case written =>
    intro outlet hmem
    rcases List.mem_append.mp hmem with hfirst | hlater
    · obtain ⟨start, hstart⟩ := h.written outlet hfirst
      exact ⟨start, h'.fills.kept hstart⟩
    · exact h'.written outlet hlater
  case shown =>
    intro outlet hmem cell hcell
    -- A cell that a later outlet covers is written again, with the same value
    by_cases hagain : ∃ other ∈ later, graph''.Covers other cell
    · obtain ⟨other, hother, hcovered⟩ := hagain
      exact h'.shown other hother cell hcovered
    · have hsame := h'.kept cell fun other hother hcovered => hagain ⟨other, hother, hcovered⟩
      rcases List.mem_append.mp hmem with hfirst | hlater
      · rw [cellValue?, hsame]
        exact h.shown outlet hfirst cell ((hcovers hfirst).mp hcell)
      · exact absurd ⟨outlet, hlater, hcell⟩ hagain
  case kept =>
    intro cell hcell
    rw [h'.kept cell fun outlet hlater => hcell outlet (List.mem_append_right outlets hlater)]
    exact h.kept cell fun outlet hfirst hcovered =>
      hcell outlet (List.mem_append_left later hfirst) ((hcovers hfirst).mpr hcovered)

theorem foldl_writeOwnOutlet (value : Value) (outlets : List OutletId) (hlinked : graph.Linked)
    (hclosed : graph.Closed) (hports : ∀ outlet ∈ outlets, graph.HasPort (.outlet outlet)) :
    Spreads outlets value graph
      (outlets.foldl (fun g outlet => g.writeOwnOutlet outlet value) graph) := by
  induction outlets generalizing graph with
  | nil => exact .refl value graph
  | cons first rest ih =>
    have hport := hports first List.mem_cons_self
    have hmove : graph.Moves (graph.writeOwnOutlet first value) := .single (.emit graph hport value)
    have hmoves := hmove.leads
    have hlater := ih (hmoves.linked hlinked) (hmoves.closed hclosed) fun outlet hmem =>
      (hmoves.extends hclosed).hasPort (hports outlet (List.mem_cons_of_mem first hmem))
    exact (writeOwnOutlet hlinked hport value).append hlater

/-- **Writing an outlet spreads a value from all outlets of its chain.** -/
theorem writeOutlet (hlinked : graph.Linked) (hclosed : graph.Closed)
    (houtlet : graph.HasPort (.outlet outlet)) (value : Value) :
    Spreads (graph.relayChain outlet) value graph (graph.writeOutlet outlet value) :=
  foldl_writeOwnOutlet value _ hlinked hclosed (hasPort_of_mem_relayChain hclosed houtlet)

end Spreads

/-! ## The loop along the relays -/

theorem bare_outlets_writeOwnOutlet (graph : Graph) (outlet : OutletId) (value : Value) :
    (graph.writeOwnOutlet outlet value).bare.outlets = graph.bare.outlets :=
  congrArg Graph.outlets (bare_write graph (.outlet outlet) value)

/-- A number of turns of the loop that pushes a value on: each writes the outlet to which the
current one is relayed, and goes on from there.  The loop would be left early at an outlet that is
not marked as wired; this says that every turn finds it marked, and that the loop ends where there
is no relay. -/
inductive PushedOn (value : Value) : Nat → Graph → OutletId → Graph → Prop where
  | last {graph : Graph} {current : OutletId} (h : graph.relayOf? current = none) :
      PushedOn value 0 graph current graph
  | turn {turns : Nat} {graph graph' : Graph} {current next : OutletId}
      (hrelay : graph.relayOf? current = some next)
      (hwired : (graph.writeOwnOutlet next value).outletWired next = true)
      (hrest : PushedOn value turns (graph.writeOwnOutlet next value) next graph') :
      PushedOn value (turns + 1) graph current graph'

/-- **The loop ends**, since every turn goes on with an outlet that has a smaller number; and it
writes the relays in order. -/
theorem Descends.pushedOn (h : graph.Descends) (value : Value) {bound : Nat}
    (hbound : outlet.index < bound) :
    ∃ turns ≤ outlet.index, PushedOn value turns graph outlet
      ((graph.relays bound outlet).foldl (fun g reached => g.writeOwnOutlet reached value)
        graph) := by
  induction bound generalizing graph outlet with
  | zero => exact absurd hbound (Nat.not_lt_zero _)
  | succ bound ih =>
    rw [h.relays_succ]
    cases hrelay : graph.relayOf? outlet with
    -- Nothing is relayed any further
    | none => exact ⟨0, Nat.zero_le _, .last hrelay⟩
    -- The next output has a smaller number, so the loop ends
    | some next =>
      have hless := h.lt hrelay
      have hout := bare_outlets_writeOwnOutlet graph next value
      obtain ⟨turns, hturns, hpushed⟩ := ih (h.of_outlets_eq hout)
        (Nat.lt_of_lt_of_le hless (Nat.le_of_lt_succ hbound))
      rw [relays_of_eq hout] at hpushed
      refine ⟨turns + 1, Nat.le_trans (Nat.succ_le_succ hturns) hless, .turn hrelay ?_ hpushed⟩
      rw [outletWired_of_eq hout]
      exact h.wired hrelay

end Graph

/-! ## What writing an outlet does -/

namespace Network

variable {net : Network} {graph : Graph}

/-- **Pushing a value outward is exact.**  In every network that can come about, also in the middle
of a run, a value is written at an outlet.

* Every relay leads to an outlet with a smaller number, and that outlet is marked as wired.
* The loop along the relays ends after no more turns than the number of the outlet, it is never left
  early, and it ends with this graph.
* Every outlet to which relays lead, the outlet itself included, has a cell and shows the value, and
  so do all cells to which bridges lead from there.
* Every other cell is as it was. -/
theorem outward_push_is_exact (hnet : net.Reachable) (hmoves : net.graph.Moves graph)
    {outlet : OutletId} (houtlet : graph.HasPort (.outlet outlet)) (value : Value) :
    let graph' := graph.writeOutlet outlet value
    let Chain := Relation.ReflTransGen graph.RelaysTo outlet
    (∀ inner outer, graph.relayOf? inner = some outer →
      outer.index < inner.index ∧ graph.outletWired outer = true) ∧
    (∃ turns ≤ outlet.index,
      Graph.PushedOn value turns (graph.writeOwnOutlet outlet value) outlet graph') ∧
    (∀ outer, Chain outer → ∃ start, graph'.outletCell? outer = some start ∧
      graph'.outletValue? outer = some value ∧
      ∀ cell, Relation.ReflTransGen graph'.Bridges start cell →
        graph'.cellValue? cell = some value) ∧
    ∀ cell, (∀ outer start, Chain outer → graph'.outletCell? outer = some start →
        ¬ Relation.ReflTransGen graph'.Bridges start cell) →
      graph'.cell? cell = graph.cell? cell := by
  intro graph' Chain
  have hlinked : graph.Linked := hmoves.leads.linked hnet.linked
  have hclosed : graph.Closed := hmoves.leads.closed hnet.closed
  have hdescends : graph.Descends := hnet.descends.of_outlets_eq hmoves.uses.bare_outlets
  -- The write pushes along the chain, and each output of the chain spreads the value
  have hspreads : Graph.Spreads (graph.relayChain outlet) value graph graph' :=
    .writeOutlet hlinked hclosed houtlet value
  have hchain {outer : OutletId} : outer ∈ graph.relayChain outlet ↔ Chain outer :=
    hdescends.mem_relayChain_iff houtlet
  refine ⟨fun inner outer hrelay => ⟨hdescends.lt hrelay, hdescends.wired hrelay⟩, ?loop,
    fun outer houter => ?shown, fun cell hcell => ?kept⟩
  case loop =>
    have hout := Graph.bare_outlets_writeOwnOutlet graph outlet value
    obtain ⟨turns, hturns, hpushed⟩ := (hdescends.of_outlets_eq hout).pushedOn value houtlet
    rw [Graph.relays_of_eq hout] at hpushed
    exact ⟨turns, hturns, hpushed⟩
  case shown =>
    have hmem := hchain.mpr houter
    obtain ⟨start, hstart⟩ := hspreads.written outer hmem
    have hvalue (cell : CellId) (hreach : Relation.ReflTransGen graph'.Bridges start cell) :
        graph'.cellValue? cell = some value :=
      hspreads.shown outer hmem cell ⟨start, hstart, hreach⟩
    refine ⟨start, hstart, ?_, hvalue⟩
    rw [Graph.outletValue?, hstart]
    exact hvalue start .refl
  case kept =>
    -- A cell that no outlet of the chain covers was not written
    refine hspreads.kept cell fun outer hmem hcovers => ?_
    obtain ⟨start, hstart, hreach⟩ := hcovers
    exact hcell outer start (hchain.mp hmem) hstart hreach

/-- A library with a box around an adder, and a composite of two boxes.  It shows the output of the
first, which the second reads. -/
def nestedBoxes : Library where
  specifications :=
    (Library.primitives.specifications.insert "box" (.composite "box" 1 0
      [.part "+" "a", .exposeInlet "a" 0 0, .exposeOutlet "a"])).insert "boxes"
        (.composite "boxes" 0 0
          [.part "box" "x", .part "box" "y", .dataFlow "x" "y" 0, .exposeOutlet "x"])

/-- The outlet of the composite was unplugged. -/
def unpluggedBoxes : Network :=
  (((nestedBoxes.instantiate "boxes" {}).toOption.getD default).performAll
    [.disconnectOutlet ⟨0⟩]).1

/-- Outlet 2, of the adder in the first box, is relayed to outlet 1 of the box and from there to
outlet 0 of the composite, which has no cell.  Writing outlet 2 gives outlet 0 a cell, and comes to
the adder in the second box through the inlet of that box. -/
theorem outward_push_of_unpluggedBoxes : ∃ built, nestedBoxes.instantiate "boxes" {} = .ok built ∧
    (built.performAll [.disconnectOutlet ⟨0⟩]).1 = unpluggedBoxes ∧
    unpluggedBoxes.graph.relayOf? ⟨2⟩ = some ⟨1⟩ ∧ unpluggedBoxes.graph.relayOf? ⟨1⟩ = some ⟨0⟩ ∧
    unpluggedBoxes.graph.outletCell? ⟨0⟩ = none ∧
    (∃ turns ≤ 2, Graph.PushedOn 7 turns (unpluggedBoxes.graph.writeOwnOutlet ⟨2⟩ 7) ⟨2⟩
      (unpluggedBoxes.graph.writeOutlet ⟨2⟩ 7)) ∧
    (unpluggedBoxes.graph.writeOutlet ⟨2⟩ 7).outletValue? ⟨0⟩ = some 7 ∧
    (unpluggedBoxes.graph.writeOutlet ⟨2⟩ 7).inletValue? ⟨4⟩ = some 7 := by
  obtain ⟨built, hbuilt, hnet⟩ : ∃ built, nestedBoxes.instantiate "boxes" {} = .ok built ∧
      (built.performAll [.disconnectOutlet ⟨0⟩]).1 = unpluggedBoxes := ⟨_, by decide +kernel, rfl⟩
  obtain ⟨hfirst, hsecond, hbefore⟩ : unpluggedBoxes.graph.relayOf? ⟨2⟩ = some ⟨1⟩ ∧
      unpluggedBoxes.graph.relayOf? ⟨1⟩ = some ⟨0⟩ ∧
      unpluggedBoxes.graph.outletCell? ⟨0⟩ = none := by decide +kernel
  have hreach : unpluggedBoxes.Reachable := ⟨_, _, _, built, _, hbuilt, hnet.symm⟩
  have hexact := outward_push_is_exact hreach .refl
    (show unpluggedBoxes.graph.HasPort (.outlet ⟨2⟩) by decide +kernel) 7
  obtain ⟨_, _, hvalue, _⟩ := hexact.2.2.1 ⟨0⟩ (.tail (.single hfirst) hsecond)
  obtain ⟨start, hstart, _, hspread⟩ := hexact.2.2.1 ⟨1⟩ (.single hfirst)
  -- The inlet of the second box shares the cell of outlet 1, and feeds inlet 4
  obtain ⟨hbox, hinlet⟩ :
      (unpluggedBoxes.graph.writeOutlet ⟨2⟩ 7).outletCell? ⟨1⟩ = some ⟨1, 0⟩ ∧
      (unpluggedBoxes.graph.writeOutlet ⟨2⟩ 7).inletCell? ⟨4⟩ = some ⟨6, 0⟩ := by decide +kernel
  have hbridges : (unpluggedBoxes.graph.writeOutlet ⟨2⟩ 7).Bridges ⟨1, 0⟩ ⟨6, 0⟩ :=
    Graph.mem_successors_iff.mp (by decide +kernel)
  obtain rfl := Option.some.inj (hstart.symm.trans hbox)
  refine ⟨built, hbuilt, hnet, hfirst, hsecond, hbefore, hexact.2.1, hvalue, ?_⟩
  rw [Graph.inletValue?, hinlet]
  exact hspread _ (.single hbridges)

end Network

end TokenNet
