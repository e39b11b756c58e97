import TokenNet.Proofs.Flow.Woven
import TokenNet.Proofs.Matrix.BitsBuild
import TokenNet.Proofs.Matrix.Marks

/-!
# The build of an adder network

A build in progress *draws* a board when its graph is that of the board, cells apart, and its ports
share cells as the wires of the board say.  Every directive of an adder network draws one mark, and
none of them is skipped; so what is built is the board of the two matrices.

## Main statements

- `Draws.part`: how an adder is made.
- `Draws.link`, `Draws.lead`, `Draws.feed`, `Draws.relay`, `Draws.first`: what one directive draws.
- `addersNetwork_eq_ok`: what the network of two matrices is.
-/

namespace TokenNet

theorem Directive.resolve_bare (graph : Graph) (composite : NodeId) (name : String)
    (directive : Directive) :
    directive.resolve graph.bare composite name = directive.resolve graph composite name := by
  cases directive <;> rfl

namespace Matrix

/-! ## Resolving against a board -/

section Resolving

variable {board : Board} {row column adder external : Nat} (name : String)

theorem findPart_adderRole (h : adder < board.count) :
    Directive.findPart board.graph ⟨0⟩ name (adderRole adder) = .ok (adderNode adder) := by
  simp [Directive.findPart, h]

/-- The port of a row or a column among the ports of its adder. -/
theorem getElem?_pair {α : Type} (port : Nat → α) (i : Nat) :
    [port (2 * (i / 2)), port (2 * (i / 2) + 1)][i % 2]? = some (port i) := by
  have hsplit := Nat.div_add_mod i 2
  rcases Nat.mod_two_eq_zero_or_one i with hzero | hone
  · rw [hzero] at hsplit ⊢
    exact congrArg (some ∘ port) hsplit
  · rw [hone] at hsplit ⊢
    exact congrArg (some ∘ port) hsplit

theorem findPort_row (h : row < 2 * board.count) (role : Option String) :
    Directive.findPort (Directive.inletsOf board.graph (adderNode (row / 2))) name role .inlet
      (row % 2) = .ok (adderInlet row) := by
  have hadder : row / 2 < board.count := by omega
  have hpair := getElem?_pair adderInlet row
  simp [Directive.findPort, Directive.inletsOf, hadder, adderPorts, hpair]

theorem findPort_column (h : column < 2 * board.count) (role : Option String) :
    Directive.findPort (Directive.exitsOf board.graph (adderNode (column / 2))) name role .exit
      (column % 2) = .ok (adderExit column) := by
  have hadder : column / 2 < board.count := by omega
  have hpair := getElem?_pair adderExit column
  simp [Directive.findPort, Directive.exitsOf, hadder, adderPorts, hpair]

/-- A port of the network is one of two. -/
theorem findPort_pair {α : Type} (port : Nat → α) (h : external < 2) (kind : PortKind) :
    Directive.findPort [port 0, port 1] name none kind external = .ok (port external) := by
  obtain rfl | rfl := Nat.le_one_iff_eq_zero_or_eq_one.mp (Nat.le_of_lt_succ h)
  · rfl
  · rfl

theorem resolve_linkDirective (hrow : row < 2 * board.count) (hadder : adder < board.count) :
    (linkDirective (row, adder)).resolve board.graph ⟨0⟩ name =
      .ok (some (.connect (adderInlet row) (adderOutlet adder))) := by
  have htarget : row / 2 < board.count := by omega
  simp [linkDirective, Directive.resolve, findPart_adderRole name hadder,
    findPart_adderRole name htarget, Directive.both, findPort_row name hrow, hadder, adderPorts,
    bind, Except.bind, pure, Except.pure]

/-- An edge of the control matrix leads to the entry of its row, be it that of an adder or of a
join. -/
theorem resolve_leadDirective (hcolumn : column < 2 * board.count) :
    (leadDirective board.count (row, column)).resolve board.graph ⟨0⟩ name =
      .ok (some (.direct (adderExit column) (board.rowEntry row))) := by
  have hsource : column / 2 < board.count := by omega
  unfold leadDirective controlDirective Board.rowEntry
  dsimp only
  -- The roles are those of adders, and so the look-ups succeed
  split
  next hinner =>
    simp [Directive.resolve, findPart_adderRole name hsource, findPart_adderRole name hinner,
      Directive.both, findPort_column name hcolumn, Directive.findEntry, hinner, bind, Except.bind,
      pure, Except.pure]
  next hbeyond =>
    have hexternal : (if row = board.count then 0 else 1) < 2 := by split <;> decide
    simp [Directive.resolve, findPart_adderRole name hsource, findPort_column name hcolumn,
      board.joinEntriesOf_root, findPort_pair name joinEntry hexternal, bind, Except.bind, pure,
      Except.pure]

theorem resolve_feedDirective (hrow : row < 2 * board.count) (hexternal : external < 2) :
    (feedDirective (row, external)).resolve board.graph ⟨0⟩ name =
      .ok (some (.feed (frameInlet external) (adderInlet row))) := by
  have hadder : row / 2 < board.count := by omega
  simp [feedDirective, Directive.resolve, findPart_adderRole name hadder, findPort_row name hrow,
    board.inletsOf_root, findPort_pair name frameInlet hexternal, bind, Except.bind, pure,
    Except.pure]

theorem resolve_relayDirective (hadder : adder < board.count) :
    (relayDirective adder).resolve board.graph ⟨0⟩ name =
      .ok (some (.relay frameOutlet (adderOutlet adder))) := by
  simp [relayDirective, Directive.resolve, findPart_adderRole name hadder, hadder, adderPorts,
    Graph.interface?, Board.node, Node.interface?, bind, Except.bind, pure, Except.pure]

theorem resolve_entryDirective (hadder : adder < board.count) :
    (entryDirective adder).resolve board.graph ⟨0⟩ name =
      .ok (some (.enter ⟨0⟩ (adderEntry adder))) := by
  simp [entryDirective, Directive.resolve, findPart_adderRole name hadder, Directive.findEntry,
    hadder, bind, Except.bind, pure, Except.pure]

end Resolving

/-! ## Drawing a board -/

/-- The data ports that have cells: those of the adders and the output of the network. -/
def Pin (count : Nat) : Port → Prop
  | .inlet inlet => 2 ≤ inlet.index ∧ inlet.index < 2 * count + 2
  | .outlet outlet => outlet.index < count + 1

/-- A wire of a board: from the outlet of an adder to the inlet of a row. -/
def Board.Wire (board : Board) (port other : Port) : Prop :=
  ∃ row adder, (row, adder) ∈ board.links ∧ port = .outlet (adderOutlet adder) ∧
    other = .inlet (adderInlet row)

/-- The inputs of the network have no cells of their own. -/
def IsFrameInlet (port : Port) : Prop :=
  ∃ external < 2, port = .inlet (frameInlet external)

/-- A build in progress has drawn a board so far, and no directive was skipped. -/
structure Draws (draft : Draft) (board : Board) : Prop where
  bare : draft.graph.bare = board.graph
  woven : draft.graph.Woven board.Wire
  placed : draft.graph.PlacedBut IsFrameInlet
  loose : ∀ external < 2, draft.graph.portCell? (.inlet (frameInlet external)) = none
  issues : draft.issues = #[]

namespace Draws

variable {draft draft' : Draft} {board : Board}

/-- The ports of a board are those of its records. -/
theorem hasPort_iff (h : Draws draft board) (port : Port) :
    draft.graph.HasPort port ↔ board.graph.HasPort port := by
  have hinlets := congrArg (fun g : Graph => g.inlets.size) h.bare
  have houtlets := congrArg (fun g : Graph => g.outlets.size) h.bare
  simp only [Graph.bare, Array.size_map] at hinlets houtlets
  cases port with
  | inlet inlet => simp only [Graph.HasPort, hinlets]
  | outlet outlet => simp only [Graph.HasPort, houtlets]

/-- Every pin has a cell. -/
theorem exists_cell (h : Draws draft board) {port : Port} (hpin : Pin board.count port) :
    ∃ cell, draft.graph.portCell? port = some cell := by
  refine h.placed port ((h.hasPort_iff port).mpr ?_) ?_
  · cases port with
    | inlet inlet => simpa [Graph.HasPort, Board.graph] using hpin.2
    | outlet outlet => simpa [Graph.HasPort, Board.graph, Pin] using hpin
  · rintro ⟨external, hexternal, rfl⟩
    exact absurd hpin.1 (Nat.not_le.mpr hexternal)

theorem resolve (h : Draws draft board) (name : String) (directive : Directive) :
    directive.resolve draft.graph ⟨0⟩ name = directive.resolve board.graph ⟨0⟩ name := by
  rw [← h.bare, Directive.resolve_bare]

/-- A rewiring that moves no port draws what it does to the graph of the board. -/
theorem rewire_of_same (h : Draws draft board) {name : String} {directive : Directive}
    {rewiring : Rewiring} {board' : Board}
    (hresolve : directive.resolve board.graph ⟨0⟩ name = .ok (some rewiring))
    (hbare : (rewiring.apply draft.graph).bare = board'.graph)
    (hlinks : board'.links = board.links)
    (hsame : draft.graph.SamePorts (rewiring.apply draft.graph)) :
    Draws (draft.rewire ⟨0⟩ name directive) board' := by
  rw [← h.resolve] at hresolve
  have hgraph := Draft.graph_rewire hresolve
  have hwire : board'.Wire = board.Wire := by
    unfold Board.Wire
    rw [hlinks]
  -- Only the graph without cells has changed; ports, cells and issues are those of before
  refine ⟨hgraph ▸ hbare, ?_, ?_, fun external hexternal => ?_, ?_⟩
  · rw [hgraph, hwire]
    exact h.woven.of_same hsame
  · rw [hgraph]
    exact hsame.placedBut h.placed
  · rw [hgraph, hsame.portCell?]
    exact h.loose external hexternal
  · rw [Draft.issues_rewire hresolve]
    exact h.issues

/-! ### Reading what is drawn -/

theorem target? (h : Draws draft board) {column : Nat} (hcolumn : column < 2 * board.count) :
    draft.graph.target? (adderExit column) = board.lead? column := by
  have hbare : draft.graph.bare.target? (adderExit column) = board.lead? column := by
    rw [h.bare]
    unfold Graph.target? Graph.exit? Board.graph adderExit
    rw [getElem?_tabulate, if_pos (Nat.add_lt_add_right hcolumn 2)]
    rfl
  exact hbare

theorem rootEntry? (h : Draws draft board) :
    (draft.graph.interface? ⟨0⟩).bind Interface.entry = board.firsts.getLast?.map adderEntry := by
  have hbare : (draft.graph.bare.interface? ⟨0⟩).bind Interface.entry =
      board.firsts.getLast?.map adderEntry := by
    rw [h.bare]
    simp [Graph.interface?, Board.node, Node.interface?]
  exact hbare

theorem map_bare_inlet? (h : Draws draft board) {i : Nat} (hi : i < 2 * board.count + 2) :
    (draft.graph.inlet? ⟨i⟩).map Inlet.bare = some (board.inlet i) := by
  have hinlets : draft.graph.inlets.map Inlet.bare = _ := (congrArg Graph.inlets h.bare :)
  have hat := congrArg (fun inlets : Array Inlet => inlets[i]?) hinlets
  simp only [Array.getElem?_map, Board.graph, getElem?_tabulate, if_pos hi] at hat
  exact hat

theorem map_bare_outlet? (h : Draws draft board) {i : Nat} (hi : i < board.count + 1) :
    (draft.graph.outlet? ⟨i⟩).map Outlet.bare = some (board.outlet i) := by
  have houtlets : draft.graph.outlets.map Outlet.bare = _ := (congrArg Graph.outlets h.bare :)
  have hat := congrArg (fun outlets : Array Outlet => outlets[i]?) houtlets
  simp only [Array.getElem?_map, Board.graph, getElem?_tabulate, if_pos hi] at hat
  exact hat

theorem inletWired (h : Draws draft board) {row : Nat} (hrow : row < 2 * board.count) :
    draft.graph.inletWired (adderInlet row) = board.wired row := by
  obtain ⟨record, hrecord, hbare⟩ := Option.map_eq_some_iff.mp
    (h.map_bare_inlet? (Nat.add_lt_add_right hrow 2))
  have hwired : record.wired = board.wired row := (congrArg Inlet.wired hbare :)
  unfold Graph.inletWired adderInlet
  rw [hrecord, Option.any_some, hwired]

theorem feedsOf (h : Draws draft board) {external : Nat} (hexternal : external < 2) :
    (draft.graph.inlet? (frameInlet external)).map Inlet.feeds =
      some ((board.fed external).map adderInlet) := by
  obtain ⟨record, hrecord, hbare⟩ := Option.map_eq_some_iff.mp
    (h.map_bare_inlet? (Nat.lt_add_left _ hexternal))
  have hfeeds : record.feeds = (board.inlet external).feeds := (congrArg Inlet.feeds hbare :)
  unfold frameInlet
  rw [hrecord, Option.map_some, hfeeds]
  match external with
  | 0 => rfl
  | 1 => rfl

theorem relayOf (h : Draws draft board) {adder : Nat} (hadder : adder < board.count) :
    (draft.graph.outlet? (adderOutlet adder)).bind Outlet.relay =
      if adder ∈ board.relays then some frameOutlet else none := by
  obtain ⟨record, hrecord, hbare⟩ := Option.map_eq_some_iff.mp
    (h.map_bare_outlet? (Nat.add_lt_add_right hadder 1))
  have hrelay : record.relay = (board.outlet (adder + 1)).relay :=
    (congrArg Outlet.relay hbare :)
  unfold adderOutlet
  rw [hrecord, Option.bind_some, hrelay]
  rfl

/-- Two pins share a cell just when the wires of the board join them. -/
theorem shares_iff (h : Draws draft board) {port other : Port} (hport : Pin board.count port) :
    (∃ cell, draft.graph.portCell? port = some cell ∧ draft.graph.portCell? other = some cell) ↔
      Relation.EqvGen board.Wire port other := by
  obtain ⟨cell, hcell⟩ := h.exists_cell hport
  rw [← h.woven.portCell?_eq_iff hcell]
  constructor
  · rintro ⟨shared, hshared, hother⟩
    exact hshared.trans hother.symm
  · exact fun hsame => ⟨cell, hcell, hsame.symm.trans hcell⟩

/-! ### Single directives -/

/-- An edge of the data matrix wires its adder into its row. -/
theorem link (h : Draws draft board) {row adder : Nat} (hrow : row < 2 * board.count)
    (hadder : adder < board.count) (name : String) :
    Draws (draft.rewire ⟨0⟩ name (linkDirective (row, adder)))
      { board with links := board.links ++ [(row, adder)] } := by
  have hresolve := resolve_linkDirective name hrow hadder
  rw [← h.resolve] at hresolve
  have hgraph : (draft.rewire ⟨0⟩ name (linkDirective (row, adder))).graph =
      draft.graph.connect (adderInlet row) (adderOutlet adder) := Draft.graph_rewire hresolve
  have hin : Pin board.count (.inlet (adderInlet row)) := ⟨Nat.le_add_left 2 row, by
    change row + 2 < _
    omega⟩
  have hout : Pin board.count (.outlet (adderOutlet adder)) := Nat.add_lt_add_right hadder 1
  obtain ⟨a, ha⟩ := h.exists_cell hin
  obtain ⟨b, hb⟩ := h.exists_cell hout
  -- Both ports have cells already, so the two cells become one
  refine ⟨?_, ?_, ?_, fun external hexternal => ?_, ?_⟩
  · rw [hgraph, Graph.bare_connect, h.bare]
    exact board.markInlet row adder
  -- The new edge is the new link of the board
  · rw [hgraph]
    refine (h.woven.connect ha hb).congr fun port other => ?_
    simp only [Board.Wire, List.mem_append, List.mem_singleton, Prod.mk.injEq]
    constructor
    · rintro (⟨row', adder', hmem, hport, hother⟩ | ⟨hport, hother⟩)
      · exact ⟨row', adder', .inl hmem, hport, hother⟩
      · exact ⟨row, adder, .inr ⟨rfl, rfl⟩, hport, hother⟩
    · rintro ⟨row', adder', hmem | ⟨rfl, rfl⟩, hport, hother⟩
      · exact .inl ⟨row', adder', hmem, hport, hother⟩
      · exact .inr ⟨hport, hother⟩
  · rw [hgraph]
    exact h.placed.connect h.woven.linked ha hb
  · rw [hgraph, h.woven.linked.portCell?_connect ha hb, h.loose external hexternal]
    exact if_neg (by simp)
  · rw [Draft.issues_rewire hresolve]
    exact h.issues

/-- An edge of the control matrix leads its column to its row. -/
theorem lead (h : Draws draft board) {row column : Nat} (hcolumn : column < 2 * board.count)
    (name : String) :
    Draws (draft.rewire ⟨0⟩ name (leadDirective board.count (row, column)))
      { board with leads := board.leads ++ [(row, column)] } := by
  refine h.rewire_of_same (resolve_leadDirective name hcolumn) ?_ rfl (.of_eq rfl rfl rfl)
  rw [← board.setTarget, ← h.bare]
  rfl

/-- An input feeds its row. -/
theorem feed (h : Draws draft board) {row external : Nat} (hrow : row < 2 * board.count)
    (hexternal : external < 2) (hnew : (row, external) ∉ board.feeds) (name : String) :
    Draws (draft.rewire ⟨0⟩ name (feedDirective (row, external)))
      { board with feeds := board.feeds ++ [(row, external)] } := by
  have hin : Pin board.count (.inlet (adderInlet row)) := ⟨Nat.le_add_left 2 row, by
    change row + 2 < _
    omega⟩
  obtain ⟨cell, hcell⟩ := h.exists_cell hin
  refine h.rewire_of_same (resolve_feedDirective name hrow hexternal) ?_ rfl (.feed hcell)
  refine (Graph.bare_feed _ _ _).trans ?_
  rw [h.bare]
  exact board.feed hexternal hnew

/-- The outlet of an adder is relayed to the output. -/
theorem relay (h : Draws draft board) {adder : Nat} (hadder : adder < board.count)
    (name : String) :
    Draws (draft.rewire ⟨0⟩ name (relayDirective adder))
      { board with relays := board.relays ++ [adder] } := by
  have hout : Pin board.count (.outlet frameOutlet) := Nat.succ_pos _
  obtain ⟨cell, hcell⟩ := h.exists_cell hout
  refine h.rewire_of_same (resolve_relayDirective name hadder) ?_ rfl (.relay hcell)
  refine (Graph.bare_relay _ _ _).trans ?_
  rw [h.bare]
  exact board.relay adder

/-- The token is let in at an adder. -/
theorem first (h : Draws draft board) {adder : Nat} (hadder : adder < board.count)
    (name : String) :
    Draws (draft.rewire ⟨0⟩ name (entryDirective adder))
      { board with firsts := board.firsts ++ [adder] } := by
  refine h.rewire_of_same (resolve_entryDirective name hadder) ?_ rfl (.of_eq rfl rfl rfl)
  rw [← board.setEntry, ← h.bare]
  rfl

/-! ### Lists of directives -/

theorem links (h : Draws draft board) (name : String) (marks : List (Nat × Nat))
    (hmarks : ∀ mark ∈ marks, mark.1 < 2 * board.count ∧ mark.2 < board.count) :
    Draws (draft.rewireAll ⟨0⟩ name (marks.map linkDirective))
      { board with links := board.links ++ marks } := by
  refine Draft.rewireAll_induction (P := fun draft done => Draws draft
    { board with links := board.links ++ done }) marks (by simpa using h)
    fun draft before mark hbefore hdrawn => ?_
  obtain ⟨hrow, hadder⟩ := hmarks mark (hbefore.subset (by simp))
  simpa using hdrawn.link hrow hadder name

theorem leads (h : Draws draft board) (name : String) (marks : List (Nat × Nat))
    (hmarks : ∀ mark ∈ marks, mark.2 < 2 * board.count) :
    Draws (draft.rewireAll ⟨0⟩ name (marks.map (leadDirective board.count)))
      { board with leads := board.leads ++ marks } := by
  refine Draft.rewireAll_induction (P := fun draft done => Draws draft
    { board with leads := board.leads ++ done }) marks (by simpa using h)
    fun draft before mark hbefore hdrawn => ?_
  simpa using hdrawn.lead (hmarks mark (hbefore.subset (by simp))) name

/-- No row is fed from an input twice. -/
theorem feeds (h : Draws draft board) (name : String) (marks : List (Nat × Nat))
    (hmarks : ∀ mark ∈ marks, mark.1 < 2 * board.count ∧ mark.2 < 2)
    (hnodup : (board.feeds ++ marks).Nodup) :
    Draws (draft.rewireAll ⟨0⟩ name (marks.map feedDirective))
      { board with feeds := board.feeds ++ marks } := by
  refine Draft.rewireAll_induction (P := fun draft done => Draws draft
    { board with feeds := board.feeds ++ done }) marks (by simpa using h)
    -- Each mark is drawn onto what the marks before it have left
    fun draft before mark hbefore hdrawn => ?_
  obtain ⟨hrow, hexternal⟩ := hmarks mark (hbefore.subset (by simp))
  have hnew : mark ∉ board.feeds ++ before := by
    have hdistinct : (board.feeds ++ before ++ [mark]).Nodup := by
      rw [List.append_assoc]
      exact hnodup.sublist ((List.append_sublist_append_left _).mpr hbefore.sublist)
    intro hmem
    exact (List.nodup_append.mp hdistinct).2.2 mark hmem mark (List.mem_singleton_self mark) rfl
  simpa using hdrawn.feed hrow hexternal hnew name

theorem relays (h : Draws draft board) (name : String) (adders : List Nat)
    (hadders : ∀ adder ∈ adders, adder < board.count) :
    Draws (draft.rewireAll ⟨0⟩ name (adders.map relayDirective))
      { board with relays := board.relays ++ adders } := by
  refine Draft.rewireAll_induction (P := fun draft done => Draws draft
    { board with relays := board.relays ++ done }) adders (by simpa using h)
    fun draft before adder hbefore hdrawn => ?_
  simpa using hdrawn.relay (hadders adder (hbefore.subset (by simp))) name

theorem firsts (h : Draws draft board) (name : String) (adders : List Nat)
    (hadders : ∀ adder ∈ adders, adder < board.count) :
    Draws (draft.rewireAll ⟨0⟩ name (adders.map entryDirective))
      { board with firsts := board.firsts ++ adders } := by
  refine Draft.rewireAll_induction (P := fun draft done => Draws draft
    { board with firsts := board.firsts ++ done }) adders (by simpa using h)
    fun draft before adder hbefore hdrawn => ?_
  simpa using hdrawn.first (hadders adder (hbefore.subset (by simp))) name

end Draws

/-! ## Making the adders -/

/-- A board before anything is wired. -/
structure Blank (draft : Draft) (count : Nat) : Prop where
  bare : draft.graph.bare = ({ count } : Board).graph
  pristine : draft.graph.Pristine
  placed : draft.graph.PlacedBut IsFrameInlet
  loose : ∀ external < 2, draft.graph.portCell? (.inlet (frameInlet external)) = none
  issues : draft.issues = #[]

namespace Blank

variable {draft : Draft} {count : Nat}

theorem draws (h : Blank draft count) : Draws draft { count } := by
  refine ⟨h.bare, ?_, h.placed, h.loose, h.issues⟩
  exact (Graph.Woven.of_pristine h.pristine).congr fun _ _ => by simp [Board.Wire]

/-- The frame of the network. -/
theorem addComposite :
    Blank { graph := (({} : Graph).addComposite addersIdentifier 2 2 false).2 } 0 := by
  let inlets := (((({} : Graph).addInlet ⟨0⟩).2).addInlet ⟨0⟩).2
  have hinlets : inlets.Pristine :=
    (Graph.Pristine.empty.congr (Graph.portCell?_addInlet _ _) rfl).congr
      (Graph.portCell?_addInlet _ _) rfl
  have hplaced : inlets.PlacedBut IsFrameInlet := by
    rintro (inlet | outlet) hport hfast
    · exact absurd ⟨inlet.index, hport, rfl⟩ hfast
    -- The frame has the two inputs, which have no cells, and its output, which has
    · exact absurd hport (Nat.not_lt_zero _)
  have hsame : (inlets.addOwnOutlet ⟨0⟩).2.SamePorts
      (({} : Graph).addComposite addersIdentifier 2 2 false).2 := .of_eq rfl rfl rfl
  refine ⟨Board.addComposite.2, hsame.pristine (hinlets.addOwnOutlet ⟨0⟩),
    hsame.placedBut (hplaced.addOwnOutlet hinlets.linked ⟨0⟩), fun external hexternal => ?_, rfl⟩
  match external with
  | 0 => rfl
  | 1 => rfl

/-- No adder has had the role of the next one before. -/
theorem part?_eq_none (h : Blank draft count) :
    draft.graph.part? ⟨0⟩ (adderRole count) = none := by
  have hbare : draft.graph.bare.part? ⟨0⟩ (adderRole count) = none := by
    rw [h.bare, Board.part?_root]
    exact if_neg (Nat.lt_irrefl count)
  exact hbare

theorem size_nodes (h : Blank draft count) : draft.graph.nodes.size = count + 3 :=
  (congrArg (fun g : Graph => g.nodes.size) h.bare).trans (size_tabulate _ _)

theorem hasPort_frameInlet (h : Blank draft count) {external : Nat} (hexternal : external < 2) :
    draft.graph.HasPort (.inlet (frameInlet external)) := by
  have hinlets := congrArg (fun g : Graph => g.inlets.size) h.bare
  simp only [Graph.bare, Board.graph, Array.size_map, size_tabulate] at hinlets
  change external < draft.graph.inlets.size
  omega

/-- An adder can be made as long as one more level may be nested. -/
theorem part {library : Library} (h : Blank draft count)
    (hadder : library.get? Primitive.adder.identifier = some (.ofPrimitive .adder))
    (limit levels : Nat) (name : String) :
    ∃ draft', Draft.replay library (growPart library false limit (levels + 1)) ⟨0⟩ name draft
      (adderPart count) = .ok draft' ∧ Blank draft' (count + 1) := by
  obtain ⟨hnode, hbare⟩ := Board.addAdder h.bare
  let grown : Draft :=
    { draft with graph := (draft.graph.addNative .adder Primitive.adder.identifier false).2 }
  have hreplay : Draft.replay library (growPart library false limit (levels + 1)) ⟨0⟩ name draft
      (adderPart count) = .ok (grown.adopt ⟨0⟩ name (adderRole count) (adderNode count)) := by
    rw [← hnode]
    simp only [Draft.replay, adderPart, hadder]
    rfl
  -- The role of the adder is still free when it has been grown
  have hnew : grown.graph.part? ⟨0⟩ (adderRole count) = none := by
    have hroot : (⟨0⟩ : NodeId) ≠ ⟨draft.graph.nodes.size⟩ := by simp [h.size_nodes]
    have hbefore := h.part?_eq_none
    unfold Graph.part? at hbefore ⊢
    rw [draft.graph.node?_addNative, if_neg hroot]
    exact hbefore
  -- So the adder takes it without an issue
  have hadopt : grown.adopt ⟨0⟩ name (adderRole count) (adderNode count) =
      { grown with graph := grown.graph.adopt ⟨0⟩ (adderRole count) (adderNode count) } := by
    unfold Draft.adopt
    rw [hnew]
    rfl
  have hsame : grown.graph.SamePorts (grown.graph.adopt ⟨0⟩ (adderRole count) (adderNode count)) :=
    .of_eq rfl rfl rfl
  have hpristine : grown.graph.Pristine :=
    h.pristine.addNative .adder Primitive.adder.identifier false
  have hplaced : grown.graph.PlacedBut IsFrameInlet :=
    h.placed.addNative h.pristine.linked .adder Primitive.adder.identifier false
  refine ⟨_, hreplay, ?_⟩
  rw [hadopt]
  refine ⟨hbare, hsame.pristine hpristine, hsame.placedBut hplaced, fun external hexternal => ?_,
    h.issues⟩
  -- The inputs of the network are older than the adder
  have hkept : grown.graph.portCell? (.inlet (frameInlet external)) =
      draft.graph.portCell? (.inlet (frameInlet external)) :=
    Graph.portCell?_addNative (h.hasPort_frameInlet hexternal) .adder
      Primitive.adder.identifier false
  rw [hsame.portCell?, hkept]
  exact h.loose external hexternal

theorem parts {library : Library} (h : Blank draft 0)
    (hadder : library.get? Primitive.adder.identifier = some (.ofPrimitive .adder))
    (limit levels : Nat) (name : String) (count : Nat) :
    ∃ draft', Draft.replayAll library (growPart library false limit (levels + 1)) ⟨0⟩ name
      ((List.range count).map adderPart) draft = .ok draft' ∧ Blank draft' count := by
  induction count with
  | zero => exact ⟨draft, rfl, h⟩
  | succ count ih =>
    obtain ⟨before, hbefore, hblank⟩ := ih
    obtain ⟨after, hafter, hgrown⟩ := hblank.part hadder limit levels name
    refine ⟨after, ?_, hgrown⟩
    rw [List.range_succ, List.map_append, Draft.replayAll_append hbefore]
    simp only [List.map_cons, List.map_nil, Draft.replayAll, hafter]

end Blank

/-! ## The whole build -/

variable {n : Nat} {control data : Matrix} {limits : Limits}

/-- The wirings of two matrices draw their board: each list of them draws its marks. -/
theorem Draws.wirings {draft : Draft} (h : Draws draft { count := n }) (name : String)
    (control data : Matrix) :
    Draws (draft.rewireAll ⟨0⟩ name (wirings n control data)) (.ofMatrices n control data) := by
  have hmark : ∀ mark ∈ control.marks (n + 2) (2 * n), mark.2 < 2 * n :=
    fun mark hmem => (mem_marks.mp hmem).2.1
  have hflows := h.leads name ((control.marks (n + 2) (2 * n)).filter fun mark => mark.1 < n)
    fun mark hmem => hmark mark (List.mem_filter.mp hmem).1
  have hlinks := hflows.links name (data.linkMarks n) fun mark hmem =>
    ⟨(mem_linkMarks.mp hmem).1, (mem_linkMarks.mp hmem).2.1⟩
  have hfeeds := hlinks.feeds name (data.feedMarks n)
    (fun mark hmem => ⟨(mem_feedMarks.mp hmem).1, (mem_feedMarks.mp hmem).2.1⟩)
    (nodup_feedMarks data n)
  -- The edges to the outside come after those between adders, so they take precedence
  have hrelays := hfeeds.relays name (data.markedColumns (2 * n) n) fun _ hmem =>
    (mem_positions.mp hmem).1
  have hleaves := hrelays.leads name
    ((control.marks (n + 2) (2 * n)).filter fun mark => ¬ mark.1 < n)
    fun mark hmem => hmark mark (List.mem_filter.mp hmem).1
  have hfirsts := hleaves.firsts name (positions n fun row => control.marked row (2 * n))
    fun _ hmem => (mem_positions.mp hmem).1
  unfold Matrix.wirings
  simp only [Draft.rewireAll_append]
  simp only [List.nil_append, filter_rows_append] at hfirsts
  exact hfirsts

theorem phase_of_mem_wirings {directive : Directive} (h : directive ∈ wirings n control data) :
    directive.phase ≠ .parts := by
  simp only [wirings, List.mem_append, List.mem_map] at h
  rcases h with ((((⟨mark, _, rfl⟩ | ⟨_, _, rfl⟩) | ⟨_, _, rfl⟩) | ⟨_, _, rfl⟩) | ⟨mark, _, rfl⟩) |
    ⟨_, _, rfl⟩
  · rw [phase_leadDirective]
    split <;> simp
  · simp [linkDirective, Directive.phase]
  · simp [feedDirective, Directive.phase]
  · simp [relayDirective, Directive.phase]
  · rw [phase_leadDirective]
    split <;> simp
  · simp [entryDirective, Directive.phase]

/-- Two ports of adders are joined by an edge of the data matrix: the outlet of an adder and the
inlet of a row in which it is marked. -/
def DataEdge (data : Matrix) (n : Nat) (port other : Port) : Prop :=
  ∃ row < 2 * n, ∃ adder < n, data.marked row adder = true ∧
    port = .outlet (adderOutlet adder) ∧ other = .inlet (adderInlet row)

/-- The build of two matrices draws their board. -/
theorem exists_draws (hcontrol : control.length = n + 2) (hcolumns : control.columns = 2 * n + 1)
    (hdata : data.length = 2 * n + 1) (hwide : data.columns = n + 2)
    (hlevels : 1 ≤ limits.nestingLimit) :
    ∃ draft, addersNetwork n control data limits =
        .ok { graph := draft.graph, root := ⟨0⟩, limits, issues := draft.issues } ∧
      Draws draft (.ofMatrices n control data) := by
  let spec := addersSpecification n control data
  have hnew : Library.primitives.contains spec.identifier = false :=
    show Library.primitives.contains addersIdentifier = false by decide
  obtain ⟨library, hadd, hspec, hprimitive⟩ := Library.add_primitives hnew
  obtain ⟨levels, hlevels'⟩ := Nat.exists_eq_add_of_le' hlevels
  -- Parts first: the adders, on a blank board
  obtain ⟨made, hmade, hblank⟩ :=
    Blank.addComposite.parts (hprimitive .adder) limits.nestingLimit levels addersIdentifier n
  -- Then the wirings, which the log has in the order of their phases
  let wired := made.rewireAll ⟨0⟩ addersIdentifier (wirings n control data)
  have hwirings : ∀ directive ∈ wirings n control data, directive.phase ≠ .parts :=
    fun _ => phase_of_mem_wirings
  have hreplayed := (Draft.replayAll_append hmade).trans (Draft.replayAll_of_wirings hwirings)
  have hgrow : Draft.grow library false limits.nestingLimit (levels + 1 + 1) spec 0 {} =
      .ok (⟨0⟩, wired) := by
    rw [← replayOrder_adders hcontrol hcolumns hdata hwide] at hreplayed
    exact Draft.grow_of_replayAll rfl hreplayed
  rw [← hlevels'] at hgrow
  exact ⟨wired, spec.instantiateAlone_of_grow hadd hspec hgrow, hblank.draws.wirings _ _ _⟩

/-- **What the network of two matrices is.**  For any number n of adders, a control matrix of n + 2
rows and 2n + 1 columns and a data matrix of 2n + 1 rows and n + 2 columns the network can be built,
and no directive is skipped.  Cells apart, its graph is the board of the two matrices; that is:

* an exit leaves the network by its second or first exit if the last or the second last row is
  marked in its column, the last row first; else it leads to the last of the adders that are marked,
  and without a mark nowhere;
* the token enters at the last of the adders that are marked in the last column;
* an inlet is wired when its row has a mark, and an input of the network feeds the inlets of the
  rows that are marked in its column;
* the outlet of an adder is relayed to the output when it is marked in the last row.

Two ports of adders share a cell just when a path of data edges joins them, and the inputs of the
network have no cells. -/
theorem addersNetwork_eq_ok (hcontrol : control.length = n + 2)
    (hcolumns : control.columns = 2 * n + 1) (hdata : data.length = 2 * n + 1)
    (hwide : data.columns = n + 2) (hlevels : 1 ≤ limits.nestingLimit) :
    ∃ net, addersNetwork n control data limits = .ok net ∧ net.issues = #[] ∧ net.root = ⟨0⟩ ∧
      net.graph.bare = (Board.ofMatrices n control data).graph ∧
      (∀ column < 2 * n, net.graph.target? (adderExit column) =
        if control.marked (n + 1) column then some (joinEntry 1)
        else if control.marked n column then some (joinEntry 0)
        else (control.lastMarked? n column).map adderEntry) ∧
      net.entry? = (control.lastMarked? n (2 * n)).map adderEntry ∧
      (∀ row < 2 * n, net.graph.inletWired (adderInlet row) = true ↔
        ∃ column < n + 2, data.marked row column = true) ∧
      (∀ external < 2, (net.graph.inlet? (frameInlet external)).map Inlet.feeds =
        some ((positions (2 * n) fun row => data.marked row (n + external)).map adderInlet)) ∧
      (∀ adder < n, (net.graph.outlet? (adderOutlet adder)).bind Outlet.relay =
        if data.marked (2 * n) adder then some frameOutlet else none) ∧
      (∀ port other, Pin n port → Pin n other →
        ((∃ cell, net.graph.portCell? port = some cell ∧ net.graph.portCell? other = some cell) ↔
          Relation.EqvGen (DataEdge data n) port other)) ∧
      ∀ external < 2, net.graph.portCell? (.inlet (frameInlet external)) = none := by
  obtain ⟨draft, hbuild, hdraws⟩ := exists_draws hcontrol hcolumns hdata hwide hlevels
  -- The wires of the board are the edges of the data matrix
  have hwire : ∀ port other, (Board.ofMatrices n control data).Wire port other ↔
      DataEdge data n port other := by
    intro port other
    simp only [Board.Wire, Board.ofMatrices, mem_linkMarks, DataEdge]
    constructor
    · rintro ⟨row, adder, ⟨hrow, hadder, hmarked⟩, hport, hother⟩
      exact ⟨row, hrow, adder, hadder, hmarked, hport, hother⟩
    · rintro ⟨row, hrow, adder, hadder, hmarked, hport, hother⟩
      exact ⟨row, adder, ⟨hrow, hadder, hmarked⟩, hport, hother⟩
  have hwires : (Board.ofMatrices n control data).Wire = DataEdge data n :=
    funext fun port => funext fun other => propext (hwire port other)
  refine ⟨_, hbuild, hdraws.issues, rfl, hdraws.bare, fun column hcolumn => ?_, ?_,
    fun row hrow => ?_, fun external hexternal => ?_, fun adder hadder => ?_,
    fun port other hport _ => ?_, hdraws.loose⟩
  -- Each clause reads one field of the board
  · exact (hdraws.target? hcolumn).trans (Board.lead?_ofMatrices hcolumns hcolumn)
  · refine hdraws.rootEntry?.trans (congrArg (Option.map adderEntry) ?_)
    exact (if_pos (show 2 * n < control.columns by omega)).symm
  · exact (Bool.eq_iff_iff.mp (hdraws.inletWired hrow)).trans (Board.wired_ofMatrices hrow)
  · refine (hdraws.feedsOf hexternal).trans ?_
    rw [Board.fed_ofMatrices hexternal]
  · refine (hdraws.relayOf hadder).trans (if_congr ?_ rfl rfl)
    exact mem_positions.trans (and_iff_right hadder)
  · rw [← hwires]
    exact hdraws.shares_iff hport

/-- The control matrix of two adders: the first exit of the first adder is marked to lead to the
second adder and to leave the network, and the token may enter at either. -/
def crossedControl : Matrix := [[0, 1, 0, 0, 1], [1, 0, 0, 0, 1], [0, 0, 1, 1, 0], [1, 0, 0, 0, 0]]

/-- The data matrix of two adders, each of which is wired into the other. -/
def crossedData : Matrix := [[0, 1, 0, 0], [0, 0, 1, 0], [1, 0, 0, 0], [0, 1, 0, 1], [1, 0, 0, 0]]

/-- The first exit leaves the network, the token enters at the second adder, and the outlet of the
second adder shares a cell with the first inlet of the first. -/
theorem addersNetwork_crossed : crossedControl.length = 4 ∧ crossedControl.columns = 5 ∧
    crossedData.length = 5 ∧ crossedData.columns = 4 ∧ 1 ≤ ({} : Limits).nestingLimit ∧
    ∃ net, addersNetwork 2 crossedControl crossedData {} = .ok net ∧ net.issues = #[] ∧
      net.graph.target? (adderExit 0) = some (joinEntry 1) ∧
      net.graph.target? (adderExit 1) = some (adderEntry 0) ∧
      net.entry? = some (adderEntry 1) ∧
      net.graph.inletWired (adderInlet 1) = true ∧
      ∃ cell, net.graph.portCell? (.outlet (adderOutlet 1)) = some cell ∧
        net.graph.portCell? (.inlet (adderInlet 0)) = some cell := by
  have hlevels : 1 ≤ ({} : Limits).nestingLimit := by decide
  obtain ⟨net, hbuild, hissues, _, _, htarget, hentry, hwired, _, _, hshares, _⟩ :=
    addersNetwork_eq_ok (show crossedControl.length = 2 + 2 from rfl) rfl
      (show crossedData.length = 2 * 2 + 1 from rfl) rfl hlevels
  refine ⟨rfl, rfl, rfl, rfl, hlevels, net, hbuild, hissues, (htarget 0 (by decide)).trans rfl,
    (htarget 1 (by decide)).trans rfl, hentry.trans rfl,
    (hwired 1 (by decide)).mpr ⟨2, by decide, rfl⟩, ?_⟩
  -- The data matrix marks that edge, and both pins are on the board
  refine (hshares _ _ ?_ ?_).mpr (.rel _ _ ⟨0, by decide, 1, by decide, rfl, rfl, rfl⟩)
  · exact Nat.lt_succ_self 2
  · exact ⟨Nat.le_refl 2, by decide⟩

end Matrix

end TokenNet
