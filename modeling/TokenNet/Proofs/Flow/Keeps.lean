import TokenNet.Proofs.Flow.Values

/-!
# Use keeps the wiring

Writing inlets and running a network leave its wiring alone: every port keeps its cell, and the
only new cells are those that ports without a cell get when they are written.  Nobody else shares
such a cell, so it feeds what its port feeds and nothing feeds it.  What a later write reaches can
therefore be read off the graph before all use.

This takes that what is written inside has a cell from the start: in a *tight* graph every inlet
that is fed and every outlet to which another is relayed has one.

## Main statements

- `Keeps.mem_reached`: a write reaches the same cells before and after use.
- `Keeps.shows_writeOutlet`, `Keeps.shows_writeInlet`: what ports show after a write, said in terms
  of the graph before all use.
-/

namespace TokenNet.Graph

/-! ## The relation -/

/-- The second graph is the first after some use. -/
structure Keeps (graph graph' : Graph) : Prop where
  bare : graph'.bare = graph.bare
  linked : graph'.Linked
  kept : ∀ {port cell}, graph.portCell? port = some cell → graph'.portCell? port = some cell
  lonely : ∀ {port cell}, graph.portCell? port = none → graph'.portCell? port = some cell →
    ∀ other, graph'.portCell? other = some cell → other = port

/-- Ports that are written through others have cells. -/
structure Tight (graph : Graph) : Prop where
  fed : ∀ record ∈ graph.inlets.toList, ∀ inner ∈ record.feeds, (graph.inletCell? inner).isSome
  relayed : ∀ record ∈ graph.outlets.toList, ∀ outer ∈ record.relay,
    (graph.outletCell? outer).isSome

namespace Tight

variable {graph : Graph}

theorem exists_cell (h : graph.Tight) {inlet : InletId} {record : Inlet}
    (hrecord : graph.inlet? inlet = some record) {inner : InletId} (hinner : inner ∈ record.feeds) :
    ∃ cell, graph.inletCell? inner = some cell := by
  have hmem : record ∈ graph.inlets := Array.mem_of_getElem? hrecord
  exact Option.isSome_iff_exists.mp (h.fed record hmem.val inner hinner)

theorem exists_cell_of_mem_relays (h : graph.Tight) : ∀ (bound : Nat) (outlet : OutletId),
    ∀ outer ∈ graph.relays bound outlet, ∃ cell, graph.outletCell? outer = some cell
  | 0, _, _, houter => by simp [Graph.relays] at houter
  | bound + 1, outlet, outer, houter => by
    unfold Graph.relays at houter
    split at houter
    next => simp at houter
    next next hnext =>
      obtain ⟨record, hrecord, hrelay⟩ := Option.bind_eq_some_iff.mp hnext
      have hmem : record ∈ graph.outlets := Array.mem_of_getElem? hrecord
      -- The next output has a cell because it is relayed to, the later ones by the recursion
      rcases List.mem_cons.mp houter with rfl | hlater
      · exact Option.isSome_iff_exists.mp (h.relayed record hmem.val outer hrelay)
      · split at hlater
        · exact h.exists_cell_of_mem_relays bound next outer hlater
        · simp at hlater

/-- A chain of relays that begins with a cell has cells all along. -/
theorem exists_cell_of_mem_relayChain (h : graph.Tight) {outlet : OutletId} {own : CellId}
    (hown : graph.outletCell? outlet = some own) :
    ∀ outer ∈ graph.relayChain outlet, ∃ cell, graph.outletCell? outer = some cell := by
  intro outer houter
  rcases List.mem_cons.mp houter with rfl | hlater
  · exact ⟨own, hown⟩
  · exact h.exists_cell_of_mem_relays _ outlet outer hlater

end Tight

/-- The cells that ports share. -/
def Used (graph : Graph) (cell : CellId) : Prop :=
  ∃ port, graph.portCell? port = some cell

namespace Keeps

variable {graph graph' : Graph}

theorem refl (h : graph.Linked) : graph.Keeps graph :=
  ⟨rfl, h, fun h => h, fun hnone hsome => by rw [hnone] at hsome; cases hsome⟩

/-! ## What stays -/

theorem node? (h : graph.Keeps graph') : graph'.node? = graph.node? := by
  have hnodes : graph'.nodes = graph.nodes := (congrArg Graph.nodes h.bare :)
  funext node
  unfold Graph.node?
  rw [hnodes]

theorem interface? (h : graph.Keeps graph') : graph'.interface? = graph.interface? := by
  funext node
  unfold Graph.interface?
  rw [h.node?]

theorem admitted? (h : graph.Keeps graph') : graph'.admitted? = graph.admitted? := by
  have hentries : graph'.entries = graph.entries := (congrArg Graph.entries h.bare :)
  funext entry
  unfold Graph.admitted?
  rw [hentries]

theorem target? (h : graph.Keeps graph') : graph'.target? = graph.target? := by
  have hexits : graph'.exits = graph.exits := (congrArg Graph.exits h.bare :)
  funext exit
  unfold Graph.target? Graph.exit?
  rw [hexits]

theorem map_bare_inlet? (h : graph.Keeps graph') (inlet : InletId) :
    (graph'.inlet? inlet).map Inlet.bare = (graph.inlet? inlet).map Inlet.bare := by
  have hinlets : graph'.inlets.map Inlet.bare = graph.inlets.map Inlet.bare :=
    (congrArg Graph.inlets h.bare :)
  unfold Graph.inlet?
  rw [← Array.getElem?_map, ← Array.getElem?_map, hinlets]

theorem bare_outlets (h : graph.Keeps graph') : graph'.bare.outlets = graph.bare.outlets :=
  (congrArg Graph.outlets h.bare :)

theorem inletWired (h : graph.Keeps graph') : graph'.inletWired = graph.inletWired := by
  funext inlet
  have hwired : ∀ record : Option Inlet, record.any Inlet.wired =
      (record.map Inlet.bare).any Inlet.wired := by
    intro record
    cases record <;> rfl
  unfold Graph.inletWired
  rw [hwired, h.map_bare_inlet?, ← hwired]

theorem inlets_size (h : graph.Keeps graph') : graph'.inlets.size = graph.inlets.size := by
  have hsize := congrArg (fun g => g.inlets.size) h.bare
  simpa only [Graph.bare, Array.size_map] using hsize

/-- What an inlet feeds are inlets with cells, so it feeds the same cells. -/
theorem fedCells (h : graph.Keeps graph') (htight : graph.Tight) :
    graph'.fedCells = graph.fedCells := by
  funext inlet
  have hbare := h.map_bare_inlet? inlet
  unfold Graph.fedCells
  cases hrecord : graph.inlet? inlet with
  | none =>
    rw [hrecord, Option.map_none, Option.map_eq_none_iff] at hbare
    rw [hbare]
  | some record =>
    rw [hrecord] at hbare
    obtain ⟨record', hrecord', hsame⟩ := Option.map_eq_some_iff.mp hbare
    have hfeeds : record'.feeds = record.feeds := (congrArg Inlet.feeds hsame :)
    simp only [hrecord', hfeeds]
    -- The inner inputs of a tight graph have cells already, and these are kept
    apply List.filterMap_congr
    intro inner hinner
    obtain ⟨cell, hcell⟩ := htight.exists_cell hrecord hinner
    rw [hcell]
    exact h.kept (show graph.portCell? (.inlet inner) = some cell from hcell)

/-! ## Reached cells -/

/-- A cell in use before is shared by the same ports. -/
theorem portCell?_eq_some_iff (h : graph.Keeps graph') {cell : CellId} (hused : graph.Used cell)
    (port : Port) : graph'.portCell? port = some cell ↔ graph.portCell? port = some cell := by
  constructor
  · intro hport
    cases hold : graph.portCell? port with
    | some old => rw [← h.kept hold, hport]
    | none =>
      obtain ⟨sharer, hsharer⟩ := hused
      have hsame := h.lonely hold hport sharer (h.kept hsharer)
      rw [← hsame, hsharer] at hold
      cases hold
  · exact h.kept

theorem pours_iff (h : graph.Keeps graph') (htight : graph.Tight) {a b : CellId}
    (hused : graph.Used a) : graph'.Pours a b ↔ graph.Pours a b := by
  unfold Pours
  rw [h.fedCells htight]
  apply exists_congr
  intro inlet
  exact and_congr_left fun _ => h.portCell?_eq_some_iff hused (.inlet inlet)

end Keeps

theorem Pours.used {graph : Graph} {a b : CellId} (h : graph.Pours a b) : graph.Used b := by
  obtain ⟨_, _, hfed⟩ := h
  obtain ⟨_, _, inner, _, hinner⟩ := mem_fedCells.mp hfed
  exact ⟨.inlet inner, hinner⟩

theorem Linked.used_of_mem_reached {graph : Graph} (h : graph.Linked) {a b : CellId}
    (hused : graph.Used a) (hb : b ∈ graph.reached a) : graph.Used b := by
  rcases (Relation.ReflTransGen.cases_tail (h.mem_reached.mp hb)) with hsame | ⟨_, _, hstep⟩
  · rw [hsame]
    exact hused
  · exact hstep.used

namespace Keeps

variable {graph graph' : Graph}

/-- **A write to a cell in use before reaches the same cells.** -/
theorem mem_reached (h : graph.Keeps graph') (hlinked : graph.Linked) (htight : graph.Tight)
    {a b : CellId} (hused : graph.Used a) : b ∈ graph'.reached a ↔ b ∈ graph.reached a := by
  rw [h.linked.mem_reached, hlinked.mem_reached]
  -- The cells on a path are used all along it, so the pouring is the same there
  constructor
  · intro hpath
    induction hpath with
    | refl => exact .refl
    | tail _ hstep ih =>
      have hmid := hlinked.used_of_mem_reached hused (hlinked.mem_reached.mpr ih)
      exact ih.tail ((h.pours_iff htight hmid).mp hstep)
  · intro hpath
    induction hpath with
    | refl => exact .refl
    | tail hfirst hstep ih =>
      have hmid := hlinked.used_of_mem_reached hused (hlinked.mem_reached.mpr hfirst)
      exact ih.tail ((h.pours_iff htight hmid).mpr hstep)

/-- The same ports touch cells that were in use before. -/
theorem touches_eq (h : graph.Keeps graph') {cells cells' : List CellId}
    (hsame : ∀ cell, cell ∈ cells' ↔ cell ∈ cells) (hused : ∀ cell ∈ cells, graph.Used cell)
    (port : Port) : graph'.touches cells' port = graph.touches cells port := by
  rw [Bool.eq_iff_iff, touches_iff, touches_iff]
  apply exists_congr
  intro cell
  rw [hsame]
  exact and_congr_right fun hcell => h.portCell?_eq_some_iff (hused cell hcell) port

/-! ## Writes -/

theorem writeCells (h : graph.Keeps graph') (cells : List CellId) (value : Value) :
    graph.Keeps (graph'.writeCells cells value) where
  bare := (bare_writeCells cells graph' value).trans h.bare
  linked := h.linked.writeCells value cells
  kept hport := by
    rw [portCell?_writeCells]
    exact h.kept hport
  lonely hnone hport other hother := by
    rw [portCell?_writeCells] at hport hother
    exact h.lonely hnone hport other hother

theorem relayChain (h : graph.Keeps graph') (outlet : OutletId) :
    graph'.relayChain outlet = graph.relayChain outlet :=
  congrFun (relayChain_of_eq h.bare_outlets) outlet

theorem outletCell?_of_mem_relayChain (h : graph.Keeps graph') (htight : graph.Tight)
    {outlet : OutletId} {own : CellId} (hown : graph.outletCell? outlet = some own) :
    ∀ outer ∈ graph'.relayChain outlet, ∃ cell, graph'.outletCell? outer = some cell := by
  intro outer houter
  rw [h.relayChain] at houter
  obtain ⟨cell, hcell⟩ := htight.exists_cell_of_mem_relayChain hown outer houter
  exact ⟨cell, h.kept (show graph.portCell? (.outlet outer) = some cell from hcell)⟩

/-- Writing an outlet reaches the same cells, and all of them were in use before. -/
theorem mem_outward (h : graph.Keeps graph') (hlinked : graph.Linked) (htight : graph.Tight)
    {outlet : OutletId} {own : CellId} (hown : graph.outletCell? outlet = some own)
    (cell : CellId) : (cell ∈ graph'.outward outlet ↔ cell ∈ graph.outward outlet) ∧
      (cell ∈ graph.outward outlet → graph.Used cell) := by
  have hchain := htight.exists_cell_of_mem_relayChain hown
  have hmem : ∀ {outer}, outer ∈ graph.relayChain outlet →
      (cell ∈ graph'.ownOutward outer ↔ cell ∈ graph.ownOutward outer) ∧
        (cell ∈ graph.ownOutward outer → graph.Used cell) := by
    intro outer houter
    obtain ⟨first, hfirst⟩ := hchain outer houter
    have hused : graph.Used first := ⟨.outlet outer, hfirst⟩
    have hfirst' : graph'.outletCell? outer = some first :=
      h.kept (show graph.portCell? (.outlet outer) = some first from hfirst)
    simp only [ownOutward, hfirst, hfirst', Option.map_some, Option.getD_some]
    exact ⟨h.mem_reached hlinked htight hused, hlinked.used_of_mem_reached hused⟩
  unfold outward
  rw [h.relayChain, List.mem_flatMap, List.mem_flatMap]
  -- The same outputs lie on the chain, and from each of them the same cells are reached
  constructor
  · apply exists_congr
    intro outer
    exact and_congr_right fun houter => (hmem houter).1
  · rintro ⟨outer, houter, hcell⟩
    exact (hmem houter).2 hcell

/-- **Writing an outlet shows where it did before all use.** -/
theorem shows_writeOutlet (h : graph.Keeps graph') (hlinked : graph.Linked) (htight : graph.Tight)
    {outlet : OutletId} {own : CellId} (hown : graph.outletCell? outlet = some own)
    (value : Value) (port : Port) : (graph'.writeOutlet outlet value).shows port =
      if graph.touches (graph.outward outlet) port then value else graph'.shows port := by
  have hmem := h.mem_outward hlinked htight hown
  rw [Graph.shows_writeOutlet h.linked (h.outletCell?_of_mem_relayChain htight hown),
    h.touches_eq (fun cell => (hmem cell).1) fun cell => (hmem cell).2]

theorem writeOutlet (h : graph.Keeps graph') (htight : graph.Tight) {outlet : OutletId}
    {own : CellId} (hown : graph.outletCell? outlet = some own) (value : Value) :
    graph.Keeps (graph'.writeOutlet outlet value) := by
  rw [writeOutlet_eq (h.outletCell?_of_mem_relayChain htight hown)]
  exact h.writeCells _ value

/-! ## Written inlets -/

/-- A port that gets its first cell shares it with nobody, and shows zero as before. -/
theorem ensure (h : graph.Keeps graph') {port : Port} (hport : graph'.HasPort port)
    (hloose : graph.portCell? port = none) : graph.Keeps (graph'.ensure port).2 ∧
      (graph'.ensure port).2.portCell? port = some (graph'.ensure port).1 ∧
      (graph'.ensure port).2.shows = graph'.shows := by
  cases hcell : graph'.portCell? port with
  | some cell =>
    rw [ensure_of_some hcell]
    exact ⟨h, hcell, rfl⟩
  | none =>
    -- The port gets a new cell
    have hlinked := h.linked.ensure hport
    have hbare := bare_ensure graph' port
    rw [ensure_of_none hcell] at hlinked hbare ⊢
    have hfresh := cell?_addCell_fst h.linked.sound 0
    have hadded : (graph'.addCell 0).2.HasPort port := by cases port <;> exact hport
    -- The new cell is none of those that ports had before
    have hother : ∀ other, graph'.portCell? other ≠ some (graph'.addCell 0).1 := by
      intro other hsome
      obtain ⟨record, hrecord⟩ := h.linked.live hsome
      rw [hfresh] at hrecord
      cases hrecord
    have hcells : ∀ other, ((graph'.addCell 0).2.attach port (graph'.addCell 0).1).portCell? other =
        if other = port then some (graph'.addCell 0).1 else graph'.portCell? other := by
      intro other
      rw [portCell?_attach hadded, portCell?_addCell]
    refine ⟨⟨hbare.trans h.bare, hlinked, ?_, ?_⟩, ?_, ?_⟩
    · intro other cell hkept
      rw [hcells, if_neg]
      · exact h.kept hkept
      · rintro rfl
        rw [hloose] at hkept
        cases hkept
    · intro first cell hnone hfirst other hsame
      rw [hcells] at hfirst hsame
      split at hfirst
      next hnew =>
        split at hsame
        next hnew' => rw [hnew, hnew']
        next => exact absurd (hsame.trans hfirst.symm) (hother other)
      next =>
        split at hsame
        next => exact absurd (hfirst.trans hsame.symm) (hother first)
        next => exact h.lonely hnone hfirst other hsame
    -- A port shows what it did, and the new cell holds the zero that was shown without one
    · rw [hcells, if_pos rfl]
    · funext other
      unfold shows portValue? cellValue?
      rw [hcells]
      split
      next hnew => simp [hnew, hcell, cell?_attach, cell?_addCell h.linked.sound]
      next =>
        cases hold : graph'.portCell? other with
        | none => rfl
        | some cell =>
          have hne : cell ≠ (graph'.addCell 0).1 := fun hsame => hother other (hsame ▸ hold)
          simp [cell?_attach, cell?_addCell h.linked.sound, hne]

end Keeps

/-- The cells that writing an inlet reaches, besides its own. -/
def inward (graph : Graph) (inlet : InletId) : List CellId :=
  (graph.fedCells inlet).flatMap graph.reached

theorem used_of_mem_fedCells {graph : Graph} {inlet : InletId} {cell : CellId}
    (h : cell ∈ graph.fedCells inlet) : graph.Used cell := by
  obtain ⟨_, _, inner, _, hinner⟩ := mem_fedCells.mp h
  exact ⟨.inlet inner, hinner⟩

namespace Keeps

variable {graph graph' : Graph}

/-- A cell that only one inlet shares is fed from nowhere, and feeds what the inlet feeds. -/
theorem mem_reached_of_lonely (h : graph.Keeps graph') (hlinked : graph.Linked)
    (htight : graph.Tight) {inlet : InletId} {own : CellId}
    (hloose : graph.portCell? (.inlet inlet) = none)
    (hown : graph'.portCell? (.inlet inlet) = some own) (cell : CellId) :
    cell ∈ graph'.reached own ↔ cell = own ∨ cell ∈ graph.inward inlet := by
  -- Only the input itself has that cell, so its bridges are all that leave it
  have hpours : ∀ a, graph'.Pours own a ↔ a ∈ graph.fedCells inlet := by
    intro a
    unfold Pours
    rw [h.fedCells htight]
    constructor
    · rintro ⟨reader, hreader, hfed⟩
      have hsame := h.lonely hloose hown (.inlet reader) hreader
      rw [← Port.inlet.inj hsame]
      exact hfed
    · intro hfed
      exact ⟨inlet, hown, hfed⟩
  rw [h.linked.mem_reached, Relation.ReflTransGen.cases_head_iff]
  apply or_congr eq_comm
  unfold inward
  rw [List.mem_flatMap]
  apply exists_congr
  intro a
  rw [hpours]
  apply and_congr_right
  intro hfed
  rw [← h.linked.mem_reached, h.mem_reached hlinked htight (used_of_mem_fedCells hfed)]

/-- The ports that writing a lonely cell shows at: its own, and those fed from it. -/
theorem touches_of_lonely (h : graph.Keeps graph') (hlinked : graph.Linked)
    (htight : graph.Tight) {inlet : InletId} {own : CellId}
    (hloose : graph.portCell? (.inlet inlet) = none)
    (hown : graph'.portCell? (.inlet inlet) = some own) (port : Port) :
    graph'.touches (graph'.reached own) port =
      (decide (port = .inlet inlet) || graph.touches (graph.inward inlet) port) := by
  rw [Bool.eq_iff_iff, Bool.or_eq_true, decide_eq_true_eq, touches_iff, touches_iff]
  have hreached := h.mem_reached_of_lonely hlinked htight hloose hown
  have hfed : ∀ cell ∈ graph.inward inlet, graph'.portCell? port = some cell ↔
      graph.portCell? port = some cell := by
    intro cell hcell
    obtain ⟨first, hfirst, hlater⟩ := List.mem_flatMap.mp hcell
    exact h.portCell?_eq_some_iff
      (hlinked.used_of_mem_reached (used_of_mem_fedCells hfirst) hlater) port
  -- A touched port has the cell of the input, hence is the input, or a cell further in
  constructor
  · rintro ⟨cell, hcell, hport⟩
    rcases (hreached cell).mp hcell with rfl | hin
    · exact .inl (h.lonely hloose hown port hport)
    · exact .inr ⟨cell, hin, (hfed cell hin).mp hport⟩
  · rintro (rfl | ⟨cell, hin, hport⟩)
    · exact ⟨own, (hreached own).mpr (.inl rfl), hown⟩
    · exact ⟨cell, (hreached cell).mpr (.inr hin), (hfed cell hin).mpr hport⟩

/-- **Writing an inlet that had no cell shows at the inlet and where the inlet feeds.** -/
theorem shows_writeInlet (h : graph.Keeps graph') (hlinked : graph.Linked) (htight : graph.Tight)
    {inlet : InletId} (hinlet : graph'.HasPort (.inlet inlet))
    (hloose : graph.portCell? (.inlet inlet) = none) (value : Value) (port : Port) :
    (graph'.writeInlet inlet value).shows port =
      if decide (port = .inlet inlet) || graph.touches (graph.inward inlet) port then value
      else graph'.shows port := by
  obtain ⟨hkeeps, hown, hshows⟩ := h.ensure hinlet hloose
  have hwrite := shows_setValue hkeeps.linked (graph'.ensure (.inlet inlet)).1 value port
  rw [hkeeps.touches_of_lonely hlinked htight hloose hown, hshows] at hwrite
  exact hwrite

theorem writeInlet (h : graph.Keeps graph') {inlet : InletId}
    (hinlet : graph'.HasPort (.inlet inlet)) (hloose : graph.portCell? (.inlet inlet) = none)
    (value : Value) : graph.Keeps (graph'.writeInlet inlet value) :=
  (h.ensure hinlet hloose).1.writeCells _ value

end Keeps

end TokenNet.Graph
