import TokenNet.Proofs.Flow.Pristine
import TokenNet.Proofs.Matrix.Shape

/-!
# Strips of bits

The *wires* of a strip of bits are the cells of its ports and what they show.  When a bit is wired
to itself its inlet and its outlet share a cell, so that a write to one of them shows at both; no
other ports share one.  A *strip* is a graph of the right shape with the right wires.

## Main statements

- `Wires.connect`: how a bit is wired to itself.
- `Wires.write`: how what a bit shows changes.
-/

namespace TokenNet.Matrix

/-! ## Wires -/

/-- The number of a port along a strip.  The inlet and the outlet of a bit have the same, and the
outlet of the frame has zero. -/
def track : Port → Nat
  | .inlet inlet => inlet.index + 1
  | .outlet outlet => outlet.index

/-- The cells of a strip whose first bits are wired to themselves: such a bit has one cell for its
inlet and its outlet, and all other ports have cells of their own. -/
structure Wires (graph : Graph) (looped : Nat) (toggles : Toggles) : Prop where
  linked : graph.Linked
  placed : graph.Placed
  shared : ∀ {port cell}, graph.portCell? port = some cell → ∀ other,
    graph.portCell? other = some cell ↔ graph.HasPort other ∧
      (other = port ∨ track other = track port ∧ track port ≤ looped)
  shows : ∀ port, graph.HasPort port → ∀ bit, track port = bit + 1 →
    graph.shows port = toggles.bits bit

namespace Wires

variable {graph graph' : Graph} {looped bit : Nat} {toggles : Toggles}

/-- Before the first bit is wired to itself nothing is shared. -/
theorem of_pristine (h : graph.Pristine) (hplaced : graph.Placed)
    (hbits : ∀ bit, toggles.bits bit = 0) : Wires graph 0 toggles := by
  refine ⟨h.linked, hplaced, fun {port cell} hcell other => ⟨fun hother => ?_, ?_⟩, ?_⟩
  -- Each pin has a cell of its own, and shares it with nobody
  · exact ⟨Graph.hasPort_of_portCell? hother, .inl (h.apart hcell hother)⟩
  · rintro ⟨_, rfl | ⟨hsame, hzero⟩⟩
    · exact hcell
    · -- Only the outlet of the frame has number zero
      have hport : port = other := by
        cases port with
        | inlet inlet => exact absurd hzero (Nat.not_succ_le_zero _)
        | outlet outlet =>
          cases other with
          | inlet inlet => exact absurd (hsame.trans_le hzero) (Nat.not_succ_le_zero _)
          | outlet found =>
            exact congrArg (fun index => Port.outlet ⟨index⟩) hsame.symm
      rw [← hport]
      exact hcell
  · intro port _ bit _
    rw [h.shows, hbits]

/-- Wires concern the data ports and their cells only. -/
theorem of_same (h : Wires graph looped toggles) (hsame : graph.SamePorts graph') :
    Wires graph' looped toggles := by
  -- The ports are the same, and so are their cells and values
  have hports : ∀ port, graph'.HasPort port ↔ graph.HasPort port := by
    refine fun port => ⟨hsame.ports port, fun hport => ?_⟩
    obtain ⟨cell, hcell⟩ := h.placed port hport
    exact Graph.hasPort_of_portCell? ((hsame.portCell? port).trans hcell)
  refine ⟨h.linked.congr hsame.portCell? hsame.cells, hsame.placed h.placed, ?_, ?_⟩
  · intro port cell hcell other
    rw [hsame.portCell?] at hcell ⊢
    rw [hports]
    exact h.shared hcell other
  · intro port hport bit hbit
    rw [hsame.shows]
    exact h.shows port ((hports port).mp hport) bit hbit

/-- The ports of a bit that is not yet wired to itself. -/
theorem hasPort_iff_of_track (hin : graph.HasPort (.inlet (bitInlet bit)))
    (hout : graph.HasPort (.outlet (bitOutlet bit))) (port : Port) :
    graph.HasPort port ∧ track port = bit + 1 ↔
      port = .inlet (bitInlet bit) ∨ port = .outlet (bitOutlet bit) := by
  constructor
  · rintro ⟨_, htrack⟩
    cases port with
    | inlet inlet =>
      exact .inl (congrArg (fun index => Port.inlet ⟨index⟩) (Nat.succ_inj.mp htrack))
    | outlet outlet => exact .inr (congrArg (fun index => Port.outlet ⟨index⟩) htrack)
  · rintro (rfl | rfl)
    · exact ⟨hin, rfl⟩
    · exact ⟨hout, rfl⟩

/-- Before a bit is wired to itself its two ports have a cell each, which no other port shares. -/
theorem track_eq_iff (h : Wires graph looped toggles) {a b : CellId}
    (ha : graph.portCell? (.inlet (bitInlet looped)) = some a)
    (hb : graph.portCell? (.outlet (bitOutlet looped)) = some b) (port : Port) :
    graph.HasPort port ∧ track port = looped + 1 ↔
      graph.portCell? port = some a ∨ graph.portCell? port = some b := by
  have hin := Graph.hasPort_of_portCell? ha
  have hout := Graph.hasPort_of_portCell? hb
  rw [hasPort_iff_of_track hin hout, h.shared ha, h.shared hb]
  -- The track behind the looped ones has two pins, the input of the bit and its output
  constructor
  · rintro (rfl | rfl)
    · exact .inl ⟨hin, .inl rfl⟩
    · exact .inr ⟨hout, .inl rfl⟩
  · rintro (⟨_, hport | ⟨_, hle⟩⟩ | ⟨_, hport | ⟨_, hle⟩⟩)
    · exact .inl hport
    · exact absurd hle (Nat.not_succ_le_self _)
    · exact .inr hport
    · exact absurd hle (Nat.not_succ_le_self _)

/-- After the cell of the inlet of a bit has been absorbed by that of its outlet, both share it. -/
theorem merge (h : Wires graph looped toggles) {a b : CellId}
    (ha : graph.portCell? (.inlet (bitInlet looped)) = some a)
    (hb : graph.portCell? (.outlet (bitOutlet looped)) = some b) (hne : a ≠ b) :
    Wires (graph.merge a b) (looped + 1) toggles := by
  obtain ⟨old, hold⟩ := h.linked.live ha
  obtain ⟨kept, hkept⟩ := h.linked.live hb
  have hcells := h.linked.portCell?_merge hold b
  have hports : ∀ port, (graph.merge a b).HasPort port ↔ graph.HasPort port := by
    have hbare := Graph.bare_merge graph a b
    exact fun port => ⟨(Graph.Extends.of_bare_eq hbare.symm).hasPort,
      (Graph.Extends.of_bare_eq hbare).hasPort⟩
  have hbit := h.track_eq_iff ha hb
  refine ⟨h.linked.merge hold hkept hne, ?_, ?_, ?_⟩
  · intro port hport
    obtain ⟨cell, hcell⟩ := h.placed port ((hports port).mp hport)
    rw [hcells]
    split
    · exact ⟨b, rfl⟩
    · exact ⟨cell, hcell⟩
  -- The ports of the bit are those that named one of the two cells
  · intro port cell hcell other
    rw [hcells] at hcell ⊢
    rw [hports]
    by_cases hport : graph.portCell? port = some a ∨ graph.portCell? port = some b
    · obtain ⟨_, htrack⟩ := (hbit port).mpr hport
      -- Both of them name the surviving cell now
      have hcell' : cell = b := by
        rcases hport with hport | hport
        · rw [if_pos hport] at hcell
          exact (Option.some.inj hcell).symm
        · rw [hport, if_neg (fun hsame => hne (Option.some.inj hsame).symm)] at hcell
          exact (Option.some.inj hcell).symm
      have hmerged : (if graph.portCell? other = some a then some b else graph.portCell? other) =
          some cell ↔ graph.portCell? other = some a ∨ graph.portCell? other = some b := by
        rw [hcell']
        split
        next hsame => simp [hsame]
        next hother => simp [hother]
      rw [hmerged, ← hbit, htrack]
      refine and_congr_right fun _ => ⟨fun hsame => .inr ⟨hsame, Nat.le_refl _⟩, ?_⟩
      rintro (rfl | ⟨hsame, _⟩)
      · exact htrack
      · exact hsame
    -- A port of another bit names a third cell, and its own bit is as it was
    · obtain ⟨hnota, hnotb⟩ := not_or.mp hport
      rw [if_neg hnota] at hcell
      have hmerged : (if graph.portCell? other = some a then some b else graph.portCell? other) =
          some cell ↔ graph.portCell? other = some cell := by
        split
        next hsame =>
          rw [hsame, ← hcell]
          exact iff_of_false (Ne.symm hnotb) (Ne.symm hnota)
        next => rfl
      have hle : track port ≤ looped ↔ track port ≤ looped + 1 := by
        have htrack : track port ≠ looped + 1 := fun htrack =>
          hport ((hbit port).mp ⟨Graph.hasPort_of_portCell? hcell, htrack⟩)
        omega
      rw [hmerged, h.shared hcell, hle]
  · intro port hport bit hbit
    rw [h.linked.shows_merge hold hne hb]
    have hin := (hports port).mp hport
    split
    next hsame =>
      obtain ⟨_, rfl | ⟨_, hle⟩⟩ := (h.shared ha port).mp hsame
      · exact h.shows _ (Graph.hasPort_of_portCell? hb) bit hbit
      · exact absurd hle (Nat.not_succ_le_self _)
    next => exact h.shows port hin bit hbit

/-- **A bit is wired to itself**: its inlet takes over the cell of its outlet. -/
theorem connect (h : Wires graph looped toggles)
    (hin : graph.HasPort (.inlet (bitInlet looped)))
    (hout : graph.HasPort (.outlet (bitOutlet looped))) :
    Wires (graph.connect (bitInlet looped) (bitOutlet looped)) (looped + 1) toggles := by
  obtain ⟨a, ha⟩ := h.placed _ hin
  obtain ⟨b, hb⟩ := h.placed _ hout
  -- A bit that is not looped yet has no cell in common with itself
  have hne : a ≠ b := by
    rintro rfl
    obtain ⟨_, hsame | ⟨_, hle⟩⟩ := (h.shared ha _).mp hb
    · cases hsame
    · exact absurd hle (Nat.not_succ_le_self _)
  have hunite : graph.unite (bitInlet looped) (bitOutlet looped) = graph.merge a b := by
    unfold Graph.unite
    rw [show graph.inletCell? (bitInlet looped) = some a from ha,
      show graph.outletCell? (bitOutlet looped) = some b from hb]
    exact if_neg hne
  refine of_same ?_ (.markInlet _ _)
  rw [hunite]
  exact h.merge ha hb hne

/-- **A write to the cell of a looped bit changes what the bit shows**, and nothing else. -/
theorem write (h : Wires graph looped toggles) (hflat : graph.Flat) (hloop : bit < looped)
    {port : Port} (htrack : track port = bit + 1) {cell : CellId}
    (hcell : graph.portCell? port = some cell) (value : Value) :
    Wires (graph.writeCells (graph.reached cell) value) looped (toggles.set bit value) := by
  have hbare := Graph.bare_writeCells (graph.reached cell) graph value
  have hports : ∀ port, (graph.writeCells (graph.reached cell) value).HasPort port ↔
      graph.HasPort port := fun port => ⟨(Graph.Extends.of_bare_eq hbare.symm).hasPort,
    (Graph.Extends.of_bare_eq hbare).hasPort⟩
  refine ⟨h.linked.writeCells value _, ?_, ?_, ?_⟩
  · intro other hother
    rw [Graph.portCell?_writeCells]
    exact h.placed other ((hports other).mp hother)
  · intro first own hown other
    rw [Graph.portCell?_writeCells] at hown ⊢
    rw [hports]
    exact h.shared hown other
  · intro other hother found hfound
    have hin := (hports other).mp hother
    -- Only the ports of the written bit see the write
    have htouches : graph.touches (graph.reached cell) other = true ↔ found = bit := by
      rw [Graph.touches_iff]
      simp only [hflat.mem_reached h.linked, exists_eq_left]
      rw [h.shared hcell, htrack, hfound]
      constructor
      · rintro ⟨_, rfl | ⟨hsame, _⟩⟩
        · omega
        · omega
      · rintro rfl
        exact ⟨hin, .inr ⟨rfl, hloop⟩⟩
    rw [Graph.shows_writeCells h.linked, h.shows other hin found hfound]
    change _ = Function.update toggles.bits bit value found
    rw [Function.update_apply]
    exact if_congr htouches rfl rfl

end Wires

/-! ## Strips -/

/-- A strip of bits: its shape and its wires. -/
structure Strip (graph : Graph) (plan : Plan) (looped : Nat) (toggles : Toggles) : Prop where
  shape : Shape graph plan toggles
  wires : Wires graph looped toggles

end TokenNet.Matrix
