import TokenNet.Proofs.Flow.Values

/-!
# Where values come from

Rewiring invents no values.  A class of ports that is united with another keeps one of the two
values, a class that a port leaves keeps its own, and a new cell shows zero.  So all that cells ever
show has been written, or is zero.

## Main statements

- `Draws`: the second graph shows no values but those of the first and given new ones.
- `Draws.connect`, `Draws.detach`: wiring and unwiring bring up nothing but zero.
- `Draws.writeInlet`, `Draws.writeOutlet`: writing brings up nothing but zero and what is written.
-/

namespace TokenNet.Graph

/-- Some cell shows a value. -/
def Contains (graph : Graph) (value : Value) : Prop :=
  ∃ cell, graph.cellValue? cell = some value

/-- What the cells of the second graph show is new or shown by a cell of the first. -/
def Draws (fresh : Value → Prop) (graph graph' : Graph) : Prop :=
  ∀ value, graph'.Contains value → fresh value ∨ graph.Contains value

theorem sound_write {graph : Graph} (h : graph.cells.Sound) (port : Port) (value : Value) :
    ((graph.ensure port).2.setValue (graph.ensure port).1 value).cells.Sound := by
  have hensure : (graph.ensure port).2.cells.Sound := by
    cases hcell : graph.portCell? port with
    | some cell =>
      rw [ensure_of_some hcell]
      exact h
    | none =>
      rw [ensure_of_none hcell]
      exact sound_attach (h.insert { value := 0 }) port _
  rw [setValue_eq]
  generalize (graph.ensure port).2.reached (graph.ensure port).1 = cells
  -- Writing the reached cells one after the other keeps the store sound
  generalize (graph.ensure port).2 = ensured at hensure
  induction cells generalizing ensured with
  | nil => exact hensure
  | cons first rest ih => exact ih _ (hensure.modify first _)

namespace Draws

variable {fresh : Value → Prop} {graph graph' graph'' : Graph}

theorem refl (fresh : Value → Prop) (graph : Graph) : Draws fresh graph graph :=
  fun _ => Or.inr

theorem trans (h : Draws fresh graph graph') (h' : Draws fresh graph' graph'') :
    Draws fresh graph graph'' :=
  fun value hvalue => (h' value hvalue).elim Or.inl (h value)

theorem of_cells_eq (h : graph'.cells = graph.cells) : Draws fresh graph graph' := by
  rintro value ⟨cell, hvalue⟩
  refine Or.inr ⟨cell, ?_⟩
  rwa [cellValue?, cell?, h] at hvalue

/-- Every cell of the second graph is new or shows what some cell of the first shows. -/
theorem of_cell? (h : ∀ cell record', graph'.cell? cell = some record' → fresh record'.value ∨
    ∃ cell record, graph.cell? cell = some record ∧ record.value = record'.value) :
    Draws fresh graph graph' := by
  rintro value ⟨cell, hvalue⟩
  obtain ⟨record', hrecord', rfl⟩ := Option.map_eq_some_iff.mp hvalue
  refine (h cell record' hrecord').imp_right fun ⟨from', record, hrecord, hsame⟩ => ⟨from', ?_⟩
  rw [cellValue?, hrecord, Option.map_some, hsame]

/-- Changes of a cell that keep its value. -/
theorem modifyCell (graph : Graph) (changed : CellId) {change : Cell → Cell}
    (hchange : ∀ record, (change record).value = record.value) :
    Draws fresh graph (graph.modifyCell changed change) := by
  refine of_cell? fun cell record' hrecord' => Or.inr ⟨cell, ?_⟩
  rw [cell?_modifyCell] at hrecord'
  -- The changed cell holds what it did
  split at hrecord'
  · obtain ⟨record, hrecord, rfl⟩ := Option.map_eq_some_iff.mp hrecord'
    exact ⟨record, hrecord, (hchange record).symm⟩
  · exact ⟨record', hrecord', rfl⟩

theorem attach (graph : Graph) (port : Port) (cell : CellId) :
    Draws fresh graph (graph.attach port cell) := by
  rw [attach_eq]
  exact (modifyCell graph cell fun record => record.value_join port).trans
    (of_cells_eq (cells_assign _ _ _))

theorem addCell (hsound : graph.cells.Sound) (hzero : fresh 0) :
    Draws fresh graph (graph.addCell 0).2 := by
  refine of_cell? fun cell record' hrecord' => ?_
  rw [cell?_addCell hsound] at hrecord'
  split at hrecord'
  · obtain rfl := Option.some.inj hrecord'
    exact Or.inl hzero
  · exact Or.inr ⟨cell, record', hrecord', rfl⟩

theorem ensure (hsound : graph.cells.Sound) (hzero : fresh 0) (port : Port) :
    Draws fresh graph (graph.ensure port).2 := by
  cases hcell : graph.portCell? port with
  | some cell =>
    rw [ensure_of_some hcell]
    exact refl fresh graph
  | none =>
    rw [ensure_of_none hcell]
    exact (addCell hsound hzero).trans (attach _ port _)

/-! ## Wiring -/

theorem merge {absorbed survivor : CellId} {old : Cell} (hold : graph.cell? absorbed = some old)
    (hne : absorbed ≠ survivor) : Draws fresh graph (graph.merge absorbed survivor) := by
  refine of_cell? fun cell record' hrecord' => Or.inr ⟨cell, ?_⟩
  rw [cell?_merge hold hne] at hrecord'
  -- The survivor keeps its value, and the absorbed cell is gone
  split at hrecord'
  · cases hrecord'
  · split at hrecord'
    · obtain ⟨record, hrecord, rfl⟩ := Option.map_eq_some_iff.mp hrecord'
      exact ⟨record, hrecord, rfl⟩
    · exact ⟨record', hrecord', rfl⟩

/-- **Wiring brings up nothing but zero.** -/
theorem connect (hlinked : graph.Linked) (hzero : fresh 0) (inlet : InletId) (outlet : OutletId) :
    Draws fresh graph (graph.connect inlet outlet) := by
  suffices hunite : Draws fresh graph (graph.unite inlet outlet) from
    hunite.trans (of_cells_eq rfl)
  unfold unite
  -- The cases are those of `unite`
  split
  next a b ha hb =>
    split
    next => exact refl fresh graph
    next hne =>
      obtain ⟨old, hold⟩ := hlinked.live (show graph.portCell? (.inlet inlet) = some a from ha)
      exact merge hold hne
  next => exact attach graph (.inlet inlet) _
  next => exact attach graph (.outlet outlet) _
  next =>
    exact (addCell hlinked.sound hzero).trans
      ((attach _ (.inlet inlet) _).trans (attach _ (.outlet outlet) _))

/-- **Unwiring brings up nothing.** -/
theorem detach (graph : Graph) (port : Port) : Draws fresh graph (graph.detach port) := by
  cases hcell : graph.portCell? port with
  | none =>
    rw [detach_of_none hcell]
    exact refl fresh graph
  | some left =>
    refine of_cell? fun cell record' hrecord' => Or.inr ⟨cell, ?_⟩
    rw [cell?_detach hcell] at hrecord'
    split at hrecord'
    -- A cell that is left keeps its value
    · obtain ⟨record, hrecord, rfl⟩ :=
        Option.map_eq_some_iff.mp (Option.filter_eq_some_iff.mp hrecord').1
      exact ⟨record, hrecord, (record.value_leave port).symm⟩
    · exact ⟨record', hrecord', rfl⟩

theorem foldl_disconnectInlet (inlets : List InletId) (graph : Graph) :
    Draws fresh graph (inlets.foldl Graph.disconnectInlet graph) := by
  induction inlets generalizing graph with
  | nil => exact refl fresh graph
  | cons first rest ih => exact (detach graph (.inlet first)).trans (ih _)

/-! ## Writing -/

theorem writeCells (graph : Graph) (cells : List CellId) {value : Value} (hvalue : fresh value) :
    Draws fresh graph (graph.writeCells cells value) := by
  refine of_cell? fun cell record' hrecord' => ?_
  rw [cell?_writeCells] at hrecord'
  split at hrecord'
  · obtain ⟨record, _, rfl⟩ := Option.map_eq_some_iff.mp hrecord'
    exact Or.inl hvalue
  · exact Or.inr ⟨cell, record', hrecord', rfl⟩

/-- **Writing a port brings up nothing but zero and the value written.** -/
theorem write (hsound : graph.cells.Sound) (hzero : fresh 0) (port : Port) {value : Value}
    (hvalue : fresh value) :
    Draws fresh graph ((graph.ensure port).2.setValue (graph.ensure port).1 value) :=
  (ensure hsound hzero port).trans (writeCells _ _ hvalue)

theorem writeInlet (hsound : graph.cells.Sound) (hzero : fresh 0) (inlet : InletId) {value : Value}
    (hvalue : fresh value) : Draws fresh graph (graph.writeInlet inlet value) :=
  write hsound hzero (.inlet inlet) hvalue

/-- So does writing an outlet and all those to which it is relayed. -/
theorem writeOutlet (hsound : graph.cells.Sound) (hzero : fresh 0) (outlet : OutletId)
    {value : Value} (hvalue : fresh value) :
    Draws fresh graph (graph.writeOutlet outlet value) := by
  unfold Graph.writeOutlet
  generalize outlet :: graph.relays graph.outlets.size outlet = outlets
  induction outlets generalizing graph with
  | nil => exact refl fresh graph
  | cons first rest ih =>
    exact (write hsound hzero (.outlet first) hvalue).trans (ih (sound_write hsound _ value))

end Draws

end TokenNet.Graph
