import TokenNet.Proofs.Change.Basic
import TokenNet.Proofs.Flow.Values
import TokenNet.Proofs.Graph.Native
import TokenNet.Proofs.Store.Requests

/-!
# The keys of cells

Whatever happens to a graph, its cells are touched by requests to their store only: cells are kept,
changed and given up, one after another.  So what is known of the keys of a store holds of the keys
of cells, however a graph was built and used.

## Main statements

- `Change.serves`: every change makes requests to the store of cells.
- `Leads.serves`: so does every sequence of changes.
- `Leads.cell?_eq_none`: the key of a cell that is gone is never found again.
-/

namespace TokenNet.Graph

open Store (Serves)

/-! ## Single steps -/

theorem serves_attach (graph : Graph) (port : Port) (cell : CellId) :
    graph.cells.Serves (graph.attach port cell).cells := by
  rw [attach_eq, cells_assign]
  exact .modify graph.cells cell _

theorem serves_ensure (graph : Graph) (port : Port) :
    graph.cells.Serves (graph.ensure port).2.cells := by
  cases hcell : graph.portCell? port with
  | some cell =>
    rw [ensure_of_some hcell]
    exact .refl graph.cells
  | none =>
    rw [ensure_of_none hcell]
    have hadded : graph.cells.Serves (graph.addCell 0).2.cells := .insert graph.cells { value := 0 }
    exact hadded.trans (serves_attach _ port _)

theorem serves_writeCells (graph : Graph) (cells : List CellId) (value : Value) :
    graph.cells.Serves (graph.writeCells cells value).cells := by
  induction cells generalizing graph with
  | nil => exact .refl graph.cells
  | cons first rest ih => exact (Serves.modify graph.cells first _).trans (ih _)

theorem serves_merge (graph : Graph) (absorbed survivor : CellId) :
    graph.cells.Serves (graph.merge absorbed survivor).cells := by
  cases hold : graph.cell? absorbed with
  | none =>
    -- A key behind which there is nothing merges nothing
    have hold' : graph.cells.get? absorbed = none := hold
    have hsame : graph.merge absorbed survivor = graph := by
      simp only [merge, Store.remove_eq, hold', Option.map_none]
    rw [hsame]
    exact .refl graph.cells
  | some old =>
    rw [merge_eq hold]
    -- The old cell goes, the readers and writers move over, and the survivor is changed in place
    refine Serves.trans ?_ (.modify _ survivor _)
    rw [cells_foldl_assign]
    exact .erase graph.cells absorbed

theorem serves_unite (graph : Graph) (inlet : InletId) (outlet : OutletId) :
    graph.cells.Serves (graph.unite inlet outlet).cells := by
  unfold unite
  -- The cases are those of `unite`
  split
  next =>
    split
    next => exact .refl graph.cells
    next => exact serves_merge graph _ _
  next => exact serves_attach graph (.inlet inlet) _
  next => exact serves_attach graph (.outlet outlet) _
  next =>
    have hadded : graph.cells.Serves (graph.addCell 0).2.cells := .insert graph.cells { value := 0 }
    exact (hadded.trans (serves_attach _ (.inlet inlet) _)).trans
      (serves_attach _ (.outlet outlet) _)

theorem serves_detach (graph : Graph) (port : Port) :
    graph.cells.Serves (graph.detach port).cells := by
  cases hcell : graph.portCell? port with
  | none =>
    rw [detach_of_none hcell]
    exact .refl graph.cells
  | some cell =>
    rw [detach_of_some hcell]
    -- The port leaves its cell first, which keeps all keys
    have hleft : graph.cells.Serves
        ((graph.assign port none).modifyCell cell fun c => c.leave port).cells := by
      refine Serves.trans ?_ (.modify _ cell _)
      rw [cells_assign]
      exact .refl graph.cells
    refine hleft.trans ?_
    -- Then the cell goes if nothing is left that uses it
    unfold dropOrphan
    split
    next => exact .erase _ cell
    next => exact .refl _

/-! ## Growth -/

theorem serves_addOwnInlet (owner : NodeId) (graph : Graph) :
    graph.cells.Serves (addOwnInlet owner graph).2.cells := by
  rw [addOwnInlet_eq]
  exact serves_ensure (graph.addInlet owner).2 _

theorem serves_addOwnOutlet (owner : NodeId) (graph : Graph) :
    graph.cells.Serves (addOwnOutlet owner graph).2.cells := by
  rw [addOwnOutlet_eq]
  exact serves_ensure (graph.addOutlet owner).2 _

theorem serves_addNative (graph : Graph) (primitive : Primitive) (specification : String)
    (traced : Bool) :
    graph.cells.Serves (graph.addNative primitive specification traced).2.cells :=
  addNative_induction (P := fun grown => graph.cells.Serves grown.cells)
    (fun _ _ h => h.trans (serves_addOwnInlet _ _))
    (fun _ _ h => h.trans (serves_addOwnOutlet _ _))
    (fun _ _ h => h)
    (fun _ _ _ _ hcells h => hcells ▸ h)
    (.refl graph.cells) primitive specification traced

theorem cells_addJoins {composite : NodeId} {specification : String} {traced : Bool} :
    ∀ (exits : List ExitId) (graph : Graph),
    (graph.forEach (addJoin composite specification traced) exits).2.cells = graph.cells
  | [], _ => rfl
  | _ :: rest, _ => cells_addJoins rest _

theorem serves_addComposite (graph : Graph) (specification : String)
    (inletCount exitCount : Nat) (traced : Bool) :
    graph.cells.Serves
      (graph.addComposite specification inletCount exitCount traced).2.cells := by
  -- The graph after the inputs, and after the output
  let owner : NodeId := ⟨graph.nodes.size⟩
  let fed := (graph.times (fun g => g.addInlet owner) inletCount).2
  let ported := (fed.addOwnOutlet owner).2
  have hinlets : graph.cells.Serves fed.cells :=
    times_induction (P := fun grown => graph.cells.Serves grown.cells) (fun _ h => h) inletCount
      (.refl graph.cells)
  have houtlet : graph.cells.Serves ported.cells := hinlets.trans (serves_addOwnOutlet owner fed)
  have hexits : graph.cells.Serves (ported.times (fun g => g.addExit owner) exitCount).2.cells :=
    times_induction (P := fun grown => graph.cells.Serves grown.cells) (fun _ h => h) exitCount
      houtlet
  -- The parts of the node that are made after the pins touch no cell
  simp only [addComposite, modifyNode, cells_addJoins, addNode]
  exact hexits

/-! ## Cells that are gone -/

section

variable {graph : Graph}

/-- A key finds no cell as soon as no port names it. -/
theorem Linked.cell?_eq_none_iff (h : graph.Linked) (cell : CellId) :
    graph.cell? cell = none ↔ ∀ port, graph.portCell? port ≠ some cell := by
  constructor
  · intro hgone port hport
    obtain ⟨record, hrecord⟩ := h.live hport
    rw [hgone] at hrecord
    cases hrecord
  · intro hfree
    by_contra hlive
    obtain ⟨record, hrecord⟩ := Option.ne_none_iff_exists'.mp hlive
    obtain ⟨port, hport⟩ := List.exists_mem_of_ne_nil _ (h.shared hrecord)
    exact hfree port ((h.mem_members hrecord port).mp hport)

/-- Wiring that merges two cells gives the absorbed one up. -/
theorem Linked.cell?_connect_of_merging (h : graph.Linked) {inlet : InletId} {outlet : OutletId}
    {absorbed survivor : CellId}
    (hmerging : graph.merging? inlet outlet = some (absorbed, survivor)) :
    (graph.connect inlet outlet).cell? absorbed = none := by
  unfold merging? at hmerging
  split at hmerging
  next a b ha hb =>
    split at hmerging
    next => cases hmerging
    next hne =>
      obtain ⟨rfl, rfl⟩ := Prod.mk.inj (Option.some.inj hmerging)
      obtain ⟨old, hold⟩ := h.live (show graph.portCell? (.inlet inlet) = some a from ha)
      -- Two different cells are merged, and the absorbed one is erased
      have hunite : graph.unite inlet outlet = graph.merge a b := by
        simp only [Graph.unite, ha, hb, if_neg hne]
      have hmerged := cell?_merge hold hne a
      rw [if_pos rfl, ← hunite] at hmerged
      exact hmerged
  next => cases hmerging

/-- A cell goes with its last port. -/
theorem Linked.cell?_detach_of_last (h : graph.Linked) {port : Port} {cell : CellId}
    (hlast : ∀ other, graph.portCell? other = some cell → other = port) :
    (graph.detach port).cell? cell = none := by
  refine ((h.detach port).cell?_eq_none_iff cell).mpr fun other hother => ?_
  rw [portCell?_detach] at hother
  split at hother
  next => cases hother
  next hne => exact hne (hlast other hother)

end

/-! ## Changes -/

variable {graph graph' : Graph}

/-- **Every change makes requests to the store of cells**, and nothing else happens to it. -/
theorem Change.serves (h : Change graph graph') : graph.cells.Serves graph'.cells := by
  cases h with
  | native primitive specification traced =>
    exact serves_addNative graph primitive specification traced
  | composite specification inletCount exitCount traced =>
    exact serves_addComposite graph specification inletCount exitCount traced
  | ensure hport => exact serves_ensure graph _
  | setValue cell value => exact serves_writeCells graph (graph.reached cell) value
  | connect hinlet houtlet => exact serves_unite graph _ _
  | detach port => exact serves_detach graph port
  | feed outer hinner => exact serves_ensure graph (.inlet _)
  | relay inner houter => exact serves_ensure graph (.outlet _)
  | adopt | target | entry | remember => exact .refl graph.cells

theorem Leads.serves (h : Leads graph graph') : graph.cells.Serves graph'.cells := by
  induction h with
  | refl => exact .refl graph.cells
  | tail _ hchange ih => exact ih.trans hchange.serves

/-- **A cell that is gone stays gone**: its key is not found again, whatever becomes of the
graph. -/
theorem Leads.cell?_eq_none {later last : Graph} {cell : CellId} (hbuilt : Leads {} graph)
    (hcell : graph.cells.holds cell) (h : Leads graph later) (hgone : later.cell? cell = none)
    (h' : Leads later last) : last.cell? cell = none := by
  obtain ⟨record, hrecord⟩ := hbuilt.serves.exists_recorded .empty
  exact Serves.get?_eq_none hrecord hcell h.serves hgone h'.serves

end TokenNet.Graph
