import Mathlib.Logic.Relation
import TokenNet.Proofs.Flow.Pristine

/-!
# Who shares a cell

Wiring an outlet into an inlet unites their classes, so after any number of wirings two ports share
a cell exactly when a path of wires leads from one to the other.

## Main statements

- `Woven.portCell?_eq_iff`: two ports share a cell just when they are joined by a path.
- `Woven.connect`: one more wire is one more edge.
-/

namespace TokenNet.Graph

/-- The ports that share cells are those that are joined by paths of the given edges. -/
structure Woven (graph : Graph) (edge : Port → Port → Prop) : Prop where
  linked : graph.Linked
  same : ∀ {port other}, edge port other → graph.portCell? port = graph.portCell? other
  joined : ∀ {port other cell}, graph.portCell? port = some cell →
    graph.portCell? other = some cell → Relation.EqvGen edge port other

namespace Woven

variable {graph graph' : Graph} {edge edge' : Port → Port → Prop}

/-- Along a path the cell stays the same. -/
theorem portCell?_eq (h : graph.Woven edge) {port other : Port}
    (hpath : Relation.EqvGen edge port other) : graph.portCell? port = graph.portCell? other := by
  induction hpath with
  | rel _ _ hedge => exact h.same hedge
  | refl _ => rfl
  | symm _ _ _ ih => exact ih.symm
  | trans _ _ _ _ _ ih ih' => exact ih.trans ih'

/-- **Two ports share a cell just when they are joined by a path.** -/
theorem portCell?_eq_iff (h : graph.Woven edge) {port other : Port} {cell : CellId}
    (hcell : graph.portCell? port = some cell) :
    graph.portCell? port = graph.portCell? other ↔ Relation.EqvGen edge port other :=
  ⟨fun hsame => h.joined hcell (hsame.symm.trans hcell), h.portCell?_eq⟩

/-- Where nothing is shared there is no edge yet. -/
theorem of_pristine (h : graph.Pristine) : graph.Woven fun _ _ => False where
  linked := h.linked
  same := False.elim
  joined := fun hcell hother => h.apart hother hcell ▸ .refl _

/-- Only the cells of the ports count. -/
theorem of_same (h : graph.Woven edge) (hsame : graph.SamePorts graph') : graph'.Woven edge where
  linked := h.linked.congr hsame.portCell? hsame.cells
  same := fun hedge => by
    rw [hsame.portCell?, hsame.portCell?]
    exact h.same hedge
  joined := fun hcell hother => by
    rw [hsame.portCell?] at hcell hother
    exact h.joined hcell hother

/-- Edges may be said in another way. -/
theorem congr (h : graph.Woven edge) (hedge : ∀ port other, edge port other ↔ edge' port other) :
    graph.Woven edge' := by
  obtain rfl : edge = edge' := funext fun port => funext fun other => propext (hedge port other)
  exact h

end Woven

/-! ## One more wire -/

/-- Wiring an outlet into an inlet takes all ports of the cell of the inlet over to the cell of the
outlet. -/
theorem Linked.portCell?_connect {graph : Graph} (h : graph.Linked) {inlet : InletId}
    {outlet : OutletId} {a b : CellId} (ha : graph.portCell? (.inlet inlet) = some a)
    (hb : graph.portCell? (.outlet outlet) = some b) (port : Port) :
    (graph.connect inlet outlet).portCell? port =
      if graph.portCell? port = some a then some b else graph.portCell? port := by
  refine ((SamePorts.markInlet (graph.unite inlet outlet) inlet).portCell? port).trans ?_
  unfold Graph.unite
  rw [show graph.inletCell? inlet = some a from ha, show graph.outletCell? outlet = some b from hb]
  dsimp only
  split
  -- Pins with one cell in common are left as they are
  next hsame =>
    subst hsame
    split
    next hport => exact hport
    next => rfl
  -- Otherwise the cell of the input is absorbed
  next =>
    obtain ⟨old, hold⟩ := h.live ha
    exact h.portCell?_merge hold b port

/-- **One more wire is one more edge.** -/
theorem Woven.connect {graph : Graph} {edge : Port → Port → Prop} (h : graph.Woven edge)
    {inlet : InletId} {outlet : OutletId} {a b : CellId}
    (ha : graph.portCell? (.inlet inlet) = some a)
    (hb : graph.portCell? (.outlet outlet) = some b) :
    (graph.connect inlet outlet).Woven fun port other =>
      edge port other ∨ port = .outlet outlet ∧ other = .inlet inlet := by
  have hcells := h.linked.portCell?_connect ha hb
  have hold {port other : Port} (hpath : Relation.EqvGen edge port other) :
      Relation.EqvGen (fun port other => edge port other ∨ port = .outlet outlet ∧
        other = .inlet inlet) port other :=
    hpath.mono fun _ _ hedge => .inl hedge
  have hnew : Relation.EqvGen (fun port other => edge port other ∨ port = .outlet outlet ∧
      other = .inlet inlet) (.outlet outlet) (.inlet inlet) := .rel _ _ (.inr ⟨rfl, rfl⟩)
  refine ⟨?_, ?_, ?_⟩
  · exact (h.linked.unite (hasPort_of_portCell? ha) (hasPort_of_portCell? hb)).markInlet inlet
  -- Ports tied by an edge have one cell
  · intro port other hedge
    rw [hcells, hcells]
    rcases hedge with hedge | ⟨rfl, rfl⟩
    · rw [h.same hedge]
    · rw [if_pos ha, hb]
      split <;> rfl
  -- Ports with one cell are tied by a path
  · intro port other cell hport hother
    rw [hcells] at hport hother
    -- A port had the cell of the inlet or kept its own, and the new edge joins the two classes
    have hfrom {found : Port} (hfound : (if graph.portCell? found = some a then some b
        else graph.portCell? found) = some cell) :
        (graph.portCell? found = some a ∧ b = cell) ∨ graph.portCell? found = some cell := by
      split at hfound
      next hclass => exact .inl ⟨hclass, Option.some.inj hfound⟩
      next => exact .inr hfound
    rcases hfrom hport with ⟨hleft, hb'⟩ | hleft
    · have hpath := (hold (h.joined hleft ha)).trans _ _ _ (.symm _ _ hnew)
      rcases hfrom hother with ⟨hright, _⟩ | hright
      · exact hold (h.joined hleft hright)
      · exact hpath.trans _ _ _ (hold (h.joined hb (hb' ▸ hright)))
    · rcases hfrom hother with ⟨hright, hb'⟩ | hright
      · have hpath := hnew.trans _ _ _ (hold (h.joined ha hright))
        exact (hold (h.joined hleft (hb' ▸ hb))).trans _ _ _ hpath
      · exact hold (h.joined hleft hright)

/-- A wire between ports with cells leaves no port without one. -/
theorem PlacedBut.connect {graph : Graph} {loose : Port → Prop} (h : graph.PlacedBut loose)
    (hlinked : graph.Linked) {inlet : InletId} {outlet : OutletId} {a b : CellId}
    (ha : graph.portCell? (.inlet inlet) = some a)
    (hb : graph.portCell? (.outlet outlet) = some b) :
    (graph.connect inlet outlet).PlacedBut loose := by
  intro port hport hfast
  have hunited := (SamePorts.markInlet (graph.unite inlet outlet) inlet).ports port hport
  have hbefore := (Extends.of_bare_eq (bare_unite graph inlet outlet).symm).hasPort hunited
  rw [hlinked.portCell?_connect ha hb]
  split
  next => exact ⟨b, rfl⟩
  next => exact h port hbefore hfast

end TokenNet.Graph
