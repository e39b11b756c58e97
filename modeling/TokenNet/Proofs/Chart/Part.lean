import TokenNet.Proofs.Chart.Basic

/-!
# Charts of parts

A part of a network is a network of its own that has been moved: its entries and its slots are
shifted, its outlet has become some slots of the network, and its exits lead to places of the
network.  Its rows are found in the chart of the network, moved in the same way, so a run through
the part is a run through the network.

Memory outside a part is its *frame*.  A part changes nothing there but the slots that show its
outlet.

## Main statements

- `Placement.Views.fire`: a row of a part fires alike in the part and in the network.
- `Ends.inside`: what a part ends in, the network goes on from.
-/

namespace TokenNet

/-! ## Placements -/

/-- How a part stands in a network. -/
structure Placement where
  /-- By how much the entries are shifted. -/
  entries : Nat
  /-- By how much the slots are shifted. -/
  slots : Nat
  /-- The number of slots of the part. -/
  size : Nat
  /-- The slots that show the outlet of the part. -/
  outlet : List Nat
  /-- Where the exits of the part lead. -/
  exits : List Place

namespace Placement

/-- A place of the part in the network. -/
def place (placement : Placement) : Place → Place
  | .row entry => .row (entry + placement.entries)
  | .exit index => placement.exits.getD index (.exit index)

def jump (placement : Placement) (jump : Jump) : Jump :=
  ⟨placement.place jump.place, jump.joins⟩

def source (placement : Placement) : Source → Source
  | .constant value => .constant value
  | .sum left right => .sum (left + placement.slots) (right + placement.slots)

/-- The slots of the network that a row of the part writes. -/
def writes (placement : Placement) (row : Row) : List Nat :=
  row.writes.map (· + placement.slots) ++ if row.emits then placement.outlet else []

/-- A row of the part in the network. -/
def row (placement : Placement) (row : Row) : Row where
  source := placement.source row.source
  writes := placement.writes row
  emits := false
  zero := placement.jump row.zero
  other := placement.jump row.other

/-- The rows of the part in the network. -/
def listing (placement : Placement) (part : Listing) : Listing :=
  part.map fun row => (row.1 + placement.entries, placement.row row.2)

end Placement

/-- A source reads slots below a bound. -/
def Source.Within (size : Nat) : Source → Prop
  | constant _ => True
  | sum left right => left < size ∧ right < size

instance (size : Nat) : DecidablePred (Source.Within size)
  | .constant _ => inferInstanceAs (Decidable True)
  | .sum _ _ => inferInstanceAs (Decidable (_ ∧ _))

/-- A row reads and writes slots below a bound. -/
def Row.Within (size : Nat) (row : Row) : Prop :=
  row.source.Within size ∧ ∀ s ∈ row.writes, s < size

instance (size : Nat) : DecidablePred (Row.Within size) := fun row =>
  inferInstanceAs (Decidable (_ ∧ ∀ s ∈ row.writes, s < size))

namespace Placement

/-- A slot that belongs to the part. -/
def Inside (placement : Placement) (s : Nat) : Prop :=
  placement.slots ≤ s ∧ s < placement.slots + placement.size

instance (placement : Placement) : DecidablePred placement.Inside := fun _ =>
  inferInstanceAs (Decidable (_ ∧ _))

/-- The part is found in the network: its rows are, and its outlet shows outside. -/
structure Fits (placement : Placement) (part rows : Listing) : Prop where
  rows : ∀ row ∈ part, rows.lookup (row.1 + placement.entries) = some (placement.row row.2) ∧
    row.2.Within placement.size
  outlet : ∀ s ∈ placement.outlet, ¬ placement.Inside s

/-! ## Memory of a part -/

/-- What the part sees of the memory of the network. -/
def view (placement : Placement) (memory : Memory) : Memory where
  slot := fun s => memory.slot (s + placement.slots)
  out := (placement.outlet.head?.map memory.slot).getD 0

/-- The memory of the network is the memory of the part inside, and the frame elsewhere. -/
structure Views (placement : Placement) (frame outer inner : Memory) : Prop where
  slots : ∀ s < placement.size, outer.slot (s + placement.slots) = inner.slot s
  outlet : ∀ s ∈ placement.outlet, outer.slot s = inner.out
  elsewhere : ∀ s, ¬ placement.Inside s → s ∉ placement.outlet → outer.slot s = frame.slot s
  out : outer.out = frame.out

variable {placement : Placement} {frame outer inner : Memory}

theorem shows_view {slots : List Nat} {value : Value} {memory : Memory}
    (h : memory.Shows (slots.map (· + placement.slots)) value) :
    (placement.view memory).Shows slots value :=
  fun s hs => h (s + placement.slots) (List.mem_map_of_mem hs)

theorem agrees_view {slots : List Nat} {memory later : Memory}
    (h : later.Agrees memory (slots.map (· + placement.slots))) :
    (placement.view later).Agrees (placement.view memory) slots :=
  fun s hs => h (s + placement.slots) (List.mem_map_of_mem hs)

/-- A part is seen in any memory in which the slots that show its outlet agree. -/
theorem views_of_shows {memory : Memory} {value : Value}
    (h : memory.Shows placement.outlet value) :
    placement.Views memory memory (placement.view memory) := by
  refine ⟨fun _ _ => rfl, ?_, fun _ _ _ => rfl, rfl⟩
  intro s hs
  rw [h s hs]
  unfold view
  -- The view is the value of the first slot, and all slots show the same
  cases houtlet : placement.outlet with
  | nil =>
    rw [houtlet] at hs
    cases hs
  | cons first rest =>
    have hfirst := h first (houtlet ▸ List.mem_cons_self)
    exact hfirst.symm

theorem views_view (memory : Memory) (h : placement.outlet.length ≤ 1) :
    placement.Views memory memory (placement.view memory) := by
  have hshows : memory.Shows placement.outlet (placement.view memory).out := by
    intro s hs
    unfold view
    match placement.outlet, h, hs with
    | [_], _, hs => rw [List.mem_singleton.mp hs]; rfl
  exact views_of_shows hshows

/-- Inside, the part sees its own memory. -/
theorem Views.agrees_inside (h : placement.Views frame outer inner) {slots : List Nat}
    (hinside : ∀ s ∈ slots, s < placement.size) : (placement.view outer).Agrees inner slots :=
  fun s hs => h.slots s (hinside s hs)

/-- Elsewhere, the memory is that of the frame. -/
theorem Views.agrees_elsewhere (h : placement.Views frame outer inner) {slots : List Nat}
    (houtside : ∀ s ∈ slots, ¬ placement.Inside s ∧ s ∉ placement.outlet) :
    outer.Agrees frame slots :=
  fun s hs => h.elsewhere s (houtside s hs).1 (houtside s hs).2

theorem Views.value (h : placement.Views frame outer inner) {source : Source}
    (hwithin : source.Within placement.size) :
    (placement.source source).value outer = source.value inner := by
  cases source with
  | constant value => rfl
  | sum left right =>
    have hleft := h.slots left hwithin.1
    have hright := h.slots right hwithin.2
    simp only [Placement.source, Source.value, hleft, hright]

/-- **A row of a part fires alike in the part and in the network.** -/
theorem Views.fire (h : placement.Views frame outer inner)
    (houtlet : ∀ s ∈ placement.outlet, ¬ placement.Inside s) {row : Row}
    (hwithin : row.Within placement.size) :
    placement.Views frame ((placement.row row).fire outer) (row.fire inner) := by
  have hvalue := h.value hwithin.1
  -- Inside, a slot is written exactly when the part writes it
  have hinside : ∀ s < placement.size,
      s + placement.slots ∈ placement.writes row ↔ s ∈ row.writes := by
    intro s hs
    unfold writes
    rw [List.mem_append, List.mem_map]
    constructor
    · rintro (⟨t, ht, hsame⟩ | hshown)
      · rw [← Nat.add_right_cancel hsame]
        exact ht
      · split at hshown
        · exact absurd ⟨Nat.le_add_left _ _, by omega⟩ (houtlet _ hshown)
        · exact absurd hshown List.not_mem_nil
    · intro hs
      exact .inl ⟨s, hs, rfl⟩
  -- Outside, it is written exactly when it shows the outlet and the part emits
  have houtside : ∀ s, ¬ placement.Inside s →
      (s ∈ placement.writes row ↔ row.emits = true ∧ s ∈ placement.outlet) := by
    intro s hs
    unfold writes
    rw [List.mem_append, List.mem_map]
    constructor
    · rintro (⟨t, ht, rfl⟩ | hshown)
      · have := hwithin.2 t ht
        exact absurd ⟨Nat.le_add_left _ _, by omega⟩ hs
      · split at hshown
        next hemits => exact ⟨hemits, hshown⟩
        next => exact absurd hshown List.not_mem_nil
    · rintro ⟨hemits, hshown⟩
      rw [if_pos hemits]
      exact .inr hshown
  constructor
  · intro s hs
    simp only [Row.fire, Placement.row, Memory.slot_write, hvalue, hinside s hs, h.slots s hs]
  · intro s hs
    simp only [Row.fire, Placement.row, Memory.slot_write, Memory.out_write, hvalue,
      houtside s (houtlet s hs), h.outlet s hs, hs, and_true]
  · intro s hs hshown
    simp only [Row.fire, Placement.row, Memory.slot_write, houtside s hs, hshown, and_false,
      if_false]
    exact h.elsewhere s hs hshown
  · exact h.out

end Placement

/-! ## Runs through a part -/

theorem Listing.mem_of_lookup {entry : Nat} {row : Row} : ∀ {rows : Listing},
    rows.lookup entry = some row → (entry, row) ∈ rows
  | [], h => by simp at h
  | (first, other) :: rest, h => by
    rw [List.lookup_cons] at h
    cases hfirst : entry == first with
    | true =>
      rw [hfirst] at h
      rw [eq_of_beq hfirst, ← Option.some.inj h]
      exact List.mem_cons_self
    | false =>
      rw [hfirst] at h
      exact List.mem_cons_of_mem _ (Listing.mem_of_lookup h)

/-- **A run through a part is a run through the network**, which goes on where the exits of the
part lead. -/
theorem Ends.inside {placement : Placement} {part rows : Listing} {always always' : Memory → Prop}
    {done done' : Nat → Memory → Prop} {bound : Nat} {place : Place} {frame inner : Memory}
    (rest : Nat) (hfits : placement.Fits part rows) (h : Ends part always done bound place inner)
    (halways : ∀ {outer inner}, placement.Views frame outer inner → always inner → always' outer)
    (hdone : ∀ {exit outer inner}, placement.Views frame outer inner → always inner →
      done exit inner → Ends rows always' done' rest (placement.place (.exit exit)) outer) :
    ∀ {outer total}, placement.Views frame outer inner → bound + rest ≤ total →
      Ends rows always' done' total (placement.place place) outer := by
  induction h with
  | exit hkept hend =>
    intro outer total hviews htotal
    exact (hdone hviews hkept hend).mono (by omega)
  | @row bound _ entry row inner hrow hkept _ hbound ih =>
    intro outer total hviews htotal
    obtain ⟨hfound, hwithin⟩ := hfits.rows _ (Listing.mem_of_lookup hrow)
    -- The placed row reads the same value and jumps to the placed place
    have hvalue : (placement.row row).source.value outer = row.source.value inner :=
      hviews.value hwithin.1
    have hjump : (placement.row row).jump ((placement.row row).source.value outer) =
        placement.jump (row.jump (row.source.value inner)) := by
      rw [hvalue]
      unfold Row.jump
      split <;> rfl
    refine .row hfound (halways hviews hkept) (?_ : Ends rows always' done' (bound + rest) _ _) ?_
    · rw [hjump]
      exact ih (hviews.fire hfits.outlet hwithin) (Nat.le_refl _)
    · rw [hjump]
      change bound + rest + (row.jump (row.source.value inner)).joins + 1 ≤ total
      omega

end TokenNet
