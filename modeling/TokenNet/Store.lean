/-!
# Generational store

A store keeps values behind keys.  A slot that has been vacated is used again, last vacated
first, and its generation goes up by one each time it is vacated.  A key carries the generation
it was issued with, so a key whose value has been removed never finds a later value of the slot.
-/

namespace TokenNet

/-- A key of a store: a slot and the generation of that slot at the time of issue. -/
structure Store.Key where
  slot : Nat
  generation : Nat
deriving DecidableEq, Repr, Inhabited

/-- A slot: its current generation and the value it holds, if any. -/
structure Store.Slot (α : Type) where
  generation : Nat
  content : Option α
deriving DecidableEq, Repr, Inhabited

/-- Slots in order of creation, the vacant ones, last vacated first, and a count of the values held,
which goes up and down as values come and go. -/
structure Store (α : Type) where
  slots : Array (Store.Slot α) := #[]
  vacant : List Nat := []
  live : Nat := 0
deriving DecidableEq, Repr, Inhabited

namespace Store

variable {α : Type}

/-! ## Reading -/

/-- The value behind a key, if the key has not been vacated since it was issued. -/
def get? (store : Store α) (key : Key) : Option α :=
  match store.slots[key.slot]? with
  | some slot => if slot.generation = key.generation then slot.content else none
  | none => none

/-- Whether a key still finds a value. -/
def holds (store : Store α) (key : Key) : Bool :=
  (store.get? key).isSome

/-- The number of values held, as it was counted. -/
def size (store : Store α) : Nat :=
  store.live

/-! ## Writing -/

/-- Keeps a value under a new key: in the slot vacated last, or in a new slot of generation 0. -/
def insert (store : Store α) (value : α) : Key × Store α :=
  match store.vacant with
  | slot :: vacant =>
    -- The slot vacated last is used first, in the generation that it has reached
    let generation := (store.slots[slot]?.map Slot.generation).getD 0
    (⟨slot, generation⟩,
      { slots := store.slots.modify slot fun s => { s with content := some value }
        vacant
        live := store.live + 1 })
  | [] =>
    (⟨store.slots.size, 0⟩,
      { store with slots := store.slots.push ⟨0, some value⟩, live := store.live + 1 })

/-- Changes the value behind a key; a key that finds nothing changes nothing. -/
def modify (store : Store α) (key : Key) (change : α → α) : Store α :=
  { store with
    slots := store.slots.modify key.slot fun s =>
      if s.generation = key.generation then { s with content := s.content.map change } else s }

/-- Takes the value behind a key out and vacates its slot. -/
def remove (store : Store α) (key : Key) : Option (α × Store α) :=
  match store.get? key with
  | none => none
  | some value =>
    some (value,
      { slots := store.slots.modify key.slot fun s => ⟨s.generation + 1, none⟩
        vacant := key.slot :: store.vacant
        live := store.live - 1 })

/-- Vacates the slot of a key; a key that finds nothing changes nothing. -/
def erase (store : Store α) (key : Key) : Store α :=
  match store.remove key with
  | none => store
  | some (_, rest) => rest

end Store

end TokenNet
