import Mathlib.Data.List.Basic
import Mathlib.Data.List.Nodup
import TokenNet.Store

/-!
# Keys of a store

The keys that find a value can be listed, slot by slot.  A store is *sound* when its list of vacant
slots is exactly the list of its empty slots, each once, and when its count of values is the number
of keys that find one.  Sound stores behave like finite maps: every change of a store has one look-up
equation, and it counts as it should.

## Main statements

- `get?_insert`, `get?_modify`, `get?_erase`: one look-up equation for each change.
- `Sound.insert`, `Sound.modify`, `Sound.erase`: every change keeps a store sound.
- `Sound.size_eq`: the size of a sound store is the number of keys that find a value.
-/

namespace TokenNet.Store

variable {α : Type}

/-! ## Keys -/

theorem get?_eq_some_iff {store : Store α} {key : Key} {value : α} :
    store.get? key = some value ↔
      store.slots[key.slot]? = some ⟨key.generation, some value⟩ := by
  unfold get?
  cases hslot : store.slots[key.slot]? with
  | none => simp
  | some record =>
    obtain ⟨generation, content⟩ := record
    by_cases hgen : generation = key.generation <;> simp [hgen]

/-- A key that finds a value stands at a slot of the store. -/
theorem slot_lt_of_get? {store : Store α} {key : Key} {value : α}
    (h : store.get? key = some value) : key.slot < store.slots.size :=
  (Array.getElem?_eq_some_iff.mp (get?_eq_some_iff.mp h)).1

/-- The key of the value that a slot holds, if it holds one. -/
def keyAt? (store : Store α) (slot : Nat) : Option Key :=
  store.slots[slot]?.bind fun record => record.content.map fun _ => ⟨slot, record.generation⟩

/-- The keys that find a value, slot by slot. -/
def keys (store : Store α) : List Key :=
  (List.range store.slots.size).filterMap store.keyAt?

theorem keyAt?_eq_some_iff {store : Store α} {slot : Nat} {key : Key} :
    store.keyAt? slot = some key ↔ key.slot = slot ∧ store.holds key := by
  obtain ⟨slot', generation⟩ := key
  unfold keyAt? holds get?
  cases hrecord : store.slots[slot]? with
  | none =>
    constructor
    · simp
    · rintro ⟨rfl, hholds⟩
      simp [hrecord] at hholds
  -- The slot gives the key of its present generation, if it holds a value
  | some record =>
    obtain ⟨generation', content⟩ := record
    constructor
    · intro hkey
      cases content with
      | none => simp at hkey
      | some value =>
        simp only [Option.bind_some, Option.map_some, Option.some.injEq, Key.mk.injEq] at hkey
        obtain ⟨rfl, rfl⟩ := hkey
        simp [hrecord]
    -- A key finds its value only in its own generation
    · rintro ⟨rfl, hholds⟩
      by_cases hgen : generation' = generation
      · cases content with
        | none => simp [hrecord] at hholds
        | some value => simp [hgen]
      · simp [hrecord, hgen] at hholds

/-- Exactly the keys that find a value are listed. -/
theorem mem_keys {store : Store α} {key : Key} : key ∈ store.keys ↔ store.holds key := by
  unfold keys
  rw [List.mem_filterMap]
  constructor
  · rintro ⟨slot, _, hkey⟩
    exact (keyAt?_eq_some_iff.mp hkey).2
  · intro hholds
    obtain ⟨value, hvalue⟩ := Option.isSome_iff_exists.mp hholds
    exact ⟨key.slot, List.mem_range.mpr (slot_lt_of_get? hvalue),
      keyAt?_eq_some_iff.mpr ⟨rfl, hholds⟩⟩

theorem nodup_keys (store : Store α) : store.keys.Nodup := by
  refine List.Nodup.filterMap (fun a b key ha hb => ?_) List.nodup_range
  have ha' := (keyAt?_eq_some_iff.mp ha).1
  have hb' := (keyAt?_eq_some_iff.mp hb).1
  rw [← ha', ← hb']

/-- The keys of a store are as many as those of any list that has each of them once. -/
theorem length_keys_eq {store : Store α} {listed : List Key} (hnodup : listed.Nodup)
    (h : ∀ key, store.holds key ↔ key ∈ listed) : store.keys.length = listed.length :=
  ((List.perm_ext_iff_of_nodup store.nodup_keys hnodup).mpr fun key =>
    mem_keys.trans (h key)).length_eq

/-! ## Sound stores -/

/-- The vacant list holds every empty slot exactly once and nothing else, and the values are counted
right. -/
structure Sound (store : Store α) : Prop where
  vacant_nodup : store.vacant.Nodup
  mem_vacant : ∀ slot, slot ∈ store.vacant ↔
    ∃ record, store.slots[slot]? = some record ∧ record.content = none
  counted : store.live = store.keys.length

/-- The empty store is sound. -/
theorem Sound.empty : Sound ({} : Store α) :=
  ⟨List.nodup_nil, fun slot => by simp, rfl⟩

/-- **The size of a sound store** is the number of keys that find a value. -/
theorem Sound.size_eq {store : Store α} (h : store.Sound) {listed : List Key}
    (hnodup : listed.Nodup) (hlisted : ∀ key, store.holds key ↔ key ∈ listed) :
    store.size = listed.length :=
  h.counted.trans (length_keys_eq hnodup hlisted)

/-! ## Look-up -/

/-- A new value is found under its key, and nothing was found there before. -/
theorem get?_insert_fst {store : Store α} (h : store.Sound) (value : α) :
    store.get? (store.insert value).1 = none := by
  unfold insert
  split
  next slot vacant hvacant =>
    obtain ⟨record, hrecord, hempty⟩ := (h.mem_vacant slot).mp (by simp [hvacant])
    simp [get?, hrecord, hempty]
  next hvacant => simp [get?]

/-- Look-up after an insertion. -/
theorem get?_insert {store : Store α} (h : store.Sound) (value : α) (key : Key) :
    (store.insert value).2.get? key =
      if key = (store.insert value).1 then some value else store.get? key := by
  obtain ⟨slot', generation'⟩ := key
  unfold insert
  split
  next slot vacant hvacant =>
    -- The vacant slot is used again under the generation it has
    obtain ⟨⟨generation, content⟩, hrecord, hempty⟩ := (h.mem_vacant slot).mp (by simp [hvacant])
    simp only at hempty
    subst hempty
    by_cases hslot : slot = slot'
    · subst hslot
      by_cases hgen : generation = generation'
      · subst hgen
        simp [get?, Array.getElem?_modify, hrecord]
      · simp [get?, Array.getElem?_modify, hrecord, hgen, Ne.symm hgen]
    · simp [get?, Array.getElem?_modify, hslot, Ne.symm hslot]
  next hvacant =>
    -- There is no vacant slot, so the new one comes last
    by_cases hslot : slot' = store.slots.size
    · subst hslot
      by_cases hgen : generation' = 0
      · subst hgen
        simp [get?]
      · simp [get?, hgen, Ne.symm hgen]
    · simp [get?, Array.getElem?_push, hslot]

/-- Look-up after a change behind a key. -/
theorem get?_modify (store : Store α) (changed : Key) (change : α → α) (key : Key) :
    (store.modify changed change).get? key =
      if key = changed then (store.get? key).map change else store.get? key := by
  obtain ⟨slot, generation⟩ := key
  obtain ⟨slot', generation'⟩ := changed
  -- Only the slot of the changed key is to be looked at, and in it only its generation
  by_cases hslot : slot' = slot
  · subst hslot
    cases hrecord : store.slots[slot']? with
    | none => simp [get?, modify, Array.getElem?_modify, hrecord]
    | some record =>
      by_cases hgen : record.generation = generation'
      · subst hgen
        by_cases hkey : record.generation = generation
        · subst hkey
          simp [get?, modify, Array.getElem?_modify, hrecord]
        · simp [get?, modify, Array.getElem?_modify, hrecord, hkey]
      · by_cases hkey : record.generation = generation
        · subst hkey
          simp [get?, modify, Array.getElem?_modify, hrecord, hgen]
        · simp [get?, modify, Array.getElem?_modify, hrecord, hgen, hkey]
  · simp [get?, modify, Array.getElem?_modify, hslot, Ne.symm hslot]

/-- Taking a value out is looking it up and vacating its slot. -/
theorem remove_eq (store : Store α) (key : Key) :
    store.remove key = (store.get? key).map fun value => (value, store.erase key) := by
  unfold erase remove
  cases store.get? key <;> rfl

theorem erase_of_none {store : Store α} {key : Key} (h : store.get? key = none) :
    store.erase key = store := by
  unfold erase remove
  rw [h]

/-- What is left of a store that gives a value up. -/
theorem erase_of_some {store : Store α} {key : Key} {value : α} (h : store.get? key = some value) :
    store.erase key =
      { slots := store.slots.modify key.slot fun s => ⟨s.generation + 1, none⟩
        vacant := key.slot :: store.vacant
        live := store.live - 1 } := by
  unfold erase remove
  rw [h]

/-- Look-up after a slot has been vacated. -/
theorem get?_erase (store : Store α) (erased key : Key) :
    (store.erase erased).get? key = if key = erased then none else store.get? key := by
  cases hvalue : store.get? erased with
  | none =>
    rw [erase_of_none hvalue]
    by_cases hkey : key = erased
    · subst hkey
      simpa using hvalue
    · simp [hkey]
  -- The slot has gone to the next generation, so its key finds nothing any more
  | some value =>
    have hrecord := get?_eq_some_iff.mp hvalue
    rw [erase_of_some hvalue]
    obtain ⟨slot, generation⟩ := key
    obtain ⟨slot', generation'⟩ := erased
    by_cases hslot : slot' = slot
    · subst hslot
      by_cases hgen : generation = generation'
      · subst hgen
        simp [get?, Array.getElem?_modify, hrecord]
      · simp only at hrecord
        simp [get?, Array.getElem?_modify, hrecord, hgen, Ne.symm hgen]
    · simp [get?, Array.getElem?_modify, hslot, Ne.symm hslot]

/-! ## Which keys find a value -/

/-- After an insertion the new key finds a value, and so does every key that did before. -/
theorem holds_insert {store : Store α} (h : store.Sound) (value : α) (key : Key) :
    (store.insert value).2.holds key ↔ key = (store.insert value).1 ∨ store.holds key := by
  rw [holds, get?_insert h, holds]
  by_cases hkey : key = (store.insert value).1
  · simp [hkey]
  · simp [hkey]

@[simp] theorem holds_modify (store : Store α) (changed : Key) (change : α → α) (key : Key) :
    (store.modify changed change).holds key = store.holds key := by
  rw [holds, get?_modify, holds]
  split <;> simp

/-- The key of a slot that has been vacated finds nothing, and all others find what they did. -/
theorem holds_erase (store : Store α) (erased key : Key) :
    (store.erase erased).holds key ↔ key ≠ erased ∧ store.holds key := by
  rw [holds, get?_erase, holds]
  by_cases hkey : key = erased
  · simp [hkey]
  · simp [hkey]

/-! ## Changes keep a store sound -/

/-- A new value takes the slot vacated last off the list of vacant slots, or it finds none there. -/
theorem Sound.mem_vacant_insert {store : Store α} (h : store.Sound) (value : α) (slot : Nat) :
    slot ∈ (store.insert value).2.vacant ↔ ∃ record,
      (store.insert value).2.slots[slot]? = some record ∧ record.content = none := by
  unfold Store.insert
  split
  next used vacant hvacant =>
    have hnodup := h.vacant_nodup
    rw [hvacant, List.nodup_cons] at hnodup
    by_cases hslot : used = slot
    · -- The slot used again is not listed a second time
      subst hslot
      simp [Array.getElem?_modify, hnodup.1]
    · have hmem := h.mem_vacant slot
      rw [hvacant, List.mem_cons] at hmem
      simpa [Array.getElem?_modify, hslot, Ne.symm hslot] using hmem
  -- No slot is vacant, so the new one lies behind all
  next hvacant =>
    rw [h.mem_vacant slot, Array.getElem?_push]
    by_cases hslot : slot = store.slots.size
    · simp [hslot]
    · simp [hslot]

theorem live_insert (store : Store α) (value : α) :
    (store.insert value).2.live = store.live + 1 := by
  unfold insert
  split <;> rfl

theorem Sound.insert {store : Store α} (h : store.Sound) (value : α) :
    (store.insert value).2.Sound where
  vacant_nodup := by
    have hnodup := h.vacant_nodup
    unfold Store.insert
    split
    next slot vacant hvacant =>
      rw [hvacant, List.nodup_cons] at hnodup
      exact hnodup.2
    next => exact hnodup
  mem_vacant := h.mem_vacant_insert value
  counted := by
    -- The new key was not among the old ones, so one more value is counted
    have hnew : (store.insert value).1 ∉ store.keys := by
      rw [mem_keys, holds, get?_insert_fst h]
      simp
    have hlisted (key : Key) : (store.insert value).2.holds key ↔
        key ∈ (store.insert value).1 :: store.keys := by
      rw [holds_insert h, List.mem_cons, mem_keys]
    rw [live_insert, h.counted, length_keys_eq (List.nodup_cons.mpr ⟨hnew, store.nodup_keys⟩) hlisted,
      List.length_cons]

theorem Sound.modify {store : Store α} (h : store.Sound) (key : Key) (change : α → α) :
    (store.modify key change).Sound where
  vacant_nodup := h.vacant_nodup
  mem_vacant slot := by
    -- A slot with a value keeps having one
    refine (h.mem_vacant slot).trans ?_
    simp only [Store.modify, Array.getElem?_modify]
    by_cases hslot : key.slot = slot
    · cases hrecord : store.slots[slot]? with
      | none => simp [hslot]
      | some record => by_cases hgen : record.generation = key.generation <;> simp [hslot, hgen]
    · simp [hslot]
  counted := by
    -- Modifying a value takes no key away
    have hkeys : (store.modify key change).keys.length = store.keys.length :=
      length_keys_eq store.nodup_keys fun other => by rw [holds_modify, mem_keys]
    exact h.counted.trans hkeys.symm

theorem Sound.erase {store : Store α} (h : store.Sound) (key : Key) :
    (store.erase key).Sound := by
  cases hvalue : store.get? key with
  | none =>
    rw [erase_of_none hvalue]
    exact h
  | some value =>
    have hrecord := get?_eq_some_iff.mp hvalue
    have hkey : key ∈ store.keys := mem_keys.mpr (Option.isSome_iff_exists.mpr ⟨value, hvalue⟩)
    -- The key that is given up was counted, and no other key is lost
    have hkeys : (store.erase key).keys.length = store.keys.length - 1 := by
      rw [← List.length_erase_of_mem hkey]
      refine length_keys_eq (store.nodup_keys.erase key) fun other => ?_
      rw [holds_erase, store.nodup_keys.mem_erase_iff, mem_keys]
    rw [erase_of_some hvalue] at hkeys ⊢
    refine ⟨List.nodup_cons.mpr ⟨fun hmem => ?_, h.vacant_nodup⟩, fun slot => ?_, ?_⟩
    · -- A slot that holds a value was not vacant before
      obtain ⟨record, hsame, hempty⟩ := (h.mem_vacant key.slot).mp hmem
      rw [hrecord, Option.some.injEq] at hsame
      simp [← hsame] at hempty
    · rw [List.mem_cons, h.mem_vacant slot, Array.getElem?_modify]
      by_cases hslot : key.slot = slot
      · simp [← hslot, hrecord]
      · simp [hslot, Ne.symm hslot]
    · rw [hkeys, h.counted]

end TokenNet.Store
