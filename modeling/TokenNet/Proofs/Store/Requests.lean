import TokenNet.Proofs.Store.Keys

/-!
# Requests to a store

A store is asked to keep values, to find and change them, and to give them up.  Whatever is asked,
with keys of any origin, the store behaves as a finite map whose keys are new each time: what it
finds can be told from the record of what was asked and answered, without looking at slots and
generations.

A generation counts how often its slot was vacated, so no number in a store is larger than the
number of slots or the number of times that one of them was vacated.

## Main statements

- `Recorded.serve`: what one request does to a store and its record.
- `Recorded.serveAll`: a store that has answered any requests is as its record says.
- `FreshMap`, `Recorded.freshMap`: what that says from outside.
- `Serves.get?_eq_none`: a key that has been given up is not found again.
-/

namespace TokenNet.Store

variable {α : Type}

/-! ## Requests and answers -/

/-- A request to a store.  The keys need not come from that store. -/
inductive Request (α : Type) where
  /-- Keeps a value under a new key. -/
  | insert (value : α)
  /-- Gives a value up. -/
  | remove (key : Key)
  /-- Finds a value. -/
  | get (key : Key)
  /-- Finds a value and changes it. -/
  | modify (key : Key) (change : α → α)

/-- The answer to a request: a new key, or the value that was found. -/
inductive Answer (α : Type) where
  | key (key : Key)
  | value (value : Option α)

/-- Answers a request. -/
def serve (store : Store α) : Request α → Store α × Answer α
  | .insert value => ((store.insert value).2, .key (store.insert value).1)
  | .remove key =>
    match store.remove key with
    | none => (store, .value none)
    | some (value, rest) => (rest, .value (some value))
  | .get key => (store, .value (store.get? key))
  | .modify key change => (store.modify key change, .value (store.get? key))

/-- Giving up answers what was found. -/
theorem serve_remove (store : Store α) (key : Key) :
    store.serve (.remove key) = (store.erase key, .value (store.get? key)) := by
  dsimp only [serve]
  rw [remove_eq]
  cases hvalue : store.get? key with
  | none => rw [erase_of_none hvalue, Option.map_none]
  | some value => rfl

/-- What was asked and answered, first request first. -/
abbrev Record (α : Type) := List (Request α × Answer α)

/-- Answers requests in order and records them. -/
def serveAll (store : Store α) : List (Request α) → Store α × Record α
  | [] => (store, [])
  | request :: rest =>
    let (served, answer) := store.serve request
    let (after, record) := served.serveAll rest
    (after, (request, answer) :: record)

namespace Record

/-- The keys that were answered. -/
def issued (record : Record α) : List Key :=
  record.filterMap fun
    | (.insert _, .key key) => some key
    | _ => none

/-- The keys whose values were given up. -/
def vacated (record : Record α) : List Key :=
  record.filterMap fun
    | (.remove key, .value (some _)) => some key
    | _ => none

/-- What a request makes of the value behind a key. -/
def effect (key : Key) (before : Option α) : Request α × Answer α → Option α
  | (.insert value, .key issued) => if issued = key then some value else before
  | (.remove removed, _) => if removed = key then none else before
  | (.modify changed change, _) => if changed = key then before.map change else before
  | _ => before

/-- The value that was stored last behind a key and not given up since. -/
def stored (record : Record α) (key : Key) : Option α :=
  record.foldl (effect key) none

@[simp] theorem issued_append (record later : Record α) :
    issued (record ++ later) = issued record ++ issued later :=
  List.filterMap_append

@[simp] theorem vacated_append (record later : Record α) :
    vacated (record ++ later) = vacated record ++ vacated later :=
  List.filterMap_append

@[simp] theorem stored_append_singleton (record : Record α) (entry : Request α × Answer α)
    (key : Key) : stored (record ++ [entry]) key = effect key (stored record key) entry := by
  simp [stored]

end Record

/-! ## Generations -/

/-- The generation of a slot, which is 0 for a slot that there is not yet. -/
def generationAt (store : Store α) (slot : Nat) : Nat :=
  (store.slots[slot]?.map Slot.generation).getD 0

/-- A key that finds a value has the generation of its slot. -/
theorem generation_of_get? {store : Store α} {key : Key} {value : α}
    (h : store.get? key = some value) : store.generationAt key.slot = key.generation := by
  rw [generationAt, get?_eq_some_iff.mp h]
  rfl

/-- A new key has the generation of its slot. -/
theorem generation_insert_fst (store : Store α) (value : α) :
    store.generationAt (store.insert value).1.slot = (store.insert value).1.generation := by
  unfold insert
  split
  next slot vacant hvacant => rfl
  next hvacant => simp [generationAt]

theorem generationAt_insert (store : Store α) (value : α) (slot : Nat) :
    (store.insert value).2.generationAt slot = store.generationAt slot := by
  unfold insert generationAt
  split
  -- A vacant slot is used again in the generation that it has
  next other vacant hvacant =>
    rw [Array.getElem?_modify]
    split
    next => rw [Option.map_map]; rfl
    next => rfl
  -- A new slot starts at generation zero
  next hvacant =>
    rw [Array.getElem?_push]
    split
    next hslot => simp [hslot]
    next => rfl

theorem generationAt_modify (store : Store α) (key : Key) (change : α → α) (slot : Nat) :
    (store.modify key change).generationAt slot = store.generationAt slot := by
  unfold modify generationAt
  rw [Array.getElem?_modify]
  split
  next =>
    rw [Option.map_map]
    congr 2
    funext record
    simp only [Function.comp]
    split <;> rfl
  next => rfl

/-- Giving a value up raises the generation of its slot. -/
theorem generationAt_erase {store : Store α} {key : Key} {value : α}
    (h : store.get? key = some value) (slot : Nat) :
    (store.erase key).generationAt slot =
      store.generationAt slot + if key.slot = slot then 1 else 0 := by
  have hrecord := get?_eq_some_iff.mp h
  unfold erase remove generationAt
  rw [h]
  simp only [Array.getElem?_modify]
  split
  next hslot => simp [← hslot, hrecord]
  next => rfl

/-! ## Records -/

/-- A store is as its record says. -/
structure Recorded (store : Store α) (record : Record α) : Prop where
  sound : store.Sound
  nodup : record.issued.Nodup
  found : ∀ key, store.get? key = record.stored key
  vacated : ∀ key, key ∈ record.vacated ↔ key.generation < store.generationAt key.slot
  issued : ∀ key, key ∈ record.issued ↔ key ∈ record.vacated ∨ store.holds key
  counted : ∀ slot, store.generationAt slot = record.vacated.countP fun key => key.slot = slot

theorem Recorded.empty : Recorded ({} : Store α) [] := by
  refine ⟨.empty, List.nodup_nil, fun key => ?_, fun key => ?_, fun key => ?_, fun slot => ?_⟩
  · rfl
  · simp [Record.vacated, generationAt]
  · simp [Record.vacated, Record.issued, holds, get?]
  · simp [Record.vacated, generationAt]

variable {store : Store α} {record : Record α}

namespace Recorded

/-- A key that finds a value was issued, and its value was not given up. -/
theorem holds_iff (h : store.Recorded record) (key : Key) :
    store.holds key ↔ key ∈ record.issued ∧ key ∉ record.vacated := by
  rw [h.issued]
  constructor
  · intro hholds
    refine ⟨.inr hholds, fun hvacated => ?_⟩
    obtain ⟨value, hvalue⟩ := Option.isSome_iff_exists.mp hholds
    have hless := (h.vacated key).mp hvacated
    rw [generation_of_get? hvalue] at hless
    exact Nat.lt_irrefl _ hless
  · rintro ⟨hvacated | hholds, hkept⟩
    · exact absurd hvacated hkept
    · exact hholds

/-- **A new key was never issued before.** -/
theorem insert_fst_notMem (h : store.Recorded record) (value : α) :
    (store.insert value).1 ∉ record.issued := by
  rw [h.issued]
  rintro (hvacated | hholds)
  · have hless := (h.vacated _).mp hvacated
    rw [generation_insert_fst] at hless
    exact Nat.lt_irrefl _ hless
  · rw [holds, get?_insert_fst h.sound value] at hholds
    cases hholds

/-! ### Single requests -/

theorem insert (h : store.Recorded record) (value : α) :
    (store.insert value).2.Recorded
      (record ++ [(.insert value, .key (store.insert value).1)]) where
  sound := h.sound.insert value
  nodup := by
    rw [Record.issued_append, List.nodup_append_comm]
    exact List.nodup_cons.mpr ⟨h.insert_fst_notMem value, h.nodup⟩
  -- The new key finds the value, and vacates nothing
  found key := by
    rw [get?_insert h.sound, Record.stored_append_singleton, Record.effect, h.found]
    simp only [eq_comm]
  vacated key := by
    rw [generationAt_insert, Record.vacated_append, ← h.vacated]
    simp [Record.vacated]
  -- The new key is issued, and it is held
  issued key := by
    have hnew : key ∈ (Record.issued [(.insert value, .key (store.insert value).1)] : List Key) ↔
        key = (store.insert value).1 := List.mem_singleton
    have hsame : Record.vacated (record ++ [(.insert value, .key (store.insert value).1)]) =
        record.vacated := by simp [Record.vacated]
    rw [Record.issued_append, List.mem_append, h.issued, hnew, hsame, holds_insert h.sound]
    exact or_assoc.trans (or_congr_right or_comm)
  counted slot := by
    rw [generationAt_insert, Record.vacated_append, h.counted]
    simp [Record.vacated]

/-- A key that finds nothing gives nothing up. -/
theorem remove_of_none (h : store.Recorded record) {key : Key} (hnone : store.get? key = none) :
    store.Recorded (record ++ [(.remove key, .value none)]) where
  sound := h.sound
  nodup := by simpa [Record.issued] using h.nodup
  found other := by
    rw [Record.stored_append_singleton, Record.effect, h.found]
    split
    next hsame => rw [← hsame, ← h.found, hnone]
    next => rfl
  vacated other := by simpa [Record.vacated] using h.vacated other
  issued other := by simpa [Record.vacated, Record.issued] using h.issued other
  counted slot := by simpa [Record.vacated] using h.counted slot

/-- A key that finds a value gives it up. -/
theorem erase (h : store.Recorded record) {key : Key} {value : α}
    (hvalue : store.get? key = some value) :
    (store.erase key).Recorded (record ++ [(.remove key, .value (some value))]) where
  sound := h.sound.erase key
  nodup := by simpa [Record.issued] using h.nodup
  found other := by
    rw [get?_erase, Record.stored_append_singleton, Record.effect, h.found]
    simp only [eq_comm]
  vacated other := by
    have hnew : other ∈ (Record.vacated [(.remove key, .value (some value))] : List Key) ↔
        other = key := List.mem_singleton
    -- The slot goes to the next generation, so its key joins those that were vacated
    have hgeneration := generation_of_get? hvalue
    rw [Record.vacated_append, List.mem_append, h.vacated, hnew, generationAt_erase hvalue]
    obtain ⟨slot, generation⟩ := key
    obtain ⟨slot', generation'⟩ := other
    simp only [Key.mk.injEq] at hgeneration ⊢
    by_cases hslot : slot = slot'
    · subst hslot
      simp only [if_pos, true_and]
      omega
    · simp [hslot, Ne.symm hslot]
  -- The key was issued already, and moves from those held to those vacated
  issued other := by
    have hnew : other ∈ (Record.vacated [(.remove key, .value (some value))] : List Key) ↔
        other = key := List.mem_singleton
    have hsame : Record.issued (record ++ [(.remove key, .value (some value))]) =
        record.issued := by simp [Record.issued]
    have hkey : store.holds key := Option.isSome_iff_exists.mpr ⟨value, hvalue⟩
    rw [hsame, h.issued, Record.vacated_append, List.mem_append, hnew, holds_erase]
    by_cases hother : other = key
    · simp [hother, hkey]
    · simp [hother]
  -- The slot has been vacated once more
  counted slot := by
    rw [generationAt_erase hvalue, Record.vacated_append, List.countP_append, h.counted]
    simp [Record.vacated, List.countP_cons]

/-- Finding a value changes nothing. -/
theorem get (h : store.Recorded record) (key : Key) (answer : Answer α) :
    store.Recorded (record ++ [(.get key, answer)]) where
  sound := h.sound
  nodup := by simpa [Record.issued] using h.nodup
  found other := by rw [Record.stored_append_singleton, h.found]; rfl
  vacated other := by simpa [Record.vacated] using h.vacated other
  issued other := by simpa [Record.vacated, Record.issued] using h.issued other
  counted slot := by simpa [Record.vacated] using h.counted slot

/-- Changing a value changes what is found behind its key. -/
theorem modify (h : store.Recorded record) (key : Key) (change : α → α) (answer : Answer α) :
    (store.modify key change).Recorded (record ++ [(.modify key change, answer)]) where
  sound := h.sound.modify key change
  nodup := by simpa [Record.issued] using h.nodup
  found other := by
    rw [get?_modify, Record.stored_append_singleton, Record.effect, h.found]
    simp only [eq_comm]
  -- A modification neither issues a key nor vacates one
  vacated other := by
    rw [generationAt_modify, ← h.vacated]
    simp [Record.vacated]
  issued other := by
    rw [holds_modify]
    simpa [Record.vacated, Record.issued] using h.issued other
  counted slot := by
    rw [generationAt_modify, h.counted]
    simp [Record.vacated]

/-- **One request** and its answer go on record. -/
theorem serve (h : store.Recorded record) (request : Request α) :
    (store.serve request).1.Recorded (record ++ [(request, (store.serve request).2)]) := by
  cases request with
  | insert value => exact h.insert value
  | get key => exact h.get key _
  | modify key change => exact h.modify key change _
  | remove key =>
    rw [serve_remove]
    cases hvalue : store.get? key with
    | none =>
      rw [erase_of_none hvalue]
      exact h.remove_of_none hvalue
    | some value => exact h.erase hvalue

end Recorded

/-- **A store is as its record says**, whatever it is asked. -/
theorem Recorded.serveAll (requests : List (Request α)) : ∀ {store : Store α} {record : Record α},
    store.Recorded record →
    (store.serveAll requests).1.Recorded (record ++ (store.serveAll requests).2) := by
  induction requests with
  | nil =>
    intro store record h
    rw [Store.serveAll, List.append_nil]
    exact h
  | cons request rest ih =>
    intro store record h
    have hrest := ih (h.serve request)
    rw [List.append_assoc, List.singleton_append] at hrest
    exact hrest

/-- The record of requests holds them all, in order. -/
theorem map_fst_serveAll (requests : List (Request α)) : ∀ store : Store α,
    (store.serveAll requests).2.map Prod.fst = requests := by
  induction requests with
  | nil => exact fun _ => rfl
  | cons request rest ih =>
    exact fun store => congrArg (request :: ·) (ih (store.serve request).1)

/-- A key that finds nothing was not issued, or its value was given up: giving it up answers
nothing and changes nothing. -/
theorem serve_remove_of_not_holds {key : Key} (h : ¬store.holds key) :
    store.serve (.remove key) = (store, .value none) := by
  have hnone : store.get? key = none := Option.not_isSome_iff_eq_none.mp h
  rw [serve_remove, erase_of_none hnone, hnone]

/-- A generation is the number of times that its slot was vacated. -/
theorem Recorded.generation_eq (h : store.Recorded record) {slot : Nat} {held : Slot α}
    (hheld : store.slots[slot]? = some held) :
    held.generation = record.vacated.countP fun key => key.slot = slot := by
  rw [← h.counted, generationAt, hheld]
  rfl

/-- The generation of a key that was issued is at most the number of times that its slot was
vacated. -/
theorem Recorded.generation_le (h : store.Recorded record) {key : Key}
    (hkey : key ∈ record.issued) :
    key.generation ≤ record.vacated.countP fun other => other.slot = key.slot := by
  rw [← h.counted]
  rcases (h.issued key).mp hkey with hvacated | hholds
  · exact Nat.le_of_lt ((h.vacated key).mp hvacated)
  · obtain ⟨value, hvalue⟩ := Option.isSome_iff_exists.mp hholds
    exact Nat.le_of_eq (generation_of_get? hvalue).symm

/-- The size of a store is the number of keys that were issued and whose values were not given
up. -/
theorem Recorded.size_eq (h : store.Recorded record) :
    store.size = (record.issued.filter fun key => key ∉ record.vacated).length := by
  refine h.sound.size_eq (h.nodup.filter _) fun key => ?_
  rw [List.mem_filter, decide_eq_true_eq, h.holds_iff]

/-- A store that has answered the requests of a record is a finite map with fresh keys. -/
structure FreshMap (store : Store α) (record : Record α) : Prop where
  /-- No key is answered twice. -/
  fresh : record.issued.Nodup
  /-- A key finds a value if it was issued and its value was not given up. -/
  holds_iff : ∀ key, store.holds key ↔ key ∈ record.issued ∧ key ∉ record.vacated
  /-- It finds the value that was stored last. -/
  serve_get : ∀ key, store.serve (.get key) = (store, .value (record.stored key))
  /-- That value is also what a change finds. -/
  serve_modify : ∀ key change, (store.serve (.modify key change)).2 = .value (record.stored key)
  /-- And it is what is given up. -/
  serve_remove : ∀ key, (store.serve (.remove key)).2 = .value (record.stored key)
  /-- Giving up by any other key changes nothing and answers with no value. -/
  serve_remove_stale : ∀ key, ¬store.holds key →
    store.serve (.remove key) = (store, .value none)
  /-- The size is the number of keys that find a value. -/
  size_eq : store.size = (record.issued.filter fun key => key ∉ record.vacated).length
  /-- The list of vacant slots names each empty slot once, and nothing else. -/
  vacant : store.vacant.Nodup ∧ ∀ slot, slot ∈ store.vacant ↔
    ∃ held, store.slots[slot]? = some held ∧ held.content = none
  /-- A slot has been vacated as often as its generation says. -/
  generation_eq : ∀ slot held, store.slots[slot]? = some held →
    held.generation = record.vacated.countP fun key => key.slot = slot
  /-- No key was issued with a larger generation than its slot has now. -/
  generation_le : ∀ key ∈ record.issued,
    key.generation ≤ record.vacated.countP fun other => other.slot = key.slot

/-- **A store is a finite map with fresh keys.** -/
theorem Recorded.freshMap (h : store.Recorded record) : store.FreshMap record where
  fresh := h.nodup
  holds_iff := h.holds_iff
  serve_get key := by rw [← h.found]; rfl
  serve_modify key change := by rw [← h.found]; rfl
  serve_remove key := by rw [Store.serve_remove, ← h.found]
  serve_remove_stale _ := serve_remove_of_not_holds
  size_eq := h.size_eq
  vacant := ⟨h.sound.vacant_nodup, h.sound.mem_vacant⟩
  generation_eq _ _ := h.generation_eq
  generation_le _ := h.generation_le

/-! ## Sequences of requests -/

/-- The second store is the first one after some requests. -/
def Serves (store store' : Store α) : Prop :=
  ∃ requests, store' = (store.serveAll requests).1

namespace Serves

variable {store' store'' : Store α}

theorem refl (store : Store α) : Serves store store :=
  ⟨[], rfl⟩

theorem trans (h : Serves store store') (h' : Serves store' store'') : Serves store store'' := by
  obtain ⟨requests, rfl⟩ := h
  obtain ⟨later, rfl⟩ := h'
  refine ⟨requests ++ later, ?_⟩
  induction requests generalizing store with
  | nil => rfl
  | cons request rest ih => exact ih

theorem insert (store : Store α) (value : α) : Serves store (store.insert value).2 :=
  ⟨[.insert value], rfl⟩

theorem modify (store : Store α) (key : Key) (change : α → α) :
    Serves store (store.modify key change) :=
  ⟨[.modify key change], rfl⟩

theorem erase (store : Store α) (key : Key) : Serves store (store.erase key) :=
  ⟨[.remove key], (congrArg Prod.fst (store.serve_remove key)).symm⟩

/-- What is on record stays on record. -/
theorem exists_recorded (h : Serves store store') (hrecord : store.Recorded record) :
    ∃ later, store'.Recorded (record ++ later) := by
  obtain ⟨requests, rfl⟩ := h
  exact ⟨_, Recorded.serveAll requests hrecord⟩

/-- **A key that has been given up is not found again.** -/
theorem get?_eq_none {key : Key} (hrecord : store.Recorded record)
    (hissued : store.holds key) (h : Serves store store') (hgone : store'.get? key = none)
    (h' : Serves store' store'') : store''.get? key = none := by
  obtain ⟨later, hlater⟩ := h.exists_recorded hrecord
  obtain ⟨last, hlast⟩ := h'.exists_recorded hlater
  -- The key was held once and finds nothing now, so it has been vacated
  have hvacated : key ∈ Record.vacated (record ++ later) := by
    by_contra hkept
    have hfirst := ((hrecord.holds_iff key).mp hissued).1
    have hholds := (hlater.holds_iff key).mpr ⟨by simp [hfirst], hkept⟩
    simp [holds, hgone] at hholds
  by_contra hfound
  have hholds : store''.holds key := Option.isSome_iff_ne_none.mpr hfound
  -- A vacated key stays so, whatever is requested later
  have hstale : key ∈ Record.vacated (record ++ later ++ last) := by
    rw [Record.vacated_append]
    exact List.mem_append_left _ hvacated
  exact ((hlast.holds_iff key).mp hholds).2 hstale

end Serves

end TokenNet.Store
