import Mathlib.Data.List.Nodup
import TokenNet.Table

/-!
# Look-up in tables

A table answers to the name that was written last as a finite map does.  Many tables name their
rows by numbers, and different numbers are different names.
-/

namespace TokenNet

/-- Names that are numbered behind a common stem are different when their numbers are. -/
theorem numbered_injective (stem : String) :
    Function.Injective fun number : Nat => stem ++ toString number := by
  intro i j h
  have hlists := congrArg String.toList h
  simp only [Nat.toString_eq_ofList_toDigits, String.toList_append, String.toList_ofList,
    List.append_cancel_left_eq] at hlists
  have hvalue := congrArg (fun digits => Nat.ofDigitChars 10 digits 0) hlists
  simpa only [Nat.ofDigitChars_ten_toDigits] using hvalue

namespace Table

variable {α : Type}

theorem contains_iff_isSome {table : Table α} {name : String} :
    table.contains name ↔ (table.get? name).isSome := by
  unfold contains get?
  rw [Option.isSome_map, List.find?_isSome, List.any_eq_true]

private theorem find?_map_replaced (name other : String) (value : α) (rows : List (String × α)) :
    ((rows.map (replaced name value)).find? fun row => row.1 == other) =
      (rows.find? fun row => row.1 == other).map (replaced name value) := by
  rw [List.find?_map]
  congr 2
  funext row
  unfold replaced
  dsimp only [Function.comp_apply]
  split <;> rfl

/-- **Look-up after an insertion**: the name finds the new value, and every other name finds what it
found before. -/
theorem get?_insert (table : Table α) (name : String) (value : α) (other : String) :
    (table.insert name value).get? other =
      if other = name then some value else table.get? other := by
  unfold insert
  split
  -- The name is used, so its row is replaced in place
  next hused =>
    obtain ⟨old, hold⟩ := Option.isSome_iff_exists.mp (contains_iff_isSome.mp hused)
    unfold get? at hold ⊢
    rw [find?_map_replaced, Option.map_map]
    by_cases hname : other = name
    · subst hname
      obtain ⟨row, hrow, _⟩ := Option.map_eq_some_iff.mp hold
      have hkey : row.1 == other := by simpa using List.find?_some hrow
      simp [hrow, replaced, hkey]
    · rw [if_neg hname]
      cases hrow : table.rows.find? fun row => row.1 == other with
      | none => rfl
      | some row =>
        have hkey : row.1 = other := by simpa using List.find?_some hrow
        -- A row with another name is not replaced
        have hne : ¬ (row.1 == name) = true := by simpa [hkey] using hname
        simp [replaced, hne]
  -- The name is new, so its row comes last
  next hnew =>
    have hnone : table.get? name = none := by
      rw [← Option.not_isSome_iff_eq_none, ← contains_iff_isSome]
      exact hnew
    unfold get? at hnone ⊢
    rw [List.find?_append]
    by_cases hname : other = name
    · subst hname
      rw [Option.map_eq_none_iff] at hnone
      simp [hnone]
    · have hrow : ¬ (name == other) = true := by simpa using Ne.symm hname
      simp [hname, hrow]

/-- No name occurs twice, so a name finds the value of the row that has it. -/
theorem get?_eq_some_iff {table : Table α} {name : String} {value : α} :
    table.get? name = some value ↔ (name, value) ∈ table.rows := by
  constructor
  · intro h
    obtain ⟨⟨found, _⟩, hrow, rfl⟩ := Option.map_eq_some_iff.mp h
    have hname : found = name := by simpa using List.find?_some hrow
    exact hname ▸ List.mem_of_find?_eq_some hrow
  -- Names are used once, so the row found is the row meant
  · intro hmem
    have hused : table.contains name := List.any_eq_true.mpr ⟨_, hmem, beq_self_eq_true name⟩
    obtain ⟨other, hother⟩ := Option.isSome_iff_exists.mp (contains_iff_isSome.mp hused)
    obtain ⟨⟨found, _⟩, hrow, rfl⟩ := Option.map_eq_some_iff.mp hother
    have hname : found = name := by simpa using List.find?_some hrow
    have hsame := List.inj_on_of_nodup_map table.names_nodup (List.mem_of_find?_eq_some hrow) hmem
      hname
    rw [hother, hsame]

/-- Changes every value, knowing its name. -/
def mapNamed {β : Type} (change : String → α → β) (table : Table α) : Table β where
  rows := table.rows.map fun row => (row.1, change row.1 row.2)
  names_nodup := by
    rw [List.map_map]
    exact table.names_nodup

theorem get?_mapNamed {β : Type} (change : String → α → β) (table : Table α) (name : String) :
    (table.mapNamed change).get? name = (table.get? name).map (change name) := by
  unfold get? mapNamed
  rw [List.find?_map, Function.comp_def]
  dsimp only
  cases hrow : table.rows.find? fun row => row.1 == name with
  | none => rfl
  | some row =>
    have hname : row.1 = name := by simpa using List.find?_some hrow
    simp [hname]

end Table

end TokenNet
