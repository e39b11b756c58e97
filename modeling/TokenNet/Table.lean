/-!
# Tables

A table is a finite map from names to values.  Names stand in the order in which they were first
given, and no name occurs twice; putting a value under a name that is there already replaces
the value in place.
-/

namespace TokenNet

/-- Named values in order of first use. -/
structure Table (α : Type) where
  rows : List (String × α) := []
  names_nodup : (rows.map Prod.fst).Nodup := by simp

namespace Table

variable {α : Type}

instance : Inhabited (Table α) := ⟨{}⟩

instance [Repr α] : Repr (Table α) := ⟨fun table precedence => reprPrec table.rows precedence⟩

/-- Two tables are equal when their rows are. -/
@[ext] theorem ext {a b : Table α} (h : a.rows = b.rows) : a = b := by
  cases a
  cases b
  simp_all

instance [DecidableEq α] : DecidableEq (Table α) := fun a b =>
  decidable_of_iff (a.rows = b.rows) ⟨ext, fun h => h ▸ rfl⟩

/-! ## Reading -/

/-- The value under a name. -/
def get? (table : Table α) (name : String) : Option α :=
  (table.rows.find? fun row => row.1 == name).map Prod.snd

/-- Whether a name is in use. -/
def contains (table : Table α) (name : String) : Bool :=
  table.rows.any fun row => row.1 == name

/-- The number of names. -/
def size (table : Table α) : Nat :=
  table.rows.length

/-- The rows in ascending order of their names, compared code point by code point. -/
def sorted (table : Table α) : List (String × α) :=
  table.rows.mergeSort fun a b => decide (a.1 ≤ b.1)

/-! ## Writing -/

/-- Replaces the value in the row of that name. -/
def replaced (name : String) (value : α) (row : String × α) : String × α :=
  if row.1 == name then (row.1, value) else row

private theorem map_fst_replaced (name : String) (value : α) (rows : List (String × α)) :
    (rows.map (replaced name value)).map Prod.fst = rows.map Prod.fst := by
  induction rows with
  | nil => rfl
  | cons row rest ih =>
      simp only [List.map_cons, ih, List.cons.injEq, and_true]
      unfold replaced
      split <;> rfl

private theorem not_mem_of_not_contains {table : Table α} {name : String}
    (h : ¬ table.contains name = true) : name ∉ table.rows.map Prod.fst := by
  intro hmem
  apply h
  obtain ⟨row, hrow, rfl⟩ := List.mem_map.mp hmem
  exact List.any_eq_true.mpr ⟨row, hrow, beq_self_eq_true _⟩

/-- Puts a value under a name: in place of the value already there, or in a new last row. -/
def insert (table : Table α) (name : String) (value : α) : Table α :=
  if h : table.contains name = true then
    -- A row keeps its place when its value is replaced
    { rows := table.rows.map (replaced name value)
      names_nodup := by
        rw [map_fst_replaced]
        exact table.names_nodup }
  else
    { rows := table.rows ++ [(name, value)]
      names_nodup := by
        have hnew := not_mem_of_not_contains h
        rw [List.map_append, List.nodup_append]
        refine ⟨table.names_nodup, by simp, ?_⟩
        intro a ha b hb hab
        rw [List.map_singleton, List.mem_singleton] at hb
        rw [hab, hb] at ha
        exact hnew ha }

/-- Changes the value under a name; a name that is not in use changes nothing. -/
def modify (table : Table α) (name : String) (change : α → α) : Table α :=
  match table.get? name with
  | some value => table.insert name (change value)
  | none => table

end Table

end TokenNet
