import TokenNet.Arithmetic
import TokenNet.Proofs.Change.Build
import TokenNet.Proofs.Table

/-!
# Refusals of a library

A call that is refused should leave a library as it was.  A single edit does, because it is refused
before anything is changed.  Adding arithmetic is a sequence of edits: when one of its identifiers
is taken, the specifications in front of that one have been added already and they stay.

## Main statements

- `Library.exists_of_editAll_error`: a refused sequence of edits leaves what the edits before the
  refused one have made.
- `Library.rows_of_editAll_add`: specifications that are added come behind those that are there.
- `Library.refusals_leave_what_was_added`: what every refused call leaves of every library.
- `Library.decrementTaken_not_kept`: a refused call that has changed the library.
-/

namespace TokenNet

namespace Table

variable {α : Type}

/-- A new name gets the last row. -/
theorem rows_insert {table : Table α} {name : String} (h : table.contains name = false)
    (value : α) : (table.insert name value).rows = table.rows ++ [(name, value)] := by
  unfold insert
  rw [dif_neg (Bool.eq_false_iff.mp h)]

end Table

namespace Library

variable {library left : Library} {refusal : RegistryError}

/-! ## Edits in order -/

/-- **A refused sequence of edits** leaves what the edits before the refused one have made, by
induction on the edits. -/
theorem exists_of_editAll_error {edits : List Edit}
    (h : library.editAll edits = (left, .error refusal)) :
    ∃ before refused after, edits = before ++ refused :: after ∧
      library.editAll before = (left, .ok ()) ∧ left.edit refused = .error refusal := by
  induction edits generalizing library with
  | nil => cases h
  | cons first rest ih =>
    unfold editAll at h
    split at h
    -- The first edit was carried out, so a later one is refused
    next changed hfirst =>
      obtain ⟨before, refused, after, rfl, hbefore, hrefused⟩ := ih h
      refine ⟨first :: before, refused, after, rfl, ?_, hrefused⟩
      unfold editAll
      rw [hfirst]
      exact hbefore
    -- The first edit is refused, and nothing stands before it
    next refusal' hfirst =>
      obtain ⟨rfl, hrefusal⟩ := Prod.mk.inj h
      obtain rfl := Except.error.inj hrefusal
      exact ⟨[], first, rest, rfl, rfl, hfirst⟩

/-- A specification is added unless its identifier is taken. -/
theorem add_eq_ok_iff {spec : Specification} :
    library.add spec = .ok left ↔ library.contains spec.identifier = false ∧
      left = { specifications := library.specifications.insert spec.identifier spec } := by
  unfold add
  cases library.contains spec.identifier <;> simp [eq_comm]

/-- A specification is refused when its identifier is taken. -/
theorem add_eq_error_iff {spec : Specification} :
    library.add spec = .error refusal ↔
      library.contains spec.identifier = true ∧ refusal = .duplicate spec.identifier := by
  unfold add
  cases library.contains spec.identifier <;> simp [eq_comm]

/-- The row of a specification. -/
def row (spec : Specification) : String × Specification :=
  (spec.identifier, spec)

/-- **Specifications that are added** come behind those that are there, in the order in which they
are added. -/
theorem rows_of_editAll_add {specs : List Specification}
    (h : library.editAll (specs.map .add) = (left, .ok ())) :
    left.specifications.rows = library.specifications.rows ++ specs.map row := by
  induction specs generalizing library with
  | nil =>
    obtain rfl : library = left := congrArg Prod.fst h
    exact (List.append_nil _).symm
  | cons first rest ih =>
    rw [List.map_cons] at h
    unfold editAll at h
    split at h
    -- The first one is added at the end, and the rest behind it
    next changed hfirst =>
      obtain ⟨hfree, rfl⟩ := add_eq_ok_iff.mp hfirst
      rw [ih h, Table.rows_insert hfree, List.append_assoc]
      rfl
    next => cases h

/-- What is taken after specifications have been added was taken before, or is one of theirs. -/
theorem contains_of_rows {specs : List Specification}
    (h : left.specifications.rows = library.specifications.rows ++ specs.map row)
    (identifier : String) :
    left.contains identifier =
      (library.contains identifier || specs.any fun spec => spec.identifier == identifier) := by
  unfold contains Table.contains
  rw [h, List.any_append, List.any_map]
  rfl

/-! ## Calls -/

/-- A call on a library. -/
inductive Request where
  /-- Looks up a specification. -/
  | find (identifier : String)
  /-- Looks up an implementation of a specification. -/
  | implementation (identifier : String) (index : Nat)
  /-- Edits the library. -/
  | edit (edit : Edit)
  /-- Adds arithmetic. -/
  | install

/-- What a call leaves of a library, and whether it is refused. -/
def answer (library : Library) : Request → Library × Except RegistryError Unit
  | .find identifier => (library, (library.find identifier).map fun _ => ())
  | .implementation identifier index =>
    (library, (library.find identifier >>= (·.implementation index)).map fun _ => ())
  | .edit edit => library.editAll [edit]
  | .install => Arithmetic.install library

/-- A single edit that is refused changes nothing. -/
theorem eq_of_edit_refused {edit : Edit} (h : library.editAll [edit] = (left, .error refusal)) :
    left = library := by
  obtain ⟨before, refused, after, hedits, hbefore, _⟩ := exists_of_editAll_error h
  obtain ⟨rfl, _⟩ | ⟨_, _, hnil⟩ := List.cons_eq_append_iff.mp hedits
  · exact (congrArg Prod.fst hbefore).symm
  · cases List.append_eq_nil_iff.mp hnil.symm |>.2

/-- Adding arithmetic to a library has stopped in front of a specification whose identifier is
taken: the library has got the specifications before it, and nothing else. -/
structure StoppedAt (library left : Library) (before : List Specification) (taken : Specification)
    (after : List Specification) : Prop where
  order : Arithmetic.specifications = before ++ taken :: after
  free : ∀ spec ∈ before, library.contains spec.identifier = false
  taken : library.contains taken.identifier = true
  rows : left.specifications.rows = library.specifications.rows ++ before.map row

namespace StoppedAt

variable {before after : List Specification} {taken : Specification}

/-- The specifications that have been added are those whose identifiers were free. -/
theorem of_rows (order : Arithmetic.specifications = before ++ taken :: after)
    (htaken : left.contains taken.identifier = true)
    (rows : left.specifications.rows = library.specifications.rows ++ before.map row) :
    StoppedAt library left before taken after where
  order := order
  free := by
    intro spec hspec
    have hnames := left.specifications.names_nodup
    rw [rows, List.map_append, List.map_map, List.nodup_append] at hnames
    rw [Bool.eq_false_iff]
    intro hused
    obtain ⟨used, hmem, hname⟩ := List.any_eq_true.mp hused
    exact hnames.2.2 used.1 (List.mem_map_of_mem hmem) spec.identifier
      (List.mem_map.mpr ⟨spec, hspec, rfl⟩) (eq_of_beq hname)
  taken := by
    -- The identifiers of arithmetic are different, so it is none of those that have been added
    have hdistinct : (Arithmetic.specifications.map Specification.identifier).Nodup := by decide
    rw [order, List.map_append, List.map_cons, List.nodup_append] at hdistinct
    rw [contains_of_rows rows, Bool.or_eq_true] at htaken
    refine htaken.resolve_right fun hadded => ?_
    obtain ⟨spec, hspec, hname⟩ := List.any_eq_true.mp hadded
    exact hdistinct.2.2 _ (List.mem_map_of_mem hspec) _ List.mem_cons_self (eq_of_beq hname)
  rows := rows

/-- The library is the old one only if the very first identifier is taken. -/
theorem eq_iff (h : StoppedAt library left before taken after) :
    left = library ↔ library.contains "++" = true := by
  cases hbefore : before with
  -- Nothing was added before the stop, so the first name was taken
  | nil =>
    subst hbefore
    have hfirst : taken.identifier = "++" :=
      congrArg Specification.identifier (List.cons.inj h.order).1.symm
    have hsame : left = library :=
      congrArg Library.mk (Table.ext (h.rows.trans (List.append_nil _)))
    exact iff_of_true hsame (hfirst ▸ h.taken)
  -- Something was added, so the first name was free
  | cons first rest =>
    subst hbefore
    have hfirst : first.identifier = "++" :=
      congrArg Specification.identifier (List.cons.inj h.order).1.symm
    have hfree : library.contains "++" = false := hfirst ▸ h.free first List.mem_cons_self
    refine iff_of_false (fun hsame => ?_) (Bool.eq_false_iff.mp hfree)
    have hlength := congrArg List.length h.rows
    rw [hsame, List.length_append, List.length_map, List.length_cons] at hlength
    omega

end StoppedAt

/-- **Adding arithmetic** is refused at the first identifier that is taken. -/
theorem stoppedAt_of_install_refused (h : Arithmetic.install library = (left, .error refusal)) :
    ∃ before taken after, StoppedAt library left before taken after ∧
      refusal = .duplicate taken.identifier := by
  obtain ⟨added, refused, others, hedits, hadded, hrefused⟩ := exists_of_editAll_error h
  obtain ⟨before, rest, horder, rfl, hrest⟩ := List.map_eq_append_iff.mp hedits
  obtain ⟨taken, after, rfl, rfl, _⟩ := List.map_eq_cons_iff.mp hrest
  obtain ⟨htaken, rfl⟩ := add_eq_error_iff.mp hrefused
  exact ⟨before, taken, after, .of_rows horder htaken (rows_of_editAll_add hadded), rfl⟩

/-- **Refusals leave what was added.**  A refused call leaves the library exactly as it was, unless
it was to add arithmetic.  In that case it names the first identifier of arithmetic that is taken,
and the library has got the specifications that stand before that one, behind its own: it is as it
was only if that one is the first of all. -/
theorem refusals_leave_what_was_added (library : Library) (request : Request)
    (refusal : RegistryError) (h : (library.answer request).2 = .error refusal) :
    (request ≠ .install → (library.answer request).1 = library) ∧
    (request = .install →
      (∃ before taken after, StoppedAt library (library.answer request).1 before taken after ∧
        refusal = .duplicate taken.identifier) ∧
      ((library.answer request).1 = library ↔ library.contains "++" = true)) := by
  cases request with
  | find identifier => exact ⟨fun _ => rfl, nofun⟩
  | implementation identifier index => exact ⟨fun _ => rfl, nofun⟩
  | edit edit => exact ⟨fun _ => eq_of_edit_refused (Prod.ext rfl h), nofun⟩
  -- Only the installation makes several edits, so only it can stop halfway
  | install =>
    obtain ⟨before, taken, after, hstopped, hrefusal⟩ :=
      stoppedAt_of_install_refused (Prod.ext rfl h)
    exact ⟨(absurd rfl ·), fun _ => ⟨⟨before, taken, after, hstopped, hrefusal⟩, hstopped.eq_iff⟩⟩

/-! ### An identifier of arithmetic that is taken -/

/-- The primitives and an empty specification under the second identifier of arithmetic. -/
def decrementTaken : Library where
  specifications := primitives.specifications.insert "--" ⟨"--", 0, 0, []⟩

theorem install_decrementTaken :
    (decrementTaken.answer .install).2 = .error (.duplicate "--") := by
  decide +kernel

/-- A second specification of that identifier is refused and changes nothing; adding arithmetic is
refused for the same reason and changes the library. -/
theorem refusals_of_decrementTaken :
    ((decrementTaken.answer (.edit (.add Arithmetic.decrement))).2 = .error (.duplicate "--") ∧
      (decrementTaken.answer (.edit (.add Arithmetic.decrement))).1 = decrementTaken) ∧
    (decrementTaken.answer .install).2 = .error (.duplicate "--") ∧
      (decrementTaken.answer .install).1 ≠ decrementTaken := by
  have hadd : (decrementTaken.answer (.edit (.add Arithmetic.decrement))).2 =
      .error (.duplicate "--") := by decide +kernel
  have hfree : ¬ decrementTaken.contains "++" = true := by decide +kernel
  refine ⟨⟨hadd, (refusals_leave_what_was_added _ _ _ hadd).1 nofun⟩, install_decrementTaken, ?_⟩
  exact mt ((refusals_leave_what_was_added _ _ _ install_decrementTaken).2 rfl).2.mp hfree

/-- Adding arithmetic is refused there, and yet the first specification of arithmetic is new. -/
theorem decrementTaken_not_kept :
    (decrementTaken.answer .install).2 = .error (.duplicate "--") ∧
      decrementTaken.get? "++" = none ∧
      (decrementTaken.answer .install).1.get? "++" = some Arithmetic.increment ∧
      ¬ ∀ (library : Library) (request : Request) (refusal : RegistryError),
        (library.answer request).2 = .error refusal → (library.answer request).1 = library := by
  have hold : decrementTaken.get? "++" = none := by decide +kernel
  have hnew : (decrementTaken.answer .install).1.get? "++" = some Arithmetic.increment := by
    decide +kernel
  refine ⟨install_decrementTaken, hold, hnew, fun hkept => ?_⟩
  rw [hkept _ _ _ install_decrementTaken, hold] at hnew
  cases hnew

end Library

end TokenNet
