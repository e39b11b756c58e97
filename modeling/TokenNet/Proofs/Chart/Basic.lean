import Mathlib.Tactic.Common
import TokenNet.Primitive

/-!
# Charts

A chart says of a network of adders what a reader of its wiring wants to know: which slots an adder
reads, where its sum shows, and where the token goes from there.  It forgets nodes, cells and
joins.  Slots are inlets, named by their position, and rows stand under the entry at which the
token comes to the adder; a join on the way is only counted.

A run through a chart is described by what it ends in.  `Ends` says three things at once: every
memory on the way has a property, the run comes to an exit in a memory as wanted, and it takes no
more firings than a bound says.  The property on the way is what a run keeps that is stopped before
it ends.

## Main statements

- `Ends.zero`, `Ends.other`, `Ends.straight`, `Ends.constant`: a run that begins with a firing.
- `Ends.mono`: more firings are allowed, too.
-/

namespace TokenNet

/-! ## Rows -/

/-- Where the token can be: at an adder, or out at an exit of the network. -/
inductive Place where
  | row (entry : Nat)
  | exit (index : Nat)
deriving DecidableEq, Repr

/-- Where the token goes next, and the number of joins on the way. -/
structure Jump where
  place : Place
  joins : Nat
deriving DecidableEq, Repr

/-- What an adder yields: a constant unless both of its inlets are wired. -/
inductive Source where
  | constant (value : Value)
  | sum (left right : Nat)
deriving DecidableEq, Repr

/-- An adder: what it yields, the slots where this shows, whether it shows at the outlet of the
network, and where the token goes if it is zero and if it is not. -/
structure Row where
  source : Source
  writes : List Nat
  emits : Bool
  zero : Jump
  other : Jump
deriving DecidableEq, Repr

/-- Rows under their entries. -/
abbrev Listing := List (Nat × Row)

/-! ## Memory -/

/-- What is shown at the slots and at the outlet of the network. -/
structure Memory where
  slot : Nat → Value
  out : Value

namespace Memory

/-- A new value at some slots, and at the outlet if it is emitted. -/
def write (memory : Memory) (slots : List Nat) (emits : Bool) (value : Value) : Memory where
  slot := fun s => if s ∈ slots then value else memory.slot s
  out := if emits then value else memory.out

/-- Some slots show a value. -/
def Shows (memory : Memory) (slots : List Nat) (value : Value) : Prop :=
  ∀ s ∈ slots, memory.slot s = value

@[simp] theorem slot_write (memory : Memory) (slots : List Nat) (emits : Bool) (value : Value)
    (s : Nat) : (memory.write slots emits value).slot s =
      if s ∈ slots then value else memory.slot s := rfl

@[simp] theorem out_write (memory : Memory) (slots : List Nat) (emits : Bool) (value : Value) :
    (memory.write slots emits value).out = if emits then value else memory.out := rfl

/-- Two memories show the same at some slots. -/
def Agrees (later memory : Memory) (slots : List Nat) : Prop :=
  ∀ s ∈ slots, later.slot s = memory.slot s

theorem Agrees.mono {later memory : Memory} {slots fewer : List Nat}
    (h : later.Agrees memory slots) (hsub : ∀ s ∈ fewer, s ∈ slots) : later.Agrees memory fewer :=
  fun s hs => h s (hsub s hs)

theorem Shows.congr {later memory : Memory} {slots : List Nat} {value : Value}
    (h : memory.Shows slots value) (hsame : later.Agrees memory slots) :
    later.Shows slots value :=
  fun s hs => (hsame s hs).trans (h s hs)

/-- Slots that are not written show what they did. -/
theorem agrees_write (memory : Memory) {slots written : List Nat}
    (h : ∀ s ∈ slots, s ∉ written) (emits : Bool) (value : Value) :
    (memory.write written emits value).Agrees memory slots := by
  intro s hs
  rw [slot_write, if_neg (h s hs)]

theorem Shows.write {memory : Memory} {slots : List Nat} {value : Value}
    (h : memory.Shows slots value) {written : List Nat} (hother : ∀ s ∈ slots, s ∉ written)
    (emits : Bool) (new : Value) : (memory.write written emits new).Shows slots value :=
  h.congr (memory.agrees_write hother emits new)

/-- Slots that are written show the new value. -/
theorem shows_write (memory : Memory) {slots written : List Nat} (h : ∀ s ∈ slots, s ∈ written)
    (emits : Bool) (new : Value) : (memory.write written emits new).Shows slots new := by
  intro s hs
  rw [slot_write, if_pos (h s hs)]

end Memory

/-- What a row yields. -/
def Source.value (memory : Memory) : Source → Value
  | constant value => value
  | sum left right => memory.slot left + memory.slot right

namespace Row

/-- What the memory is after the row has fired. -/
def fire (row : Row) (memory : Memory) : Memory :=
  memory.write row.writes row.emits (row.source.value memory)

/-- Where the token goes after a firing that yields a value. -/
def jump (row : Row) (value : Value) : Jump :=
  if value = 0 then row.zero else row.other

end Row

/-! ## Runs -/

/-- From a place, the token comes to an exit. -/
inductive Ends (rows : Listing) (always : Memory → Prop) (done : Nat → Memory → Prop) :
    Nat → Place → Memory → Prop where
  -- An exit is reached with the memory that was wanted
  | exit {bound index : Nat} {memory : Memory} : always memory → done index memory →
      Ends rows always done bound (.exit index) memory
  -- A row fires, and its jump leads on within the bound
  | row {bound total entry : Nat} {row : Row} {memory : Memory} :
      rows.lookup entry = some row → always memory →
      Ends rows always done bound (row.jump (row.source.value memory)).place (row.fire memory) →
      bound + (row.jump (row.source.value memory)).joins + 1 ≤ total →
      Ends rows always done total (.row entry) memory

namespace Ends

variable {rows : Listing} {always : Memory → Prop} {done : Nat → Memory → Prop}
variable {bound total entry : Nat} {place : Place} {memory : Memory}

theorem always_of (h : Ends rows always done bound place memory) : always memory := by
  cases h with
  | exit halways _ => exact halways
  | row _ halways _ _ => exact halways

theorem mono (h : Ends rows always done bound place memory) (hle : bound ≤ total) :
    Ends rows always done total place memory := by
  cases h with
  | exit halways hdone => exact .exit halways hdone
  | row hrow halways hrest hbound => exact .row hrow halways hrest (Nat.le_trans hbound hle)

/-! ### Single firings -/

variable {source : Source} {writes : List Nat} {emits : Bool} {joins : Nat} {jump : Jump}

/-- A row that yields zero. -/
theorem zero (bound : Nat)
    (hrow : rows.lookup entry = some ⟨source, writes, emits, ⟨place, joins⟩, jump⟩)
    (halways : always memory) (hvalue : source.value memory = 0)
    (hnext : always (memory.write writes emits 0))
    (hrest : always (memory.write writes emits 0) →
      Ends rows always done bound place (memory.write writes emits 0))
    (hbound : bound + joins + 1 ≤ total) : Ends rows always done total (.row entry) memory := by
  -- The value is zero, so the row takes its first jump
  refine .row hrow halways (?_ : Ends rows always done bound _ _) ?_
  · rw [Row.fire, hvalue, Row.jump, if_pos rfl]
    exact hrest hnext
  · rw [hvalue, Row.jump, if_pos rfl]
    exact hbound

/-- A row that yields another value. -/
theorem other (bound : Nat) {v : Value}
    (hrow : rows.lookup entry = some ⟨source, writes, emits, jump, ⟨place, joins⟩⟩)
    (halways : always memory) (hvalue : source.value memory = v) (hne : v ≠ 0)
    (hnext : always (memory.write writes emits v))
    (hrest : always (memory.write writes emits v) →
      Ends rows always done bound place (memory.write writes emits v))
    (hbound : bound + joins + 1 ≤ total) : Ends rows always done total (.row entry) memory := by
  -- The value is not zero, so the row takes its second jump
  refine .row hrow halways (?_ : Ends rows always done bound _ _) ?_
  · rw [Row.fire, hvalue, Row.jump, if_neg hne]
    exact hrest hnext
  · rw [hvalue, Row.jump, if_neg hne]
    exact hbound

/-- A row that sends the token the same way whatever it yields. -/
theorem straight (bound : Nat) {v : Value}
    (hrow : rows.lookup entry = some ⟨source, writes, emits, ⟨place, joins⟩, ⟨place, joins⟩⟩)
    (halways : always memory) (hvalue : source.value memory = v)
    (hnext : always (memory.write writes emits v))
    (hrest : always (memory.write writes emits v) →
      Ends rows always done bound place (memory.write writes emits v))
    (hbound : bound + joins + 1 ≤ total) : Ends rows always done total (.row entry) memory := by
  -- Both jumps of the row are the same
  by_cases hzero : v = 0
  · rw [hzero] at hvalue hnext hrest
    exact .zero bound hrow halways hvalue hnext hrest hbound
  · exact .other bound hrow halways hvalue hzero hnext hrest hbound

/-- A row that yields a constant. -/
theorem constant (bound : Nat) {v : Value}
    (hrow : rows.lookup entry =
      some ⟨.constant v, writes, emits, ⟨place, joins⟩, ⟨place, joins⟩⟩)
    (halways : always memory) (hnext : always (memory.write writes emits v))
    (hrest : always (memory.write writes emits v) →
      Ends rows always done bound place (memory.write writes emits v))
    (hbound : bound + joins + 1 ≤ total) : Ends rows always done total (.row entry) memory :=
  .straight bound hrow halways rfl hnext hrest hbound

end Ends

end TokenNet
