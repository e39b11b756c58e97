import TokenNet.Proofs.Change.Build
import TokenNet.Proofs.Flow.Eager
import TokenNet.Proofs.Graph.Scheme

/-!
# Data wirings in any order

What a list of rewirings does to the scheme of a graph that is being built depends on the order of
those that wire control, but of those that wire data only on which they are.  While a graph is built
all its classes have the value zero, so its partition is known when it is known which ports share a
class; and the ports that share a class after some wirings are those that any equivalence must
identify if it identifies the old ones and the wired ones.

## Main statements

- `Shuffled`: lists of which some members are in any order.
- `Graph.HasScheme.apply`: what a rewiring does to the scheme.
- `Partition.Blank.ext`: a blank partition is known by which ports share a class.
- `Scheme.applyAll_eq_of_shuffled`: data wirings can be permuted and repeated.
-/

namespace TokenNet

/-! ## Shuffled lists -/

/-- Two lists have the same loose members, and the same other members in the same order. -/
structure Shuffled {α : Type} (loose : α → Bool) (list list' : List α) : Prop where
  mem_loose : ∀ a, loose a = true → (a ∈ list' ↔ a ∈ list)
  fixed : (list'.filter fun a => !loose a) = list.filter fun a => !loose a

namespace Shuffled

variable {α : Type} {loose : α → Bool} {list list' : List α}

theorem symm (h : Shuffled loose list list') : Shuffled loose list' list :=
  ⟨fun a ha => (h.mem_loose a ha).symm, h.fixed.symm⟩

/-- They have the same members. -/
theorem mem_iff (h : Shuffled loose list list') (a : α) : a ∈ list' ↔ a ∈ list := by
  cases hloose : loose a with
  | true => exact h.mem_loose a hloose
  | false =>
    have hfixed := congrArg (fun fixed => a ∈ fixed) h.fixed
    simpa [hloose] using hfixed

end Shuffled

/-! ## Rewirings of schemes -/

/-- Whether a rewiring wires data. -/
def Rewiring.isData : Rewiring → Bool
  | connect .. | feed .. | relay .. => true
  | direct .. | enter .. => false

namespace Scheme

/-- Carries a rewiring out. -/
def apply (scheme : Scheme) : Rewiring → Scheme
  | .connect inlet outlet => scheme.regroup fun partition => partition.join inlet outlet
  | .direct exit entry => { scheme with frame := scheme.frame.setTarget exit (some entry) }
  | .feed outer inner => scheme.feed outer inner
  | .relay outer inner => scheme.relay outer inner
  | .enter composite entry => { scheme with frame := scheme.frame.setEntry composite entry }

/-- Carries rewirings out one after another. -/
def applyAll (scheme : Scheme) (rewirings : List Rewiring) : Scheme :=
  rewirings.foldl apply scheme

end Scheme

/-- **A rewiring of a graph is the rewiring of its scheme.** -/
theorem Graph.HasScheme.apply {graph : Graph} {scheme : Scheme} (h : graph.HasScheme scheme)
    {rewiring : Rewiring} (hissued : rewiring.Issued graph) :
    (rewiring.apply graph).HasScheme (scheme.apply rewiring) := by
  cases rewiring with
  | connect inlet outlet => exact h.connect hissued.1 hissued.2
  | direct exit entry => exact h.setTarget exit (some entry)
  | feed outer inner => exact h.feed hissued.1 hissued.2
  | relay outer inner => exact h.relay hissued.1 hissued.2
  | enter composite entry => exact h.renode fun nodes => nodes.modify composite.index _

/-! ## Ports that share a class -/

namespace Partition

variable {partition partition' : Partition} {ties : Port → Port → Prop}

/-- **A blank partition is known by which ports share a class** and which are marked. -/
theorem Blank.ext (h : partition.Blank) (h' : partition'.Blank)
    (hshares : ∀ port other, partition'.Shares port other ↔ partition.Shares port other)
    (hwired : partition'.wired = partition.wired) : partition' = partition := by
  refine Partition.ext (funext fun port => ?_) hwired
  cases hclass : partition.class? port with
  -- A port without a class shares nothing, not even with itself
  | none =>
    cases hclass' : partition'.class? port with
    | none => rfl
    | some found =>
      obtain ⟨old, hold, _⟩ := (hshares port port).mp (shares_self.mpr ⟨found, hclass'⟩)
      cases hclass.symm.trans hold
  | some found =>
    obtain ⟨found', hclass', _⟩ := (hshares port port).mpr (shares_self.mpr ⟨found, hclass⟩)
    rw [hclass']
    -- The classes have the same members, and both hold the value zero
    refine congrArg some (Class.ext (Finset.ext fun other => ?_) ?_)
    · have hother := hshares port other
      unfold Shares at hother
      simpa only [hclass, hclass', Option.some.injEq, exists_eq_left'] using hother
    · rw [h _ _ hclass, h' _ _ hclass']

end Partition

/-! ## Lists of rewirings -/

namespace Rewiring

/-- A relation ties the ports that a rewiring puts into one class. -/
def Tied (ties : Port → Port → Prop) : Rewiring → Prop
  | connect inlet outlet => ties (.inlet inlet) (.outlet outlet)
  | feed _ inner => ties (.inlet inner) (.inlet inner)
  | relay outer _ => ties (.outlet outer) (.outlet outer)
  | direct .. | enter .. => True

/-- The port that a rewiring marks. -/
def marked? : Rewiring → Option Port
  | connect inlet _ => some (.inlet inlet)
  | feed _ inner => some (.inlet inner)
  | relay outer _ => some (.outlet outer)
  | direct .. | enter .. => none

end Rewiring

namespace Scheme

variable {scheme : Scheme} {rewirings rewirings' : List Rewiring}

theorem applyAll_cons (scheme : Scheme) (first : Rewiring) (rest : List Rewiring) :
    scheme.applyAll (first :: rest) = (scheme.apply first).applyAll rest :=
  rfl

/-! ### The frame -/

/-- The frame is changed by control wirings only, as a graph is. -/
theorem frame_applyAll (rewirings : List Rewiring) (scheme : Scheme) :
    (scheme.applyAll rewirings).frame =
      (rewirings.filter fun r => !r.isData).foldl Rewiring.apply scheme.frame := by
  induction rewirings generalizing scheme with
  | nil => rfl
  | cons first rest ih =>
    rw [applyAll_cons, ih]
    cases first <;> rfl

/-! ### Feeds and relays -/

theorem feeds_applyAll (outer inner : InletId) (rewirings : List Rewiring) (scheme : Scheme) :
    (scheme.applyAll rewirings).feeds outer inner ↔
      scheme.feeds outer inner ∨ .feed outer inner ∈ rewirings := by
  induction rewirings generalizing scheme with
  | nil => simp [applyAll]
  | cons first rest ih =>
    rw [applyAll_cons, ih, List.mem_cons, ← or_assoc]
    refine or_congr_left ?_
    cases first with
    | feed giver taker => simp [apply, feed]
    | _ => simp [apply, relay, regroup]

/-- The last relay of an outlet counts. -/
theorem relay?_applyAll (inner : OutletId) (rewirings : List Rewiring) (scheme : Scheme) :
    (∃ outer, .relay outer inner ∈ rewirings ∧
      (scheme.applyAll rewirings).relay? inner = some outer) ∨
    (∀ outer, .relay outer inner ∉ rewirings) ∧
      (scheme.applyAll rewirings).relay? inner = scheme.relay? inner := by
  induction rewirings generalizing scheme with
  | nil => exact Or.inr ⟨fun _ => List.not_mem_nil, rfl⟩
  | cons first rest ih =>
    rw [applyAll_cons]
    rcases ih (scheme.apply first) with ⟨outer, hmem, hrelay⟩ | ⟨hnone, hkept⟩
    · exact Or.inl ⟨outer, List.mem_cons_of_mem first hmem, hrelay⟩
    · rw [hkept]
      -- No later relay is for this outlet, so the first rewiring decides
      by_cases hfirst : ∃ outer, first = .relay outer inner
      · obtain ⟨outer, rfl⟩ := hfirst
        exact Or.inl ⟨outer, List.mem_cons_self, Function.update_self inner _ _⟩
      · refine Or.inr ⟨fun outer hmem => ?_, ?_⟩
        · rcases List.mem_cons.mp hmem with rfl | hmem
          · exact hfirst ⟨outer, rfl⟩
          · exact hnone outer hmem
        · cases first with
          | relay outer other =>
            have hne : inner ≠ other := fun hsame => hfirst ⟨outer, by rw [hsame]⟩
            exact Function.update_of_ne hne _ _
          | _ => rfl

/-! ### The partition -/

theorem blank_apply (h : scheme.partition.Blank) (rewiring : Rewiring) :
    (scheme.apply rewiring).partition.Blank := by
  cases rewiring with
  | connect inlet outlet => exact h.grow (.join _ inlet outlet)
  | feed outer inner => exact (h.grow (.settle _ _)).grow (.mark _ _)
  | relay outer inner => exact (h.grow (.settle _ _)).grow (.mark _ _)
  | direct => exact h
  | enter => exact h

theorem blank_applyAll (h : scheme.partition.Blank) (rewirings : List Rewiring) :
    (scheme.applyAll rewirings).partition.Blank := by
  induction rewirings generalizing scheme with
  | nil => exact h
  | cons first rest ih => exact ih (blank_apply h first)

theorem wired_applyAll (port : Port) (rewirings : List Rewiring) (scheme : Scheme) :
    (scheme.applyAll rewirings).partition.wired port = true ↔
      scheme.partition.wired port = true ∨ ∃ r ∈ rewirings, r.marked? = some port := by
  -- What one mark changes
  have hmark (marked : Port) (old : Bool) :
      (if port = marked then true else old) = true ↔ old = true ∨ some marked = some port := by
    by_cases hport : port = marked <;> simp [hport, eq_comm]
  induction rewirings generalizing scheme with
  | nil => simp [applyAll]
  | cons first rest ih =>
    rw [applyAll_cons, List.exists_mem_cons_iff, ← or_assoc]
    refine (ih (scheme.apply first)).trans (or_congr_left ?_)
    -- Directing control and exposing an entry mark no pin
    cases first with
    | connect inlet outlet => exact hmark (.inlet inlet) _
    | feed outer inner => exact hmark (.inlet inner) _
    | relay outer inner => exact hmark (.outlet outer) _
    | direct => simp [apply, Rewiring.marked?]
    | enter => simp [apply, Rewiring.marked?]

/-- **Which ports share a class after some wirings** is said by the relations that tie the ports
that shared one before and those that are wired. -/
theorem within_applyAll {ties : Port → Port → Prop}
    (hsymm : ∀ port other, ties port other → ties other port)
    (htrans : ∀ port other third, ties port other → ties other third → ties port third)
    (rewirings : List Rewiring) (scheme : Scheme) :
    (scheme.applyAll rewirings).partition.Within ties ↔
      scheme.partition.Within ties ∧ ∀ r ∈ rewirings, r.Tied ties := by
  induction rewirings generalizing scheme with
  | nil => simp [applyAll]
  | cons first rest ih =>
    rw [applyAll_cons, ih, List.forall_mem_cons, ← and_assoc]
    refine and_congr_left fun _ => ?_
    -- Every flow of data ties two ports, the other rewirings tie none
    cases first with
    | connect inlet outlet => exact Partition.within_join hsymm htrans
    | feed outer inner => exact Partition.within_settle
    | relay outer inner => exact Partition.within_settle
    | direct => simp [apply, Rewiring.Tied]
    | enter => simp [apply, Rewiring.Tied]

/-! ### All together -/

/-- Ports that share a class after some wirings share one after others of the same data. -/
theorem shares_applyAll_of_shuffled (h : Shuffled Rewiring.isData rewirings rewirings')
    {port other : Port}
    (hshares : (scheme.applyAll rewirings).partition.Shares port other) :
    (scheme.applyAll rewirings').partition.Shares port other := by
  have hsymm (port other : Port) : (scheme.applyAll rewirings').partition.Shares port other →
      (scheme.applyAll rewirings').partition.Shares other port := Partition.Shares.symm
  have htrans (port other third : Port) :
      (scheme.applyAll rewirings').partition.Shares port other →
      (scheme.applyAll rewirings').partition.Shares other third →
      (scheme.applyAll rewirings').partition.Shares port third := Partition.Shares.trans
  -- Sharing a class after the others is a relation that ties whatever they wire
  obtain ⟨hold, htied⟩ := (within_applyAll hsymm htrans rewirings' scheme).mp fun _ _ => id
  exact (within_applyAll hsymm htrans rewirings scheme).mpr
    ⟨hold, fun r hr => htied r ((h.mem_iff r).mpr hr)⟩ port other hshares

/-- **Data wirings can be permuted and repeated**, and moved past control wirings: what they do to a
blank scheme depends on which there are, so long as no outlet is relayed to two others. -/
theorem applyAll_eq_of_shuffled (h : Shuffled Rewiring.isData rewirings rewirings')
    (hblank : scheme.partition.Blank)
    (hrelays : ∀ outer outer' inner, .relay outer inner ∈ rewirings →
      .relay outer' inner ∈ rewirings → outer' = outer) :
    scheme.applyAll rewirings' = scheme.applyAll rewirings := by
  have hframe : (scheme.applyAll rewirings').frame = (scheme.applyAll rewirings).frame := by
    rw [frame_applyAll, frame_applyAll, h.fixed]
  have hfeeds : (scheme.applyAll rewirings').feeds = (scheme.applyAll rewirings).feeds := by
    funext outer inner
    rw [eq_iff_iff, feeds_applyAll, feeds_applyAll, h.mem_loose _ rfl]
  -- The last relay counts, but all relays of one outlet agree
  have hrelay : (scheme.applyAll rewirings').relay? = (scheme.applyAll rewirings).relay? := by
    funext inner
    rcases relay?_applyAll inner rewirings scheme with ⟨outer, hmem, hlast⟩ | ⟨hnone, hkept⟩
    · rcases relay?_applyAll inner rewirings' scheme with ⟨outer', hmem', hlast'⟩ | ⟨hnone', _⟩
      · rw [hlast, hlast', hrelays outer outer' inner hmem ((h.mem_loose _ rfl).mp hmem')]
      · exact absurd ((h.mem_loose _ rfl).mpr hmem) (hnone' outer)
    · rcases relay?_applyAll inner rewirings' scheme with ⟨outer', hmem', _⟩ | ⟨_, hkept'⟩
      · exact absurd ((h.mem_loose _ rfl).mp hmem') (hnone outer')
      · rw [hkept, hkept']
  have hpartition :
      (scheme.applyAll rewirings').partition = (scheme.applyAll rewirings).partition := by
    -- A blank partition is known by who shares a class and by its marks
    refine (blank_applyAll hblank rewirings).ext (blank_applyAll hblank rewirings')
      (fun port other => ⟨shares_applyAll_of_shuffled h.symm, shares_applyAll_of_shuffled h⟩)
      (funext fun port => ?_)
    rw [Bool.eq_iff_iff, wired_applyAll, wired_applyAll]
    simp only [h.mem_iff]
  exact Scheme.ext hframe hfeeds hrelay hpartition

end Scheme

end TokenNet
