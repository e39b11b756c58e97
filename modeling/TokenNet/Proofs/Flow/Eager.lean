import TokenNet.Proofs.Flow.Shares

/-!
# Inlets that are fed

An inlet that no outlet drives and only one other inlet feeds gets its values through that inlet and
in no other way.  So every write that changes what the feeding inlet shows changes it for the fed one
as well, and no other write does.  Wiring is different: it can change what the feeding inlet shows,
but it writes nothing, and the fed inlet keeps what it had.

## Main statements

- `Partition.Backed`: inlets come to share a class through an outlet only.
- `Partition.Follows`: what a change that pushes values on does to the two inlets.
- `Partition.follows_write`, `Partition.shown_join`: writes push values on, wiring does not.
-/

namespace TokenNet.Partition

variable {partition partition' : Partition}

/-- An outlet is in the class of an inlet. -/
def Driven (partition : Partition) (inlet : InletId) : Prop :=
  ∃ outlet, partition.Shares (.inlet inlet) (.outlet outlet)

/-- Two inlets share a class only with an outlet. -/
def Backed (partition : Partition) : Prop :=
  ∀ inlet other : InletId, partition.Shares (.inlet inlet) (.inlet other) →
    inlet = other ∨ partition.Driven inlet

/-- Every class has the value zero. -/
def Blank (partition : Partition) : Prop :=
  ∀ port found, partition.class? port = some found → found.value = 0

/-! ## Growth -/

theorem Backed.settle (h : partition.Backed) (port : Port) : (partition.settle port).Backed := by
  intro inlet other hshares
  -- A port that is settled is alone in its class, so the two are the same
  rcases (shares_settle port).mp hshares with hold | ⟨hinlet, hother⟩
  · refine (h _ _ hold).imp_right fun ⟨outlet, hdriven⟩ => ⟨outlet, ?_⟩
    exact (shares_settle port).mpr (Or.inl hdriven)
  · exact Or.inl (Port.inlet.inj (hinlet.trans hother.symm))

theorem Backed.join (h : partition.Backed) (inlet : InletId) (outlet : OutletId) :
    (partition.join inlet outlet).Backed := by
  intro first second hshares
  rcases (shares_join inlet outlet).mp hshares with hold | ⟨hfirst, _⟩
  · refine (h _ _ hold).imp_right fun ⟨driver, hdriven⟩ => ⟨driver, ?_⟩
    exact (shares_join inlet outlet).mpr (Or.inl hdriven)
  · -- The outlet that is joined is in the class afterwards
    have hjoined := partition.joined_outlet inlet outlet
    exact Or.inr ⟨outlet, (shares_join inlet outlet).mpr (Or.inr ⟨hfirst, hjoined⟩)⟩

theorem Backed.write (h : partition.Backed) (reached : Port → Prop) (value : Value) :
    (partition.write reached value).Backed := by
  intro inlet other hshares
  rw [shares_write] at hshares
  refine (h _ _ hshares).imp_right fun ⟨outlet, hdriven⟩ => ⟨outlet, ?_⟩
  rw [shares_write]
  exact hdriven

theorem Blank.union (h : partition.Blank) (inlet : InletId) (outlet : OutletId) :
    (partition.union inlet outlet).value = 0 := by
  unfold Partition.union
  dsimp only
  cases hout : partition.class? (.outlet outlet) with
  | some found => exact h _ _ hout
  | none =>
    cases hin : partition.class? (.inlet inlet) with
    | some found => exact h _ _ hin
    | none => rfl

theorem Blank.grow (h : partition.Blank) (hgrow : Grow partition partition') :
    partition'.Blank := by
  intro port found hfound
  cases hgrow with
  | settle settled =>
    cases hclass : partition.class? settled with
    | some old =>
      rw [class?_settle_of_some hclass] at hfound
      exact h _ _ hfound
    | none =>
      rw [class?_settle_of_none hclass] at hfound
      split at hfound
      next => exact Option.some.inj hfound ▸ rfl
      next => exact h _ _ hfound
  | mark marked => exact h _ _ hfound
  | join inlet outlet =>
    -- Joining takes the value of one of the two classes, and both are blank
    by_cases hjoined : partition.Joined inlet outlet port
    · have hclass : (partition.join inlet outlet).class? port =
          some (partition.union inlet outlet) := if_pos hjoined
      obtain rfl := Option.some.inj (hclass.symm.trans hfound)
      exact h.union inlet outlet
    · rw [class?_join_of_not_joined hjoined] at hfound
      exact h _ _ hfound

theorem Backed.grow (h : partition.Backed) (hgrow : Grow partition partition') :
    partition'.Backed := by
  cases hgrow with
  | settle port => exact h.settle port
  | mark port => exact h
  | join inlet outlet => exact h.join inlet outlet

theorem Blank.grows (h : partition.Blank) (hgrows : Grows partition partition') :
    partition'.Blank := by
  induction hgrows with
  | refl => exact h
  | tail _ hgrow ih => exact ih.grow hgrow

theorem Backed.grows (h : partition.Backed) (hgrows : Grows partition partition') :
    partition'.Backed := by
  induction hgrows with
  | refl => exact h
  | tail _ hgrow ih => exact ih.grow hgrow

/-- In a blank partition all ports show zero. -/
theorem Blank.shown (h : partition.Blank) (port : Port) : partition.shown port = 0 := by
  unfold Partition.shown
  cases hclass : partition.class? port with
  | none => rfl
  | some found => exact h _ _ hclass

/-! ## The feeding and the fed inlet -/

/-- An inlet feeds another, and no further inlet does. -/
structure Feeding (feeds : InletId → InletId → Prop) (outer inner : InletId) : Prop where
  fed : feeds outer inner
  only : ∀ other, feeds other inner → other = outer

/-- A change takes nothing away from an inlet: it stays in a class, and an outlet that drives it goes
on doing so. -/
structure Carries (inner : InletId) (partition partition' : Partition) : Prop where
  backed : partition'.Backed
  placed : partition'.Placed (.inlet inner)
  driven : partition.Driven inner → partition'.Driven inner

/-- What a change does to a feeding and a fed inlet.  Unless the fed one is driven, the two show the
same afterwards, or neither has changed. -/
structure Follows (outer inner : InletId) (partition partition' : Partition) : Prop extends
    Carries inner partition partition' where
  follows : partition'.Driven inner ∨
    partition'.shown (.inlet inner) = partition'.shown (.inlet outer) ∨
    (partition'.shown (.inlet inner) = partition.shown (.inlet inner) ∧
      partition'.shown (.inlet outer) = partition.shown (.inlet outer))

namespace Follows

variable {outer inner : InletId}

theorem refl (hbacked : partition.Backed) (hplaced : partition.Placed (.inlet inner)) :
    Follows outer inner partition partition :=
  ⟨⟨hbacked, hplaced, id⟩, Or.inr (Or.inr ⟨rfl, rfl⟩)⟩

theorem trans {partition'' : Partition} (h : Follows outer inner partition partition')
    (h' : Follows outer inner partition' partition'') :
    Follows outer inner partition partition'' := by
  refine ⟨⟨h'.backed, h'.placed, h'.driven ∘ h.driven⟩, ?_⟩
  rcases h'.follows with hdriven | hsame | ⟨hinner, houter⟩
  · exact Or.inl hdriven
  · exact Or.inr (Or.inl hsame)
  · -- The second change left the two alone, so the first one decides
    rw [hinner, houter]
    exact h.follows.imp_left h'.driven

end Follows

section

variable {feeds : InletId → InletId → Prop} {outer inner : InletId} {source : Port}

/-- Where a write comes to a fed inlet that is not driven, it comes by the feeding one. -/
theorem Feeding.flows_outer (h : Feeding feeds outer inner) (hbacked : partition.Backed)
    (hdriven : ¬ partition.Driven inner) (hsource : source ≠ .inlet inner) {port : Port}
    (hflows : partition.Flows feeds source port) (hport : port = .inlet inner) :
    partition.Flows feeds source (.inlet outer) := by
  induction hflows with
  | refl => exact absurd hport hsource
  | @tail before after hbefore hstep ih =>
    subst hport
    rcases hstep with hshares | ⟨giver, taker, rfl, htaker, hfeeds, _⟩
    · -- A class without outlets has no second inlet
      cases before with
      | outlet outlet => exact absurd ⟨outlet, hshares.symm⟩ hdriven
      | inlet inlet =>
        rcases hbacked _ _ hshares.symm with rfl | hdrives
        · exact ih rfl
        · exact absurd hdrives hdriven
    -- The only bridge into the input starts at the outer one
    · obtain rfl := Port.inlet.inj htaker
      obtain rfl := h.only giver hfeeds
      exact hbefore

/-- A write comes to both inlets or to neither. -/
theorem Feeding.flows_iff (h : Feeding feeds outer inner) (hbacked : partition.Backed)
    (hplaced : partition.Placed (.inlet inner)) (hdriven : ¬ partition.Driven inner)
    (hsource : source ≠ .inlet inner) : partition.Flows feeds source (.inlet inner) ↔
      partition.Flows feeds source (.inlet outer) :=
  ⟨fun hflows => h.flows_outer hbacked hdriven hsource hflows rfl,
    fun hflows => hflows.tail (Or.inr ⟨outer, inner, rfl, rfl, h.fed, hplaced⟩)⟩

/-- **A write pushes its value on to the fed inlet.** -/
theorem follows_write (h : Feeding feeds outer inner) (hbacked : partition.Backed)
    (hplaced : partition.Placed (.inlet inner)) (hsource : source ≠ .inlet inner) (value : Value) :
    Follows outer inner partition ((partition.settle source).write
      ((partition.settle source).Flows feeds source) value) := by
  have hsettled : (partition.settle source).Placed source :=
    shares_self.mp ((shares_settle source).mpr (Or.inr ⟨rfl, rfl⟩))
  have hplaced' : (partition.settle source).Placed (.inlet inner) :=
    shares_self.mp ((shares_settle source).mpr (Or.inl (shares_self.mpr hplaced)))
  have hbacked' := hbacked.settle source
  refine ⟨⟨hbacked'.write _ value, ?_, fun ⟨outlet, hdriven⟩ => ⟨outlet, ?_⟩⟩, ?_⟩
  · rw [← shares_self, shares_write, shares_self]
    exact hplaced'
  · rw [shares_write, shares_settle]
    exact Or.inl hdriven
  -- If an outlet drives the fed inlet, nothing is claimed about what it shows
  · by_cases hdriven : (partition.settle source).Driven inner
    · obtain ⟨outlet, hdriven⟩ := hdriven
      exact Or.inl ⟨outlet, (shares_write _ _).mpr hdriven⟩
    · have hboth := h.flows_iff hbacked' hplaced' hdriven hsource
      by_cases hflows : (partition.settle source).Flows feeds source (.inlet outer)
      · refine Or.inr (Or.inl ?_)
        rw [shown_write_of_flows hflows hsettled, shown_write_of_flows (hboth.mpr hflows) hsettled]
      · refine Or.inr (Or.inr ⟨?_, ?_⟩)
        · rw [shown_write_of_not_flows (mt hboth.mp hflows), shown_settle]
        · rw [shown_write_of_not_flows hflows, shown_settle]

/-- **Wiring leaves a fed inlet what it shows**, unless it drives it. -/
theorem shown_join (inlet : InletId) (outlet : OutletId) (inner : InletId) :
    (partition.join inlet outlet).Driven inner ∨
      (partition.join inlet outlet).shown (.inlet inner) = partition.shown (.inlet inner) := by
  by_cases hjoined : partition.Joined inlet outlet (.inlet inner)
  · have houtlet := partition.joined_outlet inlet outlet
    exact Or.inl ⟨outlet, (shares_join inlet outlet).mpr (Or.inr ⟨hjoined, houtlet⟩)⟩
  · exact Or.inr (shown_of_not_joined hjoined)

theorem carries_join (hbacked : partition.Backed) (hplaced : partition.Placed (.inlet inner))
    (inlet : InletId) (outlet : OutletId) :
    Carries inner partition (partition.join inlet outlet) where
  backed := hbacked.join inlet outlet
  placed := shares_self.mp ((shares_join inlet outlet).mpr (Or.inl (shares_self.mpr hplaced)))
  driven := fun ⟨driver, hdriven⟩ => ⟨driver, (shares_join inlet outlet).mpr (Or.inl hdriven)⟩

end

end TokenNet.Partition
