import TokenNet.Proofs.Graph.Grouping

/-!
# Who shares a class

What the actions on a partition do, said about pairs of ports: who is in one class with whom, and
what a port shows.

## Main statements

- `Partition.shares_settle`, `Partition.shares_join`, `Partition.shares_write`,
  `Partition.shares_leave`: who is in one class after an action.
- `Partition.within_settle`, `Partition.within_join`: relations that tie whatever is in one class.
- `Partition.shown_settle`, `Partition.shown_write`: what ports show after an action.
- `Partition.Grows`: sequences of the actions of a build.
-/

namespace TokenNet.Partition

variable {partition : Partition} {port other : Port}

/-! ## Classes -/

/-- A port is in a class. -/
def Placed (partition : Partition) (port : Port) : Prop :=
  ∃ found, partition.class? port = some found

theorem Shares.symm (h : partition.Shares port other) : partition.Shares other port := by
  obtain ⟨found, hfound, hmem⟩ := h
  exact ⟨found, partition.class?_of_mem hfound hmem, partition.mem_ports hfound⟩

theorem Shares.trans {third : Port} (h : partition.Shares port other)
    (h' : partition.Shares other third) : partition.Shares port third := by
  obtain ⟨found, hfound, hmem⟩ := h
  obtain ⟨found', hfound', hmem'⟩ := h'
  obtain rfl := Option.some.inj ((partition.class?_of_mem hfound hmem).symm.trans hfound')
  exact ⟨found, hfound, hmem'⟩

theorem shares_self : partition.Shares port port ↔ partition.Placed port :=
  ⟨fun ⟨found, hfound, _⟩ => ⟨found, hfound⟩,
    fun ⟨found, hfound⟩ => ⟨found, hfound, partition.mem_ports hfound⟩⟩

theorem Shares.placed (h : partition.Shares port other) : partition.Placed port :=
  shares_self.mp (h.trans h.symm)

theorem mem_mates : other ∈ partition.mates port ↔ other = port ∨ partition.Shares port other := by
  unfold mates Shares
  rw [Finset.mem_insert]
  cases partition.class? port <;> simp

/-! ## What the actions do to classes -/

theorem shares_settle (settled : Port) : (partition.settle settled).Shares port other ↔
    partition.Shares port other ∨ port = settled ∧ other = settled := by
  cases hclass : partition.class? settled with
  -- A port with a class has it already, and shares with itself
  | some found =>
    have hsame : (partition.settle settled).Shares port other ↔ partition.Shares port other := by
      unfold Shares
      rw [class?_settle_of_some hclass]
    rw [hsame]
    constructor
    · exact Or.inl
    · rintro (hshares | ⟨rfl, rfl⟩)
      · exact hshares
      · exact shares_self.mpr ⟨found, hclass⟩
  | none =>
    unfold Shares
    -- Otherwise the new class holds the settled port alone
    rw [class?_settle_of_none hclass]
    by_cases hport : port = settled
    · subst hport
      simp [hclass]
    · simp [hport]

theorem shares_mark (marked : Port) :
    (partition.mark marked).Shares port other ↔ partition.Shares port other :=
  Iff.rfl

theorem shares_write (reached : Port → Prop) (value : Value) :
    (partition.write reached value).Shares port other ↔ partition.Shares port other := by
  unfold Shares write
  dsimp only
  constructor
  · rintro ⟨found, hfound, hmem⟩
    obtain ⟨old, hold, rfl⟩ := Option.map_eq_some_iff.mp hfound
    refine ⟨old, hold, ?_⟩
    split at hmem <;> exact hmem
  · rintro ⟨found, hfound, hmem⟩
    rw [hfound, Option.map_some]
    refine ⟨_, rfl, ?_⟩
    split <;> exact hmem

theorem shares_leave (leaver : Port) : (partition.leave leaver).Shares port other ↔
    partition.Shares port other ∧ port ≠ leaver ∧ other ≠ leaver := by
  unfold Shares leave
  dsimp only
  by_cases hport : port = leaver
  · simp [hport]
  · rw [if_neg hport]
    cases partition.class? port with
    | none => simp
    | some found => simp [hport, and_comm]

/-- A joined port is one of the two, or was in one class with one of them. -/
def Joined (partition : Partition) (inlet : InletId) (outlet : OutletId) (port : Port) : Prop :=
  port ∈ (partition.union inlet outlet).ports

theorem joined_iff {inlet : InletId} {outlet : OutletId} :
    partition.Joined inlet outlet port ↔
      (port = .inlet inlet ∨ partition.Shares (.inlet inlet) port) ∨
        (port = .outlet outlet ∨ partition.Shares (.outlet outlet) port) := by
  unfold Joined union
  rw [Finset.mem_union, mem_mates, mem_mates]

theorem joined_inlet (partition : Partition) (inlet : InletId) (outlet : OutletId) :
    partition.Joined inlet outlet (.inlet inlet) :=
  joined_iff.mpr (Or.inl (Or.inl rfl))

theorem joined_outlet (partition : Partition) (inlet : InletId) (outlet : OutletId) :
    partition.Joined inlet outlet (.outlet outlet) :=
  joined_iff.mpr (Or.inr (Or.inl rfl))

theorem Joined.of_shares {inlet : InletId} {outlet : OutletId}
    (h : partition.Joined inlet outlet port) (hshares : partition.Shares port other) :
    partition.Joined inlet outlet other := by
  rw [joined_iff] at h ⊢
  rcases h with (rfl | hin) | (rfl | hout)
  · exact Or.inl (Or.inr hshares)
  · exact Or.inl (Or.inr (hin.trans hshares))
  · exact Or.inr (Or.inr hshares)
  · exact Or.inr (Or.inr (hout.trans hshares))

theorem class?_join_of_not_joined {inlet : InletId} {outlet : OutletId}
    (h : ¬ partition.Joined inlet outlet port) :
    (partition.join inlet outlet).class? port = partition.class? port :=
  if_neg h

theorem shares_join (inlet : InletId) (outlet : OutletId) :
    (partition.join inlet outlet).Shares port other ↔ partition.Shares port other ∨
      partition.Joined inlet outlet port ∧ partition.Joined inlet outlet other := by
  -- The joined ports have the one new class, and all others keep theirs
  by_cases hport : partition.Joined inlet outlet port
  · have hclass : (partition.join inlet outlet).class? port = some (partition.union inlet outlet) :=
      if_pos hport
    unfold Shares
    rw [hclass]
    constructor
    · rintro ⟨found, hfound, hmem⟩
      obtain rfl := Option.some.inj hfound
      exact Or.inr ⟨hport, hmem⟩
    · rintro (hshares | ⟨_, hother⟩)
      · exact ⟨_, rfl, hport.of_shares hshares⟩
      · exact ⟨_, rfl, hother⟩
  · unfold Shares
    rw [class?_join_of_not_joined hport]
    simp [hport]

/-! ## Ties -/

section

variable {ties : Port → Port → Prop}

/-- Ports that share a class are tied by a relation. -/
def Within (partition : Partition) (ties : Port → Port → Prop) : Prop :=
  ∀ port other, partition.Shares port other → ties port other

theorem within_settle {settled : Port} :
    (partition.settle settled).Within ties ↔ partition.Within ties ∧ ties settled settled := by
  constructor
  · intro h
    exact ⟨fun port other hshares => h port other ((shares_settle settled).mpr (Or.inl hshares)),
      h settled settled ((shares_settle settled).mpr (Or.inr ⟨rfl, rfl⟩))⟩
  · rintro ⟨hold, hnew⟩ port other hshares
    rcases (shares_settle settled).mp hshares with hshares | ⟨rfl, rfl⟩
    · exact hold port other hshares
    · exact hnew

/-- **Joining two ports is tying them.** -/
theorem within_join (hsymm : ∀ port other, ties port other → ties other port)
    (htrans : ∀ port other third, ties port other → ties other third → ties port third)
    {inlet : InletId} {outlet : OutletId} : (partition.join inlet outlet).Within ties ↔
      partition.Within ties ∧ ties (.inlet inlet) (.outlet outlet) := by
  constructor
  · intro h
    have hjoined := And.intro (partition.joined_inlet inlet outlet)
      (partition.joined_outlet inlet outlet)
    exact ⟨fun port other hold => h port other ((shares_join inlet outlet).mpr (Or.inl hold)),
      h _ _ ((shares_join inlet outlet).mpr (Or.inr hjoined))⟩
  · rintro ⟨hold, hnew⟩
    have hself : ties (.inlet inlet) (.inlet inlet) := htrans _ _ _ hnew (hsymm _ _ hnew)
    -- Everything that is joined is tied to the inlet
    have htied (port : Port) (hjoined : partition.Joined inlet outlet port) :
        ties (.inlet inlet) port := by
      rcases joined_iff.mp hjoined with (rfl | hshares) | (rfl | hshares)
      · exact hself
      · exact hold _ _ hshares
      · exact hnew
      · exact htrans _ _ _ hnew (hold _ _ hshares)
    intro port other hshares
    rcases (shares_join inlet outlet).mp hshares with hshares | ⟨hport, hother⟩
    · exact hold port other hshares
    · exact htrans _ _ _ (hsymm _ _ (htied port hport)) (htied other hother)

/-- Settling ports one after another ties no two of them. -/
theorem Within.foldl_settle {α : Type} (hrefl : ∀ port, ties port port) (port : α → Port)
    (members : List α) {partition : Partition} (h : partition.Within ties) :
    (members.foldl (fun settled a => settled.settle (port a)) partition).Within ties := by
  induction members generalizing partition with
  | nil => exact h
  | cons first rest ih => exact ih (within_settle.mpr ⟨h, hrefl _⟩)

end

/-! ## What ports show -/

/-- What a port shows: the value of its class, and zero without one. -/
def shown (partition : Partition) (port : Port) : Value :=
  (partition.class? port).elim 0 Class.value

/-- A port that gets a class of its own shows zero as before. -/
theorem shown_settle (settled : Port) : (partition.settle settled).shown port =
    partition.shown port := by
  unfold shown
  cases hclass : partition.class? settled with
  | some found => rw [class?_settle_of_some hclass]
  | none =>
    rw [class?_settle_of_none hclass]
    split
    next hsame => rw [hsame, hclass]; rfl
    next => rfl

/-- When a port leaves its class, the others show what they did. -/
theorem shown_leave_of_ne {leaver : Port} (h : port ≠ leaver) :
    (partition.leave leaver).shown port = partition.shown port := by
  unfold shown leave
  dsimp only
  rw [if_neg h]
  cases partition.class? port <;> rfl

theorem shown_of_not_joined {inlet : InletId} {outlet : OutletId}
    (h : ¬ partition.Joined inlet outlet port) :
    (partition.join inlet outlet).shown port = partition.shown port := by
  unfold shown
  rw [class?_join_of_not_joined h]

section

variable {feeds : InletId → InletId → Prop} {source : Port}

/-- A write flows from a port in a class to ports in classes. -/
theorem Flows.placed (h : partition.Flows feeds source port) (hsource : partition.Placed source) :
    partition.Placed port := by
  cases h with
  | refl => exact hsource
  | tail _ hstep =>
    -- Only the last step matters: it shares a class with the port, or it feeds it
    rcases hstep with hshares | ⟨_, _, rfl, rfl, _, hplaced⟩
    · exact hshares.symm.placed
    · exact hplaced

/-- A write shows wherever it flows to. -/
theorem shown_write_of_flows (h : partition.Flows feeds source port)
    (hsource : partition.Placed source) (value : Value) :
    (partition.write (partition.Flows feeds source) value).shown port = value := by
  obtain ⟨found, hfound⟩ := h.placed hsource
  have hmem : ∃ other ∈ found.ports, partition.Flows feeds source other :=
    ⟨port, partition.mem_ports hfound, h⟩
  unfold shown write
  dsimp only
  rw [hfound, Option.map_some, if_pos hmem]
  rfl

/-- A write shows nowhere else. -/
theorem shown_write_of_not_flows (h : ¬ partition.Flows feeds source port) (value : Value) :
    (partition.write (partition.Flows feeds source) value).shown port = partition.shown port := by
  unfold shown write
  dsimp only
  cases hclass : partition.class? port with
  | none => rfl
  | some found =>
    -- Within a class a write flows everywhere
    have hno : ¬ ∃ other ∈ found.ports, partition.Flows feeds source other := by
      rintro ⟨other, hmem, hflows⟩
      have hback : partition.Shares other port := Shares.symm ⟨found, hclass, hmem⟩
      exact h (hflows.tail (Or.inl hback))
    rw [Option.map_some, if_neg hno]

end

/-! ## Growth -/

/-- One action of a build. -/
inductive Grow : Partition → Partition → Prop where
  | settle (partition : Partition) (port : Port) : Grow partition (partition.settle port)
  | mark (partition : Partition) (port : Port) : Grow partition (partition.mark port)
  | join (partition : Partition) (inlet : InletId) (outlet : OutletId) :
      Grow partition (partition.join inlet outlet)

/-- A sequence of actions of a build. -/
abbrev Grows : Partition → Partition → Prop :=
  Relation.ReflTransGen Grow

/-- Growth puts no port out of its class. -/
theorem Grow.shares {partition' : Partition} (h : Grow partition partition')
    (hshares : partition.Shares port other) : partition'.Shares port other := by
  cases h with
  | settle settled => exact (shares_settle settled).mpr (Or.inl hshares)
  | mark marked => exact hshares
  | join inlet outlet => exact (shares_join inlet outlet).mpr (Or.inl hshares)

theorem Grows.shares {partition' : Partition} (h : Grows partition partition')
    (hshares : partition.Shares port other) : partition'.Shares port other := by
  induction h with
  | refl => exact hshares
  | tail _ hgrow ih => exact hgrow.shares ih

end TokenNet.Partition

namespace TokenNet.Graph

/-- What the ports of a graph show is read off its partition. -/
theorem Represents.shows {graph : Graph} {partition : Partition} (h : graph.Represents partition)
    (port : Port) : graph.shows port = partition.shown port := by
  unfold Graph.shows portValue? Partition.shown
  rw [← h.class?]
  unfold Graph.class?
  cases graph.portCell? port with
  | none => rfl
  | some cell =>
    simp only [Option.bind_some, cellValue?]
    cases graph.cell? cell <;> rfl

end TokenNet.Graph
