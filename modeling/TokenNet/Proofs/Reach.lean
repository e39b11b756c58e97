import Mathlib.Data.Finset.Card
import Mathlib.Logic.Relation
import TokenNet.Reach

/-!
# The search finds what can be reached

The search in layers is exact as soon as it is allowed more layers than there are values to be
found: every layer but the last brings at least one new value, and the search ends with the first
layer that brings none.

## Main statements

- `mem_within`: a search finds exactly the values to which a path of successors leads.
-/

namespace TokenNet.Reach

variable {α : Type} [DecidableEq α] {next : α → List α}

/-- A path of successors leads from one value to another. -/
def Leads (next : α → List α) : α → α → Prop :=
  Relation.ReflTransGen fun a b => b ∈ next a

theorem mem_layer {reached frontier : List α} {b : α} :
    b ∈ layer next reached frontier ↔ (∃ a ∈ frontier, b ∈ next a) ∧ b ∉ reached := by
  simp [layer, List.mem_eraseDups]

theorem extend_succ (bound : Nat) (reached frontier : List α) :
    extend next (bound + 1) reached frontier =
      if layer next reached frontier = [] then reached
      else extend next bound (reached ++ layer next reached frontier)
        (layer next reached frontier) := by
  rw [extend]
  cases layer next reached frontier <;> rfl

theorem subset_extend : ∀ (bound : Nat) (reached frontier : List α),
    reached ⊆ extend next bound reached frontier
  | 0, _, _ => fun _ h => h
  | bound + 1, reached, frontier => by
    rw [extend_succ]
    split
    next => exact fun _ h => h
    next => exact fun _ h => subset_extend bound _ _ (List.mem_append_left _ h)

/-- Nothing is found that no path leads to. -/
theorem leads_of_mem_extend {start : α} : ∀ (bound : Nat) (reached frontier : List α),
    (∀ a ∈ reached, Leads next start a) → frontier ⊆ reached →
    ∀ b ∈ extend next bound reached frontier, Leads next start b
  | 0, _, _, hreached, _, b, h => hreached b h
  | bound + 1, reached, frontier, hreached, hfrontier, b, h => by
    rw [extend_succ] at h
    split at h
    -- A layer without new nodes ends the search
    next => exact hreached b h
    next =>
      -- A new node is one step behind one that has been reached
      apply leads_of_mem_extend bound _ _ _ (List.subset_append_right reached _) b h
      intro a ha
      rcases List.mem_append.mp ha with hold | hnew
      · exact hreached a hold
      · obtain ⟨⟨parent, hparent, hstep⟩, _⟩ := mem_layer.mp hnew
        exact (hreached parent (hfrontier hparent)).tail hstep

/-- Each layer that brings something new leaves fewer values to find. -/
theorem card_unmet_lt {values : Finset α} (hvalues : ∀ a, ∀ b ∈ next a, b ∈ values)
    {reached frontier : List α} (h : layer next reached frontier ≠ []) :
    (values.filter fun a => a ∉ reached ++ layer next reached frontier).card <
      (values.filter fun a => a ∉ reached).card := by
  obtain ⟨found, hfound⟩ := List.exists_mem_of_ne_nil _ h
  obtain ⟨⟨a, _, hstep⟩, hnew⟩ := mem_layer.mp hfound
  apply Finset.card_lt_card
  rw [Finset.ssubset_iff_of_subset]
  · refine ⟨found, Finset.mem_filter.mpr ⟨hvalues a found hstep, hnew⟩, ?_⟩
    simp [hfound]
  · intro left hleft
    rw [Finset.mem_filter, List.mem_append, not_or] at hleft
    exact Finset.mem_filter.mpr ⟨hleft.1, hleft.2.1⟩

/-- A search that is allowed more layers than there are values left to find ends with a closed
list.  Until then only the values of the frontier may have successors that were not met. -/
theorem closed_extend {values : Finset α} (hvalues : ∀ a, ∀ b ∈ next a, b ∈ values) :
    ∀ (bound : Nat) (reached frontier : List α),
    (∀ a ∈ reached, a ∉ frontier → ∀ b ∈ next a, b ∈ reached) →
    (values.filter fun a => a ∉ reached).card < bound →
    ∀ a ∈ extend next bound reached frontier, ∀ b ∈ next a,
      b ∈ extend next bound reached frontier
  | 0, _, _, _, hcard => absurd hcard (Nat.not_lt_zero _)
  | bound + 1, reached, frontier, hdone, hcard => by
    -- What is reached has its successors among what is reached or in the next layer
    have hmet : ∀ a ∈ reached, ∀ b ∈ next a,
        b ∈ reached ∨ b ∈ layer next reached frontier := by
      intro a ha b hb
      by_cases hfrontier : a ∈ frontier
      · by_cases hold : b ∈ reached
        · exact .inl hold
        · exact .inr (mem_layer.mpr ⟨⟨a, hfrontier, hb⟩, hold⟩)
      · exact .inl (hdone a ha hfrontier b hb)
    rw [extend_succ]
    split
    next hlast =>
      intro a ha b hb
      rcases hmet a ha b hb with hold | hnew
      · exact hold
      · rw [hlast] at hnew
        exact absurd hnew List.not_mem_nil
    next hlayer =>
      apply closed_extend hvalues bound
      · intro a ha hold b hb
        have hreached := (List.mem_append.mp ha).resolve_right hold
        exact List.mem_append.mpr (hmet a hreached b hb)
      · have hless := card_unmet_lt hvalues hlayer
        omega

/-- **The search is exact**, if the bound on its layers is above the number of values that can be
successors. -/
theorem mem_within {values : Finset α} (hvalues : ∀ a, ∀ b ∈ next a, b ∈ values) {bound : Nat}
    (hbound : values.card < bound) {start b : α} :
    b ∈ within next bound start ↔ Leads next start b := by
  constructor
  · intro h
    refine leads_of_mem_extend bound [start] [start] ?_ (List.Subset.refl _) b h
    intro a ha
    rw [List.mem_singleton.mp ha]
    exact .refl
  -- The search ends with a set that is closed under steps
  · intro h
    have hclosed := closed_extend hvalues bound [start] [start]
      (fun _ ha hnot => absurd ha hnot) (lt_of_le_of_lt (Finset.card_filter_le _ _) hbound)
    induction h with
    | refl => exact subset_extend bound [start] [start] (List.mem_singleton_self start)
    | tail _ hstep ih => exact hclosed _ ih _ hstep

end TokenNet.Reach
