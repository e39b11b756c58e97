import Mathlib.Data.List.Induction
import TokenNet.Proofs.Change.Build

/-!
# Replays piece by piece

A log is replayed directive by directive, so what it leaves behind can be found out one directive
after another.  Only the making of parts can abort a replay; wirings either take place or are
skipped.

## Main statements

- `Draft.replayAll_append`: a log is replayed in two pieces.
- `Draft.replayAll_of_wirings`: the replay of wirings never fails.
- `Draft.rewireAll_induction`: an induction on the wirings that have been carried out.
-/

namespace TokenNet.Draft

variable {library : Library} {growPart : Grow} {composite : NodeId} {name : String}

theorem replayAll_append {first second : List Directive} {draft middle : Draft}
    (h : replayAll library growPart composite name first draft = .ok middle) :
    replayAll library growPart composite name (first ++ second) draft =
      replayAll library growPart composite name second middle := by
  induction first generalizing draft with
  | nil =>
    obtain rfl := Except.ok.inj h
    rfl
  -- The first directive replays alike, and the rest by induction
  | cons directive rest ih =>
    unfold replayAll at h
    split at h
    next => cases h
    next replayed hreplay =>
      rw [List.cons_append, replayAll, hreplay]
      exact ih h

theorem replayAll_append_of_error {first second : List Directive} {draft : Draft}
    {failure : BuildFailure}
    (h : replayAll library growPart composite name first draft = .error failure) :
    replayAll library growPart composite name (first ++ second) draft = .error failure := by
  induction first generalizing draft with
  | nil => cases h
  | cons directive rest ih =>
    unfold replayAll at h
    split at h
    -- The failure comes from the first directive or from a later one
    next failed hreplay =>
      obtain rfl := Except.error.inj h
      rw [List.cons_append, replayAll, hreplay]
    next replayed hreplay =>
      rw [List.cons_append, replayAll, hreplay]
      exact ih h

/-- A log that is replayed as a whole is replayed in two pieces. -/
theorem exists_of_replayAll_append {first second : List Directive} {draft draft' : Draft}
    (h : replayAll library growPart composite name (first ++ second) draft = .ok draft') :
    ∃ middle, replayAll library growPart composite name first draft = .ok middle ∧
      replayAll library growPart composite name second middle = .ok draft' := by
  induction first generalizing draft with
  | nil => exact ⟨draft, rfl, h⟩
  | cons directive rest ih =>
    rw [List.cons_append, replayAll] at h
    split at h
    next => cases h
    -- The first directive succeeds in the longer log, so it does in the shorter one
    next replayed hreplay =>
      obtain ⟨middle, hfirst, hsecond⟩ := ih h
      refine ⟨middle, ?_, hsecond⟩
      rw [replayAll, hreplay]
      exact hfirst

/-- Carries out directives that make no parts. -/
def rewireAll (composite : NodeId) (name : String) (log : List Directive) (draft : Draft) :
    Draft :=
  log.foldl (fun draft directive => draft.rewire composite name directive) draft

theorem replay_of_wiring {directive : Directive} {draft : Draft} (h : directive.phase ≠ .parts) :
    replay library growPart composite name draft directive =
      .ok (draft.rewire composite name directive) := by
  cases directive with
  | part => exact absurd rfl h
  | _ => rfl

/-- **Wiring never aborts a build.** -/
theorem replayAll_of_wirings : ∀ {log : List Directive} {draft : Draft},
    (∀ directive ∈ log, directive.phase ≠ .parts) →
    replayAll library growPart composite name log draft = .ok (draft.rewireAll composite name log)
  | [], _, _ => rfl
  | directive :: rest, draft, h => by
    unfold replayAll
    rw [replay_of_wiring (h directive List.mem_cons_self)]
    exact replayAll_of_wirings fun later hlater => h later (List.mem_cons_of_mem _ hlater)

theorem rewireAll_append (first second : List Directive) (draft : Draft) :
    draft.rewireAll composite name (first ++ second) =
      (draft.rewireAll composite name first).rewireAll composite name second :=
  List.foldl_append

theorem graph_rewire {draft : Draft} {directive : Directive} {rewiring : Rewiring}
    (h : directive.resolve draft.graph composite name = .ok (some rewiring)) :
    (draft.rewire composite name directive).graph = rewiring.apply draft.graph := by
  unfold rewire
  rw [h]

theorem graph_rewire_of_error {draft : Draft} {directive : Directive} {issues : List Issue}
    (h : directive.resolve draft.graph composite name = .error issues) :
    (draft.rewire composite name directive).graph = draft.graph := by
  unfold rewire
  rw [h]
  exact graph_foldl_skip issues draft

theorem issues_rewire {draft : Draft} {directive : Directive} {rewiring : Rewiring}
    (h : directive.resolve draft.graph composite name = .ok (some rewiring)) :
    (draft.rewire composite name directive).issues = draft.issues := by
  unfold rewire
  rw [h]

/-- **What each directive of a list keeps, the list keeps.**  The members are the reasons for the
directives, and what is kept may speak of those that have been carried out so far. -/
theorem rewireAll_induction {α : Type} {directive : α → Directive} {P : Draft → List α → Prop}
    (members : List α) {draft : Draft} (h : P draft [])
    (hstep : ∀ draft before a, before ++ [a] <+: members → P draft before →
      P (draft.rewire composite name (directive a)) (before ++ [a])) :
    P (draft.rewireAll composite name (members.map directive)) members := by
  induction members using List.reverseRecOn with
  | nil => exact h
  | append_singleton before a ih =>
    rw [List.map_append, rewireAll_append]
    refine hstep _ before a (List.prefix_refl _) (ih fun draft done b hbefore => ?_)
    exact hstep draft done b (hbefore.trans (List.prefix_append before [a]))

/-- A composite is framed first, and then its log is replayed. -/
theorem grow_of_replayAll {traced : Bool} {limit levels index : Nat} {spec : Specification}
    {log : List Directive} {draft draft' : Draft}
    (himplementation : spec.implementation index = .ok (.blueprint ⟨log⟩))
    (hreplay : replayAll library (fun part draft => grow library traced limit levels part 0 draft)
      (draft.graph.addComposite spec.identifier spec.inletCount spec.exitCount traced).1
      spec.identifier (Directive.replayOrder log)
      { draft with
        graph := (draft.graph.addComposite spec.identifier spec.inletCount spec.exitCount
          traced).2 } = .ok draft') :
    grow library traced limit (levels + 1) spec index draft =
      .ok ((draft.graph.addComposite spec.identifier spec.inletCount spec.exitCount traced).1,
        draft') := by
  unfold grow
  simp only [himplementation, hreplay]

end TokenNet.Draft
