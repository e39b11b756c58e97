import Mathlib.Data.List.Infix
import TokenNet.Proofs.Run.Recording

/-!
# The ledger of a network

Each run of a network takes the next number and adds its own lines to the ledger, behind all lines
that are there; no other call adds a line, and the ledger can only be emptied as a whole.  So the
numbers of the lines never go down, none of them is larger than the number of runs, and the lines of
one run stand together.

## Main statements

- `Network.Numbered`, `Reachable.numbered`: the numbers of the lines in every ledger.
- `Network.lines_execute`: what a run adds to the ledger.
- `Network.ledger_records_runs`: the ledger tells what happened, run by run.
-/

namespace TokenNet

/-! ## Lines that stand together -/

section

variable {α : Type} {key : α → Nat}

/-- Where keys never go down and none is smaller than a number, what has that number stands
first. -/
theorem filter_isPrefix_of_le {items : List α} {number : Nat}
    (hsorted : items.Pairwise fun a b => key a ≤ key b) (hle : ∀ item ∈ items, number ≤ key item) :
    (items.filter fun item => key item = number) <+: items := by
  induction items with
  | nil => exact List.nil_prefix
  | cons first rest ih =>
    obtain ⟨hfirst, hsorted⟩ := List.pairwise_cons.mp hsorted
    -- The first item is of that number, so it stands at the front
    by_cases hkey : key first = number
    · rw [List.filter_cons_of_pos (by simpa using hkey)]
      exact List.cons_prefix_cons.mpr
        ⟨rfl, ih hsorted fun item hitem => hle item (List.mem_cons_of_mem first hitem)⟩
    · -- The first key is larger, so all are
      have hlarge := hle first List.mem_cons_self
      have hnone : (first :: rest).filter (fun item => key item = number) = [] := by
        refine List.filter_eq_nil_iff.mpr fun item hitem => ?_
        rw [decide_eq_true_eq]
        rcases List.mem_cons.mp hitem with rfl | hitem
        · exact hkey
        · have := hfirst item hitem
          omega
      rw [hnone]
      exact List.nil_prefix

/-- Where keys never go down, what has one key stands together. -/
theorem filter_isInfix_of_pairwise {items : List α} (number : Nat)
    (hsorted : items.Pairwise fun a b => key a ≤ key b) :
    (items.filter fun item => key item = number) <:+: items := by
  induction items with
  | nil => exact List.nil_infix
  | cons first rest ih =>
    obtain ⟨hfirst, hrest⟩ := List.pairwise_cons.mp hsorted
    -- An item with a smaller key stands before all of them
    by_cases hkey : key first < number
    · rw [List.filter_cons_of_neg (by simpa using Nat.ne_of_lt hkey)]
      exact List.infix_cons (ih hrest)
    -- From here on no key is smaller
    · refine (filter_isPrefix_of_le hsorted fun item hitem => ?_).isInfix
      rcases List.mem_cons.mp hitem with rfl | hitem
      · omega
      · have := hfirst item hitem
        omega

end

namespace Network

variable {net : Network}

/-! ## What a run adds -/

/-- What is to be recorded of the next run. -/
def linesAhead (net : Network) : List Ledger.Line :=
  Run.lines net.limits.callLimit (net.runs + 1) net.attempts

theorem execute_of_no_entry (h : net.entry? = none) : net.execute = (net, .error .noEntry) := by
  simp only [execute, h]

/-- **A run takes the next number and adds its lines behind all others.** -/
theorem lines_execute (hclosed : net.graph.Closed) {entry : EntryId} (h : net.entry? = some entry) :
    net.execute.1.runs = net.runs + 1 ∧
      net.execute.1.ledger.lines.toList = net.ledger.lines.toList ++ net.linesAhead ∧
      Run.Answered net.limits.callLimit net.execute.2 net.linesAhead := by
  have hstate : (⟨net.graph, net.ledger⟩ : Run.State).graph.Closed := hclosed
  have hlines := Run.lines_walk net.limits.callLimit net.limits.chainLimit (net.runs + 1)
    net.limits.chainLimit 0 entry hstate
  have hanswered := Run.answered_walk net.limits.callLimit net.limits.chainLimit (net.runs + 1)
    net.limits.chainLimit 0 entry hstate
  -- The run is the walk from the entry, and so are the lines ahead
  unfold linesAhead attempts
  rw [execute_of_entry h, h]
  refine ⟨?_, ?_, ?_⟩
  · simp only [execute, h]
  · simp only [execute, h]
    exact hlines
  · exact hanswered.map _

/-! ## The numbers of lines -/

/-- The lines of the ledger are numbered by runs: the numbers never go down, and none is larger than
the number of runs so far. -/
structure Numbered (net : Network) : Prop where
  sorted : net.ledger.lines.toList.Pairwise fun a b => a.run ≤ b.run
  bounded : ∀ line ∈ net.ledger.lines.toList, line.run ≤ net.runs

namespace Numbered

theorem of_empty (h : net.ledger = {}) : net.Numbered := by
  constructor <;> simp [h]

theorem execute (h : net.Numbered) (hclosed : net.graph.Closed) : net.execute.1.Numbered := by
  cases hentry : net.entry? with
  | none => rw [execute_of_no_entry hentry]; exact h
  | some entry =>
    obtain ⟨hruns, hlines, _⟩ := lines_execute hclosed hentry
    have hahead {line : Ledger.Line} (hline : line ∈ net.linesAhead) : line.run = net.runs + 1 :=
      Run.run_of_mem_lines hline
    constructor
    -- The old lines carry smaller numbers than those of the run
    · rw [hlines, List.pairwise_append]
      refine ⟨h.sorted, List.pairwise_of_forall_mem_list fun a ha b hb => ?_, fun a ha b hb => ?_⟩
      · rw [hahead ha, hahead hb]
      · rw [hahead hb]
        exact Nat.le_succ_of_le (h.bounded a ha)
    -- Each line carries a number up to that of the run
    · intro line hline
      rw [hruns]
      rw [hlines] at hline
      rcases List.mem_append.mp hline with hline | hline
      · exact Nat.le_succ_of_le (h.bounded line hline)
      · exact Nat.le_of_eq (hahead hline)

theorem perform (h : net.Numbered) (hclosed : net.graph.Closed) (call : Call) :
    (net.perform call).1.Numbered := by
  rcases net.perform_cases call with ⟨graph, hcall⟩ | hcall | hcall
  · exact hcall ▸ ⟨h.sorted, h.bounded⟩
  · exact hcall ▸ of_empty rfl
  · exact hcall ▸ h.execute hclosed

theorem performAll (calls : List Call) : ∀ {net : Network}, net.Numbered → net.graph.Closed →
    (net.performAll calls).1.Numbered := by
  induction calls with
  | nil => exact fun h _ => h
  | cons call rest ih =>
    intro net h hclosed
    exact ih (h.perform hclosed call) ((leads_perform hclosed call).closed hclosed)

end Numbered

theorem ledger_of_instantiate {library : Library} {identifier : String} {options : BuildOptions}
    {built : Network} (h : library.instantiate identifier options = .ok built) :
    built.ledger = {} := by
  unfold Library.instantiate at h
  split at h
  next => cases h
  next => exact Except.ok.inj h ▸ rfl

theorem Reachable.numbered (h : net.Reachable) : net.Numbered := by
  obtain ⟨_, _, _, built, calls, hbuilt, rfl⟩ := h
  exact (Numbered.of_empty (ledger_of_instantiate hbuilt)).performAll calls
    ((leads_instantiate hbuilt).1.closed .empty)

/-! ## The ledger -/

/-- **The ledger tells what happened, run by run.**

A run of a network that exposes no entry changes neither the ledger nor the number of runs.  Any
other run takes the next number and adds its lines behind all others: in the order of the firings,
for each traced primitive that is asked to fire a request with its specification and the values that
it reads, and, if the firing succeeds, right behind it an emit with what the primitive makes of
these readings; of all other nodes nothing.  These are all lines of that number.  A request that no
emit of its node follows is the last of these lines, and the run fails because the primitive of this
node refuses what it reads or has reached the call limit.

The lines of any run stand together. -/
theorem ledger_records_runs (h : net.Reachable) :
    (net.entry? = none →
      net.execute.1.ledger = net.ledger ∧ net.execute.1.runs = net.runs) ∧
    (∀ entry, net.entry? = some entry →
      net.execute.1.runs = net.runs + 1 ∧
      net.execute.1.ledger.lines.toList = net.ledger.lines.toList ++ net.linesAhead ∧
      net.execute.1.ledger.ofRun (net.runs + 1) = net.linesAhead ∧
      Run.Answered net.limits.callLimit net.execute.2 net.linesAhead) ∧
    ∀ run, net.ledger.ofRun run <:+: net.ledger.lines.toList := by
  have hnumbered := h.numbered
  refine ⟨fun hentry => ?_, fun entry hentry => ?_, fun run =>
    filter_isInfix_of_pairwise run hnumbered.sorted⟩
  · rw [execute_of_no_entry hentry]
    exact ⟨rfl, rfl⟩
  · obtain ⟨hruns, hlines, hanswered⟩ := lines_execute h.closed hentry
    refine ⟨hruns, hlines, ?_, hanswered⟩
    -- No line that was there before has the number of this run
    have hold : net.ledger.lines.toList.filter (fun line => line.run = net.runs + 1) = [] := by
      refine List.filter_eq_nil_iff.mpr fun line hline => ?_
      have hbound := hnumbered.bounded line hline
      rw [decide_eq_true_eq]
      omega
    have hnew : net.linesAhead.filter (fun line => line.run = net.runs + 1) = net.linesAhead :=
      List.filter_eq_self.mpr fun line hline => decide_eq_true (Run.run_of_mem_lines hline)
    rw [Ledger.ofRun, hlines, List.filter_append, hold, hnew, List.nil_append]

/-- A traced bit runs twice.  The second time it refuses what it reads, and its request stays
without an emit. -/
theorem ledger_of_refusing_bit : ∃ built,
    Library.primitives.instantiate "!" { traced := true } = .ok built ∧
    (let net := (built.performAll [.execute, .writeInlet ⟨0⟩ 0 5]).1
     net.execute.2 = .error (.invalidBit ⟨0⟩ 5) ∧
     net.execute.1.ledger.ofRun 1 =
       [⟨1, ⟨0⟩, .request "!" [0]⟩, ⟨1, ⟨0⟩, .emit 1 1⟩] ∧
     net.linesAhead = [⟨2, ⟨0⟩, .request "!" [5]⟩] ∧
     net.execute.1.ledger.ofRun 2 = net.linesAhead) := by
  refine ⟨_, rfl, rfl, rfl, rfl, ?_⟩
  exact ((ledger_records_runs ⟨Library.primitives, "!", { traced := true }, _, _, rfl, rfl⟩).2.1
    _ rfl).2.2.1

end Network

end TokenNet
