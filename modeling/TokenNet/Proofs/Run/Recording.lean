import TokenNet.Proofs.Change.Call
import TokenNet.Proofs.Graph.Strict
import TokenNet.Proofs.Run.Attempts

/-!
# What a run records

Of an attempt to fire a traced primitive the ledger keeps a request with what the primitive reads,
and, if the firing succeeds, right behind it an emit with what the evaluation of these readings
says.  Nothing else is recorded.  So the lines of a run can be told from its attempts, and a request
without an emit is the last line of a run that fails at just this node.

## Main statements

- `Graph.events_fire`: what a firing records.
- `Run.lines_walk`: a walk adds the lines of its attempts to the ledger, in order.
- `Run.answered_walk`: a request that no emit follows is the last line of a failing run.
-/

namespace TokenNet

/-- Events are recorded in order, behind all lines that are there. -/
theorem Ledger.lines_record (ledger : Ledger) (run : Nat) (node : NodeId) (events : List Event) :
    (ledger.record run node events).lines.toList =
      ledger.lines.toList ++ events.map fun event => ⟨run, node, event⟩ := by
  induction events generalizing ledger with
  | nil => rw [List.map_nil, List.append_nil]; rfl
  | cons first rest ih =>
    have hrest := ih ⟨ledger.lines.push ⟨run, node, first⟩⟩
    rw [Array.toList_push, List.append_assoc] at hrest
    exact hrest

/-! ## Single attempts -/

namespace Graph

variable {graph : Graph} {callLimit : UInt32} {node : NodeId}

/-- What a node with the given ports reads. -/
def readings (graph : Graph) (ports : Interface) : List Reading :=
  ports.inlets.map graph.reading

/-- What can come of the firing of a native node: what is recorded of it if it is traced, and the
result. -/
inductive FiresNative (graph : Graph) (callLimit : UInt32) (node : NodeId) (record : Node)
    (primitive : Primitive) (ports : Interface) : List Event → Except RunFault ExitId → Prop where
  /-- The primitive refuses what it reads. -/
  | refused {value : Value} (hevaluate : primitive.evaluate (graph.readings ports) = .error value) :
      FiresNative graph callLimit node record primitive ports
        [.request record.specification ((graph.readings ports).map Reading.value)]
        (.error (.invalidBit node value))
  /-- The call reaches the limit. -/
  | exhausted :
      FiresNative graph callLimit node record primitive ports
        [.request record.specification ((graph.readings ports).map Reading.value)]
        (.error (.callLimit node callLimit))
  /-- The output is written and an exit fires. -/
  | emitted {evaluation : Evaluation} {exit : ExitId}
      (hevaluate : primitive.evaluate (graph.readings ports) = .ok evaluation) :
      FiresNative graph callLimit node record primitive ports
        [.request record.specification ((graph.readings ports).map Reading.value),
          .emit evaluation.output evaluation.exit]
        (.ok exit)

/-- However the outlet is written, both lines of a traced node are recorded and the exit fires. -/
theorem firesNative_emit {written : Graph} {record : Node} {primitive : Primitive}
    {ports : Interface} {evaluation : Evaluation} {exit : ExitId} {recorded : List Event}
    (hevaluate : primitive.evaluate (graph.readings ports) = .ok evaluation)
    (hexit : ports.exits[evaluation.exit]? = some exit)
    (hrecorded : recorded = if record.traced then
      [.request record.specification ((graph.readings ports).map Reading.value),
        .emit evaluation.output evaluation.exit] else []) :
    ∃ events, (written.emit node ports evaluation recorded).events =
        (if record.traced then events else []) ∧
      graph.FiresNative callLimit node record primitive ports events
        (written.emit node ports evaluation recorded).result := by
  -- Both events are known before the exit is looked up
  refine ⟨_, hrecorded, ?_⟩
  unfold emit
  rw [hexit]
  exact .emitted hevaluate

/-- **Nothing else can come of the firing of a native node.**  The exit that an evaluation names is
among those of the node, so nothing fails once the outlet is written. -/
theorem firesNative_fire (hclosed : graph.Closed) (callLimit : UInt32) {record : Node}
    {primitive : Primitive} {ports : Interface} (hrecord : graph.node? node = some record)
    (hkind : record.kind = .native primitive ports) :
    ∃ events, (graph.fire callLimit node).events = (if record.traced then events else []) ∧
      graph.FiresNative callLimit node record primitive ports events
        (graph.fire callLimit node).result := by
  have hknown := hclosed.knowsNode hrecord
  unfold KnowsNode at hknown
  rw [hkind] at hknown
  obtain ⟨_, _, hlength⟩ := hknown
  have hfire : graph.fire callLimit node =
      graph.firePrimitive callLimit node record primitive ports := by
    simp only [fire, hrecord, hkind]
  have hreadings : ports.inlets.map graph.reading = graph.readings ports := rfl
  rw [hfire]
  unfold firePrimitive
  dsimp only
  rw [hreadings]
  -- A refusal, an exhausted counter, or an emit
  cases hevaluate : primitive.evaluate (graph.readings ports) with
  | error value => exact ⟨_, rfl, .refused hevaluate⟩
  | ok evaluation =>
    have hexit := List.getElem?_eq_getElem
      (hlength ▸ Primitive.exit_lt_exitCount hevaluate : evaluation.exit < ports.exits.length)
    cases hregister : evaluation.register with
    | none =>
      simp only [hregister]
      exact firesNative_emit hevaluate hexit (by cases record.traced <;> rfl)
    | some register =>
      simp only [hregister]
      split
      next => exact ⟨_, rfl, .exhausted⟩
      next => exact firesNative_emit hevaluate hexit (by cases record.traced <;> rfl)

end Graph

namespace Run.Attempt

/-- What is to be recorded of an attempt: if the node is a traced primitive, its specification and
the values that it reads, and, if the firing succeeds, what the primitive makes of these
readings. -/
def events (callLimit : UInt32) (attempt : Attempt) : List Event :=
  match attempt.graph.node? attempt.node with
  | none => []
  | some record =>
    match record.kind with
    | .native primitive ports =>
      let readings := attempt.graph.readings ports
      if record.traced then
        .request record.specification (readings.map Reading.value) ::
          match (attempt.firing callLimit).result, primitive.evaluate readings with
          | .ok _, .ok evaluation => [.emit evaluation.output evaluation.exit]
          | _, _ => []
      else []
    | _ => []

end Run.Attempt

namespace Graph

variable {graph : Graph} {node : NodeId}

/-- **A firing records what is to be recorded of it.** -/
theorem events_fire (hclosed : graph.Closed) (callLimit : UInt32) (node : NodeId) :
    (graph.fire callLimit node).events = (⟨graph, node⟩ : Run.Attempt).events callLimit := by
  unfold Run.Attempt.events Run.Attempt.firing
  cases hrecord : graph.node? node with
  | none => simp only [fire, hrecord]
  | some record =>
    cases hkind : record.kind with
    | join entry exit => simp only [fire, hrecord, hkind]
    | composite ports parts => simp only [fire, hrecord, hkind]
    -- Only a primitive records anything, and what it records is told by its inputs
    | native primitive ports =>
      obtain ⟨events, hevents, hfires⟩ := firesNative_fire hclosed callLimit hrecord hkind
      simp only [hkind]
      rw [hevents]
      generalize (graph.fire callLimit node).result = result at hfires ⊢
      cases hfires with
      | refused hevaluate => rfl
      | exhausted => rfl
      | emitted hevaluate => rw [hevaluate]

/-- Of a firing nothing is recorded, or both lines of one that succeeds, or the request of one that
its primitive made fail. -/
theorem events_fire_cases (hclosed : graph.Closed) (callLimit : UInt32) (node : NodeId) :
    (graph.fire callLimit node).events = [] ∨
      (∃ specification inputs output position exit,
        (graph.fire callLimit node).events =
          [.request specification inputs, .emit output position] ∧
        (graph.fire callLimit node).result = .ok exit) ∨
      ∃ specification inputs fault,
        (graph.fire callLimit node).events = [.request specification inputs] ∧
        (graph.fire callLimit node).result = .error fault ∧
        ((∃ value, fault = .invalidBit node value) ∨ fault = .callLimit node callLimit) := by
  cases hrecord : graph.node? node with
  | none => exact Or.inl (by simp only [fire, hrecord])
  | some record =>
    cases hkind : record.kind with
    | join entry exit => exact Or.inl (by simp only [fire, hrecord, hkind])
    | composite ports parts => exact Or.inl (by simp only [fire, hrecord, hkind])
    | native primitive ports =>
      obtain ⟨events, hevents, hfires⟩ := firesNative_fire hclosed callLimit hrecord hkind
      -- An untraced primitive records nothing, a traced one by the way it fires
      rw [hevents]
      cases record.traced with
      | false => exact Or.inl rfl
      | true =>
        generalize (graph.fire callLimit node).result = result at hfires ⊢
        cases hfires with
        | refused hevaluate => exact Or.inr (Or.inr ⟨_, _, _, rfl, rfl, Or.inl ⟨_, rfl⟩⟩)
        | exhausted => exact Or.inr (Or.inr ⟨_, _, _, rfl, rfl, Or.inr rfl⟩)
        | emitted hevaluate => exact Or.inr (Or.inl ⟨_, _, _, _, _, rfl, rfl⟩)

end Graph

/-! ## Whole runs -/

namespace Run

variable {callLimit : UInt32} {run : Nat}

/-- What is to be recorded of the attempts of a run. -/
def lines (callLimit : UInt32) (run : Nat) (attempts : List Attempt) : List Ledger.Line :=
  attempts.flatMap fun attempt =>
    (attempt.events callLimit).map fun event => ⟨run, attempt.node, event⟩

/-- All lines of a run carry its number. -/
theorem run_of_mem_lines {attempts : List Attempt} {line : Ledger.Line}
    (h : line ∈ lines callLimit run attempts) : line.run = run := by
  obtain ⟨attempt, _, hline⟩ := List.mem_flatMap.mp h
  obtain ⟨event, _, rfl⟩ := List.mem_map.mp hline
  rfl

theorem lines_cons (attempt : Attempt) (later : List Attempt) :
    lines callLimit run (attempt :: later) =
      (attempt.events callLimit).map (fun event => ⟨run, attempt.node, event⟩) ++
        lines callLimit run later :=
  List.flatMap_cons

/-- A firing adds the lines of its attempt to the ledger. -/
theorem lines_fireAt {state : State} (hclosed : state.graph.Closed) (callLimit : UInt32) (run : Nat)
    (entry : EntryId) : (fireAt callLimit run entry state).1.ledger.lines.toList =
      state.ledger.lines.toList ++
        ((⟨state.graph, nodeAt state.graph entry⟩ : Attempt).events callLimit).map
          fun event => ⟨run, nodeAt state.graph entry, event⟩ := by
  rw [← Graph.events_fire hclosed]
  exact Ledger.lines_record _ _ _ _

/-- **A walk adds the lines of its attempts to the ledger, in order.** -/
theorem lines_walk (callLimit : UInt32) (limit run : Nat) :
    ∀ (budget steps : Nat) (entry : EntryId) {state : State}, state.graph.Closed →
    (walk callLimit limit run budget steps entry state).1.ledger.lines.toList =
      state.ledger.lines.toList ++
        lines callLimit run (attempts callLimit run budget entry state) := by
  intro budget
  induction budget with
  | zero => exact fun _ _ state _ => (List.append_nil state.ledger.lines.toList).symm
  -- The first attempt puts its lines in front of the others
  | succ budget ih =>
    intro steps entry state hclosed
    have hclosed' := (moves_fireAt hclosed callLimit run entry).leads.closed hclosed
    have hfired := lines_fireAt hclosed callLimit run entry
    unfold walk attempts
    rw [lines_cons, ← List.append_assoc, ← hfired]
    generalize fireAt callLimit run entry state = fired at hclosed' ⊢
    rcases fired with ⟨after, fault | exit⟩
    · exact (List.append_nil after.ledger.lines.toList).symm
    · dsimp only
      cases after.graph.target? exit with
      | none => exact (List.append_nil after.ledger.lines.toList).symm
      | some next => exact ih (steps + 1) next hclosed'

/-! ## Requests without an emit -/

/-- Every request among the lines of a run is followed by an emit of its node, or it is the last
line and its primitive made the run fail. -/
def Answered {α : Type} (callLimit : UInt32) (result : Except RunFault α)
    (lines : List Ledger.Line) : Prop :=
  ∀ before line after, lines = before ++ line :: after →
    ∀ specification inputs, line.event = .request specification inputs →
      (∃ output exit rest, after = ⟨line.run, line.node, .emit output exit⟩ :: rest) ∨
      (after = [] ∧ ∃ fault, result = .error fault ∧
        ((∃ value, fault = .invalidBit line.node value) ∨ fault = .callLimit line.node callLimit))

namespace Answered

variable {α : Type} {result : Except RunFault α} {lines : List Ledger.Line} {node : NodeId}

theorem nil : Answered callLimit result [] :=
  fun _ _ _ h => by simp at h

/-- The lines of a firing that succeeds may stand in front: none, or a request and its emit. -/
theorem front (h : Answered callLimit result lines) {events : List Event}
    (hevents : events = [] ∨ ∃ specification inputs output position,
      events = [.request specification inputs, .emit output position]) :
    Answered callLimit result (events.map (fun event => ⟨run, node, event⟩) ++ lines) := by
  -- Two lines in front: the request is answered by the line behind it
  obtain rfl | ⟨_, _, output, position, rfl⟩ := hevents
  · exact h
  intro before line after hlines specification inputs hrequest
  match before with
  | [] =>
    obtain ⟨rfl, rfl⟩ := List.cons.inj hlines
    exact Or.inl ⟨output, position, lines, rfl⟩
  | [_] =>
    obtain ⟨rfl, rfl⟩ := List.cons.inj (List.cons.inj hlines).2
    cases hrequest
  | _ :: _ :: rest =>
    exact h rest line after (List.cons.inj (List.cons.inj hlines).2).2 specification inputs hrequest

/-- A request may stand last if its primitive made the run fail. -/
theorem last {fault : RunFault} {specification : String} {inputs : List Value}
    (h : (∃ value, fault = .invalidBit node value) ∨ fault = .callLimit node callLimit) :
    Answered callLimit (.error fault : Except RunFault α)
      [⟨run, node, .request specification inputs⟩] := by
  intro before line after hlines specification inputs hrequest
  match before with
  | [] =>
    obtain ⟨rfl, rfl⟩ := List.cons.inj hlines
    exact Or.inr ⟨rfl, fault, rfl, h⟩
  | _ :: rest => simp at hlines

/-- What a run that succeeds answers is not looked at. -/
theorem map {β : Type} (h : Answered callLimit result lines) (f : α → β) :
    Answered callLimit (result.map f) lines := by
  intro before line after hlines specification inputs hrequest
  refine (h before line after hlines specification inputs hrequest).imp_right ?_
  rintro ⟨hlast, fault, rfl, hcause⟩
  exact ⟨hlast, fault, rfl, hcause⟩

end Answered

/-- **A request that no emit follows is the last line of a run that fails at its node.** -/
theorem answered_walk (callLimit : UInt32) (limit run : Nat) :
    ∀ (budget steps : Nat) (entry : EntryId) {state : State}, state.graph.Closed →
    Answered callLimit (walk callLimit limit run budget steps entry state).2
      (lines callLimit run (attempts callLimit run budget entry state)) := by
  intro budget
  induction budget with
  | zero => exact fun _ _ _ _ => .nil
  | succ budget ih =>
    -- One firing decides the result, or it is followed by the rest of the walk
    intro steps entry state hclosed
    have hclosed' := (moves_fireAt hclosed callLimit run entry).leads.closed hclosed
    have hcases := Graph.events_fire_cases hclosed callLimit (nodeAt state.graph entry)
    rw [Graph.events_fire hclosed, show (state.graph.fire callLimit _).result =
      (fireAt callLimit run entry state).2 from rfl] at hcases
    unfold walk attempts
    rw [lines_cons]
    generalize fireAt callLimit run entry state = fired at hclosed' hcases ⊢
    rcases fired with ⟨after, fault | exit⟩
    · -- The walk fails with this firing, and no attempt follows
      rcases hcases with hnone | ⟨_, _, _, _, _, _, hok⟩ | ⟨_, _, _, hevents, hfault, hcause⟩
      · rw [hnone]
        exact .nil
      · cases hok
      · rw [hevents]
        exact .last (Except.error.inj hfault ▸ hcause)
    -- A firing that succeeds puts both lines in front of what the rest records, or none
    · have hfront : (⟨state.graph, nodeAt state.graph entry⟩ : Attempt).events callLimit = [] ∨
          ∃ specification inputs output position,
            (⟨state.graph, nodeAt state.graph entry⟩ : Attempt).events callLimit =
              [.request specification inputs, .emit output position] := by
        rcases hcases with hnone | ⟨_, _, _, _, _, hevents, _⟩ | ⟨_, _, _, _, hfault, _⟩
        · exact Or.inl hnone
        · exact Or.inr ⟨_, _, _, _, hevents⟩
        · cases hfault
      dsimp only
      cases after.graph.target? exit with
      | none => exact Answered.nil.front hfront
      | some next => exact (ih (steps + 1) next hclosed').front hfront

end Run

end TokenNet
