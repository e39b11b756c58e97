import TokenNet.Proofs.Chart.Part
import TokenNet.Proofs.Flow.Keeps
import TokenNet.Run

/-!
# Charts of graphs

The chart of a graph is read off its wiring, before it is used.  Use keeps the wiring, so the chart
stays right: an adder fires as its row says, joins only take firings, and a walk of the token is a
run through the chart.

## Main statements

- `Graph.fire_of_row`: an adder fires as its row says.
- `Run.after_of_jump`: joins hand the token on.
- `Ends.lands`: a walk ends as the chart says, or the limit on its firings stops it on the way.
-/

namespace TokenNet

namespace Graph

/-! ## Reading the wiring -/

/-- Where the token comes from an exit, through at most so many joins. -/
def jump? (graph : Graph) : Nat → ExitId → Option Jump
  | 0, _ => none
  | bound + 1, exit =>
    match graph.target? exit with
    | none => some ⟨.exit exit.index, 0⟩
    | some entry =>
      match ((graph.admitted? entry).bind graph.node?).map Node.kind with
      | none => none
      | some (.join _ next) => (graph.jump? bound next).map fun jump =>
          { jump with joins := jump.joins + 1 }
      | some _ => some ⟨.row entry.index, 0⟩

/-- The slots at which a write to some cells shows. -/
def slotsOf (graph : Graph) (cells : List CellId) : List Nat :=
  (List.range graph.inlets.size).filter fun s => graph.touches cells (.inlet ⟨s⟩)

/-- What an adder with two inlets yields. -/
def sourceOf (graph : Graph) (left right : InletId) : Source :=
  match graph.inletWired left, graph.inletWired right with
  | true, true => .sum left.index right.index
  | true, false => .constant 1
  | false, true => .constant (-1)
  | false, false => .constant 0

/-- The exits that an adder can fire: a constant always fires the same one. -/
def firedBy (zero other : ExitId) : Source → ExitId × ExitId
  | .constant value => if value = 0 then (zero, zero) else (other, other)
  | .sum _ _ => (zero, other)

/-- The row of the adder behind an entry, in a network with the given outlet. -/
def row? (graph : Graph) (outlet : OutletId) (entry : Nat) : Option Row :=
  match ((graph.admitted? ⟨entry⟩).bind graph.node?).map Node.kind with
  | some (.native .adder ⟨[left, right], own, _, [zero, other], _, _, _⟩) =>
    let source := graph.sourceOf left right
    let fired := firedBy zero other source
    let cells := graph.outward own
    match graph.outletCell? own, graph.jump? graph.nodes.size fired.1,
        graph.jump? graph.nodes.size fired.2 with
    | some _, some zero, some other =>
      some ⟨source, graph.slotsOf cells, graph.touches cells (.outlet outlet), zero, other⟩
    | _, _, _ => none
  | _ => none

/-- What a graph shows. -/
def memory (graph : Graph) (outlet : OutletId) : Memory where
  slot := fun s => graph.shows (.inlet ⟨s⟩)
  out := graph.shows (.outlet outlet)

theorem mem_slotsOf {graph : Graph} {cells : List CellId} {s : Nat} :
    s ∈ graph.slotsOf cells ↔ graph.touches cells (.inlet ⟨s⟩) = true := by
  unfold slotsOf
  rw [List.mem_filter, List.mem_range]
  constructor
  · exact And.right
  · intro h
    obtain ⟨cell, _, hcell⟩ := touches_iff.mp h
    exact ⟨hasPort_of_portCell? hcell, h⟩

theorem value_sourceOf (graph : Graph) (outlet : OutletId) (left right : InletId) :
    (graph.sourceOf left right).value (graph.memory outlet) =
      Primitive.sum (graph.reading left) (graph.reading right) := by
  unfold sourceOf reading
  cases graph.inletWired left <;> cases graph.inletWired right <;> rfl

/-! ## Firing an adder -/

/-- What there is behind a row: an adder whose ports are as the row says. -/
structure Behind (graph : Graph) (outlet : OutletId) (entry : Nat) (row : Row) (node : NodeId)
    (record : Node) (ports : Interface) (left right : InletId) (zero other : ExitId) : Prop where
  admitted : graph.admitted? ⟨entry⟩ = some node
  found : graph.node? node = some record
  kind : record.kind = .native .adder ports
  inlets : ports.inlets = [left, right]
  exits : ports.exits = [zero, other]
  own : ∃ cell, graph.outletCell? ports.outlet = some cell
  source : row.source = graph.sourceOf left right
  writes : row.writes = graph.slotsOf (graph.outward ports.outlet)
  emits : row.emits = graph.touches (graph.outward ports.outlet) (.outlet outlet)
  zeroJump : graph.jump? graph.nodes.size (firedBy zero other row.source).1 = some row.zero
  otherJump : graph.jump? graph.nodes.size (firedBy zero other row.source).2 = some row.other

theorem behind_of_row? {graph : Graph} {outlet : OutletId} {entry : Nat} {row : Row}
    (h : graph.row? outlet entry = some row) : ∃ node record ports left right zero other,
      graph.Behind outlet entry row node record ports left right zero other := by
  unfold row? at h
  -- All look-ups behind the row have succeeded, and each of them is one field
  split at h
  next left right own _ zero other _ _ _ hkind =>
    obtain ⟨record, hrecord, hkind⟩ := Option.map_eq_some_iff.mp hkind
    obtain ⟨node, hadmitted, hfound⟩ := Option.bind_eq_some_iff.mp hrecord
    dsimp only at h
    split at h
    next cell zeroJump otherJump hcell hzero hother =>
      obtain rfl := Option.some.inj h
      exact ⟨node, record, _, left, right, zero, other, hadmitted, hfound, hkind, rfl, rfl,
        ⟨cell, hcell⟩, rfl, rfl, rfl, hzero, hother⟩
    next => cases h
  next => cases h

/-- The exit that fires is the one whose jump the row names. -/
theorem Behind.jump {graph : Graph} {outlet : OutletId} {entry : Nat} {row : Row} {node : NodeId}
    {record : Node} {ports : Interface} {left right : InletId} {zero other : ExitId}
    (h : graph.Behind outlet entry row node record ports left right zero other) (memory : Memory) :
    graph.jump? graph.nodes.size (if row.source.value memory = 0 then zero else other) =
      some (row.jump (row.source.value memory)) := by
  have hzero := h.zeroJump
  have hother := h.otherJump
  unfold Row.jump
  cases hsource : row.source with
  -- A constant decides between the exits once and for all
  | constant value =>
    rw [hsource] at hzero hother
    simp only [firedBy, Source.value] at hzero hother ⊢
    by_cases hvalue : value = 0
    · simp only [hvalue, if_true] at hzero ⊢
      exact hzero
    · simp only [hvalue, if_false] at hother ⊢
      exact hother
  | sum left right =>
    rw [hsource] at hzero hother
    split
    · exact hzero
    · exact hother

variable {graph graph' : Graph} {outlet : OutletId} {entry : Nat} {row : Row}

/-- Writing the outlet of an adder changes the memory as the row says. -/
theorem memory_writeOutlet (h : graph.Keeps graph') (hlinked : graph.Linked)
    (htight : graph.Tight) {own : OutletId} {cell : CellId}
    (hown : graph.outletCell? own = some cell) (value : Value) :
    (graph'.writeOutlet own value).memory outlet =
      (graph'.memory outlet).write (graph.slotsOf (graph.outward own))
        (graph.touches (graph.outward own) (.outlet outlet)) value := by
  have hshows := h.shows_writeOutlet hlinked htight hown value
  unfold memory Memory.write
  rw [hshows]
  congr
  funext s
  rw [hshows]
  simp only [mem_slotsOf]

theorem fire_adder {graph : Graph} {node : NodeId} {record : Node} {ports : Interface}
    {left right : InletId} (hfound : graph.node? node = some record)
    (hkind : record.kind = .native .adder ports) (hinlets : ports.inlets = [left, right])
    (callLimit : UInt32) : ∃ events, graph.fire callLimit node =
      graph.emit node ports ⟨Primitive.sum (graph.reading left) (graph.reading right),
        Primitive.branch (Primitive.sum (graph.reading left) (graph.reading right)), none⟩
        events := by
  unfold fire firePrimitive
  simp only [hfound, hkind, hinlets]
  exact ⟨_, rfl⟩

/-- **An adder fires as its row says**, after any use of the graph. -/
theorem fire_of_row (h : graph.Keeps graph') (hlinked : graph.Linked) (htight : graph.Tight)
    (hrow : graph.row? outlet entry = some row) (callLimit : UInt32) :
    ∃ node exit, graph'.admitted? ⟨entry⟩ = some node ∧
      (graph'.fire callLimit node).result = .ok exit ∧
      graph.Keeps (graph'.fire callLimit node).graph ∧
      (graph'.fire callLimit node).graph.memory outlet = row.fire (graph'.memory outlet) ∧
      graph.jump? graph.nodes.size exit =
        some (row.jump (row.source.value (graph'.memory outlet))) := by
  obtain ⟨node, record, ports, left, right, zero, other, hbehind⟩ := behind_of_row? hrow
  obtain ⟨cell, hcell⟩ := hbehind.own
  -- What the node reads is what the row says of the memory
  have hvalue : Primitive.sum (graph'.reading left) (graph'.reading right) =
      row.source.value (graph'.memory outlet) := by
    rw [hbehind.source, ← value_sourceOf graph' outlet]
    unfold sourceOf
    rw [h.inletWired]
  have hadmitted : graph'.admitted? ⟨entry⟩ = some node := by
    rw [h.admitted?]
    exact hbehind.admitted
  have hfound : graph'.node? node = some record := by
    rw [h.node?]
    exact hbehind.found
  obtain ⟨events, hfire⟩ := fire_adder hfound hbehind.kind hbehind.inlets callLimit
  rw [hvalue] at hfire
  refine ⟨node, if row.source.value (graph'.memory outlet) = 0 then zero else other, hadmitted,
    ?_, ?_, ?_, hbehind.jump _⟩ <;> rw [hfire]
  · unfold emit Primitive.branch
    by_cases hzero : row.source.value (graph'.memory outlet) = 0 <;>
      simp [hbehind.exits, hzero]
  · exact h.writeOutlet htight hcell _
  · unfold Row.fire
    rw [hbehind.writes, hbehind.emits]
    exact memory_writeOutlet h hlinked htight hcell _

end Graph

/-! ## Walking -/

namespace Run

variable (callLimit : UInt32) (limit run : Nat)

/-- How a walk goes on when an exit has fired. -/
def after (budget steps : Nat) (exit : ExitId) (state : State) :
    State × Except RunFault (ExitId × Nat) :=
  match state.graph.target? exit with
  | some next => walk callLimit limit run budget steps next state
  | none => (state, .ok (exit, steps))

/-- How a walk goes on from a place. -/
def resume (budget steps : Nat) (place : Place) (state : State) :
    State × Except RunFault (ExitId × Nat) :=
  match place with
  | .row entry => walk callLimit limit run budget steps ⟨entry⟩ state
  | .exit index => (state, .ok (⟨index⟩, steps))

theorem walk_succ (budget steps : Nat) {entry : EntryId} {state : State} {node : NodeId}
    {exit : ExitId} (hnode : state.graph.admitted? entry = some node)
    (hresult : (state.graph.fire callLimit node).result = .ok exit) :
    ∃ ledger, walk callLimit limit run (budget + 1) steps entry state =
      after callLimit limit run budget (steps + 1) exit
        ⟨(state.graph.fire callLimit node).graph, ledger⟩ := by
  -- The walk fires the node that the entry admits
  have hat : nodeAt state.graph entry = node := by
    unfold nodeAt
    rw [hnode]
    rfl
  unfold walk fireAt
  dsimp only
  rw [hat, hresult]
  exact ⟨_, rfl⟩

/-- Firing a join leaves everything as it is. -/
theorem walk_join {budget steps : Nat} {entry : EntryId} {state : State} {node : NodeId}
    {record : Node} {own : EntryId} {exit : ExitId}
    (hnode : state.graph.admitted? entry = some node)
    (hrecord : state.graph.node? node = some record) (hkind : record.kind = .join own exit) :
    walk callLimit limit run (budget + 1) steps entry state =
      after callLimit limit run budget (steps + 1) exit state := by
  have hat : nodeAt state.graph entry = node := by
    unfold nodeAt
    rw [hnode]
    rfl
  -- A join fires without touching the graph
  have hfire : state.graph.fire callLimit node = ⟨state.graph, [], .ok exit⟩ := by
    unfold Graph.fire
    simp only [hrecord, hkind]
  unfold walk fireAt
  dsimp only
  rw [hat, hfire]
  rfl

/-- **Joins hand the token on**, one firing each. -/
theorem after_of_jump {graph : Graph} {state : State} (h : graph.Keeps state.graph) :
    ∀ (bound : Nat) {budget steps : Nat} {exit : ExitId} {jump : Jump},
    graph.jump? bound exit = some jump →
    after callLimit limit run budget steps exit state =
      if jump.joins ≤ budget then
        resume callLimit limit run (budget - jump.joins) (steps + jump.joins) jump.place state
      else (state, .error (.chainExhausted limit))
  | 0, _, _, _, _, hjump => by
    cases hjump
  | bound + 1, budget, steps, exit, jump, hjump => by
    unfold Graph.jump? at hjump
    unfold after
    rw [h.target?]
    cases htarget : graph.target? exit with
    -- Without a target the token comes to rest
    | none =>
      simp only [htarget] at hjump
      obtain rfl := Option.some.inj hjump
      rfl
    | some entry =>
      simp only [htarget] at hjump
      cases hkind : ((graph.admitted? entry).bind graph.node?).map Node.kind with
      | none =>
        simp only [hkind] at hjump
        cases hjump
      | some kind =>
        simp only [hkind] at hjump
        obtain ⟨record, hrecord, hkind⟩ := Option.map_eq_some_iff.mp hkind
        obtain ⟨node, hadmitted, hfound⟩ := Option.bind_eq_some_iff.mp hrecord
        cases kind with
        -- A node that acts is the place where the token goes on
        | native primitive ports =>
          obtain rfl := Option.some.inj hjump
          rfl
        | composite ports parts =>
          obtain rfl := Option.some.inj hjump
          rfl
        | join own next =>
          obtain ⟨later, hlater, rfl⟩ := Option.map_eq_some_iff.mp hjump
          cases budget with
          | zero => rfl
          | succ budget =>
            rw [← h.admitted?] at hadmitted
            rw [← h.node?] at hfound
            dsimp only
            -- A join takes one step of the budget and hands the token on unchanged
            rw [walk_join callLimit limit run hadmitted hfound hkind,
              after_of_jump h bound hlater, Nat.add_right_comm steps 1]
            simp only [Nat.add_le_add_iff_right, Nat.add_sub_add_right]
            rfl

/-- **One row of a chart** is one firing and the joins after it. -/
theorem resume_row {graph : Graph} {outlet : OutletId} {entry : Nat} {row : Row} {state : State}
    (h : graph.Keeps state.graph) (hlinked : graph.Linked) (htight : graph.Tight)
    (hrow : graph.row? outlet entry = some row) {jump : Jump}
    (hjump : row.jump (row.source.value (state.graph.memory outlet)) = jump)
    (budget steps : Nat) :
    ∃ state', graph.Keeps state'.graph ∧
      state'.graph.memory outlet = row.fire (state.graph.memory outlet) ∧
      resume callLimit limit run (budget + 1) steps (.row entry) state =
        if jump.joins ≤ budget then
          resume callLimit limit run (budget - jump.joins) (steps + 1 + jump.joins) jump.place state'
        else (state', .error (.chainExhausted limit)) := by
  -- The firing of the node is the firing of the row
  obtain ⟨node, exit, hadmitted, hresult, hkeeps, hmemory, hexit⟩ :=
    Graph.fire_of_row h hlinked htight hrow callLimit
  obtain ⟨ledger, hwalk⟩ := walk_succ callLimit limit run budget steps hadmitted hresult
  rw [hjump] at hexit
  refine ⟨⟨(state.graph.fire callLimit node).graph, ledger⟩, hkeeps, hmemory, hwalk.trans ?_⟩
  -- From the exit the token passes the joins up to the next place
  exact after_of_jump callLimit limit run hkeeps graph.nodes.size hexit

/-- Where a walk ends that may take so many firings, in terms of the memory of the network: the
limit on the firings stops it on the way only if there are fewer. -/
structure Lands (graph : Graph) (outlet : OutletId) (always : Memory → Prop)
    (done : Nat → Memory → Prop) (bound budget : Nat)
    (answer : State × Except RunFault (ExitId × Nat)) : Prop where
  keeps : graph.Keeps answer.1.graph
  always : always (answer.1.graph.memory outlet)
  result : (∃ index steps, answer.2 = .ok (⟨index⟩, steps) ∧
      done index (answer.1.graph.memory outlet)) ∨
    (budget < bound ∧ answer.2 = .error (.chainExhausted limit))

end Run

/-- **A walk ends as the chart says**, or it is stopped on the way. -/
theorem Ends.lands {graph : Graph} {outlet : OutletId} {rows : Listing}
    {always : Memory → Prop} {done : Nat → Memory → Prop} {bound : Nat} {place : Place}
    {memory : Memory} (hlinked : graph.Linked) (htight : graph.Tight)
    (hrows : ∀ row ∈ rows, graph.row? outlet row.1 = some row.2)
    (h : Ends rows always done bound place memory) (callLimit : UInt32) (limit run : Nat) :
    ∀ {state : Run.State} {budget steps : Nat}, graph.Keeps state.graph →
      state.graph.memory outlet = memory →
      Run.Lands limit graph outlet always done bound budget
        (Run.resume callLimit limit run budget steps place state) := by
  induction h with
  | exit halways hdone =>
    rintro state budget steps hkeeps rfl
    exact ⟨hkeeps, halways, .inl ⟨_, steps, rfl, hdone⟩⟩
  | @row bound total entry row memory hrow halways hrest hbound ih =>
    rintro state budget steps hkeeps rfl
    -- Without budget the walk stops in front of the row
    cases budget with
    | zero => exact ⟨hkeeps, halways, .inr ⟨by omega, rfl⟩⟩
    | succ budget =>
      have hfound : graph.row? outlet entry = some row := hrows _ (Listing.mem_of_lookup hrow)
      obtain ⟨state', hkeeps', hmemory, hresume⟩ :=
        Run.resume_row callLimit limit run hkeeps hlinked htight hfound rfl budget steps
      rw [hresume]
      split
      next hjoins =>
        obtain ⟨hkept, hheld, hend⟩ := ih hkeeps' hmemory
        exact ⟨hkept, hheld, hend.imp_right fun ⟨hless, hfault⟩ => ⟨by omega, hfault⟩⟩
      next hjoins =>
        -- The budget ends among the joins behind the row
        refine ⟨hkeeps', ?_, .inr ⟨by omega, rfl⟩⟩
        rw [hmemory]
        exact hrest.always_of

end TokenNet
