import TokenNet.Proofs.Shift.Firing

/-!
# Running a shift

A token that comes to the entry of a shift is kept inside for three firings, or two if the constant
is zero, and then it leaves by the exit that the result names.

## Main statements

- `Run.Crosses`: the token is inside a composite for a number of firings and leaves it.
- `Shift.Layout.crosses`: how it crosses a shift, and what it leaves behind.
-/

namespace TokenNet

/-! ## Crossing a composite -/

namespace Run

variable {callLimit : UInt32} {run : Nat}

/-- The token waits at a part of a composite, or at a join of it. -/
def Moment.Inside (composite : NodeId) (moment : Moment) : Prop :=
  ∃ part, moment.state.graph.admitted? moment.entry = some part ∧
    moment.state.graph.parentOf? part = some composite

/-- From a moment on the token stays inside a composite for a number of firings, and the last of
them is by an exit of the composite. -/
inductive Crosses (callLimit : UInt32) (run : Nat) (composite : NodeId) :
    Nat → Moment → State → ExitId → Prop where
  | leave {moment : Moment} {state : State} {exit : ExitId} (inside : moment.Inside composite)
      (fires : moment.fire callLimit run = (state, .ok exit))
      (owner : state.graph.exitOwner? exit = some composite) :
      Crosses callLimit run composite 1 moment state exit
  | stay {count : Nat} {moment next : Moment} {state : State} {fired exit : ExitId}
      (inside : moment.Inside composite)
      (fires : moment.fire callLimit run = (next.state, .ok fired))
      (owner : next.state.graph.exitOwner? fired ≠ some composite)
      (target : next.state.graph.target? fired = some next.entry)
      (rest : Crosses callLimit run composite count next state exit) :
      Crosses callLimit run composite (count + 1) moment state exit

/-- A firing, said by the graph alone. -/
theorem exists_fire {moment : Moment} {node : NodeId} {exit : ExitId}
    (hadmitted : moment.state.graph.admitted? moment.entry = some node)
    (hresult : (moment.state.graph.fire callLimit node).result = .ok exit) :
    ∃ state, moment.fire callLimit run = (state, .ok exit) ∧
      state.graph = (moment.state.graph.fire callLimit node).graph := by
  obtain rfl : nodeAt moment.state.graph moment.entry = node := by simp [nodeAt, hadmitted]
  exact ⟨(moment.fire callLimit run).1, Prod.ext rfl hresult, rfl⟩

end Run

/-! ## Crossing a shift -/

/-- The exits of an adder are not those of the composite in which it stands. -/
theorem Adder.In.exitOwner?_ne {a : Adder} {graph : Graph} {composite : NodeId}
    (h : a.In graph composite) (hlineage : graph.Lineage) (value : Value) :
    graph.exitOwner? (a.exit value) ≠ some composite := by
  intro howner
  have hown : graph.exitOwner? (a.exit value) = some a.node := by
    unfold Adder.exit
    split
    · exact h.zeroOwner hlineage
    · exact h.otherOwner hlineage
  obtain rfl := Option.some.inj (hown.symm.trans howner)
  exact Nat.lt_irrefl _ (hlineage.above h.parent).1

namespace Shift

open TokenNet.Graph TokenNet.Run

theorem exit_of_ne (shift : Shift) {result : Value} (h : result ≠ 0) :
    shift.exit result = shift.exit 1 := by
  cases shift <;> simp [exit, Primitive.branch, h]

/-- A constant that has to be put out is not zero. -/
theorem exit_addend {shift : Shift} (source : Adder) (h : shift.primes = true) :
    source.exit shift.addend = source.other := by
  cases shift with
  | assignment => cases h
  | increment | decrement => rfl

namespace Layout

variable {shift : Shift} {node : NodeId} {ports : Interface} {inlet : InletId} {source sum : Adder}
  {callLimit : UInt32} {run : Nat}

theorem returns {graph : Graph} (h : shift.Layout graph node ports inlet source sum)
    (result : Value) : ∃ exit, ports.exits[shift.exit result]? = some exit ∧
      graph.Returns node (sum.exit result) exit := by
  by_cases hzero : result = 0
  · subst hzero
    exact h.zero
  · unfold Adder.exit
    rw [if_neg hzero, shift.exit_of_ne hzero]
    exact h.other

/-- A token that comes to a join leaves at once. -/
theorem crosses_join {graph : Graph} (h : shift.Layout graph node ports inlet source sum)
    (hmade : graph.WellMade) {fired exit : ExitId} (hreturns : graph.Returns node fired exit)
    (hexit : exit ∈ ports.exits) : ∃ entry, graph.target? fired = some entry ∧
      ∀ state : State, state.graph = graph → ∃ state',
        Crosses callLimit run node 1 ⟨entry, state⟩ state' exit ∧ state'.graph = graph := by
  -- The join behind the exit passes the token on, and hands it to the composite
  obtain ⟨join, record, entry, hparent, hrecord, hkind, htarget⟩ := hreturns
  refine ⟨entry, htarget, ?_⟩
  rintro state rfl
  have hacts : state.graph.Acts join := ⟨record, hrecord, by unfold Node.acts; rw [hkind]⟩
  have hentry : state.graph.entryOf? join = some entry := by
    refine Option.bind_eq_some_iff.mpr ⟨record, hrecord, ?_⟩
    unfold Node.entry?
    rw [hkind]
  have hadmitted := hmade.lineage.acts hacts hentry
  have hfire : state.graph.fire callLimit join = ⟨state.graph, [], .ok exit⟩ := by
    unfold fire
    simp only [hrecord, hkind]
  obtain ⟨state', hfires, hgraph⟩ := @exists_fire callLimit run ⟨entry, state⟩ join exit hadmitted
    (by rw [hfire])
  rw [hfire] at hgraph
  refine ⟨state', .leave ⟨join, hadmitted, hparent⟩ hfires ?_, hgraph⟩
  obtain ⟨found, hfound, _, _, _, hexits, _⟩ := exists_interface?_of_faceOf? h.face
  rw [hgraph]
  exact hmade.lineage.exit hfound (hexits ▸ hexit)

/-- **A token that comes to the adder that sums leaves after two firings.** -/
theorem crosses_sum {state : State}
    (h : shift.Layout state.graph node ports inlet source sum) (hmade : state.graph.WellMade)
    {result : Value}
    (hfire : (state.graph.fire callLimit sum.node).result = .ok (sum.exit result)) :
    ∃ exit state', ports.exits[shift.exit result]? = some exit ∧
      Crosses callLimit run node 2 ⟨sum.entry, state⟩ state' exit ∧
      state'.graph = (state.graph.fire callLimit sum.node).graph := by
  have hadmitted := h.sumIn.admitted? hmade.lineage
  obtain ⟨middle, hfires, hgraph⟩ :=
    -- Two firings: the sum stays inside, and its join leaves
    @exists_fire callLimit run ⟨sum.entry, state⟩ sum.node _ hadmitted hfire
  obtain ⟨h', hmade'⟩ := h.turn hmade (.fire state.graph callLimit sum.node)
  rw [← hgraph] at h' hmade' ⊢
  obtain ⟨exit, hexit, hreturns⟩ := h'.returns result
  obtain ⟨entry, htarget, hjoin⟩ := @crosses_join shift node ports inlet source sum callLimit run
    _ h' hmade' _ _ hreturns (List.mem_of_getElem? hexit)
  obtain ⟨state', hcrosses, hlast⟩ := hjoin middle rfl
  refine ⟨exit, state', hexit, ?_, hlast⟩
  exact .stay ⟨sum.node, hadmitted, h.sumIn.parent⟩ hfires
    (h'.sumIn.exitOwner?_ne hmade'.lineage result) htarget hcrosses

/-- **A token crosses a shift** in as many firings as the shift takes.  It leaves by the exit that
the result names, and the result has come out. -/
theorem crosses {moment : Moment}
    (h : shift.Layout moment.state.graph node ports inlet source sum)
    (hmade : moment.state.graph.WellMade) (hconstant : HasConstant shift sum moment.state.graph)
    (hentry : ports.entry = some moment.entry) {result : Value}
    (hresult : moment.state.graph.shows (.inlet sum.left) + shift.addend = result) :
    ∃ exit state', ports.exits[shift.exit result]? = some exit ∧
      Crosses callLimit run node shift.firings moment state' exit ∧
      Yields moment.state.graph state'.graph node ports result ∧
      shift.Layout state'.graph node ports inlet source sum ∧ state'.graph.WellMade := by
  obtain ⟨entry, state⟩ := moment
  obtain rfl : (shift.first source sum).entry = entry := Option.some.inj (h.entry.symm.trans hentry)
  unfold Shift.first Shift.firings
  cases hprimes : shift.primes <;> simp only [reduceIte, Bool.false_eq_true]
  case false =>
    -- The constant is zero, and so it is there from the start
    have hzero : shift.addend = 0 := by
      cases shift with
      | assignment => rfl
      | increment | decrement => cases hprimes
    have hshown : state.graph.shows (.inlet sum.right) = shift.addend :=
      hconstant.elim (fun hshown => hshown.trans hzero.symm) id
    rw [← hshown] at hresult
    obtain ⟨hfire, hyields, _⟩ := h.fire_sum hmade callLimit hresult
    obtain ⟨exit, state', hexit, hcrosses, hlast⟩ :=
      @crosses_sum shift node ports inlet source sum callLimit run state h hmade _ hfire
    have hafter := h.turn hmade (.fire state.graph callLimit sum.node)
    rw [← hlast] at hyields hafter
    exact ⟨exit, state', hexit, hcrosses, hyields, hafter⟩
  case true =>
    -- The constant is put out first
    obtain ⟨hprime, hprimed⟩ := h.fire_source hmade callLimit
    rw [exit_addend source hprimes] at hprime
    have hadmitted := h.sourceIn.admitted? hmade.lineage
    obtain ⟨middle, hfires, hgraph⟩ :=
      @exists_fire callLimit run ⟨source.entry, state⟩ source.node _ hadmitted hprime
    obtain ⟨h', hmade'⟩ := h.turn hmade (.fire state.graph callLimit source.node)
    rw [← hgraph] at h' hmade' hprimed
    rw [← hprimed.operand, ← hprimed.constant] at hresult
    obtain ⟨hfire, hyields, hkept⟩ := h'.fire_sum hmade' callLimit hresult
    obtain ⟨h'', hmade''⟩ := h'.turn hmade' (.fire middle.graph callLimit sum.node)
    obtain ⟨exit, state', hexit, hcrosses, hlast⟩ :=
      @crosses_sum shift node ports inlet source sum callLimit run middle h' hmade' _ hfire
    rw [← hlast] at hyields hkept h'' hmade''
    refine ⟨exit, state', hexit, ?_, ⟨hyields.value, fun cell hchanged => ?_⟩, h'', hmade''⟩
    · have howner := h'.sourceIn.exitOwner?_ne hmade'.lineage shift.addend
      rw [exit_addend source hprimes] at howner
      exact .stay ⟨source.node, hadmitted, h.sourceIn.parent⟩ hfires howner (h'.primed hprimes)
        hcrosses
    · by_cases hfirst : middle.graph.cell? cell = state.graph.cell? cell
      · exact hyields.changed cell (hfirst ▸ hchanged)
      · exact Or.inl (h''.private_source hmade'' (hkept (hprimed.changed cell hfirst)))

end Layout

end Shift

end TokenNet
