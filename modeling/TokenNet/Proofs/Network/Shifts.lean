import TokenNet.Proofs.Network.Arity
import TokenNet.Proofs.Shift.Run
import TokenNet.Proofs.Shift.Grow

/-!
# Shifts anywhere

The steps and the assignment of the arithmetic library work the same wherever they are used: in any
composite, at any depth, and whatever they are wired to, their own inlets included.

The layers are:

* a shift has its layout in whatever network it was built (`Library.layout_of_instantiate`);
* its operand is in step with its inlet, and its constant is right, at every moment of every run;
* so a token that comes to its entry crosses it (`Shift.Layout.crosses`), unless the run is cut off.

## Main statements

- `Library.layout_of_instantiate`: what is inside a shift of a built network.
- `Network.shifts_work_anywhere`: what a shift does at every moment of every run.
-/

namespace TokenNet

open TokenNet.Graph

/-! ## Shifts of built networks -/

/-- What can be a part has a face, with the name of its specification. -/
theorem Graph.Hosts.exists_faceOf? {graph : Graph} {node : NodeId} {name : String}
    (h : graph.Hosts node) (hname : graph.nameOf? node = some name) :
    ∃ ports, graph.faceOf? node = some (name, ports) := by
  obtain ⟨record, hrecord, hjoin⟩ := h
  obtain ⟨record', hrecord', hsome⟩ := Option.bind_eq_some_iff.mp hname
  obtain rfl := Option.some.inj (hrecord.symm.trans hrecord')
  obtain rfl := Option.some.inj hsome
  unfold faceOf?
  rw [hrecord]
  obtain ⟨_, _, _, _, kind⟩ := record
  -- A node that hosts has an interface
  cases kind with
  | native primitive ports => exact ⟨_, rfl⟩
  | composite ports parts => exact ⟨_, rfl⟩
  | join => cases hjoin

/-- A library that holds the arithmetic specifications, and maybe more. -/
structure Library.Arithmetical (library : Library) : Prop where
  keyed : library.Keyed
  includes : ∀ {identifier spec}, Arithmetic.library.get? identifier = some spec →
    library.get? identifier = some spec

theorem Library.arithmetical_arithmetic : Arithmetic.library.Arithmetical where
  keyed := Library.Keyed.editAll (Library.IsFirst.keyed (Or.inr rfl)) Arithmetic.edits
  includes h := h

/-- Whatever else is added to a library, it holds the arithmetic specifications. -/
theorem Library.Arithmetical.insert {library : Library} (h : library.Arithmetical)
    {spec : Specification} (hfresh : Arithmetic.library.get? spec.identifier = none) :
    Arithmetical ⟨library.specifications.insert spec.identifier spec⟩ where
  -- The new specification is under its own identifier, which the old ones do not have
  keyed name found hfound := by
    unfold Library.get? at hfound
    rw [Table.get?_insert] at hfound
    split at hfound
    next hname => exact Option.some.inj hfound ▸ hname.symm
    next => exact h.keyed name found hfound
  includes {name found} hfound := by
    have hother : name ≠ spec.identifier := by
      rintro rfl
      cases hfresh.symm.trans hfound
    unfold Library.get?
    rw [Table.get?_insert, if_neg hother]
    exact h.includes hfound

/-- **What is inside a shift of a built network**, wherever it stands. -/
theorem Library.layout_of_instantiate {library : Library} (hlibrary : library.Arithmetical)
    {identifier : String} {options : BuildOptions} {built : Network}
    (hbuilt : library.instantiate identifier options = .ok built) {shift : Shift} {node : NodeId}
    {ports : Interface}
    (hface : built.graph.faceOf? node = some (shift.specification.identifier, ports)) :
    ∃ inlet source sum, shift.Layout built.graph node ports inlet source sum := by
  have hadder : library.get? Arithmetic.adder = some (.ofPrimitive .adder) :=
    hlibrary.includes (by decide +kernel)
  have hshift : library.get? shift.specification.identifier = some shift.specification := by
    refine hlibrary.includes ?_
    cases shift <;> decide +kernel
  obtain ⟨found, hfound, _⟩ := exists_interface?_of_faceOf? hface
  obtain ⟨levels, name, spec, index, start, now, hspec, hstart, hgrow, hnamed, hinside⟩ :=
    Library.stems_of_instantiate hbuilt hfound
  obtain ⟨_, hcourse⟩ := Draft.exists_course_of_grow hspec hgrow
  have hmade := (hcourse.built (hstart.lineage .empty)).1
  -- The specification is known by the name that the node bears
  obtain ⟨before, hbefore⟩ := hmade.hosts.exists_faceOf? hnamed
  obtain ⟨hname, _⟩ := Prod.mk.inj (Option.some.inj ((hinside.face hbefore).symm.trans hface))
  have hkey : name = shift.specification.identifier := (hlibrary.keyed _ _ hspec).symm.trans hname
  obtain rfl := Option.some.inj (hspec.symm.trans (hkey ▸ hshift))
  obtain ⟨ports', inlet, source, sum, hlayout⟩ := Draft.layout_of_grow hadder hstart hgrow
  have hlineage := Constructs.lineage (hstart.trans hmade.constructs) .empty
  have hlater := hlayout.sameInside hlineage hinside
  obtain ⟨_, rfl⟩ := Prod.mk.inj (Option.some.inj (hface.symm.trans hlater.face))
  exact ⟨inlet, source, sum, hlater⟩

namespace Network

variable {net : Network}

/-! ## Operands in step -/

theorem mem_of_mem_changers {inlet : InletId} {calls : List Call} {call : Call}
    (h : call ∈ net.changers inlet calls) : call ∈ calls := by
  induction calls generalizing net with
  | nil => exact h
  | cons first rest ih =>
    unfold changers at h
    dsimp only at h
    split at h
    · exact List.mem_cons_of_mem first (ih h)
    · rcases List.mem_cons.mp h with rfl | hlater
      · exact List.mem_cons_self
      · exact List.mem_cons_of_mem first (ih hlater)

variable {library : Library} {identifier : String} {options : BuildOptions} {built : Network}
  {calls : List Call} {shift : Shift} {node : NodeId} {ports : Interface} {inlet : InletId}
  {source sum : Adder}

/-- **At every moment of every run** a shift has its layout and its constant, and its operand shows
what its inlet shows. -/
theorem shift_at_moment (hbuilt : library.instantiate identifier options = .ok built)
    (hlayout : shift.Layout built.graph node ports inlet source sum)
    (hcalls : ∀ call ∈ calls, call.drives built.root = true ∧ call.connects = false)
    {moment : Run.Moment} (hmoment : moment ∈ (built.performAll calls).1.moments) :
    shift.Layout moment.state.graph node ports inlet source sum ∧ moment.state.graph.WellMade ∧
      Shift.HasConstant shift sum moment.state.graph ∧
      moment.state.graph.shows (.inlet sum.left) = moment.state.graph.shows (.inlet inlet) := by
  have hgrown := Library.built_of_instantiate hbuilt
  have hmade := Constructs.wellMade hgrown.constructs
  obtain ⟨first, hlaid⟩ := Constructs.laid hgrown.constructs
  have hblank (port : Port) : built.graph.shows port = 0 := by
    rw [hlaid.represents.shows]
    exact hlaid.blank.shown port
  -- The calls leave the composite as it is, and the constant is zero or already there
  obtain ⟨hlayout', hmade', hconstant'⟩ := hlayout.turns hmade (Or.inl (hblank _))
    (turns_performAll hmade.closed hgrown.loose hcalls)
  obtain ⟨hnow, hmoment_made, hconstant⟩ := hlayout'.turns hmade' hconstant'
    (turns_of_mem_moments hmoment)
  refine ⟨hnow, hmoment_made, hconstant, ?_⟩
  -- The calls keep the operand in step, and then the firings do
  have hfeeding := hlayout.feeding hmade
  have hlast : ∀ call ∈ (built.changers inlet calls).getLast?, call.connects = false :=
    fun call hcall => (hcalls call (mem_of_mem_changers (List.mem_of_getLast? hcall))).2
  have hzero : first.shown (.inlet sum.left) = first.shown (.inlet inlet) :=
    (hlaid.blank.shown _).trans (hlaid.blank.shown _).symm
  obtain ⟨partition, hrep, hbacked, hplaced, hend⟩ :=
    (fosters_of_instantiate hbuilt hfeeding).in_step_of_performAll hlaid.represents hlaid.backed
      (hlaid.fed hfeeding.fed).1 (fun call hcall => (hcalls call hcall).1) hlast
      (Or.inr (Or.inl hzero))
  have hsame := hend.resolve_left (hlayout'.not_driven hrep)
  obtain ⟨partition', hrep', hfollows⟩ :=
    (moves_of_mem_moments hmade'.closed hmoment).follows (hlayout'.feeding hmade') hrep hbacked
      hplaced
  rw [hrep'.shows, hrep'.shows]
  -- The operand is not driven from inside, so it shows what the input does
  rcases hfollows.follows with hdriven | hsame' | ⟨hinner, houter⟩
  · exact absurd hdriven (hnow.not_driven hrep')
  · exact hsame'
  · rw [hinner, houter, hsame]

/-! ## Crossing a shift in a run -/

/-- **A run crosses a composite unless it is cut off inside**: the last firing is its own. -/
theorem crosses_or_cut {composite : NodeId} {count position : Nat} {moment : Run.Moment}
    {state : Run.State} {exit : ExitId}
    (h : Run.Crosses net.limits.callLimit (net.runs + 1) composite count moment state exit)
    (hmoment : net.moments[position]? = some moment) :
    (position + count ≤ net.limits.chainLimit → ∃ last,
      net.moments[position + count - 1]? = some last ∧ net.fireAt last = (state, .ok exit)) ∧
    (net.limits.chainLimit < position + count →
      net.execute.2 = .error (.chainExhausted net.limits.chainLimit)) := by
  have hle : position ≤ net.limits.chainLimit :=
    Nat.le_of_lt_succ (Nat.lt_of_lt_of_le (List.getElem?_eq_some_iff.mp hmoment).1
      net.length_moments_le)
  induction h generalizing position with
  | leave inside fires owner =>
    refine ⟨fun _ => ⟨_, hmoment, fires⟩, fun hcut => ?_⟩
    -- The only firing that is left is one too many
    obtain rfl : position = net.limits.chainLimit := by omega
    exact execute_of_moments_some hmoment
  | @stay count moment next state fired exit inside fires owner target rest ih =>
    rcases Nat.eq_or_lt_of_le hle with rfl | hlt
    · exact ⟨fun hwithin => absurd hwithin (by omega), fun _ => execute_of_moments_some hmoment⟩
    · have hnext : moment.next? net.limits.callLimit (net.runs + 1) = some next := by
        unfold Run.Moment.next?
        rw [fires]
        simp only [target, Option.map_some]
      have hlater := ih (getElem?_moments_succ hmoment hlt hnext) hlt
      rwa [show position + 1 + count = position + (count + 1) by omega] at hlater

/-- The outlet of a shift is marked as wired, so what it shows can be read from outside. -/
theorem output_of_layout (h : shift.Layout net.graph node ports inlet source sum)
    (hmade : net.graph.WellMade) {value : Value}
    (hvalue : net.graph.outletValue? ports.outlet = some value) :
    net.output node = .ok value := by
  obtain ⟨found, hfound, _, houtlet, _⟩ := exists_interface?_of_faceOf? h.face
  obtain ⟨record, hrecord, hports⟩ := Option.bind_eq_some_iff.mp hfound
  have hinterface : net.interface node = .ok found := by
    unfold interface
    rw [hrecord]
    dsimp only
    rw [hports]
  -- The output is relayed to from inside, so it gives a value
  have hwired := hmade.descends.wired h.relay
  unfold output
  simp [hinterface, houtlet, hwired, hvalue, bind, Except.bind, pure, Except.pure]

/-- **The steps and the assignment work anywhere.**  A network is built from a library that holds the
arithmetic specifications, whatever else that library holds, and it is used through its root only:
inlets of the root are written and the network is run.  In its next run the token comes to the entry
of a node that was built as a step or as an assignment, at any depth.

* The token crosses the node in three firings, or two if the node is an assignment, and it leaves by
  the exit that the result names.
* The result is the value at the inlet, or zero if that has no cell, and the constant.  The outlet of
  the node shows it when the token leaves.
* All cells that have changed until then lie inside the node, or bridges and relays lead to them from
  its outlet.
* Only the limit on firings can stop the run before that. -/
theorem shifts_work_anywhere (hlibrary : library.Arithmetical)
    (hbuilt : library.instantiate identifier options = .ok built)
    (hcalls : ∀ call ∈ calls, call.drives built.root = true ∧ call.connects = false)
    (hface : built.graph.faceOf? node = some (shift.specification.identifier, ports))
    {position : Nat} {moment : Run.Moment}
    (hmoment : (built.performAll calls).1.moments[position]? = some moment)
    (hentry : ports.entry = some moment.entry) :
    let net := (built.performAll calls).1
    ∃ inlet exit state, ports.inlets = [inlet] ∧
      let result := (moment.state.graph.inletValue? inlet).getD 0 + shift.addend
      ports.exits[shift.exit result]? = some exit ∧
      Run.Crosses net.limits.callLimit (net.runs + 1) node shift.firings moment state exit ∧
      (net.ranTo state).output node = .ok result ∧
      (∀ cell, state.graph.cell? cell ≠ moment.state.graph.cell? cell →
        state.graph.Private node cell ∨ ∃ outer,
          Relation.ReflTransGen state.graph.RelaysTo ports.outlet outer ∧
            state.graph.Covers outer cell) ∧
      (position + shift.firings ≤ net.limits.chainLimit → ∃ last,
        net.moments[position + shift.firings - 1]? = some last ∧
          net.fireAt last = (state, .ok exit)) ∧
      (net.limits.chainLimit < position + shift.firings →
        net.execute.2 = .error (.chainExhausted net.limits.chainLimit)) := by
  intro net
  -- The parts of the composite, wherever it stands, and their values at that moment
  obtain ⟨inlet, source, sum, hlayout⟩ := Library.layout_of_instantiate hlibrary hbuilt hface
  obtain ⟨hnow, hmade, hconstant, hstep⟩ :=
    shift_at_moment hbuilt hlayout hcalls (List.mem_of_getElem? hmoment)
  -- From there the firings cross it, and leave by the exit for the result
  obtain ⟨exit, state, hexit, hcrosses, hyields, hafter, hmade'⟩ :=
    hnow.crosses hmade hconstant hentry (congrArg (· + shift.addend) hstep)
  have houtput : (net.ranTo state).output node = .ok _ :=
    output_of_layout hafter hmade' hyields.value
  exact ⟨inlet, exit, state, hlayout.inlets, hexit, hcrosses, houtput, hyields.changed,
    crosses_or_cut hcrosses hmoment⟩

/-- A composite with a step in it that reads its own output. -/
def loopSpecification : Specification :=
  .composite "loop" 1 1 [.part "++" "n", .dataFlow "n" "n" 0, .exposeInlet "n" 0 0,
    .exposeOutlet "n", .exposeEntry "n", .exposeExit "n" 0 0, .exposeExit "n" 1 0]

/-- The arithmetic library with this composite. -/
def looping : Library :=
  ⟨Arithmetic.library.specifications.insert loopSpecification.identifier loopSpecification⟩

/-- The composite with the step, which is its node 2. -/
def loop : Network :=
  (looping.instantiate "loop" {}).toOption.getD default

/-- Five is written, and the step makes six of it. -/
def loopCalls : List Call :=
  [.writeInlet ⟨0⟩ 0 5, .execute]

def looped : Network :=
  (loop.performAll loopCalls).1

/-- The step reads the six that it has made.  In the next run it makes seven of it. -/
theorem shifts_work_in_loop : ∃ net, looping.instantiate "loop" {} = .ok net ∧
    (net.performAll loopCalls).1 = looped ∧ ∃ inlet exit state moment last,
      looped.moments[0]? = some moment ∧ moment.state.graph.inletValue? inlet = some 6 ∧
      Run.Crosses looped.limits.callLimit (looped.runs + 1) ⟨2⟩ 3 moment state exit ∧
      (looped.ranTo state).output ⟨2⟩ = .ok 7 ∧
      looped.moments[2]? = some last ∧ looped.fireAt last = (state, .ok exit) := by
  obtain ⟨net, hbuilt, hnet⟩ : ∃ net, looping.instantiate "loop" {} = .ok net ∧ net = loop :=
    ⟨_, by decide +kernel, rfl⟩
  have hlibrary : looping.Arithmetical :=
    Library.arithmetical_arithmetic.insert (by decide +kernel)
  have hcalls : ∀ call ∈ loopCalls, call.drives net.root = true ∧ call.connects = false := by
    rw [hnet]
    decide +kernel
  have hafter : (net.performAll loopCalls).1 = looped := by rw [hnet, looped]
  have hface : net.graph.faceOf? ⟨2⟩ = some (Shift.increment.specification.identifier,
      ⟨[⟨1⟩], ⟨1⟩, some ⟨4⟩, [⟨1⟩, ⟨2⟩], [⟨3⟩, ⟨4⟩], 0, 0⟩) := by
    rw [hnet]
    decide +kernel
  -- The first moment stands at the entry of the shift
  obtain ⟨moment, hmoment, hat⟩ : ∃ moment, looped.moments[0]? = some moment ∧
      (moment.entry, moment.state.graph.inletValue? ⟨1⟩) = (⟨4⟩, some 6) :=
    Option.map_eq_some_iff.mp (by decide +kernel)
  obtain ⟨hentry, hshown⟩ := Prod.mk.inj hat
  obtain ⟨inlet, exit, state, hinlets, hrest⟩ := shifts_work_anywhere hlibrary hbuilt hcalls hface
    (hafter ▸ hmoment) (congrArg some hentry.symm)
  obtain rfl : ⟨1⟩ = inlet := List.singleton_inj.mp hinlets
  -- Three firings cross it, which the limit admits
  rw [hshown, hafter] at hrest
  obtain ⟨_, hcrosses, houtput, _, hwithin, _⟩ := hrest
  obtain ⟨last, hlast, hfires⟩ := hwithin (by decide +kernel)
  exact ⟨net, hbuilt, hafter, ⟨1⟩, exit, state, moment, last, hmoment, hshown, hcrosses, houtput,
    hlast, hfires⟩

end Network

end TokenNet
