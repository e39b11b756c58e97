import TokenNet.Proofs.Change.Encapsulated
import TokenNet.Proofs.Run.Enclosed

/-!
# Values at the boundaries of composites

A value that is written at an inlet of a composite is pushed on to the inlets inside that it feeds.
In a network that is used through its root this keeps an inlet that is fed from one place only, and
that no outlet drives, in step with the inlet that feeds it, with one exception: wiring an outlet
into an inlet can change what the inlet shows, and that change is not pushed on.

## Main statements

- `Graph.Moves.follows`: a run pushes all its values on.
- `Network.inlets_in_step`: the two inlets show the same unless wiring was the last to change what
  the feeding one shows.
- `Network.wired_inlet_out_of_step`: a network in which wiring has done so.
-/

namespace TokenNet

namespace Graph

open TokenNet.Partition

variable {graph graph' : Graph} {partition : Partition} {outer inner : InletId}

theorem Represents.inletValue? (h : graph.Represents partition) {inlet : InletId}
    (hplaced : partition.Placed (.inlet inlet)) :
    graph.inletValue? inlet = some (partition.shown (.inlet inlet)) := by
  obtain ⟨cell, hcell, _⟩ := h.shares_iff.mpr (shares_self.mpr hplaced)
  obtain ⟨record, hrecord⟩ := h.linked.live hcell
  have hinlet : graph.inletCell? inlet = some cell := hcell
  rw [← h.shows]
  simp [Graph.inletValue?, Graph.shows, portValue?, portCell?, hinlet, cellValue?, hrecord]

/-- The inlets that feed an inlet. -/
def feeders (graph : Graph) (inner : InletId) : List InletId :=
  ((List.range graph.inlets.size).map InletId.mk).filter fun outer => inner ∈ graph.feedsOf outer

theorem mem_feeders : outer ∈ graph.feeders inner ↔ graph.Feeds outer inner := by
  unfold feeders Feeds
  rw [List.mem_filter, decide_eq_true_iff, and_iff_right_iff_imp]
  intro hfeeds
  refine List.mem_map.mpr ⟨outer.index, List.mem_range.mpr ?_, rfl⟩
  -- What is not an inlet of the graph feeds nothing
  by_contra hbeyond
  rw [feedsOf, inlet?, Array.getElem?_eq_none (Nat.le_of_not_lt hbeyond)] at hfeeds
  cases hfeeds

/-- The outlets that write the cell of an inlet, if it has one. -/
def drivers? (graph : Graph) (inlet : InletId) : Option (List OutletId) :=
  ((graph.inletCell? inlet).bind graph.cell?).map Cell.writers

/-- An outlet that drives an inlet is a writer of its cell. -/
theorem Represents.not_driven (h : graph.Represents partition) {inlet : InletId}
    (hloose : graph.drivers? inlet = some []) : ¬ partition.Driven inlet := by
  rintro ⟨outlet, hshares⟩
  obtain ⟨record, hfound, hwriters⟩ := Option.map_eq_some_iff.mp hloose
  obtain ⟨cell, hcell, hrecord⟩ := Option.bind_eq_some_iff.mp hfound
  obtain ⟨found, hinlet, houtlet⟩ := h.shares_iff.mpr hshares
  obtain rfl := Option.some.inj (hinlet.symm.trans hcell)
  have hmember := (h.linked.mem_members hrecord (.outlet outlet)).mpr houtlet
  simp [Cell.members, hwriters] at hmember

/-- **A run pushes all its values on.** -/
theorem Moves.follows (h : Moves graph graph') (hfeeding : Feeding graph.Feeds outer inner)
    (hrep : graph.Represents partition) (hbacked : partition.Backed)
    (hplaced : partition.Placed (.inlet inner)) :
    ∃ partition', graph'.Represents partition' ∧ partition.Follows outer inner partition' := by
  induction h with
  | refl => exact ⟨partition, hrep, .refl hbacked hplaced⟩
  | @tail between after hmoves hmove ih =>
    obtain ⟨middle, hmiddle, hfollows⟩ := ih
    -- Each move is a write from an output, or leaves the ports alone
    cases hmove with
    | @emit outlet houtlet value =>
      have hsource : Port.outlet outlet ≠ .inlet inner := nofun
      have hstep := follows_write hfeeding hfollows.backed hfollows.placed hsource value
      rw [← (Moves.uses hmoves).feeds] at hstep
      exact ⟨_, hmiddle.write houtlet value, hfollows.trans hstep⟩
    | remember => exact ⟨middle, hmiddle.of_ports_eq rfl rfl rfl, hfollows⟩

end Graph

/-! ## Calls -/

/-- Whether a call uses a network through its root: it writes an inlet of the root, runs the network
or wires it. -/
def Call.drives (root : NodeId) : Call → Bool
  | .writeInlet node _ _ => node = root
  | .execute | .step | .connect .. => true
  | _ => false

theorem Call.redirects_of_drives {root : NodeId} {call : Call} (h : call.drives root = true) :
    call.redirects = false := by
  cases call with
  | direct => cases h
  | undirect => cases h
  | _ => rfl

namespace Network

open TokenNet.Partition

variable {net net' : Network} {outer inner : InletId}

/-- The calls of a history that change what an inlet shows, in order. -/
def changers (net : Network) (inlet : InletId) : List Call → List Call
  | [] => []
  | call :: rest =>
    let after := (net.perform call).1
    if after.graph.shows (.inlet inlet) = net.graph.shows (.inlet inlet) then
      after.changers inlet rest
    else call :: after.changers inlet rest

/-- An inlet feeds another that no further inlet feeds and that cannot be written from outside. -/
structure Fosters (net : Network) (outer inner : InletId) : Prop where
  closed : net.graph.Closed
  feeding : Feeding net.graph.Feeds outer inner
  inside : ∀ ports, net.graph.interface? net.root = some ports → inner ∉ ports.inlets

theorem Fosters.of_uses (h : net.Fosters outer inner) (huses : net.graph.Uses net'.graph)
    (hroot : net'.root = net.root) : net'.Fosters outer inner where
  closed := huses.leads.closed h.closed
  feeding := huses.feeds ▸ h.feeding
  inside ports hports hmem := by
    rw [hroot] at hports
    obtain ⟨ports', hports', hsame⟩ := huses.sameControl.symm.exists_interface? hports
    have hinlets : ports'.inlets = ports.inlets := (congrArg Interface.inlets hsame :)
    exact h.inside ports' hports' (hinlets ▸ hmem)

theorem Fosters.perform (h : net.Fosters outer inner) {call : Call}
    (hcall : call.drives net.root = true) : (net.perform call).1.Fosters outer inner :=
  h.of_uses (uses_perform h.closed call (Call.redirects_of_drives hcall))
    (net.sameBuild_perform call).root

section

variable {partition : Partition}

/-- A write into an inlet of the root is pushed on. -/
theorem Fosters.follows_writeInlet (h : net.Fosters outer inner)
    (hrep : net.graph.Represents partition) (hbacked : partition.Backed)
    (hplaced : partition.Placed (.inlet inner)) (index : Nat) (value : Value) :
    ∃ partition', (net.perform (.writeInlet net.root index value)).1.graph.Represents partition' ∧
      Follows outer inner partition partition' := by
  refine @change_induction _ (fun graph => ∃ partition', graph.Represents partition' ∧
    Follows outer inner partition partition') _ ⟨partition, hrep, .refl hbacked hplaced⟩
    fun changed hchanged => ?_
  obtain ⟨ports, inlet, hinterface, hinlet, hport, hgraph⟩ := exists_of_writeInlet h.closed hchanged
  -- No inlet of the root is fed by another
  have hsource : Port.inlet inlet ≠ .inlet inner := fun heq =>
    h.inside ports hinterface (Port.inlet.inj heq ▸ List.mem_of_getElem? hinlet)
  rw [hgraph]
  exact ⟨_, hrep.write hport value, follows_write h.feeding hbacked hplaced hsource value⟩

/-- Wiring is not pushed on, but it leaves a placed inlet what it shows unless it drives it. -/
theorem carries_connect (hrep : net.graph.Represents partition) (hbacked : partition.Backed)
    (inlet : InletId) (outlet : OutletId) :
    ∃ partition', (net.perform (.connect inlet outlet)).1.graph.Represents partition' ∧
      ∀ inner, partition.Placed (.inlet inner) → Carries inner partition partition' ∧
        (partition'.Driven inner ∨
          partition'.shown (.inlet inner) = partition.shown (.inlet inner)) := by
  refine @rewire_induction _ (fun graph => ∃ partition', graph.Represents partition' ∧
    ∀ inner, partition.Placed (.inlet inner) → Carries inner partition partition' ∧
      (partition'.Driven inner ∨
        partition'.shown (.inlet inner) = partition.shown (.inlet inner))) _ _
    -- Handles that are not there change nothing
    ⟨partition, hrep, fun inner hplaced => ⟨⟨hbacked, hplaced, id⟩, Or.inr rfl⟩⟩ fun hknown => ?_
  rw [Bool.and_eq_true] at hknown
  exact ⟨_, hrep.connect (of_decide_eq_true hknown.1) (of_decide_eq_true hknown.2),
    fun inner hplaced => ⟨carries_join hbacked hplaced inlet outlet,
      shown_join inlet outlet inner⟩⟩

/-- **A call that drives a network pushes all its values on**, or it wires and has changed what the
feeding inlet shows. -/
theorem Fosters.follows (h : net.Fosters outer inner) (hrep : net.graph.Represents partition)
    (hbacked : partition.Backed) (hplaced : partition.Placed (.inlet inner)) {call : Call}
    (hcall : call.drives net.root = true) :
    ∃ partition', (net.perform call).1.graph.Represents partition' ∧
      Carries inner partition partition' ∧ (Follows outer inner partition partition' ∨
        call.connects = true ∧
          partition'.shown (.inlet outer) ≠ partition.shown (.inlet outer)) := by
  have hruns : ∃ partition', net.execute.1.graph.Represents partition' ∧
      Follows outer inner partition partition' :=
    (moves_execute h.closed).follows h.feeding hrep hbacked hplaced
  cases call with
  -- A write and a run push what they write on; only wiring may leave the inner input behind
  | writeInlet node index value =>
    obtain rfl : node = net.root := of_decide_eq_true hcall
    obtain ⟨partition', hrep', hfollows⟩ := h.follows_writeInlet hrep hbacked hplaced index value
    exact ⟨partition', hrep', hfollows.toCarries, Or.inl hfollows⟩
  | connect inlet outlet =>
    obtain ⟨partition', hrep', hwired⟩ := carries_connect hrep hbacked inlet outlet
    obtain ⟨hcarries, hinner⟩ := hwired inner hplaced
    refine ⟨partition', hrep', hcarries, ?_⟩
    by_cases houter : partition'.shown (.inlet outer) = partition.shown (.inlet outer)
    · exact Or.inl ⟨hcarries, hinner.imp_right fun hinner => Or.inr ⟨hinner, houter⟩⟩
    · exact Or.inr ⟨rfl, houter⟩
  | execute =>
    obtain ⟨partition', hrep', hfollows⟩ := hruns
    exact ⟨partition', hrep', hfollows.toCarries, Or.inl hfollows⟩
  | step =>
    obtain ⟨partition', hrep', hfollows⟩ := hruns
    exact ⟨partition', hrep', hfollows.toCarries, Or.inl hfollows⟩
  | _ => cases hcall

/-- **A history keeps the two inlets in step** as long as wiring is not the last to change what the
feeding one shows. -/
theorem Fosters.in_step_of_performAll (h : net.Fosters outer inner)
    (hrep : net.graph.Represents partition) (hbacked : partition.Backed)
    (hplaced : partition.Placed (.inlet inner)) {calls : List Call}
    (hcalls : ∀ call ∈ calls, call.drives net.root = true)
    (hlast : ∀ call ∈ (net.changers outer calls).getLast?, call.connects = false)
    (hstep : partition.Driven inner ∨
      partition.shown (.inlet inner) = partition.shown (.inlet outer) ∨
      net.changers outer calls ≠ []) :
    ∃ partition', (net.performAll calls).1.graph.Represents partition' ∧
      partition'.Backed ∧ partition'.Placed (.inlet inner) ∧ (partition'.Driven inner ∨
        partition'.shown (.inlet inner) = partition'.shown (.inlet outer)) := by
  induction calls generalizing net partition with
  | nil =>
    refine ⟨partition, hrep, hbacked, hplaced,
      hstep.imp_right fun hsame => hsame.resolve_right fun hnone => ?_⟩
    exact hnone rfl
  | cons call rest ih =>
    -- The first call, and then the rest from where it leads
    have hcall := hcalls call List.mem_cons_self
    obtain ⟨partition', hrep', hcarries, hfollows⟩ := h.follows hrep hbacked hplaced hcall
    have hcalls' : ∀ later ∈ rest, later.drives (net.perform call).1.root = true :=
      fun later hlater =>
        (net.sameBuild_perform call).root ▸ hcalls later (List.mem_cons_of_mem call hlater)
    unfold changers at hlast hstep
    dsimp only at hlast hstep
    rw [hrep'.shows, hrep.shows] at hlast hstep
    have hlater := @ih _ _ (h.perform hcall) hrep' hcarries.backed hcarries.placed hcalls'
    split at hlast
    next houter =>
      -- The call leaves the feeding inlet alone, so it is not wiring that breaks the step
      rw [if_pos houter] at hstep
      refine hlater hlast ?_
      rcases hstep with hdriven | hsame | hmore
      · exact Or.inl (hcarries.driven hdriven)
      · rcases hfollows with hfollows | ⟨_, hchanged⟩
        · rcases hfollows.follows with hdriven | hsame' | ⟨hinner, _⟩
          · exact Or.inl hdriven
          · exact Or.inr (Or.inl hsame')
          · exact Or.inr (Or.inl ((hinner.trans hsame).trans houter.symm))
        · exact absurd houter hchanged
      · exact Or.inr (Or.inr hmore)
    next houter =>
      cases hmore : (net.perform call).1.changers outer rest with
      | nil =>
        -- The call is the last to change the feeding inlet, so it is not wiring
        rw [hmore] at hlast hlater
        refine hlater nofun ?_
        have hwrites : call.connects = false := hlast call rfl
        rcases hfollows with hfollows | ⟨hwires, _⟩
        · rcases hfollows.follows with hdriven | hsame | ⟨_, hkept⟩
          · exact Or.inl hdriven
          · exact Or.inr (Or.inl hsame)
          · exact absurd hkept houter
        · exact Bool.noConfusion (hwires.symm.trans hwrites)
      | cons next others =>
        rw [hmore] at hlast hlater
        rw [List.getLast?_cons_cons] at hlast
        exact hlater hlast (Or.inr (Or.inr nofun))

end

/-- A network that has just been built fosters every inlet that is fed by one other only. -/
theorem fosters_of_instantiate {library : Library} {identifier : String} {options : BuildOptions}
    (hbuilt : library.instantiate identifier options = .ok net)
    (hfeeding : Feeding net.graph.Feeds outer inner) : net.Fosters outer inner where
  closed := (leads_instantiate hbuilt).1.closed .empty
  feeding := hfeeding
  inside ports hports hmem := by
    have hmade := Library.built_of_instantiate hbuilt
    have hlineage := hmade.constructs.lineage .empty
    obtain ⟨_, hlaid⟩ := hmade.constructs.laid
    -- The fed inlet belongs to a part, and the root is no part
    obtain ⟨_, part, composite, hpart, hplace⟩ := hlaid.fed hfeeding.fed
    obtain rfl := Option.some.inj ((hlineage.inlet hports hmem).symm.trans hpart)
    rw [hmade.loose] at hplace
    cases hplace

/-- **A fed inlet is in step with the one that feeds it.**  Whatever a network is used for through
its root: an inlet that is fed from one place only, and that no outlet drives, shows the same as the
inlet that feeds it, unless wiring was the last to change what that one shows.  If they are in step,
one more wiring leaves them so exactly if it leaves what the feeding inlet shows. -/
theorem inlets_in_step {library : Library} {identifier : String} {options : BuildOptions}
    {built : Network} (hbuilt : library.instantiate identifier options = .ok built)
    {calls : List Call} (hcalls : ∀ call ∈ calls, call.drives built.root = true)
    {net : Network} (hnet : (built.performAll calls).1 = net) {outer inner : InletId}
    (hfeeders : net.graph.feeders inner = [outer])
    (houter : net.graph.inletCell? outer ≠ none) (hloose : net.graph.drivers? inner = some [])
    (hlast : ∀ call ∈ (built.changers outer calls).getLast?, call.connects = false) :
    net.graph.inletValue? inner = net.graph.inletValue? outer ∧ ∀ inlet outlet,
      let after := (net.perform (.connect inlet outlet)).1.graph
      after.drivers? inner = some [] → (after.inletValue? inner = after.inletValue? outer ↔
        after.inletValue? outer = net.graph.inletValue? outer) := by
  subst hnet
  -- No driving call exposes anything, so the network feeds what it did when it was built
  have hclosed : built.graph.Closed := (leads_instantiate hbuilt).1.closed .empty
  have hfeeds' := (uses_performAll calls hclosed fun call hcall =>
    Call.redirects_of_drives (hcalls call hcall)).feeds
  have hfeeds : built.graph.Feeds outer inner := by
    rw [← hfeeds', ← Graph.mem_feeders, hfeeders]
    exact List.mem_singleton_self outer
  have honly : ∀ other, built.graph.Feeds other inner → other = outer := fun other hother => by
    rw [← hfeeds', ← Graph.mem_feeders, hfeeders] at hother
    exact List.mem_singleton.mp hother
  have hfosters := fosters_of_instantiate hbuilt ⟨hfeeds, honly⟩
  obtain ⟨first, hlaid⟩ := (Library.built_of_instantiate hbuilt).constructs.laid
  -- A network that has just been built shows zeros everywhere
  have hzero : first.shown (.inlet inner) = first.shown (.inlet outer) :=
    (hlaid.blank.shown _).trans (hlaid.blank.shown _).symm
  obtain ⟨partition, hrep, hbacked, hinner, hend⟩ := hfosters.in_step_of_performAll
    hlaid.represents hlaid.backed (hlaid.fed hfeeds).1 hcalls hlast (Or.inr (Or.inl hzero))
  have hsame := hend.resolve_left (hrep.not_driven hloose)
  obtain ⟨cell, hcell⟩ := Option.ne_none_iff_exists'.mp houter
  have houter : partition.Placed (.inlet outer) := hrep.exists_class hcell
  rw [hrep.inletValue? hinner, hrep.inletValue? houter, hsame]
  -- One more connection keeps the inner value, so it is the outer one that decides
  refine ⟨rfl, fun inlet outlet hloose' => ?_⟩
  obtain ⟨partition', hrep', hwired⟩ := carries_connect hrep hbacked inlet outlet
  have hkept := (hwired inner hinner).2.resolve_left (hrep'.not_driven hloose')
  rw [hrep'.inletValue? (hwired inner hinner).1.placed,
    hrep'.inletValue? (hwired outer houter).1.placed, hkept, hsame]
  exact eq_comm

/-! ## Wiring a box -/

/-- A library with a box around an adder, and a composite of an adder and a box that are not wired to
each other. -/
def boxed : Library where
  specifications :=
    (Library.primitives.specifications.insert "box" (.composite "box" 1 0
      [.part "+" "a", .exposeInlet "a" 0 0])).insert "top" (.composite "top" 2 0
        [.part "+" "a", .part "box" "b", .exposeInlet "a" 0 0, .exposeInlet "a" 1 1,
          .exposeEntry "a"])

/-- The composite: its root has the inlets 0 and 1, the outlet of its adder is 1, and the inlet 4 of
its box feeds the inlet 5 inside. -/
def boxedTop : Network :=
  (boxed.instantiate "top" {}).toOption.getD default

/-- Runs the adder, wires it to the box and runs it again. -/
def boxedCalls : List Call :=
  [.writeInlet ⟨0⟩ 0 5, .step, .connect ⟨4⟩ ⟨1⟩, .writeInlet ⟨0⟩ 1 2, .step]

def boxedAfter : Network :=
  (boxedTop.performAll boxedCalls).1

/-- The adder has put out 5 when it is wired to the box; then it puts out 7. -/
theorem inlets_in_step_of_boxedTop : ∃ net, boxed.instantiate "top" {} = .ok net ∧
    (net.performAll boxedCalls).1 = boxedAfter ∧
    net.changers ⟨4⟩ boxedCalls = [.connect ⟨4⟩ ⟨1⟩, .step] ∧
    boxedAfter.graph.inletValue? ⟨4⟩ = some 7 ∧
    boxedAfter.graph.inletValue? ⟨5⟩ = boxedAfter.graph.inletValue? ⟨4⟩ := by
  obtain ⟨net, hbuilt, hnet⟩ : ∃ net, boxed.instantiate "top" {} = .ok net ∧ net = boxedTop :=
    ⟨_, by decide +kernel, rfl⟩
  have hcalls : ∀ call ∈ boxedCalls, call.drives net.root = true := by
    rw [hnet]
    decide +kernel
  have hafter : (net.performAll boxedCalls).1 = boxedAfter := by rw [hnet, boxedAfter]
  have hchangers : net.changers ⟨4⟩ boxedCalls = [.connect ⟨4⟩ ⟨1⟩, .step] := by
    rw [hnet]
    decide +kernel
  obtain ⟨hfeeders, hcell, hloose, hshown⟩ : boxedAfter.graph.feeders ⟨5⟩ = [⟨4⟩] ∧
      boxedAfter.graph.inletCell? ⟨4⟩ ≠ none ∧ boxedAfter.graph.drivers? ⟨5⟩ = some [] ∧
      boxedAfter.graph.inletValue? ⟨4⟩ = some 7 := by decide +kernel
  -- The last call that changed the outer input is a step, and no connection
  have hlast : ∀ call ∈ (net.changers ⟨4⟩ boxedCalls).getLast?, call.connects = false := by
    rw [hchangers]
    decide
  exact ⟨net, hbuilt, hafter, hchangers, hshown,
    (inlets_in_step hbuilt hcalls hafter hfeeders hcell hloose hlast).1⟩

/-- **Wiring brings a fed inlet out of step.**  The adder puts out 5 and then it is wired to the box:
the box shows 5, but inside it nothing has changed. -/
theorem wired_inlet_out_of_step : boxed.instantiate "top" {} = .ok boxedTop ∧
    let net := (boxedTop.performAll [.writeInlet boxedTop.root 0 5, .step, .connect ⟨4⟩ ⟨1⟩]).1
    net.graph.feeders ⟨5⟩ = [⟨4⟩] ∧ net.graph.drivers? ⟨5⟩ = some [] ∧
      net.graph.inletValue? ⟨4⟩ = some 5 ∧ net.graph.inletValue? ⟨5⟩ = some 0 := by
  decide +kernel

end Network

end TokenNet
