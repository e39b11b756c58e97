import TokenNet.Proofs.Change.Encapsulated
import TokenNet.Proofs.Run.Frame

/-!
# How values travel

A value that is written at a port shows at all ports that share its cell, at the inlets that these
feed, and at the outlets to which an outlet is relayed, and so on from there; it shows nowhere else.
Writing may give a port a cell of its own, but it lets no two ports share a cell, and nothing but
wiring does.  So what shows after many writes has come from one of the ports that were written, over
the connections that were there from the start.

The layers follow the recursion of a run: a write, a firing, a walk, and then all calls that do not
wire.

## Main statements

- `Conveys`, `Reaches`: where the value of a port goes next, and where it can go at all.
- `Pushes`: what a change does that writes or detaches some ports.
- `Pushes.fire`, `Run.pushes_walk`: firings and runs push what primitives emit.
- `Network.pushes_perform`: every call that does not wire pushes what it touches.
-/

namespace TokenNet

namespace Graph

open TokenNet.Partition

variable {graph graph' graph'' : Graph} {partition : Partition} {port other source : Port}

/-! ## Connections -/

/-- The value of a port is passed on to another. -/
inductive Conveys (graph : Graph) : Port → Port → Prop where
  /-- Ports that share a cell show one value. -/
  | share {port other : Port} (h : graph.SharesCell port other) : Conveys graph port other
  | feed {outer inner : InletId} (h : graph.Feeds outer inner) :
      Conveys graph (.inlet outer) (.inlet inner)
  | relay {inner outer : OutletId} (h : graph.relayOf? inner = some outer) :
      Conveys graph (.outlet inner) (.outlet outer)

/-- The value of a port can come to another. -/
abbrev Reaches (graph : Graph) : Port → Port → Prop :=
  Relation.ReflTransGen graph.Conveys

theorem Represents.conveys_of_shares (h : graph.Represents partition)
    (hshares : partition.Shares port other) : graph.Conveys port other :=
  .share (h.sharesCell_iff.mpr hshares)

/-- Settling a port opens no way from one port to another. -/
theorem Represents.reaches_of_shares_settle (h : graph.Represents partition)
    (hshares : (partition.settle source).Shares port other) : graph.Reaches port other := by
  rcases (shares_settle source).mp hshares with hold | ⟨rfl, rfl⟩
  · exact .single (h.conveys_of_shares hold)
  · exact .refl

theorem Represents.reaches_of_flows (h : graph.Represents partition)
    (hflows : (partition.settle source).Flows graph.Feeds port other) :
    graph.Reaches port other := by
  induction hflows with
  | refl => exact .refl
  | tail _ hstep ih =>
    rcases hstep with hshares | ⟨outer, inner, rfl, rfl, hfeeds, _⟩
    · exact ih.trans (h.reaches_of_shares_settle hshares)
    · exact ih.tail (.feed hfeeds)

/-- A chain of relays leads on from the outlet at which it begins. -/
theorem reaches_of_mem_relays {bound : Nat} {outlet outer : OutletId}
    (h : outer ∈ graph.relays bound outlet) : graph.Reaches (.outlet outlet) (.outlet outer) := by
  induction bound generalizing outlet with
  | zero => simp [relays] at h
  | succ bound ih =>
    unfold relays at h
    split at h
    next => simp at h
    -- One step leads to the next output, and the rest from there
    next next hnext =>
      have hstep : graph.Conveys (.outlet outlet) (.outlet next) := .relay hnext
      rcases List.mem_cons.mp h with rfl | hlater
      · exact .single hstep
      · split at hlater
        · exact .head hstep (ih hlater)
        · simp at hlater

theorem reaches_of_mem_relayChain {outlet outer : OutletId}
    (h : outer ∈ graph.relayChain outlet) :
    graph.Reaches (.outlet outlet) (.outlet outer) := by
  rcases List.mem_cons.mp h with rfl | hlater
  · exact .refl
  · exact reaches_of_mem_relays hlater

/-! ## Changes -/

/-- Some ports were written or detached: whatever shows something else is reached from one of them,
no port has got a cell of another, and nothing else is fed or relayed. -/
structure Pushes (touched : Port → Prop) (graph graph' : Graph) : Prop where
  linked : graph'.Linked
  shares : ∀ {port other}, graph'.SharesCell port other → port = other ∨ graph.SharesCell port other
  links : graph.SameLinks graph'
  shows : ∀ {port}, graph'.shows port ≠ graph.shows port →
    ∃ source, touched source ∧ graph.Reaches source port

namespace Pushes

variable {touched earlier : Port → Prop}

theorem refl (touched : Port → Prop) (hlinked : graph.Linked) : Pushes touched graph graph where
  linked := hlinked
  shares := Or.inr
  links := .refl graph
  shows h := absurd rfl h

/-- No new way opens. -/
theorem reaches (h : Pushes touched graph graph') (hreaches : graph'.Reaches port other) :
    graph.Reaches port other := by
  induction hreaches with
  | refl => exact .refl
  | tail _ hstep ih =>
    cases hstep with
    | share hshares =>
      rcases h.shares hshares with rfl | hshares
      · exact ih
      · exact ih.tail (.share hshares)
    | feed hfeeds => exact ih.tail (.feed (h.links.feeds ▸ hfeeds))
    | relay hrelay => exact ih.tail (.relay (h.links.relays ▸ hrelay))

theorem trans (h : Pushes touched graph graph') (h' : Pushes touched graph' graph'') :
    Pushes touched graph graph'' where
  linked := h'.linked
  shares hshares := (h'.shares hshares).elim Or.inl h.shares
  links := h.links.trans h'.links
  shows {port} hchanged := by
    by_cases hlater : graph''.shows port = graph'.shows port
    · exact h.shows (hlater ▸ hchanged)
    · obtain ⟨source, hsource, hreaches⟩ := h'.shows hlater
      exact ⟨source, hsource, h.reaches hreaches⟩

/-- What is reached from ports that are reached themselves comes from the first ports. -/
theorem mono (h : Pushes touched graph graph')
    (hearlier : ∀ port, touched port → ∃ source, earlier source ∧ graph.Reaches source port) :
    Pushes earlier graph graph' where
  linked := h.linked
  shares := h.shares
  links := h.links
  shows hchanged := by
    obtain ⟨between, hbetween, hreaches⟩ := h.shows hchanged
    obtain ⟨source, hsource, hbefore⟩ := hearlier between hbetween
    exact ⟨source, hsource, hbefore.trans hreaches⟩

theorem weaken (h : Pushes touched graph graph') (hsub : ∀ port, touched port → earlier port) :
    Pushes earlier graph graph' :=
  h.mono fun port htouched => ⟨port, hsub port htouched, .refl⟩

/-- Only the ports and the cells count. -/
theorem of_ports_eq (hlinked : graph.Linked) (hin : graph'.inlets = graph.inlets)
    (hout : graph'.outlets = graph.outlets) (hcells : graph'.cells = graph.cells) :
    Pushes touched graph graph' := by
  -- The pins and cells are the same, so there is nothing to push
  have hrep := hlinked.represents.of_ports_eq hin hout hcells
  constructor
  case linked => exact hrep.linked
  case shares =>
    intro port other hshares
    exact Or.inr (hlinked.represents.sharesCell_iff.mpr (hrep.sharesCell_iff.mp hshares))
  case links =>
    constructor
    · unfold Feeds feedsOf inlet?
      rw [hin]
    · unfold relayOf? outlet?
      rw [hout]
  case shows =>
    intro port hchanged
    rw [hrep.shows, hlinked.represents.shows] at hchanged
    exact absurd rfl hchanged

/-- **Writing a port pushes its value.** -/
theorem write (hlinked : graph.Linked) (hport : graph.HasPort port) (value : Value) :
    Pushes (· = port) graph ((graph.ensure port).2.setValue (graph.ensure port).1 value) := by
  have hrep := hlinked.represents
  have hwritten := hrep.write hport value
  constructor
  case linked => exact hwritten.linked
  case links => exact (graph.uses_write hport value).sameLinks
  -- The port may have got a class of its own, and nothing else shares more than before
  case shares =>
    intro other third hshares
    have hshares := (shares_write _ _).mp (hwritten.sharesCell_iff.mp hshares)
    rcases (shares_settle port).mp hshares with hold | ⟨rfl, rfl⟩
    · exact Or.inr (hrep.sharesCell_iff.mpr hold)
    · exact Or.inl rfl
  -- A write changes what the port leads to and nothing else
  case shows =>
    intro other hchanged
    refine ⟨port, rfl, ?_⟩
    by_contra hunreached
    apply hchanged
    rw [hwritten.shows, hrep.shows,
      shown_write_of_not_flows fun hflows => hunreached (hrep.reaches_of_flows hflows),
      shown_settle]

theorem writeInlet (hlinked : graph.Linked) {inlet : InletId}
    (hinlet : graph.HasPort (.inlet inlet)) (value : Value) :
    Pushes (· = .inlet inlet) graph (graph.writeInlet inlet value) :=
  write hlinked hinlet value

/-- **Detaching a port changes what it shows itself**, and nothing else. -/
theorem detach (hlinked : graph.Linked) (port : Port) :
    Pushes (· = port) graph (graph.detach port) := by
  have hrep := hlinked.represents
  have hdetached := hrep.detach port
  constructor
  case linked => exact hdetached.linked
  case links => exact .of_bare_eq (bare_detach graph port)
  case shares =>
    intro other third hshares
    obtain ⟨hold, _⟩ := (shares_leave port).mp (hdetached.sharesCell_iff.mp hshares)
    exact Or.inr (hrep.sharesCell_iff.mpr hold)
  -- Only the port that has left can show another value
  case shows =>
    intro other hchanged
    refine ⟨port, rfl, ?_⟩
    by_cases hsame : other = port
    · exact hsame ▸ .refl
    · rw [hdetached.shows, hrep.shows, shown_leave_of_ne hsame] at hchanged
      exact absurd rfl hchanged

theorem foldl_disconnectInlet (inlets : List InletId) (hlinked : graph.Linked) :
    Pushes (fun port => ∃ inlet ∈ inlets, port = .inlet inlet) graph
      (inlets.foldl Graph.disconnectInlet graph) := by
  induction inlets generalizing graph with
  | nil => exact .refl _ hlinked
  -- The first input pushes, and then the others in the graph that it leaves
  | cons first rest ih =>
    have hfirst := detach hlinked (.inlet first)
    apply Pushes.trans
    · apply hfirst.weaken
      rintro _ rfl
      exact ⟨first, List.mem_cons_self, rfl⟩
    · apply (ih hfirst.linked).weaken
      rintro _ ⟨inlet, hlater, rfl⟩
      exact ⟨inlet, List.mem_cons_of_mem first hlater, rfl⟩

/-- Outlets are written one after the other. -/
theorem foldl_writeOwnOutlet (value : Value) (outlets : List OutletId) (hlinked : graph.Linked)
    (hclosed : graph.Closed) (hports : ∀ outlet ∈ outlets, graph.HasPort (.outlet outlet)) :
    Pushes (fun port => ∃ outlet ∈ outlets, port = .outlet outlet) graph
      (outlets.foldl (fun g outlet => g.writeOwnOutlet outlet value) graph) := by
  induction outlets generalizing graph with
  | nil => exact .refl _ hlinked
  -- The first output pushes, and then the others in the graph that it leaves
  | cons first rest ih =>
    have hport := hports first List.mem_cons_self
    have hfirst : Pushes _ graph (graph.writeOwnOutlet first value) := write hlinked hport value
    have hmove : graph.Moves (graph.writeOwnOutlet first value) := .single (.emit graph hport value)
    have hrest := ih hfirst.linked (hmove.leads.closed hclosed) fun outlet hlater =>
      (hmove.leads.extends hclosed).hasPort (hports outlet (List.mem_cons_of_mem first hlater))
    apply Pushes.trans
    · apply hfirst.weaken
      rintro _ rfl
      exact ⟨first, List.mem_cons_self, rfl⟩
    · apply hrest.weaken
      rintro _ ⟨outlet, hlater, rfl⟩
      exact ⟨outlet, List.mem_cons_of_mem first hlater, rfl⟩

/-- **Writing an outlet pushes its value**, also along its chain of relays. -/
theorem writeOutlet (hlinked : graph.Linked) (hclosed : graph.Closed) {outlet : OutletId}
    (houtlet : graph.HasPort (.outlet outlet)) (value : Value) :
    Pushes (· = .outlet outlet) graph (graph.writeOutlet outlet value) := by
  have hchain := hasPort_of_mem_relayChain hclosed houtlet
  apply (foldl_writeOwnOutlet value _ hlinked hclosed hchain).mono
  rintro _ ⟨outer, houter, rfl⟩
  exact ⟨_, rfl, reaches_of_mem_relayChain houter⟩

end Pushes

/-! ## Firing -/

/-- A port is an outlet through which one of some primitives emits. -/
def EmitsAt (graph : Graph) (fired : List NodeId) (port : Port) : Prop :=
  ∃ node ∈ fired, ∃ outlet, graph.Emits node outlet ∧ port = .outlet outlet

/-- Firing nodes changes nothing about where primitives emit. -/
theorem EmitsAt.of_spares {fired later : List NodeId} (h : graph'.EmitsAt later port)
    (hspares : graph.Spares fired graph') : graph.EmitsAt later port := by
  obtain ⟨node, hlater, outlet, hemits, rfl⟩ := h
  exact ⟨node, hlater, outlet, hspares.emits hemits, rfl⟩

theorem EmitsAt.mono {fired later : List NodeId} (h : graph.EmitsAt fired port)
    (hsubset : fired ⊆ later) : graph.EmitsAt later port := by
  obtain ⟨node, hfired, hrest⟩ := h
  exact ⟨node, hsubset hfired, hrest⟩

namespace Pushes

variable {fired : List NodeId} {node : NodeId}

theorem emit (hlinked : graph.Linked) (hclosed : graph.Closed) {record : Node}
    {primitive : Primitive} {ports : Interface} (hrecord : graph.node? node = some record)
    (hkind : record.kind = .native primitive ports) (value : Value) :
    Pushes (graph.EmitsAt [node]) graph (graph.writeOutlet ports.outlet value) := by
  have hport := hasPort_of_native hclosed hrecord hkind
  apply (writeOutlet hlinked hclosed hport value).weaken
  rintro _ rfl
  exact ⟨node, List.mem_singleton_self node, ports.outlet,
    ⟨record, primitive, ports, hrecord, hkind, List.mem_cons_self⟩, rfl⟩

/-- **Firing a node pushes what it emits**, if it is a primitive that evaluates. -/
theorem fire (hlinked : graph.Linked) (hclosed : graph.Closed) (callLimit : UInt32)
    (node : NodeId) : Pushes (graph.EmitsAt (if graph.evaluates node then [node] else [])) graph
      (graph.fire callLimit node).graph := by
  -- What a bit remembers does not travel
  have hcount (register : Value) :
      Pushes (graph.EmitsAt [node]) graph (graph.countCall node register) :=
    of_ports_eq hlinked rfl rfl rfl
  have hfired := graph.fired_fire callLimit node
  generalize (graph.fire callLimit node).graph = after at hfired ⊢
  cases hfired with
  | rest h =>
    rw [h]
    exact .refl _ hlinked
  | emit hevaluates hrecord hkind value =>
    rw [hevaluates]
    exact emit hlinked hclosed hrecord hkind value
  | count hevaluates hbit register =>
    rw [hevaluates]
    exact hcount register
  | countAndEmit hevaluates hbit register hrecord hkind value =>
    have hmoves : graph.Moves (graph.countCall node register) :=
      .single (move_countCall graph node register)
    obtain ⟨record', ports', hrecord', hkind', hsame⟩ :=
      exists_native_countCall hrecord hkind register
    have hemit := emit (hcount register).linked (hmoves.leads.closed hclosed) hrecord' hkind' value
    rw [hevaluates, ← hsame]
    apply (hcount register).trans
    apply hemit.weaken
    exact fun port hport => hport.of_spares (.countCall graph hbit register)

end Pushes

end Graph

/-! ## Runs -/

namespace Run

variable {callLimit : UInt32} {run : Nat}

/-- **A walk pushes what the primitives that it fires emit**, however it ends. -/
theorem pushes_walk (limit : Nat) : ∀ (budget steps : Nat) (entry : EntryId) {state : State},
    state.graph.Linked → state.graph.Closed →
    Graph.Pushes (state.graph.EmitsAt (fired callLimit run budget entry state)) state.graph
      (walk callLimit limit run budget steps entry state).1.graph := by
  intro budget
  induction budget with
  | zero => exact fun _ _ _ hlinked _ => .refl _ hlinked
  | succ budget ih =>
    intro steps entry state hlinked hclosed
    let node := nodeAt state.graph entry
    have hspares : Graph.Spares _ state.graph (fireAt callLimit run entry state).1.graph :=
      .fire hlinked hclosed callLimit node
    have hpushes : Graph.Pushes _ state.graph (fireAt callLimit run entry state).1.graph :=
      .fire hlinked hclosed callLimit node
    have hmoves := moves_fireAt hclosed callLimit run entry
    -- What fires first and what fires later is among all that fires
    have hfirst (later : List NodeId) {graph : Graph} (h : Graph.Pushes (state.graph.EmitsAt
        (if state.graph.evaluates node then [node] else [])) state.graph graph) :
        Graph.Pushes (state.graph.EmitsAt
          ((if state.graph.evaluates node then [node] else []) ++ later)) state.graph graph :=
      h.weaken fun port hport => hport.mono (List.subset_append_left _ later)
    unfold fired walk
    rcases hfired : fireAt callLimit run entry state with ⟨after, fault | exit⟩
    · rw [hfired] at hpushes
      exact hfirst _ hpushes
    · rw [hfired] at hspares hpushes hmoves
      dsimp only
      cases htarget : after.graph.target? exit with
      | none => exact hfirst _ hpushes
      -- The later nodes emit where they did, for the first firing has spared their outputs
      | some next =>
        apply (hfirst _ hpushes).trans
        refine (ih (steps + 1) next (hmoves.leads.linked hlinked)
          (hmoves.leads.closed hclosed)).weaken fun port hport => ?_
        exact (hport.of_spares hspares).mono (List.subset_append_right _ _)

end Run

/-! ## Networks -/

namespace Network

variable {net : Network}

theorem pushes_execute (hlinked : net.graph.Linked) (hclosed : net.graph.Closed) :
    Graph.Pushes (net.graph.EmitsAt net.fired) net.graph net.execute.1.graph := by
  unfold fired execute
  cases net.entry? with
  | none => exact .refl _ hlinked
  | some entry => exact Run.pushes_walk net.limits.chainLimit _ 0 entry hlinked hclosed

/-- A call writes a port or takes it out of its class.  A run touches the outlets through which the
primitives that it fires emit. -/
def Touches (net : Network) (port : Port) : Call → Prop
  | .writeInlet node index _ => ∃ ports inlet, net.graph.interface? node = some ports ∧
      ports.inlets[index]? = some inlet ∧ port = .inlet inlet
  | .setState node _ => ∃ ports inlet, net.graph.interface? node = some ports ∧
      ports.inlets[0]? = some inlet ∧ port = .inlet inlet
  | .disconnectInlet inlet => port = .inlet inlet
  | .disconnectOutlet outlet => port = .outlet outlet
  | .unplug node => ∃ ports, net.graph.interface? node = some ports ∧
      ((∃ inlet ∈ ports.inlets, port = .inlet inlet) ∨ port = .outlet ports.outlet)
  | .execute | .step => net.graph.EmitsAt net.fired port
  | _ => False

/-- **A call that does not wire pushes what it touches**, whether it is refused or not. -/
theorem pushes_perform (hlinked : net.graph.Linked) (hclosed : net.graph.Closed) {call : Call}
    (hcall : call.connects = false) :
    Graph.Pushes (net.Touches · call) net.graph (net.perform call).1.graph := by
  -- A run pushes what its nodes emit, any other call what it writes or takes apart
  cases hruns : call.runs with
  | true =>
    rw [perform_fst_of_runs hruns]
    apply (pushes_execute hlinked hclosed).weaken
    cases call with
    | execute => exact fun _ => id
    | step => exact fun _ => id
    | _ => cases hruns
  | false =>
    have hobeys := obeys_perform hclosed hruns
    generalize (net.perform call).1.graph = graph at hobeys ⊢
    -- Nodes and exits do not count
    have hports {graph : Graph} (hin : graph.inlets = net.graph.inlets)
        (hout : graph.outlets = net.graph.outlets) (hcells : graph.cells = net.graph.cells) :
        Graph.Pushes (net.Touches · call) net.graph graph := .of_ports_eq hlinked hin hout hcells
    cases hobeys with
    | rest => exact .refl _ hlinked
    | @writeInlet _ _ value ports inlet hinterface hinlet hport =>
      apply (Graph.Pushes.writeInlet hlinked hport value).weaken
      exact fun port hport => ⟨ports, inlet, hinterface, hinlet, hport⟩
    | @setState node value ports inlet hinterface hinlet hport =>
      let set := net.graph.modifyNode node
        (Node.modifyInterface fun ports => { ports with register := value })
      have hset : Graph.Pushes (net.Touches · (.setState node value)) net.graph set :=
        hports rfl rfl rfl
      have hport' : set.HasPort (.inlet inlet) := hport
      apply hset.trans
      apply (Graph.Pushes.writeInlet hset.linked hport' value).weaken
      exact fun port hport => ⟨ports, inlet, hinterface, hinlet, hport⟩
    | setCalls => exact hports rfl rfl rfl
    | resetCalls => exact hports rfl rfl rfl
    | setTraced => exact hports rfl rfl rfl
    | connect => cases hcall
    | @disconnectInlet inlet => exact .detach hlinked (.inlet inlet)
    | @disconnectOutlet outlet => exact .detach hlinked (.outlet outlet)
    -- The inputs are disconnected first, and the output after them
    | @unplug node ports hinterface =>
      have hinlets := Graph.Pushes.foldl_disconnectInlet ports.inlets hlinked
      apply Graph.Pushes.trans
      · apply hinlets.weaken
        exact fun port hport => ⟨ports, hinterface, Or.inl hport⟩
      · apply (Graph.Pushes.detach hinlets.linked (.outlet ports.outlet)).weaken
        exact fun port hport => ⟨ports, hinterface, Or.inr hport⟩
    | direct => exact hports rfl rfl rfl
    | undirect => exact hports rfl rfl rfl

end Network

end TokenNet
