import TokenNet.Arithmetic
import TokenNet.Proofs.Change.Call
import TokenNet.Proofs.Change.Enclosed
import TokenNet.Proofs.Run.Guarded

/-!
# Composites enclose the token

The token comes to what stands below a composite only by the entry that the composite exposes, and
leaves it only through the joins behind the exits of the composite.  In a graph that was built this
holds of every edge of the control graph, and using the graph does not change its edges, so it holds
of every two nodes that a run fires one after the other.

## Main statements

- `Graph.Encloses`: what a node lets the token do.
- `Graph.Enclosed.encloses`: every node of a built graph encloses every edge.
- `Run.isChain_trail`: a walk follows the edges of the control graph.
- `Network.trail_encloses`: every node of a network encloses every run.
-/

namespace TokenNet

namespace Node

@[simp] theorem parent_form (record : Node) : record.form.parent = record.parent :=
  rfl

theorem interface?_form (record : Node) : record.form.interface? =
    record.interface?.map fun ports => { ports with register := 0, calls := 0 } := by
  obtain ⟨_, _, _, _, kind⟩ := record
  cases kind <;> rfl

end Node

/-! ## Edges -/

namespace Graph

/-- The token leaves what is below a node only through one of its joins, and it comes to what is
below only at the node behind the entry that the node exposes. -/
structure Encloses (graph : Graph) (node giver taker : NodeId) : Prop where
  leaves : graph.Below giver node → ¬ graph.Below taker node →
    ∃ ports, graph.interface? node = some ports ∧ giver ∈ ports.joins
  enters : ¬ graph.Below giver node → graph.Below taker node →
    ∃ ports entry, graph.interface? node = some ports ∧ ports.entry = some entry ∧
      graph.admitted? entry = some taker

/-- What has something below it is a composite. -/
theorem Lineage.isComposite_of_below {graph : Graph} (h : graph.Lineage) {node above : NodeId}
    (hbelow : graph.Below node above) : graph.IsComposite above := by
  obtain ⟨part, _, hpart⟩ := Relation.TransGen.tail'_iff.mp hbelow
  exact (h.above hpart).2

theorem IsComposite.exists_interface? {graph : Graph} {node : NodeId} (h : graph.IsComposite node) :
    ∃ ports, graph.interface? node = some ports ∧ graph.entryOf? node = ports.entry := by
  obtain ⟨record, hrecord, hacts⟩ := h
  unfold interface? entryOf?
  rw [hrecord]
  obtain ⟨_, _, _, _, kind⟩ := record
  cases kind with
  | composite ports parts => exact ⟨ports, rfl, rfl⟩
  | native => cases hacts
  | join => cases hacts

/-- A node fires its own exits; a join fires one of its parent. -/
theorem Lineage.owner_of_mem_ways {graph : Graph} (h : graph.Lineage) {node owner : NodeId}
    {record : Node} {exit : ExitId} (hrecord : graph.node? node = some record)
    (hexit : exit ∈ record.ways) (howner : graph.exitOwner? exit = some owner) :
    owner = node ∨ graph.parentOf? node = some owner ∧
      ∃ ports, graph.interface? owner = some ports ∧ node ∈ ports.joins := by
  unfold Node.ways at hexit
  split at hexit
  -- A primitive leaves by exits of its own
  next primitive ports hkind =>
    have hports : graph.interface? node = some ports := by
      simp [interface?, hrecord, Node.interface?, hkind]
    exact Or.inl (Option.some.inj (howner.symm.trans (h.exit hports hexit)))
  -- A join leaves by an exit of the composite that it stands under
  next entry fired hkind =>
    obtain rfl := List.mem_singleton.mp hexit
    obtain ⟨parent, ports, hparent, hports, hjoin, hfired⟩ := h.join hrecord hkind
    obtain rfl := Option.some.inj (howner.symm.trans (h.exit hports hfired))
    exact Or.inr ⟨hparent, ports, hports, hjoin⟩
  next => cases hexit

/-- **Every node of a built graph encloses every edge.**  An exit leads to a sibling of its owner and
from there down, so the edge crosses the owner on its way up and those that expose the entry on its
way down, and nothing else. -/
theorem Enclosed.encloses {graph : Graph} (h : graph.Enclosed) (hlineage : graph.Lineage)
    {giver taker : NodeId} (hhands : graph.Hands giver taker) (node : NodeId) :
    graph.Encloses node giver taker := by
  obtain ⟨record, exit, entry, hrecord, hexit, htarget, hadmitted⟩ := hhands
  obtain ⟨owner, composite, sibling, howner, hup, hdown, hentry⟩ := h.target htarget
  have hgiver := hlineage.owner_of_mem_ways hrecord hexit howner
  obtain ⟨last, hpasses, hlast⟩ := h.exists_passesDown hlineage hentry
  obtain rfl : last = taker := Option.some.inj (hlast.symm.trans hadmitted)
  -- The owner and the sibling stand below the same nodes
  have hsame : graph.Below owner node ↔ graph.Below sibling node := by
    rw [below_iff hup, below_iff hdown]
  constructor
  case leaves =>
    intro hbelow hnot
    have howner : ¬ graph.Below owner node :=
      fun habove => hnot (hpasses.below_last (hsame.mp habove))
    rcases hgiver with rfl | ⟨hparent, ports, hports, hjoin⟩
    · exact absurd hbelow howner
    · rcases (below_iff hparent).mp hbelow with rfl | habove
      · exact ⟨ports, hports, hjoin⟩
      · exact absurd habove howner
  case enters =>
    intro hnot hbelow
    have howner : ¬ graph.Below owner node := by
      intro habove
      rcases hgiver with rfl | ⟨hparent, _⟩
      · exact hnot habove
      · exact hnot ((below_iff hparent).mpr (Or.inr habove))
    rcases hpasses.below_first hentry hbelow with hdown | hexposed
    · exact absurd (hsame.mpr hdown) howner
    · obtain ⟨ports, hports, hsome⟩ := (hlineage.isComposite_of_below hbelow).exists_interface?
      exact ⟨ports, entry, hports, hsome ▸ hexposed, hadmitted⟩

/-! ## Using a graph -/

namespace SameControl

variable {graph graph' : Graph}

theorem parentOf? (h : graph.SameControl graph') : graph'.parentOf? = graph.parentOf? := by
  funext node
  have hform := congrArg (fun record => record.bind Node.parent) (h.map_form_node? node)
  simp only [Option.bind_map, Function.comp_def, Node.parent_form] at hform
  exact hform

theorem below (h : graph.SameControl graph') : graph'.Below = graph.Below := by
  unfold Below
  rw [h.parentOf?]

/-- What a node remembers is all that can differ in its interface. -/
theorem exists_interface? (h : graph.SameControl graph') {node : NodeId} {ports : Interface}
    (hports : graph.interface? node = some ports) : ∃ ports', graph'.interface? node = some ports' ∧
      { ports' with register := 0, calls := 0 } = { ports with register := 0, calls := 0 } := by
  obtain ⟨record, hrecord, hinterface⟩ := Option.bind_eq_some_iff.mp hports
  obtain ⟨record', hrecord', hform⟩ := h.symm.exists_node? hrecord
  have hsame := congrArg Node.interface? hform
  rw [Node.interface?_form, Node.interface?_form, hinterface] at hsame
  obtain ⟨ports', hports', hforget⟩ := Option.map_eq_some_iff.mp hsame
  exact ⟨ports', Option.bind_eq_some_iff.mpr ⟨record', hrecord', hports'⟩, hforget⟩

theorem encloses (h : graph.SameControl graph') {node giver taker : NodeId}
    (hencloses : graph.Encloses node giver taker) : graph'.Encloses node giver taker := by
  constructor
  case leaves =>
    -- What is below a node and where control comes in or goes out is the same in both graphs
    intro hbelow hnot
    rw [h.below] at hbelow hnot
    obtain ⟨ports, hports, hjoin⟩ := hencloses.leaves hbelow hnot
    obtain ⟨ports', hports', hsame⟩ := h.exists_interface? hports
    have hjoins : ports'.joins = ports.joins := (congrArg Interface.joins hsame :)
    exact ⟨ports', hports', hjoins ▸ hjoin⟩
  case enters =>
    intro hnot hbelow
    rw [h.below] at hbelow hnot
    obtain ⟨ports, entry, hports, hentry, hadmitted⟩ := hencloses.enters hnot hbelow
    obtain ⟨ports', hports', hsame⟩ := h.exists_interface? hports
    have hentries : ports'.entry = ports.entry := (congrArg Interface.entry hsame :)
    exact ⟨ports', entry, hports', hentries.trans hentry, h.admitted? entry ▸ hadmitted⟩

end SameControl

/-- Using a graph keeps its control graph. -/
theorem Use.sameControl {graph graph' : Graph} (h : Use graph graph') :
    graph.SameControl graph' := by
  cases h with
  | ensure => exact .of_bare_eq (bare_ensure _ _)
  | setValue => exact .of_bare_eq (bare_setValue _ _ _)
  | @connect inlet outlet =>
    have hbare := graph.bare_connect inlet outlet
    exact ⟨congrArg (fun g => g.nodes.map Node.form) hbare, (congrArg Graph.entries hbare :),
      (congrArg Graph.exits hbare :)⟩
  | detach => exact .of_bare_eq (bare_detach _ _)
  | remember hnodes => exact ⟨hnodes, rfl, rfl⟩

theorem Uses.sameControl {graph graph' : Graph} (h : Uses graph graph') :
    graph.SameControl graph' := by
  induction h with
  | refl => exact .of_bare_eq rfl
  | tail _ huse ih => exact ih.trans huse.sameControl

end Graph

/-! ## Runs -/

namespace Run

/-- A walk begins with the node behind its entry. -/
theorem eq_nodeAt_of_mem_head? {callLimit : UInt32} {run budget : Nat} {entry : EntryId}
    {state : State} {node : NodeId} (h : node ∈ (trail callLimit run budget entry state).head?) :
    node = nodeAt state.graph entry := by
  cases budget with
  | zero => cases h
  | succ budget =>
    unfold trail at h
    exact (Option.some.inj h).symm

/-- **A walk follows the edges of the control graph.** -/
theorem isChain_trail (callLimit : UInt32) (run : Nat) :
    ∀ (budget : Nat) (entry : EntryId) (state : State), state.graph.Closed →
      List.IsChain state.graph.Hands (trail callLimit run budget entry state) := by
  intro budget
  induction budget with
  | zero => exact fun _ _ _ => .nil
  | succ budget ih =>
    intro entry state hclosed
    -- Each firing hands the token to the node behind the target of its exit
    rcases hfired : fireAt callLimit run entry state with ⟨fired, fault | exit⟩
    · rw [(walk_of_error 0 budget 0 hfired).2]
      exact .singleton _
    · cases htarget : fired.graph.target? exit with
      | none =>
        rw [(walk_of_end 0 budget 0 hfired htarget).2]
        exact .singleton _
      | some next =>
        rw [(walk_of_next 0 budget 0 hfired htarget).2]
        have hgraph : fired.graph = (state.graph.fire callLimit (nodeAt state.graph entry)).graph :=
          (congrArg (fun outcome => outcome.1.graph) hfired).symm
        obtain ⟨record, hrecord, hexit, hfires⟩ := Graph.fires_of_fire (congrArg Prod.snd hfired)
        rw [← hgraph] at hfires
        have hsame := hfires.sameControl
        have hclosed' : fired.graph.Closed := by
          rw [hgraph]
          exact (Graph.moves_fire hclosed callLimit _).leads.closed hclosed
        have hlater := (ih next fired hclosed').imp fun _ _ => hsame.hands
        refine List.IsChain.cons hlater fun taker htaker => ?_
        obtain rfl := eq_nodeAt_of_mem_head? htaker
        -- A target is an entry of the graph, so there is a node behind it
        obtain ⟨taker, hadmitted, _⟩ :=
          hclosed'.acts_of_hasEntry (hclosed'.hasEntry_of_target? htarget)
        refine ⟨record, exit, next, hrecord, hexit, hsame.target? exit ▸ htarget, ?_⟩
        rw [nodeAt, hadmitted, ← hsame.admitted?]
        exact hadmitted

end Run

namespace Network

variable {net : Network}

/-- Two nodes that a run fires one after the other are joined by an edge. -/
theorem hands_of_trail (hclosed : net.graph.Closed) {giver taker : NodeId}
    (h : [giver, taker] <:+: net.trail) : net.graph.Hands giver taker := by
  have hchain : List.IsChain net.graph.Hands net.trail := by
    unfold trail
    split
    · exact .nil
    · exact Run.isChain_trail net.limits.callLimit (net.runs + 1) net.limits.chainLimit _
        ⟨net.graph, net.ledger⟩ hclosed
  have hpair := List.IsChain.infix hchain h
  exact (List.isChain_cons_cons.mp hpair).1

theorem uses_performAll (calls : List Call) (hclosed : net.graph.Closed)
    (hcalls : ∀ call ∈ calls, call.redirects = false) :
    net.graph.Uses (net.performAll calls).1.graph := by
  induction calls generalizing net with
  | nil => exact .refl
  | cons call rest ih =>
    have hfirst := uses_perform hclosed call (hcalls call List.mem_cons_self)
    exact hfirst.trans (ih (hfirst.leads.closed hclosed)
      fun later hlater => hcalls later (List.mem_cons_of_mem call hlater))

/-- **Every composite encloses the token.**  Whatever was called since the network was built, so long
as no exit was redirected: if a run fires a node below a composite and then one that is not, the
first is a join of the composite, and if it fires a node that is not below the composite and then
one that is, the composite exposes the entry of the second. -/
theorem trail_encloses {library : Library} {identifier : String} {options : BuildOptions}
    {built : Network} (hbuilt : library.instantiate identifier options = .ok built)
    {calls : List Call} (hcalls : ∀ call ∈ calls, call.redirects = false)
    {giver taker : NodeId} (htrail : [giver, taker] <:+: (built.performAll calls).1.trail)
    (node : NodeId) : (built.performAll calls).1.graph.Encloses node giver taker := by
  have hconstructs := (Library.built_of_instantiate hbuilt).constructs
  have hclosed : built.graph.Closed := (leads_instantiate hbuilt).1.closed .empty
  have huses := uses_performAll calls hclosed hcalls
  have hhands := hands_of_trail (huses.leads.closed hclosed) htrail
  have hencloses := (hconstructs.enclosed .empty).encloses (hconstructs.lineage .empty)
    (huses.sameControl.hands hhands) node
  exact huses.sameControl.encloses hencloses

/-- An alternator that has run once. -/
def alternated : Network :=
  (((Arithmetic.library.instantiate "||" {}).toOption.getD default).performAll [.step]).1

/-- In its second run the token comes to what is below the composite 10, which decrements, by the
entry of that composite, and leaves it through the join 11. -/
theorem trail_encloses_of_alternator : ∃ net, Arithmetic.library.instantiate "||" {} = .ok net ∧
    (net.performAll [.step]).1 = alternated ∧ alternated.trail = [⟨3⟩, ⟨14⟩, ⟨15⟩, ⟨11⟩, ⟨2⟩] ∧
    alternated.graph.Encloses ⟨10⟩ ⟨3⟩ ⟨14⟩ ∧ alternated.graph.Encloses ⟨10⟩ ⟨11⟩ ⟨2⟩ := by
  obtain ⟨net, hbuilt, hnet⟩ : ∃ net, Arithmetic.library.instantiate "||" {} = .ok net ∧
      (net.performAll [.step]).1 = alternated := ⟨_, by decide +kernel, rfl⟩
  have htrail : alternated.trail = [⟨3⟩, ⟨14⟩, ⟨15⟩, ⟨11⟩, ⟨2⟩] := by decide +kernel
  have hcalls : ∀ call ∈ [Call.step], call.redirects = false := by simp [Call.redirects]
  -- The token goes into the inner node, and comes out of it again
  have henters : [⟨3⟩, ⟨14⟩] <:+: (net.performAll [.step]).1.trail := by
    rw [hnet, htrail]
    decide
  have hleaves : [⟨11⟩, ⟨2⟩] <:+: (net.performAll [.step]).1.trail := by
    rw [hnet, htrail]
    decide
  refine ⟨net, hbuilt, hnet, htrail, ?_⟩
  rw [← hnet]
  exact ⟨trail_encloses hbuilt hcalls henters ⟨10⟩, trail_encloses hbuilt hcalls hleaves ⟨10⟩⟩

end Network

end TokenNet
