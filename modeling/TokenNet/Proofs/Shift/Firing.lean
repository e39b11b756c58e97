import TokenNet.Proofs.Chart.Graph
import TokenNet.Proofs.Network.Outward
import TokenNet.Proofs.Network.Turns
import TokenNet.Proofs.Shift.Layout

/-!
# Firing a shift

The adder that holds the constant of a shift emits the constant whatever happens, and what it emits
goes nowhere but to the adder that sums.  So the latter shows zero or the constant, and the constant
it shows when the former has fired.  The adder that sums emits the result, through its own outlet,
which nothing reads, and through the outlet of the shift.

## Main statements

- `WellMade.not_exposes`: the ports of a node that acts expose nothing.
- `Adder.In.fire`: what an adder does.
- `Shift.Layout.fire_source`, `Shift.Layout.fire_sum`: what the two adders of a shift do.
- `Shift.Layout.hasConstant_turn`, `Shift.Layout.turns`: the constant is never anything else.
-/

namespace TokenNet

namespace Graph

variable {graph graph' : Graph} {node : NodeId} {port inner : Port} {outlet : OutletId}
  {start cell : CellId}

/-- What acts is no composite. -/
theorem Acts.not_isComposite (h : graph.Acts node) : ¬ graph.IsComposite node := by
  rintro ⟨record, hrecord, hnone⟩
  obtain ⟨record', hrecord', hacts⟩ := h
  obtain rfl := Option.some.inj (hrecord.symm.trans hrecord')
  exact Bool.noConfusion (hnone.symm.trans hacts)

/-- **The ports of a node that acts expose nothing.** -/
theorem WellMade.not_exposes (h : graph.WellMade) (hacts : graph.Acts node)
    (howner : graph.ownerOf? port = some node) : ¬ graph.Exposes port inner := by
  intro hexposes
  obtain ⟨composite, hcomposite, hsite⟩ := h.nested _ _ hexposes
  obtain ⟨part, _, hparent⟩ := siteOf?_eq_some_iff.mp hsite
  obtain rfl := Option.some.inj (howner.symm.trans hcomposite)
  exact hacts.not_isComposite (h.lineage.above hparent).2

/-! ## Quiet cells -/

/-- No bridge begins at a cell whose readers feed nothing. -/
theorem not_bridges (hlinked : graph.Linked) (hstart : graph.portCell? port = some start)
    (hquiet : ∀ reader inner, graph.SharesCell port (.inlet reader) → ¬ graph.Feeds reader inner) :
    ¬ graph.Bridges start cell := by
  rintro ⟨record, hrecord, reader, hreader, pin, hpin, inner, hfed, _⟩
  have hmember : Port.inlet reader ∈ record.members := by simp [Cell.members, hreader]
  have hcell := (hlinked.mem_members hrecord (.inlet reader)).mp hmember
  refine hquiet reader inner ⟨start, hstart, hcell⟩ ?_
  unfold Feeds feedsOf
  rw [hpin]
  exact hfed

/-- An outlet covers nothing but its own cell if the readers of that feed nothing. -/
theorem Covers.outletCell? (h : graph.Covers outlet cell) (hlinked : graph.Linked)
    (hquiet : ∀ reader inner, graph.SharesCell (.outlet outlet) (.inlet reader) →
      ¬ graph.Feeds reader inner) : graph.outletCell? outlet = some cell := by
  obtain ⟨start, hstart, hreach⟩ := h
  rcases hreach.cases_head with rfl | ⟨next, hbridge, _⟩
  · exact hstart
  · exact absurd hbridge (@not_bridges graph (.outlet outlet) start next hlinked hstart hquiet)

theorem SharesCell.shows {other : Port} (h : graph.SharesCell port other) :
    graph.shows port = graph.shows other := by
  obtain ⟨cell, hport, hother⟩ := h
  rw [Graph.shows, Graph.shows, portValue?, portValue?, hport, hother]

theorem Spreads.outletValue? {outlets : List OutletId} {value : Value}
    (h : Spreads outlets value graph graph') (hmem : outlet ∈ outlets) :
    graph'.outletValue? outlet = some value := by
  obtain ⟨cell, hcell⟩ := h.written outlet hmem
  rw [Graph.outletValue?, hcell]
  exact h.shown outlet hmem cell ⟨cell, hcell, .refl⟩

/-- An inlet whose cell is not covered shows what it did. -/
theorem Spreads.shows_inlet {outlets : List OutletId} {value : Value} {inlet : InletId}
    (h : Spreads outlets value graph graph')
    (hapart : ∀ outlet ∈ outlets, ∀ cell, graph'.Covers outlet cell →
      graph'.inletCell? inlet ≠ some cell) :
    graph'.shows (.inlet inlet) = graph.shows (.inlet inlet) := by
  have hinlets : graph'.inletCell? inlet = graph.inletCell? inlet := by
    rw [inletCell?, inlet?, h.fills.inlets]
    rfl
  have hport : graph'.portCell? (.inlet inlet) = graph.portCell? (.inlet inlet) := hinlets
  rw [shows, shows, portValue?, portValue?, hport]
  -- The cell of the input is none that is written
  cases hcell : graph.portCell? (.inlet inlet) with
  | none => rfl
  | some cell =>
    have hkept := h.kept cell fun outlet hmem hcovers =>
      hapart outlet hmem cell hcovers (hport.trans hcell)
    rw [Option.bind_some, Option.bind_some, cellValue?, cellValue?, hkept]

/-- All ports of a cell stand in a composite. -/
structure Private (graph : Graph) (composite : NodeId) (cell : CellId) : Prop where
  used : ∃ port, graph.portCell? port = some cell
  inside : ∀ port, graph.portCell? port = some cell → graph.siteOf? port = some composite

theorem private_of_shares {composite : NodeId} (hcell : graph.portCell? port = some cell)
    (h : ∀ other, graph.SharesCell port other → graph.siteOf? other = some composite) :
    graph.Private composite cell :=
  ⟨⟨port, hcell⟩, fun other hother => h other ⟨cell, hcell, hother⟩⟩

end Graph

/-! ## Adders -/

namespace Adder

open TokenNet.Graph

variable {a : Adder} {graph : Graph} {composite : NodeId}

/-- What an adder puts out when it fires. -/
def output (a : Adder) (graph : Graph) : Value :=
  Primitive.sum ⟨graph.portWired (.inlet a.left), graph.shows (.inlet a.left)⟩
    ⟨graph.portWired (.inlet a.right), graph.shows (.inlet a.right)⟩

/-- The exit by which an adder is left with an output. -/
def exit (a : Adder) (value : Value) : ExitId :=
  if value = 0 then a.zero else a.other

/-- **An adder writes its outlet** and is left by one of its two exits. -/
theorem In.fire (h : a.In graph composite) (callLimit : UInt32) :
    (graph.fire callLimit a.node).graph = graph.writeOutlet a.outlet (a.output graph) ∧
      (graph.fire callLimit a.node).result = .ok (a.exit (a.output graph)) := by
  obtain ⟨record, ports, hrecord, hkind, hinlets, houtlet, _, hexits⟩ := h.exists_kind
  obtain ⟨events, hfire⟩ := fire_adder hrecord hkind hinlets callLimit
  have hsum : Primitive.sum (graph.reading a.left) (graph.reading a.right) = a.output graph := rfl
  rw [hfire, hsum]
  refine ⟨by rw [← houtlet]; rfl, ?_⟩
  unfold emit exit Primitive.branch
  by_cases hzero : a.output graph = 0 <;> simp [hexits, hzero]

theorem In.admitted? (h : a.In graph composite) (hlineage : graph.Lineage) :
    graph.admitted? a.entry = some a.node :=
  hlineage.acts h.acts h.entryOf?

end Adder

/-! ## The adders of a shift -/

namespace Shift

open TokenNet.Graph

/-- The adder that sums shows the constant, or it shows zero because the constant has not been put
out yet. -/
def HasConstant (shift : Shift) (sum : Adder) (graph : Graph) : Prop :=
  graph.shows (.inlet sum.right) = 0 ∨ graph.shows (.inlet sum.right) = shift.addend

/-- What the firing of the adder that holds the constant leaves behind. -/
structure Primes (shift : Shift) (source sum : Adder) (graph graph' : Graph) : Prop where
  constant : graph'.shows (.inlet sum.right) = shift.addend
  operand : graph'.shows (.inlet sum.left) = graph.shows (.inlet sum.left)
  changed : ∀ cell, graph'.cell? cell ≠ graph.cell? cell →
    graph'.outletCell? source.outlet = some cell

/-- A result has come out of a shift: its outlet shows it, and what has changed besides lies inside,
or is reached from the outlet through bridges and relays. -/
structure Yields (graph graph' : Graph) (node : NodeId) (ports : Interface) (result : Value) :
    Prop where
  value : graph'.outletValue? ports.outlet = some result
  changed : ∀ cell, graph'.cell? cell ≠ graph.cell? cell → graph'.Private node cell ∨
    ∃ outer, Relation.ReflTransGen graph'.RelaysTo ports.outlet outer ∧ graph'.Covers outer cell

namespace Layout

variable {shift : Shift} {graph graph' : Graph} {node : NodeId} {ports : Interface}
  {inlet : InletId} {source sum : Adder} {cell : CellId} {callLimit : UInt32}

section

variable (h : shift.Layout graph node ports inlet source sum) (hmade : graph.WellMade)

include h

theorem left_ne_right : sum.left ≠ sum.right := by
  intro hsame
  have hreads := (h.reads (.outlet source.outlet)).mpr (Or.inr rfl)
  rw [← hsame] at hreads
  cases (h.operand _).mp hreads

/-- The two ports that show the constant. -/
theorem reads_source (port : Port) : graph.SharesCell (.outlet source.outlet) port ↔
    port = .inlet sum.right ∨ port = .outlet source.outlet := by
  have hconstant := (h.reads (.outlet source.outlet)).mpr (Or.inr rfl)
  exact ⟨fun hshares => (h.reads port).mp (hconstant.trans hshares),
    fun hport => hconstant.symm.trans ((h.reads port).mpr hport)⟩

/-- Nothing reads the own outlet of the adder that sums. -/
theorem quiet_sum {reader inner : InletId}
    (hshares : graph.SharesCell (.outlet sum.outlet) (.inlet reader)) :
    ¬ graph.Feeds reader inner :=
  nomatch h.result _ hshares

/-- No outlet drives the operand. -/
theorem not_driven {partition : Partition} (hrep : graph.Represents partition) :
    ¬ partition.Driven sum.left := by
  rintro ⟨outlet, hshares⟩
  cases (h.operand _).mp (hrep.sharesCell_iff.mpr hshares)

include hmade

/-- What feeds a port inside is the inlet of the shift. -/
theorem eq_inlet_of_feeds {outer inner : InletId} (hfeeds : graph.Feeds outer inner)
    (hsite : graph.siteOf? (.inlet inner) = some node) : outer = inlet := by
  obtain ⟨composite, howner, hcomposite⟩ := hmade.nested _ _ (.feed hfeeds)
  obtain rfl := Option.some.inj (hsite.symm.trans hcomposite)
  obtain ⟨found, hfound, hcount⟩ := hmade.owned.inlet howner
  obtain ⟨found', hfound', hinlets, _⟩ := exists_interface?_of_faceOf? h.face
  obtain rfl := Option.some.inj (hfound.symm.trans hfound')
  rw [hinlets, h.inlets] at hcount
  have hmem : outer ∈ [inlet] := List.count_pos_iff.mp (hcount ▸ Nat.one_pos)
  exact List.mem_singleton.mp hmem

/-- The inlet of a shift feeds the operand, and nothing else does. -/
theorem feeding : Partition.Feeding graph.Feeds inlet sum.left where
  fed := (h.feeds sum.left).mpr rfl
  only _ hfeeds :=
    h.eq_inlet_of_feeds hmade hfeeds (h.sumIn.site (h.sumIn.leftOwner hmade.lineage))

theorem not_feeds_right (outer : InletId) : ¬ graph.Feeds outer sum.right := by
  intro hfeeds
  have hsite := h.sumIn.site (h.sumIn.rightOwner hmade.lineage)
  obtain rfl := h.eq_inlet_of_feeds hmade hfeeds hsite
  exact h.left_ne_right ((h.feeds sum.right).mp hfeeds).symm

/-- **The constant comes from the adder that holds it**: no other value can come to where it is. -/
theorem reaches_right {port : Port} (hreaches : graph.Reaches port (.inlet sum.right)) :
    port = .inlet sum.right ∨ port = .outlet source.outlet := by
  -- Induction from the end of the path, since the input is what is known
  induction hreaches using Relation.ReflTransGen.head_induction_on with
  | refl => exact Or.inl rfl
  | @head port next hstep _ ih =>
    cases hstep with
    | share hshares =>
      refine (h.reads port).mp ?_
      rcases ih with rfl | rfl
      · exact hshares.symm
      · exact ((h.reads _).mpr (Or.inr rfl)).trans hshares.symm
    | @feed outer inner hfeeds =>
      rcases ih with hsame | hsame
      · obtain rfl := Port.inlet.inj hsame
        exact absurd hfeeds (h.not_feeds_right hmade outer)
      · cases hsame
    -- The source is an adder, which relays nothing
    | @relay inner outer hrelay =>
      rcases ih with hsame | hsame
      · cases hsame
      · obtain rfl := Port.outlet.inj hsame
        have howner := h.sourceIn.outletOwner hmade.lineage
        exact absurd (.relay hrelay) (hmade.not_exposes h.sourceIn.acts howner)

/-- The adder that sums hands on nothing of what it reads. -/
theorem quiet_source {reader inner : InletId}
    (hshares : graph.SharesCell (.outlet source.outlet) (.inlet reader)) :
    ¬ graph.Feeds reader inner := by
  rcases (h.reads_source _).mp hshares with hsame | hsame
  · obtain rfl := Port.inlet.inj hsame
    have howner := h.sumIn.rightOwner hmade.lineage
    exact fun hfeeds => hmade.not_exposes h.sumIn.acts howner (.feed hfeeds)
  · cases hsame

/-- The cell of the constant lies inside. -/
theorem private_source (hcell : graph.outletCell? source.outlet = some cell) :
    graph.Private node cell := by
  refine @private_of_shares graph (.outlet source.outlet) cell node hcell fun other hshares => ?_
  rcases (h.reads_source other).mp hshares with rfl | rfl
  · exact h.sumIn.site (h.sumIn.rightOwner hmade.lineage)
  · exact h.sourceIn.site (h.sourceIn.outletOwner hmade.lineage)

/-- So does the cell of the adder that sums. -/
theorem private_sum (hcell : graph.outletCell? sum.outlet = some cell) :
    graph.Private node cell := by
  refine @private_of_shares graph (.outlet sum.outlet) cell node hcell fun other hshares => ?_
  rw [h.result other hshares]
  exact h.sumIn.site (h.sumIn.outletOwner hmade.lineage)

end

/-! ### What the adders do -/

/-- Firing changes nothing about what is inside a shift. -/
theorem turn (h : shift.Layout graph node ports inlet source sum) (hmade : graph.WellMade)
    (hturn : Turn graph graph') :
    shift.Layout graph' node ports inlet source sum ∧ graph'.WellMade :=
  have hwrites := hturn.writes hmade.closed
  ⟨h.sameInside hmade.lineage (hwrites.sameInside hmade.linked node), hwrites.uses.wellMade hmade⟩

/-- **The adder that holds the constant emits it**, and it changes nothing else. -/
theorem fire_source (h : shift.Layout graph node ports inlet source sum) (hmade : graph.WellMade)
    (callLimit : UInt32) :
    (graph.fire callLimit source.node).result = .ok (source.exit shift.addend) ∧
      Primes shift source sum graph (graph.fire callLimit source.node).graph := by
  obtain ⟨h', hmade'⟩ := h.turn hmade (.fire graph callLimit source.node)
  obtain ⟨hgraph, hresult⟩ := h.sourceIn.fire callLimit
  have houtput : source.output graph = shift.addend := by
    obtain ⟨hleft, hright⟩ := Prod.mk.inj h.constant
    unfold Adder.output
    rw [hleft, hright]
    exact shift.sum_wires _ _
  rw [houtput] at hgraph hresult
  have hport := hasPort_of_outletOwner? (h.sourceIn.outletOwner hmade.lineage)
  have hspreads := Spreads.writeOutlet hmade.linked hmade.closed hport shift.addend
  -- Nothing is relayed from this outlet, so no other outlet is written
  have hchain (outer : OutletId) (hmem : outer ∈ graph.relayChain source.outlet) :
      outer = source.outlet := by
    rcases ((hmade.descends.mem_relayChain_iff hport).mp hmem).cases_head with rfl | ⟨_, hrelay, _⟩
    · rfl
    · cases h.unrelayed.symm.trans hrelay
  have hself : source.outlet ∈ graph.relayChain source.outlet :=
    (hmade.descends.mem_relayChain_iff hport).mpr .refl
  rw [← hgraph] at hspreads
  -- And no bridge leads on from its cell
  have hcovered {outer : OutletId} (hmem : outer ∈ graph.relayChain source.outlet) {cell : CellId}
      (hcovers : (graph.fire callLimit source.node).graph.Covers outer cell) :
      (graph.fire callLimit source.node).graph.outletCell? source.outlet = some cell := by
    obtain rfl := hchain outer hmem
    exact hcovers.outletCell? hmade'.linked fun _ _ => h'.quiet_source hmade'
  refine ⟨hresult, ?constant, ?operand, ?changed⟩
  case constant =>
    rw [((h'.reads _).mpr (Or.inr rfl)).shows, shows]
    exact congrArg (Option.getD · 0) (hspreads.outletValue? hself)
  case operand =>
    refine hspreads.shows_inlet fun outer hmem cell hcovers hcell => ?_
    have hsource : Port.outlet source.outlet = .inlet sum.left :=
      (h'.operand _).mp ⟨cell, hcell, hcovered hmem hcovers⟩
    cases hsource
  case changed =>
    intro cell hchanged
    by_contra hother
    exact hchanged (hspreads.kept cell fun outer hmem hcovers => hother (hcovered hmem hcovers))

/-- Another node that fires leaves the constant alone. -/
theorem shows_right_fire_of_ne (h : shift.Layout graph node ports inlet source sum)
    (hmade : graph.WellMade) {other : NodeId} (hne : other ≠ source.node) (callLimit : UInt32) :
    (graph.fire callLimit other).graph.shows (.inlet sum.right) =
      graph.shows (.inlet sum.right) := by
  by_contra hchanged
  obtain ⟨port, ⟨fired, hfired, outlet, ⟨record, primitive, found, hrecord, hkind, hmem⟩, rfl⟩,
    hreaches⟩ := (Pushes.fire hmade.linked hmade.closed callLimit other).shows hchanged
  have hother : fired = other := by
    split at hfired
    · exact List.mem_singleton.mp hfired
    · cases hfired
  -- The value comes from the own outlet of the node that fired
  have hown := (reaches_of_mem_relayChain hmem).trans hreaches
  rcases h.reaches_right hmade hown with hsame | hsame
  · cases hsame
  · have hfound : graph.interface? fired = some found := by
      refine Option.bind_eq_some_iff.mpr ⟨record, hrecord, ?_⟩
      unfold Node.interface?
      rw [hkind]
    have howner : graph.outletOwner? source.outlet = some fired :=
      Port.outlet.inj hsame ▸ hmade.lineage.outlet hfound
    have hsource := Option.some.inj (howner.symm.trans (h.sourceIn.outletOwner hmade.lineage))
    exact hne (hother.symm.trans hsource)

/-- **No turn makes the constant anything else.** -/
theorem hasConstant_turn (h : shift.Layout graph node ports inlet source sum)
    (hmade : graph.WellMade) (hconstant : HasConstant shift sum graph)
    (hturn : Turn graph graph') : HasConstant shift sum graph' := by
  -- A write from outside does not reach the constant, and only the source writes it anew
  cases hturn with
  | @write top found written hloose hfound hmem value =>
    have hkept : (graph.writeInlet written value).shows (.inlet sum.right) =
        graph.shows (.inlet sum.right) := by
      by_contra hchanged
      have hport := (hmade.closed.knows hfound).inlets written hmem
      obtain ⟨port, rfl, hreaches⟩ := (Pushes.writeInlet hmade.linked hport value).shows hchanged
      rcases h.reaches_right hmade hreaches with hsame | hsame
      · -- What is written stands under nothing
        obtain rfl := Port.inlet.inj hsame
        have howner := hmade.lineage.inlet hfound hmem
        obtain rfl := Option.some.inj (howner.symm.trans (h.sumIn.rightOwner hmade.lineage))
        cases hloose.symm.trans h.sumIn.parent
      · cases hsame
    unfold HasConstant
    rw [hkept]
    exact hconstant
  | fire callLimit other =>
    by_cases hother : other = source.node
    · obtain rfl := hother
      exact Or.inr (h.fire_source hmade callLimit).2.constant
    · unfold HasConstant
      rw [h.shows_right_fire_of_ne hmade hother callLimit]
      exact hconstant

/-- **Everything that is needed to run a shift is kept by turns.** -/
theorem turns (h : shift.Layout graph node ports inlet source sum) (hmade : graph.WellMade)
    (hconstant : HasConstant shift sum graph) (hturns : Turns graph graph') :
    shift.Layout graph' node ports inlet source sum ∧ graph'.WellMade ∧
      HasConstant shift sum graph' := by
  induction hturns with
  | refl => exact ⟨h, hmade, hconstant⟩
  | tail _ hturn ih =>
    obtain ⟨hlayout, hmade, hconstant⟩ := ih
    obtain ⟨hlayout', hmade'⟩ := hlayout.turn hmade hturn
    exact ⟨hlayout', hmade', hlayout.hasConstant_turn hmade hconstant hturn⟩

/-- **The adder that sums emits the result** through the outlet of the shift, and what changes
otherwise lies inside. -/
theorem fire_sum (h : shift.Layout graph node ports inlet source sum) (hmade : graph.WellMade)
    (callLimit : UInt32) {result : Value}
    (hresult : graph.shows (.inlet sum.left) + graph.shows (.inlet sum.right) = result) :
    (graph.fire callLimit sum.node).result = .ok (sum.exit result) ∧
      Yields graph (graph.fire callLimit sum.node).graph node ports result ∧
      ∀ {outlet cell}, graph.outletCell? outlet = some cell →
        (graph.fire callLimit sum.node).graph.outletCell? outlet = some cell := by
  obtain ⟨h', hmade'⟩ := h.turn hmade (.fire graph callLimit sum.node)
  -- The adder fires on the two values that its inputs show
  obtain ⟨hgraph, hfired⟩ := h.sumIn.fire callLimit
  have houtput : sum.output graph = result := by
    unfold Adder.output
    rw [h.wired.1, h.wired.2]
    exact hresult
  rw [houtput] at hgraph hfired
  have hport := hasPort_of_outletOwner? (h.sumIn.outletOwner hmade.lineage)
  have hspreads := Spreads.writeOutlet hmade.linked hmade.closed hport result
  have hrelays : (graph.fire callLimit sum.node).graph.RelaysTo = graph.RelaysTo := by
    have hlinks := ((Turn.fire graph callLimit sum.node).writes hmade.closed).uses.sameLinks
    unfold RelaysTo
    rw [hlinks.relays]
  rw [← hgraph] at hspreads
  have hchain {outer : OutletId} : outer ∈ graph.relayChain sum.outlet ↔
      Relation.ReflTransGen graph.RelaysTo sum.outlet outer :=
    hmade.descends.mem_relayChain_iff hport
  refine ⟨hfired, ⟨?value, ?changed⟩, hspreads.fills.kept⟩
  case value => exact hspreads.outletValue? (hchain.mpr (.single h.relay))
  case changed =>
    intro cell hchanged
    by_contra hother
    rw [not_or] at hother
    refine hchanged (hspreads.kept cell fun outer hmem hcovers => ?_)
    -- A value comes out at the own outlet of the adder, or further out from the outlet of the shift
    rcases (hchain.mp hmem).cases_head with rfl | ⟨next, hnext, hlater⟩
    · have hcell := hcovers.outletCell? hmade'.linked fun _ _ => h'.quiet_sum
      exact hother.1 (h'.private_sum hmade' hcell)
    · obtain rfl := Option.some.inj (h.relay.symm.trans hnext)
      exact hother.2 ⟨outer, hrelays ▸ hlater, hcovers⟩

end Layout

end Shift

end TokenNet
