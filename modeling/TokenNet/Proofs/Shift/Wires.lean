import TokenNet.Proofs.Change.Unordered
import TokenNet.Proofs.Shift.Stock

/-!
# How a shift is wired

When a shift has got its adders, its log wires them, and only the wirings of its log concern its
ports: the inlet feeds the adder that sums, the other inlet of that adder comes to share a cell with
the outlet of the constant, and the outlet of the sum is relayed.

## Main statements

- `Shift.wirings`: the wirings of a shift, but for its entry.
- `Shift.Ready`: a composite that has got the adders of a shift, and no wires yet.
- `Shift.Ready.shares_iff`, `Shift.Ready.target?_eq` and the like: what its wirings come to.
- `Shift.Ready.layout`: it has its layout when it is wired and has exposed its entry.
-/

namespace TokenNet

open TokenNet.Graph

variable {graph graph' : Graph} {composite : NodeId} {ports : Interface}

/-! ## The wirings of a shift -/

namespace Adder

/-- Two adders have no port in common. -/
structure Apart (a b : Adder) : Prop where
  inlets : a.ports.inlets.Disjoint b.ports.inlets
  outlet : a.outlet ≠ b.outlet
  exits : a.ports.exits.Disjoint b.ports.exits

namespace Apart

variable {a b : Adder}

theorem inlets_ne (h : a.Apart b) :
    (a.left ≠ b.left ∧ a.left ≠ b.right) ∧ a.right ≠ b.left ∧ a.right ≠ b.right := by
  have hinlets := h.inlets
  simp only [ports, List.disjoint_cons_left, List.disjoint_nil_left, List.mem_cons,
    List.not_mem_nil, or_false, not_or, and_true] at hinlets
  exact hinlets

theorem exits_ne (h : a.Apart b) :
    (a.zero ≠ b.zero ∧ a.zero ≠ b.other) ∧ a.other ≠ b.zero ∧ a.other ≠ b.other := by
  have hexits := h.exits
  simp only [ports, List.disjoint_cons_left, List.disjoint_nil_left, List.mem_cons,
    List.not_mem_nil, or_false, not_or, and_true] at hexits
  exact hexits

end Apart

/-- Different adders have no port in common, since a port has one owner. -/
theorem In.apart {a b : Adder} (ha : a.In graph composite) (hb : b.In graph composite)
    (hlineage : graph.Lineage) (hne : a.node ≠ b.node) : a.Apart b := by
  obtain ⟨ports, hports, hinlets, _, _, hexits⟩ := ha.exists_interface?
  obtain ⟨ports', hports', hinlets', _, _, hexits'⟩ := hb.exists_interface?
  refine ⟨fun inlet hleft hright => hne ?_, fun houtlet => hne ?_, fun exit hleft hright => hne ?_⟩
  · exact Option.some.inj ((hlineage.inlet hports (hinlets ▸ hleft)).symm.trans
      (hlineage.inlet hports' (hinlets' ▸ hright)))
  · have howner := ha.outletOwner hlineage
    rw [houtlet, hb.outletOwner hlineage] at howner
    exact (Option.some.inj howner).symm
  · exact Option.some.inj ((hlineage.exit hports (hexits ▸ hleft)).symm.trans
      (hlineage.exit hports' (hexits' ▸ hright)))

/-- The inlets of an adder are different, and so are its exits, since each of them is listed once. -/
theorem In.distinct {a : Adder} (h : a.In graph composite) (hlineage : graph.Lineage)
    (howned : graph.Owned) : a.left ≠ a.right ∧ a.zero ≠ a.other := by
  obtain ⟨found, hfound, hinlets, _, _, hexits⟩ := h.exists_interface?
  -- Each pin is listed once
  constructor
  · intro hsame
    obtain ⟨owner, howner, hcount⟩ := howned.inlet (h.leftOwner hlineage)
    obtain rfl := Option.some.inj (hfound.symm.trans howner)
    rw [hinlets] at hcount
    simp [ports, hsame] at hcount
  · intro hsame
    obtain ⟨owner, howner, hcount⟩ := howned.exit (h.zeroOwner hlineage)
    obtain rfl := Option.some.inj (hfound.symm.trans howner)
    rw [hexits] at hcount
    simp [ports, hsame] at hcount

end Adder

/-- Directs exits one after another. -/
def Graph.directAll (graph : Graph) (directs : List (ExitId × EntryId)) : Graph :=
  directs.foldl (fun g direct => g.setTarget direct.1 (some direct.2)) graph

theorem Graph.directAll_eq (graph : Graph) (directs : List (ExitId × EntryId)) :
    graph.directAll directs =
      (directs.map fun direct => .direct direct.1 direct.2).foldl Rewiring.apply graph := by
  rw [List.foldl_map]
  rfl

theorem Graph.target?_directAll_of_notMem {graph : Graph} {directs : List (ExitId × EntryId)}
    {exit : ExitId} (hexit : exit ∉ directs.map Prod.fst) :
    (graph.directAll directs).target? exit = graph.target? exit := by
  induction directs generalizing graph with
  | nil => rfl
  | cons direct rest ih =>
    obtain ⟨hne, hlater⟩ := not_or.mp (mt List.mem_cons.mpr hexit)
    refine (ih hlater).trans ?_
    rw [target?_setTarget, if_neg hne]

/-- An exit that is directed once leads where it was directed to. -/
theorem Graph.target?_directAll {graph : Graph} {directs : List (ExitId × EntryId)} {exit : ExitId}
    {entry : EntryId} (hnodup : (directs.map Prod.fst).Nodup)
    (hexits : ∀ direct ∈ directs, graph.HasExit direct.1) (hmem : (exit, entry) ∈ directs) :
    (graph.directAll directs).target? exit = some entry := by
  induction directs generalizing graph with
  | nil => cases hmem
  | cons direct rest ih =>
    obtain ⟨hfresh, hnodup⟩ := List.nodup_cons.mp hnodup
    -- Directed first, and not directed again later
    rcases List.mem_cons.mp hmem with rfl | hlater
    · refine (target?_directAll_of_notMem hfresh).trans ?_
      rw [target?_setTarget_of_hasExit (hexits _ List.mem_cons_self), if_pos rfl]
    · have hset := Extends.setTarget graph direct.1 (some direct.2)
      exact ih hnodup (fun later hmore => hset.hasExit (hexits later (List.mem_cons_of_mem _ hmore)))
        hlater

namespace Shift

variable {shift : Shift} {inlet : InletId} {zero source sum : Adder} {first second : EntryId}

/-- The wirings that make the constant: the adder `zero` is never fired, so what it is wired to only
counts as wired. -/
def priming (shift : Shift) (zero source sum : Adder) : List Rewiring :=
  match shift with
  | increment => [.connect source.left zero.outlet, .connect sum.right source.outlet,
      .direct source.other sum.entry]
  | decrement => [.connect source.right zero.outlet, .connect sum.right source.outlet,
      .direct source.other sum.entry]
  | assignment => [.connect sum.right source.outlet]

/-- The wirings of a shift, in the order in which they are carried out, but for its entry. -/
def wirings (shift : Shift) (zero source sum : Adder) (inlet : InletId) (outlet : OutletId)
    (first second : EntryId) : List Rewiring :=
  shift.priming zero source sum ++ [.feed inlet sum.left, .relay outlet sum.outlet,
    .direct sum.zero first, .direct sum.other second]

/-- The exits that the wirings of a shift direct, each with the entry to which it leads then. -/
def directs (shift : Shift) (source sum : Adder) (first second : EntryId) :
    List (ExitId × EntryId) :=
  (if shift.primes then [(source.other, sum.entry)] else []) ++
    [(sum.zero, first), (sum.other, second)]

/-- What the wirings of a shift keep together and apart: the two ports that show the constant, the
operand, and the outlet of the sum. -/
@[mk_iff]
structure Tie (source sum : Adder) (port other : Port) : Prop where
  constant : (port = .inlet sum.right ∨ port = .outlet source.outlet) ↔
    (other = .inlet sum.right ∨ other = .outlet source.outlet)
  operand : port = .inlet sum.left ↔ other = .inlet sum.left
  result : port = .outlet sum.outlet ↔ other = .outlet sum.outlet

namespace Tie

variable {port other third : Port}

theorem symm (h : Tie source sum port other) : Tie source sum other port :=
  ⟨h.constant.symm, h.operand.symm, h.result.symm⟩

theorem trans (h : Tie source sum port other) (h' : Tie source sum other third) :
    Tie source sum port third :=
  ⟨h.constant.trans h'.constant, h.operand.trans h'.operand, h.result.trans h'.result⟩

end Tie

/-- A composite that has got the adders of a shift, and no wires yet.  Through the entries `first`
and `second` the token leaves the composite by the exits for the result zero and for others. -/
structure Ready (shift : Shift) (graph : Graph) (composite : NodeId) (ports : Interface)
    (inlet : InletId) (zero source sum : Adder) (first second : EntryId) : Prop where
  built : Constructs {} graph
  pending : graph.Pending composite
  face : graph.faceOf? composite = some (shift.specification.identifier, ports)
  inlets : ports.inlets = [inlet]
  unfed : ∀ inner, ¬ graph.Feeds inlet inner
  zeroSpare : zero.Spare graph composite
  sourceSpare : source.Spare graph composite
  sumSpare : sum.Spare graph composite
  sourceSum : source.node ≠ sum.node
  zeroSum : zero.node ≠ sum.node
  zeroSource : shift.primes = true → zero.node ≠ source.node
  first : ∃ outer join record, ports.exits[shift.exit 0]? = some outer ∧
    graph.parentOf? join = some composite ∧ graph.node? join = some record ∧
      record.kind = .join first outer
  second : ∃ outer join record, ports.exits[shift.exit 1]? = some outer ∧
    graph.parentOf? join = some composite ∧ graph.node? join = some record ∧
      record.kind = .join second outer

namespace Ready

theorem lineage (h : shift.Ready graph composite ports inlet zero source sum first second) :
    graph.Lineage :=
  h.built.lineage .empty

theorem owned (h : shift.Ready graph composite ports inlet zero source sum first second) :
    graph.Owned :=
  h.built.owned .empty .empty

section

variable (h : shift.Ready graph composite ports inlet zero source sum first second)

include h

/-- Before the wirings, no port of these adders shares a cell with another. -/
theorem tie_of_sharesCell {port other : Port} (hshares : graph.SharesCell port other) :
    Tie source sum port other := by
  -- The two pins of the constant are each alone, so a port shares with one of them by being it
  have hforth {port other : Port} (hshares : graph.SharesCell port other)
      (hport : port = .inlet sum.right ∨ port = .outlet source.outlet) :
      other = .inlet sum.right ∨ other = .outlet source.outlet := by
    rcases hport with rfl | rfl
    · exact Or.inl (h.sumSpare.aloneRight hshares)
    · exact Or.inr (h.sourceSpare.aloneOutlet hshares)
  constructor
  case constant => exact ⟨hforth hshares, hforth hshares.symm⟩
  case operand =>
    constructor
    · rintro rfl
      exact h.sumSpare.aloneLeft hshares
    · rintro rfl
      exact h.sumSpare.aloneLeft hshares.symm
  case result =>
    constructor
    · rintro rfl
      exact h.sumSpare.aloneOutlet hshares
    · rintro rfl
      exact h.sumSpare.aloneOutlet hshares.symm

/-- The wirings tie nothing else together. -/
theorem tied_wirings : ∀ r ∈ shift.wirings zero source sum inlet ports.outlet first second,
    r.Tied (Tie source sum) := by
  have hdistinct := (h.sumSpare.distinct h.lineage h.owned).1
  have hsource := h.sourceSpare.apart h.sumSpare.toIn h.lineage h.sourceSum
  have hzero := (h.zeroSpare.apart h.sumSpare.toIn h.lineage h.zeroSum).outlet
  have hprimed (hprimes : shift.primes = true) : zero.outlet ≠ source.outlet :=
    (h.zeroSpare.apart h.sourceSpare.toIn h.lineage (h.zeroSource hprimes)).outlet
  have houtlet := hsource.outlet
  obtain ⟨⟨hleftLeft, hleftRight⟩, hrightLeft, hrightRight⟩ := hsource.inlets_ne
  -- The adders are different, so a flow touches the constant, the operand or the result only where
  -- both of its ends do
  cases shift with
  | assignment => simp [wirings, priming, Rewiring.Tied, tie_iff, hdistinct.symm, houtlet]
  | increment | decrement =>
    simp [wirings, priming, Rewiring.Tied, tie_iff, hdistinct.symm, hzero, hprimed rfl, houtlet,
      hleftLeft, hleftRight, hrightLeft, hrightRight]

variable {scheme : Scheme} (hbase : graph.HasScheme scheme)

include hbase

/-- The inlet of a shift feeds the adder that sums. -/
theorem feeds_iff {inner : InletId} :
    (scheme.applyAll (shift.wirings zero source sum inlet ports.outlet first second)).feeds inlet
      inner ↔ inner = sum.left := by
  have hold : ¬ scheme.feeds inlet inner := hbase.feeds ▸ h.unfed inner
  rw [Scheme.feeds_applyAll, or_iff_right hold]
  cases shift <;> simp [wirings, priming]

/-- The outlet of the sum is relayed, and that of the constant is not. -/
theorem relay?_eq :
    (scheme.applyAll (shift.wirings zero source sum inlet ports.outlet first second)).relay?
        sum.outlet = some ports.outlet ∧
      (scheme.applyAll (shift.wirings zero source sum inlet ports.outlet first second)).relay?
        source.outlet = none := by
  -- The wiring has one relay, from the sum to the outlet of the composite
  have hrelays (outer inner : OutletId) :
      .relay outer inner ∈ shift.wirings zero source sum inlet ports.outlet first second ↔
        outer = ports.outlet ∧ inner = sum.outlet := by
    cases shift <;> simp [wirings, priming]
  have hne := (h.sourceSpare.apart h.sumSpare.toIn h.lineage h.sourceSum).outlet
  constructor
  · rcases scheme.relay?_applyAll sum.outlet
      (shift.wirings zero source sum inlet ports.outlet first second) with
      ⟨outer, hmem, hlast⟩ | ⟨hnone, _⟩
    · rw [hlast, ((hrelays outer sum.outlet).mp hmem).1]
    · exact absurd ((hrelays _ _).mpr ⟨rfl, rfl⟩) (hnone ports.outlet)
  · rcases scheme.relay?_applyAll source.outlet
      (shift.wirings zero source sum inlet ports.outlet first second) with
      ⟨outer, hmem, _⟩ | ⟨_, hkept⟩
    · exact absurd ((hrelays outer source.outlet).mp hmem).2 hne
    · rw [hkept, ← hbase.relay?]
      exact h.sourceSpare.unrelayed

/-- The inlets of the adder that sums are wired, and those of the other one as the constant asks. -/
theorem wired_eq :
    let final := scheme.applyAll (shift.wirings zero source sum inlet ports.outlet first second)
    (final.partition.wired (.inlet source.left), final.partition.wired (.inlet source.right)) =
        shift.wires ∧
      final.partition.wired (.inlet sum.left) = true ∧
        final.partition.wired (.inlet sum.right) = true := by
  intro final
  have hdistinct := (h.sourceSpare.distinct h.lineage h.owned).1
  obtain ⟨⟨hleftLeft, hleftRight⟩, hrightLeft, hrightRight⟩ :=
    (h.sourceSpare.apart h.sumSpare.toIn h.lineage h.sourceSum).inlets_ne
  have hleft := h.sourceSpare.left
  have hright := h.sourceSpare.right
  have hleft' := h.sumSpare.left
  have hright' := h.sumSpare.right
  rw [hbase.represents.wired] at hleft hright hleft' hright'
  -- Nothing was marked before, so the marks are those of the wiring
  have hmarked {port : Port} (hold : scheme.partition.wired port = false) :
      final.partition.wired port = decide (∃ r ∈ shift.wirings zero source sum inlet ports.outlet
        first second, r.marked? = some port) := by
    rw [Bool.eq_iff_iff, decide_eq_true_iff, Scheme.wired_applyAll, hold]
    simp only [Bool.false_eq_true, false_or]
  rw [hmarked hleft, hmarked hright, hmarked hleft', hmarked hright']
  cases shift <;>
    simp [wirings, priming, Rewiring.marked?, wires, hdistinct, hdistinct.symm, Ne.symm hleftLeft,
      Ne.symm hleftRight, Ne.symm hrightLeft, Ne.symm hrightRight]

/-- Ports that share a class after the wirings. -/
theorem shares_iff :
    let final := scheme.applyAll (shift.wirings zero source sum inlet ports.outlet first second)
    (∀ port, final.partition.Shares (.inlet sum.right) port ↔
        port = .inlet sum.right ∨ port = .outlet source.outlet) ∧
      (∀ port, final.partition.Shares (.inlet sum.left) port ↔ port = .inlet sum.left) ∧
        ∀ port, final.partition.Shares (.outlet sum.outlet) port → port = .outlet sum.outlet := by
  intro final
  have hties : final.partition.Within (Tie source sum) :=
    (@Scheme.within_applyAll (Tie source sum) (fun _ _ => Tie.symm) (fun _ _ _ => Tie.trans) _
      scheme).mpr
      ⟨fun _ _ hshares => h.tie_of_sharesCell (hbase.represents.sharesCell_iff.mpr hshares),
        h.tied_wirings⟩
  -- Sharing a class afterwards ties whatever is wired
  have htied := ((@Scheme.within_applyAll final.partition.Shares
    (fun _ _ => Partition.Shares.symm) (fun _ _ _ => Partition.Shares.trans) _ scheme).mp
      fun _ _ => id).2
  have hconnect : final.partition.Shares (.inlet sum.right) (.outlet source.outlet) :=
    htied (.connect sum.right source.outlet) (by cases shift <;> simp [wirings, priming])
  have hfeed : final.partition.Shares (.inlet sum.left) (.inlet sum.left) :=
    htied (.feed inlet sum.left) (by simp [wirings])
  refine ⟨fun port => ⟨fun hshares => ?_, ?_⟩, fun port => ⟨fun hshares => ?_, ?_⟩,
    fun port hshares => ?_⟩
  · exact (hties _ _ hshares).constant.mp (Or.inl rfl)
  · rintro (rfl | rfl)
    · exact hconnect.trans hconnect.symm
    · exact hconnect
  · exact (hties _ _ hshares).operand.mp rfl
  · rintro rfl
    exact hfeed
  · exact (hties _ _ hshares).result.mp rfl

/-- Where the exits of the adders lead. -/
theorem target?_eq (hframe : graph'.frame =
      (scheme.applyAll (shift.wirings zero source sum inlet ports.outlet first second)).frame) :
    (shift.primes = true → graph'.target? source.other = some sum.entry) ∧
      graph'.target? sum.zero = some first ∧ graph'.target? sum.other = some second := by
  have hdistinct := (h.sumSpare.distinct h.lineage h.owned).2
  obtain ⟨_, hotherZero, hotherOther⟩ :=
    (h.sourceSpare.apart h.sumSpare.toIn h.lineage h.sourceSum).exits_ne
  -- The cells and wires of data ports are of no concern for the exits
  have hdirects : (shift.wirings zero source sum inlet ports.outlet first second).filter
      (fun r => !r.isData) = (shift.directs source sum first second).map fun d => .direct d.1 d.2 := by
    cases shift <;> rfl
  have htargets : graph'.target? =
      (scheme.frame.directAll (shift.directs source sum first second)).target? := by
    rw [directAll_eq, ← hdirects, ← Scheme.frame_applyAll, ← hframe]
    rfl
  have hnodup : ((shift.directs source sum first second).map Prod.fst).Nodup := by
    cases shift <;> simp [directs, primes, hotherZero, hotherOther, hdistinct]
  have hexits : ∀ direct ∈ shift.directs source sum first second,
      scheme.frame.HasExit direct.1 := by
    have hissued {exit : ExitId} {owner : NodeId} (howner : graph.exitOwner? exit = some owner) :
        scheme.frame.HasExit exit := by
      obtain ⟨record, hrecord, _⟩ := Option.map_eq_some_iff.mp howner
      rw [← hbase.frame]
      exact (Array.getElem?_eq_some_iff.mp hrecord).1
    have hsource := hissued (h.sourceSpare.otherOwner h.lineage)
    have hzero := hissued (h.sumSpare.zeroOwner h.lineage)
    have hother := hissued (h.sumSpare.otherOwner h.lineage)
    cases shift <;> simp [directs, primes, hsource, hzero, hother]
  rw [htargets]
  refine ⟨fun hprimes => ?_, ?_, ?_⟩
  · exact target?_directAll hnodup hexits (by simp [directs, hprimes])
  · exact target?_directAll hnodup hexits (by simp [directs])
  · exact target?_directAll hnodup hexits (by simp [directs])

end

/-- **A shift that has got its adders has its layout when it is wired and has exposed its entry.** -/
theorem layout (h : shift.Ready graph composite ports inlet zero source sum first second)
    {scheme : Scheme} (hbase : graph.HasScheme scheme)
    (hscheme : graph'.HasScheme
      (scheme.applyAll (shift.wirings zero source sum inlet ports.outlet first second)))
    (hnodes : graph'.nodes = graph.nodes) :
    shift.Layout (graph'.setEntry composite (shift.first source sum).entry) composite
      { ports with entry := some (shift.first source sum).entry } inlet source sum := by
  -- An exposed entry is in the record of the composite only, so parts and joins are as before
  have hpart {node : NodeId} (hparent : graph.parentOf? node = some composite) :
      (graph'.setEntry composite (shift.first source sum).entry).node? node = graph.node? node := by
    have hne : node ≠ composite := by
      rintro rfl
      exact Nat.lt_irrefl _ (h.lineage.above hparent).1
    rw [node?_setEntry_of_ne hne]
    exact congrArg (·[node.index]?) hnodes
  have hreturns {exit outer : ExitId} {entry : EntryId} {join : NodeId} {record : Node}
      (hjoin : graph.parentOf? join = some composite) (hrecord : graph.node? join = some record)
      (hkind : record.kind = .join entry outer) (htarget : graph'.target? exit = some entry) :
      (graph'.setEntry composite (shift.first source sum).entry).Returns composite exit outer := by
    refine ⟨join, record, entry, ?_, (hpart hjoin).trans hrecord, hkind, htarget⟩
    unfold parentOf? at hjoin ⊢
    rw [hpart hjoin]
    exact hjoin
  -- What the wiring has made of the flows, in terms of the scheme
  obtain ⟨hprimed, hzero, hother⟩ := h.target?_eq hbase hscheme.frame
  obtain ⟨hrelay, hunrelayed⟩ := h.relay?_eq hbase
  obtain ⟨hconstant, hwired⟩ := h.wired_eq hbase
  obtain ⟨hreads, hoperand, hresult⟩ := h.shares_iff hbase
  have hshares {port other : Port} := @Represents.sharesCell_iff graph' _ port other
    hscheme.represents
  constructor
  case face =>
    have hface : graph'.faceOf? composite = graph.faceOf? composite := by
      unfold faceOf? Graph.node?
      rw [hnodes]
    exact faceOf?_setEntry (hface.trans h.face) _
  case inlets => exact h.inlets
  case entry => rfl
  case sourceIn => exact h.sourceSpare.of_node?_eq (hpart h.sourceSpare.parent)
  case sumIn => exact h.sumSpare.of_node?_eq (hpart h.sumSpare.parent)
  case feeds =>
    intro inner
    rw [← h.feeds_iff hbase, ← hscheme.feeds]
    rfl
  case relay => exact (congrFun hscheme.relay? sum.outlet).trans hrelay
  case unrelayed => exact (congrFun hscheme.relay? source.outlet).trans hunrelayed
  case primed => exact hprimed
  case zero =>
    obtain ⟨outer, join, record, houter, hjoin, hrecord, hkind⟩ := h.first
    exact ⟨outer, houter, hreturns hjoin hrecord hkind hzero⟩
  case other =>
    obtain ⟨outer, join, record, houter, hjoin, hrecord, hkind⟩ := h.second
    exact ⟨outer, houter, hreturns hjoin hrecord hkind hother⟩
  case constant =>
    rw [← hconstant, ← hscheme.represents.wired, ← hscheme.represents.wired]
    rfl
  case wired =>
    rw [← hscheme.represents.wired, ← hscheme.represents.wired] at hwired
    exact hwired
  case reads => exact fun port => hshares.trans (hreads port)
  case operand => exact fun port => hshares.trans (hoperand port)
  case result => exact fun port hold => hresult port (hshares.mp hold)

end Ready

end Shift

end TokenNet
