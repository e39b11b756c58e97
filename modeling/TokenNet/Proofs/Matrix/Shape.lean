import TokenNet.Proofs.Flow.Flat
import TokenNet.Proofs.Graph.Retains
import TokenNet.Proofs.Matrix.Toggles
import TokenNet.Proofs.Table

/-!
# The shape of a strip of bits

The graph of a bit matrix is a strip: the frame of the root with its two joins, and behind it one
bit after another, each with an inlet, an outlet, an entry and two exits.  So the handles of a bit
can be read off its number.

The *shape* of a strip is what its records say.  This module says what each step by which a strip
grows or changes does to its shape.

## Main statements

- `bitRole_injective`, `split_bitRole`: roles of bits are different paths of one step.
- `Shape.addBit`, `Shape.connect`, `Shape.setTarget`, `Shape.setEntry`: how a strip grows.
- `Shape.modifyBit`: how its bits change.
-/

namespace TokenNet

/-! ## Roles -/

theorem Text.fields_of_notMem {separator : Char} : ∀ {text : List Char}, separator ∉ text →
    Text.fields separator text = [text]
  | [], _ => rfl
  | c :: rest, h => by
    have hrest := fields_of_notMem (List.not_mem_of_not_mem_cons h)
    have hc : c ≠ separator := fun hsame => h (hsame ▸ List.mem_cons_self)
    unfold fields
    rw [if_neg hc, hrest]

namespace Matrix

/-! ## Roles of bits -/

theorem toList_bitRole (bit : Nat) : (bitRole bit).toList = '!' :: '_' :: Nat.toDigits 10 bit := by
  unfold bitRole
  rw [Nat.toString_eq_ofList_toDigits]
  simp [Primitive.identifier]

theorem bitRole_injective {bit other : Nat} (h : bitRole bit = bitRole other) : bit = other :=
  numbered_injective _ h

/-- The role of a bit is a path of one step. -/
theorem split_bitRole (bit : Nat) : Text.split '/' (bitRole bit) = [bitRole bit] := by
  have hnot : '/' ∉ (bitRole bit).toList := by
    rw [toList_bitRole]
    intro hmem
    have hdigit : '/' ∈ Nat.toDigits 10 bit := by simpa using hmem
    have hfalse := Nat.isDigit_of_mem_toDigits (by decide) (by decide) hdigit
    exact absurd hfalse (by decide)
  unfold Text.split
  rw [Text.fields_of_notMem hnot]
  simp

/-! ## Handles -/

/-- The node of a bit. -/
def bitNode (bit : Nat) : NodeId := ⟨bit + 3⟩

/-- The inlet of a bit. -/
def bitInlet (bit : Nat) : InletId := ⟨bit⟩

/-- The outlet of a bit. -/
def bitOutlet (bit : Nat) : OutletId := ⟨bit + 1⟩

/-- The entry of a bit. -/
def bitEntry (bit : Nat) : EntryId := ⟨bit + 2⟩

/-- The exit of a column: bit k that has become b fires that of column 2k + b. -/
def bitExit (column : Nat) : ExitId := ⟨column + 2⟩

theorem bitNode_inj {bit other : Nat} : bitNode bit = bitNode other ↔ bit = other := by
  simp [bitNode]

theorem bitEntry_inj {bit other : Nat} : bitEntry bit = bitEntry other ↔ bit = other := by
  simp [bitEntry]

theorem bitExit_inj {column other : Nat} : bitExit column = bitExit other ↔ column = other := by
  simp [bitExit]

/-- The root comes before all bits. -/
theorem bitNode_ne_root (bit : Nat) : bitNode bit ≠ ⟨0⟩ := by
  simp [bitNode]

/-- The ports of a bit. -/
def bitPorts (bit : Nat) (register : Value) (calls : UInt32) : Interface where
  inlets := [bitInlet bit]
  outlet := bitOutlet bit
  entry := some (bitEntry bit)
  exits := [bitExit (2 * bit), bitExit (2 * bit + 1)]
  register
  calls

/-- How a strip is wired. -/
structure Plan where
  /-- The number of bits. -/
  count : Nat
  /-- The bit to which each column leads. -/
  lead : Nat → Option Nat
  /-- The bit at which the token enters. -/
  first : Option Nat

/-! ## Shapes -/

/-- The records of a strip of bits that show and count what is given. -/
structure Shape (graph : Graph) (plan : Plan) (toggles : Toggles) : Prop where
  root : ∃ record ports parts, graph.node? ⟨0⟩ = some record ∧
    record.kind = .composite ports parts ∧ ports.entry = plan.first.map bitEntry ∧
    ∀ bit, parts.get? (bitRole bit) = if bit < plan.count then some (bitNode bit) else none
  bit : ∀ bit < plan.count, ∃ record calls, graph.node? (bitNode bit) = some record ∧
    record.kind = .native .bit (bitPorts bit (toggles.bits bit) calls) ∧
    calls.toNat = toggles.calls bit
  admitted : ∀ bit < plan.count, graph.admitted? (bitEntry bit) = some (bitNode bit)
  target : ∀ column < 2 * plan.count,
    graph.target? (bitExit column) = (plan.lead column).map bitEntry
  nodes : graph.nodes.size = plan.count + 3
  inlets : graph.inlets.size = plan.count
  outlets : graph.outlets.size = plan.count + 1
  entries : graph.entries.size = plan.count + 2
  exits : graph.exits.size = 2 * plan.count + 2
  flat : graph.Flat

namespace Shape

variable {graph graph' : Graph} {plan : Plan} {toggles toggles' : Toggles}

/-- Feeds and relays are not affected by marks and cells. -/
theorem of_records (h : Shape graph plan toggles) (hnodes : graph'.nodes = graph.nodes)
    (hentries : graph'.entries = graph.entries) (hexits : graph'.exits = graph.exits)
    (hinlets : graph'.inlets.map Inlet.feeds = graph.inlets.map Inlet.feeds)
    (houtlets : graph'.outlets.map Outlet.relay = graph.outlets.map Outlet.relay) :
    Shape graph' plan toggles := by
  -- All that is looked up is looked up in records that are the same
  have hnode : graph'.node? = graph.node? := by
    unfold Graph.node?
    rw [hnodes]
  have hadmitted : graph'.admitted? = graph.admitted? := by
    unfold Graph.admitted?
    rw [hentries]
  have htarget : graph'.target? = graph.target? := by
    unfold Graph.target? Graph.exit?
    rw [hexits]
  constructor
  · rw [hnode]
    exact h.root
  · rw [hnode]
    exact h.bit
  · rw [hadmitted]
    exact h.admitted
  · rw [htarget]
    exact h.target
  · rw [hnodes]
    exact h.nodes
  -- Arrays with equal images are equally long
  · have hsize := congrArg Array.size hinlets
    rw [Array.size_map, Array.size_map] at hsize
    exact hsize.trans h.inlets
  · have hsize := congrArg Array.size houtlets
    rw [Array.size_map, Array.size_map] at hsize
    exact hsize.trans h.outlets
  · rw [hentries]
    exact h.entries
  · rw [hexits]
    exact h.exits
  -- What a record feeds or relays was fed or relayed by one of the old records
  · refine ⟨fun record hrecord => ?_, fun record hrecord => ?_⟩
    · obtain ⟨old, hold, hsame⟩ := Array.mem_map.mp
        (hinlets ▸ Array.mem_map_of_mem hrecord : record.feeds ∈ graph.inlets.map Inlet.feeds)
      exact hsame.symm.trans (h.flat.feeds old hold)
    · obtain ⟨old, hold, hsame⟩ := Array.mem_map.mp
        (houtlets ▸ Array.mem_map_of_mem hrecord : record.relay ∈ graph.outlets.map Outlet.relay)
      exact hsame.symm.trans (h.flat.relay old hold)

/-- Cells are no part of a shape. -/
theorem of_bare_eq (h : Shape graph plan toggles) (hbare : graph'.bare = graph.bare) :
    Shape graph' plan toggles := by
  refine h.of_records (congrArg Graph.nodes hbare :) (congrArg Graph.entries hbare :)
    (congrArg Graph.exits hbare :) ?_ ?_
  · have hinlets := congrArg (fun g => g.inlets.map Inlet.feeds) hbare
    simp only [Graph.bare, Array.map_map] at hinlets
    exact hinlets
  · have houtlets := congrArg (fun g => g.outlets.map Outlet.relay) hbare
    simp only [Graph.bare, Array.map_map] at houtlets
    exact houtlets

/-- Wiring an outlet into an inlet only marks the inlet. -/
theorem connect (h : Shape graph plan toggles) (inlet : InletId) (outlet : OutletId) :
    Shape (graph.connect inlet outlet) plan toggles := by
  have hmark : ∀ record : Inlet, Inlet.feeds { record with wired := true } = record.feeds :=
    fun _ => rfl
  have hmarked : Shape (graph.markInlet inlet) plan toggles :=
    h.of_records rfl rfl rfl (map_modify_eq graph.inlets inlet.index hmark) rfl
  refine hmarked.of_bare_eq ?_
  rw [Graph.bare_connect, Graph.bare_markInlet]

/-- An exit of a bit may be led to a bit. -/
theorem setTarget (h : Shape graph plan toggles) {column : Nat} (hcolumn : column < 2 * plan.count)
    (row : Nat) : Shape (graph.setTarget (bitExit column) (some (bitEntry row)))
      { plan with lead := Function.update plan.lead column (some row) } toggles := by
  have hexit : graph.HasExit (bitExit column) := by
    change column + 2 < graph.exits.size
    rw [h.exits]
    omega
  refine { h with target := fun other hother => ?_, exits := ?_, flat := h.flat.of_eq rfl rfl }
  -- The column gets the row, and every other column keeps its lead
  · change _ = (Function.update plan.lead column (some row) other).map bitEntry
    rw [Graph.target?_setTarget_of_hasExit hexit, Function.update_apply]
    by_cases hsame : other = column
    · simp [hsame]
    · rw [if_neg (mt bitExit_inj.mp hsame), if_neg hsame]
      exact h.target other hother
  · exact (Array.size_modify ..).trans h.exits

/-- What changes in the interface of a bit shows in the bits. -/
theorem modifyBit (h : Shape graph plan toggles) (bit : Nat) {change : Interface → Interface}
    (hchange : ∀ calls, calls.toNat = toggles.calls bit → ∃ calls',
      change (bitPorts bit (toggles.bits bit) calls) = bitPorts bit (toggles'.bits bit) calls' ∧
        calls'.toNat = toggles'.calls bit)
    (hother : ∀ other, other ≠ bit → toggles'.bits other = toggles.bits other ∧
      toggles'.calls other = toggles.calls other) :
    Shape (graph.modifyNode (bitNode bit) (Node.modifyInterface change)) plan toggles' := by
  refine { h with
    root := ?_, bit := fun other hlt => ?_, nodes := ?_, flat := h.flat.of_eq rfl rfl }
  · rw [Graph.node?_modifyNode, if_neg (bitNode_ne_root bit).symm]
    exact h.root
  · obtain ⟨record, calls, hrecord, hkind, hcalls⟩ := h.bit other hlt
    rw [Graph.node?_modifyNode, hrecord]
    by_cases hsame : other = bit
    · subst hsame
      -- The register and the counter are what the plan does not say
      obtain ⟨calls', hports, hcalls'⟩ := hchange calls hcalls
      refine ⟨_, calls', if_pos rfl, ?_, hcalls'⟩
      simp [Node.modifyInterface, hkind, hports]
    · obtain ⟨hbits, hcounts⟩ := hother other hsame
      rw [hbits, hcounts]
      exact ⟨record, calls, if_neg (mt bitNode_inj.mp hsame), hkind, hcalls⟩
  · exact (Array.size_modify ..).trans h.nodes

/-- The token may enter at a bit. -/
theorem setEntry (h : Shape graph plan toggles) (bit : Nat) :
    Shape (graph.setEntry ⟨0⟩ (bitEntry bit)) { plan with first := some bit } toggles := by
  unfold Graph.setEntry
  refine { h with
    root := ?_, bit := fun other hlt => ?_, nodes := ?_, flat := h.flat.of_eq rfl rfl }
  · obtain ⟨record, ports, parts, hrecord, hkind, _, hparts⟩ := h.root
    rw [Graph.node?_modifyNode, hrecord]
    exact ⟨_, { ports with entry := some (bitEntry bit) }, parts, if_pos rfl,
      by simp [Node.modifyInterface, hkind], rfl, hparts⟩
  · rw [Graph.node?_modifyNode, if_neg (bitNode_ne_root other)]
    exact h.bit other hlt
  · exact (Array.size_modify ..).trans h.nodes

/-- The role of the next bit is given to the next node. -/
theorem get?_insert_bitRole {parts : Table NodeId} {count : Nat}
    (hparts : ∀ bit, parts.get? (bitRole bit) = if bit < count then some (bitNode bit) else none)
    (bit : Nat) : (parts.insert (bitRole count) (bitNode count)).get? (bitRole bit) =
      if bit < count + 1 then some (bitNode bit) else none := by
  rw [Table.get?_insert, hparts]
  by_cases hsame : bit = count
  · simp [hsame]
  · rw [if_neg (mt bitRole_injective hsame)]
    exact if_congr (by omega) rfl rfl

/-- Behind the bits of a strip there is no column. -/
theorem target?_of_le (h : Shape graph plan toggles) {column : Nat}
    (hcolumn : 2 * plan.count ≤ column) : graph.target? (bitExit column) = none := by
  have hbeyond : graph.exits.size ≤ column + 2 := by
    rw [h.exits]
    omega
  unfold Graph.target? Graph.exit? bitExit
  rw [Array.getElem?_eq_none hbeyond]
  rfl

/-- **A strip grows by a bit**: the next native node, with the next role. -/
theorem addBit (h : Shape graph plan toggles)
    (hlead : ∀ column, 2 * plan.count ≤ column → plan.lead column = none)
    (hbits : toggles.bits plan.count = 0) (hcalls : toggles.calls plan.count = 0)
    (specification : String) (traced : Bool) :
    (graph.addNative .bit specification traced).1 = bitNode plan.count ∧
      Shape ((graph.addNative .bit specification traced).2.adopt ⟨0⟩ (bitRole plan.count)
        (bitNode plan.count)) { plan with count := plan.count + 1 } toggles := by
  have hfirst : (⟨graph.nodes.size⟩ : NodeId) = bitNode plan.count := congrArg NodeId.mk h.nodes
  have hentry : (⟨graph.entries.size⟩ : EntryId) = bitEntry plan.count :=
    congrArg EntryId.mk h.entries
  have hports : graph.nativePorts .bit = bitPorts plan.count (toggles.bits plan.count) 0 := by
    -- The new bit takes the next number of every kind
    simp [Graph.nativePorts, bitPorts, Primitive.inletCount, Primitive.exitCount, List.range_succ,
      bitInlet, bitOutlet, bitEntry, bitExit, h.inlets, h.outlets, h.entries, h.exits, hbits]
  have hnode := graph.node?_addNative .bit specification traced
  have hadmitted := graph.admitted?_addNative .bit specification traced
  have htarget := graph.target?_addNative .bit specification traced
  have hnodes := congrArg Array.size (graph.nodes_addNative .bit specification traced)
  have hentries := congrArg Array.size (graph.entries_addNative .bit specification traced)
  have hexits := congrArg Array.size (graph.exits_addNative .bit specification traced)
  have hinlets := graph.size_inlets_addNative .bit specification traced
  have houtlets := graph.size_outlets_addNative .bit specification traced
  have hflat := h.flat.addNative .bit specification traced
  rw [hfirst, hports] at hnode
  rw [hfirst, hentry] at hadmitted
  simp only [Array.size_push] at hnodes hentries hexits
  refine ⟨hfirst, ?_⟩
  -- Only what was read off the new node matters from here on
  generalize (graph.addNative .bit specification traced).2 = grown at *
  constructor
  case root =>
    obtain ⟨record, ports, parts, hrecord, hkind, hfirst, hparts⟩ := h.root
    have hroot := (bitNode_ne_root plan.count).symm
    refine ⟨record.addPart (bitRole plan.count) (bitNode plan.count), ports,
      parts.insert (bitRole plan.count) (bitNode plan.count), ?_, ?_, hfirst,
      get?_insert_bitRole hparts⟩
    -- The frame lists the new bit as well
    · rw [Graph.adopt, Graph.node?_modifyNode, if_pos rfl, Graph.node?_modifyNode, if_neg hroot,
        hnode, if_neg hroot, hrecord]
      rfl
    · simp [Node.addPart, hkind]
  case bit =>
    intro bit hlt
    have hbit := bitNode_ne_root bit
    rw [Graph.adopt, Graph.node?_modifyNode, if_neg hbit, Graph.node?_modifyNode, hnode]
    -- An old bit is untouched, and the new one starts with a register and a counter of zero
    rcases Nat.lt_succ_iff_lt_or_eq.mp hlt with hbefore | rfl
    · have hne := mt bitNode_inj.mp hbefore.ne
      rw [if_neg hne, if_neg hne]
      exact h.bit bit hbefore
    · rw [if_pos rfl, if_pos rfl]
      exact ⟨_, 0, rfl, rfl, hcalls.symm⟩
  case admitted =>
    intro bit hlt
    refine (hadmitted (bitEntry bit)).trans ?_
    rcases Nat.lt_succ_iff_lt_or_eq.mp hlt with hbefore | rfl
    · rw [if_neg (mt bitEntry_inj.mp hbefore.ne)]
      exact h.admitted bit hbefore
    · exact if_pos rfl
  case target =>
    intro column _
    refine (htarget (bitExit column)).trans ?_
    by_cases hbefore : column < 2 * plan.count
    · exact h.target column hbefore
    -- The exits of the new bit lead nowhere yet
    · rw [h.target?_of_le (by omega), hlead column (by omega)]
      rfl
  case nodes =>
    change ((grown.nodes.modify _ _).modify _ _).size = _
    rw [Array.size_modify, Array.size_modify, hnodes, h.nodes]
  case inlets => exact hinlets.trans (congrArg (· + 1) h.inlets)
  case outlets => exact houtlets.trans (congrArg (· + 1) h.outlets)
  case entries => exact hentries.trans (congrArg (· + 1) h.entries)
  case exits => exact hexits.trans (congrArg (· + 1 + 1) h.exits)
  case flat => exact hflat.of_eq rfl rfl

/-- A strip begins as the frame of the root, behind which no bit stands yet. -/
theorem addComposite (specification : String) (traced : Bool) (toggles : Toggles) :
    (({} : Graph).addComposite specification 0 2 traced).1 = ⟨0⟩ ∧
      Shape (({} : Graph).addComposite specification 0 2 traced).2 ⟨0, fun _ => none, none⟩
        toggles := by
  refine ⟨rfl, ⟨⟨_, _, {}, rfl, rfl, rfl, fun _ => rfl⟩, ?_, ?_, ?_, rfl, rfl, rfl, rfl, rfl, ?_⟩⟩
  · rintro bit ⟨⟩
  · rintro bit ⟨⟩
  · rintro column ⟨⟩
  · have hempty : ({} : Graph).Flat := ⟨by simp, by simp⟩
    exact (hempty.of_sprouts (.addOwnOutlet ⟨0⟩ {})).of_eq rfl rfl

/-! ### Reading a shape -/

theorem part? (h : Shape graph plan toggles) (bit : Nat) : graph.part? ⟨0⟩ (bitRole bit) =
    if bit < plan.count then some (bitNode bit) else none := by
  obtain ⟨record, ports, parts, hrecord, hkind, _, hparts⟩ := h.root
  rw [← hparts]
  simp [Graph.part?, hrecord, Node.part?, Node.parts?, hkind]

theorem interface? (h : Shape graph plan toggles) {bit : Nat} (hbit : bit < plan.count) :
    ∃ calls, graph.interface? (bitNode bit) = some (bitPorts bit (toggles.bits bit) calls) ∧
      calls.toNat = toggles.calls bit := by
  obtain ⟨record, calls, hrecord, hkind, hcalls⟩ := h.bit bit hbit
  exact ⟨calls, by simp [Graph.interface?, hrecord, Node.interface?, hkind], hcalls⟩

theorem entryOf? (h : Shape graph plan toggles) {bit : Nat} (hbit : bit < plan.count) :
    graph.entryOf? (bitNode bit) = some (bitEntry bit) := by
  obtain ⟨record, calls, hrecord, hkind, _⟩ := h.bit bit hbit
  simp [Graph.entryOf?, hrecord, Node.entry?, hkind, bitPorts]

theorem rootEntry? (h : Shape graph plan toggles) :
    (graph.interface? ⟨0⟩).bind Interface.entry = plan.first.map bitEntry := by
  obtain ⟨record, ports, parts, hrecord, hkind, hentry, _⟩ := h.root
  simp [Graph.interface?, hrecord, Node.interface?, hkind, hentry]

/-- Only the columns of bits count. -/
theorem lead_congr (h : Shape graph plan toggles) {lead : Nat → Option Nat}
    (hlead : ∀ column < 2 * plan.count, lead column = plan.lead column) :
    Shape graph { plan with lead } toggles :=
  { h with
    target := fun column hcolumn => (h.target column hcolumn).trans
      (congrArg (Option.map bitEntry) (hlead column hcolumn).symm) }

theorem hasPort_inlet (h : Shape graph plan toggles) {bit : Nat} (hbit : bit < plan.count) :
    graph.HasPort (.inlet (bitInlet bit)) :=
  hbit.trans_eq h.inlets.symm

theorem hasPort_outlet (h : Shape graph plan toggles) {bit : Nat} (hbit : bit < plan.count) :
    graph.HasPort (.outlet (bitOutlet bit)) :=
  (Nat.succ_lt_succ hbit).trans_eq h.outlets.symm

end Shape

end Matrix

end TokenNet
