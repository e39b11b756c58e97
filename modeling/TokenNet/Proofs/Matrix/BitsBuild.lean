import TokenNet.Proofs.Change.Replay
import TokenNet.Proofs.Matrix.Strip

/-!
# The build of a bit matrix

The specification of a bit matrix makes its bits row by row, wires each to itself, and leads the
columns to the rows in which they are marked.  What is built is a strip in which each column leads
to the last of its marked rows, because a later edge takes the place of an earlier one.  An edge of
a column that no bit stands for is skipped.

## Main statements

- `replayOrder_bits`: the order in which the directives of a bit matrix are carried out.
- `bitsNetwork_eq_ok`: the network of a bit matrix is a strip that leads where the matrix says.
-/

namespace TokenNet

namespace Matrix

/-! ## The order of the directives -/

/-- The directive that makes a bit. -/
def bitPart (bit : Nat) : Directive := .part Primitive.bit.identifier (bitRole bit)

/-- The directive that wires a bit to itself. -/
def bitLoop (bit : Nat) : Directive := .dataFlow (bitRole bit) (bitRole bit) 0

/-- The directive that leads a column to the bit of a row. -/
def bitEdge (row column : Nat) : Directive :=
  .controlFlow (bitRole (column / 2)) (column % 2) (bitRole row)

theorem filter_bitDirectives (rows : List Nat) (phase : Phase) :
    (rows.flatMap bitDirectives).filter (fun directive => directive.phase = phase) =
      match phase with
      | .parts => rows.map bitPart
      | .flow => rows.map bitLoop
      | _ => [] := by
  rw [List.filter_flatMap]
  induction rows with
  | nil => cases phase <;> rfl
  | cons row rest ih =>
    rw [List.flatMap_cons, ih]
    cases phase <;> rfl

theorem phase_of_mem_bitEdges {matrix : Matrix} {rows : List Nat} {directive : Directive}
    (h : directive ∈ rows.flatMap (bitEdges matrix)) : directive.phase = .flow := by
  obtain ⟨row, _, hrow⟩ := List.mem_flatMap.mp h
  obtain ⟨column, _, rfl⟩ := List.mem_map.mp hrow
  rfl

theorem filter_bitEdges (matrix : Matrix) (rows : List Nat) (phase : Phase) :
    (rows.flatMap (bitEdges matrix)).filter (fun directive => directive.phase = phase) =
      if phase = .flow then rows.flatMap (bitEdges matrix) else [] := by
  split
  next hflow =>
    rw [List.filter_eq_self]
    intro directive hmem
    simp [phase_of_mem_bitEdges hmem, hflow]
  next hother =>
    rw [List.filter_eq_nil_iff]
    intro directive hmem
    simpa [phase_of_mem_bitEdges hmem] using Ne.symm hother

/-- The bits are made first, then wired to themselves, then to each other; at last the token is let
in. -/
theorem replayOrder_bits (matrix : Matrix) (rows : List Nat) :
    Directive.replayOrder (rows.flatMap bitDirectives ++ rows.flatMap (bitEdges matrix) ++
      [.exposeEntry (bitRole 0)]) =
    rows.map bitPart ++ (rows.map bitLoop ++ rows.flatMap (bitEdges matrix) ++
      [.exposeEntry (bitRole 0)]) := by
  simp only [Directive.replayOrder, Phase.all, List.flatMap_cons, List.flatMap_nil,
    List.filter_append, filter_bitDirectives, filter_bitEdges]
  simp [Directive.phase]

variable {draft : Draft} {plan : Plan} {looped : Nat} {toggles : Toggles}

theorem findPart_bitRole (h : Shape draft.graph plan toggles) {bit : Nat}
    (hbit : bit < plan.count) (name : String) :
    Directive.findPart draft.graph ⟨0⟩ name (bitRole bit) = .ok (bitNode bit) := by
  unfold Directive.findPart
  rw [h.part?, if_pos hbit]

/-- A bit can be wired to itself. -/
theorem Strip.rewire_bitLoop (h : Strip draft.graph plan looped toggles) (hlt : looped < plan.count)
    (name : String) :
    Strip (draft.rewire ⟨0⟩ name (bitLoop looped)).graph plan (looped + 1) toggles := by
  obtain ⟨calls, hports, _⟩ := h.shape.interface? hlt
  have hresolve : (bitLoop looped).resolve draft.graph ⟨0⟩ name =
      .ok (some (.connect (bitInlet looped) (bitOutlet looped))) := by
    simp [bitLoop, Directive.resolve, findPart_bitRole h.shape hlt, Directive.both,
      Directive.inletsOf, hports, bitPorts, Directive.findPort, bind, Except.bind, pure,
      Except.pure]
  rw [Draft.graph_rewire hresolve]
  exact ⟨h.shape.connect _ _,
    h.wires.connect (h.shape.hasPort_inlet hlt) (h.shape.hasPort_outlet hlt)⟩

/-- An edge leads its column to its row, in place of where it led before. -/
theorem Strip.rewire_bitEdge (h : Strip draft.graph plan looped toggles) {row : Nat}
    (hrow : row < plan.count) (column : Nat) (name : String) :
    Strip (draft.rewire ⟨0⟩ name (bitEdge row column)).graph
      { plan with lead := Function.update plan.lead column (some row) } looped toggles := by
  -- Exits are looked up by columns, two for each bit
  by_cases hcolumn : column < 2 * plan.count
  · have hbit : column / 2 < plan.count := by omega
    obtain ⟨calls, hports, _⟩ := h.shape.interface? hbit
    have hexits : (bitPorts (column / 2) (toggles.bits (column / 2)) calls).exits[column % 2]? =
        some (bitExit column) := by
      -- Column 2k + b is exit b of bit k
      have hsplit : 2 * (column / 2) + column % 2 = column := Nat.div_add_mod column 2
      rcases Nat.mod_two_eq_zero_or_one column with hzero | hone
      · rw [hzero] at hsplit ⊢
        exact congrArg (some ∘ bitExit) hsplit
      · rw [hone] at hsplit ⊢
        exact congrArg (some ∘ bitExit) hsplit
    have hresolve : (bitEdge row column).resolve draft.graph ⟨0⟩ name =
        .ok (some (.direct (bitExit column) (bitEntry row))) := by
      simp [bitEdge, Directive.resolve, findPart_bitRole h.shape hbit,
        findPart_bitRole h.shape hrow, Directive.both, Directive.exitsOf, hports, hexits,
        Directive.findPort, Directive.findEntry, h.shape.entryOf? hrow, bind, Except.bind, pure,
        Except.pure]
    rw [Draft.graph_rewire hresolve]
    exact ⟨h.shape.setTarget hcolumn row, h.wires.of_same (.of_eq rfl rfl rfl)⟩
  · -- The column belongs to no bit, so the edge is skipped
    have hbit : ¬ column / 2 < plan.count := by omega
    have hresolve : (bitEdge row column).resolve draft.graph ⟨0⟩ name =
        .error [.unknownRole name (bitRole (column / 2))] := by
      have hnone : Directive.findPart draft.graph ⟨0⟩ name (bitRole (column / 2)) =
          .error [.unknownRole name (bitRole (column / 2))] := by
        unfold Directive.findPart
        rw [h.shape.part?, if_neg hbit]
      simp [bitEdge, Directive.resolve, hnone, findPart_bitRole h.shape hrow, Directive.both, bind,
        Except.bind]
    rw [Draft.graph_rewire_of_error hresolve]
    refine ⟨h.shape.lead_congr fun other hother => ?_, h.wires⟩
    exact Function.update_of_ne (by omega) _ _

/-- The first bits are wired to themselves. -/
theorem Strip.rewireAll_bitLoops (h : Strip draft.graph plan 0 toggles) (name : String) :
    ∀ {count : Nat}, count ≤ plan.count →
      Strip (draft.rewireAll ⟨0⟩ name ((List.range count).map bitLoop)).graph plan count toggles
  | 0, _ => h
  | count + 1, hle => by
    have hbefore := h.rewireAll_bitLoops name (Nat.le_of_succ_le hle)
    rw [List.range_succ, List.map_append, Draft.rewireAll_append]
    exact hbefore.rewire_bitLoop hle name

variable {count : Nat} {first : Option Nat}

/-- The edges of one row lead their columns to it. -/
theorem Strip.rewireAll_bitEdge {row : Nat} (hrow : row < count) (name : String) :
    ∀ (columns : List Nat) {draft : Draft} {lead : Nat → Option Nat},
      Strip draft.graph ⟨count, lead, first⟩ looped toggles →
      Strip (draft.rewireAll ⟨0⟩ name (columns.map (bitEdge row))).graph
        ⟨count, fun column => if column ∈ columns then some row else lead column, first⟩
        looped toggles
  | [], _, _, h => h
  | column :: rest, draft, lead, h => by
    have hfirst := h.rewire_bitEdge hrow column name
    have hrest := Strip.rewireAll_bitEdge hrow name rest hfirst
    -- The last edge drawn to a column is the one that counts, and all lead to the same row
    refine ⟨hrest.shape.lead_congr fun other _ => ?_, hrest.wires⟩
    change _ = if other ∈ rest then some row else Function.update lead column (some row) other
    rw [Function.update_apply]
    by_cases hsame : other = column <;> simp [hsame]

/-- After the edges of some rows each column leads to the last of them in which it is marked. -/
theorem Strip.rewireAll_bitEdges (matrix : Matrix)
    (h : Strip draft.graph ⟨count, fun _ => none, first⟩ looped toggles) (name : String) :
    ∀ {rows : Nat}, rows ≤ count →
      Strip (draft.rewireAll ⟨0⟩ name ((List.range rows).flatMap (bitEdges matrix))).graph
        ⟨count, matrix.lastMarked? rows, first⟩ looped toggles
  | 0, _ => by
    refine ⟨h.shape.lead_congr fun column _ => ?_, h.wires⟩
    simp [lastMarked?, positions]
  | rows + 1, hle => by
    have hbefore := rewireAll_bitEdges matrix h name (Nat.le_of_succ_le hle)
    -- The last row is drawn over the rows before it
    rw [List.range_succ, List.flatMap_append, List.flatMap_singleton, Draft.rewireAll_append]
    have hrow := Strip.rewireAll_bitEdge hle name (matrix.markedColumns rows matrix.columns) hbefore
    refine ⟨hrow.shape.lead_congr fun column _ => ?_, hrow.wires⟩
    change _ = if column ∈ matrix.markedColumns rows matrix.columns then some rows
      else matrix.lastMarked? rows column
    rw [lastMarked?_succ]
    exact if_congr mem_positions.symm rfl rfl

/-- The token is let in at the first bit, if there is one. -/
theorem Strip.rewire_exposeEntry {lead : Nat → Option Nat}
    (h : Strip draft.graph ⟨count, lead, none⟩ looped toggles) (name : String) :
    Strip (draft.rewire ⟨0⟩ name (.exposeEntry (bitRole 0))).graph
      ⟨count, lead, if 0 < count then some 0 else none⟩ looped toggles := by
  split
  -- With a first bit there is an entry to expose
  next hsome =>
    have hresolve : (Directive.exposeEntry (bitRole 0)).resolve draft.graph ⟨0⟩ name =
        .ok (some (.enter ⟨0⟩ (bitEntry 0))) := by
      simp [Directive.resolve, findPart_bitRole h.shape hsome, Directive.findEntry,
        h.shape.entryOf? hsome, bind, Except.bind, pure, Except.pure]
    rw [Draft.graph_rewire hresolve]
    exact ⟨h.shape.setEntry 0, h.wires.of_same (.of_eq rfl rfl rfl)⟩
  -- Without any bit the directive is skipped, and no entry is exposed
  next hnone =>
    have hresolve : (Directive.exposeEntry (bitRole 0)).resolve draft.graph ⟨0⟩ name =
        .error [.unknownRole name (bitRole 0)] := by
      have hpart : draft.graph.part? ⟨0⟩ (bitRole 0) = none :=
        (h.shape.part? 0).trans (if_neg hnone)
      simp [Directive.resolve, Directive.findPart, hpart, bind, Except.bind]
    rw [Draft.graph_rewire_of_error hresolve]
    exact h

/-! ## The parts -/

/-- A strip before anything is wired. -/
structure Bare (graph : Graph) (count : Nat) : Prop where
  shape : Shape graph ⟨count, fun _ => none, none⟩ (.start [])
  pristine : graph.Pristine
  placed : graph.Placed

theorem Bare.strip {graph : Graph} {count : Nat} (h : Bare graph count) :
    Strip graph ⟨count, fun _ => none, none⟩ 0 (.start []) :=
  ⟨h.shape, .of_pristine h.pristine h.placed fun _ => rfl⟩

theorem Bare.addComposite (specification : String) (traced : Bool) :
    Bare (({} : Graph).addComposite specification 0 2 traced).2 0 := by
  have hplaced : ({} : Graph).Placed := by
    rintro (_ | _) hport
    · exact absurd hport (Nat.not_lt_zero _)
    · exact absurd hport (Nat.not_lt_zero _)
  have hsame : (({} : Graph).addOwnOutlet ⟨0⟩).2.SamePorts
      (({} : Graph).addComposite specification 0 2 traced).2 := .of_eq rfl rfl rfl
  exact ⟨(Shape.addComposite specification traced _).2,
    hsame.pristine (Graph.Pristine.empty.addOwnOutlet ⟨0⟩),
    hsame.placed (hplaced.addOwnOutlet .empty ⟨0⟩)⟩

/-- How the parts of a bit matrix are made. -/
abbrev growPart (library : Library) (traced : Bool) (limit levels : Nat) : Draft.Grow :=
  fun spec draft => Draft.grow library traced limit levels spec 0 draft

/-- A bit can be made as long as one more level may be nested. -/
theorem Bare.replay_bitPart {library : Library} {count : Nat} (h : Bare draft.graph count)
    (hbit : library.get? Primitive.bit.identifier = some (.ofPrimitive .bit)) (traced : Bool)
    (limit levels : Nat) (name : String) :
    ∃ draft', Draft.replay library (growPart library traced limit (levels + 1)) ⟨0⟩ name draft
      (bitPart count) = .ok draft' ∧ Bare draft'.graph (count + 1) := by
  obtain ⟨hnode, hshape⟩ := h.shape.addBit (fun _ _ => rfl) rfl rfl Primitive.bit.identifier traced
  let grown : Draft :=
    { draft with graph := (draft.graph.addNative .bit Primitive.bit.identifier traced).2 }
  have hreplay : Draft.replay library (growPart library traced limit (levels + 1)) ⟨0⟩ name draft
      (bitPart count) = .ok (grown.adopt ⟨0⟩ name (bitRole count) (bitNode count)) := by
    rw [← hnode]
    simp only [Draft.replay, bitPart, hbit]
    rfl
  have hgraph : (grown.adopt ⟨0⟩ name (bitRole count) (bitNode count)).graph =
      grown.graph.adopt ⟨0⟩ (bitRole count) (bitNode count) := by
    unfold Draft.adopt
    dsimp only
    split <;> rfl
  -- Adopting concerns the root alone, so the ports are those of the grown bit
  have hsame : grown.graph.SamePorts (grown.graph.adopt ⟨0⟩ (bitRole count) (bitNode count)) :=
    .of_eq rfl rfl rfl
  have hpristine : grown.graph.Pristine :=
    h.pristine.addNative .bit Primitive.bit.identifier traced
  have hplaced : grown.graph.Placed :=
    h.placed.addNative h.pristine.linked .bit Primitive.bit.identifier traced
  refine ⟨_, hreplay, ?_⟩
  rw [hgraph]
  exact ⟨hshape, hsame.pristine hpristine, hsame.placed hplaced⟩

theorem Bare.replayAll_bitParts {library : Library} (h : Bare draft.graph 0)
    (hbit : library.get? Primitive.bit.identifier = some (.ofPrimitive .bit)) (traced : Bool)
    (limit levels : Nat) (name : String) : ∀ count : Nat,
    ∃ draft', Draft.replayAll library (growPart library traced limit (levels + 1)) ⟨0⟩ name
      ((List.range count).map bitPart) draft = .ok draft' ∧ Bare draft'.graph count
  | 0 => ⟨draft, rfl, h⟩
  | count + 1 => by
    obtain ⟨before, hbefore, hbare⟩ :=
      h.replayAll_bitParts hbit traced limit levels name count
    obtain ⟨after, hafter, hgrown⟩ := hbare.replay_bitPart hbit traced limit levels name
    refine ⟨after, ?_, hgrown⟩
    rw [List.range_succ, List.map_append, Draft.replayAll_append hbefore]
    simp only [List.map_cons, List.map_nil, Draft.replayAll, hafter]

end Matrix

/-! ## Libraries of one specification -/

/-- A specification that is no primitive can stand beside the primitives. -/
theorem Library.add_primitives {spec : Specification}
    (hnew : Library.primitives.contains spec.identifier = false) :
    ∃ library, Library.primitives.add spec = .ok library ∧
      library.get? spec.identifier = some spec ∧
      ∀ primitive : Primitive,
        library.get? primitive.identifier = some (.ofPrimitive primitive) := by
  refine ⟨_, by unfold Library.add; rw [hnew]; rfl, ?_, fun primitive => ?_⟩
  · exact (Table.get?_insert _ _ _ _).trans (if_pos rfl)
  -- The primitives are there already, under identifiers of their own
  · have hne : primitive.identifier ≠ spec.identifier := by
      intro hsame
      rw [← hsame] at hnew
      cases primitive <;> exact absurd hnew (by decide)
    refine (Table.get?_insert _ _ _ _).trans ((if_neg hne).trans ?_)
    cases primitive <;> rfl

theorem Specification.instantiateAlone_of_grow (spec : Specification) {limits : Limits}
    {library : Library} {root : NodeId} {draft : Draft}
    (hadd : Library.primitives.add spec = .ok library)
    (hspec : library.get? spec.identifier = some spec)
    (hgrow : Draft.grow library false limits.nestingLimit (limits.nestingLimit + 1) spec 0 {} =
      .ok (root, draft)) :
    spec.instantiateAlone limits =
      .ok { graph := draft.graph, root, limits, issues := draft.issues } := by
  unfold instantiateAlone
  rw [hadd]
  simp only [Library.instantiate, Library.build, Library.find, hspec, hgrow]

namespace Matrix

/-! ## The whole build -/

/-- **The network of a bit matrix is a strip that leads where the matrix says.**  The token is let
in at the first bit. -/
theorem bitsNetwork_eq_ok (matrix : Matrix) {limits : Limits} (hlevels : 1 ≤ limits.nestingLimit) :
    ∃ net, matrix.bitsNetwork limits = .ok net ∧ net.root = ⟨0⟩ ∧ net.limits = limits ∧
      Strip net.graph
        ⟨matrix.length, matrix.follower?, if 0 < matrix.length then some 0 else none⟩
        matrix.length (.start []) := by
  have hnew : Library.primitives.contains matrix.bitsSpecification.identifier = false :=
    show Library.primitives.contains bitsIdentifier = false by decide
  obtain ⟨library, hadd, hspec, hprimitive⟩ := Library.add_primitives hnew
  obtain ⟨levels, hlevels'⟩ := Nat.exists_eq_add_of_le' hlevels
  let name := bitsIdentifier
  let framed : Draft := { graph := (({} : Graph).addComposite name 0 2 false).2 }
  -- The frame, the bits in it, and then the wirings in their order
  have hframed : Bare framed.graph 0 := .addComposite name false
  obtain ⟨made, hmade, hbare⟩ := hframed.replayAll_bitParts (hprimitive .bit) false
    limits.nestingLimit levels name matrix.length
  have hlooped := hbare.strip.rewireAll_bitLoops name (Nat.le_refl matrix.length)
  have hled := hlooped.rewireAll_bitEdges matrix name (Nat.le_refl matrix.length)
  have hopened := hled.rewire_exposeEntry name
  let rows := List.range matrix.length
  let wirings := rows.map bitLoop ++ rows.flatMap (bitEdges matrix) ++ [.exposeEntry (bitRole 0)]
  -- Behind the parts the log wires: loops, then edges, then the entry
  have hwirings : ∀ directive ∈ wirings, directive.phase ≠ .parts := by
    intro directive hmem
    rcases List.mem_append.mp hmem with hmem | hmem
    · rcases List.mem_append.mp hmem with hmem | hmem
      · obtain ⟨bit, _, rfl⟩ := List.mem_map.mp hmem
        exact show Phase.flow ≠ .parts by decide
      · rw [phase_of_mem_bitEdges hmem]
        decide
    · rw [List.mem_singleton.mp hmem]
      decide
  have hreplayed : Draft.replayAll library (growPart library false limits.nestingLimit (levels + 1))
      ⟨0⟩ name (rows.map bitPart ++ wirings) framed =
        .ok (made.rewireAll ⟨0⟩ name wirings) :=
    (Draft.replayAll_append hmade).trans (Draft.replayAll_of_wirings hwirings)
  have hgrow : Draft.grow library false limits.nestingLimit (levels + 1 + 1)
      matrix.bitsSpecification 0 {} = .ok (⟨0⟩, made.rewireAll ⟨0⟩ name wirings) := by
    rw [← replayOrder_bits] at hreplayed
    exact Draft.grow_of_replayAll rfl hreplayed
  rw [← hlevels'] at hgrow
  refine ⟨_, matrix.bitsSpecification.instantiateAlone_of_grow hadd hspec hgrow, rfl, rfl, ?_⟩
  change Strip (made.rewireAll ⟨0⟩ name wirings).graph _ _ _
  rw [Draft.rewireAll_append, Draft.rewireAll_append]
  exact hopened

end Matrix

end TokenNet
