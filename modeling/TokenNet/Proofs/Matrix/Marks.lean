import TokenNet.Proofs.Matrix.Board
import TokenNet.Proofs.Matrix.Toggles

/-!
# The marks of two matrices

The two matrices of an adder network are read row by row, and each marked cell becomes a directive.
Replay puts the directives in another order: edges between adders come before edges to the outside,
so an exit that is marked to leave the network leaves it, wherever else it is marked to lead.

## Main statements

- `Board.lead?_ofMatrices`, `Board.fed_ofMatrices`, `Board.wired_ofMatrices`: what the marks of two
  matrices come to.
- `replayOrder_adders`: the order in which the directives of two matrices are carried out.
-/

namespace TokenNet.Matrix

/-! ## Marks -/

/-- The marked cells of the first rows and columns, row by row: row and column. -/
def marks (matrix : Matrix) (rows columns : Nat) : List (Nat × Nat) :=
  (List.range rows).flatMap fun row => (matrix.markedColumns row columns).map fun column =>
    (row, column)

variable {matrix control data : Matrix} {rows columns row column n : Nat}

theorem mem_marks : (row, column) ∈ matrix.marks rows columns ↔
    row < rows ∧ column < columns ∧ matrix.marked row column = true := by
  simp [marks, markedColumns, mem_positions]

theorem nodup_positions (bound : Nat) (property : Nat → Bool) : (positions bound property).Nodup :=
  List.nodup_range.filter _

theorem nodup_marks (matrix : Matrix) (rows columns : Nat) : (matrix.marks rows columns).Nodup := by
  unfold marks
  rw [List.nodup_flatMap]
  refine ⟨fun row _ => (nodup_positions _ _).map fun a b h => (Prod.mk.inj h).2, ?_⟩
  refine List.nodup_range.imp fun {a b} hne => ?_
  intro mark ha hb
  obtain ⟨_, _, rfl⟩ := List.mem_map.mp ha
  obtain ⟨_, _, hsame⟩ := List.mem_map.mp hb
  exact hne (Prod.mk.inj hsame).1.symm

theorem marks_succ (matrix : Matrix) (rows columns : Nat) : matrix.marks (rows + 1) columns =
    matrix.marks rows columns ++ (matrix.markedColumns rows columns).map fun column =>
      (rows, column) := by
  unfold marks
  rw [List.range_succ, List.flatMap_append, List.flatMap_singleton]

/-- The marked rows of a column. -/
theorem filter_marks (matrix : Matrix) (rows : Nat) (hcolumn : column < columns) :
    (matrix.marks rows columns).filter (fun mark => mark.2 = column) =
      (positions rows fun row => matrix.marked row column).map fun row => (row, column) := by
  induction rows with
  | zero => rfl
  | succ rows ih =>
    -- The column occurs in the last row once if it is marked there, or not at all
    have hlast : (matrix.markedColumns rows columns).filter (fun other => decide (other = column)) =
        if matrix.marked rows column then [column] else [] := by
      have hmem :
          column ∈ matrix.markedColumns rows columns ↔ matrix.marked rows column = true := by
        simp [markedColumns, mem_positions, hcolumn]
      have hnodup : (matrix.markedColumns rows columns).Nodup := nodup_positions _ _
      rw [List.filter_eq, hnodup.count, if_congr hmem rfl rfl]
      split <;> rfl
    rw [marks_succ, List.filter_append, ih, positions_succ, List.map_append, List.filter_map]
    congr 1
    refine (congrArg (List.map fun column => (rows, column)) hlast).trans ?_
    split <;> rfl

/-- The marks of the first rows come first. -/
theorem filter_rows_append (matrix : Matrix) (rows more columns : Nat) :
    (matrix.marks (rows + more) columns).filter (fun mark => mark.1 < rows) ++
      (matrix.marks (rows + more) columns).filter (fun mark => ¬ mark.1 < rows) =
        matrix.marks (rows + more) columns := by
  induction more with
  | zero =>
    have hall : ∀ mark ∈ matrix.marks rows columns, mark.1 < rows := fun mark hmem =>
      (mem_marks.mp hmem).1
    rw [Nat.add_zero, List.filter_eq_self.mpr (by simpa using hall),
      List.filter_eq_nil_iff.mpr (by simpa using hall), List.append_nil]
  | succ more ih =>
    -- The last row comes behind all rows before it, whether they are kept or not
    let last := (matrix.markedColumns (rows + more) columns).map fun column => (rows + more, column)
    have hbefore : last.filter (fun mark => mark.1 < rows) = [] := by
      simp [last, List.filter_eq_nil_iff]
    have hbehind : last.filter (fun mark => ¬ mark.1 < rows) = last := by
      simp [last, List.filter_eq_self]
    rw [← Nat.add_assoc, marks_succ, List.filter_append, List.filter_append, hbefore, hbehind,
      List.append_nil, ← List.append_assoc, ih]

/-! ## The board of two matrices -/

/-- The marked cells that wire adders into rows: row and adder. -/
def linkMarks (data : Matrix) (n : Nat) : List (Nat × Nat) :=
  (data.marks (2 * n) (n + 2)).filter fun mark => mark.2 < n

/-- The marked cells by which inputs of the network feed rows: row and input. -/
def feedMarks (data : Matrix) (n : Nat) : List (Nat × Nat) :=
  ((data.marks (2 * n) (n + 2)).filter fun mark => ¬ mark.2 < n).map fun mark =>
    (mark.1, mark.2 - n)

/-- The board that two matrices describe. -/
def Board.ofMatrices (n : Nat) (control data : Matrix) : Board where
  count := n
  leads := control.marks (n + 2) (2 * n)
  links := data.linkMarks n
  feeds := data.feedMarks n
  relays := data.markedColumns (2 * n) n
  firsts := positions n fun row => control.marked row (2 * n)

theorem mem_linkMarks : (row, column) ∈ data.linkMarks n ↔
    row < 2 * n ∧ column < n ∧ data.marked row column = true := by
  unfold linkMarks
  rw [List.mem_filter, mem_marks]
  constructor
  · rintro ⟨⟨hrow, _, hmarked⟩, hcolumn⟩
    exact ⟨hrow, of_decide_eq_true hcolumn, hmarked⟩
  · rintro ⟨hrow, hcolumn, hmarked⟩
    exact ⟨⟨hrow, by omega, hmarked⟩, decide_eq_true hcolumn⟩

theorem mem_feedMarks {external : Nat} : (row, external) ∈ data.feedMarks n ↔
    row < 2 * n ∧ external < 2 ∧ data.marked row (n + external) = true := by
  unfold feedMarks
  rw [List.mem_map]
  constructor
  · rintro ⟨⟨found, column⟩, hmem, hsame⟩
    obtain ⟨hmark, hbeyond⟩ := List.mem_filter.mp hmem
    obtain ⟨hrow, hcolumn, hmarked⟩ := mem_marks.mp hmark
    obtain ⟨rfl, rfl⟩ := Prod.mk.inj hsame
    have hle : n ≤ column := Nat.le_of_not_lt (of_decide_eq_true hbeyond)
    rw [Nat.add_sub_cancel' hle]
    exact ⟨hrow, by omega, hmarked⟩
  -- The two columns behind those of the adders are the inputs
  · rintro ⟨hrow, hexternal, hmarked⟩
    have hmark : (row, n + external) ∈ data.marks (2 * n) (n + 2) :=
      mem_marks.mpr ⟨hrow, by omega, hmarked⟩
    exact ⟨_, List.mem_filter.mpr ⟨hmark, by simp⟩, by simp⟩

theorem nodup_feedMarks (data : Matrix) (n : Nat) : (data.feedMarks n).Nodup := by
  refine List.Nodup.map_on ?_ ((nodup_marks data (2 * n) (n + 2)).filter _)
  rintro ⟨row, column⟩ hmark ⟨row', column'⟩ hmark' hsame
  have hbeyond := of_decide_eq_true (List.mem_filter.mp hmark).2
  have hbeyond' := of_decide_eq_true (List.mem_filter.mp hmark').2
  obtain ⟨hrow, hcolumn⟩ := Prod.mk.inj hsame
  dsimp only at hrow hcolumn hbeyond hbeyond'
  rw [hrow, show column = column' by omega]

/-! ### Reading the board -/

/-- The last marked row of a column counts, so an exit that is marked to leave the network leaves
it. -/
theorem Board.lead?_ofMatrices (hcolumns : control.columns = 2 * n + 1) (hcolumn : column < 2 * n) :
    (Board.ofMatrices n control data).lead? column =
      if control.marked (n + 1) column then some (joinEntry 1)
      else if control.marked n column then some (joinEntry 0)
      else (control.lastMarked? n column).map adderEntry := by
  have hinside : column < control.columns := by omega
  have hlast : (Board.ofMatrices n control data).lead? column =
      (control.lastMarked? (n + 2) column).map (Board.ofMatrices n control data).rowEntry := by
    unfold Board.lead? lastMarked?
    rw [if_pos hinside, ofMatrices, filter_marks control (n + 2) hcolumn, List.getLast?_map,
      Option.map_map]
    rfl
  -- Of the last rows, n + 1 is that of the second exit, and n that of the first
  rw [hlast, lastMarked?_succ, lastMarked?_succ]
  simp only [hinside, true_and]
  split
  next => simp [rowEntry, ofMatrices, show ¬ n + 1 < n by omega]
  next =>
    split
    next => simp [rowEntry, ofMatrices]
    next =>
      refine Option.map_congr fun row hrow => ?_
      have hlt : row < n := (lastMarked?_eq_some_iff.mp hrow).2.1.1
      exact if_pos hlt

theorem Board.fed_ofMatrices {external : Nat} (hexternal : external < 2) :
    (Board.ofMatrices n control data).fed external =
      positions (2 * n) fun row => data.marked row (n + external) := by
  -- An external input is the column that many places behind the adders
  have hsame : (data.feedMarks n).filter (fun mark => mark.2 = external) =
      ((data.marks (2 * n) (n + 2)).filter fun mark => mark.2 = n + external).map fun mark =>
        (mark.1, mark.2 - n) := by
    unfold feedMarks
    rw [List.filter_map, List.filter_filter]
    refine congrArg _ (List.filter_congr fun mark _ => ?_)
    rw [Bool.eq_iff_iff]
    simp only [Function.comp_apply, Bool.and_eq_true, decide_eq_true_eq]
    omega
  unfold fed ofMatrices
  rw [hsame, filter_marks data (2 * n) (show n + external < n + 2 by omega), List.map_map,
    List.map_map]
  exact List.map_id' _

theorem Board.wired_ofMatrices (hrow : row < 2 * n) :
    (Board.ofMatrices n control data).wired row = true ↔
      ∃ column < n + 2, data.marked row column = true := by
  simp only [wired, ofMatrices, Bool.or_eq_true, List.any_eq_true, decide_eq_true_eq, Prod.exists]
  constructor
  · rintro (⟨_, column, hmem, rfl⟩ | ⟨_, external, hmem, rfl⟩)
    · obtain ⟨_, hcolumn, hmarked⟩ := mem_linkMarks.mp hmem
      exact ⟨column, by omega, hmarked⟩
    · obtain ⟨_, hexternal, hmarked⟩ := mem_feedMarks.mp hmem
      exact ⟨n + external, by omega, hmarked⟩
  -- A marked column is that of an adder, and gives a link, or that of an input, and gives a feed
  · rintro ⟨column, hcolumn, hmarked⟩
    by_cases hinner : column < n
    · exact .inl ⟨row, column, mem_linkMarks.mpr ⟨hrow, hinner, hmarked⟩, rfl⟩
    · refine .inr ⟨row, column - n, mem_feedMarks.mpr ⟨hrow, by omega, ?_⟩, rfl⟩
      rw [Nat.add_sub_cancel' (Nat.le_of_not_lt hinner)]
      exact hmarked

/-! ## Directives -/

/-- The directive that makes an adder. -/
def adderPart (adder : Nat) : Directive := .part Primitive.adder.identifier (adderRole adder)

/-- The directive of a mark of the control matrix. -/
def leadDirective (n : Nat) (mark : Nat × Nat) : Directive := controlDirective n mark.1 mark.2

/-- The directive that wires an adder into a row. -/
def linkDirective (mark : Nat × Nat) : Directive :=
  .dataFlow (adderRole mark.2) (adderRole (mark.1 / 2)) (mark.1 % 2)

/-- The directive that feeds a row from an input. -/
def feedDirective (mark : Nat × Nat) : Directive :=
  .exposeInlet (adderRole (mark.1 / 2)) (mark.1 % 2) mark.2

/-- The directive that relays the outlet of an adder. -/
def relayDirective (adder : Nat) : Directive := .exposeOutlet (adderRole adder)

/-- The directive that lets the token in at an adder. -/
def entryDirective (adder : Nat) : Directive := .exposeEntry (adderRole adder)

theorem controlEdges_eq (hrows : control.length = n + 2) (hcolumns : control.columns = 2 * n + 1) :
    control.controlEdges = (control.marks (n + 2) (2 * n)).map (leadDirective n) := by
  unfold controlEdges marks
  rw [hrows, hcolumns, List.map_flatMap]
  refine List.flatMap_congr fun row _ => ?_
  rw [List.map_map]
  rfl

theorem dataEdges_eq (hrows : data.length = 2 * n + 1) (hcolumns : data.columns = n + 2) :
    data.dataEdges =
      (data.marks (2 * n) (n + 2)).map fun mark => dataDirective n mark.1 mark.2 := by
  unfold dataEdges marks
  rw [hrows, hcolumns, List.map_flatMap]
  refine List.flatMap_congr fun row _ => ?_
  rw [List.map_map]
  rfl

theorem phase_leadDirective (n : Nat) (mark : Nat × Nat) :
    (leadDirective n mark).phase = if mark.1 < n then .flow else .exits := by
  unfold leadDirective controlDirective
  split <;> rfl

/-- The edges of the control matrix are replayed in two phases: first those between adders, then
those that leave the network. -/
theorem filter_leadDirectives (marks : List (Nat × Nat)) (n : Nat) (phase : Phase) :
    (marks.map (leadDirective n)).filter (fun directive => directive.phase = phase) =
      match phase with
      | .flow => (marks.filter fun mark => mark.1 < n).map (leadDirective n)
      | .exits => (marks.filter fun mark => ¬ mark.1 < n).map (leadDirective n)
      | _ => [] := by
  induction marks with
  | nil => cases phase <;> rfl
  | cons mark rest ih =>
    rw [List.map_cons, List.filter_cons, ih, phase_leadDirective]
    -- A row of an adder is a flow, and a row behind them an exit
    by_cases hrow : mark.1 < n
    · cases phase <;> simp [hrow]
    · have hle : n ≤ mark.1 := Nat.le_of_not_lt hrow
      cases phase <;> simp [hrow, hle]

/-- So are those of the data matrix: first those between adders, then those from the inputs. -/
theorem filter_dataDirectives (data : Matrix) (n : Nat) (phase : Phase) :
    ((data.marks (2 * n) (n + 2)).map fun mark => dataDirective n mark.1 mark.2).filter
        (fun directive => directive.phase = phase) =
      match phase with
      | .flow => (data.linkMarks n).map linkDirective
      | .inlets => (data.feedMarks n).map feedDirective
      | _ => [] := by
  have hinside : ∀ mark ∈ data.marks (2 * n) (n + 2), mark.2 < n + 2 := fun mark hmem =>
    (mem_marks.mp hmem).2.1
  unfold linkMarks feedMarks
  generalize data.marks (2 * n) (n + 2) = marks at hinside ⊢
  induction marks with
  | nil => cases phase <;> rfl
  | cons mark rest ih =>
    have hmark := hinside mark List.mem_cons_self
    have hrest := ih fun other hmem => hinside other (List.mem_cons_of_mem _ hmem)
    -- A column of an adder is a flow between adders
    by_cases hcolumn : mark.2 < n
    · have hlink : dataDirective n mark.1 mark.2 = linkDirective mark := if_pos hcolumn
      rw [List.map_cons, List.filter_cons, hrest, hlink]
      cases phase <;> simp [hcolumn, linkDirective, Directive.phase]
    · -- The last two columns are those of the inputs
      have hexternal : (if mark.2 = n then 0 else 1) = mark.2 - n := by split <;> omega
      have hfeed : dataDirective n mark.1 mark.2 = feedDirective (mark.1, mark.2 - n) := by
        unfold dataDirective feedDirective
        rw [if_neg hcolumn, hexternal]
      have hle : n ≤ mark.2 := Nat.le_of_not_lt hcolumn
      rw [List.map_cons, List.filter_cons, hrest, hfeed]
      cases phase <;> simp [hcolumn, hle, feedDirective, Directive.phase]

/-- The directives that wire the adders of two matrices, in the order in which they are carried
out. -/
def wirings (n : Nat) (control data : Matrix) : List Directive :=
  ((control.marks (n + 2) (2 * n)).filter fun mark => mark.1 < n).map (leadDirective n) ++
  (data.linkMarks n).map linkDirective ++
  (data.feedMarks n).map feedDirective ++
  (data.markedColumns (2 * n) n).map relayDirective ++
  ((control.marks (n + 2) (2 * n)).filter fun mark => ¬ mark.1 < n).map (leadDirective n) ++
  (positions n fun row => control.marked row (2 * n)).map entryDirective

/-- **The adders of two matrices are made first**, and then they are wired. -/
theorem replayOrder_adders (hcontrol : control.length = n + 2)
    (hcolumns : control.columns = 2 * n + 1) (hdata : data.length = 2 * n + 1)
    (hwide : data.columns = n + 2) :
    Directive.replayOrder ((List.range n).map adderPart ++ control.controlEdges ++
        control.controlEntries ++ data.dataEdges ++ data.dataOutputs) =
      (List.range n).map adderPart ++ wirings n control data := by
  have hentries : control.controlEntries =
      (positions n fun row => control.marked row (2 * n)).map entryDirective := by
    unfold controlEntries
    rw [hcolumns, hcontrol]
    rfl
  have houtputs : data.dataOutputs = (data.markedColumns (2 * n) n).map relayDirective := by
    unfold dataOutputs
    rw [hdata, hwide]
    rfl
  -- Directives of one kind are all carried out in one phase
  have hsingle {α : Type} (members : List α) (directive : α → Directive) (own : Phase)
      (hown : ∀ a, (directive a).phase = own) (phase : Phase) :
      (members.map directive).filter (fun directive => directive.phase = phase) =
        if own = phase then members.map directive else [] := by
    rw [List.filter_map]
    split <;> simp [Function.comp_def, *]
  rw [controlEdges_eq hcontrol hcolumns, dataEdges_eq hdata hwide, hentries, houtputs]
  simp only [Directive.replayOrder, Phase.all, List.flatMap_cons, List.flatMap_nil,
    List.filter_append, filter_leadDirectives, filter_dataDirectives,
    hsingle _ adderPart .parts fun _ => rfl, hsingle _ relayDirective .outlet fun _ => rfl,
    hsingle _ entryDirective .entry fun _ => rfl, wirings]
  simp

end TokenNet.Matrix
