import TokenNet.Matrix.Adders
import TokenNet.Proofs.Graph.Native
import TokenNet.Proofs.Table

/-!
# Boards of adders

A board says what the graph of an adder network is, cells apart: the frame of the root with its two
joins, a row of adders behind it, and the marks by which they are wired.  The handles of an adder
can be read off its number, and every record of the graph is written down as a function of the
marks.

Marks are kept in the order in which they were made.  Where several marks compete, the last one
counts: an exit leads where it was led last, and the token enters where it was let in last.

## Main statements

- `Board.markInlet`, `Board.setTarget`, `Board.feed`, `Board.relay`, `Board.setEntry`: one more mark
  is one change of the graph.
- `Board.addAdder`: one more adder is one record more of each kind.
-/

namespace TokenNet

/-! ## Arrays of values -/

section

variable {α : Type}

/-- The array of the first values of a function. -/
def tabulate (size : Nat) (value : Nat → α) : Array α :=
  Array.ofFn fun i : Fin size => value i

@[simp] theorem size_tabulate (size : Nat) (value : Nat → α) :
    (tabulate size value).size = size :=
  Array.size_ofFn

@[simp] theorem getElem?_tabulate (size : Nat) (value : Nat → α) (i : Nat) :
    (tabulate size value)[i]? = if i < size then some (value i) else none := by
  simp [tabulate, Array.getElem?_ofFn]

theorem tabulate_congr {size : Nat} {value value' : Nat → α}
    (h : ∀ i < size, value i = value' i) : tabulate size value = tabulate size value' := by
  refine Array.ext_getElem? fun i => ?_
  rw [getElem?_tabulate, getElem?_tabulate]
  split
  next hi => rw [h i hi]
  next => rfl

theorem tabulate_succ (size : Nat) (value : Nat → α) :
    tabulate (size + 1) value = (tabulate size value).push (value size) := by
  refine Array.ext_getElem? fun i => ?_
  rw [Array.getElem?_push, getElem?_tabulate, getElem?_tabulate, size_tabulate]
  rcases Nat.lt_trichotomy i size with hlt | rfl | hgt
  · rw [if_pos (Nat.lt_succ_of_lt hlt), if_neg (Nat.ne_of_lt hlt), if_pos hlt]
  · rw [if_pos (Nat.lt_succ_self i), if_pos rfl]
  · rw [if_neg (by omega), if_neg (Nat.ne_of_gt hgt), if_neg (by omega)]

theorem push_tabulate {size : Nat} {value value' : Nat → α} {a : α} (hlast : value' size = a)
    (hbefore : ∀ i < size, value' i = value i) :
    (tabulate size value).push a = tabulate (size + 1) value' := by
  rw [tabulate_succ, hlast, tabulate_congr hbefore]

/-- Two values more. -/
theorem push_push_tabulate {size : Nat} {value value' : Nat → α} {a b : α} (ha : value' size = a)
    (hb : value' (size + 1) = b) (hbefore : ∀ i < size, value' i = value i) :
    ((tabulate size value).push a).push b = tabulate (size + 2) value' := by
  rw [push_tabulate ha hbefore]
  exact push_tabulate hb fun _ _ => rfl

/-- A change at one place is a change of the function there. -/
theorem modify_tabulate {size index : Nat} {value value' : Nat → α} {change : α → α}
    (hhere : value' index = change (value index)) (helse : ∀ i ≠ index, value' i = value i) :
    (tabulate size value).modify index change = tabulate size value' := by
  refine Array.ext_getElem? fun i => ?_
  rw [Array.getElem?_modify, getElem?_tabulate, getElem?_tabulate]
  by_cases hi : index = i
  · subst hi
    rw [if_pos rfl, hhere]
    split <;> rfl
  · rw [if_neg hi, helse i (Ne.symm hi)]

end

namespace Matrix

/-! ## Handles -/

theorem adderRole_injective : Function.Injective adderRole :=
  numbered_injective _

/-- The node of an adder. -/
def adderNode (adder : Nat) : NodeId := ⟨adder + 3⟩

/-- The inlet of a row of the data matrix: row 2i + k belongs to inlet k of adder i. -/
def adderInlet (row : Nat) : InletId := ⟨row + 2⟩

/-- The outlet of an adder. -/
def adderOutlet (adder : Nat) : OutletId := ⟨adder + 1⟩

/-- The entry of an adder. -/
def adderEntry (adder : Nat) : EntryId := ⟨adder + 2⟩

/-- The exit of a column of the control matrix: column 2k + o belongs to exit o of adder k. -/
def adderExit (column : Nat) : ExitId := ⟨column + 2⟩

/-- An input of the network. -/
def frameInlet (external : Nat) : InletId := ⟨external⟩

/-- The output of the network. -/
def frameOutlet : OutletId := ⟨0⟩

/-- The entry of the join behind an exit of the network. -/
def joinEntry (external : Nat) : EntryId := ⟨external⟩

/-- The ports of an adder. -/
def adderPorts (adder : Nat) : Interface where
  inlets := [adderInlet (2 * adder), adderInlet (2 * adder + 1)]
  outlet := adderOutlet adder
  entry := some (adderEntry adder)
  exits := [adderExit (2 * adder), adderExit (2 * adder + 1)]

/-- The adders under their roles. -/
def adderParts (count : Nat) : Table NodeId where
  rows := (List.range count).map fun adder => (adderRole adder, adderNode adder)
  names_nodup := by
    rw [List.map_map]
    exact List.nodup_range.map adderRole_injective

/-- A role is that of an adder on the board or none. -/
theorem get?_adderParts (count adder : Nat) : (adderParts count).get? (adderRole adder) =
    if adder < count then some (adderNode adder) else none := by
  have hfind : (List.range count).find? (fun other => adderRole other == adderRole adder) =
      if adder < count then some adder else none := by
    have hsame :
        (fun other => adderRole other == adderRole adder) = fun other => other == adder := by
      funext other
      rw [Bool.eq_iff_iff, beq_iff_eq, beq_iff_eq, adderRole_injective.eq_iff]
    rw [hsame]
    -- An adder on the board is found at its own place
    split
    next hlt =>
      rw [List.find?_eq_some_iff_getElem]
      exact ⟨by simp, adder, by simpa using hlt, by simp, by simp; omega⟩
    next hge =>
      rw [List.find?_eq_none]
      intro other hother
      simp only [List.mem_range] at hother
      simp
      omega
  unfold Table.get? adderParts
  rw [List.find?_map]
  change Option.map Prod.snd (Option.map _ ((List.range count).find?
    fun other => adderRole other == adderRole adder)) = _
  rw [hfind]
  split <;> rfl

theorem insert_adderParts (count : Nat) : (adderParts count).insert (adderRole count)
    (adderNode count) = adderParts (count + 1) := by
  have hnew : ¬ (adderParts count).contains (adderRole count) = true := by
    rw [Table.contains_iff_isSome, get?_adderParts, if_neg (Nat.lt_irrefl count)]
    simp
  unfold Table.insert
  rw [dif_neg hnew]
  refine Table.ext ?_
  simp [adderParts, List.range_succ]

/-! ## Boards -/

/-- A row of adders and the marks by which they are wired, each kind in the order in which they were
made. -/
structure Board where
  /-- The number of adders. -/
  count : Nat
  /-- Which column of the control matrix leads to which row of it: row and column. -/
  leads : List (Nat × Nat) := []
  /-- Which adder is wired into which row of the data matrix: row and adder. -/
  links : List (Nat × Nat) := []
  /-- Which input of the network feeds which row of the data matrix: row and input. -/
  feeds : List (Nat × Nat) := []
  /-- The adders whose outlets are relayed to the output. -/
  relays : List Nat := []
  /-- The adders at which the token was let in. -/
  firsts : List Nat := []

namespace Board

variable (board : Board)

/-- The entry of a row of the control matrix: that of an adder, or of one of the two joins. -/
def rowEntry (row : Nat) : EntryId :=
  if row < board.count then adderEntry row else joinEntry (if row = board.count then 0 else 1)

/-- Where the exit of a column leads. -/
def lead? (column : Nat) : Option EntryId :=
  ((board.leads.filter fun mark => mark.2 = column).getLast?).map fun mark => board.rowEntry mark.1

/-- The rows that are fed from an input, in order. -/
def fed (external : Nat) : List Nat :=
  (board.feeds.filter fun mark => mark.2 = external).map Prod.fst

/-- Whether something is wired into a row. -/
def wired (row : Nat) : Bool :=
  board.links.any (fun mark => mark.1 = row) || board.feeds.any (fun mark => mark.1 = row)

/-! ### Records -/

/-- The nodes of a board: the root, its joins and the adders. -/
def node : Nat → Node
  | 0 =>
    { specification := addersIdentifier
      kind := .composite
        { inlets := [frameInlet 0, frameInlet 1]
          outlet := frameOutlet
          entry := board.firsts.getLast?.map adderEntry
          exits := [⟨0⟩, ⟨1⟩]
          joins := [⟨1⟩, ⟨2⟩] }
        (adderParts board.count) }
  | 1 => { specification := addersIdentifier, parent := some ⟨0⟩, kind := .join (joinEntry 0) ⟨0⟩ }
  | 2 => { specification := addersIdentifier, parent := some ⟨0⟩, kind := .join (joinEntry 1) ⟨1⟩ }
  | adder + 3 =>
    { specification := Primitive.adder.identifier
      parent := some ⟨0⟩
      role := some (adderRole adder)
      kind := .native .adder (adderPorts adder) }

/-- The inlets of a board: two of the root and two of each adder. -/
def inlet : Nat → Inlet
  | 0 => { owner := ⟨0⟩, feeds := (board.fed 0).map adderInlet }
  | 1 => { owner := ⟨0⟩, feeds := (board.fed 1).map adderInlet }
  | row + 2 => { owner := adderNode (row / 2), wired := board.wired row }

/-- The outlets of a board: one of the root and one of each adder. -/
def outlet : Nat → Outlet
  | 0 => { owner := ⟨0⟩, wired := !board.relays.isEmpty }
  | adder + 1 =>
    { owner := adderNode adder
      wired := true
      relay := if adder ∈ board.relays then some frameOutlet else none }

/-- The exits of a board: two of the root and two of each adder. -/
def exit : Nat → Exit
  | 0 => { owner := ⟨0⟩ }
  | 1 => { owner := ⟨0⟩ }
  | column + 2 => { owner := adderNode (column / 2), target := board.lead? column }

/-- The graph of a board, cells apart.  An entry admits to the node behind it. -/
def graph : Graph where
  nodes := tabulate (board.count + 3) board.node
  inlets := tabulate (2 * board.count + 2) board.inlet
  outlets := tabulate (board.count + 1) board.outlet
  entries := tabulate (board.count + 2) fun entry => ⟨entry + 1⟩
  exits := tabulate (2 * board.count + 2) board.exit

/-! ### Reading -/

theorem node?_eq {i : Nat} (h : i < board.count + 3) :
    board.graph.node? ⟨i⟩ = some (board.node i) := by
  unfold Graph.node? graph
  rw [getElem?_tabulate, if_pos h]

@[simp] theorem node?_root : board.graph.node? ⟨0⟩ = some (board.node 0) :=
  board.node?_eq (Nat.succ_pos _)

@[simp] theorem node?_adder {adder : Nat} (h : adder < board.count) :
    board.graph.node? (adderNode adder) = some (board.node (adder + 3)) :=
  board.node?_eq (Nat.add_lt_add_right h 3)

@[simp] theorem part?_root (adder : Nat) : board.graph.part? ⟨0⟩ (adderRole adder) =
    if adder < board.count then some (adderNode adder) else none := by
  simp [Graph.part?, node, Node.part?, Node.parts?, get?_adderParts]

@[simp] theorem interface?_adder {adder : Nat} (h : adder < board.count) :
    board.graph.interface? (adderNode adder) = some (adderPorts adder) := by
  simp [Graph.interface?, h, node, Node.interface?]

theorem inletsOf_root : Directive.inletsOf board.graph ⟨0⟩ = [frameInlet 0, frameInlet 1] := by
  simp [Directive.inletsOf, Graph.interface?, node, Node.interface?]

/-- The joins of the root, by their entries. -/
theorem joinEntriesOf_root :
    Directive.joinEntriesOf board.graph ⟨0⟩ = [joinEntry 0, joinEntry 1] := by
  have hfirst : board.graph.entryOf? ⟨1⟩ = some (joinEntry 0) := by
    simp [Graph.entryOf?, board.node?_eq (show 1 < board.count + 3 by omega), node, Node.entry?]
  have hsecond : board.graph.entryOf? ⟨2⟩ = some (joinEntry 1) := by
    simp [Graph.entryOf?, board.node?_eq (show 2 < board.count + 3 by omega), node, Node.entry?]
  simp [Directive.joinEntriesOf, Graph.interface?, node, Node.interface?, hfirst, hsecond]

@[simp] theorem entryOf?_adder {adder : Nat} (h : adder < board.count) :
    board.graph.entryOf? (adderNode adder) = some (adderEntry adder) := by
  simp [Graph.entryOf?, h, node, Node.entry?, adderPorts]

/-! ### Marks -/

/-- Wiring an adder into a row marks the inlet of the row. -/
theorem markInlet (row adder : Nat) : board.graph.markInlet (adderInlet row) =
    { board with links := board.links ++ [(row, adder)] }.graph := by
  have hinlets :
      board.graph.inlets.modify (row + 2) (fun record => { record with wired := true }) =
        tabulate (2 * board.count + 2)
          { board with links := board.links ++ [(row, adder)] }.inlet := by
    -- The row that is linked is marked, and the others are marked as before
    refine modify_tabulate ?_ fun i hi => ?_
    · simp [inlet, wired]
    · match i with
      | 0 => rfl
      | 1 => rfl
      | other + 2 =>
        have hne : row ≠ other := fun h => hi (by rw [h])
        simp [inlet, wired, hne]
  exact congrArg (fun inlets => ({ board.graph with inlets } : Graph)) hinlets

/-- An exit leads where it is led last. -/
theorem setTarget (row column : Nat) :
    board.graph.setTarget (adderExit column) (some (board.rowEntry row)) =
      { board with leads := board.leads ++ [(row, column)] }.graph := by
  have hexits : board.graph.exits.modify (column + 2)
      (fun record => { record with target := some (board.rowEntry row) }) =
      tabulate (2 * board.count + 2)
        { board with leads := board.leads ++ [(row, column)] }.exit := by
    -- The exit of the column gets the target, and no other exit does
    refine modify_tabulate ?_ fun i hi => ?_
    · simp [exit, lead?, rowEntry]
    · match i with
      | 0 => rfl
      | 1 => rfl
      | other + 2 =>
        have hne : column ≠ other := fun h => hi (by rw [h])
        simp [exit, lead?, rowEntry, hne]
  exact congrArg (fun exits => ({ board.graph with exits } : Graph)) hexits

/-- Letting the token in takes the place of where it was let in before. -/
theorem setEntry (adder : Nat) : board.graph.setEntry ⟨0⟩ (adderEntry adder) =
    { board with firsts := board.firsts ++ [adder] }.graph := by
  have hnodes : board.graph.nodes.modify 0
      (Node.modifyInterface fun ports => { ports with entry := some (adderEntry adder) }) =
      tabulate (board.count + 3) { board with firsts := board.firsts ++ [adder] }.node := by
    refine modify_tabulate ?_ fun i hi => ?_
    · simp [node, Node.modifyInterface]
    · match i with
      | 0 => exact absurd rfl hi
      | 1 => rfl
      | 2 => rfl
      | _ + 3 => rfl
  exact congrArg (fun nodes => ({ board.graph with nodes } : Graph)) hnodes

/-- An input feeds one row more, which is thereby wired. -/
theorem feed {row external : Nat} (hexternal : external < 2)
    (hnew : (row, external) ∉ board.feeds) :
    (board.graph.modifyInlet (frameInlet external) fun record =>
        { record with feeds := Cell.joined record.feeds (adderInlet row) }).markInlet
      (adderInlet row) = { board with feeds := board.feeds ++ [(row, external)] }.graph := by
  let board' : Board := { board with feeds := board.feeds ++ [(row, external)] }
  -- First the input lists the row, and then the inlet of the row is marked
  have hrow : adderInlet row ∉ (board.fed external).map adderInlet := by
    simpa [fed, adderInlet] using hnew
  have hjoined : Cell.joined ((board.fed external).map adderInlet) (adderInlet row) =
      (board'.fed external).map adderInlet := by
    rw [Cell.joined, if_neg hrow]
    simp [board', fed]
  have hother {other : Nat} (hne : external ≠ other) : board'.fed other = board.fed other := by
    simp [board', fed, hne]
  have hfed : board.graph.inlets.modify external
      (fun record => { record with feeds := Cell.joined record.feeds (adderInlet row) }) =
      tabulate (2 * board.count + 2)
        (Function.update board.inlet external (board'.inlet external)) := by
    refine modify_tabulate ?_ fun i hi => Function.update_of_ne hi _ _
    rw [Function.update_self]
    match external with
    | 0 => simp [inlet, hjoined]
    | 1 => simp [inlet, hjoined]
  have hmarked : (tabulate (2 * board.count + 2)
      (Function.update board.inlet external (board'.inlet external))).modify (row + 2)
        (fun record => { record with wired := true }) =
      tabulate (2 * board.count + 2) board'.inlet := by
    have hbehind (other : Nat) : other + 2 ≠ external := by omega
    -- At the row the mark is new, and elsewhere it is what it was
    refine modify_tabulate ?_ fun i hi => ?_
    · rw [Function.update_of_ne (hbehind row)]
      simp [inlet, wired, board']
    · by_cases hsame : i = external
      · rw [hsame, Function.update_self]
      · rw [Function.update_of_ne hsame]
        match i with
        | 0 => simp [inlet, hother (Ne.symm hsame)]
        | 1 => simp [inlet, hother (Ne.symm hsame)]
        | other + 2 =>
          have hne : row ≠ other := fun h => hi (by rw [h])
          simp [inlet, wired, board', hne]
  rw [← hfed] at hmarked
  exact congrArg (fun inlets => ({ board.graph with inlets } : Graph)) hmarked

/-- The outlet of one adder more is relayed, so the output is wired. -/
theorem relay (adder : Nat) :
    (board.graph.modifyOutlet (adderOutlet adder) fun record =>
        { record with relay := some frameOutlet }).markOutlet frameOutlet =
      { board with relays := board.relays ++ [adder] }.graph := by
  let board' : Board := { board with relays := board.relays ++ [adder] }
  -- First the outlet of the adder is relayed, and then that of the root is marked
  have hrelayed : board.graph.outlets.modify (adder + 1)
      (fun record => { record with relay := some frameOutlet }) =
      tabulate (board.count + 1)
        (Function.update board.outlet (adder + 1) (board'.outlet (adder + 1))) := by
    refine modify_tabulate ?_ fun i hi => Function.update_of_ne hi _ _
    simp [outlet, board']
  have hmarked : (tabulate (board.count + 1)
      (Function.update board.outlet (adder + 1) (board'.outlet (adder + 1)))).modify 0
        (fun record => { record with wired := true }) =
      tabulate (board.count + 1) board'.outlet := by
    refine modify_tabulate ?_ fun i hi => ?_
    · simp [outlet, board']
    · by_cases hsame : i = adder + 1
      · rw [hsame, Function.update_self]
      · rw [Function.update_of_ne hsame]
        match i with
        | 0 => exact absurd rfl hi
        | other + 1 =>
          have hne : other ≠ adder := fun h => hsame (by rw [h])
          simp [outlet, board', hne]
  rw [← hrelayed] at hmarked
  exact congrArg (fun outlets => ({ board.graph with outlets } : Graph)) hmarked

/-! ### Adders -/

/-- A frame without adders. -/
theorem addComposite : (({} : Graph).addComposite addersIdentifier 2 2 false).1 = ⟨0⟩ ∧
    (({} : Graph).addComposite addersIdentifier 2 2 false).2.bare =
      ({ count := 0 } : Board).graph :=
  ⟨rfl, by decide +kernel⟩

/-- The new node is given its place, and then the root lists it under its role. -/
theorem nodes_succ (count : Nat) (record : Node) {place : Node → Node}
    (hplace : place record = ({ count } : Board).node (count + 3)) :
    (((tabulate (count + 3) ({ count } : Board).node).push record).modify (count + 3) place).modify 0
        (Node.addPart (adderRole count) (adderNode count)) =
      tabulate (count + 4) ({ count := count + 1 } : Board).node := by
  have hpushed := Graph.modify_size_push (tabulate (count + 3) ({ count } : Board).node) record
    place
  rw [size_tabulate] at hpushed
  rw [hpushed, push_tabulate hplace.symm fun _ _ => rfl]
  -- The record of the composite lists the new adder, and the joins stay
  refine modify_tabulate ?_ fun i hi => ?_
  · simp [node, Node.addPart, insert_adderParts]
  · rcases i with _ | _ | _ | i
    · exact absurd rfl hi
    · rfl
    · rfl
    · rfl

theorem inlets_succ (count : Nat) : tabulate (2 * count + 2) ({ count } : Board).inlet ++
      Array.replicate 2 { owner := adderNode count } =
    tabulate (2 * (count + 1) + 2) ({ count := count + 1 } : Board).inlet := by
  have hpair (inlets : Array Inlet) (record : Inlet) :
      inlets ++ Array.replicate 2 record = (inlets.push record).push record := by
    refine Array.ext' ?_
    simp [List.replicate]
  have hhalf : (2 * count + 1) / 2 = count := by omega
  rw [hpair, Nat.mul_succ]
  refine push_push_tabulate ?_ ?_ fun _ _ => rfl
  · simp [inlet, wired]
  · simp [inlet, hhalf, wired]

theorem exits_succ (count : Nat) : ((tabulate (2 * count + 2) ({ count } : Board).exit).push
      { owner := adderNode count }).push { owner := adderNode count } =
    tabulate (2 * (count + 1) + 2) ({ count := count + 1 } : Board).exit := by
  have hhalf : (2 * count + 1) / 2 = count := by omega
  rw [Nat.mul_succ]
  refine push_push_tabulate ?_ ?_ fun _ _ => rfl
  · simp [exit, lead?]
  · simp [exit, hhalf, lead?]

/-- **One more adder** is one more node with its ports, before anything is wired. -/
theorem addAdder {graph : Graph} {count : Nat} (h : graph.bare = ({ count } : Board).graph) :
    (graph.addNative .adder Primitive.adder.identifier false).1 = adderNode count ∧
      ((graph.addNative .adder Primitive.adder.identifier false).2.adopt ⟨0⟩ (adderRole count)
        (adderNode count)).bare = ({ count := count + 1 } : Board).graph := by
  have hnodes : graph.nodes = tabulate (count + 3) ({ count } : Board).node :=
    (congrArg Graph.nodes h :)
  have hinlets := congrArg (fun g : Graph => g.inlets.size) h
  have houtlets := congrArg (fun g : Graph => g.outlets.size) h
  have hentries : graph.entries = tabulate (count + 2) fun entry => ⟨entry + 1⟩ :=
    (congrArg Graph.entries h :)
  have hexits : graph.exits = tabulate (2 * count + 2) ({ count } : Board).exit :=
    (congrArg Graph.exits h :)
  simp only [Graph.bare, Board.graph, Array.size_map, size_tabulate] at hinlets houtlets
  have hsize : graph.nodes.size = count + 3 := by rw [hnodes, size_tabulate]
  -- The handles of the new ports are the sizes that the arrays of ports have had
  have hports : graph.nativePorts .adder = adderPorts count := by
    simp [Graph.nativePorts, adderPorts, Primitive.inletCount, Primitive.exitCount,
      List.range_succ, hinlets, houtlets, hentries, hexits, adderInlet, adderOutlet, adderEntry,
      adderExit]
  have hadded := graph.bare_addNative .adder Primitive.adder.identifier false
  rw [h, hports, hsize] at hadded
  have hadopt (graph : Graph) : (graph.adopt ⟨0⟩ (adderRole count) (adderNode count)).bare =
      graph.bare.adopt ⟨0⟩ (adderRole count) (adderNode count) := rfl
  refine ⟨congrArg NodeId.mk hsize, ?_⟩
  rw [hadopt, hadded, hnodes, hentries, hexits]
  unfold Graph.adopt Graph.modifyNode Board.graph
  dsimp only
  -- One array of records after another
  rw [Graph.mk.injEq]
  refine ⟨?_, ?_, ?_, ?_, ?_, rfl⟩
  · exact nodes_succ count _ rfl
  · exact inlets_succ count
  · exact push_tabulate rfl fun _ _ => rfl
  · exact push_tabulate rfl fun _ _ => rfl
  · exact exits_succ count

end Board

end Matrix

end TokenNet
