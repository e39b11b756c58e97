import TokenNet.Proofs.Blueprint.Shuffled
import TokenNet.Proofs.Shift.Wires

/-!
# How a shift is grown

The log of a shift asks for its adders, wires them and exposes an entry.  Each directive resolves to
a change of the ports of the adders that stand under the roles it names, since those are all that
the shift has got; so carrying out the log comes to the wirings of the shift.

## Main statements

- `Stocked.rewiring?_dataFlow` and the like: what the directives of a log amount to.
- `Shift.replayOrder_of_log?`: the log of a shift.
- `Shift.Holds.exists_ready`: a shift that has got its adders is ready for its wirings.
- `Draft.layout_of_grow`: whatever comes before, a shift is grown with its layout.
-/

namespace TokenNet

open TokenNet.Graph

variable {graph : Graph} {composite : NodeId} {specification name : String} {ports : Interface}
  {stock : List (String × Adder)}

/-! ## What directives amount to -/

namespace Stocked

open Directive

variable {role target : String} {a b : Adder}

theorem findPart_eq (h : Stocked graph composite specification ports stock)
    (hmember : (role, a) ∈ stock) : findPart graph composite name role = .ok a.node := by
  unfold findPart
  rw [(h.known _ hmember).1]

theorem inletsOf_eq (h : Stocked graph composite specification ports stock)
    (hmember : (role, a) ∈ stock) : inletsOf graph a.node = a.ports.inlets := by
  obtain ⟨found, hfound, hinlets, _⟩ := (h.known _ hmember).2.exists_interface?
  unfold inletsOf
  rw [hfound]
  exact hinlets

theorem exitsOf_eq (h : Stocked graph composite specification ports stock)
    (hmember : (role, a) ∈ stock) : exitsOf graph a.node = a.ports.exits := by
  obtain ⟨found, hfound, _, _, _, hexits⟩ := (h.known _ hmember).2.exists_interface?
  unfold exitsOf
  rw [hfound]
  exact hexits

theorem findEntry_eq (h : Stocked graph composite specification ports stock)
    (hmember : (role, a) ∈ stock) : findEntry graph name role a.node = .ok a.entry := by
  unfold findEntry
  rw [(h.known _ hmember).2.entryOf?]

theorem findPort_eq {α : Type} {listed : List α} {found : α} {index : Nat}
    (h : listed[index]? = some found) (given : Option String) (kind : PortKind) :
    findPort listed name given kind index = .ok found := by
  unfold findPort
  rw [h]

section

variable (h : Stocked graph composite specification ports stock) (hmember : (role, a) ∈ stock)

include h hmember

theorem rewiring?_dataFlow (htarget : (target, b) ∈ stock) {index : Nat} {inlet : InletId}
    (hinlet : b.ports.inlets[index]? = some inlet) :
    rewiring? graph composite name (.dataFlow role target index) =
      some (.connect inlet a.outlet) := by
  obtain ⟨found, hfound, _, houtlet, _⟩ := (h.known _ hmember).2.exists_interface?
  unfold rewiring?
  simp [resolve, both, h.findPart_eq hmember, h.findPart_eq htarget, h.inletsOf_eq htarget,
    findPort_eq hinlet, hfound, houtlet, bind, Except.bind, pure, Except.pure]

theorem rewiring?_controlFlow (htarget : (target, b) ∈ stock) {index : Nat} {exit : ExitId}
    (hexit : a.ports.exits[index]? = some exit) :
    rewiring? graph composite name (.controlFlow role index target) =
      some (.direct exit b.entry) := by
  unfold rewiring?
  simp [resolve, both, h.findPart_eq hmember, h.findPart_eq htarget, h.exitsOf_eq hmember,
    findPort_eq hexit, h.findEntry_eq htarget, bind, Except.bind, pure, Except.pure]

theorem rewiring?_exposeInlet {index external : Nat} {inner outer : InletId}
    (hinner : a.ports.inlets[index]? = some inner) (houter : ports.inlets[external]? = some outer) :
    rewiring? graph composite name (.exposeInlet role index external) =
      some (.feed outer inner) := by
  obtain ⟨found, hfound, hinlets, _⟩ := exists_interface?_of_faceOf? h.face
  have hlisted : inletsOf graph composite = ports.inlets := by
    unfold inletsOf
    rw [hfound]
    exact hinlets
  unfold rewiring?
  simp [resolve, h.findPart_eq hmember, h.inletsOf_eq hmember, findPort_eq hinner, hlisted,
    findPort_eq houter, bind, Except.bind, pure, Except.pure]

theorem rewiring?_exposeOutlet :
    rewiring? graph composite name (.exposeOutlet role) =
      some (.relay ports.outlet a.outlet) := by
  obtain ⟨found, hfound, _, houtlet, _⟩ := exists_interface?_of_faceOf? h.face
  obtain ⟨inner, hinner, _, houtlet', _⟩ := (h.known _ hmember).2.exists_interface?
  unfold rewiring?
  simp [resolve, h.findPart_eq hmember, hfound, hinner, houtlet, houtlet', bind, Except.bind, pure,
    Except.pure]

theorem rewiring?_exposeExit {index external : Nat} {exit : ExitId} {entry : EntryId}
    (hexit : a.ports.exits[index]? = some exit)
    (hentry : (joinEntriesOf graph composite)[external]? = some entry) :
    rewiring? graph composite name (.exposeExit role index external) =
      some (.direct exit entry) := by
  unfold rewiring?
  simp [resolve, h.findPart_eq hmember, h.exitsOf_eq hmember, findPort_eq hexit,
    findPort_eq hentry, bind, Except.bind, pure, Except.pure]

theorem resolve_exposeEntry :
    resolve graph composite name (.exposeEntry role) = .ok (some (.enter composite a.entry)) := by
  simp [resolve, h.findPart_eq hmember, h.findEntry_eq hmember, bind, Except.bind, pure,
    Except.pure]

end

end Stocked

namespace Shift

variable {shift : Shift} {zero source sum : Adder}

/-! ## The log of a shift -/

/-- The role of the adder that holds the constant. -/
def sourceRole : Shift → String
  | increment => "1_001"
  | decrement => "-1_001"
  | assignment => "0_001"

/-- The roles of the adders, in the order in which they are made. -/
def roles : Shift → List String
  | increment => ["0_001", "1_001", "+_001"]
  | decrement => ["0_001", "-1_001", "+_001"]
  | assignment => ["0_001", "+_001"]

/-- The directives that wire a shift, but for its entry. -/
def wiringLog (shift : Shift) : List Directive :=
  (match shift with
    | increment => [.dataFlow "0_001" "1_001" 0, .dataFlow "1_001" "+_001" 1,
        .controlFlow "1_001" 1 "+_001"]
    | decrement => [.dataFlow "0_001" "-1_001" 1, .dataFlow "-1_001" "+_001" 1,
        .controlFlow "-1_001" 1 "+_001"]
    | assignment => [.dataFlow "0_001" "+_001" 1]) ++
  [.exposeInlet "+_001" 0 0, .exposeOutlet "+_001", .exposeExit "+_001" 0 (shift.exit 0),
    .exposeExit "+_001" 1 (shift.exit 1)]

/-- The role of the adder whose entry is exposed. -/
def entryRole (shift : Shift) : String :=
  if shift.primes then shift.sourceRole else "+_001"

/-- The log of a shift asks for its adders, wires them, and exposes an entry. -/
theorem replayOrder_of_log? {index : Nat} {log : List Directive}
    (h : shift.specification.log? index = some log) : Directive.replayOrder log =
      shift.roles.map (fun role => .part Arithmetic.adder role) ++
        (shift.wiringLog ++ [.exposeEntry shift.entryRole]) := by
  -- There is only one implementation
  cases index with
  | zero => cases shift <;> (cases h; rfl)
  | succ index => cases shift <;> cases h

theorem primitive?_specification (shift : Shift) (index : Nat) :
    shift.specification.primitive? index = none := by
  cases index <;> cases shift <;> rfl

/-- The three adders of a shift among those that it has got; an assignment has only two. -/
structure Holds (shift : Shift) (stock : List (String × Adder)) (zero source sum : Adder) :
    Prop where
  zeroHeld : ("0_001", zero) ∈ stock
  sourceHeld : (shift.sourceRole, source) ∈ stock
  sumHeld : ("+_001", sum) ∈ stock
  sourceSum : source.node ≠ sum.node
  zeroSum : zero.node ≠ sum.node
  zeroSource : shift.primes = true → zero.node ≠ source.node

theorem exists_holds {adders : List Adder} (hlength : adders.length = shift.roles.length)
    (happart : ((shift.roles.zip adders).map fun member => member.2.node).Nodup) :
    ∃ zero source sum, shift.Holds (shift.roles.zip adders) zero source sum := by
  -- The roles of the shift, matched with its adders in order
  cases shift with
  | assignment =>
    obtain ⟨source, sum, rfl⟩ := List.length_eq_two.mp hlength
    simp only [roles, List.zip_cons_cons, List.zip_nil_right, List.map_cons, List.map_nil,
      List.nodup_cons, List.mem_singleton] at happart
    exact ⟨source, source, sum, by simp [roles], by simp [roles, sourceRole], by simp [roles],
      happart.1, happart.1, nofun⟩
  | increment | decrement =>
    obtain ⟨zero, source, sum, rfl⟩ := List.length_eq_three.mp hlength
    simp only [roles, List.zip_cons_cons, List.zip_nil_right, List.map_cons, List.map_nil,
      List.nodup_cons, List.mem_cons, not_or] at happart
    obtain ⟨⟨hzeroSource, hzeroSum, _⟩, ⟨hsourceSum, _⟩, _⟩ := happart
    exact ⟨zero, source, sum, by simp [roles], by simp [roles, sourceRole], by simp [roles],
      hsourceSum, hzeroSum, fun _ => hzeroSource⟩

/-- The log of a shift that has got its adders resolves to its wirings. -/
theorem Holds.rewiring?_wiringLog (h : shift.Holds stock zero source sum)
    (hstocked : Stocked graph composite shift.specification.identifier ports stock)
    {inlet : InletId} {first second : EntryId} (hinlet : ports.inlets = [inlet])
    (hfirst : (Directive.joinEntriesOf graph composite)[shift.exit 0]? = some first)
    (hsecond : (Directive.joinEntriesOf graph composite)[shift.exit 1]? = some second)
    (name : String) : shift.wiringLog.filterMap (Directive.rewiring? graph composite name) =
      shift.wirings zero source sum inlet ports.outlet first second := by
  -- Each directive finds the adders under their roles, and gives one rewiring
  have hfeed : Directive.rewiring? graph composite name (.exposeInlet "+_001" 0 0) = _ :=
    hstocked.rewiring?_exposeInlet h.sumHeld rfl (by rw [hinlet]; rfl)
  have hrelay : Directive.rewiring? graph composite name (.exposeOutlet "+_001") = _ :=
    hstocked.rewiring?_exposeOutlet h.sumHeld
  have hzero : Directive.rewiring? graph composite name
      (.exposeExit "+_001" 0 (shift.exit 0)) = _ :=
    hstocked.rewiring?_exposeExit h.sumHeld rfl hfirst
  have hother : Directive.rewiring? graph composite name
      (.exposeExit "+_001" 1 (shift.exit 1)) = _ :=
    hstocked.rewiring?_exposeExit h.sumHeld rfl hsecond
  have hread : Directive.rewiring? graph composite name
      (.dataFlow shift.sourceRole "+_001" 1) = _ :=
    hstocked.rewiring?_dataFlow h.sourceHeld h.sumHeld rfl
  have hnext : Directive.rewiring? graph composite name
      (.controlFlow shift.sourceRole 1 "+_001") = _ :=
    hstocked.rewiring?_controlFlow h.sourceHeld h.sumHeld rfl
  -- Which inlet of the source the constant goes to depends on the shift
  have hconstant (index : Nat) (inlet : InletId)
      (hinlet : source.ports.inlets[index]? = some inlet) : Directive.rewiring? graph composite
        name (.dataFlow "0_001" shift.sourceRole index) = _ :=
    hstocked.rewiring?_dataFlow h.zeroHeld h.sourceHeld hinlet
  unfold wiringLog wirings priming
  cases shift with
  | assignment =>
    unfold sourceRole at hread
    simp [hread, hfeed, hrelay, hzero, hother]
  | increment =>
    have hprime := hconstant 0 source.left rfl
    unfold sourceRole at hread hnext hprime
    simp [hprime, hread, hnext, hfeed, hrelay, hzero, hother]
  | decrement =>
    have hprime := hconstant 1 source.right rfl
    unfold sourceRole at hread hnext hprime
    simp [hprime, hread, hnext, hfeed, hrelay, hzero, hother]

/-- **A shift that has got its adders is ready**, and its log resolves to its wirings. -/
theorem Holds.exists_ready (h : shift.Holds stock zero source sum) {frame : Graph}
    (hports : ports =
      frame.compositePorts shift.specification.inletCount shift.specification.exitCount)
    (hstocked : Stocked graph composite shift.specification.identifier ports stock) :
    ∃ inlet first second,
      shift.Ready graph composite ports inlet zero source sum first second ∧
      (shift.entryRole, shift.first source sum) ∈ stock ∧
      ∀ name, shift.wiringLog.filterMap (Directive.rewiring? graph composite name) =
        shift.wirings zero source sum inlet ports.outlet first second := by
  -- The ports of the frame, as many as the specification says
  have hinlet : ports.inlets = [⟨frame.inlets.size⟩] := by
    rw [hports]
    cases shift <;> rfl
  obtain ⟨outer, houter⟩ : ∃ outer, ports.exits[shift.exit 0]? = some outer := by
    rw [hports]
    cases shift <;> exact ⟨_, rfl⟩
  obtain ⟨outer', houter'⟩ : ∃ outer, ports.exits[shift.exit 1]? = some outer := by
    rw [hports]
    cases shift <;> exact ⟨_, rfl⟩
  obtain ⟨join, record, first, hjoin, hrecord, hkind, hfirst⟩ := hstocked.exists_join houter
  obtain ⟨join', record', second, hjoin', hrecord', hkind', hsecond⟩ :=
    hstocked.exists_join houter'
  refine ⟨⟨frame.inlets.size⟩, first, second, ?ready, ?entry, fun name => ?log⟩
  -- What the stock knows of the adders and the frame is all that the wiring needs
  case ready =>
    exact {
      built := hstocked.built
      pending := hstocked.pending
      face := hstocked.face
      inlets := hinlet
      unfed := hstocked.unfed _ (by simp [hinlet])
      zeroSpare := (hstocked.known _ h.zeroHeld).2
      sourceSpare := (hstocked.known _ h.sourceHeld).2
      sumSpare := (hstocked.known _ h.sumHeld).2
      sourceSum := h.sourceSum
      zeroSum := h.zeroSum
      zeroSource := h.zeroSource
      first := ⟨outer, join, record, houter, hjoin, hrecord, hkind⟩
      second := ⟨outer', join', record', houter', hjoin', hrecord', hkind'⟩ }
  case entry =>
    unfold entryRole Shift.first
    split
    · exact h.sourceHeld
    · exact h.sumHeld
  case log => exact h.rewiring?_wiringLog hstocked hinlet hfirst hsecond name

end Shift

/-! ## Growing a shift -/

namespace Draft

variable {library : Library} {traced : Bool} {limit levels index : Nat} {node : NodeId}
  {start now : Draft} {shift : Shift}

theorem nodes_rewireAll_of_ne {log : List Directive}
    (hlog : ∀ directive ∈ log, ∀ role, directive ≠ .exposeEntry role) (draft : Draft) :
    (draft.rewireAll composite name log).graph.nodes = draft.graph.nodes := by
  induction log generalizing draft with
  | nil => rfl
  | cons first rest ih =>
    have hrest := ih (fun later hlater => hlog later (List.mem_cons_of_mem first hlater))
      (draft.rewire composite name first)
    exact hrest.trans (draft.nodes_rewire_of_ne composite name (hlog first List.mem_cons_self))

/-- The wirings of a shift that is ready, and then its entry, give it its layout. -/
theorem layout_of_rewireAll {draft : Draft} {inlet : InletId} {zero source sum : Adder}
    {first second : EntryId} {name : String}
    (hstocked : Stocked draft.graph composite shift.specification.identifier ports stock)
    (hready : shift.Ready draft.graph composite ports inlet zero source sum first second)
    (hentry : (shift.entryRole, shift.first source sum) ∈ stock)
    (hlog : shift.wiringLog.filterMap (Directive.rewiring? draft.graph composite name) =
      shift.wirings zero source sum inlet ports.outlet first second) :
    shift.Layout (draft.rewireAll composite name
        (shift.wiringLog ++ [.exposeEntry shift.entryRole])).graph composite
      { ports with entry := some (shift.first source sum).entry } inlet source sum := by
  have hplain : ∀ directive ∈ shift.wiringLog, ∀ role, directive ≠ .exposeEntry role := by
    cases shift <;> simp [Shift.wiringLog]
  have hbase := (Constructs.linked hready.built).represents.hasScheme
  let wired := draft.rewireAll composite name shift.wiringLog
  have hscheme : wired.graph.HasScheme _ :=
    hasScheme_rewireAll hbase (Constructs.closed hready.built .empty) hplain
  rw [hlog] at hscheme
  -- The wirings change no node, so the entry is found where it was
  have hnodes : wired.graph.nodes = draft.graph.nodes := nodes_rewireAll_of_ne hplain draft
  have hresolve := (Directive.resolve_of_nodes_eq hnodes composite name _).trans
    (hstocked.resolve_exposeEntry hentry)
  have hexposed : (wired.rewire composite name (.exposeEntry shift.entryRole)).graph =
      wired.graph.setEntry composite (shift.first source sum).entry :=
    graph_rewire hresolve
  rw [rewireAll_append]
  have hlayout := hready.layout hbase hscheme hnodes
  rw [← hexposed] at hlayout
  exact hlayout

/-- **Whatever comes before, a shift is grown with its layout.** -/
theorem layout_of_grow (hadder : library.get? Arithmetic.adder = some (.ofPrimitive .adder))
    (hstart : Constructs {} start.graph)
    (h : grow library traced limit levels shift.specification index start = .ok (node, now)) :
    ∃ ports inlet source sum, shift.Layout now.graph node ports inlet source sum := by
  cases levels with
  | zero => cases h
  | succ levels =>
    rcases grow_eq_ok_iff.mp h with ⟨primitive, hprimitive, _⟩ | ⟨log, hlog, rfl, hreplay⟩
    · cases (shift.primitive?_specification index).symm.trans hprimitive
    · obtain ⟨hplace, _, _⟩ := start.graph.node?_addComposite shift.specification.identifier
        shift.specification.inletCount shift.specification.exitCount traced
      rw [hplace, Shift.replayOrder_of_log? hlog] at hreplay
      rw [hplace]
      -- The log first asks for the adders, and then it wires them
      obtain ⟨middle, hparts, hwires⟩ := exists_of_replayAll_append hreplay
      obtain ⟨adders, hlength, hstocked⟩ := stocked_replayAll hadder shift.roles
        (by cases shift <;> decide) (.frame hstart shift.specification.identifier _ _ traced) hparts
      rw [List.nil_append] at hstocked
      obtain ⟨zero, source, sum, hholds⟩ := Shift.exists_holds hlength hstocked.apart
      obtain ⟨inlet, first, second, hready, hentry, hwirings⟩ :=
        hholds.exists_ready rfl hstocked
      have hlater : ∀ directive ∈ shift.wiringLog ++ [.exposeEntry shift.entryRole],
          directive.phase ≠ .parts := by
        cases shift <;> simp [Shift.wiringLog, Directive.phase]
      rw [replayAll_of_wirings hlater] at hwires
      obtain rfl := Except.ok.inj hwires
      exact ⟨_, inlet, source, sum, layout_of_rewireAll hstocked hready hentry (hwirings _)⟩

end Draft

end TokenNet
