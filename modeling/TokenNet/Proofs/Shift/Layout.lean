import TokenNet.Arithmetic
import TokenNet.Proofs.Change.Inside

/-!
# Shifts

Three composites of the arithmetic library shift their input by a constant: the steps add one and
minus one, and an assignment adds zero.  Each of them holds an adder that sums its input and the
output of another adder, and this other adder is a constant because it is not fully wired.

Here it is said what is inside such a composite, wherever it stands.  All of it concerns the
composite itself, its parts and their ports, so it is still true when something is built around it.

## Main statements

- `Shift`: the three composites, and what they compute.
- `Adder.In`: an adder is part of a composite.
- `Shift.Layout`: what is inside a shift.
- `Shift.Layout.sameInside`: it stays so as long as the inside stays the same.
-/

namespace TokenNet

/-! ## Constants that are added -/

/-- A composite of the arithmetic library that adds a constant to its input. -/
inductive Shift where
  | increment
  | decrement
  | assignment
deriving DecidableEq, Repr

namespace Shift

/-- The specification of a shift. -/
def specification : Shift → Specification
  | increment => Arithmetic.increment
  | decrement => Arithmetic.decrement
  | assignment => Arithmetic.assignment

/-- The constant that is added. -/
def addend : Shift → Value
  | increment => 1
  | decrement => -1
  | assignment => 0

/-- Whether the adder that holds the constant is fired at every run.  The constant zero is there
from the start. -/
def primes : Shift → Bool
  | increment | decrement => true
  | assignment => false

/-- The number of firings from the entry of a shift to one of its exits, a join included. -/
def firings (shift : Shift) : Nat :=
  if shift.primes then 3 else 2

/-- The position of the exit by which a shift is left with a result. -/
def exit : Shift → Value → Nat
  | increment, result | decrement, result => Primitive.branch result
  | assignment, _ => 0

/-- Which inlets of the adder that holds the constant are wired. -/
def wires : Shift → Bool × Bool
  | increment => (true, false)
  | decrement => (false, true)
  | assignment => (false, false)

/-- An adder wired like this is the constant, whatever its inlets show. -/
theorem sum_wires (shift : Shift) (left right : Value) :
    Primitive.sum ⟨shift.wires.1, left⟩ ⟨shift.wires.2, right⟩ = shift.addend := by
  cases shift <;> rfl

end Shift

/-! ## Adders -/

/-- The handles of an adder. -/
structure Adder where
  node : NodeId
  left : InletId
  right : InletId
  outlet : OutletId
  entry : EntryId
  zero : ExitId
  other : ExitId

namespace Adder

open TokenNet.Graph

/-- The ports of an adder. -/
def ports (a : Adder) : Interface where
  inlets := [a.left, a.right]
  outlet := a.outlet
  entry := some a.entry
  exits := [a.zero, a.other]

/-- An adder is part of a composite. -/
structure In (a : Adder) (graph : Graph) (composite : NodeId) : Prop where
  parent : graph.parentOf? a.node = some composite
  form : ∃ record, graph.node? a.node = some record ∧
    record.form.kind = .native .adder a.ports

namespace In

variable {a b : Adder} {graph graph' : Graph} {composite : NodeId}

theorem sameInside (h : a.In graph composite) (hsame : SameInside composite graph graph') :
    a.In graph' composite := by
  refine ⟨hsame.parentOf? h.parent, ?_⟩
  obtain ⟨record, hrecord, hkind⟩ := h.form
  have hform := hsame.part h.parent
  rw [hrecord, Option.map_some] at hform
  obtain ⟨record', hrecord', hsame⟩ := Option.map_eq_some_iff.mp hform
  exact ⟨record', hrecord', hsame ▸ hkind⟩

theorem of_node?_eq (h : a.In graph composite)
    (hsame : graph'.node? a.node = graph.node? a.node) : a.In graph' composite := by
  refine ⟨?_, hsame ▸ h.form⟩
  unfold Graph.parentOf?
  rw [hsame]
  exact h.parent

/-- What an adder remembers is of no concern. -/
theorem exists_kind (h : a.In graph composite) : ∃ record ports,
    graph.node? a.node = some record ∧ record.kind = .native .adder ports ∧
      ports.inlets = [a.left, a.right] ∧ ports.outlet = a.outlet ∧
        ports.entry = some a.entry ∧ ports.exits = [a.zero, a.other] := by
  obtain ⟨record, hrecord, hkind⟩ := h.form
  refine ⟨record, ?_⟩
  -- Only a native node is of the form of an adder
  obtain ⟨_, _, _, _, kind⟩ := record
  cases kind with
  | native primitive ports =>
    obtain ⟨rfl, hports⟩ := NodeKind.native.inj hkind
    obtain ⟨hinlets, houtlet, hentry, hexits, _⟩ := Interface.mk.inj hports
    exact ⟨ports, hrecord, rfl, hinlets, houtlet, hentry, hexits⟩
  | composite => cases hkind
  | join => cases hkind

theorem exists_interface? (h : a.In graph composite) : ∃ ports,
    graph.interface? a.node = some ports ∧ ports.inlets = a.ports.inlets ∧
      ports.outlet = a.outlet ∧ ports.entry = some a.entry ∧ ports.exits = a.ports.exits := by
  obtain ⟨record, ports, hrecord, hkind, hports⟩ := h.exists_kind
  refine ⟨ports, Option.bind_eq_some_iff.mpr ⟨record, hrecord, ?_⟩, hports⟩
  unfold Node.interface?
  rw [hkind]

theorem acts (h : a.In graph composite) : graph.Acts a.node := by
  obtain ⟨record, ports, hrecord, hkind, _⟩ := h.exists_kind
  refine ⟨record, hrecord, ?_⟩
  unfold Node.acts
  rw [hkind]

theorem entryOf? (h : a.In graph composite) : graph.entryOf? a.node = some a.entry := by
  obtain ⟨record, ports, hrecord, hkind, _, _, hentry, _⟩ := h.exists_kind
  refine Option.bind_eq_some_iff.mpr ⟨record, hrecord, ?_⟩
  unfold Node.entry?
  rw [hkind]
  exact hentry

/-- The data ports of an adder stand in its composite. -/
theorem site (h : a.In graph composite) {port : Port} (howner : graph.ownerOf? port = some a.node) :
    graph.siteOf? port = some composite :=
  siteOf?_eq_some_iff.mpr ⟨a.node, howner, h.parent⟩

section

variable (h : a.In graph composite) (hlineage : graph.Lineage)

include h hlineage

theorem leftOwner : graph.ownerOf? (.inlet a.left) = some a.node := by
  obtain ⟨found, hfound, hinlets, _⟩ := h.exists_interface?
  exact hlineage.inlet hfound (by simp [hinlets, ports])

theorem rightOwner : graph.ownerOf? (.inlet a.right) = some a.node := by
  obtain ⟨found, hfound, hinlets, _⟩ := h.exists_interface?
  exact hlineage.inlet hfound (by simp [hinlets, ports])

theorem outletOwner : graph.ownerOf? (.outlet a.outlet) = some a.node := by
  obtain ⟨ports, hports, _, houtlet, _⟩ := h.exists_interface?
  exact houtlet ▸ hlineage.outlet hports

theorem zeroOwner : graph.exitOwner? a.zero = some a.node := by
  obtain ⟨found, hfound, _, _, _, hexits⟩ := h.exists_interface?
  exact hlineage.exit hfound (by simp [hexits, ports])

theorem otherOwner : graph.exitOwner? a.other = some a.node := by
  obtain ⟨found, hfound, _, _, _, hexits⟩ := h.exists_interface?
  exact hlineage.exit hfound (by simp [hexits, ports])

end

end In

end Adder

/-! ## Joins -/

/-- An exit hands the token to the join of a composite that returns by another exit. -/
def Graph.Returns (graph : Graph) (composite : NodeId) (exit outer : ExitId) : Prop :=
  ∃ join record entry, graph.parentOf? join = some composite ∧
    graph.node? join = some record ∧ record.kind = .join entry outer ∧
      graph.target? exit = some entry

theorem Graph.Returns.sameInside {graph graph' : Graph} {composite part : NodeId}
    {exit outer : ExitId} (h : graph.Returns composite exit outer)
    (hsame : SameInside composite graph graph') (howner : graph.exitOwner? exit = some part)
    (hparent : graph.parentOf? part = some composite) : graph'.Returns composite exit outer := by
  obtain ⟨join, record, entry, hjoin, hrecord, hkind, htarget⟩ := h
  have hform := hsame.part hjoin
  rw [hrecord, Option.map_some] at hform
  obtain ⟨record', hrecord', hform⟩ := Option.map_eq_some_iff.mp hform
  refine ⟨join, record', entry, hsame.parentOf? hjoin, hrecord', ?_,
    (hsame.target howner hparent).trans htarget⟩
  -- A join has nothing to remember
  have hkinds := congrArg Node.kind hform
  obtain ⟨_, _, _, _, kind⟩ := record'
  obtain ⟨_, _, _, _, _⟩ := record
  cases hkind
  cases kind with
  | join => exact hkinds
  | native => cases hkinds
  | composite => cases hkinds

/-! ## The inside of a shift -/

namespace Shift

open TokenNet.Graph

/-- The adder at which a shift is entered. -/
def first (shift : Shift) (source sum : Adder) : Adder :=
  if shift.primes then source else sum

/-- What is inside a shift with some ports, one inlet among them: the adder `source` holds the
constant, and the adder `sum` adds it to the input. -/
structure Layout (shift : Shift) (graph : Graph) (node : NodeId) (ports : Interface)
    (inlet : InletId) (source sum : Adder) : Prop where
  face : graph.faceOf? node = some (shift.specification.identifier, ports)
  inlets : ports.inlets = [inlet]
  entry : ports.entry = some (shift.first source sum).entry
  sourceIn : source.In graph node
  sumIn : sum.In graph node
  feeds : ∀ inner, graph.Feeds inlet inner ↔ inner = sum.left
  relay : graph.relayOf? sum.outlet = some ports.outlet
  unrelayed : graph.relayOf? source.outlet = none
  primed : shift.primes = true → graph.target? source.other = some sum.entry
  zero : ∃ exit, ports.exits[shift.exit 0]? = some exit ∧ graph.Returns node sum.zero exit
  other : ∃ exit, ports.exits[shift.exit 1]? = some exit ∧ graph.Returns node sum.other exit
  constant : (graph.portWired (.inlet source.left), graph.portWired (.inlet source.right)) =
    shift.wires
  wired : graph.portWired (.inlet sum.left) = true ∧ graph.portWired (.inlet sum.right) = true
  /-- The adder that sums reads the constant, and nothing else does. -/
  reads : ∀ port, graph.SharesCell (.inlet sum.right) port ↔
    port = .inlet sum.right ∨ port = .outlet source.outlet
  operand : ∀ port, graph.SharesCell (.inlet sum.left) port ↔ port = .inlet sum.left
  result : ∀ port, graph.SharesCell (.outlet sum.outlet) port → port = .outlet sum.outlet

namespace Layout

variable {shift : Shift} {graph graph' : Graph} {node : NodeId} {ports : Interface}
  {inlet : InletId} {source sum : Adder}

theorem inletOwner (h : shift.Layout graph node ports inlet source sum)
    (hlineage : graph.Lineage) : graph.ownerOf? (.inlet inlet) = some node := by
  obtain ⟨found, hfound, hinlets, _⟩ := exists_interface?_of_faceOf? h.face
  exact hlineage.inlet hfound (by simp [hinlets, h.inlets])

/-- **The inside of a shift stays as it is** as long as nothing changes it. -/
theorem sameInside (h : shift.Layout graph node ports inlet source sum) (hlineage : graph.Lineage)
    (hsame : SameInside node graph graph') :
    shift.Layout graph' node ports inlet source sum := by
  -- Every port in question belongs to one of the two adders inside the shift
  have hsource {port : Port} (howner : graph.ownerOf? port = some source.node) :
      graph.siteOf? port = some node := h.sourceIn.site howner
  have hsum {port : Port} (howner : graph.ownerOf? port = some sum.node) :
      graph.siteOf? port = some node := h.sumIn.site howner
  have hzero := h.sumIn.zeroOwner hlineage
  have hother := h.sumIn.otherOwner hlineage
  have hleft := hsum (h.sumIn.leftOwner hlineage)
  have hright := hsum (h.sumIn.rightOwner hlineage)
  have houtlet := hsum (h.sumIn.outletOwner hlineage)
  -- What is compared inside a composite is what the layout speaks of
  refine {
    face := hsame.face h.face
    inlets := h.inlets
    entry := h.entry
    sourceIn := h.sourceIn.sameInside hsame
    sumIn := h.sumIn.sameInside hsame
    feeds := fun inner => (hsame.feeds (h.inletOwner hlineage)).trans (h.feeds inner)
    relay := (hsame.relay houtlet).trans h.relay
    unrelayed := (hsame.relay (hsource (h.sourceIn.outletOwner hlineage))).trans h.unrelayed
    primed := fun hprimes =>
      (hsame.target (h.sourceIn.otherOwner hlineage) h.sourceIn.parent).trans (h.primed hprimes)
    zero := ?zero
    other := ?other
    constant := ?constant
    wired := ⟨(hsame.wired hleft).trans h.wired.1, (hsame.wired hright).trans h.wired.2⟩
    reads := fun port => ⟨fun hshares => ?reads, fun hport => hsame.shares ((h.reads port).mpr hport)⟩
    operand := fun port => ⟨fun hshares => ?operand, ?operand'⟩
    result := fun port hshares => ?result }
  case zero =>
    obtain ⟨exit, hexit, hreturns⟩ := h.zero
    exact ⟨exit, hexit, hreturns.sameInside hsame hzero h.sumIn.parent⟩
  case other =>
    obtain ⟨exit, hexit, hreturns⟩ := h.other
    exact ⟨exit, hexit, hreturns.sameInside hsame hother h.sumIn.parent⟩
  case constant =>
    rw [hsame.wired (hsource (h.sourceIn.leftOwner hlineage)),
      hsame.wired (hsource (h.sourceIn.rightOwner hlineage)), h.constant]
  -- A new class would have to leave the composite, so the classes are the old ones
  case reads =>
    rcases hsame.apart hright hshares with rfl | hold
    · exact Or.inl rfl
    · exact (h.reads port).mp hold
  case operand =>
    rcases hsame.apart hleft hshares with rfl | hold
    · rfl
    · exact (h.operand port).mp hold
  case operand' => exact fun hport => hsame.shares ((h.operand port).mpr hport)
  case result =>
    rcases hsame.apart houtlet hshares with rfl | hold
    · rfl
    · exact h.result port hold

end Layout

end Shift

end TokenNet
