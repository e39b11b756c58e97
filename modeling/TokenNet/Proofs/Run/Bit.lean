import TokenNet.Proofs.Run.Control

/-!
# Firings of bits

A bit reads its first inlet.  What comes of a firing depends on the value it reads and on the number
of calls counted so far:

* a value that is not binary is refused, and nothing changes;
* otherwise the register is set and the call counted;
* only if that call does not reach the limit, the register is written to the outlet as well.

## Main statements

- `Binary`: zero and one.
- `Graph.FiresBit`, `Graph.firesBit_fire`: all that can come of the firing of a bit.
-/

namespace TokenNet

/-- A value is zero or one. -/
def Binary (value : Value) : Prop :=
  value = 0 ∨ value = 1

instance (value : Value) : Decidable (Binary value) :=
  inferInstanceAs (Decidable (value = 0 ∨ value = 1))

/-- Just the binary values have a negation, which is binary again. -/
theorem Primitive.negate?_cases (value : Value) :
    (Binary value ∧ ∃ output, Primitive.negate? value = some output ∧ Binary output) ∨
      (¬ Binary value ∧ Primitive.negate? value = none) := by
  unfold Primitive.negate? Binary
  -- Zero and one are negated, and no other value is
  by_cases hzero : value = 0
  · exact Or.inl ⟨Or.inl hzero, 1, if_pos hzero, Or.inr rfl⟩
  · by_cases hone : value = 1
    · exact Or.inl ⟨Or.inr hone, 0, by rw [if_neg hzero, if_pos hone], Or.inl rfl⟩
    · exact Or.inr ⟨not_or.mpr ⟨hzero, hone⟩, by rw [if_neg hzero, if_neg hone]⟩

namespace Graph

/-- The value that a node with the given ports reads first; without an inlet it is zero. -/
def firstReading (graph : Graph) (ports : Interface) : Value :=
  (ports.inlets.head?.map fun inlet => (graph.reading inlet).value).getD 0

/-- The value that a node reads on its first inlet. -/
def input (graph : Graph) (node : NodeId) : Value :=
  ((graph.interface? node).map graph.firstReading).getD 0

theorem input_of_kind {graph : Graph} {node : NodeId} {record : Node} {primitive : Primitive}
    {ports : Interface} (hrecord : graph.node? node = some record)
    (hkind : record.kind = .native primitive ports) :
    graph.input node = graph.firstReading ports := by
  simp only [input, interface?, hrecord, Option.bind_some, Node.interface?, hkind, Option.map_some,
    Option.getD_some]

/-- What a bit sees is its first reading. -/
theorem evaluate_bit (graph : Graph) (ports : Interface) :
    Primitive.bit.evaluate (ports.inlets.map graph.reading) =
      match Primitive.negate? (graph.firstReading ports) with
      | some output => .ok ⟨output, Primitive.branch output, some output⟩
      | none => .error (graph.firstReading ports) := by
  -- The input read first is zero where there is none
  have hfirst : ((ports.inlets.map graph.reading)[0]?.getD Reading.loose).value =
      graph.firstReading ports := by
    unfold firstReading
    cases ports.inlets <;> rfl
  rw [← hfirst]
  rfl

/-- What can come of the firing of a bit: the graph afterwards and the result. -/
inductive FiresBit (graph : Graph) (callLimit : UInt32) (node : NodeId) (ports : Interface) :
    Graph → Except RunFault ExitId → Prop where
  /-- What it reads is not binary. -/
  | invalid (hinput : ¬ Binary (graph.input node)) :
      FiresBit graph callLimit node ports graph (.error (.invalidBit node (graph.input node)))
  /-- The call reaches the limit; it is counted and the register is set. -/
  | exhausted (register : Value) (hinput : Binary (graph.input node)) (hregister : Binary register)
      (hcalls : callLimit.toNat ≤ ports.calls.toNat + 1) :
      FiresBit graph callLimit node ports (graph.countCall node register)
        (.error (.callLimit node callLimit))
  /-- The register is written to the outlet as well. -/
  | emitted (register : Value) (result : Except RunFault ExitId)
      (hinput : Binary (graph.input node)) (hregister : Binary register)
      (hcalls : ports.calls.toNat + 1 < callLimit.toNat)
      (hresult : result = .error (.notExecutable node) ∨ ∃ exit ∈ ports.exits, result = .ok exit) :
      FiresBit graph callLimit node ports
        ((graph.countCall node register).writeOutlet ports.outlet register) result

/-- **Nothing else can come of the firing of a bit.** -/
theorem firesBit_fire {graph : Graph} (callLimit : UInt32) {node : NodeId} {record : Node}
    {ports : Interface} (hrecord : graph.node? node = some record)
    (hkind : record.kind = .native .bit ports) :
    graph.FiresBit callLimit node ports (graph.fire callLimit node).graph
      (graph.fire callLimit node).result := by
  have hinput := input_of_kind hrecord hkind
  unfold fire
  rw [hrecord]
  simp only [hkind, firePrimitive, evaluate_bit]
  rcases Primitive.negate?_cases (graph.firstReading ports) with
    ⟨hbinary, register, hnegate, hregister⟩ | ⟨hbinary, hnegate⟩
  · rw [← hinput] at hbinary
    rw [hnegate]
    dsimp only
    -- The call is counted first and refused afterwards
    by_cases hlimit : callsExhausted ports callLimit = true
    · rw [if_pos hlimit]
      exact .exhausted register hbinary hregister (callsExhausted_iff ports callLimit |>.mp hlimit)
    · rw [if_neg hlimit]
      rw [callsExhausted_iff, Nat.not_le] at hlimit
      refine .emitted register _ hbinary hregister hlimit ?_
      unfold emit
      dsimp only
      split
      next exit hexit => exact Or.inr ⟨exit, List.mem_of_getElem? hexit, rfl⟩
      next => exact Or.inl rfl
  · rw [hnegate]
    rw [← hinput] at hbinary ⊢
    exact .invalid hbinary

end Graph

end TokenNet
