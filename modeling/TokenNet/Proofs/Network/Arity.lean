import TokenNet.Proofs.Change.Plan
import TokenNet.Proofs.Table

/-!
# Declared arities

A specification declares how many inlets and exits its nodes have.  A composite is framed with as
many; a native node has those of its primitive, which are the same ones as long as nobody has put a
primitive of another arity among the implementations.

## Main statements

- `Library.get?_edit`: what is found in a library after an edit.
- `Contract`: what is fixed about a node when it is made, and when a library honours it.
- `Draft.Course.honours`: the library that is built from honours the contracts of all nodes.
- `Network.arity_is_declared`: nodes keep the declared arity, or that of a misplaced primitive.
-/

namespace TokenNet

/-! ## Libraries -/

/-- The primitives among the implementations have the arity that is declared. -/
def Specification.Uniform (spec : Specification) : Prop :=
  ∀ primitive, .native primitive ∈ spec.implementations →
    primitive.inletCount = spec.inletCount ∧ primitive.exitCount = spec.exitCount

theorem Specification.uniform_ofPrimitive (primitive : Primitive) :
    (Specification.ofPrimitive primitive).Uniform := by
  intro other hother
  obtain rfl : other = primitive := Implementation.native.inj (List.mem_singleton.mp hother)
  exact ⟨rfl, rfl⟩

theorem Specification.mem_of_primitive? {spec : Specification} {index : Nat} {primitive : Primitive}
    (h : spec.primitive? index = some primitive) : .native primitive ∈ spec.implementations := by
  unfold primitive? at h
  split at h
  next other hother =>
    obtain rfl := Option.some.inj h
    exact List.mem_of_getElem? hother
  next => cases h

namespace Library

/-- An edit that puts primitives only where they belong: it adds a specification that declares their
arity, or it puts none. -/
def Edit.Uniform : Edit → Prop
  | .add spec => spec.Uniform
  | .replaceImplementation _ _ (.native _) => False
  | _ => True

/-- **What is found after an edit** was there before, was added by the edit, or was there before with
other implementations, among which a uniform edit has put no primitive. -/
theorem get?_edit {library library' : Library} {edit : Edit} (h : library.edit edit = .ok library')
    {identifier : String} {found : Specification} (hfound : library'.get? identifier = some found) :
    library.get? identifier = some found ∨
      (edit = .add found ∧ found.identifier = identifier) ∨
      ∃ spec implementations, library.get? identifier = some spec ∧
        found = { spec with implementations } ∧
        (edit.Uniform → ∀ primitive, .native primitive ∈ implementations →
          .native primitive ∈ spec.implementations) := by
  -- What an update of one specification leaves behind
  have hupdate {id : String} {change : Specification → Except RegistryError Specification}
      (h : library.update id change = .ok library') :
      library.get? identifier = some found ∨
        ∃ spec, library.get? identifier = some spec ∧ change spec = .ok found := by
    obtain ⟨spec, hspec, h⟩ := Except.bind_eq_ok_iff.mp h
    obtain ⟨changed, hchanged, h⟩ := Except.bind_eq_ok_iff.mp h
    obtain rfl := Except.ok.inj h
    unfold get? at hfound
    rw [Table.get?_insert] at hfound
    split at hfound
    next hname =>
      subst hname
      obtain rfl := Option.some.inj hfound
      refine Or.inr ⟨_, ?_, hchanged⟩
      unfold find at hspec
      split at hspec
      next => rwa [← Except.ok.inj hspec]
      next => cases hspec
    next => exact Or.inl hfound
  cases edit with
  -- A specification is added under its own identifier, if at all
  | add spec =>
    have hadd : library.add spec = .ok library' := h
    unfold add at hadd
    split at hadd
    · cases hadd
    · obtain rfl := Except.ok.inj hadd
      unfold get? at hfound
      rw [Table.get?_insert] at hfound
      split at hfound
      next hname =>
        obtain rfl := Option.some.inj hfound
        exact Or.inr (Or.inl ⟨rfl, hname.symm⟩)
      next => exact Or.inl hfound
  | addBlueprint id log =>
    refine (hupdate h).imp_right fun ⟨spec, hspec, hchange⟩ => Or.inr ?_
    -- A blueprint put behind or in place of another is no primitive
    unfold Specification.addBlueprint at hchange
    split at hchange
    · cases hchange
    · refine ⟨spec, _, hspec, (Except.ok.inj hchange).symm, fun _ primitive hmem => ?_⟩
      simpa using hmem
  | extendBlueprint id index log =>
    refine (hupdate h).imp_right fun ⟨spec, hspec, hchange⟩ => Or.inr ?_
    obtain ⟨implementation, _, hchange⟩ := Except.bind_eq_ok_iff.mp hchange
    cases implementation with
    | native => cases hchange
    | blueprint blueprint =>
      obtain ⟨_, _, hchange⟩ := Except.bind_eq_ok_iff.mp hchange
      refine ⟨spec, _, hspec, (Except.ok.inj hchange).symm, fun _ primitive hmem => ?_⟩
      exact (List.mem_or_eq_of_mem_set hmem).resolve_right nofun
  -- A replacement may be a primitive, which no uniform edit puts in
  | replaceImplementation id index implementation =>
    refine (hupdate h).imp_right fun ⟨spec, hspec, hchange⟩ => Or.inr ?_
    obtain ⟨_, _, hchange⟩ := Except.bind_eq_ok_iff.mp hchange
    refine ⟨spec, _, hspec, (Except.ok.inj hchange).symm, fun huniform primitive hmem => ?_⟩
    refine (List.mem_or_eq_of_mem_set hmem).resolve_right ?_
    rintro rfl
    exact huniform

/-- What holds of a library and is kept by each of some edits holds after all of them. -/
theorem editAll_induction {motive : Library → Prop} {edits : List Edit}
    (hstep : ∀ edit ∈ edits, ∀ {library library' : Library}, motive library →
      library.edit edit = .ok library' → motive library') {library : Library}
    (h : motive library) : motive (library.editAll edits).1 := by
  induction edits generalizing library with
  | nil => exact h
  | cons first rest ih =>
    unfold editAll
    split
    next changed hedit =>
      exact ih (fun edit hmem => hstep edit (List.mem_cons_of_mem first hmem))
        (hstep first List.mem_cons_self h hedit)
    next => exact h

/-- Every specification stands under its own identifier. -/
def Keyed (library : Library) : Prop :=
  ∀ identifier spec, library.get? identifier = some spec → spec.identifier = identifier

/-- All specifications are uniform. -/
def Uniform (library : Library) : Prop :=
  ∀ identifier spec, library.get? identifier = some spec → spec.Uniform

theorem Keyed.edit {library library' : Library} (h : library.Keyed) {edit : Edit}
    (hedit : library.edit edit = .ok library') : library'.Keyed := by
  intro identifier found hfound
  rcases get?_edit hedit hfound with hold | ⟨_, hname⟩ | ⟨spec, _, hspec, rfl, _⟩
  · exact h _ _ hold
  · exact hname
  · exact (h _ _ hspec :)

theorem Uniform.edit {library library' : Library} (h : library.Uniform) {edit : Edit}
    (huniform : edit.Uniform) (hedit : library.edit edit = .ok library') : library'.Uniform := by
  intro identifier found hfound
  rcases get?_edit hedit hfound with hold | ⟨rfl, _⟩ | ⟨spec, implementations, hspec, rfl, hnative⟩
  · exact h _ _ hold
  · exact huniform
  · exact fun primitive hmem => h _ _ hspec primitive (hnative huniform primitive hmem)

theorem Keyed.editAll {library : Library} (h : library.Keyed) (edits : List Edit) :
    (library.editAll edits).1.Keyed := by
  apply editAll_induction
  · intro edit _ library library' hkeyed hedit
    exact hkeyed.edit hedit
  · exact h

theorem Uniform.editAll {library : Library} (h : library.Uniform) {edits : List Edit}
    (hedits : ∀ edit ∈ edits, edit.Uniform) : (library.editAll edits).1.Uniform := by
  apply editAll_induction
  · intro edit hmem library library' huniform hedit
    exact huniform.edit (hedits edit hmem) hedit
  · exact h

/-- The libraries with which editing begins: without specifications, or with those of the
primitives. -/
def IsFirst (library : Library) : Prop :=
  library = .empty ∨ library = .primitives

theorem IsFirst.exists_primitive {library : Library} (h : library.IsFirst) {identifier : String}
    {spec : Specification} (hspec : library.get? identifier = some spec) :
    ∃ primitive : Primitive, identifier = primitive.identifier ∧ spec = .ofPrimitive primitive := by
  rcases h with rfl | rfl
  · cases hspec
  · unfold get? primitives Primitive.all at hspec
    simp only [List.foldl_cons, List.foldl_nil, Table.get?_insert] at hspec
    split at hspec
    next hname => exact ⟨.bit, hname, (Option.some.inj hspec).symm⟩
    next =>
      split at hspec
      next hname => exact ⟨.adder, hname, (Option.some.inj hspec).symm⟩
      next => cases hspec

theorem IsFirst.keyed {library : Library} (h : library.IsFirst) : library.Keyed := by
  intro identifier spec hspec
  obtain ⟨primitive, rfl, rfl⟩ := h.exists_primitive hspec
  rfl

theorem IsFirst.uniform {library : Library} (h : library.IsFirst) : library.Uniform := by
  intro identifier spec hspec
  obtain ⟨primitive, _, rfl⟩ := h.exists_primitive hspec
  exact Specification.uniform_ofPrimitive primitive

end Library

/-! ## Contracts -/

/-- What is fixed about a node when it is made: the specification, the primitive if it runs one, and
the numbers of its inlets and exits. -/
structure Contract where
  specification : String
  primitive? : Option Primitive
  inletCount : Nat
  exitCount : Nat

/-- The contract of a node; joins have none. -/
def Node.contract? (record : Node) : Option Contract :=
  match record.kind with
  | .native primitive ports =>
    some ⟨record.specification, some primitive, ports.inlets.length, ports.exits.length⟩
  | .composite ports _ =>
    some ⟨record.specification, none, ports.inlets.length, ports.exits.length⟩
  | .join .. => none

theorem Node.contract?_plan (record : Node) : record.plan.contract? = record.contract? := by
  obtain ⟨_, _, _, _, kind⟩ := record
  cases kind <;> rfl

theorem Node.contract?_addPart (role : String) (part : NodeId) (record : Node) :
    (record.addPart role part).contract? = record.contract? := by
  obtain ⟨_, _, _, _, kind⟩ := record
  cases kind <;> rfl

/-- A library has a specification by which a node is made: the node runs a primitive of it, or it has
the declared arity. -/
def Contract.Honoured (library : Library) (contract : Contract) : Prop :=
  ∃ identifier spec, library.get? identifier = some spec ∧
    spec.identifier = contract.specification ∧
    match contract.primitive? with
    | some primitive => .native primitive ∈ spec.implementations ∧
        contract.inletCount = primitive.inletCount ∧ contract.exitCount = primitive.exitCount
    | none => contract.inletCount = spec.inletCount ∧ contract.exitCount = spec.exitCount

namespace Graph

/-- The contract of a node of a graph. -/
def contract? (graph : Graph) (node : NodeId) : Option Contract :=
  (graph.node? node).bind Node.contract?

theorem contract?_adopt (graph : Graph) (composite part : NodeId) (role : String) (node : NodeId) :
    (graph.adopt composite role part).contract? node = graph.contract? node := by
  refine (bind_modifyNode (Node.contract?_addPart role part) _ composite node).trans
    (bind_modifyNode ?_ graph part node)
  exact fun _ => rfl

/-- The contracts of a graph with a new node are the old ones and that of the new node. -/
theorem Raises.contract?_cases {graph graph' : Graph} {record : Node} {ports : Interface}
    (h : Raises graph graph' record ports) {node : NodeId} {contract : Contract}
    (hcontract : graph'.contract? node = some contract) :
    graph.contract? node = some contract ∨ record.contract? = some contract := by
  obtain ⟨found, hfound, hsome⟩ := Option.bind_eq_some_iff.mp hcontract
  rcases h.cases hfound with hold | ⟨_, rfl⟩ | hlater
  · exact Or.inl (Option.bind_eq_some_iff.mpr ⟨found, hold, hsome⟩)
  · exact Or.inr hsome
  · obtain ⟨_, _, _, hkind, _⟩ := h.join hlater hfound
    simp [Node.contract?, hkind] at hsome

/-- A library honours the contracts of all nodes. -/
def Honours (library : Library) (graph : Graph) : Prop :=
  ∀ {node contract}, graph.contract? node = some contract → contract.Honoured library

end Graph

/-- **The library that is built from honours the contracts of all nodes.** -/
theorem Draft.Course.honours {library : Library} {traced : Bool} {levels : Nat} {start now : Draft}
    {node : NodeId} {framed : Bool} (h : Course library traced levels start node now framed)
    (hstart : start.graph.Honours library) : now.graph.Honours library := by
  induction h with
  | native _ start hspec hprimitive =>
    intro other contract hcontract
    rcases (start.graph.raises_addNative _ _ _).contract?_cases hcontract with hold | hnew
    · exact hstart hold
    · obtain rfl := Option.some.inj hnew
      exact ⟨_, _, hspec, rfl, Specification.mem_of_primitive? hprimitive, by
        simp [Graph.nativePorts]⟩
  | frame _ start hspec =>
    intro other contract hcontract
    rcases (start.graph.raises_addComposite _ _ _ _).contract?_cases hcontract with hold | hnew
    · exact hstart hold
    · obtain rfl := Option.some.inj hnew
      exact ⟨_, _, hspec, rfl, by simp [Graph.compositePorts]⟩
  -- Rewiring and adopting leave specifications and ports alone
  | @rewire _ _ now composite _ name directive ih =>
    intro other contract hcontract
    have hplan := now.samePlan_rewire composite name directive
    exact ih hstart ((hplan.bind_node? Node.contract?_plan other).symm.trans hcontract)
  | skip _ _ ih =>
    rw [graph_foldl_skip]
    exact ih hstart
  | adopt _ _ name role ih ihpart =>
    intro other contract hcontract
    rw [graph_adopt, Graph.contract?_adopt] at hcontract
    exact ihpart (ih hstart) hcontract

/-! ## Networks -/

namespace Network

/-- **Nodes have the declared arity**, in every network of every library and after every history of
calls, unless the node is native and its specification has got a primitive of another arity: then
the node has the arity of the primitive.  This cannot happen as long as all edits of the library are
uniform. -/
theorem arity_is_declared {first : Library} (hfirst : first.IsFirst) (edits : List Library.Edit)
    {identifier : String} {options : BuildOptions} {built : Network}
    (hbuilt : (first.editAll edits).1.instantiate identifier options = .ok built)
    (calls : List Call) {node : NodeId} {record : Node} {ports : Interface}
    (hrecord : (built.performAll calls).1.graph.node? node = some record)
    (hports : record.interface? = some ports) :
    ∃ spec, (first.editAll edits).1.get? record.specification = some spec ∧
      spec.identifier = record.specification ∧
      ((ports.inlets.length = spec.inletCount ∧ ports.exits.length = spec.exitCount) ∨
        ∃ primitive, record.kind = .native primitive ports ∧
          .native primitive ∈ spec.implementations ∧
          (primitive.inletCount ≠ spec.inletCount ∨ primitive.exitCount ≠ spec.exitCount) ∧
          ports.inlets.length = primitive.inletCount ∧ ports.exits.length = primitive.exitCount ∧
          ∃ edit ∈ edits, ¬ edit.Uniform) := by
  -- The library gives the arity, and neither edits nor calls change it afterwards
  have hkeyed : (first.editAll edits).1.Keyed := hfirst.keyed.editAll edits
  have huniform (hedits : ∀ edit ∈ edits, edit.Uniform) : (first.editAll edits).1.Uniform :=
    hfirst.uniform.editAll hedits
  generalize (first.editAll edits).1 = library at *
  obtain ⟨draft, _, hcourse, hgraph, _⟩ := Draft.exists_course_of_instantiate hbuilt
  have hhonours : built.graph.Honours library :=
    hgraph ▸ hcourse.honours fun h => by simp [Graph.contract?, Graph.node?] at h
  have hplan := samePlan_performAll ((leads_instantiate hbuilt).1.closed .empty) calls
  have hcontract := hplan.bind_node? Node.contract?_plan node
  rw [hrecord, Option.bind_some] at hcontract
  cases hkind : record.kind with
  | native primitive found =>
    -- A native node has the interface of its primitive
    obtain rfl : found = ports := by simpa [Node.interface?, hkind] using hports
    have hsome : built.graph.contract? node = _ := hcontract.symm
    simp only [Node.contract?, hkind] at hsome
    obtain ⟨key, spec, hspec, hname, hmem, hinlets, hexits⟩ := hhonours hsome
    dsimp only at hname hmem hinlets hexits
    rw [← hkeyed _ _ hspec, hname] at hspec
    refine ⟨spec, hspec, hname, ?_⟩
    -- A node got its ports from its primitive, so the two arities may differ
    by_cases harity : primitive.inletCount = spec.inletCount ∧ primitive.exitCount = spec.exitCount
    · exact Or.inl ⟨hinlets.trans harity.1, hexits.trans harity.2⟩
    · refine Or.inr ⟨primitive, rfl, hmem, Decidable.not_and_iff_not_or_not.mp harity, hinlets,
        hexits, ?_⟩
      by_contra hnone
      push Not at hnone
      exact harity (huniform hnone _ _ hspec primitive hmem)
  | composite found parts =>
    obtain rfl : found = ports := by simpa [Node.interface?, hkind] using hports
    have hsome : built.graph.contract? node = _ := hcontract.symm
    simp only [Node.contract?, hkind] at hsome
    obtain ⟨key, spec, hspec, hname, harity⟩ := hhonours hsome
    dsimp only at hname harity
    rw [← hkeyed _ _ hspec, hname] at hspec
    exact ⟨spec, hspec, hname, Or.inl harity⟩
  | join => simp [Node.interface?, hkind] at hports

/-- Edits that add a composite and then put a primitive of another arity in place of its blueprint. -/
def swapEdits : List Library.Edit :=
  [.add (.composite "five" 5 3 []), .replaceImplementation "five" 0 (.native .bit)]

/-- The network of the specification whose blueprint was replaced. -/
def swapped : Network :=
  ((Library.primitives.editAll swapEdits).1.instantiate "five" {}).toOption.getD default

/-- The ports of its root. -/
def swappedPorts : Interface where
  inlets := [⟨0⟩]
  outlet := ⟨0⟩
  entry := some ⟨0⟩
  exits := [⟨0⟩, ⟨1⟩]

/-- The root runs a bit and has its arity, also after a run. -/
theorem arity_of_swapped :
    (Library.primitives.editAll swapEdits).1.instantiate "five" {} = .ok swapped ∧
      (swapped.performAll [.step]).1.graph.node? ⟨0⟩ =
        some ⟨"five", none, none, false, .native .bit { swappedPorts with register := 1, calls := 1 }⟩ ∧
      swappedPorts.inlets.length = 1 ∧ swappedPorts.exits.length = 2 ∧
      ∃ edit ∈ swapEdits, ¬ edit.Uniform := by
  have hbuilt : (Library.primitives.editAll swapEdits).1.instantiate "five" {} = .ok swapped := by
    decide +kernel
  have hfive : (Library.primitives.editAll swapEdits).1.get? "five" =
      some ⟨"five", 5, 3, [.native .bit]⟩ := by decide +kernel
  have hrecord : (swapped.performAll [.step]).1.graph.node? ⟨0⟩ = some ⟨"five", none, none, false,
      .native .bit { swappedPorts with register := 1, calls := 1 }⟩ := by decide +kernel
  obtain ⟨spec, hspec, _, hdeclared | ⟨primitive, hkind, _, _, hinlets, hexits, hedit⟩⟩ :=
    arity_is_declared (Or.inr rfl) swapEdits hbuilt [.step] hrecord rfl
  · obtain rfl := Option.some.inj (hfive.symm.trans hspec)
    exact absurd hdeclared.1 (by decide)
  · obtain ⟨rfl, -⟩ := NodeKind.native.inj hkind
    exact ⟨hbuilt, hrecord, hinlets, hexits, hedit⟩

/-- The root of that network has one inlet and two exits, where five and three are declared. -/
theorem swapped_arity_not_declared :
    (Library.primitives.editAll swapEdits).1.instantiate "five" {} = .ok swapped ∧
      ¬ ∀ node record ports spec, swapped.graph.node? node = some record →
        record.interface? = some ports →
        (Library.primitives.editAll swapEdits).1.get? record.specification = some spec →
        ports.inlets.length = spec.inletCount ∧ ports.exits.length = spec.exitCount := by
  refine ⟨by decide +kernel, fun h => ?_⟩
  have hcounts := h ⟨0⟩ ⟨"five", none, none, false, .native .bit swappedPorts⟩ swappedPorts
    ⟨"five", 5, 3, [.native .bit]⟩ (by decide +kernel) rfl (by decide +kernel)
  exact absurd hcounts.1 (by decide)

end Network

end TokenNet
