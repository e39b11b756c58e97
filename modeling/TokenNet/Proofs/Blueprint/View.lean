import TokenNet.Proofs.Change.Build

/-!
# What directives see of a composite

Whether a directive can be carried out does not depend on the whole graph.  Of a part it only
matters how many inlets and exits it has and whether the token can enter it, its *face*; of the
composite itself, which roles its parts have and how many ports it has, its *view*.  Everything
else that a directive looks up are the handles of its rewiring.

## Main statements

- `Directive.resolve_view`: a directive resolves exactly if it passes on the view, and raises the
  same issues otherwise.
-/

namespace TokenNet

/-! ## Faces and views -/

/-- What a directive sees of a part. -/
@[ext] structure Face where
  inlets : Nat
  exits : Nat
  /-- Whether the token can enter the part. -/
  enters : Bool
deriving DecidableEq, Repr, Inhabited

/-- What a directive sees of the composite it belongs to. -/
@[ext] structure View where
  /-- The faces of the parts under their roles. -/
  part? : String → Option Face
  inlets : Nat
  exits : Nat

namespace Directive

/-- The issues that a look-up raised. -/
def issuesOf {α : Type} : Lookup α → List Issue
  | .ok _ => []
  | .error issues => issues

/-- The face of the part that has a role. -/
def checkPart (view : View) (name role : String) : Lookup Face :=
  match view.part? role with
  | some face => .ok face
  | none => .error [.unknownRole name role]

/-- The position of a port is below the arity. -/
def checkPort (name : String) (role : Option String) (port : PortKind) (index arity : Nat) :
    Lookup Unit :=
  if index < arity then .ok () else .error [.portOutOfRange name role port index arity]

/-- The token can enter a part. -/
def checkEntry (name role : String) (face : Face) : Lookup Unit :=
  if face.enters then .ok () else .error [.noEntry name role]

/-- Whether a directive can be carried out in a composite of that view.  Making a part is never
forbidden by a view. -/
def examine (view : View) (name : String) : Directive → Lookup Unit
  | part .. => return ()
  | dataFlow source target index => do
    let (_, taker) ← both (checkPart view name source) (checkPart view name target)
    checkPort name (some target) .inlet index taker.inlets
  | controlFlow source index target => do
    let (giver, taker) ← both (checkPart view name source) (checkPart view name target)
    checkPort name (some source) .exit index giver.exits
    checkEntry name target taker
  | exposeInlet role index external => do
    let face ← checkPart view name role
    checkPort name (some role) .inlet index face.inlets
    checkPort name none .inlet external view.inlets
  | exposeOutlet role => do
    let _ ← checkPart view name role
    return ()
  | exposeExit role index external => do
    let face ← checkPart view name role
    checkPort name (some role) .exit index face.exits
    checkPort name none .exit external view.exits
  | exposeEntry role => do
    let face ← checkPart view name role
    checkEntry name role face

end Directive

namespace Graph

/-- The face of a node. -/
@[simps] def face (graph : Graph) (node : NodeId) : Face where
  inlets := (Directive.inletsOf graph node).length
  exits := (Directive.exitsOf graph node).length
  enters := (graph.entryOf? node).isSome

/-- The view of a composite. -/
@[simps] def view (graph : Graph) (composite : NodeId) : View where
  part? role := (graph.part? composite role).map graph.face
  inlets := (Directive.inletsOf graph composite).length
  exits := (Directive.joinEntriesOf graph composite).length

end Graph

/-! ## Resolving without handles -/

namespace Directive

variable (graph : Graph) (composite : NodeId) (name : String)

theorem checkPart_view (role : String) : checkPart (graph.view composite) name role = do
    let node ← findPart graph composite name role
    return graph.face node := by
  unfold checkPart findPart Graph.view
  dsimp only
  cases graph.part? composite role <;> rfl

theorem both_bind {α β γ δ : Type} (f : α → γ) (g : β → δ) (first : Lookup α) (second : Lookup β) :
    both (first >>= fun a => pure (f a)) (second >>= fun b => pure (g b)) =
      both first second >>= fun pair => pure (f pair.1, g pair.2) := by
  cases first <;> cases second <;> rfl

theorem checkPort_length {α : Type} (ports : List α) (role : Option String) (port : PortKind)
    (index : Nat) : checkPort name role port index ports.length = do
      let _ ← findPort ports name role port index
      return () := by
  unfold checkPort findPort
  split
  next h =>
    rw [List.getElem?_eq_getElem h]
    rfl
  next h =>
    rw [List.getElem?_eq_none (Nat.le_of_not_gt h)]
    rfl

theorem checkEntry_face (role : String) (node : NodeId) :
    checkEntry name role (graph.face node) = do
      let _ ← findEntry graph name role node
      return () := by
  unfold checkEntry findEntry Graph.face
  dsimp only
  cases graph.entryOf? node <;> rfl

/-- **A directive resolves exactly if it passes on the view**, and otherwise it raises the same
issues. -/
theorem resolve_view (directive : Directive) :
    (do let _ ← directive.resolve graph composite name
        return ()) = directive.examine (graph.view composite) name := by
  cases directive with
  | part => rfl
  | _ =>
    -- Each check is a look-up of which only the success counts
    simp only [resolve, examine, checkPart_view, both_bind, checkEntry_face, Graph.face_inlets,
      Graph.face_exits, Graph.view_inlets, Graph.view_exits, checkPort_length, bind_assoc,
      pure_bind]

theorem issuesOf_examine (directive : Directive) :
    issuesOf (directive.examine (graph.view composite) name) =
      issuesOf (directive.resolve graph composite name) := by
  rw [← resolve_view]
  cases directive.resolve graph composite name <;> rfl

end Directive

/-! ## Objections -/

/-- Whether an issue is that of a role given twice: it displaces a part, and its directive is
carried out all the same.  All other issues are objections to their directives. -/
def Issue.isDuplicateRole : Issue → Bool
  | duplicateRole .. => true
  | _ => false

namespace Directive

/-- A look-up that fails has objections, and has nothing but objections. -/
def Objects {α : Type} (lookup : Lookup α) : Prop :=
  ∀ issues, lookup = .error issues → issues ≠ [] ∧ ∀ issue ∈ issues, issue.isDuplicateRole = false

namespace Objects

variable {α β : Type}

theorem ok (a : α) : Objects (.ok a : Lookup α) :=
  nofun

theorem single {issue : Issue} (h : issue.isDuplicateRole = false) :
    Objects (.error [issue] : Lookup α) := by
  intro issues hissues
  obtain rfl := Except.error.inj hissues
  simpa using h

theorem bind {lookup : Lookup α} {next : α → Lookup β} (h : Objects lookup)
    (hnext : ∀ a, Objects (next a)) : Objects (lookup >>= next) := by
  cases lookup with
  | ok a => exact hnext a
  | error issues => exact fun _ hissues => h _ (congrArg _ (Except.error.inj hissues))

theorem both {first : Lookup α} {second : Lookup β} (h : Objects first) (h' : Objects second) :
    Objects (both first second) := by
  cases first with
  | ok a =>
    cases second with
    | ok b => exact ok _
    | error issues => exact fun _ hissues => h' _ (congrArg _ (Except.error.inj hissues))
  | error issues =>
    obtain ⟨hne, hall⟩ := h issues rfl
    cases second with
    | ok b => exact fun _ hissues => h _ (congrArg _ (Except.error.inj hissues))
    | error more =>
      -- Both look-ups failed, and the issues of both are raised
      intro whole hwhole
      obtain rfl := Except.error.inj hwhole
      refine ⟨by simp [hne], fun issue hmem => ?_⟩
      exact (List.mem_append.mp hmem).elim (hall issue) ((h' more rfl).2 issue)

theorem checkPart (view : View) (name role : String) : Objects (checkPart view name role) := by
  unfold Directive.checkPart
  split
  next => exact ok _
  next => exact single rfl

theorem checkPort (name : String) (role : Option String) (port : PortKind) (index arity : Nat) :
    Objects (checkPort name role port index arity) := by
  unfold Directive.checkPort
  split
  next => exact ok _
  next => exact single rfl

theorem checkEntry (name role : String) (face : Face) : Objects (checkEntry name role face) := by
  unfold Directive.checkEntry
  split
  next => exact ok _
  next => exact single rfl

/-- **A directive that does not pass on a view meets with objections.** -/
theorem examine (view : View) (name : String) (directive : Directive) :
    Objects (directive.examine view name) := by
  -- One line for each directive: the checks in the order of the look-ups
  cases directive with
  | part => exact ok _
  | dataFlow => exact .bind (.both (checkPart _ _ _) (checkPart _ _ _)) fun _ => checkPort _ _ _ _ _
  | controlFlow =>
    exact .bind (.both (checkPart _ _ _) (checkPart _ _ _)) fun _ =>
      .bind (checkPort _ _ _ _ _) fun _ => checkEntry _ _ _
  | exposeInlet =>
    exact .bind (checkPart _ _ _) fun _ => .bind (checkPort _ _ _ _ _) fun _ => checkPort _ _ _ _ _
  | exposeOutlet => exact .bind (checkPart _ _ _) fun _ => ok _
  | exposeExit =>
    exact .bind (checkPart _ _ _) fun _ => .bind (checkPort _ _ _ _ _) fun _ => checkPort _ _ _ _ _
  | exposeEntry => exact .bind (checkPart _ _ _) fun _ => checkEntry _ _ _

/-- **A directive that does not resolve meets with objections.** -/
theorem resolve (graph : Graph) (composite : NodeId) (name : String) (directive : Directive) :
    Objects (directive.resolve graph composite name) := by
  intro issues hissues
  have hview := Directive.resolve_view graph composite name directive
  rw [hissues] at hview
  exact examine _ name directive issues hview.symm

theorem issuesOf_eq_nil {lookup : Lookup α} (h : Objects lookup) :
    issuesOf lookup = [] ↔ ∃ a, lookup = .ok a := by
  cases lookup with
  | ok a => simp [issuesOf]
  | error issues => simp [issuesOf, (h issues rfl).1]

end Objects

end Directive

end TokenNet
