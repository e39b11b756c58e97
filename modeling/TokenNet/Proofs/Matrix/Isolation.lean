import TokenNet.Proofs.Blueprint.Nesting
import TokenNet.Proofs.Matrix.BitsRun
import TokenNet.Proofs.Matrix.Positions

/-!
# Isolated bits

A bit whose row is not marked is never reached by the token, unless the token enters there.  Such a
bit takes no part in a run: it keeps its value and is never counted, and what its value is makes no
difference to the other bits, to the number of firings or to the way in which the run fails.

## Main statements

- `Toggles.run_alike`: toggling from states that differ at an unreached bit.
- `Toggles.spares_run`: toggling leaves an unreached bit alone.
- `isolated_bit_stands_apart`: the same for runs of the network of a matrix.
-/

namespace TokenNet

/-- Two results that are the same failure, or two successes that are related. -/
inductive Agree {ε α β : Type} (related : α → β → Prop) : Except ε α → Except ε β → Prop where
  | error (failure : ε) : Agree related (.error failure) (.error failure)
  | ok {a : α} {b : β} : related a b → Agree related (.ok a) (.ok b)

/-- What goes on in the same way after related successes comes to agreeing results. -/
theorem Agree.bind {ε α β α' β' : Type} {related : α → β → Prop} {related' : α' → β' → Prop}
    {x : Except ε α} {y : Except ε β} {f : α → Except ε α'} {g : β → Except ε β'}
    (h : Agree related x y) (hnext : ∀ a b, related a b → Agree related' (f a) (g b)) :
    Agree related' (x >>= f) (y >>= g) := by
  cases h with
  | error failure => exact .error failure
  | ok hrelated => exact hnext _ _ hrelated

/-- Successes are related by what their own results say of them, too. -/
theorem Agree.strengthen {ε α β : Type} {related related' : α → β → Prop} {x : Except ε α}
    {y : Except ε β} (h : Agree related x y)
    (hnew : ∀ a b, x = .ok a → y = .ok b → related a b → related' a b) : Agree related' x y := by
  cases h with
  | error failure => exact .error failure
  | ok hrelated => exact .ok (hnew _ _ rfl rfl hrelated)

namespace Matrix

variable {matrix : Matrix} {apart bit : Nat} {callLimit : Nat}

/-! ## Unreached bits -/

/-- No column of the bits of a matrix leads to a bit. -/
def Unreached (matrix : Matrix) (apart : Nat) : Prop :=
  ∀ column < 2 * matrix.length, matrix.follower? column ≠ some apart

/-- An isolated bit has no mark in its row, so it follows no column. -/
theorem unreached_of_isIsolated {position : UInt64} (h : matrix.isIsolated position = true) :
    matrix.Unreached position.toNat := by
  intro column hcolumn hfollower
  have hmarked := (follower?_eq_some_iff.mp hfollower).2.1.2
  have hfails := isIsolated_eq_false_iff.mpr (.inl ⟨column, hcolumn, hmarked⟩)
  exact Bool.false_ne_true (hfails.symm.trans h)

namespace Toggles

variable {first second toggles : Toggles}

/-- A firing of a bit of the matrix hands over to another bit of it than an unreached one. -/
theorem next_of_fire (hunreached : matrix.Unreached apart) (hbit : bit < matrix.length)
    {toggled : Toggles} {next : Nat}
    (h : fire matrix callLimit toggles bit = .ok (toggled, some next)) :
    next < matrix.length ∧ next ≠ apart := by
  refine ⟨lt_length_of_fire h, ?_⟩
  rintro rfl
  unfold fire at h
  split at h
  -- Without a fault the next bit is one that the column leads to
  next hbinary =>
    dsimp only at h
    split at h
    next => cases h
    next =>
      rw [Except.ok.injEq, Prod.mk.injEq, bits_toggle] at h
      have hcolumn := toNat_negated_le hbinary
      exact hunreached _ (by omega) h.2
  next => cases h

/-! ## What a run leaves alone -/

/-- A bit is and was counted as before. -/
structure Spares (apart : Nat) (before after : Toggles) : Prop where
  bit : after.bits apart = before.bits apart
  calls : after.calls apart = before.calls apart

/-- Toggling a bit leaves every other bit alone. -/
theorem spares_toggle (toggles : Toggles) (h : bit ≠ apart) :
    Spares apart toggles (toggles.toggle bit) :=
  ⟨Function.update_of_ne h.symm _ _, Function.update_of_ne h.symm _ _⟩

theorem spares_fire {next : Option Nat} {toggled : Toggles} (hapart : bit ≠ apart)
    (h : fire matrix callLimit toggles bit = .ok (toggled, next)) :
    Spares apart toggles toggled := by
  unfold fire at h
  split at h
  next =>
    dsimp only at h
    split at h
    next => cases h
    next =>
      rw [Except.ok.injEq, Prod.mk.injEq] at h
      exact h.1 ▸ toggles.spares_toggle hapart
  next => cases h

/-- **Toggling leaves an unreached bit alone.** -/
theorem spares_run (hunreached : matrix.Unreached apart) : ∀ (budget : Nat) {toggles : Toggles}
    {bit : Nat} {ended : Toggles × Nat}, bit < matrix.length → bit ≠ apart →
    run matrix callLimit budget toggles bit = .ok ended → Spares apart toggles ended.1 := by
  intro budget
  induction budget with
  | zero =>
    intro toggles bit ended _ _ h
    cases h
  -- The isolated bit is not the next one either, so the hypotheses are those of the rest
  | succ budget ih =>
    intro toggles bit ended hbit hapart h
    obtain ⟨⟨toggled, next⟩, hfire, h⟩ := Except.bind_eq_ok_iff.mp h
    have hfirst := spares_fire hapart hfire
    cases next with
    | none =>
      obtain rfl := Except.ok.inj h
      exact hfirst
    | some next =>
      obtain ⟨later, hrest, h⟩ := Except.bind_eq_ok_iff.mp h
      obtain rfl := Except.ok.inj h
      obtain ⟨hnext, hother⟩ := next_of_fire hunreached hbit hfire
      have hlater := ih hnext hother hrest
      exact ⟨hlater.bit.trans hfirst.bit, hlater.calls.trans hfirst.calls⟩

/-! ## Two runs side by side -/

/-- The bits of a matrix are the same in two states, except perhaps for one of them. -/
structure Alike (matrix : Matrix) (apart : Nat) (first second : Toggles) : Prop where
  bits : ∀ bit < matrix.length, bit ≠ apart → first.bits bit = second.bits bit
  calls : ∀ bit < matrix.length, bit ≠ apart → first.calls bit = second.calls bit

theorem Alike.toggle (h : Alike matrix apart first second) (hbit : bit < matrix.length)
    (hapart : bit ≠ apart) : Alike matrix apart (first.toggle bit) (second.toggle bit) where
  bits other hother hne := by
    simp only [Toggles.toggle, set, count, Function.update_apply, h.bits bit hbit hapart,
      h.bits other hother hne]
  calls other hother hne := by
    simp only [Toggles.toggle, set, count, Function.update_apply, h.calls bit hbit hapart,
      h.calls other hother hne]

/-- **One firing** of a bit that is the same in both states hands over to the same bit, or fails for
the same reason. -/
theorem fire_alike (callLimit : Nat) (h : Alike matrix apart first second)
    (hbit : bit < matrix.length) (hapart : bit ≠ apart) :
    Agree (fun fired fired' => Alike matrix apart fired.1 fired'.1 ∧ fired.2 = fired'.2)
      (fire matrix callLimit first bit) (fire matrix callLimit second bit) := by
  have hvalue := h.bits bit hbit hapart
  have hcalls := h.calls bit hbit hapart
  have htoggled := h.toggle hbit hapart
  -- Both machines see the same bit and the same count, so they take the same branch
  simp only [fire, bits_toggle, calls_toggle, hvalue, hcalls]
  split
  next =>
    split
    next => exact .error _
    next => exact .ok ⟨htoggled, rfl⟩
  next => exact .error _

/-- **Toggling from states that differ at an unreached bit** stops early for the same reason, or
ends in such states after as many firings. -/
theorem run_alike (callLimit : Nat) (hunreached : matrix.Unreached apart) :
    ∀ (budget : Nat) {first second : Toggles} {bit : Nat}, Alike matrix apart first second →
    bit < matrix.length → bit ≠ apart →
    Agree (fun ended ended' => Alike matrix apart ended.1 ended'.1 ∧ ended.2 = ended'.2)
      (run matrix callLimit budget first bit) (run matrix callLimit budget second bit) := by
  intro budget
  induction budget with
  | zero => exact fun _ _ _ => .error _
  | succ budget ih =>
    intro first second bit h hbit hapart
    -- The bit that follows is one of the matrix and not the one apart
    have hfire := (fire_alike callLimit h hbit hapart).strengthen
      fun fired fired' hfirst _ hrelated => And.intro hrelated
        fun next (hnext : fired.2 = some next) => next_of_fire hunreached hbit
          (hfirst.trans (congrArg _ (Prod.ext rfl hnext)))
    refine hfire.bind ?_
    rintro ⟨toggled, next⟩ ⟨toggled', next'⟩ ⟨⟨hlater, hsame⟩, hinside⟩
    obtain rfl : next = next' := hsame
    cases next with
    | none => exact .ok ⟨hlater, rfl⟩
    | some next =>
      obtain ⟨hnext, hother⟩ := hinside next rfl
      refine (ih hlater hnext hother).bind ?_
      rintro ⟨ending, firings⟩ ⟨ending', firings'⟩ ⟨hending, hfirings⟩
      exact .ok ⟨hending, congrArg (· + 1) hfirings⟩

end Toggles

/-! ## Runs of the network -/

/-- The first bit cannot be made without a level for it. -/
theorem replayAll_of_shallow {library : Library}
    (hbit : library.get? Primitive.bit.identifier = some (.ofPrimitive .bit))
    (hsome : 0 < matrix.length) (composite : NodeId) (name : String) (draft : Draft) :
    ∃ failure, Draft.replayAll library (growPart library false 0 0) composite name
      (Directive.replayOrder ((List.range matrix.length).flatMap bitDirectives ++
        (List.range matrix.length).flatMap (bitEdges matrix) ++ [.exposeEntry (bitRole 0)])) draft =
      .error failure := by
  obtain ⟨count, hcount⟩ := Nat.exists_eq_add_of_le' hsome
  refine ⟨⟨.nestingTooDeep Primitive.bit.identifier 0, draft.notices⟩, ?_⟩
  rw [replayOrder_bits, hcount, List.range_succ_eq_map, List.map_cons, List.cons_append]
  unfold Draft.replayAll
  simp only [bitPart, Draft.replay, hbit]
  rfl

/-- Without a level for its bits, the network of a matrix cannot be built. -/
theorem bitsNetwork_of_shallow {limits : Limits} (hsome : 0 < matrix.length)
    (hshallow : limits.nestingLimit = 0) :
    ∃ failure, matrix.bitsNetwork limits = .error failure := by
  have hnew : Library.primitives.contains matrix.bitsSpecification.identifier = false :=
    show Library.primitives.contains bitsIdentifier = false by decide
  obtain ⟨library, hadd, hspec, hprimitive⟩ := Library.add_primitives hnew
  obtain ⟨failure, hreplay⟩ := replayAll_of_shallow (hprimitive .bit) hsome ⟨0⟩ bitsIdentifier
    { graph := (({} : Graph).addComposite bitsIdentifier 0 2 false).2 }
  have hgrow : Draft.grow library false 0 1 matrix.bitsSpecification 0 {} = .error failure := by
    rw [Draft.grow_of_log rfl]
    exact congrArg (Except.map _) hreplay
  -- The refusal of the first part is that of the whole build
  refine ⟨failure.error, ?_⟩
  unfold bitsNetwork Specification.instantiateAlone
  simp only [hadd, Library.instantiate, Library.build, Library.find, hspec, hshallow, hgrow]

/-- A run reads off the bits of a matrix and how often each was toggled. -/
structure Reads (matrix : Matrix) (run : BitRun) (ending : Toggles) : Prop where
  registers : ∀ bit, run.registers[bit]? =
    if bit < matrix.length then some (ending.bits bit) else none
  calls : ∀ bit, run.calls[bit]?.map UInt32.toNat =
    if bit < matrix.length then some (ending.calls bit) else none

/-- What is read off of states that are alike is the same at every other bit. -/
theorem Reads.alike {run run' : BitRun} {ending ending' : Toggles} (h : matrix.Reads run ending)
    (h' : matrix.Reads run' ending') (halike : Toggles.Alike matrix apart ending ending')
    (hbit : bit ≠ apart) :
    run.registers[bit]? = run'.registers[bit]? ∧ run.calls[bit]? = run'.calls[bit]? := by
  have hinjective : Function.Injective UInt32.toNat := fun _ _ => UInt32.toNat_inj.mp
  constructor
  -- Bits beyond the matrix have no register, and no counter, in either run
  · rw [h.registers, h'.registers]
    split
    next hinside => rw [halike.bits bit hinside hbit]
    next => rfl
  · refine Option.map_injective hinjective ?_
    rw [h.calls, h'.calls]
    split
    next hinside => rw [halike.calls bit hinside hbit]
    next => rfl

/-- What is read off at a bit that was left alone. -/
theorem Reads.spared {run : BitRun} {seeds : List Value} {ending : Toggles}
    (h : matrix.Reads run ending) (hinside : apart < matrix.length)
    (hspared : Toggles.Spares apart (.start seeds) ending) :
    run.registers[apart]? = some (seeds.getD apart 0) ∧ run.calls[apart]? = some 0 := by
  have hcalls := h.calls apart
  rw [if_pos hinside, hspared.calls] at hcalls
  obtain ⟨calls, hfound, hzero⟩ := Option.map_eq_some_iff.mp hcalls
  constructor
  · rw [h.registers, if_pos hinside, hspared.bit]
    rfl
  · rw [hfound, UInt32.toNat_inj.mp (show calls.toNat = (0 : UInt32).toNat from hzero)]

theorem getElem?_map_range {α : Type} (count bit : Nat) (f : Nat → α) :
    ((List.range count).map f)[bit]? = if bit < count then some (f bit) else none := by
  by_cases hbit : bit < count <;> simp [hbit]

/-- A run of the network of a matrix with bits reads off how toggling ends. -/
theorem runBits_of_run (seeds : List Value) {limits : Limits} (hlevels : 1 ≤ limits.nestingLimit)
    (hsome : 0 < matrix.length) :
    match Toggles.run matrix limits.callLimit.toNat limits.chainLimit (.start seeds) 0 with
    | .error stop => matrix.runBits seeds limits = .error (.refusal (.fault (stop.fault limits)))
    | .ok (ending, firings) => ∃ run, matrix.runBits seeds limits = .ok run ∧
        matrix.Reads run ending ∧ run.steps = firings := by
  have htally := matrix.tally_runBits seeds hlevels
  unfold toggleBits at htally
  rw [if_pos hsome] at htally
  cases hrun : Toggles.run matrix limits.callLimit.toNat limits.chainLimit (.start seeds) 0 with
  | error stop =>
    rw [hrun] at htally
    -- The tally of a failure is the failure itself
    cases hbits : matrix.runBits seeds limits with
    | error failure =>
      rw [hbits] at htally
      exact congrArg _ (Except.error.inj htally)
    | ok run =>
      rw [hbits] at htally
      cases htally
  | ok ended =>
    rw [hrun] at htally
    cases hbits : matrix.runBits seeds limits with
    | error failure =>
      rw [hbits] at htally
      cases htally
    | ok run =>
      rw [hbits] at htally
      -- A tally holds the two lists as they were read, so each bit is found in its place
      obtain ⟨hregisters, hcalls, hsteps⟩ := Tally.mk.inj (Except.ok.inj htally)
      refine ⟨run, rfl, ⟨fun bit => ?_, fun bit => ?_⟩, hsteps⟩
      · rw [hregisters, getElem?_map_range]
      · rw [← List.getElem?_map, hcalls, getElem?_map_range]

/-- Toggling from two lists of seeds that differ at most at an unreached bit, which is not the
first. -/
theorem run_start_alike (callLimit budget : Nat) (hunreached : matrix.Unreached apart)
    (hfirst : 1 ≤ apart) (hsome : 0 < matrix.length) {seeds seeds' : List Value}
    (hsame : ∀ bit < matrix.length, bit ≠ apart → seeds.getD bit 0 = seeds'.getD bit 0) :
    Agree (fun ended ended' => (Toggles.Alike matrix apart ended.1 ended'.1 ∧ ended.2 = ended'.2) ∧
        Toggles.Spares apart (.start seeds) ended.1 ∧ Toggles.Spares apart (.start seeds') ended'.1)
      (Toggles.run matrix callLimit budget (.start seeds) 0)
      (Toggles.run matrix callLimit budget (.start seeds') 0) := by
  have hother : 0 ≠ apart := by omega
  have hstart : Toggles.Alike matrix apart (.start seeds) (.start seeds') :=
    ⟨hsame, fun _ _ _ => rfl⟩
  -- The first bit of the run is not the isolated one
  refine (Toggles.run_alike callLimit hunreached budget hstart hsome hother).strengthen
    fun ended ended' hended hended' hrelated => ⟨hrelated, ?_, ?_⟩
  · exact Toggles.spares_run hunreached budget hsome hother hended
  · exact Toggles.spares_run hunreached budget hsome hother hended'

/-- **An isolated bit stands apart**, unless it is the first one.  If two lists of seeds differ at
most there, then the runs from them either fail for the same reason, or end after as many firings
with the same registers and counts at all other bits; and the isolated bit ends as it began and was
not counted.  This holds of matrices of any shape and of all limits. -/
theorem isolated_bit_stands_apart (matrix : Matrix) {position : UInt64}
    (hfirst : 1 ≤ position.toNat) (hlast : position.toNat < matrix.length)
    (hisolated : matrix.isIsolated position = true) (limits : Limits) {seeds seeds' : List Value}
    (hsame : ∀ bit < matrix.length, bit ≠ position.toNat →
      seeds.getD bit 0 = seeds'.getD bit 0) :
    Agree (fun run run' => run.steps = run'.steps ∧
        (∀ bit ≠ position.toNat, run.registers[bit]? = run'.registers[bit]? ∧
          run.calls[bit]? = run'.calls[bit]?) ∧
        (run.registers[position.toNat]? = some (seeds.getD position.toNat 0) ∧
          run.calls[position.toNat]? = some 0) ∧
        run'.registers[position.toNat]? = some (seeds'.getD position.toNat 0) ∧
          run'.calls[position.toNat]? = some 0)
      (matrix.runBits seeds limits) (matrix.runBits seeds' limits) := by
  have hsome : 0 < matrix.length := by omega
  rcases Nat.eq_zero_or_pos limits.nestingLimit with hshallow | hlevels
  · obtain ⟨failure, hbuild⟩ := bitsNetwork_of_shallow hsome hshallow
    -- The build does not look at the seeds
    have hfails (seeds : List Value) : matrix.runBits seeds limits = .error (.build failure) := by
      unfold runBits
      rw [hbuild]
      rfl
    rw [hfails, hfails]
    exact .error _
  -- The two machines go alike, and each spares the isolated bit
  · have hagree := run_start_alike limits.callLimit.toNat limits.chainLimit
      (unreached_of_isIsolated hisolated) hfirst hsome hsame
    have hruns := runBits_of_run seeds hlevels hsome
    have hruns' := runBits_of_run seeds' hlevels hsome
    generalize Toggles.run matrix _ _ (.start seeds) 0 = outcome at hagree hruns
    generalize Toggles.run matrix _ _ (.start seeds') 0 = outcome' at hagree hruns'
    cases hagree with
    | error stop =>
      rw [hruns, hruns']
      exact .error _
    | ok hrelated =>
      -- Away from the isolated bit the runs agree, and at it each keeps its own seed
      obtain ⟨⟨halike, hfirings⟩, hspared, hspared'⟩ := hrelated
      obtain ⟨run, hrun, hreads, hsteps⟩ := hruns
      obtain ⟨run', hrun', hreads', hsteps'⟩ := hruns'
      rw [hrun, hrun']
      exact .ok ⟨by rw [hsteps, hsteps', hfirings],
        fun bit hbit => hreads.alike hreads' halike hbit,
        hreads.spared hlast hspared, hreads'.spared hlast hspared'⟩

/-- Two bits of which the first hands over to the second, and a third without edges.  The rows are
not equally long. -/
def chainAndIsland : Matrix := [[0, 0, 0, 0], [0, 1], []]

/-- A seed for the third bit that is not even binary is kept and changes nothing else. -/
theorem island_stands_apart : 1 ≤ (2 : UInt64).toNat ∧
    (2 : UInt64).toNat < chainAndIsland.length ∧ chainAndIsland.isIsolated 2 = true ∧
    ∃ run run', chainAndIsland.runBits [0, 0, 7] {} = .ok run ∧
      chainAndIsland.runBits [] {} = .ok run' ∧ run.steps = run'.steps ∧
      run.registers[2]? = some 7 ∧ run'.registers[2]? = some 0 := by
  have hfirst : 1 ≤ (2 : UInt64).toNat := by decide
  have hlast : (2 : UInt64).toNat < chainAndIsland.length := by decide
  have hisolated : chainAndIsland.isIsolated 2 = true := by decide
  have hsame : ∀ bit < chainAndIsland.length, bit ≠ (2 : UInt64).toNat →
      ([0, 0, 7] : List Value).getD bit 0 = ([] : List Value).getD bit 0 := by decide
  -- The run of the machine, from which the seeded run is known to end
  have htally : (chainAndIsland.runBits [0, 0, 7] {}).map BitRun.tally =
      .ok ⟨[1, 1, 7], [1, 1, 0], 2⟩ := by
    rw [chainAndIsland.tally_runBits [0, 0, 7] (by decide)]
    decide +kernel
  have hagree := isolated_bit_stands_apart chainAndIsland hfirst hlast hisolated {} hsame
  generalize chainAndIsland.runBits [0, 0, 7] {} = outcome at hagree htally ⊢
  generalize chainAndIsland.runBits [] {} = outcome' at hagree ⊢
  cases hagree with
  | error failure => cases htally
  | ok hrelated =>
    obtain ⟨hsteps, _, ⟨hseed, _⟩, hseed', _⟩ := hrelated
    exact ⟨hfirst, hlast, hisolated, _, _, rfl, rfl, hsteps, hseed, hseed'⟩

end Matrix

end TokenNet
