import TokenNet.Proofs.Arithmetic.Product

/-!
# Networks that multiply

The product is right modulo 2^64, but only as long as no partial sum wraps around to zero.  A run
that comes to such a sum ends without a result: it does not reach the exit of the network, and the
outlet keeps what it showed before.

## Main statements

- `Network.multiplication_is_right_or_lost`: how a run of a product ends.
-/

namespace TokenNet

/-! ## Partial sums -/

/-- No partial sum is zero if the last one is in range. -/
theorem Product.not_vanishes {x y : Value}
    (h : Product.target x * y.toInt.natAbs < 2 ^ 64) : ¬ Product.Vanishes x y := by
  rintro ⟨hy, k, hpos, hle, hzero⟩
  have hsum : Int64.ofNat k * y = Int64.ofInt (k * y.toInt) := by
    rw [Int64.ofInt_mul, Int64.ofInt_toInt, Int64.ofInt_eq_ofNat]
  have hsize : (k * y.toInt).natAbs < 2 ^ 64 := by
    rw [Int.natAbs_mul, Int.natAbs_natCast]
    exact Nat.lt_of_le_of_lt (Nat.mul_le_mul_right _ hle) h
  -- In range a partial sum is zero only if one of its factors is
  rw [hsum, Value.ofInt_eq_zero_iff (by omega) (by omega)] at hzero
  rcases Int.mul_eq_zero.mp hzero with hk | hy'
  · omega
  · exact hy (Int64.toInt_inj.mp hy')

namespace Network

variable {options : BuildOptions} {net : Network}

/-- A run of a product is answered with the product, was lost, or was stopped on its way. -/
theorem multiplication_answers (hnet : Arithmetic.library.instantiate "*" options = .ok net)
    (uses : List Use) :
    let x := Use.lastWritten uses 0
    let y := Use.lastWritten uses 1
    let limit := options.limits.chainLimit
    let used := (net.performAll (uses.map (Use.call net.root))).1
    let answer := (used.perform .step).2
    (¬ Product.Vanishes x y ∧ ∃ steps, answer =
      .ok (.outcome ⟨⟨⟨0⟩, some 0, steps⟩, some (x * y)⟩)) ∨
    (Product.Vanishes x y ∧ ∃ steps, answer =
      .ok (.outcome ⟨⟨⟨312⟩, none, steps⟩, used.rootOutput?⟩)) ∨
    (limit < Product.cost x ∧ answer = .error (.fault (.chainExhausted limit))) := by
  intro x y limit used answer
  obtain ⟨memory, hbefore, hanswer⟩ := Product.works.answered_of_follows Product.follows hnet uses
  change used.rootOutput? = some memory.out at hbefore
  change Product.chart.Responds (Product.Done x y memory.out) (Product.cost x) limit answer
    at hanswer
  rw [hbefore]
  -- The answer is known by how it responds
  clear_value answer
  cases hanswer with
  | ended steps hdone =>
    cases hdone with
    | right hsound hout => exact .inl ⟨hsound, steps, by rw [hout]; rfl⟩
    | lost hvanishes hout => exact .inr (.inl ⟨hvanishes, steps, by rw [hout]; rfl⟩)
  | exhausted hless => exact .inr (.inr ⟨hless, rfl⟩)

/-- **A product is right or lost**, whatever the options of its build, whatever was written before
and however earlier runs ended.  A run that ends leaves by the exit with the product if no partial
sum vanishes, and otherwise ends elsewhere with the output that was there before; the limit on
firings is the only reason to fail. -/
theorem multiplication_is_right_or_lost
    (hnet : Arithmetic.library.instantiate "*" options = .ok net) (uses : List Use) :
    let x := Use.lastWritten uses 0
    let y := Use.lastWritten uses 1
    let n := x.toUInt64.toNat
    let used := (net.performAll (uses.map (Use.call net.root))).1
    let answer := (used.perform .step).2
    (∀ reply, answer = .ok reply →
      (¬ Product.Vanishes x y ∧ ∃ steps, reply =
        .outcome ⟨⟨⟨0⟩, some 0, steps⟩, some (x * y)⟩) ∨
      (Product.Vanishes x y ∧ ∃ exit steps, reply =
        .outcome ⟨⟨exit, none, steps⟩, used.rootOutput?⟩)) ∧
    (∀ refusal, answer = .error refusal →
      refusal = .fault (.chainExhausted options.limits.chainLimit)) ∧
    (11 * n * n + 49 * n + 29 ≤ options.limits.chainLimit → ∃ reply, answer = .ok reply) := by
  intro x y n used answer
  have hcost : Product.cost x = 11 * n * n + 49 * n + 29 := by
    unfold Product.cost
    rw [Product.costFrom_eq]
    rfl
  have hanswer := multiplication_answers hnet uses
  change (_ ∧ ∃ _, answer = _) ∨ (_ ∧ ∃ _, answer = _) ∨ (_ ∧ answer = _) at hanswer
  clear_value answer
  -- Two ways to end and one to be refused, each of which excludes the others
  rcases hanswer with ⟨hsound, steps, rfl⟩ | ⟨hvanishes, steps, rfl⟩ | ⟨hless, rfl⟩
  · refine ⟨?_, ?_, fun _ => ⟨_, rfl⟩⟩
    · rintro reply hreply
      exact .inl ⟨hsound, steps, (Except.ok.inj hreply).symm⟩
    · rintro refusal hrefusal
      cases hrefusal
  · refine ⟨?_, ?_, fun _ => ⟨_, rfl⟩⟩
    · rintro reply hreply
      exact .inr ⟨hvanishes, _, steps, (Except.ok.inj hreply).symm⟩
    · rintro refusal hrefusal
      cases hrefusal
  · refine ⟨?_, ?_, fun hlimit => ?_⟩
    · rintro reply hreply
      cases hreply
    · rintro refusal hrefusal
      exact (Except.error.inj hrefusal).symm
    · rw [hcost] at hless
      exact absurd hlimit (Nat.not_le.mpr hless)

/-- Whatever becomes of a run on minus one and five, six times minus seven is right afterwards. -/
theorem product_of_six : ∃ net, Arithmetic.library.instantiate "*" {} = .ok net ∧
    ∃ steps, ((net.performAll [.writeInlet net.root 0 (-1), .writeInlet net.root 1 5, .step,
      .writeInlet net.root 0 6, .writeInlet net.root 1 (-7)]).1.perform .step).2 =
        .ok (.outcome ⟨⟨⟨0⟩, some 0, steps⟩, some (-42)⟩) := by
  obtain ⟨net, hnet⟩ := Library.exists_of_follows Product.follows
  obtain ⟨hended, _, henough⟩ := multiplication_is_right_or_lost hnet
    [.write 0 (-1), .write 1 5, .run, .write 0 6, .write 1 (-7)]
  obtain ⟨reply, hreply⟩ := henough (by decide)
  rcases hended reply hreply with ⟨_, steps, rfl⟩ | ⟨hvanishes, _⟩
  · exact ⟨net, hnet, steps, hreply⟩
  · exact absurd hvanishes (Product.not_vanishes (by decide))

/-- Three times the least value is lost: twice the least value is zero. -/
theorem product_of_three_lost : ∃ net, Arithmetic.library.instantiate "*" {} = .ok net ∧
    ∃ steps output, ((net.performAll [.writeInlet net.root 0 3,
      .writeInlet net.root 1 Int64.minValue]).1.perform .step).2 =
        .ok (.outcome ⟨⟨⟨312⟩, none, steps⟩, output⟩) := by
  obtain ⟨net, hnet⟩ := Library.exists_of_follows Product.follows
  have hvanishes : Product.Vanishes 3 Int64.minValue :=
    ⟨by decide, 2, by decide, by decide, by decide⟩
  rcases multiplication_answers hnet [.write 0 3, .write 1 Int64.minValue] with
    ⟨hsound, _⟩ | ⟨_, steps, hlost⟩ | ⟨hless, _⟩
  · exact absurd hvanishes hsound
  · exact ⟨net, hnet, steps, _, hlost⟩
  · exact absurd hless (by decide)

end Network

end TokenNet
