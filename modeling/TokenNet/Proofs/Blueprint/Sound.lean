import TokenNet.Proofs.Blueprint.Forecast

/-!
# Sound blueprints

A blueprint is *sound* when every directive of it can be carried out and no role is given twice.
Whether it is can be checked against the library, without building anything.  A network has no
issues exactly if all the blueprints that its build has used are sound.

## Main definitions

- `Library.Fits`, `Library.Sound`: what is asked of a directive and of a blueprint.
- `Library.Uses`: the blueprints that a build uses.

## Main statements

- `Library.appraise_eq_nil_iff`: a directive raises no issue exactly if it fits and, if it makes a
  part, its role is free.
- `Library.issues_eq_empty_iff`: a network has no issues exactly if the used blueprints are sound.
-/

namespace TokenNet

/-- The role that a directive gives to a part. -/
def Directive.given? : Directive → Option String
  | .part _ role => some role
  | _ => none

namespace Library

variable (library : Library)

/-! ## Soundness -/

/-- Whether a directive can be carried out in a composite of a specification with that log. -/
def Fits (spec : Specification) (log : List Directive) : Directive → Prop
  | .part specification _ => ∃ part, library.makeable? specification = some part
  | .dataFlow source target inlet => ∃ giver taker, library.cast? log source = some giver ∧
      library.cast? log target = some taker ∧ inlet < taker.inletsAt 0
  | .controlFlow source exit target => ∃ giver taker, library.cast? log source = some giver ∧
      library.cast? log target = some taker ∧ exit < giver.exitsAt 0 ∧ library.Enters taker 0
  | .exposeInlet role inlet external => ∃ part, library.cast? log role = some part ∧
      inlet < part.inletsAt 0 ∧ external < spec.inletCount
  | .exposeOutlet role => ∃ part, library.cast? log role = some part
  | .exposeExit role exit external => ∃ part, library.cast? log role = some part ∧
      exit < part.exitsAt 0 ∧ external < spec.exitCount
  | .exposeEntry role => ∃ part, library.cast? log role = some part ∧ library.Enters part 0

/-- A blueprint whose directives can all be carried out and which gives no role twice. -/
structure Sound (spec : Specification) (log : List Directive) : Prop where
  fits : ∀ directive ∈ log, library.Fits spec log directive
  roles : (log.filterMap Directive.given?).Nodup

/-- The blueprints that a node of a specification is built of, with the specifications that they
belong to: its own one, and those of its parts in their first implementation. -/
inductive Uses : Specification → Nat → Specification → List Directive → Prop where
  | own {spec : Specification} {index : Nat} {log : List Directive}
      (himplementation : spec.log? index = some log) : Uses spec index spec log
  | part {spec part user : Specification} {index : Nat} {log used : List Directive}
      {specification role : String} (himplementation : spec.log? index = some log)
      (hpart : .part specification role ∈ log)
      (hmakeable : library.makeable? specification = some part)
      (huses : Uses part 0 user used) : Uses spec index user used

variable {library}

/-! ## Single directives -/

section

variable {spec : Specification} {log : List Directive} {name : String}

theorem checkPart_eq_ok {role : String} {face : Face} :
    Directive.checkPart (library.view spec log) name role = .ok face ↔
      ∃ part, library.cast? log role = some part ∧ library.face part 0 = face := by
  unfold Directive.checkPart
  rw [← Option.map_eq_some_iff, ← view_part?]
  cases (library.view spec log).part? role <;> simp

theorem checkPort_eq_ok {role : Option String} {port : PortKind} {index arity : Nat} {a : Unit} :
    Directive.checkPort name role port index arity = .ok a ↔ index < arity := by
  unfold Directive.checkPort
  split <;> simp_all

theorem checkEntry_eq_ok {part : Specification} {role : String} {a : Unit} :
    Directive.checkEntry name role (library.face part 0) = .ok a ↔ library.Enters part 0 := by
  unfold Directive.checkEntry
  split <;> simp_all

/-- **A wiring passes on the view of its composite exactly if it fits.** -/
theorem examine_eq_ok_iff (name : String) {directive : Directive}
    (hwiring : directive.phase ≠ .parts) :
    directive.examine (library.view spec log) name = .ok () ↔ library.Fits spec log directive := by
  cases directive with
  | part => exact absurd rfl hwiring
  | _ =>
    -- Each check that is passed is one of the conditions of `Fits`
    simp [-bind_pure_comp, Directive.examine, Fits, Except.bind_eq_ok_iff, checkPart_eq_ok,
      checkPort_eq_ok, checkEntry_eq_ok, Directive.both_eq_ok, and_assoc, pure, Except.pure]

/-- A wiring raises no issue exactly if it fits. -/
theorem appraise_eq_nil_iff {directive : Directive} (hwiring : directive.phase ≠ .parts) :
    library.appraise (library.view spec log) name directive = [] ↔
      library.Fits spec log directive := by
  have happraise : library.appraise (library.view spec log) name directive =
      Directive.issuesOf (directive.examine (library.view spec log) name) := by
    cases directive with
    | part => exact absurd rfl hwiring
    | _ => rfl
  rw [happraise, (Directive.Objects.examine _ name directive).issuesOf_eq_nil,
    ← examine_eq_ok_iff name hwiring]
  exact ⟨fun ⟨_, h⟩ => h, fun h => ⟨(), h⟩⟩

/-- A part raises no issue exactly if it can be made and its role is free. -/
theorem partIssues_eq_nil_iff {taken : Bool} {specification role : String} :
    library.partIssues taken name specification role = [] ↔
      (∃ part, library.makeable? specification = some part) ∧ taken = false := by
  cases hmakeable : library.makeable? specification with
  | some part => simp [partIssues_of_some hmakeable]
  | none =>
    simp [(objects_partIssues hmakeable taken name role).1]

end

end Library

/-! ## Whole logs -/

/-- Steps that have raised no issue. -/
def Silent (steps : List Step) : Prop :=
  ∀ step ∈ steps, step.issues = []

theorem silent_append {steps steps' : List Step} :
    Silent (steps ++ steps') ↔ Silent steps ∧ Silent steps' :=
  List.forall_mem_append

theorem silent_cons {step : Step} {steps : List Step} :
    Silent (step :: steps) ↔ step.issues = [] ∧ Silent steps :=
  List.forall_mem_cons

namespace Library

variable {library : Library}

/-- After a part has been made, its role is not free any more. -/
theorem free_append_part {specification role : String} {part : Specification}
    (hmakeable : library.makeable? specification = some part) (made : List Directive)
    (roles : List String) :
    (∀ other ∈ roles, library.cast? (made ++ [.part specification role]) other = none) ↔
      role ∉ roles ∧ ∀ other ∈ roles, library.cast? made other = none := by
  -- The new part takes its own role and no other
  have hcast : ∀ other, library.cast? (made ++ [.part specification role]) other = none ↔
      other ≠ role ∧ library.cast? made other = none := by
    intro other
    rw [cast?_append_singleton]
    by_cases hother : other = role
    · simp [hother, filling?, hmakeable]
    · simp [hother, Ne.symm hother, filling?]
  simp only [hcast, imp_and, forall_and]
  refine and_congr_left fun _ => ?_
  exact ⟨fun hne hmem => hne role hmem rfl, fun hnot other hmem hsame => hnot (hsame ▸ hmem)⟩

/-- **The parts of a log are silent** exactly if all of them can be made, no role is given twice or
was given before, and what is below them is silent. -/
theorem silent_forecastParts {forecastPart : String → Specification → Option (List Step)}
    {Quiet : Specification → Prop} (hpart : ∀ identifier part below,
      forecastPart identifier part = some below → (Silent below ↔ Quiet part))
    {identifier : String} {index : Nat} {spec : Specification} (log : List Directive) :
    ∀ (rest made : List Directive) {steps : List Step},
    (∀ directive ∈ rest, directive.phase = .parts) →
    library.forecastParts forecastPart identifier index spec made rest = some steps →
    (Silent steps ↔ (∀ directive ∈ rest, library.Fits spec log directive) ∧
      (rest.filterMap Directive.given?).Nodup ∧
      (∀ role ∈ rest.filterMap Directive.given?, library.cast? made role = none) ∧
      ∀ directive ∈ rest, ∀ asked, library.asked? directive = some asked → Quiet asked.2)
  | [], made, steps, _, h => by
    obtain rfl := Option.some.inj h
    simp [Silent]
  | directive :: rest, made, steps, hphase, h => by
    obtain ⟨nested, later, hnested, hlater, rfl⟩ := forecastParts_cons.mp h
    have ih := silent_forecastParts hpart log rest (made ++ [directive])
      (fun later hmem => hphase later (List.mem_cons_of_mem _ hmem)) hlater
    cases directive with
    | part specification role =>
      rw [silent_append, silent_cons, ih]
      cases hmakeable : library.makeable? specification with
      | none =>
        -- The directive raises an issue and does not fit, so both sides are false
        simp [appraise, partIssues_eq_nil_iff, hmakeable, Fits]
      | some part =>
        have hasked : library.asked? (.part specification role) = some (specification, part) := by
          rw [asked?, hmakeable, Option.map_some]
        rw [library.below_of_asked hasked] at hnested
        have hquiet : Silent nested ↔ Quiet part := hpart specification part nested hnested
        have hissues : library.appraise (library.view spec made) spec.identifier
            (.part specification role) = [] ↔ library.cast? made role = none := by
          simp [appraise, partIssues_eq_nil_iff, hmakeable]
        have hfits : library.Fits spec log (.part specification role) := ⟨part, hmakeable⟩
        have hroles : (Directive.part specification role :: rest).filterMap Directive.given? =
          role :: rest.filterMap Directive.given? := rfl
        rw [hquiet, hissues, free_append_part hmakeable, hroles, List.nodup_cons,
          List.forall_mem_cons, List.forall_mem_cons, List.forall_mem_cons, hasked]
        simp only [Option.some.injEq, forall_eq', hfits, true_and]
        -- The same conditions on both sides, in another order
        tauto
    | _ => cases hphase _ List.mem_cons_self

/-- **A log is silent** exactly if its blueprint is sound and what is below its parts is silent. -/
theorem silent_forecastLog {forecastPart : String → Specification → Option (List Step)}
    {Quiet : Specification → Prop} (hpart : ∀ identifier part below,
      forecastPart identifier part = some below → (Silent below ↔ Quiet part))
    {identifier : String} {index : Nat} {spec : Specification} {log : List Directive}
    {steps : List Step}
    (h : library.forecastLog forecastPart identifier index spec log = some steps) :
    Silent steps ↔ library.Sound spec log ∧
      ∀ directive ∈ log, ∀ asked, library.asked? directive = some asked → Quiet asked.2 := by
  obtain ⟨parts, hparts, rfl⟩ := forecastLog_eq_some_iff.mp h
  -- The parts are silent by the recursion, the wirings by their appraisals
  have hsilent := silent_forecastParts hpart log _ [] (by simp) hparts
  have hroles : (log.filter fun directive => directive.phase = .parts).filterMap Directive.given? =
      log.filterMap Directive.given? := by
    rw [List.filterMap_filter]
    congr 1
    funext directive
    cases directive <;> rfl
  have hwirings : Silent ((Directive.wirings log).map fun directive => ⟨identifier, index,
        directive, library.appraise (library.view spec log) spec.identifier directive⟩) ↔
      ∀ directive ∈ log, directive.phase ≠ .parts → library.Fits spec log directive := by
    simp only [Silent, List.forall_mem_map, Directive.mem_wirings, and_imp]
    refine forall₃_congr fun directive _ hwiring => ?_
    exact appraise_eq_nil_iff hwiring
  rw [silent_append, hsilent, hwirings, hroles]
  -- The parts and the wirings make up the log
  constructor
  · rintro ⟨⟨hfits, hnodup, _, hbelow⟩, hrest⟩
    refine ⟨⟨fun directive hmem => ?_, hnodup⟩, fun directive hmem => ?_⟩
    · by_cases hphase : directive.phase = .parts
      · exact hfits directive (List.mem_filter.mpr ⟨hmem, by simp [hphase]⟩)
      · exact hrest directive hmem hphase
    · by_cases hphase : directive.phase = .parts
      · exact hbelow directive (List.mem_filter.mpr ⟨hmem, by simp [hphase]⟩)
      · rw [library.asked?_of_wiring hphase]
        nofun
  · rintro ⟨hsound, hbelow⟩
    refine ⟨⟨fun directive hmem => ?_, hsound.roles, by simp, fun directive hmem => ?_⟩, ?_⟩
    · exact hsound.fits directive (List.mem_of_mem_filter hmem)
    · exact hbelow directive (List.mem_of_mem_filter hmem)
    · exact fun directive hmem _ => hsound.fits directive hmem

variable (library) in
/-- What a node of a specification is built of, without its own blueprint, is what its parts are
built of. -/
theorem forall_uses_iff {P : Specification → List Directive → Prop} {spec : Specification}
    {index : Nat} {log : List Directive} (hlog : spec.log? index = some log) :
    (∀ user used, library.Uses spec index user used → P user used) ↔
      P spec log ∧ ∀ directive ∈ log, ∀ asked, library.asked? directive = some asked →
        ∀ user used, library.Uses asked.2 0 user used → P user used := by
  constructor
  · intro h
    refine ⟨h spec log (.own hlog), ?_⟩
    rintro directive hmem ⟨identifier, part⟩ hasked user used huses
    obtain ⟨role, rfl, hmakeable⟩ := asked?_eq_some_iff.mp hasked
    exact h user used (.part hlog hmem hmakeable huses)
  -- A log that is used is the specification's own or that of a part
  · rintro ⟨hown, hparts⟩ user used huses
    cases huses with
    | own himplementation =>
      obtain rfl := Option.some.inj (hlog.symm.trans himplementation)
      exact hown
    | part himplementation hmem hmakeable huses =>
      obtain rfl := Option.some.inj (hlog.symm.trans himplementation)
      exact hparts _ hmem (_, _) (asked?_eq_some_iff.mpr ⟨_, rfl, hmakeable⟩) user used huses

/-- **A forecast is silent exactly if the used blueprints are sound.** -/
theorem silent_forecast : ∀ (levels : Nat) {identifier : String} {spec : Specification}
    {index : Nat} {steps : List Step},
    library.forecast levels identifier spec index = some steps →
    (Silent steps ↔ ∀ user used, library.Uses spec index user used → library.Sound user used)
  | 0, _, _, _, _, h => by cases h
  | levels + 1, identifier, spec, index, steps, h => by
    unfold forecast at h
    split at h
    next hlog =>
      obtain rfl := Option.some.inj h
      -- Nothing is built of blueprints here
      have hnone : ∀ user used, ¬ library.Uses spec index user used := by
        intro user used huses
        cases huses with
        | own hother => cases hlog.symm.trans hother
        | part hother => cases hlog.symm.trans hother
      simp [Silent, hnone]
    next log hlog =>
      have hpart : ∀ identifier part nested,
          library.forecast levels identifier part 0 = some nested → (Silent nested ↔
            ∀ user used, library.Uses part 0 user used → library.Sound user used) :=
        fun _ _ _ => silent_forecast levels
      rw [silent_forecastLog hpart h, library.forall_uses_iff hlog]

/-- **A network has no issues exactly if the blueprints that its build has used are sound.** -/
theorem issues_eq_empty_iff {library : Library} {identifier : String} {options : BuildOptions}
    {net : Network} (h : library.instantiate identifier options = .ok net) :
    net.issues = #[] ↔ ∃ spec, library.get? identifier = some spec ∧
      ∀ user log, library.Uses spec options.implementation user log → library.Sound user log := by
  obtain ⟨hissues, spec, hget, hforecast⟩ := foreseen_of_instantiate h
  have hsilent : net.issues = #[] ↔ Silent (library.record identifier options) := by
    rw [← Array.toList_eq_nil_iff, hissues, List.flatMap_eq_nil_iff]
    rfl
  rw [hsilent, silent_forecast _ hforecast]
  constructor
  · exact fun hsound => ⟨spec, hget, hsound⟩
  · rintro ⟨other, hother, hsound⟩
    exact Option.some.inj (hget.symm.trans hother) ▸ hsound

/-- A library with a composite that exposes no entry, and another one that exposes the entry of the
first. -/
def shut : Library where
  specifications :=
    (primitives.specifications.insert "inner" (.composite "inner" 0 1 [.part "+" "a"])).insert
      "outer" (.composite "outer" 0 1 [.part "inner" "b", .exposeEntry "b"])

/-- Only the outer composite has an issue, so its blueprint is not sound but the inner one is. -/
theorem issues_of_shut :
    (∃ net, shut.instantiate "inner" {} = .ok net ∧ net.issues = #[] ∧
      ∃ spec, shut.get? "inner" = some spec ∧
        ∀ user log, shut.Uses spec 0 user log → shut.Sound user log) ∧
    ∃ net, shut.instantiate "outer" {} = .ok net ∧ net.issues = #[.noEntry "outer" "b"] ∧
      ¬ ∃ spec, shut.get? "outer" = some spec ∧
        ∀ user log, shut.Uses spec 0 user log → shut.Sound user log := by
  have hinner : shut.instantiate "inner" {} =
      .ok ((shut.instantiate "inner" {}).toOption.getD default) := by decide +kernel
  have houter : shut.instantiate "outer" {} =
      .ok ((shut.instantiate "outer" {}).toOption.getD default) := by decide +kernel
  have hnone : ((shut.instantiate "inner" {}).toOption.getD default).issues = #[] := by
    decide +kernel
  have hsome : ((shut.instantiate "outer" {}).toOption.getD default).issues =
      #[.noEntry "outer" "b"] := by decide +kernel
  -- The network without issues gives its logs as sound, and the one with an issue does not
  refine ⟨⟨_, hinner, hnone, (issues_eq_empty_iff hinner).mp hnone⟩, _, houter, hsome, ?_⟩
  intro hsound
  rw [(issues_eq_empty_iff houter).mpr hsound] at hsome
  cases hsome

end Library

end TokenNet
