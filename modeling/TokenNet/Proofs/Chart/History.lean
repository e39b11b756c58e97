import TokenNet.Proofs.Chart.Library

/-!
# Networks that remember

What a network answers may depend on all that was done with it.  The rows of its chart then keep a
property of the memory that speaks of the whole history of use, and every run takes it from one
history to the next.  Such a run must end, so the limit on firings has to allow it.

## Main statements

- `Chart.Tracks.serves`: the memory after any history.
- `Chart.Tracks.answered_of_follows`: how the next run is answered.
-/

namespace TokenNet

/-! ## Histories -/

namespace Use

@[simp] theorem lastWritten_append (uses : List Use) (use : Use) :
    lastWritten (uses ++ [use]) = use.inputs (lastWritten uses) := by
  rw [lastWritten, List.foldl_append]
  rfl

/-- The number of runs since an input was written last, if a use comes after so many. -/
def counts (index : Nat) (before : Nat) : Use → Nat
  | write written _ => if written = index then 0 else before
  | run => before + 1

/-- The number of runs since an input was written last, or since the build if it never was. -/
def runsSince (index : Nat) (uses : List Use) : Nat :=
  uses.foldl (counts index) 0

@[simp] theorem runsSince_append (index : Nat) (uses : List Use) (use : Use) :
    runsSince index (uses ++ [use]) = use.counts index (runsSince index uses) := by
  rw [runsSince, List.foldl_append]
  rfl

/-- The number of runs. -/
def runs (uses : List Use) : Nat :=
  uses.countP (· = run)

@[simp] theorem runs_append_write (uses : List Use) (index : Nat) (value : Value) :
    runs (uses ++ [write index value]) = runs uses := by
  simp [runs]

@[simp] theorem runs_append_run (uses : List Use) : runs (uses ++ [run]) = runs uses + 1 := by
  simp [runs]

end Use

/-! ## Contracts -/

/-- What the rows of a chart do with a memory that depends on the history.  A property of the memory
holds after the build, a write takes it on, and so does a run, which ends *done* as the history wants
it and needs no more firings than a bound. -/
structure Chart.Tracks (chart : Chart) (holds : List Use → Memory → Prop)
    (done : List Use → Nat → Memory → Prop) (bound : Nat) : Prop where
  fresh : ∀ {memory}, (∀ s, memory.slot s = 0) → holds [] memory
  refused : ∀ {uses memory index} value, chart.inputs.length ≤ index → holds uses memory →
    holds (uses ++ [.write index value]) memory
  write : ∀ {uses memory index slots} emits value, chart.inputs[index]? = some slots →
    holds uses memory → holds (uses ++ [.write index value]) (memory.write slots emits value)
  ends : ∀ {uses memory}, holds uses memory → Ends chart.rows (fun _ => True)
    (fun exit later => done uses exit later ∧ holds (uses ++ [.run]) later) bound
    (.row chart.start) memory

namespace Chart.Tracks

variable {chart : Chart} {holds : List Use → Memory → Prop}
variable {done : List Use → Nat → Memory → Prop} {bound : Nat}
variable {net net' : Network} {ports : Interface} {before : List Use}

/-- **A run is answered as the history wants it**, and takes the property on. -/
theorem run (h : chart.Tracks holds done bound) (hlimit : bound ≤ net.limits.chainLimit)
    (hlinked : net.graph.Linked) (hports : net.graph.interface? net.root = some ports)
    (hchart : net.graph.Charted ports chart) (hkeeps : net.Keeps net')
    (hholds : holds before (net'.graph.memory ports.outlet)) :
    let answer := net'.perform .step
    (net.Keeps answer.1 ∧ holds (before ++ [.run]) (answer.1.graph.memory ports.outlet)) ∧
      ∃ index memory steps, done before index memory ∧ answer.2 = .ok (.outcome
        ⟨⟨⟨index⟩, if index < chart.exits then some index else none, steps⟩,
          if chart.gives then some memory.out else none⟩) := by
  obtain ⟨hkept, _, hresult⟩ := perform_step hlinked hports hchart hkeeps (h.ends hholds)
  rcases hresult with ⟨index, steps, ⟨hdone, hafter⟩, hanswer⟩ | ⟨hless, _⟩
  · exact ⟨⟨hkept, hafter⟩, index, _, steps, hdone, hanswer⟩
  · omega

/-- **The property holds after any history.** -/
theorem serves (h : chart.Tracks holds done bound) (hlimit : bound ≤ net.limits.chainLimit)
    (hlinked : net.graph.Linked) (hports : net.graph.interface? net.root = some ports)
    (hchart : net.graph.Charted ports chart) : ∀ (uses : List Use) {net' : Network}
    {before : List Use}, net.Keeps net' → holds before (net'.graph.memory ports.outlet) →
    let used := (net'.performAll (uses.map (Use.call net.root))).1
    net.Keeps used ∧ holds (before ++ uses) (used.graph.memory ports.outlet) := by
  intro uses
  induction uses with
  | nil =>
    intro net' before hkeeps hholds
    rw [List.append_nil]
    exact ⟨hkeeps, hholds⟩
  | cons use rest ih =>
    intro net' before hkeeps hholds
    rw [List.append_cons]
    cases use with
    | run =>
      obtain ⟨⟨hkept, hafter⟩, _⟩ := h.run hlimit hlinked hports hchart hkeeps hholds
      exact ih hkept hafter
    | write index value =>
      rcases perform_writeInlet hlinked hports hchart hkeeps index value with
        ⟨hlength, hsame⟩ | ⟨slots, emits, hslots, hkept, hmemory⟩
      -- A refused write leaves the network as it is
      · have hnext := ih hkeeps (h.refused value hlength hholds)
        rw [← hsame] at hnext
        exact hnext
      · exact ih hkept (hmemory ▸ h.write emits value hslots hholds)

/-- **The next run of a built network is answered as the history wants it**, whatever the options of
the build are, if only the limit on firings allows a run. -/
theorem answered_of_follows (h : chart.Tracks holds done bound) {library : Library}
    {identifier : String} {options : BuildOptions}
    (hfollows : library.follows identifier chart = true)
    (hnet : library.instantiate identifier options = .ok net)
    (hlimit : bound ≤ options.limits.chainLimit) (uses : List Use) :
    ∃ index memory steps, done uses index memory ∧
      ((net.performAll (uses.map (Use.call net.root))).1.perform .step).2 = .ok (.outcome
        ⟨⟨⟨index⟩, if index < chart.exits then some index else none, steps⟩,
          if chart.gives then some memory.out else none⟩) := by
  obtain ⟨ports, hports, hchart⟩ := Library.charted_of_follows hfollows hnet
  obtain ⟨_, _, _, _, _, hlimits⟩ := Library.grow_of_instantiate hnet
  have hlinked := (Network.leads_instantiate hnet).1.linked .empty
  rw [← hlimits] at hlimit
  have hfresh : holds [] (net.graph.memory ports.outlet) :=
    h.fresh fun s => hchart.blank.shows (.inlet ⟨s⟩)
  -- The calls so far are kept by the memory, and one more step ends
  obtain ⟨hkept, hafter⟩ :=
    h.serves hlimit hlinked hports hchart uses ⟨.refl hlinked, rfl, rfl⟩ hfresh
  exact (h.run hlimit hlinked hports hchart hkept hafter).2

end Chart.Tracks

end TokenNet
