import Mathlib.Data.List.Basic

/-!
# Runs of a labelled transition system

A run is the list of labels of the steps it takes. Every result about a system
taking step after step goes through `Run.invariant`; results about the runs
that avoid some kind of step are results about `Guarded` steps.
-/

namespace Foundations

universe u v

variable {State : Type u} {Label : Type v}

/-- `Run step source labels target`: the steps `labels`, taken in order, lead from
`source` to `target`. -/
inductive Run (step : State → Label → State → Prop) (source : State) :
    List Label → State → Prop where
  | refl : Run step source [] source
  | snoc {middle target : State} {labels : List Label} {label : Label}
      (earlier : Run step source labels middle) (last : step middle label target) :
      Run step source (labels ++ [label]) target

/-- The steps whose label is admitted by `guard` in the state before the step. -/
def Guarded (guard : State → Label → Prop) (step : State → Label → State → Prop) :
    State → Label → State → Prop :=
  fun source label target => guard source label ∧ step source label target

/-- A step that its guard admits. -/
theorem Guarded.intro {guard : State → Label → Prop} {step : State → Label → State → Prop}
    {source target : State} {label : Label} (taken : step source label target)
    (admitted : guard source label) : Guarded guard step source label target :=
  ⟨admitted, taken⟩

/-- The steps into the states that are `kept`. -/
def Into (kept : State → Prop) (step : State → Label → State → Prop) :
    State → Label → State → Prop :=
  fun source label target => step source label target ∧ kept target

namespace Run

variable {step : State → Label → State → Prop}

theorem invariant {Invariant : State → Prop}
    (preserved : ∀ {source label target}, Invariant source → step source label target →
      Invariant target)
    {source target : State} {labels : List Label} (run : Run step source labels target)
    (initially : Invariant source) : Invariant target := by
  induction run with
  | refl => exact initially
  | snoc _ last ih => exact preserved ih last

/-- An invariant that steps preserve within a bound, which no step comes back into. -/
theorem invariant_within {Invariant Bound : State → Prop}
    (stays : ∀ {source label target}, step source label target → Bound target → Bound source)
    (preserved : ∀ {source label target}, Invariant source → Bound target →
      step source label target → Invariant target)
    {source target : State} {labels : List Label} (run : Run step source labels target)
    (initially : Invariant source) (bound : Bound target) : Invariant target := by
  induction run with
  | refl => exact initially
  | snoc _ last ih => exact preserved (ih (stays last bound)) bound last

/-- What every step from an invariant state does, every step of a run does. -/
theorem labels {Invariant : State → Prop} {Good : Label → Prop}
    (preserved : ∀ {source label target}, Invariant source → step source label target →
      Invariant target ∧ Good label)
    {source target : State} {labels : List Label} (run : Run step source labels target)
    (initially : Invariant source) : Invariant target ∧ ∀ label ∈ labels, Good label := by
  induction run with
  | refl => exact ⟨initially, by simp⟩
  | snoc _ last ih =>
      rcases preserved ih.1 last with ⟨after, good⟩
      refine ⟨after, fun label labelMem => ?_⟩
      rcases List.mem_append.mp labelMem with earlier | now
      · exact ih.2 label earlier
      · exact List.mem_singleton.mp now ▸ good

theorem mono {weaker : State → Label → State → Prop}
    (weaken : ∀ {source label target}, step source label target → weaker source label target)
    {source target : State} {labels : List Label} (run : Run step source labels target) :
    Run weaker source labels target := by
  induction run with
  | refl => exact Run.refl
  | snoc _ last ih => exact Run.snoc ih (weaken last)

theorem of_guarded {guard : State → Label → Prop} {source target : State}
    {labels : List Label} (run : Run (Guarded guard step) source labels target) :
    Run step source labels target :=
  run.mono fun taken => taken.2

/-- A run all of whose labels are good. -/
theorem guarded_of_labels {Good : Label → Prop} {source target : State} {labels : List Label}
    (run : Run step source labels target) (good : ∀ label ∈ labels, Good label) :
    Run (Guarded (fun _ => Good) step) source labels target := by
  induction run with
  | refl => exact Run.refl
  | snoc _ last ih =>
      refine Run.snoc (ih fun label labelMem => good label (List.mem_append_left _ labelMem)) ?_
      exact ⟨good _ (List.mem_append_right _ (List.mem_singleton_self _)), last⟩

/-- A run whose guard may look at the steps before. -/
theorem guarded_of_prefixes {guard : State → Label → Prop} {source target : State}
    {labels : List Label} (run : Run step source labels target)
    (admitted : ∀ before label after middle, labels = before ++ label :: after →
      Run step source before middle → guard middle label) :
    Run (Guarded guard step) source labels target := by
  induction run with
  | refl => exact Run.refl
  | @snoc middle target labels label earlier last ih =>
      have before : Run (Guarded guard step) source labels middle := by
        apply ih
        rintro first now later state rfl reached
        exact admitted first now (later ++ [label]) state (by simp) reached
      exact Run.snoc before ⟨admitted labels label [] middle rfl earlier, last⟩

/-- An invariant of the guarded steps, with which the guard of a step is what it takes to
lead into a state that is `kept`: the guarded runs are the runs through such states. -/
theorem guarded_iff_into_of_invariant {guard : State → Label → Prop}
    {Invariant kept : State → Prop} (keeps : ∀ {state}, Invariant state → kept state)
    (preserved : ∀ {source label target}, Invariant source → guard source label →
      step source label target → Invariant target)
    (needed : ∀ {source label target}, Invariant source → kept target →
      step source label target → guard source label)
    {source target : State} {labels : List Label} (initially : Invariant source) :
    Run (Guarded guard step) source labels target ↔ Run (Into kept step) source labels target := by
  constructor
  · intro run
    have into : Run (Into kept step) source labels target ∧ Invariant target := by
      induction run with
      | refl => exact ⟨Run.refl, initially⟩
      | snoc _ last ih =>
          have after := preserved ih.2 last.1 last.2
          exact ⟨Run.snoc ih.1 ⟨last.2, keeps after⟩, after⟩
    exact into.1
  · intro run
    have guarded : Run (Guarded guard step) source labels target ∧ Invariant target := by
      induction run with
      | refl => exact ⟨Run.refl, initially⟩
      | snoc _ last ih =>
          have admitted := needed ih.2 last.2 last.1
          exact ⟨Run.snoc ih.1 ⟨admitted, last.1⟩, preserved ih.2 admitted last.1⟩
    exact guarded.1

/-- Where the guard of a step tells whether it leads into a state that is `kept`, the
guarded runs are the runs through such states. -/
theorem guarded_iff_into {guard : State → Label → Prop} {kept : State → Prop}
    (exactly : ∀ {source label target}, kept source → step source label target →
      (guard source label ↔ kept target))
    {source target : State} {labels : List Label} (initially : kept source) :
    Run (Guarded guard step) source labels target ↔ Run (Into kept step) source labels target := by
  apply guarded_iff_into_of_invariant id _ _ initially
  · intro source label target isKept admitted taken
    exact (exactly isKept taken).mp admitted
  · intro source label target isKept after taken
    exact (exactly isKept taken).mpr after

theorem append {source middle target : State} {first second : List Label}
    (left : Run step source first middle) (right : Run step middle second target) :
    Run step source (first ++ second) target := by
  induction right with
  | refl => simpa using left
  | snoc _ last ih =>
      rw [← List.append_assoc]
      exact Run.snoc ih last

theorem cons {source middle target : State} {label : Label} {labels : List Label}
    (first : step source label middle) (later : Run step middle labels target) :
    Run step source (label :: labels) target :=
  (Run.snoc Run.refl first).append later

/-- A run to some state, with a step before it. -/
theorem exists_cons {source middle : State} {label : Label} {Reached : List Label → State → Prop}
    (first : step source label middle)
    (later : ∃ labels target, Run step middle labels target ∧ Reached (label :: labels) target) :
    ∃ labels target, Run step source labels target ∧ Reached labels target := by
  rcases later with ⟨labels, target, run, reached⟩
  exact ⟨label :: labels, target, Run.cons first run, reached⟩

theorem nil {source target : State} (run : Run step source [] target) : source = target := by
  generalize none : ([] : List Label) = labels at run
  cases run with
  | refl => rfl
  | snoc => simp at none

/-- The first step of a run that takes one. -/
theorem uncons {source target : State} {label : Label} {labels : List Label}
    (run : Run step source (label :: labels) target) :
    ∃ middle, step source label middle ∧ Run step middle labels target := by
  generalize taken : label :: labels = all at run
  induction run generalizing labels with
  | refl => simp at taken
  | @snoc middle target earlierLabels lastLabel earlier last ih =>
      rcases List.cons_eq_append_iff.mp taken with ⟨none, onlyLast⟩ | ⟨rest, split, labelsEq⟩
      · subst none
        simp only [List.cons.injEq] at onlyLast
        rcases onlyLast with ⟨rfl, rfl⟩
        cases earlier.nil
        exact ⟨target, last, Run.refl⟩
      · rcases ih split.symm with ⟨first, firstStep, later⟩
        exact ⟨first, firstStep, labelsEq ▸ Run.snoc later last⟩

/-- The state that a run goes through between two parts of its labels. -/
theorem exists_between {source target : State} {first second : List Label}
    (run : Run step source (first ++ second) target) :
    ∃ middle, Run step source first middle ∧ Run step middle second target := by
  induction first generalizing source with
  | nil => exact ⟨source, Run.refl, run⟩
  | cons label rest ih =>
      rcases run.uncons with ⟨next, taken, later⟩
      rcases ih later with ⟨middle, earlier, last⟩
      exact ⟨middle, Run.cons taken earlier, last⟩

/-- The state after a script, if each of its steps is possible. -/
def play (next : State → Label → Option State) (source : State) : List Label → Option State
  | [] => some source
  | label :: rest => (next source label).bind fun middle => play next middle rest

/-- A script that can be played is a run. -/
theorem of_play {next : State → Label → Option State} {labels : List Label}
    {source target : State} (played : play next source labels = some target) :
    Run (fun source label target => next source label = some target) source labels target := by
  induction labels generalizing source with
  | nil =>
      cases played
      exact Run.refl
  | cons label rest ih =>
      rcases Option.bind_eq_some_iff.mp played with ⟨middle, first, later⟩
      exact Run.cons first (ih later)

/-- A script that can be played, with each of its labels admitted where it is reached, is
a guarded run. -/
theorem guarded_of_play {guard : State → Label → Prop} {next : State → Label → Option State}
    {labels : List Label} {source target : State} (played : play next source labels = some target)
    (admitted : ∀ count label, labels[count]? = some label → ∀ middle,
      play next source (labels.take count) = some middle → guard middle label) :
    Run (Guarded guard fun source label target => next source label = some target) source labels
      target := by
  induction labels generalizing source with
  | nil =>
      cases played
      exact Run.refl
  | cons label rest ih =>
      rcases Option.bind_eq_some_iff.mp played with ⟨middle, first, later⟩
      refine Run.cons ⟨admitted 0 label rfl source rfl, first⟩ (ih later ?_)
      intro count other otherAt reached otherReached
      apply admitted (count + 1) other otherAt reached
      rw [List.take_succ_cons, play, first]
      exact otherReached

end Run

end Foundations
