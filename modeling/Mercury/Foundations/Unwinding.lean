import Mathlib.Data.List.Basic
import Mercury.Foundations.Run

/-!
# Noninterference by unwinding

An observer sees a view of each state and some of the labels. Where the steps
that are not seen leave the view alone, and seen steps with equal labels lead
equal views to equal views, two runs whose seen labels agree end in equal views.
-/

namespace Foundations

universe u v w x

section Unwinding

variable {State : Type u} {Label : Type v} {View : Type w} {Seen : Type x}

/-- The unwinding conditions of `view` and `seen`, over the states that satisfy `Invariant`. -/
structure Unwinding (step : State → Label → State → Prop) (Invariant : State → Prop)
    (view : State → View) (seen : Label → Option Seen) : Prop where
  preserved : ∀ {source label target}, Invariant source → step source label target →
    Invariant target
  silent : ∀ {source label target}, Invariant source → step source label target →
    seen label = none → view target = view source
  consistent : ∀ {left right label other leftTarget rightTarget what}, Invariant left →
    Invariant right → view left = view right → step left label leftTarget →
      step right other rightTarget → seen label = some what → seen other = some what →
        view leftTarget = view rightTarget

namespace Unwinding

variable {step : State → Label → State → Prop} {Invariant : State → Prop}
  {view : State → View} {seen : Label → Option Seen}

theorem invariant (unwinding : Unwinding step Invariant view seen) {source target : State}
    {labels : List Label} (run : Run step source labels target) (initially : Invariant source) :
    Invariant target :=
  @Run.invariant _ _ step Invariant (fun holds taken => unwinding.preserved holds taken)
    _ _ _ run initially

/-- A run without seen labels leaves the view alone. -/
theorem silent_run (unwinding : Unwinding step Invariant view seen) {source target : State}
    {labels : List Label} (run : Run step source labels target) (initially : Invariant source)
    (unseen : labels.filterMap seen = []) : view target = view source := by
  induction run with
  | refl => rfl
  | snoc earlier last ih =>
      rw [List.filterMap_append, List.append_eq_nil_iff] at unseen
      have lastUnseen := List.filterMap_eq_nil_iff.mp unseen.2 _ List.mem_cons_self
      rw [unwinding.silent (unwinding.invariant earlier initially) last lastUnseen]
      exact ih unseen.1

/-- The last seen label of a run, with the view after its step. -/
theorem last_seen (unwinding : Unwinding step Invariant view seen) {source target : State}
    {labels : List Label} (run : Run step source labels target) (initially : Invariant source)
    {earlier : List Seen} {what : Seen} (sees : labels.filterMap seen = earlier ++ [what]) :
    ∃ before label middle next, Run step source before middle ∧ step middle label next ∧
      before.filterMap seen = earlier ∧ seen label = some what ∧ view target = view next := by
  induction run with
  | refl => simp at sees
  | @snoc middle target before label run last ih =>
      rw [List.filterMap_append] at sees
      rcases labelEq : seen label with _ | lastSeen
      · rw [List.filterMap_cons_none labelEq, List.filterMap_nil, List.append_nil] at sees
        rcases ih sees with ⟨first, other, state, next, firstRun, step, firstSees, isSeen, same⟩
        have quiet := unwinding.silent (unwinding.invariant run initially) last labelEq
        exact ⟨first, other, state, next, firstRun, step, firstSees, isSeen, quiet.trans same⟩
      · rw [List.filterMap_cons_some labelEq, List.filterMap_nil] at sees
        rcases List.append_inj' sees rfl with ⟨same, lastSame⟩
        rw [List.singleton_inj.mp lastSame] at labelEq
        exact ⟨before, label, middle, target, run, last, same, labelEq, rfl⟩

/-- Runs whose seen labels agree lead equal views to equal views. -/
theorem noninterference (unwinding : Unwinding step Invariant view seen)
    {left right leftTarget rightTarget : State} {leftLabels rightLabels : List Label}
    (leftRun : Run step left leftLabels leftTarget)
    (rightRun : Run step right rightLabels rightTarget) (leftInitially : Invariant left)
    (rightInitially : Invariant right) (alike : view left = view right)
    (agree : leftLabels.filterMap seen = rightLabels.filterMap seen) :
    view leftTarget = view rightTarget := by
  induction leftRun generalizing rightLabels rightTarget with
  | refl => exact alike.trans (unwinding.silent_run rightRun rightInitially agree.symm).symm
  | @snoc middle target before label run last ih =>
      have holds := unwinding.invariant run leftInitially
      rw [List.filterMap_append] at agree
      rcases labelEq : seen label with _ | what
      · rw [List.filterMap_cons_none labelEq, List.filterMap_nil, List.append_nil] at agree
        exact (unwinding.silent holds last labelEq).trans (ih rightRun agree)
      · rw [List.filterMap_cons_some labelEq, List.filterMap_nil] at agree
        rcases unwinding.last_seen rightRun rightInitially agree.symm with
          ⟨rightBefore, other, rightMiddle, next, earlier, step, sees, otherEq, same⟩
        rw [same]
        exact unwinding.consistent holds (unwinding.invariant earlier rightInitially)
          (ih earlier sees.symm) last step labelEq otherEq

end Unwinding

end Unwinding

end Foundations
