import Mathlib.Data.List.Basic
import Mathlib.Data.Set.Card
import Mathlib.Logic.Relation
import Mathlib.Order.Interval.Finset.Nat

/-!
# Happening before

The events of a run are recorded in one list, the earlier ones first. An event
belongs to a node, and may have a source, an event whose message it receives. An
event comes before the later events of its node and before those that it is the
source of; happening before is the transitive closure.

What an event computes, it computes from its direct predecessors on its own node
and at its source (`Grounded`), so a quantity that grows at every event grows
along happening before (`Grounded.lt_of_happensBefore`).
-/

namespace Foundations

universe u v w

/-- The node of an event, and the position of its source. -/
structure EventKind (Event : Type u) (Node : Type v) where
  node : Event → Node
  source : Event → Option ℕ

namespace EventKind

variable {Event : Type u} {Node : Type v} (kind : EventKind Event Node) {events : List Event}
  {earlier later position : ℕ}

/-- The event at `earlier` comes directly before the one at `later`. -/
def Precedes (events : List Event) (earlier later : ℕ) : Prop :=
  earlier < later ∧ ∃ first second, events[earlier]? = some first ∧
    events[later]? = some second ∧
      (kind.node first = kind.node second ∨ kind.source second = some earlier)

def HappensBefore (events : List Event) : ℕ → ℕ → Prop :=
  Relation.TransGen (kind.Precedes events)

/-- The causal history of an event: itself and all that happened before it. -/
def history (events : List Event) (position : ℕ) : Set ℕ :=
  { earlier | Relation.ReflTransGen (kind.Precedes events) earlier position }

variable {kind}

theorem Precedes.append (precedes : kind.Precedes events earlier later) (event : Event) :
    kind.Precedes (events ++ [event]) earlier later := by
  rcases precedes with ⟨before, first, second, firstAt, secondAt, linked⟩
  refine ⟨before, first, second, ?_, ?_, linked⟩
  · rw [List.getElem?_append_left (List.getElem?_eq_some_iff.mp firstAt).1, firstAt]
  · rw [List.getElem?_append_left (List.getElem?_eq_some_iff.mp secondAt).1, secondAt]

theorem Precedes.of_append {event : Event}
    (precedes : kind.Precedes (events ++ [event]) earlier later) (known : later < events.length) :
    kind.Precedes events earlier later := by
  rcases precedes with ⟨before, first, second, firstAt, secondAt, linked⟩
  rw [List.getElem?_append_left (by omega)] at firstAt secondAt
  exact ⟨before, first, second, firstAt, secondAt, linked⟩

theorem mem_history_self : position ∈ kind.history events position :=
  Relation.ReflTransGen.refl

theorem mem_history_of_precedes (precedes : kind.Precedes events earlier later) :
    earlier ∈ kind.history events later :=
  Relation.ReflTransGen.single precedes

theorem history_append_subset (event : Event) :
    kind.history events position ⊆ kind.history (events ++ [event]) position := by
  intro earlier before
  induction before with
  | refl => exact mem_history_self
  | tail _ last ih => exact Relation.ReflTransGen.tail ih (last.append event)

/-- A history goes back in time. -/
theorem le_of_mem_history (mem : earlier ∈ kind.history events later) : earlier ≤ later := by
  induction mem with
  | refl => exact Nat.le_refl _
  | tail _ last ih => exact ih.trans last.1.le

theorem finite_history : Set.Finite (kind.history events position) :=
  (Set.finite_Iic position).subset fun _ mem => le_of_mem_history mem

theorem mem_history_iff :
    earlier ∈ kind.history events later ↔
      earlier = later ∨ ∃ middle, kind.Precedes events middle later ∧
        earlier ∈ kind.history events middle := by
  constructor
  · intro mem
    rcases Relation.ReflTransGen.cases_tail mem with same | ⟨middle, before, last⟩
    · exact Or.inl same.symm
    · exact Or.inr ⟨middle, last, before⟩
  · rintro (rfl | ⟨middle, last, before⟩)
    · exact mem_history_self
    · exact Relation.ReflTransGen.tail before last

/-- The event at `position` has the inputs `inputs`: direct predecessors, in whose
histories all the others lie. -/
structure Grounded (kind : EventKind Event Node) (events : List Event) (position : ℕ)
    (inputs : List ℕ) : Prop where
  precede : ∀ input ∈ inputs, kind.Precedes events input position
  cover : ∀ earlier, kind.Precedes events earlier position →
    ∃ input ∈ inputs, earlier ∈ kind.history events input

namespace Grounded

variable {inputs : List ℕ}

theorem append (grounded : Grounded kind events position inputs)
    (known : position < events.length) (event : Event) :
    Grounded kind (events ++ [event]) position inputs where
  precede input inputMem := (grounded.precede input inputMem).append event
  cover earlier precedes := by
    rcases grounded.cover earlier (precedes.of_append known) with ⟨input, inputMem, before⟩
    exact ⟨input, inputMem, history_append_subset event before⟩

theorem input_lt (grounded : Grounded kind events position inputs) {input : ℕ}
    (inputMem : input ∈ inputs) : input < position :=
  (grounded.precede input inputMem).1

/-- The history of an event is that of its inputs, and itself. -/
theorem mem_history (grounded : Grounded kind events position inputs) :
    earlier ∈ kind.history events position ↔
      earlier = position ∨ ∃ input ∈ inputs, earlier ∈ kind.history events input := by
  rw [mem_history_iff]
  apply or_congr_right
  constructor
  · rintro ⟨middle, last, before⟩
    rcases grounded.cover middle last with ⟨input, inputMem, within⟩
    exact ⟨input, inputMem, Relation.ReflTransGen.trans before within⟩
  · rintro ⟨input, inputMem, before⟩
    exact ⟨input, grounded.precede input inputMem, before⟩

end Grounded

section Stamps

variable {Stamp : Type w} [Preorder Stamp] {stamp : Event → Stamp} {first second : Event}

/-- What grows from direct predecessor to event, up to a position, grows along its history. -/
theorem le_of_mem_history_of_precedes
    (grows : ∀ earlier position first second, position ≤ later →
      events[earlier]? = some first → events[position]? = some second →
        kind.Precedes events earlier position → stamp first < stamp second)
    (mem : earlier ∈ kind.history events later) (firstAt : events[earlier]? = some first)
    (secondAt : events[later]? = some second) : stamp first ≤ stamp second := by
  induction mem generalizing second with
  | refl =>
      rw [firstAt, Option.some.injEq] at secondAt
      exact secondAt ▸ le_refl _
  | @tail middle last _ step ih =>
      rcases step.2 with ⟨mid, _, midAt, _⟩
      have before := ih (fun earlier position first second known =>
        grows earlier position first second (known.trans step.1.le)) midAt
      exact before.trans (grows middle last mid second (Nat.le_refl _) midAt secondAt step).le

/-- What is greater at an event than at its inputs grows along happening before. -/
theorem lt_of_happensBefore
    (grounded : ∀ position event, events[position]? = some event →
      ∃ inputs, Grounded kind events position inputs ∧
        ∀ input ∈ inputs, ∀ other, events[input]? = some other → stamp other < stamp event)
    (before : kind.HappensBefore events earlier later)
    (firstAt : events[earlier]? = some first) (secondAt : events[later]? = some second) :
    stamp first < stamp second := by
  have direct : ∀ later earlier first second, events[earlier]? = some first →
      events[later]? = some second → kind.Precedes events earlier later →
        stamp first < stamp second := by
    intro later
    induction later using Nat.strong_induction_on with
    | _ later ih =>
        intro earlier first second firstAt secondAt precedes
        rcases grounded later second secondAt with ⟨inputs, supported, grows⟩
        rcases supported.cover earlier precedes with ⟨input, inputMem, within⟩
        rcases (supported.precede input inputMem).2 with ⟨other, _, otherAt, _⟩
        have up : stamp first ≤ stamp other := by
          refine le_of_mem_history_of_precedes ?_ within firstAt otherAt
          intro earlier position first second known firstAt secondAt
          exact ih position (known.trans_lt (supported.input_lt inputMem)) earlier first second
            firstAt secondAt
        exact up.trans_lt (grows input inputMem other otherAt)
  induction before generalizing second with
  | single precedes => exact direct _ _ _ _ firstAt secondAt precedes
  | tail _ precedes ih =>
      rcases precedes.2 with ⟨mid, _, midAt, _⟩
      exact (ih midAt).trans (direct _ _ _ _ midAt secondAt precedes)

end Stamps

end EventKind

end Foundations
