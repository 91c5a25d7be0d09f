import Mathlib.Data.List.Basic
import Mathlib.Data.List.TakeDrop
import Mathlib.Order.Basic

/-!
# Bounded queues

A queue is what is left of the list of all items ever enqueued: items leave it from
the front only, to make room or when they are acknowledged. An item is known by its
place in that list.
-/

namespace Foundations

universe u

structure BoundedFifo (Item : Type u) where
  /-- All items, in the order in which they were enqueued. -/
  enqueued : List Item
  /-- How many of them have left. -/
  removed : ℕ
  removed_le : removed ≤ enqueued.length

namespace BoundedFifo

variable {Item : Type u}

def empty : BoundedFifo Item where
  enqueued := []
  removed := 0
  removed_le := Nat.le_refl _

variable (fifo : BoundedFifo Item)

def queue : List Item :=
  fifo.enqueued.drop fifo.removed

def size : ℕ :=
  fifo.queue.length

/-- At capacity the oldest item leaves. -/
def enqueue (capacity : ℕ) (item : Item) : BoundedFifo Item where
  enqueued := fifo.enqueued ++ [item]
  removed := if capacity ≤ fifo.size then fifo.removed + 1 else fifo.removed
  removed_le := by
    have := fifo.removed_le
    rw [List.length_append, List.length_singleton]
    split <;> omega

/-- The places of the first `count` items of the queue. -/
def places (count : ℕ) : List ℕ :=
  List.range' fifo.removed (fifo.queue.take count).length

/-- All items up to the one at `place` leave. -/
def ack (place : ℕ) (known : place < fifo.enqueued.length) : BoundedFifo Item where
  enqueued := fifo.enqueued
  removed := max fifo.removed (place + 1)
  removed_le := Nat.max_le.mpr ⟨fifo.removed_le, known⟩

variable {fifo}

theorem size_eq : fifo.size = fifo.enqueued.length - fifo.removed :=
  List.length_drop

/-- Enqueueing drops the oldest item of a full queue and puts the new one at the end. -/
theorem queue_enqueue {capacity : ℕ} (positive : 0 < capacity) (item : Item) :
    (fifo.enqueue capacity item).queue =
      (if capacity ≤ fifo.size then fifo.queue.tail else fifo.queue) ++ [item] := by
  have sizeEq := @size_eq _ fifo
  simp only [queue, enqueue]
  split
  · rw [List.drop_append_of_le_length (by omega), List.tail_drop]
  · rw [List.drop_append_of_le_length fifo.removed_le]

theorem size_enqueue_le {capacity : ℕ} (positive : 0 < capacity) (bounded : fifo.size ≤ capacity)
    (item : Item) : (fifo.enqueue capacity item).size ≤ capacity := by
  rw [size, queue_enqueue positive, List.length_append, List.length_singleton]
  split
  · rw [List.length_tail, ← size]
    omega
  · rw [← size]
    omega

/-- Acknowledging takes the items up to a place off the queue, and no others. -/
theorem queue_ack {place : ℕ} (known : place < fifo.enqueued.length) :
    (fifo.ack place known).queue = fifo.queue.drop (place + 1 - fifo.removed) := by
  simp only [queue, ack, List.drop_drop]
  congr 1
  omega

theorem size_ack_le {place : ℕ} (known : place < fifo.enqueued.length) :
    (fifo.ack place known).size ≤ fifo.size := by
  rw [size, queue_ack, List.length_drop, ← size]
  omega

/-- Of items in the order of their keys, those beyond the key of one of them are the ones
behind it. -/
theorem filter_drop_of_ascending {key : Item → ℕ} {items : List Item}
    (ascending : items.Pairwise fun left right => key left < key right) {place : ℕ} {item : Item}
    (itemAt : items[place]? = some item) (start : ℕ) :
    (items.drop start).filter (fun other => key item < key other) =
      items.drop (max start (place + 1)) := by
  rcases List.getElem?_eq_some_iff.mp itemAt with ⟨placeLt, rfl⟩
  have ordered := List.pairwise_iff_getElem.mp ascending
  have split := List.take_append_drop (max start (place + 1) - start) (items.drop start)
  rw [List.drop_drop, Nat.add_sub_cancel' (Nat.le_max_left _ _)] at split
  rw [← split, List.filter_append, List.filter_eq_nil_iff.mpr, List.nil_append,
    List.filter_eq_self.mpr]
  · intro other otherMem
    rcases List.mem_drop_iff_getElem.mp otherMem with ⟨index, indexLt, rfl⟩
    exact decide_eq_true (ordered place _ placeLt _ (by omega))
  · intro other otherMem
    rcases List.mem_take_iff_getElem.mp otherMem with ⟨index, indexLt, rfl⟩
    rw [List.getElem_drop]
    rw [List.length_drop] at indexLt
    have before : start + index ≤ place := by omega
    rw [decide_eq_true_eq, Nat.not_lt]
    rcases Nat.lt_or_eq_of_le before with earlier | same
    · exact Nat.le_of_lt (ordered _ place _ placeLt earlier)
    · simp only [same, Nat.le_refl]

end BoundedFifo

end Foundations
