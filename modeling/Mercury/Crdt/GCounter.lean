import Mathlib.Algebra.BigOperators.Group.Finset.Basic
import Mathlib.Order.Lattice.Nat
import Mercury.Core.Bytes
import Mercury.Foundations.EntrywiseJoin

/-!
# The grow-only counter

`GCounter` of `mercury-crdt`: one slot for each node, merged by the greater count.
-/

namespace Mercury.Crdt

open Foundations

structure GCounter where
  counts : Finmap fun _ : Id16 => ℕ

namespace GCounter

def new : GCounter where
  counts := ∅

/-- The count of a node; no slot counts as zero. -/
def slot (counter : GCounter) (nodeId : Id16) : ℕ :=
  EntrywiseJoin.entry counter.counts nodeId

def increment (build : Build) (counter : GCounter) (nodeId : Id16) : Option GCounter :=
  (build.increment 64 ((counter.counts.lookup nodeId).getD 0)).map fun count =>
    ⟨counter.counts.insert nodeId count⟩

/-- The exact sum of the slots. -/
def total (counter : GCounter) : ℕ :=
  ∑ nodeId ∈ counter.counts.keys, counter.slot nodeId

/-- The sum in a `u64`: a partial sum overflows where the whole sum does. -/
def value (build : Build) (counter : GCounter) : Option ℕ :=
  if counter.total < 2 ^ 64 then some counter.total
  else match build with
    | .checked => none
    | .wrapping => some (counter.total % 2 ^ 64)

def merge (self other : GCounter) : GCounter where
  counts := EntrywiseJoin.join self.counts other.counts

@[simp]
theorem slot_new (nodeId : Id16) : new.slot nodeId = 0 := by
  simp [slot, new, EntrywiseJoin.entry]

@[simp]
theorem slot_merge (self other : GCounter) (nodeId : Id16) :
    (self.merge other).slot nodeId = max (self.slot nodeId) (other.slot nodeId) :=
  EntrywiseJoin.entry_join self.counts other.counts nodeId

theorem slot_increment {build : Build} {counter next : GCounter} {nodeId : Id16}
    (incremented : counter.increment build nodeId = some next)
    (fits : counter.slot nodeId + 1 < 2 ^ 64) (other : Id16) :
    next.slot other = counter.slot other + if other = nodeId then 1 else 0 := by
  have current : (counter.counts.lookup nodeId).getD 0 = counter.slot nodeId := rfl
  rw [increment, current, Build.increment_of_lt fits, Option.map_some, Option.some.injEq]
    at incremented
  subst next
  by_cases same : other = nodeId
  · subst other
    simp [slot, EntrywiseJoin.entry]
  · simp [slot, EntrywiseJoin.entry, same, Finmap.lookup_insert_of_ne _ same]

/-- A slot that counts something is there. -/
theorem mem_keys_of_slot {counter : GCounter} {nodeId : Id16} (counted : 0 < counter.slot nodeId) :
    nodeId ∈ counter.counts.keys := by
  rw [Finmap.mem_keys, ← Finmap.lookup_isSome]
  rcases found : counter.counts.lookup nodeId with _ | count
  · simp [slot, EntrywiseJoin.entry, found] at counted
  · rfl

end GCounter

end Mercury.Crdt
