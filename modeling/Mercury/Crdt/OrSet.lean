import Mathlib.Data.Finset.Lattice.Basic
import Mathlib.Order.Lattice.Nat
import Mercury.Core.Bytes
import Mercury.Foundations.EntrywiseJoin

/-!
# The observed-remove set

`ORSet<T>` of `mercury-crdt`. A `HashMap` is a finite map and a `BTreeSet` a
finite set; neither the iteration order of a `HashMap` nor the order of the dots
is visible in any result.
-/

namespace Mercury.Crdt

open Foundations

/-- A unique tag for each add operation. -/
structure Dot where
  nodeId : Id16
  seq : ℕ
deriving DecidableEq

/-- Observed-remove set. -/
structure OrSet (T : Type) where
  entries : Finmap fun _ : T => Finset Dot
  nextSeq : Finmap fun _ : Id16 => ℕ

namespace OrSet

variable {T : Type} [DecidableEq T]

def new : OrSet T where
  entries := ∅
  nextSeq := ∅

/-- The dots stored for `value`; no entry counts as no dots. -/
def dots (set : OrSet T) (value : T) : Finset Dot :=
  EntrywiseJoin.entry set.entries value

/-- The dot the next `add` under `nodeId` makes, unless its sequence number overflows. -/
def nextDot (build : Build) (set : OrSet T) (nodeId : Id16) : Option Dot :=
  (build.increment 64 ((set.nextSeq.lookup nodeId).getD 0)).map fun seq => ⟨nodeId, seq⟩

def add (build : Build) (set : OrSet T) (value : T) (nodeId : Id16) : Option (OrSet T) :=
  (set.nextDot build nodeId).map fun dot =>
    { entries := set.entries.insert value (insert dot ((set.entries.lookup value).getD ∅))
      nextSeq := set.nextSeq.insert nodeId dot.seq }

def remove (set : OrSet T) (value : T) : OrSet T :=
  { set with entries := set.entries.erase value }

def contains (set : OrSet T) (value : T) : Bool :=
  match set.entries.lookup value with
  | some dots => !decide (dots = ∅)
  | none => false

def elements (set : OrSet T) : Finset T :=
  set.entries.keys.filter fun value => set.contains value

def len (set : OrSet T) : ℕ :=
  set.elements.card

def isEmpty (set : OrSet T) : Bool :=
  set.len == 0

def merge (self other : OrSet T) : OrSet T where
  entries := EntrywiseJoin.join self.entries other.entries
  nextSeq := EntrywiseJoin.join self.nextSeq other.nextSeq

theorem contains_iff {set : OrSet T} {value : T} :
    set.contains value = true ↔ (set.dots value).Nonempty := by
  simp only [contains, dots, EntrywiseJoin.entry, Finset.nonempty_iff_ne_empty]
  cases set.entries.lookup value <;> simp

@[simp]
theorem dots_new (value : T) : (new : OrSet T).dots value = ∅ := by
  simp [dots, new, EntrywiseJoin.entry]

theorem dots_add {build : Build} {set next : OrSet T} {value : T} {nodeId : Id16}
    (added : set.add build value nodeId = some next) (other : T) :
    ∃ dot, set.nextDot build nodeId = some dot ∧
      next.dots other = if other = value then insert dot (set.dots value) else set.dots other := by
  simp only [add, Option.map_eq_some_iff] at added
  rcases added with ⟨dot, dotEq, rfl⟩
  refine ⟨dot, dotEq, ?_⟩
  by_cases same : other = value
  · subst other
    simp [dots, EntrywiseJoin.entry]
  · simp [dots, EntrywiseJoin.entry, same, Finmap.lookup_insert_of_ne _ same]

theorem dots_remove (set : OrSet T) (value other : T) :
    (set.remove value).dots other = if other = value then ∅ else set.dots other := by
  by_cases same : other = value
  · subst other
    simp [dots, remove, EntrywiseJoin.entry]
  · simp [dots, remove, EntrywiseJoin.entry, same, Finmap.lookup_erase_ne same]

@[simp]
theorem dots_merge (self other : OrSet T) (value : T) :
    (self.merge other).dots value = self.dots value ∪ other.dots value := by
  simp [dots, merge, Finset.sup_eq_union]

theorem mem_elements {set : OrSet T} {value : T} :
    value ∈ set.elements ↔ set.contains value = true := by
  simp only [elements, Finset.mem_filter, and_iff_right_iff_imp]
  intro present
  rw [Finmap.mem_keys, ← Finmap.lookup_isSome]
  simp only [contains] at present
  cases found : set.entries.lookup value with
  | none => simp [found] at present
  | some => rfl

end OrSet

end Mercury.Crdt
