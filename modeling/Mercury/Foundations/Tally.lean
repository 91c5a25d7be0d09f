import Mathlib.Data.Finmap
import Mathlib.Tactic.Common

/-!
# Counting with a finite map

The loop `for item in items { *map.entry(item).or_insert(0) += 1 }`.
-/

namespace Foundations

universe u

namespace Tally

variable {Key : Type u} [DecidableEq Key]

/-- `*map.entry(key).or_insert(0) += 1`. -/
def count (counts : Finmap fun _ : Key => ℕ) (key : Key) : Finmap fun _ : Key => ℕ :=
  counts.insert key ((counts.lookup key).getD 0 + 1)

def tally (items : List Key) : Finmap fun _ : Key => ℕ :=
  items.foldl count ∅

/-- The loop adds to each entry how often its key occurs. -/
theorem lookup_foldl_count (items : List Key) (counts : Finmap fun _ : Key => ℕ) (key : Key) :
    (items.foldl count counts).lookup key =
      if key ∈ items then some ((counts.lookup key).getD 0 + items.count key)
      else counts.lookup key := by
  induction items generalizing counts with
  | nil => simp
  | cons item rest ih =>
      rw [List.foldl_cons, ih]
      by_cases same : key = item
      · subst item
        by_cases later : key ∈ rest
        · simp [count, later]
          omega
        · simp [count, later, List.count_eq_zero_of_not_mem later]
      · have kept : (count counts item).lookup key = counts.lookup key :=
          Finmap.lookup_insert_of_ne _ same
        simp [kept, same, List.count_cons_of_ne (Ne.symm same)]

theorem lookup_tally (items : List Key) (key : Key) :
    (tally items).lookup key = if key ∈ items then some (items.count key) else none := by
  simp [tally, lookup_foldl_count]

theorem mem_tally {items : List Key} {key : Key} : key ∈ tally items ↔ key ∈ items := by
  rw [← Finmap.lookup_isSome, lookup_tally]
  split <;> simp [*]

theorem tally_eq_empty {items : List Key} : tally items = ∅ ↔ items = [] := by
  constructor
  · intro none
    apply List.eq_nil_iff_forall_not_mem.mpr
    intro key keyMem
    have counted := mem_tally.mpr keyMem
    rw [none] at counted
    exact Finmap.notMem_empty counted
  · rintro rfl
    rfl

end Tally

end Foundations
