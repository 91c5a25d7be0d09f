import Mathlib.Data.Finmap
import Mathlib.Order.Lattice
import Mathlib.Order.BoundedOrder.Lattice

/-!
# Joining finite maps entry by entry

The loop `for (key, value) in other { *self.entry(key).or_insert(⊥) ⊔= value }`
over a finite map, with values in a join-semilattice that has a least element.
The order in which the entries of `other` are visited does not matter, so the
loop is a fold over the map itself.
-/

namespace Foundations

universe u v

namespace EntrywiseJoin

variable {Key : Type u} {Value : Type v} [DecidableEq Key] [SemilatticeSup Value] [OrderBot Value]

/-- The value stored under `key`, or the least value if there is none. -/
def entry (map : Finmap fun _ : Key => Value) (key : Key) : Value :=
  (map.lookup key).getD ⊥

/-- One round of the loop: `value` is joined into the entry of `key`. -/
def joinEntry (map : Finmap fun _ : Key => Value) (key : Key) (value : Value) :
    Finmap fun _ : Key => Value :=
  map.insert key (entry map key ⊔ value)

@[simp]
theorem lookup_joinEntry_self (map : Finmap fun _ : Key => Value) (key : Key) (value : Value) :
    (joinEntry map key value).lookup key = some (entry map key ⊔ value) := by
  simp [joinEntry]

theorem lookup_joinEntry_of_ne (map : Finmap fun _ : Key => Value) {key other : Key}
    (value : Value) (different : other ≠ key) :
    (joinEntry map key value).lookup other = map.lookup other :=
  Finmap.lookup_insert_of_ne map different

theorem joinEntry_comm (map : Finmap fun _ : Key => Value) (leftKey : Key) (left : Value)
    (rightKey : Key) (right : Value) :
    joinEntry (joinEntry map leftKey left) rightKey right =
      joinEntry (joinEntry map rightKey right) leftKey left := by
  apply Finmap.ext_lookup
  intro key
  by_cases same : leftKey = rightKey
  · subst rightKey
    by_cases here : key = leftKey
    · subst key
      simp [entry, sup_assoc, sup_comm left right]
    · simp [lookup_joinEntry_of_ne _ _ here]
  · by_cases atLeft : key = leftKey
    · subst key
      simp [lookup_joinEntry_of_ne _ _ same, entry]
    · by_cases atRight : key = rightKey
      · subst key
        simp [lookup_joinEntry_of_ne _ _ atLeft, entry]
      · simp [lookup_joinEntry_of_ne _ _ atLeft, lookup_joinEntry_of_ne _ _ atRight]

/-- The whole loop: every entry of `other` is joined into `self`. -/
def join (self other : Finmap fun _ : Key => Value) : Finmap fun _ : Key => Value :=
  other.foldl joinEntry joinEntry_comm self

/-- The entry the loop leaves under a key, from the entries the two maps had there. -/
def joinOption : Option Value → Option Value → Option Value
  | left, none => left
  | left, some right => some (left.getD ⊥ ⊔ right)

private theorem lookup_foldl_joinEntry (entries : List (Sigma fun _ : Key => Value))
    (distinct : entries.NodupKeys) (map : Finmap fun _ : Key => Value) (key : Key) :
    (entries.foldl (fun current pair => joinEntry current pair.1 pair.2) map).lookup key =
      joinOption (map.lookup key) (entries.dlookup key) := by
  induction entries generalizing map with
  | nil => simp [joinOption]
  | cons pair rest ih =>
      rcases pair with ⟨head, value⟩
      have restDistinct := (List.nodupKeys_cons.mp distinct).2
      have headFresh := (List.nodupKeys_cons.mp distinct).1
      rw [List.foldl_cons, ih restDistinct]
      by_cases here : key = head
      · subst key
        have absent : rest.dlookup head = none := List.dlookup_eq_none.mpr headFresh
        simp [absent, joinOption, entry]
      · rw [lookup_joinEntry_of_ne _ _ here,
          List.dlookup_cons_ne rest (⟨head, value⟩ : Sigma fun _ : Key => Value) here]

theorem lookup_join (self other : Finmap fun _ : Key => Value) (key : Key) :
    (join self other).lookup key = joinOption (self.lookup key) (other.lookup key) := by
  induction other using Finmap.induction_on with
  | H entries =>
      exact lookup_foldl_joinEntry entries.entries entries.nodupKeys self key

@[simp]
theorem entry_join (self other : Finmap fun _ : Key => Value) (key : Key) :
    entry (join self other) key = entry self key ⊔ entry other key := by
  simp only [entry, lookup_join]
  cases other.lookup key <;> simp [joinOption]

/-! ### The laws of the loop -/

theorem joinOption_comm (left right : Option Value) :
    joinOption left right = joinOption right left := by
  rcases left with _ | left <;> rcases right with _ | right <;> simp [joinOption, sup_comm]

theorem joinOption_assoc (first second third : Option Value) :
    joinOption (joinOption first second) third = joinOption first (joinOption second third) := by
  rcases second with _ | second <;> rcases third with _ | third <;>
    simp [joinOption, sup_assoc]

theorem joinOption_self (value : Option Value) : joinOption value value = value := by
  rcases value with _ | value <;> simp [joinOption]

theorem join_comm (self other : Finmap fun _ : Key => Value) : join self other = join other self :=
  Finmap.ext_lookup fun key => by rw [lookup_join, lookup_join, joinOption_comm]

theorem join_assoc (first second third : Finmap fun _ : Key => Value) :
    join (join first second) third = join first (join second third) :=
  Finmap.ext_lookup fun key => by simp only [lookup_join, joinOption_assoc]

theorem join_self (map : Finmap fun _ : Key => Value) : join map map = map :=
  Finmap.ext_lookup fun key => by rw [lookup_join, joinOption_self]

end EntrywiseJoin

end Foundations
