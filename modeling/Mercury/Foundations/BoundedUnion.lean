import Mathlib.Data.Finmap
import Mathlib.Data.Finset.Card
import Mathlib.Tactic.Common

/-!
# Filling up a bounded map

The loop that visits the entries of another map in some order and puts in those
whose keys are vacant, until the map holds `capacity` entries. Where both maps
fit together, the loop is the union that prefers the entries already present.
-/

namespace Foundations

universe u v

namespace BoundedUnion

variable {Key : Type u} {Value : Type v} [DecidableEq Key]

/-- `map.entry(key).or_insert(value)`, for the value of `key` in `other`. -/
def orInsert (other map : Finmap fun _ : Key => Value) (key : Key) : Finmap fun _ : Key => Value :=
  match map.lookup key, other.lookup key with
  | none, some value => map.insert key value
  | _, _ => map

/-- The loop over the keys of `other`, in the order in which they are visited. -/
def fill (capacity : ℕ) (other : Finmap fun _ : Key => Value) :
    List Key → (Finmap fun _ : Key => Value) → Finmap fun _ : Key => Value
  | [], map => map
  | key :: later, map =>
      if capacity ≤ map.keys.card then map else fill capacity other later (orInsert other map key)

variable {capacity : ℕ} {other map : Finmap fun _ : Key => Value} {keys : List Key}

theorem lookup_orInsert (key : Key) (visited : Key) :
    (orInsert other map visited).lookup key =
      (map.lookup key).or (if key = visited then other.lookup key else none) := by
  unfold orInsert
  by_cases same : key = visited
  · subst visited
    rw [if_pos rfl]
    rcases mine : map.lookup key with _ | value
    · rcases theirs : other.lookup key with _ | value
      · simp [mine]
      · simp
    · simp [mine]
  · rw [if_neg same, Option.or_none]
    split
    · exact Finmap.lookup_insert_of_ne _ same
    · rfl

theorem mem_orInsert {key visited : Key} :
    key ∈ orInsert other map visited ↔ key ∈ map ∨ key = visited ∧ key ∈ other := by
  rw [← Finmap.lookup_isSome, lookup_orInsert, Option.isSome_or, Bool.or_eq_true,
    Finmap.lookup_isSome]
  by_cases same : key = visited
  · simp [same, Finmap.lookup_isSome]
  · simp [same]

/-- What is in the map stays as it is. -/
theorem lookup_fill_of_mem {key : Key} (present : key ∈ map) :
    (fill capacity other keys map).lookup key = map.lookup key := by
  induction keys generalizing map with
  | nil => rfl
  | cons visited later ih =>
      unfold fill
      split
      · rfl
      · rcases Finmap.mem_iff.mp present with ⟨value, found⟩
        rw [ih (mem_orInsert.mpr (Or.inl present)), lookup_orInsert, found, Option.some_or]

theorem mem_fill_of_mem {key : Key} (present : key ∈ map) : key ∈ fill capacity other keys map := by
  rw [← Finmap.lookup_isSome, lookup_fill_of_mem present]
  exact Finmap.lookup_isSome.mpr present

theorem card_orInsert_le (visited : Key) :
    (orInsert other map visited).keys.card ≤ map.keys.card + 1 := by
  have subset : (orInsert other map visited).keys ⊆ insert visited map.keys := by
    intro key present
    rw [Finmap.mem_keys, mem_orInsert] at present
    rw [Finset.mem_insert, Finmap.mem_keys]
    tauto
  exact (Finset.card_le_card subset).trans (Finset.card_insert_le _ _)

/-- The loop does not go beyond the capacity. -/
theorem card_fill_le (fits : map.keys.card ≤ capacity) :
    (fill capacity other keys map).keys.card ≤ capacity := by
  induction keys generalizing map with
  | nil => exact fits
  | cons visited later ih =>
      unfold fill
      split
      · exact fits
      · next room =>
          have := @card_orInsert_le _ _ _ other map visited
          exact ih (by omega)

/-- Where the two maps fit together, the loop is a union. -/
theorem lookup_fill (fits : (map.keys ∪ other.keys).card ≤ capacity) (key : Key) :
    (fill capacity other keys map).lookup key =
      (map.lookup key).or (if key ∈ keys then other.lookup key else none) := by
  induction keys generalizing map with
  | nil => simp [fill]
  | cons visited later ih =>
      unfold fill
      split
      · next full =>
          -- the map already has every key of the other one
          have all : map.keys = map.keys ∪ other.keys :=
            Finset.eq_of_subset_of_card_le Finset.subset_union_left (fits.trans full)
          rcases mine : map.lookup key with _ | value
          · have absent : key ∉ other := by
              intro theirs
              have present : key ∈ map.keys := by
                rw [all, Finset.mem_union, Finmap.mem_keys, Finmap.mem_keys]
                exact Or.inr theirs
              exact Finmap.lookup_eq_none.mp mine (Finmap.mem_keys.mp present)
            simp [Finmap.lookup_eq_none.mpr absent]
          · simp
      · have sameUnion : (orInsert other map visited).keys ∪ other.keys =
            map.keys ∪ other.keys := by
          ext candidate
          simp only [Finset.mem_union, Finmap.mem_keys, mem_orInsert]
          tauto
        rw [ih (sameUnion ▸ fits), lookup_orInsert]
        by_cases same : key = visited
        · subst visited
          rcases map.lookup key with _ | value
          · rcases other.lookup key with _ | value <;> simp
          · simp
        · simp [same]

/-- What the loop puts in comes from the other map. -/
theorem lookup_fill_cases {key : Key} {value : Value}
    (found : (fill capacity other keys map).lookup key = some value) :
    map.lookup key = some value ∨ other.lookup key = some value := by
  induction keys generalizing map with
  | nil => exact Or.inl found
  | cons visited later ih =>
      unfold fill at found
      split at found
      · exact Or.inl found
      · rcases ih found with before | theirs
        · rw [lookup_orInsert, Option.or_eq_some_iff] at before
          rcases before with mine | ⟨_, added⟩
          · exact Or.inl mine
          · split at added
            · exact Or.inr added
            · cases added
        · exact Or.inr theirs

/-- A loop that ends with room to spare has visited every key. -/
theorem mem_fill_of_room {key : Key}
    (room : (fill capacity other keys map).keys.card < capacity) (keyMem : key ∈ keys)
    (present : key ∈ other) : key ∈ fill capacity other keys map := by
  induction keys generalizing map with
  | nil => simp at keyMem
  | cons visited later ih =>
      unfold fill at room ⊢
      split at room
      · omega
      · next vacancy =>
          rw [if_neg vacancy]
          rcases List.mem_cons.mp keyMem with rfl | laterMem
          · exact mem_fill_of_mem (mem_orInsert.mpr (Or.inr ⟨rfl, present⟩))
          · exact ih room laterMem

/-! ### Inserts that stop at the capacity -/

/-- An insert that a full map ignores. -/
def insertWithin (capacity : ℕ) (map : Finmap fun _ : Key => Value) (key : Key) (value : Value) :
    Finmap fun _ : Key => Value :=
  if capacity ≤ map.keys.card then map else map.insert key value

theorem card_insert_le (map : Finmap fun _ : Key => Value) (key : Key) (value : Value) :
    (map.insert key value).keys.card ≤ map.keys.card + 1 := by
  have subset : (map.insert key value).keys ⊆ insert key map.keys := by
    intro other present
    simpa [Finmap.mem_keys, Finmap.mem_insert] using present
  exact (Finset.card_le_card subset).trans (Finset.card_insert_le _ _)

theorem card_insertWithin_le (fits : map.keys.card ≤ capacity) (key : Key) (value : Value) :
    (insertWithin capacity map key value).keys.card ≤ capacity := by
  unfold insertWithin
  split
  · exact fits
  · have := card_insert_le map key value
    omega

/-- Every entry of `map` is one of `whole`. -/
def Within (map whole : Finmap fun _ : Key => Value) : Prop :=
  ∀ key value, map.lookup key = some value → whole.lookup key = some value

theorem Within.keys_subset {whole : Finmap fun _ : Key => Value} (within : Within map whole) :
    map.keys ⊆ whole.keys := by
  intro key keyMem
  rw [Finmap.mem_keys] at keyMem ⊢
  rcases Finmap.mem_iff.mp keyMem with ⟨value, found⟩
  exact Finmap.mem_of_lookup_eq_some (within key value found)

/-- An insert of an entry of `whole`, where `whole` fits: a full map has the entry already. -/
theorem lookup_insertWithin {whole : Finmap fun _ : Key => Value}
    (fits : whole.keys.card ≤ capacity) (within : Within map whole) {key : Key} {value : Value}
    (entry : whole.lookup key = some value) (asked : Key) :
    (insertWithin capacity map key value).lookup asked =
      if asked = key then whole.lookup asked else map.lookup asked := by
  unfold insertWithin
  split
  · next full =>
      split
      · next same =>
          subst asked
          have all : map.keys = whole.keys :=
            Finset.eq_of_subset_of_card_le within.keys_subset (fits.trans full)
          have present : key ∈ map := by
            rw [← Finmap.mem_keys, all, Finmap.mem_keys]
            exact Finmap.mem_of_lookup_eq_some entry
          rcases Finmap.mem_iff.mp present with ⟨held, found⟩
          rw [found, within key held found]
      · rfl
  · split
    · next same =>
        subst asked
        rw [Finmap.lookup_insert, entry]
    · next different => exact Finmap.lookup_insert_of_ne _ different

/-- Inserts of entries of `whole`, where `whole` fits, in any order and any number of times. -/
theorem lookup_foldl_insertWithin {whole : Finmap fun _ : Key => Value}
    (fits : whole.keys.card ≤ capacity) (within : Within map whole)
    {entries : List (Key × Value)}
    (entriesOf : ∀ entry ∈ entries, whole.lookup entry.1 = some entry.2) (asked : Key) :
    (entries.foldl (fun map entry => insertWithin capacity map entry.1 entry.2) map).lookup asked =
      if asked ∈ entries.map Prod.fst then whole.lookup asked else map.lookup asked := by
  induction entries generalizing map with
  | nil => simp
  | cons entry rest ih =>
      have step := lookup_insertWithin fits within (entriesOf entry List.mem_cons_self)
      have stays : Within (insertWithin capacity map entry.1 entry.2) whole := by
        intro key value found
        rw [step] at found
        split at found
        · exact found
        · exact within key value found
      rw [List.foldl_cons, ih stays fun other otherMem =>
        entriesOf other (List.mem_cons_of_mem _ otherMem), step]
      simp only [List.map_cons, List.mem_cons]
      by_cases same : asked = entry.1
      · simp [same]
      · simp only [same, if_false, false_or]

end BoundedUnion

end Foundations
