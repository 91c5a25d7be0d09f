import Mathlib.Data.Finmap

/-!
# Indexes over a table

A table maps ids to entries, and an index maps the key that an entry may carry
back to its id. An index stays sound when entries are inserted under fresh ids
and erased with their keys, also where two entries carry one key; it stays
complete as long as no entry is inserted whose key the index holds.
-/

namespace Foundations

universe u v w

variable {Key : Type u} {Id : Type v} {Entry : Type w} [DecidableEq Key]

/-- Every id that the index names has an entry with the key. -/
def IndexSound [DecidableEq Id] (keyOf : Entry → Option Key) (index : Finmap fun _ : Key => Id)
    (entries : Finmap fun _ : Id => Entry) : Prop :=
  ∀ key id, index.lookup key = some id →
    ∃ entry, entries.lookup id = some entry ∧ keyOf entry = some key

/-- The index names the id of every entry that carries a key. -/
def IndexComplete [DecidableEq Id] (keyOf : Entry → Option Key) (index : Finmap fun _ : Key => Id)
    (entries : Finmap fun _ : Id => Entry) : Prop :=
  ∀ key id entry, entries.lookup id = some entry → keyOf entry = some key →
    index.lookup key = some id

/-- The index with `id` under the key, if there is one. -/
def indexInsert (index : Finmap fun _ : Key => Id) (id : Id) : Option Key → Finmap fun _ : Key => Id
  | some key => index.insert key id
  | none => index

/-- The index without the key, if there is one. -/
def indexErase (index : Finmap fun _ : Key => Id) : Option Key → Finmap fun _ : Key => Id
  | some key => index.erase key
  | none => index

section

variable {index : Finmap fun _ : Key => Id} {id : Id} {key : Key} {carried : Option Key}

theorem lookup_indexInsert_self : (indexInsert index id (some key)).lookup key = some id :=
  Finmap.lookup_insert index

theorem lookup_indexInsert_of_ne (other : carried ≠ some key) :
    (indexInsert index id carried).lookup key = index.lookup key := by
  rcases carried with _ | inserted
  · rfl
  · exact Finmap.lookup_insert_of_ne index fun same => other (congrArg some same.symm)

theorem lookup_indexErase_self : (indexErase index (some key)).lookup key = none :=
  Finmap.lookup_erase key index

theorem lookup_indexErase_of_ne (other : carried ≠ some key) :
    (indexErase index carried).lookup key = index.lookup key := by
  rcases carried with _ | erased
  · rfl
  · exact Finmap.lookup_erase_ne fun same => other (congrArg some same.symm)

end

section

variable [DecidableEq Id] {keyOf : Entry → Option Key} {index : Finmap fun _ : Key => Id}
  {entries : Finmap fun _ : Id => Entry} {id : Id} {entry : Entry}

theorem IndexSound.empty : IndexSound keyOf ∅ entries :=
  fun _ _ named => by simp at named

theorem IndexComplete.empty : IndexComplete keyOf index ∅ :=
  fun _ _ _ found => by simp at found

/-- A fresh id leaves the entries of the others alone. -/
theorem IndexSound.insert (sound : IndexSound keyOf index entries)
    (fresh : entries.lookup id = none) :
    IndexSound keyOf (indexInsert index id (keyOf entry)) (entries.insert id entry) := by
  intro key named namedAt
  by_cases carries : keyOf entry = some key
  · rw [carries, lookup_indexInsert_self] at namedAt
    cases namedAt
    exact ⟨entry, Finmap.lookup_insert entries, carries⟩
  · rw [lookup_indexInsert_of_ne carries] at namedAt
    rcases sound key named namedAt with ⟨found, foundAt, foundKey⟩
    refine ⟨found, ?_, foundKey⟩
    rw [Finmap.lookup_insert_of_ne entries (by rintro rfl; simp [fresh] at foundAt)]
    exact foundAt

theorem IndexSound.erase (sound : IndexSound keyOf index entries)
    (present : entries.lookup id = some entry) :
    IndexSound keyOf (indexErase index (keyOf entry)) (entries.erase id) := by
  intro key named namedAt
  by_cases carries : keyOf entry = some key
  · rw [carries, lookup_indexErase_self] at namedAt
    cases namedAt
  · rw [lookup_indexErase_of_ne carries] at namedAt
    rcases sound key named namedAt with ⟨found, foundAt, foundKey⟩
    refine ⟨found, ?_, foundKey⟩
    rw [Finmap.lookup_erase_ne]
    · exact foundAt
    · rintro rfl
      exact carries (Option.some.inj (present.symm.trans foundAt) ▸ foundKey)

/-- An entry with a new key keeps the index complete. -/
theorem IndexComplete.insert (complete : IndexComplete keyOf index entries)
    (newKey : ∀ key, keyOf entry = some key → index.lookup key = none) :
    IndexComplete keyOf (indexInsert index id (keyOf entry)) (entries.insert id entry) := by
  intro key other found foundAt foundKey
  by_cases same : other = id
  · subst other
    rw [Finmap.lookup_insert] at foundAt
    cases foundAt
    rw [foundKey, lookup_indexInsert_self]
  · rw [Finmap.lookup_insert_of_ne entries same] at foundAt
    have named := complete key other found foundAt foundKey
    rw [lookup_indexInsert_of_ne fun carries => by simp [newKey key carries] at named]
    exact named

theorem IndexComplete.erase (complete : IndexComplete keyOf index entries)
    (present : entries.lookup id = some entry) :
    IndexComplete keyOf (indexErase index (keyOf entry)) (entries.erase id) := by
  intro key other found foundAt foundKey
  by_cases same : other = id
  · subst other
    rw [Finmap.lookup_erase] at foundAt
    cases foundAt
  · rw [Finmap.lookup_erase_ne same] at foundAt
    have named := complete key other found foundAt foundKey
    rw [lookup_indexErase_of_ne]
    · exact named
    · intro carries
      exact same (Option.some.inj (named.symm.trans (complete key id entry present carries)))

end

end Foundations
