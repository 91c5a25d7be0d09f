import Mathlib.Data.List.Nodup
import Mathlib.Data.List.Dedup

/-!
# Tables with a primary key

A table holds at most one row for each key, and an upsert replaces the row of
its key. The order of the rows carries no meaning.
-/

namespace Foundations

universe u v

variable {Row : Type u} {Key : Type v}

structure KeyedTable (key : Row → Key) where
  rows : List Row
  unique : (rows.map key).Nodup

namespace KeyedTable

variable {key : Row → Key}

def empty : KeyedTable key where
  rows := []
  unique := List.nodup_nil

instance : Membership Row (KeyedTable key) where
  mem table row := row ∈ table.rows

theorem mem_def {table : KeyedTable key} {row : Row} : row ∈ table ↔ row ∈ table.rows :=
  Iff.rfl

theorem eq_of_key_eq {table : KeyedTable key} {left right : Row} (leftMem : left ∈ table)
    (rightMem : right ∈ table) (same : key left = key right) : left = right :=
  List.inj_on_of_nodup_map table.unique leftMem rightMem same

def filter (table : KeyedTable key) (keep : Row → Bool) : KeyedTable key where
  rows := table.rows.filter keep
  unique := table.unique.sublist (List.filter_sublist.map key)

@[simp]
theorem mem_filter {table : KeyedTable key} {keep : Row → Bool} {row : Row} :
    row ∈ table.filter keep ↔ row ∈ table ∧ keep row :=
  List.mem_filter

theorem ext {left right : KeyedTable key} (same : left.rows = right.rows) : left = right := by
  cases left
  cases right
  cases same
  rfl

/-- The table with every row changed, and none of their keys. -/
def modify (table : KeyedTable key) (change : Row → Row)
    (keeps : ∀ row, key (change row) = key row) : KeyedTable key where
  rows := table.rows.map change
  unique := by
    rw [List.map_map, show key ∘ change = key from funext keeps]
    exact table.unique

section Filter

variable {table : KeyedTable key} {keep : Row → Bool}

theorem filter_filter_comm (first second : Row → Bool) :
    (table.filter first).filter second = (table.filter second).filter first := by
  apply ext
  simp only [filter, List.filter_filter, Bool.and_comm]

theorem filter_filter_self : (table.filter keep).filter keep = table.filter keep := by
  apply ext
  simp only [filter, List.filter_filter, Bool.and_self]

theorem filter_filter_filter {other : Row → Bool} :
    ((table.filter keep).filter other).filter keep = (table.filter other).filter keep := by
  rw [filter_filter_comm keep other, filter_filter_self]

/-- A filter that takes away nothing that is kept. -/
theorem filter_filter_of_imp {other : Row → Bool}
    (implies : ∀ row ∈ table, keep row = true → other row = true) :
    (table.filter other).filter keep = table.filter keep := by
  apply ext
  simp only [filter, List.filter_filter]
  apply List.filter_congr
  intro row rowMem
  rcases kept : keep row with _ | _
  · rfl
  · simp [implies row rowMem kept]

/-- A query all of whose rows are kept. -/
theorem rows_filter_filter {query : Row → Bool}
    (implies : ∀ row, query row = true → keep row = true) :
    (table.filter keep).rows.filter query = table.rows.filter query := by
  simp only [filter, List.filter_filter]
  apply List.filter_congr
  intro row _
  rcases wanted : query row with _ | _
  · rfl
  · simp [implies row wanted]

theorem rows_filter_find {query : Row → Bool}
    (implies : ∀ row, query row = true → keep row = true) :
    (table.filter keep).rows.find? query = table.rows.find? query := by
  rw [← List.head?_filter, ← List.head?_filter, rows_filter_filter implies]

theorem mem_keys_filter {wanted : Key}
    (alike : ∀ row ∈ table, key row = wanted → keep row = true) :
    wanted ∈ (table.filter keep).rows.map key ↔ wanted ∈ table.rows.map key := by
  simp only [filter, List.mem_map, List.mem_filter]
  constructor
  · rintro ⟨row, ⟨rowMem, _⟩, same⟩
    exact ⟨row, rowMem, same⟩
  · rintro ⟨row, rowMem, same⟩
    exact ⟨row, ⟨rowMem, alike row rowMem same⟩, same⟩

variable {change : Row → Row} {keeps : ∀ row, key (change row) = key row}

theorem filter_modify (stable : ∀ row, keep (change row) = keep row) :
    (table.modify change keeps).filter keep = (table.filter keep).modify change keeps := by
  apply ext
  simp only [filter, modify, List.filter_map]
  rw [show keep ∘ change = keep from funext stable]

/-- A change that leaves every kept row alone. -/
theorem modify_filter_of_not (unchanged : ∀ row, keep row = true → change row = row) :
    (table.filter keep).modify change keeps = table.filter keep := by
  apply ext
  simp only [filter, modify]
  refine (List.map_congr_left fun row rowMem => ?_).trans (List.map_id _)
  exact unchanged row (List.mem_filter.mp rowMem).2

end Filter

variable [DecidableEq Key]

/-- The table with `row` in the place of the row of its key, if there is one. -/
def upsert (table : KeyedTable key) (row : Row) : KeyedTable key where
  rows := table.rows.filter (fun other => key other ≠ key row) ++ [row]
  unique := by
    rw [List.map_append, List.nodup_append]
    refine ⟨table.unique.sublist (List.filter_sublist.map key), by simp, ?_⟩
    intro other otherMem same sameMem
    rcases List.mem_map.mp otherMem with ⟨kept, keptMem, rfl⟩
    rw [List.map_singleton, List.mem_singleton] at sameMem
    subst same
    simpa using (List.mem_filter.mp keptMem).2

@[simp]
theorem mem_upsert {table : KeyedTable key} {row other : Row} :
    other ∈ table.upsert row ↔ other ∈ table ∧ key other ≠ key row ∨ other = row := by
  simp only [mem_def, upsert, List.mem_append, List.mem_filter, decide_eq_true_eq,
    List.mem_singleton]

theorem mem_upsert_self (table : KeyedTable key) (row : Row) : row ∈ table.upsert row :=
  mem_upsert.mpr (Or.inr rfl)

/-- The table after the upserts of `rows`, in order. -/
def upsertAll (table : KeyedTable key) (rows : List Row) : KeyedTable key :=
  rows.foldl upsert table

/-- After a batch, a row is there if it was there and its key is none of the batch's, or if
it is the last one of its key in the batch. -/
theorem mem_upsertAll {table : KeyedTable key} {rows : List Row} {row : Row} :
    row ∈ table.upsertAll rows ↔
      (row ∈ table ∧ ∀ other ∈ rows, key other ≠ key row) ∨
        ∃ earlier later, rows = earlier ++ row :: later ∧ ∀ other ∈ later, key other ≠ key row := by
  induction rows generalizing table with
  | nil => simp [upsertAll]
  | cons first later ih =>
      have unfolded : table.upsertAll (first :: later) = (table.upsert first).upsertAll later := rfl
      rw [unfolded, ih, mem_upsert]
      constructor
      · rintro (⟨⟨held, different⟩ | rfl, none_⟩ | ⟨earlier, rest, rfl, none_⟩)
        · refine Or.inl ⟨held, fun other otherMem => ?_⟩
          rcases List.mem_cons.mp otherMem with rfl | otherMem
          · exact different.symm
          · exact none_ other otherMem
        · exact Or.inr ⟨[], later, rfl, none_⟩
        · exact Or.inr ⟨first :: earlier, rest, rfl, none_⟩
      · rintro (⟨held, none_⟩ | ⟨earlier, rest, split, none_⟩)
        · refine Or.inl ⟨Or.inl ⟨held, (none_ first List.mem_cons_self).symm⟩, ?_⟩
          intro other otherMem
          exact none_ other (List.mem_cons_of_mem _ otherMem)
        · rcases earlier with _ | ⟨_, earlier⟩
          · rcases List.cons_eq_cons.mp split with ⟨rfl, rfl⟩
            exact Or.inl ⟨Or.inr rfl, none_⟩
          · exact Or.inr ⟨earlier, rest, (List.cons_eq_cons.mp split).2, none_⟩

/-- A query for the key of an upserted row finds the row. -/
theorem find?_upsert {table : KeyedTable key} {row : Row} {query : Row → Bool}
    (own : query row = true) (byKey : ∀ other, query other = true → key other = key row) :
    (table.upsert row).rows.find? query = some row := by
  have others : (table.rows.filter fun other => key other ≠ key row).find? query = none := by
    rw [List.find?_eq_none]
    intro other otherMem asked
    have different := (List.mem_filter.mp otherMem).2
    simp [byKey other asked] at different
  rw [upsert, List.find?_append, others, Option.none_or, List.find?_singleton, if_pos own]

/-- The row of a key after an upsert. -/
theorem find?_key_upsert (table : KeyedTable key) (row : Row) (wanted : Key) :
    (table.upsert row).rows.find? (fun other => key other = wanted) =
      if wanted = key row then some row
      else table.rows.find? fun other => key other = wanted := by
  split
  · next same =>
      subst same
      exact find?_upsert (by simp) fun other asked => of_decide_eq_true asked
  · next different =>
      have kept : (table.rows.filter fun other => key other ≠ key row).find?
          (fun other => key other = wanted) = table.rows.find? fun other => key other = wanted := by
        rw [List.find?_filter]
        refine congrArg (table.rows.find? ·) (funext fun other => ?_)
        by_cases asked : key other = wanted
        · simp [asked, different]
        · simp [asked]
      have own : [row].find? (fun other => key other = wanted) = none := by
        simpa using fun same => different same.symm
      rw [upsert, List.find?_append, kept, own, Option.or_none]

theorem mem_keys_upsert {table : KeyedTable key} {row : Row} {wanted : Key} :
    wanted ∈ (table.upsert row).rows.map key ↔ wanted = key row ∨ wanted ∈ table.rows.map key := by
  simp only [List.mem_map]
  constructor
  · rintro ⟨other, otherMem, rfl⟩
    rcases mem_upsert.mp otherMem with ⟨held, -⟩ | rfl
    · exact Or.inr ⟨other, held, rfl⟩
    · exact Or.inl rfl
  · rintro (rfl | ⟨other, held, rfl⟩)
    · exact ⟨row, mem_upsert_self table row, rfl⟩
    · by_cases same : key other = key row
      · exact ⟨row, mem_upsert_self table row, same.symm⟩
      · exact ⟨other, mem_upsert.mpr (Or.inl ⟨held, same⟩), rfl⟩

/-- The table with `row`, unless there is a row of its key. -/
def insertNew (table : KeyedTable key) (row : Row) : KeyedTable key :=
  if key row ∈ table.rows.map key then table else table.upsert row

theorem mem_keys_insertNew (table : KeyedTable key) (row : Row) :
    key row ∈ (table.insertNew row).rows.map key := by
  unfold insertNew
  split
  · next known => exact known
  · exact List.mem_map_of_mem (mem_upsert_self table row)

/-! ### What a filter sees -/

section Filter

variable {table : KeyedTable key} {keep : Row → Bool}

theorem filter_upsert_filter {row : Row} :
    ((table.filter keep).upsert row).filter keep = (table.upsert row).filter keep := by
  apply ext
  simp only [filter, upsert, List.filter_append, List.filter_filter]
  congr 1
  apply List.filter_congr
  intro other _
  cases keep other <;> simp

/-- An upsert of a row that is not kept, and whose key no kept row has. -/
theorem filter_upsert_of_not {row : Row} (dropped : keep row = false)
    (unlike : ∀ other ∈ table, keep other = true → key other ≠ key row) :
    (table.upsert row).filter keep = table.filter keep := by
  apply ext
  simp only [filter, upsert, List.filter_append, List.filter_filter]
  rw [List.filter_cons_of_neg (by simp [dropped]), List.filter_nil, List.append_nil]
  apply List.filter_congr
  intro other otherMem
  rcases kept : keep other with _ | _
  · rfl
  · simp [unlike other otherMem kept]

section Owner

variable {Owner : Type*} [DecidableEq Owner] (owner : Row → Owner) {wanted : Owner} {row : Row}

/-- An upsert of a row of another owner, where the key tells the owner. -/
theorem filter_upsert_of_owner (byKey : ∀ other, key other = key row → owner other = owner row)
    (away : owner row ≠ wanted) :
    (table.upsert row).filter (fun other => owner other = wanted) =
      table.filter fun other => owner other = wanted := by
  refine filter_upsert_of_not (decide_eq_false away) fun other _ kept same => ?_
  exact away ((byKey other same).symm.trans (of_decide_eq_true kept))

theorem filter_insertNew_of_owner
    (byKey : ∀ other, key other = key row → owner other = owner row) (away : owner row ≠ wanted) :
    (table.insertNew row).filter (fun other => owner other = wanted) =
      table.filter fun other => owner other = wanted := by
  unfold insertNew
  split
  · rfl
  · exact filter_upsert_of_owner owner byKey away

end Owner

theorem filter_insertNew_filter {row : Row}
    (alike : ∀ other ∈ table, key other = key row → keep other = true) :
    ((table.filter keep).insertNew row).filter keep = (table.insertNew row).filter keep := by
  unfold insertNew
  by_cases present : key row ∈ table.rows.map key
  · rw [if_pos present, if_pos ((mem_keys_filter alike).mpr present), filter_filter_self]
  · rw [if_neg present, if_neg fun kept => present ((mem_keys_filter alike).mp kept),
      filter_upsert_filter]

end Filter

end KeyedTable

end Foundations
