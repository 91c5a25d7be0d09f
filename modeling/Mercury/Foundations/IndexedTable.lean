import Mathlib.Data.List.Sort
import Mathlib.Data.Prod.Lex
import Mercury.Foundations.KeyedTable

/-!
# Tables with an ordered index

A cursor over an index visits the rows of a range by their index keys, and rows of
one index key by their primary keys. It keeps its position where rows are deleted
under it. A loop that reads as it goes backwards lists the last rows in descending
order, and a loop that deletes as it goes forwards deletes the first ones.
-/

namespace Foundations

universe u v w

structure KeyRange (Key : Type w) where
  lower : Key
  upper : Key

def KeyRange.Covers {Key : Type w} [LE Key] (range : KeyRange Key) (key : Key) : Prop :=
  range.lower ≤ key ∧ key ≤ range.upper

namespace IndexedTable

variable {Row : Type u} {Key : Type v} {IndexKey : Type w} [LinearOrder Key]
  [LinearOrder IndexKey] {primary : Row → Key}

instance (range : KeyRange IndexKey) (key : IndexKey) : Decidable (range.Covers key) :=
  inferInstanceAs (Decidable (_ ∧ _))

variable (index : Row → IndexKey)

def position (primary : Row → Key) (row : Row) : IndexKey ×ₗ Key :=
  toLex (index row, primary row)

variable (table : KeyedTable primary) (range : KeyRange IndexKey)

/-- The rows of a range, in the order of the index. -/
def listing : List Row :=
  (table.rows.filter fun row => range.Covers (index row)).insertionSort fun left right =>
    position index primary left ≤ position index primary right

/-- The next row of a cursor that goes forwards, from the start or from a position. -/
def next (last : Option (IndexKey ×ₗ Key)) : Option Row :=
  (listing index table range).find? fun row => ∀ place ∈ last, place < position index primary row

/-- The next row of a cursor that goes backwards, from the end or from a position. -/
def previous (last : Option (IndexKey ×ₗ Key)) : Option Row :=
  (listing index table range).reverse.find? fun row =>
    ∀ place ∈ last, position index primary row < place

def delete (key : Key) : KeyedTable primary :=
  table.filter fun row => primary row ≠ key

/-- The loop of a cursor that goes backwards and collects up to `limit` rows. -/
def collect : ℕ → Option (IndexKey ×ₗ Key) → List Row
  | 0, _ => []
  | limit + 1, last =>
      match previous index table range last with
      | none => []
      | some row => row :: collect limit (some (position index primary row))

/-- The loop of a cursor that goes forwards and deletes up to `limit` rows: the table
afterwards and the count of deleted rows. -/
def purge : ℕ → KeyedTable primary → Option (IndexKey ×ₗ Key) → KeyedTable primary × ℕ
  | 0, table, _ => (table, 0)
  | limit + 1, table, last =>
      match next index table range last with
      | none => (table, 0)
      | some row =>
          let purged := purge limit (delete table (primary row))
            (some (position index primary row))
          (purged.1, purged.2 + 1)

variable {index table range}

theorem mem_listing {row : Row} :
    row ∈ listing index table range ↔ row ∈ table ∧ range.Covers (index row) := by
  rw [listing, (List.perm_insertionSort _ _).mem_iff, List.mem_filter, decide_eq_true_eq]
  rfl

omit [LinearOrder Key] [LinearOrder IndexKey] in
theorem position_injOn {left right : Row} (leftMem : left ∈ table) (rightMem : right ∈ table)
    (same : position index primary left = position index primary right) : left = right := by
  apply KeyedTable.eq_of_key_eq leftMem rightMem
  exact congrArg (fun place => (ofLex place).2) same

theorem nodup_listing : (listing index table range).Nodup := by
  rw [listing, (List.perm_insertionSort _ _).nodup_iff]
  exact (List.Nodup.of_map primary table.unique).filter _

/-- No two rows of an index are at one place. -/
theorem ascending_listing : (listing index table range).Pairwise fun left right =>
    position index primary left < position index primary right := by
  have sorted : (listing index table range).Pairwise fun left right =>
      position index primary left ≤ position index primary right :=
    List.pairwise_insertionSort _ _
  have distinct : (listing index table range).Pairwise fun left right => left ≠ right :=
    nodup_listing
  refine (sorted.and distinct).imp_of_mem ?_
  intro left right leftMem rightMem ordered
  apply lt_of_le_of_ne ordered.1
  intro same
  exact ordered.2 (position_injOn (mem_listing.mp leftMem).1 (mem_listing.mp rightMem).1 same)

/-- A list in the order of the index is determined by its rows. -/
theorem eq_listing {rows : List Row}
    (ascending : rows.Pairwise fun left right =>
      position index primary left < position index primary right)
    (same : ∀ row, row ∈ rows ↔ row ∈ table ∧ range.Covers (index row)) :
    rows = listing index table range := by
  have distinct : rows.Nodup := ascending.imp fun before same => by
    rw [same] at before
    exact lt_irrefl _ before
  have perm : List.Perm rows (listing index table range) := by
    apply (List.perm_ext_iff_of_nodup distinct nodup_listing).mpr
    intro row
    rw [same, mem_listing]
  apply perm.eq_of_pairwise _ ascending ascending_listing
  intro left right _ _ before after
  exact absurd (before.trans after) (lt_irrefl _)

theorem listing_filter (keep : Row → Bool) :
    listing index (table.filter keep) range = (listing index table range).filter keep := by
  symm
  apply eq_listing (ascending_listing.filter _)
  intro row
  rw [List.mem_filter, mem_listing, KeyedTable.mem_filter]
  tauto

/-! ### Reading backwards -/

/-- A cursor that has gone past `passed` stands before the rest. -/
theorem collect_eq {passed rest : List Row} {last : Option (IndexKey ×ₗ Key)}
    (split : (listing index table range).reverse = passed ++ rest)
    (behind : ∀ row ∈ passed, ∃ place ∈ last, place ≤ position index primary row)
    (ahead : ∀ row ∈ rest, ∀ place ∈ last, position index primary row < place) (limit : ℕ) :
    collect index table range limit last = rest.take limit := by
  induction limit generalizing passed rest last with
  | zero => simp [collect]
  | succ limit ih =>
      have skipped : passed.find? (fun row => ∀ place ∈ last,
          position index primary row < place) = none := by
        apply List.find?_eq_none.mpr
        intro row rowMem onward
        rcases behind row rowMem with ⟨place, placeMem, le⟩
        exact absurd (of_decide_eq_true onward place placeMem) (not_lt_of_ge le)
      have found : previous index table range last = rest.head? := by
        rw [previous, split, List.find?_append, skipped, Option.none_or]
        cases rest with
        | nil => rfl
        | cons row later =>
            exact List.find?_cons_of_pos (decide_eq_true (ahead row List.mem_cons_self))
      rw [collect, found]
      cases rest with
      | nil => rfl
      | cons row later =>
          have further : (listing index table range).reverse = (passed ++ [row]) ++ later := by
            rw [split, List.append_assoc, List.singleton_append]
          have descending : (passed ++ row :: later).Pairwise fun left right =>
              position index primary right < position index primary left := by
            rw [← split]
            exact List.pairwise_reverse.mpr ascending_listing
          rw [List.pairwise_append, List.pairwise_cons] at descending
          simp only [List.head?_cons, List.take_succ_cons, List.cons.injEq, true_and]
          apply ih further
          · intro other otherMem
            refine ⟨_, rfl, ?_⟩
            rcases List.mem_append.mp otherMem with earlier | now
            · exact (descending.2.2 other earlier row List.mem_cons_self).le
            · rw [List.mem_singleton.mp now]
          · intro other otherMem place placeMem
            cases placeMem
            exact descending.2.1.1 other otherMem

/-- Backwards from the end, a cursor collects the last rows. -/
theorem collect_none (limit : ℕ) :
    collect index table range limit none = (listing index table range).reverse.take limit :=
  @collect_eq _ _ _ _ _ _ _ table range [] _ none rfl (by simp) (by simp) limit

/-! ### Deleting forwards -/

omit [LinearOrder IndexKey] in
theorem mem_delete {row other : Row} (rowMem : row ∈ table) :
    other ∈ delete table (primary row) ↔ other ∈ table ∧ other ≠ row := by
  simp only [delete, KeyedTable.mem_filter, decide_eq_true_eq]
  apply and_congr_right
  intro otherMem
  exact not_congr ⟨KeyedTable.eq_of_key_eq otherMem rowMem, congrArg primary⟩

/-- A deletion of the first row of a range leaves the others in it. -/
theorem listing_delete {row : Row} {later : List Row}
    (split : listing index table range = row :: later) :
    listing index (delete table (primary row)) range = later := by
  have rowMem : row ∈ listing index table range := split ▸ List.mem_cons_self
  have distinct : (row :: later).Nodup := split ▸ nodup_listing
  have apart : ∀ other ∈ row :: later, primary other ≠ primary row ↔ other ≠ row := by
    intro other otherMem
    rw [← split] at otherMem
    exact not_congr ⟨KeyedTable.eq_of_key_eq (mem_listing.mp otherMem).1 (mem_listing.mp rowMem).1,
      congrArg primary⟩
  rw [delete, listing_filter, split, List.filter_cons_of_neg (by simp)]
  apply List.filter_eq_self.mpr
  intro other otherMem
  apply decide_eq_true
  apply (apart other (List.mem_cons_of_mem _ otherMem)).mpr
  rintro rfl
  exact (List.nodup_cons.mp distinct).1 otherMem

/-- A cursor that stands before the range deletes its first rows. -/
theorem purge_spec {last : Option (IndexKey ×ₗ Key)}
    (ahead : ∀ row ∈ listing index table range, ∀ place ∈ last, place < position index primary row)
    (limit : ℕ) :
    (∀ row, row ∈ (purge index range limit table last).1 ↔
        row ∈ table ∧ row ∉ (listing index table range).take limit) ∧
      (purge index range limit table last).2 = min limit (listing index table range).length := by
  induction limit generalizing table last with
  | zero => simp [purge]
  | succ limit ih =>
      have found : next index table range last = (listing index table range).head? := by
        rw [next]
        cases listed : listing index table range with
        | nil => rfl
        | cons row later =>
            exact List.find?_cons_of_pos
              (decide_eq_true (ahead row (listed ▸ List.mem_cons_self)))
      rw [purge, found]
      cases listed : listing index table range with
      | nil => simp
      | cons row later =>
          have ascending : (row :: later).Pairwise fun left right =>
              position index primary left < position index primary right :=
            listed ▸ ascending_listing
          have rest := listing_delete listed
          have rowMem : row ∈ table :=
            (mem_listing.mp (listed.symm ▸ List.mem_cons_self)).1
          have later_ahead : ∀ other ∈ listing index (delete table (primary row)) range,
              ∀ place ∈ some (position index primary row),
                place < position index primary other := by
            intro other otherMem place placeMem
            cases placeMem
            rw [rest] at otherMem
            exact (List.pairwise_cons.mp ascending).1 other otherMem
          rcases ih later_ahead with ⟨rows, count⟩
          rw [rest] at rows count
          simp only [List.head?_cons, List.take_succ_cons, List.mem_cons, not_or,
            List.length_cons]
          constructor
          · intro other
            rw [rows, mem_delete rowMem, and_assoc]
          · rw [count]
            omega

/-- Forwards from the start, a cursor deletes the first rows. -/
theorem purge_none (limit : ℕ) :
    (∀ row, row ∈ (purge index range limit table none).1 ↔
        row ∈ table ∧ row ∉ (listing index table range).take limit) ∧
      (purge index range limit table none).2 = min limit (listing index table range).length :=
  purge_spec (by simp) limit

end IndexedTable

end Foundations
