import Mercury.Core.Hlc
import Mercury.Crdt.Mergeable

/-!
# The last-writer-wins register

`LwwRegister<T>` of `mercury-crdt`. A merge compares timestamps only, so it is
commutative among registers whose timestamps determine their values, and among
no others.
-/

namespace Mercury.Crdt

structure LwwRegister (T : Type) where
  value : T
  timestamp : Hlc
deriving DecidableEq

namespace LwwRegister

variable {T : Type}

/-- Update the value only if `timestamp` is strictly newer. -/
def set (register : LwwRegister T) (value : T) (timestamp : Hlc) : LwwRegister T :=
  if register.timestamp < timestamp then ⟨value, timestamp⟩ else register

def merge (self other : LwwRegister T) : LwwRegister T :=
  if self.timestamp < other.timestamp then ⟨other.value, other.timestamp⟩ else self

/-- Merging a register is setting its value at its timestamp. -/
theorem merge_eq_set (self other : LwwRegister T) :
    self.merge other = self.set other.value other.timestamp :=
  rfl

theorem merge_of_lt {self other : LwwRegister T} (newer : self.timestamp < other.timestamp) :
    self.merge other = other :=
  if_pos newer

theorem merge_of_le {self other : LwwRegister T} (older : other.timestamp ≤ self.timestamp) :
    self.merge other = self :=
  if_neg older.not_gt

theorem merge_assoc (a b c : LwwRegister T) : (a.merge b).merge c = a.merge (b.merge c) := by
  rcases le_or_gt b.timestamp a.timestamp with ab | ab <;>
    rcases le_or_gt c.timestamp b.timestamp with bc | bc
  · rw [merge_of_le ab, merge_of_le bc, merge_of_le ab, merge_of_le (bc.trans ab)]
  · rw [merge_of_le ab, merge_of_lt bc]
  · rw [merge_of_lt ab, merge_of_le bc, merge_of_lt ab]
  · rw [merge_of_lt ab, merge_of_lt bc, merge_of_lt (ab.trans bc)]

theorem merge_self (a : LwwRegister T) : a.merge a = a :=
  merge_of_le (le_refl _)

/-- Two registers commute exactly when they do not hold different values at one timestamp. -/
theorem merge_comm_iff (a b : LwwRegister T) :
    a.merge b = b.merge a ↔ (a.timestamp = b.timestamp → a.value = b.value) := by
  rcases lt_trichotomy a.timestamp b.timestamp with older | same | newer
  · rw [merge_of_lt older, merge_of_le older.le]
    simp [older.ne]
  · rw [merge_of_le same.ge, merge_of_le same.le]
    constructor
    · rintro rfl _
      rfl
    · intro sameValue
      rcases a with ⟨value, timestamp⟩
      rcases b with ⟨other, otherTimestamp⟩
      simp_all
  · rw [merge_of_le newer.le, merge_of_lt newer]
    simp [newer.ne']

/-- The laws hold among registers exactly when equal timestamps come with equal values. -/
theorem laws_iff_determined (registers : Set (LwwRegister T)) :
    MergeLaws merge registers ↔
      ∀ a ∈ registers, ∀ b ∈ registers, a.timestamp = b.timestamp → a.value = b.value := by
  constructor
  · intro laws a aMem b bMem
    exact (merge_comm_iff a b).mp (laws.commutative a aMem b bMem)
  · intro determined
    refine ⟨?_, ?_, ?_⟩
    · intro a aMem b bMem
      exact (merge_comm_iff a b).mpr (determined a aMem b bMem)
    · intro a _ b _ c _
      exact merge_assoc a b c
    · intro a _
      exact merge_self a

/-- Two registers that one node makes in the same millisecond do not commute. -/
theorem laws_fail_in_one_millisecond :
    ¬MergeLaws (merge : LwwRegister ℕ → LwwRegister ℕ → LwwRegister ℕ) Set.univ := by
  intro laws
  have commutes := laws.commutative ⟨1, Hlc.now (.replicate 1) 5⟩ trivial
    ⟨2, Hlc.now (.replicate 1) 5⟩ trivial
  have sameValue : 1 = 2 := (merge_comm_iff _ _).mp commutes rfl
  omega

end LwwRegister

end Mercury.Crdt
