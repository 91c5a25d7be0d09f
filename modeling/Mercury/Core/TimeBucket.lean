import Mercury.Core.Bytes

/-!
# Time buckets

`TimeBucket::from_timestamp_ms`: the ten-day partitions that the messages of a
channel are stored in. A bucket fits the `u32` it is kept in; the queries take it
as an `i32`, which it fits until half of that (`asI32_mono_iff`).
-/

namespace Mercury.TimeBucket

def msPerDay : ℕ := 86400000

def daysPerBucket : ℕ := 10

/-- The bucket of a timestamp, before it is narrowed to 32 bits. -/
def ofMs (timestamp : ℕ) : ℕ :=
  timestamp / msPerDay / daysPerBucket

/-- `TimeBucket::from_timestamp_ms`: a panic where the bucket does not fit a `u32`. -/
def fromTimestampMs (timestamp : ℕ) : Option ℕ :=
  if ofMs timestamp < 2 ^ 32 then some (ofMs timestamp) else none

/-- The NIF `compute_time_bucket`. -/
def compute (timestamp : ℕ) : Except Raise ℕ :=
  match fromTimestampMs timestamp with
  | some bucket => .ok bucket
  | none => .error .panicked

theorem compute_eq_ok {timestamp bucket : ℕ} :
    compute timestamp = .ok bucket ↔ bucket = ofMs timestamp ∧ ofMs timestamp < 2 ^ 32 := by
  unfold compute fromTimestampMs
  split <;> simp_all [eq_comm]

theorem ofMs_mono {earlier later : ℕ} (le : earlier ≤ later) : ofMs earlier ≤ ofMs later :=
  Nat.div_le_div_right (Nat.div_le_div_right le)

/-- The first timestamp whose bucket an `i32` does not hold. -/
def firstWrapped : ℕ := 2 ^ 31 * (msPerDay * daysPerBucket)

/-- `as_u32`. -/
def asU32 (bucket : ℕ) : ℕ := bucket

/-- `as_i32`: the cast of a `u32` wraps around. -/
def asI32 (bucket : ℕ) : ℤ :=
  if bucket < 2 ^ 31 then bucket else bucket - 4294967296

theorem fromTimestampMs_eq_some {timestamp bucket : ℕ} :
    fromTimestampMs timestamp = some bucket ↔ ofMs timestamp = bucket ∧ bucket < 2 ^ 32 := by
  unfold fromTimestampMs
  split
  · next fits =>
      rw [Option.some.injEq]
      constructor
      · rintro rfl
        exact ⟨rfl, fits⟩
      · exact And.left
  · next unfit =>
      simp only [reduceCtorEq, false_iff, not_and]
      rintro rfl
      exact unfit

theorem ofMs_lt_iff {timestamp : ℕ} : ofMs timestamp < 2 ^ 31 ↔ timestamp < firstWrapped := by
  unfold ofMs firstWrapped msPerDay daysPerBucket
  omega

theorem asI32_of_lt {bucket : ℕ} (fits : bucket < 2 ^ 31) : asI32 bucket = asU32 bucket :=
  if_pos fits

theorem asI32_nonneg_iff {bucket : ℕ} (fits : bucket < 2 ^ 32) :
    0 ≤ asI32 bucket ↔ bucket < 2 ^ 31 := by
  unfold asI32
  split <;> omega

/-- The values that queries take are in order and not negative exactly up to the first
timestamp whose bucket wraps. -/
theorem asI32_mono_iff {earlier later first second : ℕ} (ordered : earlier ≤ later)
    (firstEq : fromTimestampMs earlier = some first)
    (secondEq : fromTimestampMs later = some second) :
    (asI32 first ≤ asI32 second ∧ 0 ≤ asI32 first ∧ 0 ≤ asI32 second) ↔ later < firstWrapped := by
  rcases fromTimestampMs_eq_some.mp firstEq with ⟨rfl, _⟩
  rcases fromTimestampMs_eq_some.mp secondEq with ⟨rfl, secondFits⟩
  have le := ofMs_mono ordered
  rw [← ofMs_lt_iff]
  constructor
  · rintro ⟨_, _, secondNonneg⟩
    exact (asI32_nonneg_iff secondFits).mp secondNonneg
  · intro secondLt
    rw [asI32_of_lt secondLt, asI32_of_lt (le.trans_lt secondLt)]
    unfold asU32
    omega

/-- Two timestamps of different days. -/
theorem asI32_mono_days :
    (asI32 1972 ≤ asI32 1973 ∧ 0 ≤ asI32 1972 ∧ 0 ≤ asI32 1973) ↔ 1704672000000 < firstWrapped :=
  @asI32_mono_iff 1704067200000 1704672000000 1972 1973 (by decide) (by decide) (by decide)

/-- The first timestamp whose bucket wraps is accepted, and its value for queries is negative. -/
theorem asI32_wraps :
    ¬∀ earlier later first second, earlier ≤ later → fromTimestampMs earlier = some first →
      fromTimestampMs later = some second →
        asI32 first ≤ asI32 second ∧ 0 ≤ asI32 first ∧ 0 ≤ asI32 second := by
  intro keepsOrder
  have wrapped := keepsOrder 0 firstWrapped 0 (2 ^ 31) (by decide) (by decide) (by decide)
  exact absurd wrapped.2.2 (by decide)

end Mercury.TimeBucket
