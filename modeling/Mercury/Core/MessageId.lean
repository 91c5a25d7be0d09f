import Mercury.Core.Base
import Mercury.Core.TimeBucket

/-!
# Message ids

`MessageId`, a ULID of which the source uses the order, the bytes and the timestamp,
and `TimeBucket::from_message_id`. The order of ids is that of their bytes, and it is
the order of their buckets.
-/

namespace Mercury

/-- The part of the `ulid` crate that `MessageId` uses, with the layout its documentation
gives. -/
structure UlidCrate where
  Ulid : Type
  order : LinearOrder Ulid
  fromBytes : Id16 → Ulid
  timestampMs : Ulid → ℕ
  /-- Ids are ordered as 128-bit integers, of which the bytes are big-endian. -/
  fromBytes_le_iff : ∀ left right,
    fromBytes left ≤ fromBytes right ↔ fromBigEndian left.val ≤ fromBigEndian right.val
  /-- The timestamp is the upper 48 bits. -/
  timestampMs_fromBytes : ∀ bytes,
    timestampMs (fromBytes bytes) = fromBigEndian bytes.val / 2 ^ 80

namespace MessageId

variable (crate : UlidCrate)

instance : LinearOrder crate.Ulid :=
  crate.order

/-- `TimeBucket::from_message_id`. -/
def bucket (id : crate.Ulid) : Option ℕ :=
  TimeBucket.fromTimestampMs (crate.timestampMs id)

theorem timestampMs_lt (bytes : Id16) : crate.timestampMs (crate.fromBytes bytes) < 2 ^ 48 := by
  have fits := fromBigEndian_lt bytes.val
  rw [bytes.property] at fits
  rw [crate.timestampMs_fromBytes]
  omega

theorem timestampMs_mono {left right : Id16} (le : left ≤ right) :
    crate.timestampMs (crate.fromBytes left) ≤ crate.timestampMs (crate.fromBytes right) := by
  rw [crate.timestampMs_fromBytes, crate.timestampMs_fromBytes]
  apply Nat.div_le_div_right
  exact fromBigEndian_le_of_le (left.property.trans right.property.symm) le

/-- No id has a timestamp so late that its bucket does not fit. -/
theorem bucket_fromBytes (bytes : Id16) :
    ∃ number, bucket crate (crate.fromBytes bytes) = some number ∧ number < 2 ^ 31 ∧
      number = TimeBucket.ofMs (crate.timestampMs (crate.fromBytes bytes)) := by
  have early := timestampMs_lt crate bytes
  have small : TimeBucket.ofMs (crate.timestampMs (crate.fromBytes bytes)) < 2 ^ 31 := by
    apply TimeBucket.ofMs_lt_iff.mpr
    exact early.trans (by decide)
  refine ⟨_, ?_, small, rfl⟩
  apply TimeBucket.fromTimestampMs_eq_some.mpr
  exact ⟨rfl, small.trans (by decide)⟩

/-- Ids of ordered bytes are ordered, and so are their buckets, which exist and are the same
number for queries. -/
theorem bucket_mono {left right : Id16} (le : left ≤ right) :
    crate.fromBytes left ≤ crate.fromBytes right ∧
      ∃ first second, bucket crate (crate.fromBytes left) = some first ∧
        bucket crate (crate.fromBytes right) = some second ∧
        TimeBucket.asU32 first ≤ TimeBucket.asU32 second ∧
        ∀ number ∈ [first, second], 0 ≤ TimeBucket.asI32 number ∧
          TimeBucket.asI32 number = TimeBucket.asU32 number := by
  have lengths := left.property.trans right.property.symm
  rcases bucket_fromBytes crate left with ⟨first, firstEq, firstFits, rfl⟩
  rcases bucket_fromBytes crate right with ⟨second, secondEq, secondFits, rfl⟩
  refine ⟨(crate.fromBytes_le_iff _ _).mpr (fromBigEndian_le_of_le lengths le), _, _, firstEq,
    secondEq, TimeBucket.ofMs_mono (timestampMs_mono crate le), ?_⟩
  have same : ∀ number, number < 2 ^ 31 → 0 ≤ TimeBucket.asI32 number ∧
      TimeBucket.asI32 number = TimeBucket.asU32 number := by
    intro number fits
    rw [TimeBucket.asI32_of_lt fits]
    exact ⟨Int.natCast_nonneg _, rfl⟩
  intro number numberMem
  rcases List.mem_pair.mp numberMem with rfl | rfl
  · exact same _ firstFits
  · exact same _ secondFits

/-- Ids as 128-bit integers. -/
def integers : UlidCrate where
  Ulid := ℕ
  order := inferInstance
  fromBytes bytes := fromBigEndian bytes.val
  timestampMs id := id / 2 ^ 80
  fromBytes_le_iff _ _ := Iff.rfl
  timestampMs_fromBytes _ := rfl

/-- The least and the greatest id. -/
theorem bucket_mono_integers :
    let least := Id16.replicate 0
    let greatest := Id16.replicate 255
    integers.fromBytes least ≤ integers.fromBytes greatest ∧
      ∃ first second, bucket integers (integers.fromBytes least) = some first ∧
        bucket integers (integers.fromBytes greatest) = some second ∧
        TimeBucket.asU32 first ≤ TimeBucket.asU32 second ∧
        ∀ number ∈ [first, second], 0 ≤ TimeBucket.asI32 number ∧
          TimeBucket.asI32 number = TimeBucket.asU32 number :=
  bucket_mono integers (by decide)

end MessageId

end Mercury
