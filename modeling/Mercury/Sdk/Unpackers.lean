import Mercury.Foundations.TextFormat
import Mercury.Sdk.Codecs

/-!
# The two unpackers

`unpack_envelopes` of the gateway reads the longest prefix of complete blobs, up to the
count. `unpackEnvelopes` of the SDK does so where the bytes end with a blob or the count is
reached; it throws on a length that is cut short, and returns a blob that is.
-/

namespace Mercury

/-- The bytes of the integer that they are read as. -/
theorem littleEndian_fromLittleEndian (bytes : Bytes) :
    littleEndian bytes.length (fromLittleEndian bytes) = bytes := by
  induction bytes with
  | nil => rfl
  | cons byte rest ih =>
      have low : (byte.val + 256 * fromLittleEndian rest) % 256 = byte.val := by
        rw [Nat.add_mul_mod_self_left, Nat.mod_eq_of_lt byte.isLt]
      have high : (byte.val + 256 * fromLittleEndian rest) / 256 = fromLittleEndian rest := by
        rw [Nat.add_mul_div_left _ _ (by decide), Nat.div_eq_of_lt byte.isLt, Nat.zero_add]
      rw [List.length_cons, littleEndian, fromLittleEndian, high, ih]
      exact congrArg (· :: rest) (Fin.ext low)

theorem fromLittleEndian_lt (bytes : Bytes) : fromLittleEndian bytes < 256 ^ bytes.length := by
  induction bytes with
  | nil => simp [fromLittleEndian]
  | cons byte rest ih =>
      have small := byte.isLt
      rw [fromLittleEndian, List.length_cons, pow_succ]
      omega

end Mercury

namespace Mercury.Sdk

open Foundations Gateway

/-! ## Blobs -/

def blob : Format Byte Bytes where
  write content := littleEndian 4 content.length ++ content
  read text :=
    let len := fromLittleEndian (text.take 4)
    if 4 ≤ text.length ∧ len ≤ (text.drop 4).length then
      some ((text.drop 4).take len, (text.drop 4).drop len)
    else none

def HasLength (content : Bytes) : Prop :=
  content.length < 2 ^ 32

theorem reads_blob : blob.Reads HasLength fun _ => True := by
  intro content rest hasLength _
  have header : (littleEndian 4 content.length ++ (content ++ rest)).take 4 =
      littleEndian 4 content.length := List.take_left' (by simp)
  have body : (littleEndian 4 content.length ++ (content ++ rest)).drop 4 = content ++ rest :=
    List.drop_left' (by simp)
  have len : fromLittleEndian (littleEndian 4 content.length) = content.length :=
    fromLittleEndian_littleEndian hasLength
  simp only [blob, List.append_assoc, header, body, len]
  rw [if_pos ⟨by simp, by simp⟩, List.take_left' rfl, List.drop_left' rfl]

theorem exact_blob : blob.Exact HasLength := by
  intro text content rest read
  rcases Option.ite_none_right_eq_some.mp read with ⟨⟨whole, fits⟩, found⟩
  rcases Prod.mk.inj (Option.some.inj found) with ⟨rfl, rfl⟩
  have headerLength : (text.take 4).length = 4 := by simp [whole]
  have bound := fromLittleEndian_lt (text.take 4)
  have header := littleEndian_fromLittleEndian (text.take 4)
  rw [headerLength] at bound header
  have contentLength : ((text.drop 4).take (fromLittleEndian (text.take 4))).length =
      fromLittleEndian (text.take 4) := by
    rw [List.length_take, Nat.min_eq_left fits]
  constructor
  · rw [HasLength, contentLength]
    exact bound
  · dsimp only [blob]
    rw [contentLength, header, List.append_assoc, List.take_append_drop, List.take_append_drop]

/-! ## The loops -/

/-- The gateway reads as many complete blobs as there are, up to the count. -/
theorem unpackEnvelopesLoop_eq (rest : Bytes) (count : ℕ) (acc : List Bytes) :
    unpackEnvelopesLoop rest count acc = acc.reverse ++ (blob.readUpTo count rest).1 := by
  induction count generalizing rest acc with
  | zero => simp [unpackEnvelopesLoop, Format.readUpTo]
  | succ count ih =>
      simp only [unpackEnvelopesLoop, Format.readUpTo, blob]
      split
      · rw [ih]
        simp [blob]
      · simp

/-- The SDK reads the same blobs where it stops behind one of them. -/
theorem unpackLoop_eq_iff (rest : Bytes) (count : ℕ) :
    unpackLoop rest count = some (blob.readUpTo count rest).1 ↔
      (blob.readUpTo count rest).1.length = count ∨ (blob.readUpTo count rest).2 = [] := by
  induction count generalizing rest with
  | zero => simp [unpackLoop, Format.readUpTo]
  | succ count ih =>
      by_cases none : rest = []
      · subst none
        simp [unpackLoop, Format.readUpTo, blob]
      by_cases short : rest.length < 4
      · have unread : blob.read rest = Option.none := if_neg fun whole => absurd short (by omega)
        simp [unpackLoop, none, short, Format.readUpTo, unread]
      by_cases fits : fromLittleEndian (rest.take 4) ≤ (rest.drop 4).length
      · have read : blob.read rest =
            some ((rest.drop 4).take (fromLittleEndian (rest.take 4)),
              (rest.drop 4).drop (fromLittleEndian (rest.take 4))) := if_pos ⟨by omega, fits⟩
        simp only [unpackLoop, none, short, Format.readUpTo, read, if_false, List.length_cons,
          Nat.add_right_cancel_iff, ← ih]
        simp
      · have unread : blob.read rest = Option.none := if_neg fun whole => fits whole.2
        simp [unpackLoop, none, short, Format.readUpTo, unread]

/-! ## Agreement -/

/-- The count that the bytes start with. -/
def declaredCount (data : Bytes) : ℕ :=
  fromLittleEndian (data.take 4)

/-- Both unpackers return the blobs, which are the longest prefix of complete ones up to the
count: none is shorter than its length says. -/
structure UnpackedAlike (data : Bytes) (blobs : List Bytes) : Prop where
  sdk : Sdk.unpackEnvelopes data = some blobs
  gateway : Gateway.unpackEnvelopes data = blobs
  complete : blob.StartsWith HasLength (declaredCount data) (data.drop 4) blobs
  longest : ∀ others, blob.StartsWith HasLength (declaredCount data) (data.drop 4) others →
    others <+: blobs

theorem gateway_unpackEnvelopes_eq (data : Bytes) :
    Gateway.unpackEnvelopes data = (blob.readUpTo (declaredCount data) (data.drop 4)).1 := by
  unfold Gateway.unpackEnvelopes
  split
  · rw [unpackEnvelopesLoop_eq]
    rfl
  · next short =>
      have none : data.drop 4 = [] := List.drop_eq_nil_of_le (by omega)
      rw [none]
      cases declaredCount data <;> rfl

theorem sdk_unpackEnvelopes_iff (data : Bytes) :
    Sdk.unpackEnvelopes data = some (Gateway.unpackEnvelopes data) ↔
      (blob.readUpTo (declaredCount data) (data.drop 4)).1.length = declaredCount data ∨
        (blob.readUpTo (declaredCount data) (data.drop 4)).2 = [] := by
  rw [← unpackLoop_eq_iff, gateway_unpackEnvelopes_eq]
  unfold Sdk.unpackEnvelopes
  split
  · next short =>
      have none : data.drop 4 = [] := List.drop_eq_nil_of_le (by omega)
      rw [none]
      cases declaredCount data <;> simp [unpackLoop, Format.readUpTo, blob]
  · rfl

/-- The unpackers agree on the data that hold all the blobs that they count, or fewer ones and
nothing else. -/
theorem unpackers_agree_iff (data : Bytes) :
    (∃ blobs, UnpackedAlike data blobs) ↔
      ∃ (blobs : List Bytes) (rest : Bytes), (∀ content ∈ blobs, content.length < 2 ^ 32) ∧
        data.drop 4 = blobs.flatMap blob.write ++ rest ∧
        (blobs.length = declaredCount data ∨
          blobs.length < declaredCount data ∧ rest = []) := by
  have ends := Format.readUpTo_ends_iff reads_blob exact_blob (declaredCount data) (data.drop 4)
  refine Iff.trans ?_ ends
  rw [← sdk_unpackEnvelopes_iff]
  constructor
  · rintro ⟨blobs, alike⟩
    rw [alike.sdk, alike.gateway]
  · intro agree
    have read := gateway_unpackEnvelopes_eq data
    refine ⟨Gateway.unpackEnvelopes data, agree, rfl, ?_, ?_⟩
    · rw [read]
      exact Format.startsWith_readUpTo exact_blob _ _
    · intro others starts
      rw [read]
      exact starts.isPrefix reads_blob

/-- A length that is cut short, and a blob that is. -/
theorem unpackers_disagree :
    (Sdk.unpackEnvelopes [1, 0, 0, 0, 9] = none ∧
        Gateway.unpackEnvelopes [1, 0, 0, 0, 9] = []) ∧
      Sdk.unpackEnvelopes [1, 0, 0, 0, 5, 0, 0, 0, 7, 8] = some [[7, 8]] ∧
        Gateway.unpackEnvelopes [1, 0, 0, 0, 5, 0, 0, 0, 7, 8] = [] := by
  decide

end Mercury.Sdk
