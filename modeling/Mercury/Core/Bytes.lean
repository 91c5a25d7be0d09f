import Mathlib.Data.List.Lex
import Mathlib.Data.Fin.Basic
import Mathlib.Order.Fin.Basic
import Mathlib.Algebra.GroupWithZero.Nat

/-!
# Byte strings and machine integers

Binaries of the gateway, byte arrays of the SDK and blobs of the stores are
lists of bytes; their order is the byte order the stores sort by.
-/

namespace Mercury

abbrev Byte := Fin 256

/-- The numerals of `Byte`. -/
instance neZero256 : @NeZero ℕ Zero.ofOfNat0 256 :=
  ⟨by decide⟩

abbrev Bytes := List Byte

instance : LawfulBEq Bytes :=
  inferInstanceAs (LawfulBEq (List Byte))

/-- A `[u8; 16]`: tenant, user, device, channel and node ids. -/
abbrev Id16 := { bytes : Bytes // bytes.length = 16 }

/-- `parse_uuid_16`. -/
def Id16.ofBytes (bytes : Bytes) : Option Id16 :=
  if sixteen : bytes.length = 16 then some ⟨bytes, sixteen⟩ else none

theorem Id16.ofBytes_eq_some {bytes : Bytes} {id : Id16} :
    Id16.ofBytes bytes = some id ↔ bytes = id.val := by
  rcases id with ⟨value, sixteen⟩
  unfold Id16.ofBytes
  split
  · simp
  · next length =>
      refine ⟨fun none => by simp at none, ?_⟩
      rintro rfl
      exact absurd sixteen length

@[simp]
theorem Id16.ofBytes_val (id : Id16) : Id16.ofBytes id.val = some id :=
  Id16.ofBytes_eq_some.mpr rfl

/-- The id whose sixteen bytes are all `byte`. -/
def Id16.replicate (byte : Byte) : Id16 :=
  ⟨List.replicate 16 byte, by simp⟩

/-- Why an Elixir process raises. -/
inductive Raise where
  /-- An `ErlangError` of a NIF, with its message. -/
  | nif (message : Bytes)
  /-- A value that no clause of a match, a `case` or a function accepts. -/
  | noMatch
  /-- An `ArgumentError`, of a binary built from something else than a binary. -/
  | argument
  /-- A `KeyError`. -/
  | key
  /-- A `CastError` of Ecto, of a value that is not of the type of its column. -/
  | cast
deriving DecidableEq, Repr, Inhabited

/-- A Rust panic inside a NIF. -/
def Raise.panicked : Raise := .nif []

/-- Whether the Rust crates are built with integer overflow checks. -/
inductive Build where
  | checked
  | wrapping
deriving DecidableEq, Repr

namespace Build

/-- `value + 1` at a width of `2 ^ bits`: a panic or a wrap where it overflows. -/
def increment (build : Build) (bits value : ℕ) : Option ℕ :=
  if value + 1 < 2 ^ bits then some (value + 1)
  else match build with
    | .checked => none
    | .wrapping => some ((value + 1) % 2 ^ bits)

theorem increment_of_lt {build : Build} {bits value : ℕ} (fits : value + 1 < 2 ^ bits) :
    build.increment bits value = some (value + 1) := by
  simp [increment, fits]

end Build

end Mercury
