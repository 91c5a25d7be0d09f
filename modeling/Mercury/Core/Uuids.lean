import Mathlib.Data.List.SplitLengths
import Mathlib.Data.Nat.Digits.Lemmas
import Mercury.Core.Base

/-!
# UUIDs as text

The format that the ids of sixteen bytes are printed with, and the texts that
`Ecto.UUID` reads. A field is as wide as its bytes are in hex digits, so a text is
the digits of the bytes, with the leading zeros of every field
(`formatInteger_fromBigEndian`).
-/

namespace Mercury

/-! ## Hex digits -/

def lowerDigit (digit : ℕ) : Byte :=
  Fin.ofNat 256 (if digit < 10 then 48 + digit else 87 + digit)

/-- The halves of the bytes, the high one first. -/
def nibbles : Bytes → List ℕ
  | [] => []
  | byte :: rest => byte.val / 16 :: byte.val % 16 :: nibbles rest

/-- The bytes in lower case. -/
def hexText (bytes : Bytes) : Bytes :=
  (nibbles bytes).map lowerDigit

def IsLowerDigit (char : Byte) : Prop :=
  48 ≤ char.val ∧ char.val ≤ 57 ∨ 97 ≤ char.val ∧ char.val ≤ 102

instance : DecidablePred IsLowerDigit :=
  fun _ => inferInstanceAs (Decidable (_ ∨ _))

theorem lt_of_mem_nibbles {bytes : Bytes} {digit : ℕ} (digitMem : digit ∈ nibbles bytes) :
    digit < 16 := by
  induction bytes with
  | nil => simp [nibbles] at digitMem
  | cons byte rest ih =>
      simp only [nibbles, List.mem_cons] at digitMem
      rcases digitMem with rfl | rfl | later
      · exact Base.highNibble_lt byte
      · exact Base.lowNibble_lt byte
      · exact ih later

@[simp]
theorem length_nibbles (bytes : Bytes) : (nibbles bytes).length = 2 * bytes.length := by
  induction bytes with
  | nil => rfl
  | cons byte rest ih => simp [nibbles, ih]; omega

@[simp]
theorem length_hexText (bytes : Bytes) : (hexText bytes).length = 2 * bytes.length := by
  simp [hexText]

theorem nibbles_append (left right : Bytes) :
    nibbles (left ++ right) = nibbles left ++ nibbles right := by
  induction left with
  | nil => rfl
  | cons byte rest ih => simp [nibbles, ih]

theorem nibbles_take (count : ℕ) (bytes : Bytes) :
    nibbles (bytes.take count) = (nibbles bytes).take (2 * count) := by
  induction count generalizing bytes with
  | zero => rfl
  | succ count ih => cases bytes <;> simp [nibbles, ih, Nat.mul_add]

theorem nibbles_drop (count : ℕ) (bytes : Bytes) :
    nibbles (bytes.drop count) = (nibbles bytes).drop (2 * count) := by
  induction count generalizing bytes with
  | zero => rfl
  | succ count ih => cases bytes <;> simp [nibbles, ih, Nat.mul_add]

theorem hexText_flatten (chunks : List Bytes) :
    (chunks.map hexText).flatten = hexText chunks.flatten := by
  induction chunks with
  | nil => rfl
  | cons chunk later ih => simp [ih, hexText, nibbles_append]

theorem lowerDigit_spec : ∀ digit < 16,
    Base.hexValue (lowerDigit digit) = some (Fin.ofNat 16 digit) ∧
      IsLowerDigit (lowerDigit digit) := by
  decide

theorem isLowerDigit_of_mem_hexText {bytes : Bytes} {char : Byte}
    (charMem : char ∈ hexText bytes) : IsLowerDigit char := by
  rcases List.mem_map.mp charMem with ⟨digit, digitMem, rfl⟩
  exact (lowerDigit_spec digit (lt_of_mem_nibbles digitMem)).2

@[simp]
theorem decode16_hexText (bytes : Bytes) : Base.decode16 (hexText bytes) = some bytes := by
  rw [hexText]
  induction bytes with
  | nil => rfl
  | cons byte rest ih =>
      have high := (lowerDigit_spec (byte.val / 16) (Base.highNibble_lt byte)).1
      have low := (lowerDigit_spec (byte.val % 16) (Base.lowNibble_lt byte)).1
      simp only [nibbles, List.map_cons, Base.decode16, high, low, ih, Option.some.injEq,
        List.cons.injEq, and_true]
      apply Fin.ext
      simp only [Fin.ofNat]
      omega

/-- The number that the digits are those of. -/
theorem ofDigits_nibbles (bytes : Bytes) :
    Nat.ofDigits 16 (nibbles bytes).reverse = fromBigEndian bytes := by
  induction bytes with
  | nil => rfl
  | cons byte rest ih =>
      have high : 256 ^ rest.length = 16 ^ (2 * rest.length) := by
        rw [Nat.pow_mul]
      have value : byte.val % 16 + 16 * (byte.val / 16) = byte.val := Nat.mod_add_div byte.val 16
      simp only [nibbles, List.reverse_cons, List.append_assoc, List.singleton_append,
        Nat.ofDigits_append, ih, List.length_reverse, length_nibbles, fromBigEndian, high]
      simp only [Nat.ofDigits_cons, Nat.ofDigits_nil, Nat.mul_zero, Nat.add_zero, value]
      rw [Nat.add_comm, Nat.mul_comm]

/-! ## Integers in fields -/

/-- `~W.16.0b` of `io_lib`: zeros in front, and stars where the digits are too many. -/
def formatInteger (width value : ℕ) : Bytes :=
  let digits := if value = 0 then [0] else (Nat.digits 16 value).reverse
  if digits.length ≤ width then
    List.replicate (width - digits.length) 48 ++ digits.map lowerDigit
  else List.replicate width 42

theorem formatInteger_of_lt {width value : ℕ} (positive : 0 < width)
    (fits : value < 16 ^ width) :
    formatInteger width value = (Nat.digitsAppend 16 width value).reverse.map lowerDigit := by
  have zero : lowerDigit 0 = 48 := by decide
  unfold formatInteger
  by_cases none : value = 0
  · obtain ⟨width, rfl⟩ := Nat.exists_eq_add_one_of_ne_zero (Nat.ne_of_gt positive)
    have zeros : List.replicate (width + 1) (48 : Byte) = List.replicate width 48 ++ [48] :=
      List.replicate_succ'
    simp [none, Nat.digitsAppend, zero, zeros]
  · have short := (Nat.digits_length_le_iff (by decide : 1 < 16) value).mpr fits
    simp only [if_neg none, List.length_reverse, if_pos short, Nat.digitsAppend,
      List.reverse_append, List.reverse_replicate, List.map_append, List.map_replicate, zero]

/-- In a field of twice as many digits, the bytes are written with all their zeros. -/
theorem formatInteger_fromBigEndian {bytes : Bytes} (nonempty : 0 < bytes.length) :
    formatInteger (2 * bytes.length) (fromBigEndian bytes) = hexText bytes := by
  have fits : fromBigEndian bytes < 16 ^ (2 * bytes.length) := by
    rw [Nat.pow_mul]
    exact fromBigEndian_lt bytes
  have digits : Nat.digitsAppend 16 (2 * bytes.length) (fromBigEndian bytes) =
      (nibbles bytes).reverse := by
    rw [← ofDigits_nibbles]
    apply (Nat.setInvOn_digitsAppend_ofDigits (by decide : 1 < 16) _).1
    refine ⟨by simp, ?_⟩
    intro digit digitMem
    exact lt_of_mem_nibbles (List.mem_reverse.mp digitMem)
  rw [formatInteger_of_lt (by omega) fits, digits, List.reverse_reverse, hexText]

/-! ## The fields of a UUID -/

/-- The sizes in `<<a::32, b::16, c::16, d::16, e::48>>`, in bytes. -/
def uuidSizes : List ℕ :=
  [4, 2, 2, 2, 6]

/-- The match of a binary against integers of these sizes. -/
def matchIntegers (sizes : List ℕ) (binary : Bytes) : Option (List ℕ) :=
  if binary.length = sizes.sum then some ((sizes.splitLengths binary).map fromBigEndian)
  else none

/-- `"~8.16.0b-~4.16.0b-~4.16.0b-~4.16.0b-~12.16.0b"`. -/
def formatUuid (a b c d e : ℕ) : Bytes :=
  [45].intercalate [formatInteger 8 a, formatInteger 4 b, formatInteger 4 c, formatInteger 4 d,
    formatInteger 12 e]

/-- The clause that prints a binary of sixteen bytes. -/
def printUuid (binary : Bytes) : Option Bytes :=
  match matchIntegers uuidSizes binary with
  | some [a, b, c, d, e] => some (formatUuid a b c d e)
  | _ => none

/-- The digits of the fields, with hyphens between them. -/
def uuidDigits (binary : Bytes) : List Bytes :=
  (uuidSizes.splitLengths binary).map hexText

theorem printUuid_eq {binary : Bytes} (sixteen : binary.length = 16) :
    printUuid binary = some ([45].intercalate (uuidDigits binary)) := by
  have sizes := List.map_splitLengths_length binary uuidSizes (by simp [uuidSizes, sixteen])
  have matched : matchIntegers uuidSizes binary =
      some ((uuidSizes.splitLengths binary).map fromBigEndian) := if_pos sixteen
  rw [printUuid, matched, uuidDigits]
  generalize uuidSizes.splitLengths binary = chunks at sizes
  rcases chunks with _ | ⟨a, _ | ⟨b, _ | ⟨c, _ | ⟨d, _ | ⟨e, _ | ⟨f, more⟩⟩⟩⟩⟩⟩ <;>
    simp only [uuidSizes, List.map_nil, List.map_cons, reduceCtorEq, List.cons.injEq, and_true,
      and_false] at sizes
  rcases sizes with ⟨first, second, third, fourth, fifth⟩
  have field : ∀ {bytes : Bytes} {size : ℕ}, bytes.length = size → 0 < size →
      formatInteger (2 * size) (fromBigEndian bytes) = hexText bytes := by
    rintro bytes _ rfl positive
    exact formatInteger_fromBigEndian positive
  simp only [List.map_cons, List.map_nil, formatUuid, field first (by decide),
    field second (by decide), field third (by decide), field fourth (by decide),
    field fifth (by decide)]

/-! ## Canonical texts -/

/-- The text has digits in groups of 8, 4, 4, 4 and 12, in lower case, and hyphens between
the groups. -/
structure IsCanonical (text : Bytes) : Prop where
  groups : (text.splitOn 45).map List.length = [8, 4, 4, 4, 12]
  digits : ∀ group ∈ text.splitOn 45, ∀ char ∈ group, IsLowerDigit char

/-- The text without its hyphens. -/
def textDigits (text : Bytes) : Bytes :=
  (text.splitOn 45).flatten

theorem IsCanonical.length {text : Bytes} (canonical : IsCanonical text) : text.length = 36 := by
  have groups := canonical.groups
  have joined : [45].intercalate (text.splitOn 45) = text := List.intercalate_splitOn 45
  rw [← joined]
  generalize text.splitOn 45 = parts at groups
  rcases parts with _ | ⟨a, _ | ⟨b, _ | ⟨c, _ | ⟨d, _ | ⟨e, _ | ⟨f, more⟩⟩⟩⟩⟩⟩ <;>
    simp only [List.map_nil, List.map_cons, reduceCtorEq, List.cons.injEq, and_true,
      and_false] at groups
  rcases groups with ⟨first, second, third, fourth, fifth⟩
  simp [List.intercalate, first, second, third, fourth, fifth]

theorem splitOn_printed {binary : Bytes} :
    ([45].intercalate (uuidDigits binary)).splitOn 45 = uuidDigits binary := by
  apply List.splitOn_intercalate
  · intro group groupMem hyphenMem
    rcases List.mem_map.mp groupMem with ⟨chunk, -, rfl⟩
    exact absurd (isLowerDigit_of_mem_hexText hyphenMem) (by decide)
  · exact List.cons_ne_nil _ _

/-- A printed binary is a canonical text, whose digits are those of the binary. -/
theorem printUuid_canonical {binary text : Bytes} (sixteen : binary.length = 16)
    (printed : printUuid binary = some text) :
    IsCanonical text ∧ textDigits text = hexText binary := by
  rw [printUuid_eq sixteen, Option.some.injEq] at printed
  subst printed
  have sizes := List.map_splitLengths_length binary uuidSizes (by simp [uuidSizes, sixteen])
  refine ⟨⟨?_, ?_⟩, ?_⟩
  · have doubled : (uuidDigits binary).map List.length =
        ((uuidSizes.splitLengths binary).map List.length).map (2 * ·) := by
      simp [uuidDigits, Function.comp_def]
    rw [splitOn_printed, doubled, sizes]
    rfl
  · rw [splitOn_printed]
    intro group groupMem char charMem
    rcases List.mem_map.mp groupMem with ⟨chunk, -, rfl⟩
    exact isLowerDigit_of_mem_hexText charMem
  · have whole := List.flatten_splitLengths binary uuidSizes (by simp [uuidSizes, sixteen])
    rw [textDigits, splitOn_printed, uuidDigits, hexText_flatten, whole]

/-! ## `Ecto.UUID` -/

/-- What the repository uses of `Ecto.UUID`; `none` is `:error`. -/
structure EctoUuid where
  dump : Bytes → Option Bytes
  load : Bytes → Option Bytes

/-- Canonical texts are parsed, and binaries are loaded as such texts. -/
structure EctoUuid.Lawful (ecto : EctoUuid) : Prop where
  dumps : ∀ text, IsCanonical text → ecto.dump text = Base.decode16 (textDigits text)
  loads : ∀ raw, raw.length = 16 → ∃ text, ecto.load raw = some text ∧ IsCanonical text ∧
    Base.decode16 (textDigits text) = some raw

/-- An `Ecto.UUID` that reads digits of both cases. -/
def plainEcto : EctoUuid where
  dump text :=
    if (text.splitOn 45).map List.length = [8, 4, 4, 4, 12] then Base.decode16 (textDigits text)
    else none
  load := printUuid

theorem lawful_plainEcto : plainEcto.Lawful where
  dumps text canonical := if_pos canonical.groups
  loads raw sixteen := by
    have printed := printUuid_eq sixteen
    rcases printUuid_canonical sixteen printed with ⟨canonical, digits⟩
    refine ⟨_, printed, canonical, ?_⟩
    rw [digits, decode16_hexText]

theorem EctoUuid.Lawful.dump_printed {ecto : EctoUuid} (lawful : ecto.Lawful)
    {binary text : Bytes} (sixteen : binary.length = 16)
    (printed : printUuid binary = some text) : ecto.dump text = some binary := by
  rcases printUuid_canonical sixteen printed with ⟨canonical, digits⟩
  rw [lawful.dumps text canonical, digits, decode16_hexText]

end Mercury
