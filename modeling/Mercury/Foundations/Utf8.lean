import Mathlib.Data.Fin.Basic

/-!
# UTF-8

Texts are lists of Unicode scalar values. The decoder never fails: what is no character
becomes U+FFFD, and the byte at which it shows is read again.
-/

namespace Foundations.Utf8

def byte (value : ℕ) : Fin 256 :=
  ⟨value % 256, Nat.mod_lt value (Nat.succ_pos 255)⟩

theorem val_byte {value : ℕ} (fits : value < 256) : (byte value).val = value :=
  Nat.mod_eq_of_lt fits

def encodeChar (char : Char) : List (Fin 256) :=
  let point := char.toNat
  if point < 0x80 then [byte point]
  else if point < 0x800 then [byte (0xC0 + point / 0x40), byte (0x80 + point % 0x40)]
  else if point < 0x10000 then
    [byte (0xE0 + point / 0x1000), byte (0x80 + point / 0x40 % 0x40), byte (0x80 + point % 0x40)]
  else
    [byte (0xF0 + point / 0x40000), byte (0x80 + point / 0x1000 % 0x40),
      byte (0x80 + point / 0x40 % 0x40), byte (0x80 + point % 0x40)]

def encode (text : List Char) : List (Fin 256) :=
  text.flatMap encodeChar

/-! ## Decoding -/

/-- Between two bytes: how many bytes the character still needs, what they have said so far,
and the bounds of the next one. -/
structure Decoder where
  needed : ℕ
  codePoint : ℕ
  lower : ℕ
  upper : ℕ

def replacement : Char :=
  '\uFFFD'

namespace Decoder

def start : Decoder :=
  ⟨0, 0, 0x80, 0xBF⟩

/-- The first byte of a character: what it yields, and the decoder after it. The bounds keep
out surrogates, points that are too great, and characters that are written too long. -/
def lead (first : Fin 256) : List Char × Decoder :=
  if first.val ≤ 0x7F then ([Char.ofNat first.val], start)
  else if 0xC2 ≤ first.val ∧ first.val ≤ 0xDF then ([], ⟨1, first.val - 0xC0, 0x80, 0xBF⟩)
  else if 0xE0 ≤ first.val ∧ first.val ≤ 0xEF then
    ([], ⟨2, first.val - 0xE0, if first.val = 0xE0 then 0xA0 else 0x80,
      if first.val = 0xED then 0x9F else 0xBF⟩)
  else if 0xF0 ≤ first.val ∧ first.val ≤ 0xF4 then
    ([], ⟨3, first.val - 0xF0, if first.val = 0xF0 then 0x90 else 0x80,
      if first.val = 0xF4 then 0x8F else 0xBF⟩)
  else ([replacement], start)

def push (decoder : Decoder) (next : Fin 256) : List Char × Decoder :=
  if decoder.needed = 0 then lead next
  else if decoder.lower ≤ next.val ∧ next.val ≤ decoder.upper then
    let point := decoder.codePoint * 0x40 + (next.val - 0x80)
    if decoder.needed = 1 then ([Char.ofNat point], start)
    else ([], ⟨decoder.needed - 1, point, 0x80, 0xBF⟩)
  else (replacement :: (lead next).1, (lead next).2)

def run (decoder : Decoder) : List (Fin 256) → List Char
  | [] => if decoder.needed = 0 then [] else [replacement]
  | next :: rest => (decoder.push next).1 ++ (decoder.push next).2.run rest

end Decoder

def decode (bytes : List (Fin 256)) : List Char :=
  Decoder.start.run bytes

/-! ## The round trip -/

/-- A byte within the bounds that is not the last one of its character. -/
theorem Decoder.run_more {needed point lower upper value : ℕ} {rest : List (Fin 256)}
    (above : lower ≤ 0x80 + value) (below : 0x80 + value ≤ upper) (tail : value < 0x40) :
    Decoder.run ⟨needed + 2, point, lower, upper⟩ (byte (0x80 + value) :: rest) =
      Decoder.run ⟨needed + 1, point * 0x40 + value, 0x80, 0xBF⟩ rest := by
  have read : (byte (0x80 + value)).val = 0x80 + value := val_byte (by omega)
  rw [Decoder.run, Decoder.push, if_neg (by simp), read, if_pos ⟨above, below⟩]
  simp

/-- The last byte of a character. -/
theorem Decoder.run_last {point lower upper value : ℕ} {rest : List (Fin 256)}
    (above : lower ≤ 0x80 + value) (below : 0x80 + value ≤ upper) (tail : value < 0x40) :
    Decoder.run ⟨1, point, lower, upper⟩ (byte (0x80 + value) :: rest) =
      Char.ofNat (point * 0x40 + value) :: Decoder.start.run rest := by
  have read : (byte (0x80 + value)).val = 0x80 + value := val_byte (by omega)
  rw [Decoder.run, Decoder.push, if_neg (by simp), read, if_pos ⟨above, below⟩]
  simp

theorem Decoder.run_lead (first : Fin 256) (rest : List (Fin 256)) :
    Decoder.start.run (first :: rest) = (Decoder.lead first).1 ++ (Decoder.lead first).2.run rest :=
  rfl

/-- The decoder reads one character back. -/
theorem run_encodeChar (char : Char) (rest : List (Fin 256)) :
    Decoder.start.run (encodeChar char ++ rest) = char :: Decoder.start.run rest := by
  have valid : char.toNat < 0xD800 ∨ 0xDFFF < char.toNat ∧ char.toNat < 0x110000 := char.valid
  have back : ∀ point, point = char.toNat → Char.ofNat point = char := by
    rintro point rfl
    exact Char.ofNat_toNat char
  unfold encodeChar
  dsimp only
  split
  · next one =>
    have read : (byte char.toNat).val = char.toNat := val_byte (by omega)
    rw [List.singleton_append, Decoder.run_lead, Decoder.lead, read, if_pos (by omega), back _ rfl]
    rfl
  split
  · next two =>
    have read : (byte (0xC0 + char.toNat / 0x40)).val = 0xC0 + char.toNat / 0x40 :=
      val_byte (by omega)
    rw [List.cons_append, Decoder.run_lead, Decoder.lead, read, if_neg (by omega),
      if_pos (by omega), List.nil_append, List.singleton_append,
      Decoder.run_last (by omega) (by omega) (by omega), back _ (by omega)]
  split
  · next three =>
    have read : (byte (0xE0 + char.toNat / 0x1000)).val = 0xE0 + char.toNat / 0x1000 :=
      val_byte (by omega)
    rw [List.cons_append, Decoder.run_lead, Decoder.lead, read, if_neg (by omega),
      if_neg (by omega), if_pos (by omega), List.nil_append, List.cons_append,
      List.singleton_append, Decoder.run_more (by split <;> omega) (by split <;> omega) (by omega),
      Decoder.run_last (by omega) (by omega) (by omega), back _ (by omega)]
  · have read : (byte (0xF0 + char.toNat / 0x40000)).val = 0xF0 + char.toNat / 0x40000 :=
      val_byte (by omega)
    rw [List.cons_append, Decoder.run_lead, Decoder.lead, read, if_neg (by omega),
      if_neg (by omega), if_neg (by omega), if_pos (by omega), List.nil_append, List.cons_append,
      List.cons_append, List.singleton_append,
      Decoder.run_more (by split <;> omega) (by split <;> omega) (by omega),
      Decoder.run_more (by omega) (by omega) (by omega),
      Decoder.run_last (by omega) (by omega) (by omega), back _ (by omega)]

/-- Every text is read back. -/
theorem decode_encode (text : List Char) : decode (encode text) = text := by
  induction text with
  | nil => rfl
  | cons char later ih =>
      have first := run_encodeChar char (encode later)
      rw [encode, List.flatMap_cons]
      exact first.trans (congrArg (char :: ·) ih)

end Foundations.Utf8
