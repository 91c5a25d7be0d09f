import Mathlib.Algebra.Group.Nat.Defs
import Mathlib.Tactic.Common
import Mercury.Core.Bytes

/-!
# Base 16, base 64 and integers as bytes

The encodings that carry ids, payloads and counters between the SDK, the gateway
and the stores. Each decoder gives back what its encoder was given.
-/

namespace Mercury

/-- The bytes of an ASCII text. -/
def ascii (text : String) : Bytes :=
  text.toList.map fun char => Fin.ofNat 256 char.toNat

/-- The `width` bytes of an integer, the least significant first. -/
def littleEndian : ℕ → ℕ → Bytes
  | 0, _ => []
  | width + 1, value => Fin.ofNat 256 value :: littleEndian width (value / 256)

def fromLittleEndian : Bytes → ℕ
  | [] => 0
  | byte :: rest => byte.val + 256 * fromLittleEndian rest

@[simp]
theorem length_littleEndian (width value : ℕ) : (littleEndian width value).length = width := by
  induction width generalizing value with
  | zero => rfl
  | succ width ih => simp [littleEndian, ih]

/-- A value that does not fit loses its high bytes. -/
theorem fromLittleEndian_littleEndian_mod (width value : ℕ) :
    fromLittleEndian (littleEndian width value) = value % 256 ^ width := by
  induction width generalizing value with
  | zero => simp [littleEndian, fromLittleEndian, Nat.mod_one]
  | succ width ih =>
      simp only [littleEndian, fromLittleEndian, ih, Fin.ofNat]
      rw [pow_succ, Nat.mul_comm (256 ^ width), Nat.mod_mul]

/-- High bytes that do not fit are not written. -/
theorem littleEndian_mod (width value : ℕ) :
    littleEndian width (value % 256 ^ width) = littleEndian width value := by
  induction width generalizing value with
  | zero => rfl
  | succ width ih =>
      have lowest : value % (256 * 256 ^ width) % 256 = value % 256 :=
        Nat.mod_mul_right_mod value 256 _
      have byte : (Fin.ofNat 256 (value % (256 * 256 ^ width)) : Byte) = Fin.ofNat 256 value :=
        Fin.ext lowest
      rw [pow_succ, Nat.mul_comm, littleEndian, littleEndian, byte,
        Nat.mod_mul_right_div_self, ih]

/-- The integer whose bytes these are, the most significant first. -/
def fromBigEndian : Bytes → ℕ
  | [] => 0
  | byte :: rest => byte.val * 256 ^ rest.length + fromBigEndian rest

theorem fromBigEndian_lt (bytes : Bytes) : fromBigEndian bytes < 256 ^ bytes.length := by
  induction bytes with
  | nil => simp [fromBigEndian]
  | cons byte rest ih =>
      have below : (byte.val + 1) * 256 ^ rest.length ≤ 256 * 256 ^ rest.length :=
        Nat.mul_le_mul_right _ byte.isLt
      rw [Nat.add_mul, Nat.one_mul] at below
      rw [fromBigEndian, List.length_cons, pow_succ, Nat.mul_comm (256 ^ rest.length)]
      omega

/-- Byte strings of one length are ordered as the integers they are the bytes of. -/
theorem fromBigEndian_lt_of_lt {left right : Bytes} (lengths : left.length = right.length)
    (before : left < right) : fromBigEndian left < fromBigEndian right := by
  induction left generalizing right with
  | nil =>
      rcases right with _ | ⟨byte, rest⟩
      · exact absurd before (List.lt_irrefl _)
      · simp at lengths
  | cons byte rest ih =>
      rcases right with _ | ⟨other, otherRest⟩
      · simp at lengths
      · have restLengths : rest.length = otherRest.length := by simpa using lengths
        rw [fromBigEndian, fromBigEndian, restLengths]
        rcases List.cons_lt_cons_iff.mp before with smaller | ⟨rfl, later⟩
        · have bound := fromBigEndian_lt rest
          rw [restLengths] at bound
          have gap : (byte.val + 1) * 256 ^ otherRest.length ≤
              other.val * 256 ^ otherRest.length := Nat.mul_le_mul_right _ smaller
          rw [Nat.add_mul, Nat.one_mul] at gap
          omega
        · have := ih restLengths later
          omega

theorem fromBigEndian_le_of_le {left right : Bytes} (lengths : left.length = right.length)
    (le : left ≤ right) : fromBigEndian left ≤ fromBigEndian right := by
  rcases le.lt_or_eq with before | rfl
  · exact (fromBigEndian_lt_of_lt lengths before).le
  · exact le_rfl

theorem fromLittleEndian_littleEndian {width value : ℕ} (fits : value < 256 ^ width) :
    fromLittleEndian (littleEndian width value) = value := by
  rw [fromLittleEndian_littleEndian_mod, Nat.mod_eq_of_lt fits]

namespace Base

theorem highNibble_lt (byte : Byte) : byte.val / 16 < 16 := by
  omega

theorem lowNibble_lt (byte : Byte) : byte.val % 16 < 16 := by
  omega

/-- The upper case digits that `Base.encode16` writes. -/
def hexDigit (nibble : Fin 16) : Byte :=
  Fin.ofNat 256 (if nibble.val < 10 then 48 + nibble.val else 55 + nibble.val)

/-- The digits of both cases that `Base.decode16` reads with `case: :mixed`. -/
def hexValue (char : Byte) : Option (Fin 16) :=
  if 48 ≤ char.val ∧ char.val ≤ 57 then some (Fin.ofNat 16 (char.val - 48))
  else if 65 ≤ char.val ∧ char.val ≤ 70 then some (Fin.ofNat 16 (char.val - 55))
  else if 97 ≤ char.val ∧ char.val ≤ 102 then some (Fin.ofNat 16 (char.val - 87))
  else none

def encode16 : Bytes → Bytes
  | [] => []
  | byte :: rest =>
      hexDigit ⟨byte.val / 16, highNibble_lt byte⟩ ::
        hexDigit ⟨byte.val % 16, lowNibble_lt byte⟩ :: encode16 rest

/-- `Base.decode16` with `case: :mixed`. -/
def decode16 : Bytes → Option Bytes
  | [] => some []
  | [_] => none
  | high :: low :: rest =>
      match hexValue high, hexValue low, decode16 rest with
      | some high, some low, some bytes => some (⟨16 * high.val + low.val, by omega⟩ :: bytes)
      | _, _, _ => none

theorem hexValue_hexDigit (nibble : Fin 16) : hexValue (hexDigit nibble) = some nibble := by
  revert nibble
  decide

@[simp]
theorem decode16_encode16 (bytes : Bytes) : decode16 (encode16 bytes) = some bytes := by
  induction bytes with
  | nil => rfl
  | cons byte rest ih =>
      simp only [encode16, decode16, hexValue_hexDigit, ih, Option.some.injEq, List.cons.injEq,
        and_true]
      exact Fin.ext (Nat.div_add_mod byte.val 16)

theorem encode16_injective {left right : Bytes} (same : encode16 left = encode16 right) :
    left = right := by
  have decoded := congrArg decode16 same
  simpa using decoded

@[simp]
theorem length_encode16 (bytes : Bytes) : (encode16 bytes).length = 2 * bytes.length := by
  induction bytes with
  | nil => rfl
  | cons byte rest ih => simp [encode16, ih]; omega

/-- The digits of the standard alphabet. -/
def base64Digit (sextet : Fin 64) : Byte :=
  Fin.ofNat 256
    (if sextet.val < 26 then 65 + sextet.val
    else if sextet.val < 52 then 71 + sextet.val
    else if sextet.val < 62 then sextet.val - 4
    else if sextet.val = 62 then 43
    else 47)

def base64Value (char : Byte) : Option (Fin 64) :=
  if 65 ≤ char.val ∧ char.val ≤ 90 then some (Fin.ofNat 64 (char.val - 65))
  else if 97 ≤ char.val ∧ char.val ≤ 122 then some (Fin.ofNat 64 (char.val - 71))
  else if 48 ≤ char.val ∧ char.val ≤ 57 then some (Fin.ofNat 64 (char.val + 4))
  else if char.val = 43 then some 62
  else if char.val = 47 then some 63
  else none

/-- The padding character `=`. -/
def padding : Byte := 61

def encode64 : Bytes → Bytes
  | [] => []
  | [a] =>
      [base64Digit ⟨a.val / 4, by omega⟩, base64Digit ⟨a.val % 4 * 16, by omega⟩,
        padding, padding]
  | [a, b] =>
      [base64Digit ⟨a.val / 4, by omega⟩, base64Digit ⟨a.val % 4 * 16 + b.val / 16, by omega⟩,
        base64Digit ⟨b.val % 16 * 4, by omega⟩, padding]
  | a :: b :: c :: rest =>
      base64Digit ⟨a.val / 4, by omega⟩ :: base64Digit ⟨a.val % 4 * 16 + b.val / 16, by omega⟩ ::
        base64Digit ⟨b.val % 16 * 4 + c.val / 64, by omega⟩ ::
          base64Digit ⟨c.val % 64, by omega⟩ :: encode64 rest

/-- The bytes of four digits, of which the last one or two may be padding. -/
def decodeLast (w x y z : Byte) : Option Bytes :=
  match base64Value w, base64Value x with
  | some w, some x =>
      if y = padding ∧ z = padding then some [⟨w.val * 4 + x.val / 16, by omega⟩]
      else match base64Value y with
      | none => none
      | some y =>
          if z = padding then
            some [⟨w.val * 4 + x.val / 16, by omega⟩, ⟨x.val % 16 * 16 + y.val / 4, by omega⟩]
          else match base64Value z with
          | none => none
          | some z =>
              some [⟨w.val * 4 + x.val / 16, by omega⟩, ⟨x.val % 16 * 16 + y.val / 4, by omega⟩,
                ⟨y.val % 4 * 64 + z.val, by omega⟩]
  | _, _ => none

/-- `Base.decode64`: padding is required, and only at the end. -/
def decode64 : Bytes → Option Bytes
  | [] => some []
  | [w, x, y, z] => decodeLast w x y z
  | w :: x :: y :: z :: rest =>
      match base64Value y, base64Value z, decodeLast w x y z, decode64 rest with
      | some _, some _, some bytes, some later => some (bytes ++ later)
      | _, _, _, _ => none
  | _ => none

theorem base64Value_base64Digit (sextet : Fin 64) :
    base64Value (base64Digit sextet) = some sextet := by
  revert sextet
  decide

theorem base64Digit_ne_padding (sextet : Fin 64) : base64Digit sextet ≠ padding := by
  revert sextet
  decide

theorem decodeLast_digits (a b c : Byte) :
    decodeLast (base64Digit ⟨a.val / 4, by omega⟩)
      (base64Digit ⟨a.val % 4 * 16 + b.val / 16, by omega⟩)
      (base64Digit ⟨b.val % 16 * 4 + c.val / 64, by omega⟩)
      (base64Digit ⟨c.val % 64, by omega⟩) = some [a, b, c] := by
  simp only [decodeLast, base64Value_base64Digit, base64Digit_ne_padding, false_and, if_false,
    Option.some.injEq, List.cons.injEq, and_true]
  refine ⟨Fin.ext ?_, Fin.ext ?_, Fin.ext ?_⟩ <;> simp only <;> omega

@[simp]
theorem decode64_encode64 (bytes : Bytes) : decode64 (encode64 bytes) = some bytes := by
  induction bytes using encode64.induct with
  | case1 => rfl
  | case2 a =>
      simp only [encode64, decode64, decodeLast, base64Value_base64Digit, and_self, if_true,
        Option.some.injEq, List.cons.injEq, and_true]
      exact Fin.ext (by simp only; omega)
  | case3 a b =>
      simp only [encode64, decode64, decodeLast, base64Value_base64Digit, base64Digit_ne_padding,
        if_false, if_true, Option.some.injEq, List.cons.injEq, and_true]
      exact ⟨Fin.ext (by simp only; omega), Fin.ext (by simp only; omega)⟩
  | case4 a b c rest ih =>
      rcases lastEq : encode64 rest with _ | ⟨digit, digits⟩
      · have none : rest = [] := by
          rw [lastEq] at ih
          simpa [decode64] using ih.symm
        subst none
        simp only [encode64, decode64, decodeLast_digits]
      · rw [encode64, lastEq, decode64, base64Value_base64Digit, base64Value_base64Digit,
          decodeLast_digits, ← lastEq, ih]
        · rfl
        · simp

/-!
## Base 64 in web tokens

The segments of a web token are base 64 in the alphabet for URLs and without padding, and the
SDK reads them with `atob`, which knows the standard alphabet only. The two alphabets differ
in the last two digits, which texts without certain characters never make.
-/

/-- The digits of the alphabet for URLs. -/
def urlDigit (sextet : Fin 64) : Byte :=
  if sextet = 62 then 45 else if sextet = 63 then 95 else base64Digit sextet

/-- Base 64 for URLs, without padding. -/
def encodeUrl64 : Bytes → Bytes
  | [] => []
  | [a] => [urlDigit ⟨a.val / 4, by omega⟩, urlDigit ⟨a.val % 4 * 16, by omega⟩]
  | [a, b] =>
      [urlDigit ⟨a.val / 4, by omega⟩, urlDigit ⟨a.val % 4 * 16 + b.val / 16, by omega⟩,
        urlDigit ⟨b.val % 16 * 4, by omega⟩]
  | a :: b :: c :: rest =>
      urlDigit ⟨a.val / 4, by omega⟩ :: urlDigit ⟨a.val % 4 * 16 + b.val / 16, by omega⟩ ::
        urlDigit ⟨b.val % 16 * 4 + c.val / 64, by omega⟩ ::
          urlDigit ⟨c.val % 64, by omega⟩ :: encodeUrl64 rest

/-- Tab, line feed, form feed, carriage return and space. -/
def IsAsciiSpace (char : Byte) : Prop :=
  char.val ∈ [9, 10, 12, 13, 32]

instance : DecidablePred IsAsciiSpace :=
  fun _ => inferInstanceAs (Decidable (_ ∈ _))

/-- One or two padding characters at the end are taken away. -/
def dropPadding (text : Bytes) : Bytes :=
  if text.getLast? = some padding then
    if text.dropLast.getLast? = some padding then text.dropLast.dropLast else text.dropLast
  else text

/-- `atob`: white space is ignored, and padding is optional. -/
def atob (text : Bytes) : Option Bytes :=
  let dense := text.filter fun char => ¬IsAsciiSpace char
  let digits := if dense.length % 4 = 0 then dropPadding dense else dense
  if digits.length % 4 = 1 ∨ digits.contains padding then none
  else decode64 (digits ++ List.replicate ((4 - digits.length % 4) % 4) padding)

/-- The character makes no digit in which the alphabets differ. -/
def IsPlain (char : Byte) : Prop :=
  char.val < 126 ∧ char.val ≠ 62 ∧ char.val ≠ 63

instance : DecidablePred IsPlain :=
  fun _ => inferInstanceAs (Decidable (_ ∧ _))

theorem urlDigit_of_lt {sextet : Fin 64} (small : sextet.val < 62) :
    urlDigit sextet = base64Digit sextet := by
  have notMinus : sextet ≠ 62 := fun same => absurd (congrArg Fin.val same) (by simp; omega)
  have notLine : sextet ≠ 63 := fun same => absurd (congrArg Fin.val same) (by simp; omega)
  simp only [urlDigit, notMinus, notLine, if_false]

/-- The digits of a plain text are those of the standard alphabet. -/
theorem encodeUrl64_padded {text : Bytes} (plain : ∀ char ∈ text, IsPlain char) :
    encodeUrl64 text ++ List.replicate ((3 - text.length % 3) % 3) padding = encode64 text := by
  induction text using encode64.induct with
  | case1 => rfl
  | case2 a =>
      have small := plain a (by simp)
      have second : a.val % 4 * 16 < 62 := by omega
      have first : a.val / 4 < 62 := by
        have := small.1
        omega
      simp [encodeUrl64, encode64, urlDigit_of_lt, first, second, List.replicate]
  | case3 a b =>
      rcases plain a (by simp) with ⟨smallA, _⟩
      rcases plain b (by simp) with ⟨smallB, _⟩
      have first : a.val / 4 < 62 := by omega
      have second : a.val % 4 * 16 + b.val / 16 < 62 := by omega
      have third : b.val % 16 * 4 < 62 := by omega
      simp [encodeUrl64, encode64, urlDigit_of_lt, first, second, third]
  | case4 a b c rest ih =>
      rcases plain a (by simp) with ⟨smallA, _⟩
      rcases plain b (by simp) with ⟨smallB, _⟩
      rcases plain c (by simp) with ⟨smallC, notGreater, notQuestion⟩
      have first : a.val / 4 < 62 := by omega
      have second : a.val % 4 * 16 + b.val / 16 < 62 := by omega
      have third : b.val % 16 * 4 + c.val / 64 < 62 := by omega
      have fourth : c.val % 64 < 62 := by omega
      have later := ih fun char charMem => plain char (by simp [charMem])
      have lengths : (a :: b :: c :: rest).length % 3 = rest.length % 3 := by
        simp only [List.length_cons]
        omega
      rw [lengths, encodeUrl64, encode64, ← later]
      simp only [urlDigit_of_lt, first, second, third, fourth, List.cons_append]

theorem urlDigit_spec (sextet : Fin 64) :
    ¬IsAsciiSpace (urlDigit sextet) ∧ urlDigit sextet ≠ padding ∧ urlDigit sextet ≠ 46 := by
  revert sextet
  decide

/-- No digit is white space, padding or a dot. -/
theorem encodeUrl64_spec (bytes : Bytes) : ∀ char ∈ encodeUrl64 bytes,
    ¬IsAsciiSpace char ∧ char ≠ padding ∧ char ≠ 46 := by
  induction bytes using encode64.induct with
  | case1 => simp [encodeUrl64]
  | case2 a => simp [encodeUrl64, urlDigit_spec]
  | case3 a b => simp [encodeUrl64, urlDigit_spec]
  | case4 a b c rest ih =>
      intro char charMem
      simp only [encodeUrl64, List.mem_cons] at charMem
      rcases charMem with rfl | rfl | rfl | rfl | later
      · exact urlDigit_spec _
      · exact urlDigit_spec _
      · exact urlDigit_spec _
      · exact urlDigit_spec _
      · exact ih char later

theorem length_encodeUrl64 (bytes : Bytes) :
    (encodeUrl64 bytes).length % 4 ≠ 1 ∧
      (4 - (encodeUrl64 bytes).length % 4) % 4 = (3 - bytes.length % 3) % 3 := by
  induction bytes using encode64.induct with
  | case1 => simp [encodeUrl64]
  | case2 a => simp [encodeUrl64]
  | case3 a b => simp [encodeUrl64]
  | case4 a b c rest ih =>
      simp only [encodeUrl64, List.length_cons]
      omega

/-- The SDK reads a plain text back. -/
theorem atob_encodeUrl64 {text : Bytes} (plain : ∀ char ∈ text, IsPlain char) :
    atob (encodeUrl64 text) = some text := by
  have digits := encodeUrl64_spec text
  have dense : (encodeUrl64 text).filter (fun char => ¬IsAsciiSpace char) = encodeUrl64 text :=
    List.filter_eq_self.mpr fun char charMem => decide_eq_true (digits char charMem).1
  have unpadded : padding ∉ encodeUrl64 text := fun isDigit => (digits _ isDigit).2.1 rfl
  have kept : dropPadding (encodeUrl64 text) = encodeUrl64 text := by
    apply if_neg
    intro last
    exact unpadded (List.mem_of_getLast? last)
  rcases length_encodeUrl64 text with ⟨notOne, pads⟩
  simp only [atob, dense, kept, ite_self, notOne, List.contains_iff_mem, unpadded, or_self,
    if_false, pads, encodeUrl64_padded plain, decode64_encode64]

end Base

end Mercury
