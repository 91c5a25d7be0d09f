import Mercury.Sdk.Codecs

/-!
# Hex strings

`hexToBytes` on every JavaScript string, with `parseInt` as ECMAScript has it: it skips white
space, takes a sign and a `0x`, and stops at the first unit that is no digit. The gateway
refuses a channel id that is no hex text; the SDK takes every string for one.
-/

namespace Mercury.Sdk

/-- A unit of a JavaScript string. -/
abbrev CodeUnit := Fin 65536

abbrev JsString := List CodeUnit

namespace JsString

/-- A string of ASCII characters. -/
def ofAscii (text : Bytes) : JsString :=
  text.map (Fin.castLE (by decide))

/-! ## `parseInt` -/

/-- White space and line terminators. -/
def IsSpace (unit : CodeUnit) : Prop :=
  9 ≤ unit.val ∧ unit.val ≤ 13 ∨ 0x2000 ≤ unit.val ∧ unit.val ≤ 0x200a ∨
    unit.val ∈ [0x20, 0xa0, 0x1680, 0x2028, 0x2029, 0x202f, 0x205f, 0x3000, 0xfeff]

instance : DecidablePred IsSpace :=
  fun _ => inferInstanceAs (Decidable (_ ∨ _ ∨ _))

local instance neZero16 : @NeZero ℕ Zero.ofOfNat0 16 :=
  ⟨by decide⟩

def digitValue (unit : CodeUnit) : Option (Fin 16) :=
  if 48 ≤ unit.val ∧ unit.val ≤ 57 then some (Fin.ofNat 16 (unit.val - 48))
  else if 65 ≤ unit.val ∧ unit.val ≤ 70 then some (Fin.ofNat 16 (unit.val - 55))
  else if 97 ≤ unit.val ∧ unit.val ≤ 102 then some (Fin.ofNat 16 (unit.val - 87))
  else none

/-- The string without a sign at its front, and whether that was a minus. -/
def takeSign : JsString → Bool × JsString
  | [] => (false, [])
  | unit :: rest =>
      if unit.val = 45 then (true, rest)
      else if unit.val = 43 then (false, rest)
      else (false, unit :: rest)

/-- The string without a `0x` at its front. -/
def dropHexMark : JsString → JsString
  | zero :: mark :: rest =>
      if zero.val = 48 ∧ (mark.val = 120 ∨ mark.val = 88) then rest else zero :: mark :: rest
  | text => text

/-- The digits up to the first unit that is none. -/
def leadingDigits : JsString → List (Fin 16)
  | [] => []
  | unit :: rest =>
      match digitValue unit with
      | some digit => digit :: leadingDigits rest
      | none => []

/-- `parseInt(text, 16)`; `none` is `NaN`. -/
def parseInt16 (text : JsString) : Option ℤ :=
  let (negative, unsigned) := takeSign (text.dropWhile IsSpace)
  let digits := leadingDigits (dropHexMark unsigned)
  let value : ℕ := digits.foldl (fun value digit => 16 * value + digit.val) 0
  if digits = [] then none else some (if negative then -value else value)

/-- The byte that an element of a `Uint8Array` makes of a number. -/
def toUint8 : Option ℤ → Byte
  | none => 0
  | some number => Fin.ofNat 256 (number % 256).toNat

/-! ## `hexToBytes` -/

/-- The loop of `hexToBytes`, from index `i` of the array on; a store past its end does
nothing. -/
def storeLoop (bytes : Bytes) (i : ℕ) : JsString → Bytes
  | [] => bytes
  | [last] => bytes.set i (toUint8 (parseInt16 [last]))
  | high :: low :: rest => storeLoop (bytes.set i (toUint8 (parseInt16 [high, low]))) (i + 1) rest

/-- `hexToBytes` of `codec.ts`. The length of the array is rounded down, and nothing throws. -/
def hexToBytes (hex : JsString) : Option Bytes :=
  some (storeLoop (Buffer.alloc (hex.length / 2)) 0 hex)

/-- `bytesToHex` of `codec.ts`, as a string. -/
def ofBytes (bytes : Bytes) : JsString :=
  ofAscii (bytesToHex bytes)

/-- `toLowerCase` of an ASCII character. -/
def lowerUnit (unit : CodeUnit) : CodeUnit :=
  if 65 ≤ unit.val ∧ unit.val ≤ 90 then Fin.ofNat 65536 (unit.val + 32) else unit

def lowerCase (text : JsString) : JsString :=
  text.map lowerUnit

/-- The bytes of the pairs, without a last unit that has no partner. -/
def pairBytes : JsString → Bytes
  | high :: low :: rest => toUint8 (parseInt16 [high, low]) :: pairBytes rest
  | _ => []

theorem storeLoop_eq (hex : JsString) (front : Bytes) :
    storeLoop (front ++ Buffer.alloc (hex.length / 2)) front.length hex =
      front ++ pairBytes hex := by
  match hex with
  | [] => rfl
  | [last] =>
      have unstored : front.set front.length (toUint8 (parseInt16 [last])) = front :=
        List.set_eq_of_length_le le_rfl
      simpa [storeLoop, pairBytes, Buffer.alloc] using unstored
  | high :: low :: rest =>
      let byte := toUint8 (parseInt16 [high, low])
      have room : (high :: low :: rest).length / 2 = rest.length / 2 + 1 := by
        simp only [List.length_cons]
        omega
      have stored : (front ++ Buffer.alloc (rest.length / 2 + 1)).set front.length byte =
          front ++ [byte] ++ Buffer.alloc (rest.length / 2) := by
        simp [Buffer.alloc, List.replicate_succ]
      have later := storeLoop_eq rest (front ++ [byte])
      rw [List.length_append, List.length_singleton] at later
      rw [storeLoop, room, stored, later, pairBytes, List.append_assoc, List.singleton_append]

theorem hexToBytes_eq (hex : JsString) : hexToBytes hex = some (pairBytes hex) :=
  congrArg some (storeLoop_eq hex [])

/-! ## Hex digits -/

/-- The string has an even length and only hex digits. -/
structure IsHex (hex : JsString) : Prop where
  even : hex.length % 2 = 0
  digits : ∀ unit ∈ hex, ∃ digit, digitValue unit = some digit

theorem IsHex.of_cons {high low : CodeUnit} {rest : JsString}
    (isHex : IsHex (high :: low :: rest)) : IsHex rest where
  even := by
    have even := isHex.even
    simp only [List.length_cons] at even
    omega
  digits unit unitMem := isHex.digits unit (.tail _ (.tail _ unitMem))

theorem digitValue_eq_some {unit : CodeUnit} {digit : Fin 16}
    (isDigit : digitValue unit = some digit) :
    48 ≤ unit.val ∧ unit.val ≤ 57 ∧ digit.val + 48 = unit.val ∨
      65 ≤ unit.val ∧ unit.val ≤ 70 ∧ digit.val + 55 = unit.val ∨
      97 ≤ unit.val ∧ unit.val ≤ 102 ∧ digit.val + 87 = unit.val := by
  unfold digitValue at isDigit
  split_ifs at isDigit with decimal upper lower <;>
    · cases isDigit
      simp only [Fin.ofNat]
      omega

theorem not_isSpace_of_digit {unit : CodeUnit} {digit : Fin 16}
    (isDigit : digitValue unit = some digit) : ¬IsSpace unit := by
  have ranges := digitValue_eq_some isDigit
  simp only [IsSpace, List.mem_cons, List.not_mem_nil, or_false]
  omega

theorem parseInt16_digits {high low : CodeUnit} {first second : Fin 16}
    (isFirst : digitValue high = some first) (isSecond : digitValue low = some second) :
    parseInt16 [high, low] = some ((16 * first.val + second.val : ℕ) : ℤ) := by
  have firstRanges := digitValue_eq_some isFirst
  have secondRanges := digitValue_eq_some isSecond
  have trimmed : [high, low].dropWhile IsSpace = [high, low] := by
    simp [not_isSpace_of_digit isFirst]
  have signless : takeSign [high, low] = (false, [high, low]) := by
    rw [takeSign, if_neg (by omega), if_neg (by omega)]
  have unmarked : dropHexMark [high, low] = [high, low] := by
    rw [dropHexMark, if_neg (by omega)]
  simp [parseInt16, trimmed, signless, unmarked, leadingDigits, isFirst, isSecond]

theorem toUint8_natCast {value : ℕ} (small : value < 256) :
    toUint8 (some (value : ℤ)) = Fin.ofNat 256 value := by
  have kept : ((value : ℤ) % 256).toNat = value := by omega
  rw [toUint8, kept]

theorem val_lowerUnit (unit : CodeUnit) :
    (lowerUnit unit).val =
      if 65 ≤ unit.val ∧ unit.val ≤ 90 then unit.val + 32 else unit.val := by
  unfold lowerUnit
  split_ifs with capital
  · exact Nat.mod_eq_of_lt (by omega)
  · rfl

/-- The digit that a byte is written with is the digit that was read, in lower case. -/
theorem lowerUnit_digit {unit : CodeUnit} {digit : Fin 16}
    (isDigit : digitValue unit = some digit) :
    lowerUnit unit = Fin.castLE (by decide) (lowerHexDigit digit) := by
  have ranges := digitValue_eq_some isDigit
  apply Fin.ext
  rw [val_lowerUnit]
  simp only [lowerHexDigit, Fin.val_castLE, Fin.ofNat]
  split_ifs <;> omega

/-- A hex string is what its bytes are written as, in lower case. -/
theorem ofBytes_pairBytes {hex : JsString} (isHex : IsHex hex) :
    ofBytes (pairBytes hex) = lowerCase hex := by
  match hex with
  | [] => rfl
  | [last] => exact absurd isHex.even (by simp)
  | high :: low :: rest =>
      rcases isHex.digits high (.head _) with ⟨first, isFirst⟩
      rcases isHex.digits low (.tail _ (.head _)) with ⟨second, isSecond⟩
      have later := ofBytes_pairBytes isHex.of_cons
      have small : 16 * first.val + second.val < 256 := by omega
      have value : (Fin.ofNat 256 (16 * first.val + second.val)).val =
          16 * first.val + second.val := Nat.mod_eq_of_lt small
      have highNibble : (16 * first.val + second.val) / 16 = first.val := by omega
      have lowNibble : (16 * first.val + second.val) % 16 = second.val := by omega
      rw [ofBytes, ofAscii] at later
      rw [pairBytes, parseInt16_digits isFirst isSecond, toUint8_natCast small]
      simp only [ofBytes, ofAscii, bytesToHex, value, highNibble, lowNibble, Fin.eta, List.map_cons,
        later]
      simp only [lowerCase, List.map_cons, lowerUnit_digit isFirst, lowerUnit_digit isSecond]

theorem digitValue_castLE (char : Byte) :
    digitValue (Fin.castLE (by decide) char) = Base.hexValue char :=
  rfl

theorem isHex_ofBytes (bytes : Bytes) : IsHex (ofBytes bytes) := by
  induction bytes with
  | nil => exact ⟨rfl, by simp [ofBytes, ofAscii, bytesToHex]⟩
  | cons byte rest ih =>
      refine ⟨?_, ?_⟩
      · have even := ih.even
        simp only [ofBytes, ofAscii, bytesToHex, List.map_cons, List.length_cons] at even ⊢
        omega
      · intro unit unitMem
        simp only [ofBytes, ofAscii, bytesToHex, List.map_cons, List.mem_cons] at unitMem
        rcases unitMem with rfl | rfl | later
        · exact ⟨_, hexValue_lowerHexDigit _⟩
        · exact ⟨_, hexValue_lowerHexDigit _⟩
        · exact ih.digits unit later

theorem pairBytes_ofBytes (bytes : Bytes) : pairBytes (ofBytes bytes) = bytes := by
  induction bytes with
  | nil => rfl
  | cons byte rest ih =>
      have value : 16 * (byte.val / 16) + byte.val % 16 = byte.val := Nat.div_add_mod byte.val 16
      have isFirst := hexValue_lowerHexDigit ⟨byte.val / 16, Base.highNibble_lt byte⟩
      have isSecond := hexValue_lowerHexDigit ⟨byte.val % 16, Base.lowNibble_lt byte⟩
      rw [← digitValue_castLE] at isFirst isSecond
      have read := parseInt16_digits isFirst isSecond
      rw [value] at read
      rw [ofBytes, ofAscii] at ih
      simp only [ofBytes, ofAscii, bytesToHex, List.map_cons, pairBytes, read, ih,
        toUint8_natCast byte.isLt]
      rw [Fin.ofNat_val_eq_self]

theorem digit_of_lowerUnit {unit : CodeUnit} {digit : Fin 16}
    (isDigit : digitValue (lowerUnit unit) = some digit) :
    ∃ same, digitValue unit = some same := by
  have ranges := digitValue_eq_some isDigit
  rw [val_lowerUnit] at ranges
  unfold digitValue
  split_ifs with decimal upper lower
  · exact ⟨_, rfl⟩
  · exact ⟨_, rfl⟩
  · exact ⟨_, rfl⟩
  · exfalso
    split_ifs at ranges <;> omega

theorem isHex_of_lowerCase {hex : JsString} (isHex : IsHex (lowerCase hex)) : IsHex hex where
  even := by
    have even := isHex.even
    rwa [lowerCase, List.length_map] at even
  digits unit unitMem := by
    rcases isHex.digits (lowerUnit unit) (List.mem_map_of_mem unitMem) with ⟨digit, isDigit⟩
    exact digit_of_lowerUnit isDigit

/-- The bytes stand for the string only where it is a hex string. -/
theorem ofBytes_pairBytes_iff (hex : JsString) :
    ofBytes (pairBytes hex) = lowerCase hex ↔ IsHex hex := by
  constructor
  · intro same
    apply isHex_of_lowerCase
    rw [← same]
    exact isHex_ofBytes _
  · exact ofBytes_pairBytes

/-! ## ASCII texts -/

theorem toUint8_neg (digit : Fin 16) :
    toUint8 (some (-(digit.val : ℤ))) = Fin.ofNat 256 (256 - digit.val) := by
  revert digit
  decide

theorem takeSign_digit {unit : CodeUnit} {digit : Fin 16}
    (isDigit : digitValue unit = some digit) (rest : JsString) :
    takeSign (unit :: rest) = (false, unit :: rest) := by
  have ranges := digitValue_eq_some isDigit
  rw [takeSign, if_neg (by omega), if_neg (by omega)]

section Pairs

variable {high low : Byte}

abbrev unitOf (char : Byte) : CodeUnit :=
  Fin.castLE (by decide) char

theorem pair_of_first {first : Fin 16} (isFirst : digitValue (unitOf high) = some first) :
    toUint8 (parseInt16 [unitOf high, unitOf low]) = parseHexPair high low := by
  rw [parseHexPair, ← digitValue_castLE high, ← digitValue_castLE low, isFirst]
  rcases isSecond : digitValue (unitOf low) with _ | second
  · have trimmed : [unitOf high, unitOf low].dropWhile IsSpace = [unitOf high, unitOf low] := by
      simp [not_isSpace_of_digit isFirst]
    have signed := takeSign_digit isFirst [unitOf low]
    have ranges := digitValue_eq_some isFirst
    by_cases marked : (unitOf high).val = 48 ∧ ((unitOf low).val = 120 ∨ (unitOf low).val = 88)
    · -- a `0x` with nothing behind it
      have zero : first.val = 0 := by omega
      simp only [parseInt16, trimmed, signed, dropHexMark, if_pos marked, leadingDigits, zero]
      rfl
    · have single : parseInt16 [unitOf high, unitOf low] = some (first.val : ℤ) := by
        simp only [parseInt16, trimmed, signed, dropHexMark, if_neg marked, leadingDigits, isFirst,
          isSecond]
        simp
      rw [single, toUint8_natCast (by omega)]
  · rw [parseInt16_digits isFirst isSecond, toUint8_natCast (by omega)]

theorem isSpace_iff (plain : high.val < 128) :
    IsSpace (unitOf high) ↔ high = 32 ∨ 9 ≤ high ∧ high ≤ 13 := by
  simp only [IsSpace, Fin.val_castLE, List.mem_cons, List.not_mem_nil, or_false, Fin.ext_iff,
    Fin.le_def]
  omega

/-- One unit, behind a sign or white space. -/
theorem parseInt16_single {text : JsString} {negative : Bool}
    (signed : takeSign (text.dropWhile IsSpace) = (negative, [unitOf low])) :
    parseInt16 text = (digitValue (unitOf low)).map fun digit =>
      if negative then -(digit.val : ℤ) else digit.val := by
  rw [parseInt16, signed]
  rcases value : digitValue (unitOf low) <;> simp [dropHexMark, leadingDigits, value]

/-- No digit behind the sign and the white space. -/
theorem parseInt16_none {text rest : JsString} {negative : Bool}
    (signed : takeSign (text.dropWhile IsSpace) = (negative, rest))
    (digitless : leadingDigits (dropHexMark rest) = []) : parseInt16 text = none := by
  simp [parseInt16, signed, digitless]

theorem leadingDigits_none {unit : CodeUnit} (noDigit : digitValue unit = none)
    (rest : JsString) : leadingDigits (unit :: rest) = [] := by
  rw [leadingDigits, noDigit]

/-- A pair whose first unit is white space. -/
theorem pair_of_space (plain : high.val < 128) (noFirst : digitValue (unitOf high) = none)
    (space : IsSpace (unitOf high)) :
    toUint8 (parseInt16 [unitOf high, unitOf low]) = parseHexPair high low := by
  have spaces := (isSpace_iff plain).mp space
  have unsigned : high ≠ 45 := by
    rintro rfl
    exact absurd spaces (by decide)
  rw [parseHexPair, ← digitValue_castLE high, ← digitValue_castLE low, noFirst]
  rcases isSecond : digitValue (unitOf low) with _ | second
  · have digitless : parseInt16 [unitOf high, unitOf low] = none := by
      by_cases alsoSpace : IsSpace (unitOf low)
      · have trimmed : [unitOf high, unitOf low].dropWhile IsSpace = [] := by
          simp [space, alsoSpace]
        exact parseInt16_none (congrArg takeSign trimmed) rfl
      · have trimmed : [unitOf high, unitOf low].dropWhile IsSpace = [unitOf low] := by
          simp [space, alsoSpace]
        apply parseInt16_none (congrArg takeSign trimmed)
        dsimp only
        split_ifs
        · rfl
        · rfl
        · exact leadingDigits_none isSecond []
    rw [digitless]
    rfl
  · have signed : takeSign ([unitOf high, unitOf low].dropWhile IsSpace) =
        (false, [unitOf low]) := by
      rw [← takeSign_digit isSecond []]
      simp [space, not_isSpace_of_digit isSecond]
    rw [parseInt16_single signed, isSecond]
    simp only [if_neg unsigned]
    rw [if_pos (.inr spaces)]
    exact toUint8_natCast (by omega)

/-- A pair whose first unit is a sign, or nothing that a number starts with. -/
theorem pair_of_sign (plain : high.val < 128) (noFirst : digitValue (unitOf high) = none)
    (spaceless : ¬IsSpace (unitOf high)) :
    toUint8 (parseInt16 [unitOf high, unitOf low]) = parseHexPair high low := by
  have noSpaces := fun spaces => spaceless ((isSpace_iff plain).mpr spaces)
  have trimmed : [unitOf high, unitOf low].dropWhile IsSpace = [unitOf high, unitOf low] := by
    simp [spaceless]
  rw [parseHexPair, ← digitValue_castLE high, ← digitValue_castLE low, noFirst]
  by_cases minus : high = 45
  · subst minus
    have signed : takeSign ([unitOf 45, unitOf low].dropWhile IsSpace) = (true, [unitOf low]) :=
      congrArg takeSign trimmed
    rw [parseInt16_single signed]
    rcases digitValue (unitOf low) with _ | second
    · rfl
    · exact toUint8_neg second
  by_cases plus : high = 43
  · subst plus
    have signed : takeSign ([unitOf 43, unitOf low].dropWhile IsSpace) = (false, [unitOf low]) :=
      congrArg takeSign trimmed
    rw [parseInt16_single signed]
    rcases digitValue (unitOf low) with _ | second
    · rfl
    · exact toUint8_natCast (by omega)
  · have noSign : (unitOf high).val ≠ 45 ∧ (unitOf high).val ≠ 43 :=
      ⟨fun same => minus (Fin.ext same), fun same => plus (Fin.ext same)⟩
    have signed : takeSign ([unitOf high, unitOf low].dropWhile IsSpace) =
        (false, [unitOf high, unitOf low]) := by
      rw [trimmed, takeSign, if_neg noSign.1, if_neg noSign.2]
    have unmarked : (unitOf high).val ≠ 48 := by
      intro isZero
      rw [digitValue, if_pos (by omega)] at noFirst
      cases noFirst
    have digitless : parseInt16 [unitOf high, unitOf low] = none := by
      apply parseInt16_none signed
      rw [dropHexMark, if_neg (fun marked => unmarked marked.1)]
      exact leadingDigits_none noFirst _
    rw [digitless]
    rcases digitValue (unitOf low) with _ | second
    · rfl
    · simp only [if_neg minus]
      rw [if_neg (not_or.mpr ⟨plus, noSpaces⟩)]
      rfl

/-- The pairs of the other modules, which have ASCII texts. -/
theorem parseHexPair_eq (plain : high.val < 128) :
    toUint8 (parseInt16 [unitOf high, unitOf low]) = parseHexPair high low := by
  rcases isFirst : digitValue (unitOf high) with _ | first
  · by_cases space : IsSpace (unitOf high)
    · exact pair_of_space plain isFirst space
    · exact pair_of_sign plain isFirst space
  · exact pair_of_first isFirst

end Pairs

theorem pairBytes_ofAscii {text : Bytes} (plain : ∀ char ∈ text, char.val < 128) :
    pairBytes (ofAscii text) = Sdk.hexToBytes text := by
  match text with
  | [] => rfl
  | [_] => rfl
  | high :: low :: rest =>
      have later := pairBytes_ofAscii fun char charMem => plain char (.tail _ (.tail _ charMem))
      have first := @parseHexPair_eq high low (plain high (.head _))
      rw [ofAscii] at later
      rw [ofAscii, List.map_cons, List.map_cons, pairBytes, first, later, Sdk.hexToBytes]

/-- `hexToBytes` of the other modules, on ASCII texts. -/
theorem hexToBytes_ofAscii {text : Bytes} (plain : ∀ char ∈ text, char.val < 128) :
    hexToBytes (ofAscii text) = some (Sdk.hexToBytes text) := by
  rw [hexToBytes_eq, pairBytes_ofAscii plain]

/-! ## Channels -/

/-- What a channel goes by: at the MLS manager, in the maps of the keys, and in envelopes. -/
structure ChannelIds where
  groupId : Bytes
  keyName : Bytes
  envelopeId : Bytes
deriving DecidableEq

/-- What the constructor of `Channel` makes of its id. -/
def channelIds (channelId : JsString) : Option ChannelIds :=
  (hexToBytes channelId).map fun bytes => ⟨bytes, bytesToHex bytes, bytes⟩

/-- The channels share none of them. -/
structure ChannelIds.Apart (left right : ChannelIds) : Prop where
  groups : left.groupId ≠ right.groupId
  keys : left.keyName ≠ right.keyName
  envelopes : left.envelopeId ≠ right.envelopeId

theorem apart_of_isHex {left right : JsString} (leftHex : IsHex left) (rightHex : IsHex right)
    (different : lowerCase left ≠ lowerCase right) {first second : ChannelIds}
    (isFirst : channelIds left = some first) (isSecond : channelIds right = some second) :
    first.Apart second := by
  rw [channelIds, hexToBytes_eq, Option.map_some] at isFirst isSecond
  cases isFirst
  cases isSecond
  have bytesDiffer : pairBytes left ≠ pairBytes right := by
    intro same
    rw [← ofBytes_pairBytes leftHex, ← ofBytes_pairBytes rightHex, same] at different
    exact different rfl
  exact ⟨bytesDiffer, fun same => bytesDiffer (bytesToHex_injective same), bytesDiffer⟩

/-- A string that is no hex string goes by the ids of one that is. -/
theorem channelIds_of_not_isHex {hex : JsString} (notHex : ¬IsHex hex) :
    ∃ other, IsHex other ∧ lowerCase other ≠ lowerCase hex ∧
      channelIds other = channelIds hex := by
  have otherHex := isHex_ofBytes (pairBytes hex)
  have read := pairBytes_ofBytes (pairBytes hex)
  refine ⟨_, otherHex, ?_, ?_⟩
  · intro same
    have lower := ofBytes_pairBytes otherHex
    rw [read, same] at lower
    exact notHex ((ofBytes_pairBytes_iff hex).mp lower)
  · rw [channelIds, channelIds, hexToBytes_eq, hexToBytes_eq, read]

/-- A hex string is parsed, and everything else is refused. -/
structure ParsedExactly (hex : JsString) : Prop where
  accepted : IsHex hex → ∃ bytes, hexToBytes hex = some bytes ∧ ofBytes bytes = lowerCase hex
  refused : ¬IsHex hex → hexToBytes hex = none

theorem parsedExactly_iff (hex : JsString) : ParsedExactly hex ↔ IsHex hex := by
  constructor
  · intro exact
    by_contra notHex
    have refused := exact.refused notHex
    rw [hexToBytes_eq] at refused
    cases refused
  · intro isHex
    exact ⟨fun _ => ⟨_, hexToBytes_eq hex, ofBytes_pairBytes isHex⟩, fun notHex =>
      absurd isHex notHex⟩

/-- The SDK tells two channel ids apart, and refuses what is none, only where both are hex. -/
theorem channel_ids_exact_iff (left right : JsString) :
    (ParsedExactly left ∧ ParsedExactly right ∧
      ∀ first second, channelIds left = some first → channelIds right = some second →
        lowerCase left ≠ lowerCase right → first.Apart second) ↔
      IsHex left ∧ IsHex right := by
  rw [parsedExactly_iff, parsedExactly_iff]
  constructor
  · rintro ⟨leftHex, rightHex, -⟩
    exact ⟨leftHex, rightHex⟩
  · rintro ⟨leftHex, rightHex⟩
    refine ⟨leftHex, rightHex, ?_⟩
    intro first second isFirst isSecond different
    exact apart_of_isHex leftHex rightHex different isFirst isSecond

/-- Two names that are no hex strings, and one channel. -/
theorem merged_channel_ids :
    let general := ofAscii (ascii "general")
    let support := ofAscii (ascii "support")
    ¬IsHex general ∧ hexToBytes general = some [0, 0, 0] ∧
      lowerCase general ≠ lowerCase support ∧ channelIds general = channelIds support := by
  refine ⟨fun isHex => absurd isHex.even (by decide), by decide, by decide, by decide⟩

end JsString

end Mercury.Sdk
