import Mathlib.Data.List.DropRight
import Mercury.Sdk.Frame
import Mercury.Sdk.OfflineQueue

/-!
# What the SDK asks of its device

The awaited calls of `Channel` and `SyncEngine` to the transport, the local store,
the offline queue, the clock and the random source, and the values that go
through them. JavaScript numbers are natural numbers, in the range where they are
exact. Texts are the bytes of ASCII strings.
-/

namespace Mercury.Sdk

open Gateway Foundations

/-! ## Values -/

/-- Below this, natural numbers are exact as JavaScript numbers. -/
def exactBound : ℕ := 2 ^ 53

theorem fits_of_exact {number : ℕ} (exact : number < exactBound) : number < 256 ^ 8 :=
  exact.trans (by decide)

/-- A JavaScript value, as far as the SDK looks into it. -/
inductive Value where
  | undefined
  | null
  | number (value : ℕ)
  | text (value : Bytes)
  /-- A `Uint8Array`. -/
  | bytes (value : Bytes)
deriving DecidableEq

/-- An object, by its properties. -/
abbrev Record := List (String × Value)

def Record.get (record : Record) (name : String) : Value :=
  (record.lookup name).getD .undefined

/-! ## Hex texts -/

def lowerHexDigit (nibble : Fin 16) : Byte :=
  Fin.ofNat 256 (if nibble.val < 10 then 48 + nibble.val else 87 + nibble.val)

def bytesToHex : Bytes → Bytes
  | [] => []
  | byte :: rest =>
      lowerHexDigit ⟨byte.val / 16, Base.highNibble_lt byte⟩ ::
        lowerHexDigit ⟨byte.val % 16, Base.lowNibble_lt byte⟩ :: bytesToHex rest

/-- `parseInt` of two characters to base 16, as an element of a `Uint8Array`: it skips
white space, takes a sign, and stops at the first character that is no digit. -/
def parseHexPair (high low : Byte) : Byte :=
  match Base.hexValue high, Base.hexValue low with
  | some first, some second => Fin.ofNat 256 (16 * first.val + second.val)
  | some first, none => Fin.ofNat 256 first.val
  | none, some second =>
      if high = 45 then Fin.ofNat 256 (256 - second.val)
      else if high = 43 ∨ high = 32 ∨ 9 ≤ high ∧ high ≤ 13 then Fin.ofNat 256 second.val
      else 0
  | none, none => 0

/-- A last character without a partner has no place in the array. -/
def hexToBytes : Bytes → Bytes
  | high :: low :: rest => parseHexPair high low :: hexToBytes rest
  | _ => []

/-- `hexToBytes` of any value: nothing has a length that is not there, and only the array has no
`substring`. -/
def Value.hexToBytes : Value → Option Bytes
  | .text hex => some (Sdk.hexToBytes hex)
  | .number _ => some []
  | .bytes [] => some []
  | _ => none

/-! ## `BigInt` -/

def IsSpace (char : Byte) : Prop :=
  9 ≤ char ∧ char ≤ 13 ∨ char = 32

instance : DecidablePred IsSpace :=
  fun _ => inferInstanceAs (Decidable (_ ∨ _))

/-- The number with these digits, of which there is one at least. -/
def ofDigits (base : ℕ) (digits : Bytes) : Option ℕ :=
  if digits = [] then none
  else digits.foldlM (fun value char => ((Base.hexValue char).filter fun digit =>
    digit.val < base).map fun digit => base * value + digit.val) 0

/-- The base that `0x` and the like stand for. -/
def baseOfMark (mark : Byte) : Option ℕ :=
  if mark = 120 ∨ mark = 88 then some 16
  else if mark = 111 ∨ mark = 79 then some 8
  else if mark = 98 ∨ mark = 66 then some 2
  else none

/-- A text without white space: nothing is zero, and only decimal digits have a sign. -/
def readInteger : Bytes → Option ℤ
  | [] => some 0
  | first :: rest =>
      if first = 45 then (ofDigits 10 rest).map fun value => -value
      else if first = 43 then (ofDigits 10 rest).map Int.ofNat
      else match rest.head?.bind baseOfMark with
        | some base =>
            if first = 48 then (ofDigits base rest.tail).map Int.ofNat else none
        | none => (ofDigits 10 (first :: rest)).map Int.ofNat

/-- `BigInt` of a text, which throws where that is no integer. -/
def bigInt (text : Bytes) : Option ℤ :=
  readInteger ((text.dropWhile IsSpace).rdropWhile IsSpace)

/-- `BigInt` of a value, or of the clock where it is `undefined` or `null`. An array is the text
of its elements with commas between them. -/
def Value.bigInt (now : ℕ) : Value → Option ℤ
  | .undefined => some now
  | .null => some now
  | .number value => some value
  | .text digits => Sdk.bigInt digits
  | .bytes [] => some 0
  | .bytes [byte] => some byte.val
  | .bytes _ => none

/-- What a field of 64 bits without a sign makes of an integer. -/
def toUint64 (value : ℤ) : ℕ :=
  (value % 2 ^ 64).toNat

theorem hexValue_lowerHexDigit (nibble : Fin 16) :
    Base.hexValue (lowerHexDigit nibble) = some nibble := by
  revert nibble
  decide

@[simp]
theorem hexToBytes_bytesToHex (bytes : Bytes) : hexToBytes (bytesToHex bytes) = bytes := by
  induction bytes with
  | nil => rfl
  | cons byte rest ih =>
      have value : 16 * (byte.val / 16) + byte.val % 16 = byte.val := Nat.div_add_mod byte.val 16
      simp only [bytesToHex, hexToBytes, parseHexPair, hexValue_lowerHexDigit, value, ih]
      rw [Fin.ofNat_val_eq_self]

theorem bytesToHex_injective {left right : Bytes} (same : bytesToHex left = bytesToHex right) :
    left = right := by
  have parsed := congrArg hexToBytes same
  simpa using parsed

/-! ## Packed envelopes -/

/-- The loop of `unpackEnvelopes`, from `offset` on; it throws where a length is cut short. -/
def unpackLoop (rest : Bytes) : ℕ → Option (List Bytes)
  | 0 => some []
  | count + 1 =>
      if rest = [] then some []
      else if rest.length < 4 then none
      else
        let len := fromLittleEndian (rest.take 4)
        (unpackLoop ((rest.drop 4).drop len) count).map fun later =>
          (rest.drop 4).take len :: later

/-- `unpackEnvelopes` of `frame.ts`. -/
def unpackEnvelopes (data : Bytes) : Option (List Bytes) :=
  if data.length < 4 then some []
  else unpackLoop (data.drop 4) (fromLittleEndian (data.take 4))

theorem unpackLoop_pack {envelopes : List Bytes}
    (sizes : ∀ env ∈ envelopes, env.length < 256 ^ 4) :
    unpackLoop (envelopes.map fun env => littleEndian 4 env.length ++ env).flatten
      envelopes.length = some envelopes := by
  induction envelopes with
  | nil => rfl
  | cons env later ih =>
      have size := fromLittleEndian_littleEndian (sizes env List.mem_cons_self)
      have laterSizes : ∀ other ∈ later, other.length < 256 ^ 4 :=
        fun other otherMem => sizes other (List.mem_cons_of_mem _ otherMem)
      have header : ∀ rest : Bytes, (littleEndian 4 env.length ++ rest).take 4 =
          littleEndian 4 env.length ∧ (littleEndian 4 env.length ++ rest).drop 4 = rest :=
        fun rest => ⟨List.take_left' (by simp), List.drop_left' (by simp)⟩
      have filled : ∀ rest : Bytes, littleEndian 4 env.length ++ rest ≠ [] := by
        intro rest empty
        simpa using congrArg List.length empty
      rw [List.map_cons, List.flatten_cons, List.append_assoc, List.length_cons, unpackLoop,
        if_neg (filled _), if_neg (by simp), (header _).1, (header _).2, size]
      simp only [List.take_left', List.drop_left', ih laterSizes, Option.map_some]

/-- The SDK reads back what the gateway packs. -/
theorem unpackEnvelopes_pack {envelopes : List Bytes} (count : envelopes.length < 256 ^ 4)
    (sizes : ∀ env ∈ envelopes, env.length < 256 ^ 4) :
    unpackEnvelopes (packEnvelopes envelopes) = some envelopes := by
  rw [unpackEnvelopes, packEnvelopes, if_neg (by simp), List.take_left' (by simp),
    List.drop_left' (by simp), fromLittleEndian_littleEndian count, unpackLoop_pack sizes]

/-! ## Calls -/

/-- A row of the `messages` object store. -/
structure StoredMessage where
  channelId : String
  messageId : Bytes
  sender : Bytes
  content : Bytes
  contentType : ℕ
  timestamp : ℕ
deriving DecidableEq

namespace Device

inductive Call where
  | now
  | randomBytes (count : ℕ)
  /-- `MlsClient.encrypt` under the key of the channel. -/
  | encrypt (plaintext : Bytes)
  | isConnected
  /-- `BinaryTransport.push`, which resolves to the data of the reply. -/
  | push (topic : Bytes) (event : Byte) (payload : Bytes)
  | writeMessage (msg : StoredMessage)
  | evictOldMessages (channelId : String)
  | getSyncState (channelId : String)
  | setSyncState (channelId : String) (lastHlcWall : ℕ)
  | queueOffline (channelId event : String) (payload : Record)
  | drain
  | ack (upToId : ℕ)
deriving DecidableEq

abbrev Answer : Call → Type
  | .now => ℕ
  | .randomBytes _ | .encrypt _ | .push .. => Bytes
  | .isConnected => Bool
  | .writeMessage _ | .evictOldMessages _ | .setSyncState .. => Unit
  | .getSyncState _ => Option ℕ
  | .queueOffline .. | .ack _ => Unit
  | .drain => List (QueuedMessage Record)

end Device

abbrev device : Interface where
  Call := Device.Call
  Answer := Device.Answer

/-- Why a promise rejects. -/
inductive Thrown where
  /-- A call was rejected. -/
  | rejected
  | notReady
  /-- A value is not of the type that the code takes it for. -/
  | invalid
  /-- The loop has not ended yet. -/
  | unfinished
deriving DecidableEq

/-- An asynchronous function of the SDK. -/
abbrev Script (Result : Type) := Program device Thrown Result

def request (asked : Device.Call) : Script (Device.Answer asked) :=
  @Program.perform device Thrown asked

/-- The Cap'n Proto library of the SDK. A decoder may throw. -/
structure Codec where
  encodeEnvelope : Envelope → Bytes
  decodeEnvelope : Bytes → Option Envelope

end Mercury.Sdk
