import Mercury.Gateway.Auth
import Mercury.Sdk.HexStrings

/-!
# Tokens in the SDK

The constructor of `MercuryClient` reads the ids of the user off the payload of the token,
without verifying it, and the gateway reads them off the claims that it has verified. The ids
that the client signs its envelopes with are those of its socket.
-/

namespace Mercury.Sdk

open Foundations Gateway JsString

/-- `split(".")[1]`; the first segment alone leaves it undefined. -/
def payloadSegment (token : Bytes) : Option Bytes :=
  match token.dropWhile (· ≠ dot) with
  | [] => none
  | _ :: rest => some (rest.takeWhile (· ≠ dot))

/-! ## `JSON.parse` -/

/-- A value of a property. -/
inductive JsonValue where
  /-- Each byte is a unit of the string. -/
  | string (text : Bytes)
  | number (value : ℕ)

namespace JsonValue

def IsPlain : JsonValue → Prop
  | .string text => ∀ char ∈ text, JsonText.IsUnescaped char
  | .number _ => True

/-- A string that is not empty, or a number that is not zero. -/
def Truthy : JsonValue → Prop
  | .string text => text ≠ []
  | .number value => value ≠ 0

instance : DecidablePred Truthy
  | .string text => inferInstanceAs (Decidable (text ≠ []))
  | .number value => inferInstanceAs (Decidable (value ≠ 0))

/-- A number has no length. -/
def hexToBytes : JsonValue → Option Bytes
  | .string text => JsString.hexToBytes (ofAscii text)
  | .number _ => some []

end JsonValue

namespace JsonObject

open JsonText

/-- A string without escapes. -/
def plainString : Format Byte Bytes where
  write text := quote :: (text ++ [quote])
  read text :=
    ((Format.after [quote] (.upTo quote)).read text).filter fun found =>
      found.1.all fun char => IsUnescaped char

def value : Format Byte JsonValue where
  write
    | .string text => plainString.write text
    | .number value => number.write value
  read text :=
    if text.head? = some quote then
      (plainString.read text).map fun found => (.string found.1, found.2)
    else (number.read text).map fun found => (.number found.1, found.2)

/-- A key and a value, with a colon between them. -/
def property : Format Byte (Bytes × JsonValue) :=
  plainString.pair (.after (ascii ":") value)

def object : Format Byte (List (Bytes × JsonValue)) :=
  .after (ascii "\x7b") (.separated comma 125 property)

/-- `JSON.parse` of the objects of strings without escapes and of natural numbers that are
written without blanks, `none` for other texts. Of two properties with one key the last one
counts. -/
def parse (text : Bytes) : Option (Bytes → Option JsonValue) :=
  match object.read text with
  | some (properties, []) => some fun key => properties.reverse.lookup key
  | _ => none

theorem reads_plainString :
    plainString.Reads (fun text => ∀ char ∈ text, IsUnescaped char) fun _ => True := by
  intro text rest plain _
  have noQuote : quote ∉ text := fun isQuote => (plain _ isQuote).2.1 rfl
  have read := Format.Reads.after [quote] (Format.reads_upTo quote) text rest noQuote trivial
  have written : plainString.write text ++ rest =
      (Format.after [quote] (.upTo quote)).write text ++ rest := rfl
  rw [written]
  simp only [plainString, read]
  rw [Option.filter_some, if_pos (List.all_eq_true.mpr fun char charMem =>
    decide_eq_true (plain char charMem))]

theorem reads_value : value.Reads JsonValue.IsPlain (Format.NoDigit digitOf) := by
  rintro (text | number) rest plain follows
  · have read := reads_plainString text rest plain trivial
    have isString : (plainString.write text ++ rest).head? = some quote := rfl
    simp only [value, isString, if_true, read, Option.map_some]
  · have read := reads_number number rest trivial follows
    have isNumber : (JsonText.number.write number ++ rest).head? ≠ some quote := by
      rcases @Format.decimal_write _ digit digitOf number with ⟨digits, nonempty, small, -, written⟩
      rcases digits with _ | ⟨first, later⟩
      · exact absurd rfl nonempty
      · have other : ∀ value < 10, digit value ≠ quote := by decide
        rw [JsonText.number, written]
        intro same
        exact other first (small first List.mem_cons_self) (Option.some.inj same)
    simp only [value, if_neg isNumber, read, Option.map_some]

theorem reads_object : object.Reads (fun properties => ∀ property ∈ properties,
    (∀ char ∈ property.1, IsUnescaped char) ∧ property.2.IsPlain) fun _ => True := by
  have reads : property.Reads (fun property => (∀ char ∈ property.1, IsUnescaped char) ∧
      property.2.IsPlain) (Format.NoDigit digitOf) :=
    reads_plainString.pair (Format.Reads.after (ascii ":") reads_value) fun _ _ _ _ => trivial
  refine Format.Reads.after (ascii "\x7b") (Format.Reads.separated reads (by decide) ?_ ?_ ?_)
  · rintro rest symbol ⟨⟩
    rfl
  · rintro rest symbol ⟨⟩
    rfl
  · exact fun property => ⟨quote, _, rfl, by decide⟩

/-- The properties of the claims. -/
def claimProperties (claims : IssuedClaims) : List (Bytes × JsonValue) :=
  [(ascii "did", .string claims.did), (ascii "exp", .number claims.exp),
    (ascii "tid", .string claims.tid), (ascii "uid", .string claims.uid)]

/-- The claims are written as an object. -/
theorem write_claims (claims : IssuedClaims) :
    IssuedClaims.format.write claims = object.write (claimProperties claims) := by
  have did : ascii "\x7b\"did\":\"" =
      ascii "\x7b" ++ quote :: (ascii "did" ++ quote :: (ascii ":" ++ [quote])) := by
    decide +kernel
  have exp : ascii ",\"exp\":" = comma :: quote :: (ascii "exp" ++ quote :: ascii ":") := by
    decide +kernel
  have tid : ascii ",\"tid\":\"" =
      comma :: quote :: (ascii "tid" ++ quote :: (ascii ":" ++ [quote])) := by
    decide +kernel
  have uid : ascii ",\"uid\":\"" =
      comma :: quote :: (ascii "uid" ++ quote :: (ascii ":" ++ [quote])) := by
    decide +kernel
  have close : ascii "\x7d" = [125] := by decide +kernel
  simp only [IssuedClaims.format, object, claimProperties, Format.imap, Format.before, Format.pair,
    Format.after, Format.upTo, Format.separated, Format.writeTail, property, value, plainString,
    did, exp, tid, uid, close, List.append_assoc, List.cons_append, List.nil_append]

/-- The JSON of the claims is read back. -/
theorem parse_claims {claims : IssuedClaims} (unescaped : claims.Unescaped) :
    parse (IssuedClaims.format.write claims) =
      some fun key => (claimProperties claims).reverse.lookup key := by
  have plain : ∀ property ∈ claimProperties claims,
      (∀ char ∈ property.1, IsUnescaped char) ∧ property.2.IsPlain := by
    simp only [claimProperties, List.forall_mem_cons, List.not_mem_nil, IsEmpty.forall_iff,
      implies_true, and_true]
    exact ⟨⟨by decide +kernel, fun char charMem => (unescaped.did char charMem).2⟩,
      ⟨by decide +kernel, trivial⟩,
      ⟨by decide +kernel, fun char charMem => (unescaped.tid char charMem).2⟩,
      ⟨by decide +kernel, fun char charMem => (unescaped.uid char charMem).2⟩⟩
  have read := reads_object (claimProperties claims) [] plain trivial
  rw [List.append_nil, ← write_claims] at read
  simp only [parse, read]

end JsonObject

/-! ## The ids of a client -/

/-- The tenant and the user of a client; it throws without them. -/
def MercuryClient.identity (token : Bytes) : Option (Bytes × Bytes) := do
  let segment ← payloadSegment token
  let text ← Base.atob segment
  let payload ← JsonObject.parse text
  let tid ← (payload (ascii "tid")).filter fun value => value.Truthy
  let uid ← (payload (ascii "uid")).filter fun value => value.Truthy
  let tenantId ← tid.hexToBytes
  let userId ← uid.hexToBytes
  return (tenantId, userId)

theorem payloadSegment_compact {header segment signature : Bytes} (noDot : dot ∉ header)
    (noDotWithin : dot ∉ segment) :
    payloadSegment (header ++ dot :: (segment ++ dot :: signature)) = some segment := by
  have others : ∀ char ∈ header, decide (char ≠ dot) = true := by
    intro char charMem
    simpa using fun same : char = dot => noDot (same ▸ charMem)
  have inner : ∀ char ∈ segment, decide (char ≠ dot) = true := by
    intro char charMem
    simpa using fun same : char = dot => noDotWithin (same ▸ charMem)
  have taken : (segment ++ dot :: signature).takeWhile (· ≠ dot) = segment := by
    rw [List.takeWhile_append_of_pos inner]
    simp
  rw [payloadSegment, List.dropWhile_append_of_pos others]
  simp only [List.dropWhile_cons, ne_eq, not_true_eq_false, decide_false, Bool.false_eq_true,
    if_false]
  exact congrArg some taken

theorem pairBytes_encode16 (bytes : Bytes) : pairBytes (ofAscii (Base.encode16 bytes)) = bytes := by
  induction bytes with
  | nil => rfl
  | cons byte rest ih =>
      have value : 16 * (byte.val / 16) + byte.val % 16 = byte.val := Nat.div_add_mod byte.val 16
      have isFirst := Base.hexValue_hexDigit ⟨byte.val / 16, Base.highNibble_lt byte⟩
      have isSecond := Base.hexValue_hexDigit ⟨byte.val % 16, Base.lowNibble_lt byte⟩
      rw [← digitValue_castLE] at isFirst isSecond
      have read := parseInt16_digits isFirst isSecond
      rw [value] at read
      rw [ofAscii] at ih
      simp only [ofAscii, Base.encode16, List.map_cons, pairBytes, read, ih,
        toUint8_natCast byte.isLt]
      simp

/-- An id in hex is a string that is not empty. -/
theorem truthy_encode16 {bytes : Bytes} (nonempty : bytes ≠ []) :
    (JsonValue.string (Base.encode16 bytes)).Truthy := by
  intro none
  apply nonempty
  rw [← pairBytes_encode16 bytes, none]
  rfl

/-- For a device whose token the gateway has issued, the socket has the ids that the token was
made for until it expires, and no socket is made after that; the client reads the same tenant
and user. -/
theorem token_identities_agree {joken : Joken} (lawful : joken.Lawful) (secret : Bytes)
    (issued now : ℕ) (identity : Auth.Identity) :
    BinaryUpgrade.call joken secret now
        (some (Auth.generateToken joken secret issued identity)) =
        (if now < issued + 86400 then .socket identity else .unauthorized) ∧
      (identity.tenantId ≠ [] → identity.userId ≠ [] →
        MercuryClient.identity (Auth.generateToken joken secret issued identity) =
          some (identity.tenantId, identity.userId)) := by
  have unescaped := Auth.unescaped_issuedClaims issued identity
  refine ⟨?_, fun tenant user => ?_⟩
  · rw [BinaryUpgrade.call, Option.getD_some, Auth.verifyToken_generateToken lawful]
    by_cases fresh : now < issued + 86400
    · simp only [fresh, if_true]
    · simp only [fresh, if_false]
  · rcases lawful.compact secret _ unescaped with ⟨header, signature, noDot, compact⟩
    have noDotWithin :
        dot ∉ Base.encodeUrl64 (IssuedClaims.format.write (Auth.issuedClaims issued identity)) :=
      fun isDot => (Base.encodeUrl64_spec _ dot isDot).2.2 rfl
    have segment : payloadSegment (Auth.generateToken joken secret issued identity) =
        some (Base.encodeUrl64
          (IssuedClaims.format.write (Auth.issuedClaims issued identity))) := by
      rw [Auth.generateToken, compact]
      exact payloadSegment_compact noDot noDotWithin
    have text := Base.atob_encodeUrl64 (IssuedClaims.isPlain_write unescaped)
    have tid : (JsonObject.claimProperties (Auth.issuedClaims issued identity)).reverse.lookup
        (ascii "tid") = some (.string (Base.encode16 identity.tenantId)) := rfl
    have uid : (JsonObject.claimProperties (Auth.issuedClaims issued identity)).reverse.lookup
        (ascii "uid") = some (.string (Base.encode16 identity.userId)) := rfl
    simp only [MercuryClient.identity, segment, text, JsonObject.parse_claims unescaped, tid, uid,
      Option.bind_eq_bind, Option.bind_some, Option.filter_some,
      decide_eq_true (truthy_encode16 tenant), decide_eq_true (truthy_encode16 user), if_true,
      JsonValue.hexToBytes, JsString.hexToBytes_eq, pairBytes_encode16]
    rfl

/-- Tokens that are signed with the secret itself. -/
def plainToken (secret : Bytes) (claims : IssuedClaims) : Bytes :=
  dot :: (Base.encodeUrl64 (IssuedClaims.format.write claims) ++ dot :: secret)

/-- The claims of a token are read, and signed once more. -/
def plainJoken : Joken where
  encodeAndSign := plainToken
  verify secret token :=
    ((payloadSegment token).bind Base.atob).bind fun text =>
      (IssuedClaims.format.read text).bind fun found =>
        if plainToken secret found.1 = token then some found.1.get else none

theorem lawful_plainJoken : plainJoken.Lawful where
  verifies secret claims unescaped := by
    have noDot : dot ∉ Base.encodeUrl64 (IssuedClaims.format.write claims) :=
      fun isDot => (Base.encodeUrl64_spec _ dot isDot).2.2 rfl
    have segment : payloadSegment (plainToken secret claims) =
        some (Base.encodeUrl64 (IssuedClaims.format.write claims)) :=
      @payloadSegment_compact [] _ _ List.not_mem_nil noDot
    simp only [plainJoken, segment, Option.bind_some,
      Base.atob_encodeUrl64 (IssuedClaims.isPlain_write unescaped),
      IssuedClaims.read_format unescaped, if_true]
  compact secret claims _ := ⟨[], secret, List.not_mem_nil, rfl⟩

theorem token_identities_agree_plain :
    BinaryUpgrade.call plainJoken [1] 10
        (some (Auth.generateToken plainJoken [1] 5 ⟨[0xab], [0xcd], [0xef]⟩)) =
        .socket ⟨[0xab], [0xcd], [0xef]⟩ ∧
      MercuryClient.identity (Auth.generateToken plainJoken [1] 5 ⟨[0xab], [0xcd], [0xef]⟩) =
        some ([0xab], [0xcd]) := by
  rcases token_identities_agree lawful_plainJoken [1] 5 10 ⟨[0xab], [0xcd], [0xef]⟩ with
    ⟨socket, client⟩
  exact ⟨socket, client (by simp) (by simp)⟩

end Mercury.Sdk
