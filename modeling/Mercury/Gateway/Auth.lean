import Mathlib.Algebra.Order.Ring.Rat
import Mercury.Core.Base
import Mercury.Gateway.JsonText

/-!
# Authentication

`Gateway.Auth` and the plug that upgrades a request with a valid token to a socket. The ids
of a socket are the claims of its token, in upper case hex.
-/

namespace Mercury.Gateway

open Foundations

/-- `Base.decode16` without `case: :mixed`. -/
def decode16Upper (text : Bytes) : Option Bytes :=
  if text.any fun char => 97 ≤ char.val ∧ char.val ≤ 102 then none else Base.decode16 text

theorem hexDigit_spec (nibble : Fin 16) :
    ¬(97 ≤ (Base.hexDigit nibble).val ∧ (Base.hexDigit nibble).val ≤ 102) ∧
      Base.IsPlain (Base.hexDigit nibble) ∧ JsonText.IsUnescaped (Base.hexDigit nibble) := by
  revert nibble
  decide

/-- What `encode16` writes is upper case, and needs no escapes. -/
theorem encode16_spec (bytes : Bytes) : ∀ char ∈ Base.encode16 bytes,
    ¬(97 ≤ char.val ∧ char.val ≤ 102) ∧ Base.IsPlain char ∧ JsonText.IsUnescaped char := by
  induction bytes with
  | nil => simp [Base.encode16]
  | cons byte rest ih =>
      intro char charMem
      simp only [Base.encode16, List.mem_cons] at charMem
      rcases charMem with rfl | rfl | later
      · exact hexDigit_spec _
      · exact hexDigit_spec _
      · exact ih char later

@[simp]
theorem decode16Upper_encode16 (bytes : Bytes) :
    decode16Upper (Base.encode16 bytes) = some bytes := by
  rw [decode16Upper, if_neg, Base.decode16_encode16]
  intro lower
  rcases List.any_eq_true.mp lower with ⟨char, charMem, isLower⟩
  exact (encode16_spec bytes char charMem).1 (of_decide_eq_true isLower)

/-! ## Claims -/

/-- A value of a claim. -/
inductive Claim where
  | text (value : Bytes)
  | number (value : ℚ)
  | other

/-- The claims of a token that the gateway issues. -/
structure IssuedClaims where
  did : Bytes
  exp : ℕ
  tid : Bytes
  uid : Bytes

namespace IssuedClaims

def get (claims : IssuedClaims) (key : Bytes) : Option Claim :=
  if key = ascii "did" then some (.text claims.did)
  else if key = ascii "exp" then some (.number claims.exp)
  else if key = ascii "tid" then some (.text claims.tid)
  else if key = ascii "uid" then some (.text claims.uid)
  else none

/-- The JSON of the claims, as `Jason` writes it: no blanks, and the keys in order. -/
def format : Format Byte IssuedClaims :=
  (((Format.after (ascii "\x7b\"did\":\"") (.upTo JsonText.quote)).pair
    ((Format.after (ascii ",\"exp\":") JsonText.number).pair
      ((Format.after (ascii ",\"tid\":\"") (.upTo JsonText.quote)).pair
        (Format.after (ascii ",\"uid\":\"") (.upTo JsonText.quote))))).before (ascii "\x7d")).imap
    (fun (did, exp, tid, uid) => ⟨did, exp, tid, uid⟩)
    fun claims => (claims.did, claims.exp, claims.tid, claims.uid)

/-- The string needs no escapes, in JSON and in the segment of a token. -/
def IsPlainText (text : Bytes) : Prop :=
  ∀ char ∈ text, Base.IsPlain char ∧ JsonText.IsUnescaped char

theorem quote_not_mem {text : Bytes} (plain : IsPlainText text) : JsonText.quote ∉ text :=
  fun isQuote => (plain _ isQuote).2.2.1 rfl

structure Unescaped (claims : IssuedClaims) : Prop where
  did : IsPlainText claims.did
  tid : IsPlainText claims.tid
  uid : IsPlainText claims.uid

theorem read_format {claims : IssuedClaims} (unescaped : claims.Unescaped) :
    format.read (format.write claims) = some (claims, []) := by
  have uid := Format.Reads.after (ascii ",\"uid\":\"") (Format.reads_upTo JsonText.quote)
  have tid := (Format.Reads.after (ascii ",\"tid\":\"") (Format.reads_upTo JsonText.quote)).pair
    uid fun _ _ _ _ => trivial
  have exp := (Format.Reads.after (ascii ",\"exp\":") JsonText.reads_number).pair tid
    fun _ _ _ _ => JsonText.noDigit_pair (JsonText.noDigit_after (by decide +kernel)
      (by decide +kernel) _)
  have did := (Format.Reads.after (ascii "\x7b\"did\":\"")
    (Format.reads_upTo JsonText.quote)).pair exp fun _ _ _ _ => trivial
  have closed := @Format.Reads.before _ _ _ _ _ _ (ascii "\x7d") did fun _ => trivial
  have reads : format.Reads (fun claims => JsonText.quote ∉ claims.did ∧ True ∧
      JsonText.quote ∉ claims.tid ∧ JsonText.quote ∉ claims.uid) fun _ => True :=
    closed.imap fun _ => rfl
  have whole := reads claims [] ⟨quote_not_mem unescaped.did, trivial,
    quote_not_mem unescaped.tid, quote_not_mem unescaped.uid⟩ trivial
  rw [List.append_nil] at whole
  exact whole

/-- The text makes no digit in which the alphabets of base 64 differ. -/
theorem isPlain_write {claims : IssuedClaims} (unescaped : claims.Unescaped) :
    ∀ char ∈ format.write claims, Base.IsPlain char := by
  have plain : ∀ {text}, IsPlainText text → ∀ char ∈ text, Base.IsPlain char :=
    fun isPlain char charMem => (isPlain char charMem).1
  have digits : ∀ char ∈ JsonText.number.write claims.exp, Base.IsPlain char := by
    intro char charMem
    rcases @Format.decimal_write _ JsonText.digit JsonText.digitOf claims.exp with
      ⟨values, _, small, _, written⟩
    rw [JsonText.number, written] at charMem
    rcases List.mem_map.mp charMem with ⟨value, valueMem, rfl⟩
    have isDigit : ∀ value < 10, Base.IsPlain (JsonText.digit value) := by decide
    exact isDigit value (small value valueMem)
  have quote : ∀ char ∈ [JsonText.quote], Base.IsPlain char := by decide +kernel
  have did : ∀ char ∈ ascii "\x7b\"did\":\"", Base.IsPlain char := by decide +kernel
  have exp : ∀ char ∈ ascii ",\"exp\":", Base.IsPlain char := by decide +kernel
  have tid : ∀ char ∈ ascii ",\"tid\":\"", Base.IsPlain char := by decide +kernel
  have uid : ∀ char ∈ ascii ",\"uid\":\"", Base.IsPlain char := by decide +kernel
  have close : ∀ char ∈ ascii "\x7d", Base.IsPlain char := by decide +kernel
  simp only [format, Format.imap, Format.before, Format.pair, Format.after, Format.upTo,
    List.forall_mem_append]
  exact ⟨⟨⟨did, plain unescaped.did, quote⟩, ⟨exp, digits⟩, ⟨tid, plain unescaped.tid, quote⟩,
    uid, plain unescaped.uid, quote⟩, close⟩

theorem get_did (claims : IssuedClaims) : claims.get (ascii "did") = some (.text claims.did) :=
  if_pos rfl

theorem get_exp (claims : IssuedClaims) : claims.get (ascii "exp") = some (.number claims.exp) := by
  have notDid : ascii "exp" ≠ ascii "did" := by decide +kernel
  rw [get, if_neg notDid, if_pos rfl]

theorem get_tid (claims : IssuedClaims) : claims.get (ascii "tid") = some (.text claims.tid) := by
  have notDid : ascii "tid" ≠ ascii "did" := by decide +kernel
  have notExp : ascii "tid" ≠ ascii "exp" := by decide +kernel
  rw [get, if_neg notDid, if_neg notExp, if_pos rfl]

theorem get_uid (claims : IssuedClaims) : claims.get (ascii "uid") = some (.text claims.uid) := by
  have notDid : ascii "uid" ≠ ascii "did" := by decide +kernel
  have notExp : ascii "uid" ≠ ascii "exp" := by decide +kernel
  have notTid : ascii "uid" ≠ ascii "tid" := by decide +kernel
  rw [get, if_neg notDid, if_neg notExp, if_neg notTid, if_pos rfl]

end IssuedClaims

/-! ## Tokens -/

/-- `Joken` with HS256. The claims of a token are found by their keys. -/
structure Joken where
  encodeAndSign : Bytes → IssuedClaims → Bytes
  verify : Bytes → Bytes → Option (Bytes → Option Claim)

def dot : Byte :=
  46

/-- For claims whose JSON needs no escapes: a token that is signed is verified with the same
secret, and it has the form of RFC 7515, three segments with dots between them, the second of
which is the JSON of the claims. -/
structure Joken.Lawful (joken : Joken) : Prop where
  verifies : ∀ secret claims, claims.Unescaped →
    joken.verify secret (joken.encodeAndSign secret claims) = some claims.get
  compact : ∀ secret claims, claims.Unescaped → ∃ header signature, dot ∉ header ∧
    joken.encodeAndSign secret claims =
      header ++ dot :: (Base.encodeUrl64 (IssuedClaims.format.write claims) ++ dot :: signature)

namespace Auth

inductive AuthError where
  | invalidToken
  | invalidClaim
  | missingClaim
  | missingExpiry
  | tokenExpired
deriving DecidableEq

/-- The ids of a socket. -/
structure Identity where
  tenantId : Bytes
  userId : Bytes
  deviceId : Bytes
deriving DecidableEq

def fetchBinaryClaim (claims : Bytes → Option Claim) (key : Bytes) : Except AuthError Bytes :=
  match claims key with
  | some (.text hex) =>
      match decode16Upper hex with
      | some bin => .ok bin
      | none => .error .invalidClaim
  | _ => .error .missingClaim

/-- The system time is in seconds. -/
def checkExpiry (systemTime : ℕ) (claims : Bytes → Option Claim) : Except AuthError Unit :=
  match claims (ascii "exp") with
  | some (.number exp) => if (systemTime : ℚ) < exp then .ok () else .error .tokenExpired
  | _ => .error .missingExpiry

def verifyToken (joken : Joken) (secret : Bytes) (systemTime : ℕ) (token : Bytes) :
    Except AuthError Identity :=
  match joken.verify secret token with
  | some claims => do
      let tenantId ← fetchBinaryClaim claims (ascii "tid")
      let userId ← fetchBinaryClaim claims (ascii "uid")
      let deviceId ← fetchBinaryClaim claims (ascii "did")
      checkExpiry systemTime claims
      return ⟨tenantId, userId, deviceId⟩
  | none => .error .invalidToken

/-- The claims of the token of a device, which lives for a day. -/
def issuedClaims (systemTime : ℕ) (identity : Identity) : IssuedClaims where
  did := Base.encode16 identity.deviceId
  exp := systemTime + 86400
  tid := Base.encode16 identity.tenantId
  uid := Base.encode16 identity.userId

def generateToken (joken : Joken) (secret : Bytes) (systemTime : ℕ) (identity : Identity) :
    Bytes :=
  joken.encodeAndSign secret (issuedClaims systemTime identity)

theorem unescaped_issuedClaims (systemTime : ℕ) (identity : Identity) :
    (issuedClaims systemTime identity).Unescaped where
  did char charMem := (encode16_spec _ char charMem).2
  tid char charMem := (encode16_spec _ char charMem).2
  uid char charMem := (encode16_spec _ char charMem).2

/-- The gateway takes the ids that the token was made for, until it expires. -/
theorem verifyToken_generateToken {joken : Joken} (lawful : joken.Lawful) (secret : Bytes)
    (issued now : ℕ) (identity : Identity) :
    verifyToken joken secret now (generateToken joken secret issued identity) =
      if now < issued + 86400 then .ok identity else .error .tokenExpired := by
  have verified := lawful.verifies secret _ (unescaped_issuedClaims issued identity)
  have tenantId : fetchBinaryClaim (issuedClaims issued identity).get (ascii "tid") =
      .ok identity.tenantId := by
    simp [fetchBinaryClaim, IssuedClaims.get_tid, issuedClaims]
  have userId : fetchBinaryClaim (issuedClaims issued identity).get (ascii "uid") =
      .ok identity.userId := by
    simp [fetchBinaryClaim, IssuedClaims.get_uid, issuedClaims]
  have deviceId : fetchBinaryClaim (issuedClaims issued identity).get (ascii "did") =
      .ok identity.deviceId := by
    simp [fetchBinaryClaim, IssuedClaims.get_did, issuedClaims]
  have expiry : checkExpiry now (issuedClaims issued identity).get =
      if now < issued + 86400 then .ok () else .error .tokenExpired := by
    simp only [checkExpiry, IssuedClaims.get_exp, issuedClaims, Nat.cast_lt]
  rw [verifyToken, generateToken, verified]
  simp only [tenantId, userId, deviceId, expiry]
  split
  · rfl
  · rfl

end Auth

/-! ## The upgrade of a request -/

inductive Upgrade where
  | socket (identity : Auth.Identity)
  /-- Status 401. -/
  | unauthorized
deriving DecidableEq

/-- `Gateway.BinaryUpgrade`, with the token among the parameters of the request. -/
def BinaryUpgrade.call (joken : Joken) (secret : Bytes) (systemTime : ℕ) (token : Option Bytes) :
    Upgrade :=
  match Auth.verifyToken joken secret systemTime (token.getD []) with
  | .ok identity => .socket identity
  | .error _ => .unauthorized

end Mercury.Gateway
