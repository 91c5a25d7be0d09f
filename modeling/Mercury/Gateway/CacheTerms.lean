import Mercury.Foundations.EarlyExit
import Mercury.Gateway.RecentPrefixes

/-!
# The recent cache, term by term

`put_recent_messages` and `get_recent_messages` on the terms that `Jason` encodes and decodes,
whatever their shape: a match that fails and a value of the wrong type raise here as they do
in the source. On entries that are well formed the other modules say the same
(`deserializeMessage_ofItem`).
-/

namespace Mercury.Gateway

open Foundations Foundations.Program Persistence

/-- A term that `Jason.decode` makes; the keys of an object are different. -/
inductive JsonTerm where
  | null
  | bool (value : Bool)
  | integer (value : ℤ)
  | float (mantissa exponent : ℤ)
  | string (text : Bytes)
  | array (items : List JsonTerm)
  | object (fields : List (Bytes × JsonTerm))

/-- `Jason`, on terms. -/
structure Jason where
  encode : JsonTerm → Bytes
  decode : Bytes → Option JsonTerm

/-- A map of a message, of `Messages.read` or of the cache; the latter has no
`server_received_at`. -/
structure RecentMessage where
  messageId : Bytes
  senderId : Bytes
  encryptedContent : Bytes
  contentType : JsonTerm
  createdAt : JsonTerm
  replyTo : Option Bytes
  serverReceivedAt : Option ℤ

namespace RecentMessage

/-- The content type and the time are integers. -/
structure Typed (msg : RecentMessage) : Prop where
  contentType : ∃ value, msg.contentType = .integer value
  createdAt : ∃ value, msg.createdAt = .integer value

/-- The messages agree on the fields that the cache keeps. -/
structure Agrees (msg other : RecentMessage) : Prop where
  messageId : msg.messageId = other.messageId
  senderId : msg.senderId = other.senderId
  encryptedContent : msg.encryptedContent = other.encryptedContent
  contentType : msg.contentType = other.contentType
  createdAt : msg.createdAt = other.createdAt
  replyTo : msg.replyTo = other.replyTo

/-- The message as the cache returns it. -/
def cached (msg : RecentMessage) : RecentMessage :=
  { msg with serverReceivedAt := none }

theorem agrees_cached (msg : RecentMessage) : msg.cached.Agrees msg :=
  ⟨rfl, rfl, rfl, rfl, rfl, rfl⟩

def ofMessage (msg : Message) : RecentMessage where
  messageId := msg.messageId
  senderId := msg.senderId
  encryptedContent := msg.encryptedContent
  contentType := .integer msg.contentType
  createdAt := .integer msg.createdAt
  replyTo := msg.replyTo
  serverReceivedAt := none

end RecentMessage

namespace TermCache

/-! ## Messages -/

/-- A base64 text, or `null`. -/
def optional : Option Bytes → JsonTerm
  | some bytes => .string (Base.encode64 bytes)
  | none => .null

def serializeMessage (msg : RecentMessage) : JsonTerm :=
  .object
    [(ascii "ca", msg.createdAt),
      (ascii "ct", msg.contentType),
      (ascii "ec", .string (Base.encode64 msg.encryptedContent)),
      (ascii "mid", .string (Base.encode64 msg.messageId)),
      (ascii "rt", optional msg.replyTo),
      (ascii "sid", .string (Base.encode64 msg.senderId))]

/-- `m[key]`. -/
def access (key : Bytes) : JsonTerm → Except Raise JsonTerm
  | .object fields => .ok ((fields.lookup key).getD .null)
  | .null => .ok .null
  -- a list has only atoms as keys
  | .array _ => .error .argument
  | _ => .error .noMatch

/-- `Base.decode64(value || "")`. -/
def decodeField : JsonTerm → Except Raise (Option Bytes)
  | .null => .ok (Base.decode64 [])
  | .bool false => .ok (Base.decode64 [])
  | .string text => .ok (Base.decode64 text)
  | _ => .error .noMatch

/-- The `case` on `m["rt"]`. -/
def decodeReplyTo : JsonTerm → Except Raise (Option Bytes)
  | .null => .ok none
  | .string text => .ok (Base.decode64 text)
  | _ => .error .noMatch

def deserializeMessage (m : JsonTerm) : Except Raise (Option RecentMessage) := do
  match ← access (ascii "mid") m >>= decodeField with
  | none => pure none
  | some mid =>
      match ← access (ascii "sid") m >>= decodeField with
      | none => pure none
      | some sid =>
          match ← access (ascii "ec") m >>= decodeField with
          | none => pure none
          | some ec => do
              let replyTo ← access (ascii "rt") m >>= decodeReplyTo
              let contentType ← access (ascii "ct") m
              let createdAt ← access (ascii "ca") m
              pure (some
                { messageId := mid
                  senderId := sid
                  encryptedContent := ec
                  contentType := contentType
                  createdAt := createdAt
                  replyTo := replyTo
                  serverReceivedAt := none })

/-- `deserialize_messages`, without the deletion: what is no list and no map cannot be
enumerated, and the pairs of a map are no messages. -/
def deserializeMessages : JsonTerm → Except Raise (Option (List RecentMessage))
  | .array items => (collectWhile deserializeMessage items []).map (Option.map List.reverse)
  | .object [] => .ok (some [])
  | _ => .error .noMatch

/-! ## The cache -/

def putRecentMessages (jason : Jason) (tenantId channelId : Bytes)
    (messages : List RecentMessage) : Stored Unit := do
  let _ ← send (.setex (Cache.recentKey tenantId channelId)
    (jason.encode (.array (messages.map serializeMessage))))
  pure ()

def miss (tenantId channelId : Bytes) : Stored (Option (List RecentMessage)) := do
  let _ ← send (.del (Cache.recentKey tenantId channelId))
  pure none

def getRecentMessages (jason : Jason) (tenantId channelId : Bytes) :
    Stored (Option (List RecentMessage)) := do
  match ← send (.get (Cache.recentKey tenantId channelId)) with
  | .ok none => pure none
  | .ok (some text) =>
      match jason.decode text with
      | some items =>
          match ← ofExcept (deserializeMessages items) with
          | some msgs => pure (some msgs)
          | none => miss tenantId channelId
      | none => miss tenantId channelId
  | .error _ => pure none

/-! ## Round trips -/

theorem ok_bind {Result Other : Type} (result : Result) (next : Result → Except Raise Other) :
    (Except.ok result : Except Raise Result) >>= next = next result :=
  rfl

theorem decodeField_optional (bytes : Bytes) :
    decodeField (.string (Base.encode64 bytes)) = .ok (some bytes) := by
  rw [decodeField, Base.decode64_encode64]

theorem decodeReplyTo_optional (replyTo : Option Bytes) :
    decodeReplyTo (optional replyTo) = .ok replyTo := by
  rcases replyTo with _ | bytes
  · rfl
  · rw [optional, decodeReplyTo, Base.decode64_encode64]

theorem deserializeMessage_serializeMessage (msg : RecentMessage) :
    deserializeMessage (serializeMessage msg) = .ok (some msg.cached) := by
  have mid : access (ascii "mid") (serializeMessage msg) >>= decodeField =
      .ok (some msg.messageId) := decodeField_optional _
  have sid : access (ascii "sid") (serializeMessage msg) >>= decodeField =
      .ok (some msg.senderId) := decodeField_optional _
  have ec : access (ascii "ec") (serializeMessage msg) >>= decodeField =
      .ok (some msg.encryptedContent) := decodeField_optional _
  have rt : access (ascii "rt") (serializeMessage msg) >>= decodeReplyTo = .ok msg.replyTo :=
    decodeReplyTo_optional _
  simp only [deserializeMessage, mid, sid, ec, rt, ok_bind]
  rfl

theorem makes_serializeMessage (messages : List RecentMessage) :
    Makes deserializeMessage (messages.map serializeMessage)
      (messages.map RecentMessage.cached) := by
  induction messages with
  | nil => exact .nil
  | cons msg later ih => exact .cons (deserializeMessage_serializeMessage msg) ih

theorem deserializeMessages_of_makes {items : List JsonTerm} {msgs : List RecentMessage}
    (makes : Makes deserializeMessage items msgs) :
    deserializeMessages (.array items) = .ok (some msgs) := by
  have collected := collectWhile_eq_some.mpr ⟨msgs, makes, (List.append_nil _).symm⟩
  rw [deserializeMessages, collected]
  simp [Except.map]

/-! ## Entries of the other modules -/

def ofItem (item : CachedMessage) : JsonTerm :=
  .object
    [(ascii "ca", .integer item.ca),
      (ascii "ct", .integer item.ct),
      (ascii "ec", item.ec.elim .null .string),
      (ascii "mid", item.mid.elim .null .string),
      (ascii "rt", item.rt.elim .null .string),
      (ascii "sid", item.sid.elim .null .string)]

theorem serializeMessage_ofMessage (msg : Message) :
    serializeMessage (.ofMessage msg) = ofItem (Cache.serializeMessage msg) := by
  rcases msg with ⟨messageId, senderId, encryptedContent, contentType, replyTo, createdAt⟩
  cases replyTo <;> rfl

theorem decodeField_elim (text : Option Bytes) :
    decodeField (text.elim .null .string) = .ok (Base.decode64 (text.getD [])) := by
  cases text <;> rfl

theorem decodeReplyTo_elim (text : Option Bytes) :
    decodeReplyTo (text.elim .null .string) = .ok (text.bind Base.decode64) := by
  cases text <;> rfl

/-- On the items of the other modules nothing raises, and the messages are the same. -/
theorem deserializeMessage_ofItem (item : CachedMessage) :
    deserializeMessage (ofItem item) =
      .ok ((Cache.deserializeMessage item).map RecentMessage.ofMessage) := by
  have mid : access (ascii "mid") (ofItem item) >>= decodeField =
      .ok (Base.decode64 (item.mid.getD [])) := decodeField_elim _
  have sid : access (ascii "sid") (ofItem item) >>= decodeField =
      .ok (Base.decode64 (item.sid.getD [])) := decodeField_elim _
  have ec : access (ascii "ec") (ofItem item) >>= decodeField =
      .ok (Base.decode64 (item.ec.getD [])) := decodeField_elim _
  have rt : access (ascii "rt") (ofItem item) >>= decodeReplyTo =
      .ok (item.rt.bind Base.decode64) := decodeReplyTo_elim _
  simp only [deserializeMessage, mid, sid, ec, rt, ok_bind, Cache.deserializeMessage]
  rcases Base.decode64 (item.mid.getD []) with _ | messageId
  · rfl
  rcases Base.decode64 (item.sid.getD []) with _ | senderId
  · rfl
  rcases Base.decode64 (item.ec.getD []) with _ | encryptedContent
  · rfl
  · rfl

/-! ## Reading what was put -/

section Runs

variable {jason : Jason} {tenantId channelId : Bytes} {stores : Stores} {moments : ℕ → Moment}

theorem run_putRecentMessages (messages : List RecentMessage)
    (carried : (moments 0).fate = .carried) :
    ∃ made, stores.run (putRecentMessages jason tenantId channelId messages) moments =
      ⟨made, .ok (), stores.setRedis (Cache.recentKey tenantId channelId)
        (some (.text (jason.encode (.array (messages.map serializeMessage)))))⟩ := by
  rw [putRecentMessages, Stores.run_send_bind _ (perform_setex carried)]
  exact ⟨_, rfl⟩

/-- A text that is decoded to messages is served. -/
theorem run_getRecentMessages {text : Bytes} {term : JsonTerm} {msgs : List RecentMessage}
    (carried : (moments 0).fate = .carried)
    (held : stores.redis (Cache.recentKey tenantId channelId) = some (.text text))
    (decoded : jason.decode text = some term)
    (deserialized : deserializeMessages term = .ok (some msgs)) :
    (stores.run (getRecentMessages jason tenantId channelId) moments).outcome =
      .ok (some msgs) := by
  have gets := @perform_get stores (moments 0) (Cache.recentKey tenantId channelId) carried
  rw [held] at gets
  rw [getRecentMessages, Stores.run_send_bind _ gets]
  simp only [getReply, heldText, decoded, deserialized]
  rfl

/-- What was put is read, in order, with all six fields. -/
theorem get_after_put {messages : List RecentMessage}
    (carried : ∀ index, (moments index).fate = .carried)
    (faithful : jason.decode (jason.encode (.array (messages.map serializeMessage))) =
      some (.array (messages.map serializeMessage))) :
    ∃ msgs, (stores.run (putRecentMessages jason tenantId channelId messages >>= fun _ =>
        getRecentMessages jason tenantId channelId) moments).outcome = .ok (some msgs) ∧
      List.Forall₂ RecentMessage.Agrees msgs messages := by
  rcases @run_putRecentMessages jason tenantId channelId stores moments messages (carried 0) with
    ⟨made, puts⟩
  refine ⟨messages.map RecentMessage.cached, ?_, ?_⟩
  · rw [Stores.run_bind _ puts]
    exact run_getRecentMessages (carried _) (Function.update_self ..) faithful
      (deserializeMessages_of_makes (makes_serializeMessage messages))
  · rw [List.forall₂_map_left_iff]
    exact List.forall₂_same.mpr fun msg _ => msg.agrees_cached

end Runs

/-- A message with empty binaries, from before the epoch. -/
def emptyMessage : RecentMessage where
  messageId := []
  senderId := [1]
  encryptedContent := []
  contentType := .integer 0
  createdAt := .integer (-5)
  replyTo := none
  serverReceivedAt := some 7

/-- A reply to another message. -/
def replyMessage : RecentMessage where
  messageId := [4, 5]
  senderId := [2]
  encryptedContent := [255, 0]
  contentType := .integer 1
  createdAt := .integer 1700000000000
  replyTo := some [9]
  serverReceivedAt := none

def pairText : Bytes :=
  ascii "[\x7b\"ca\":1700000000000,\"ct\":1,\"ec\":\"/wA=\",\"mid\":\"BAU=\"," ++
    ascii "\"rt\":\"CQ==\",\"sid\":\"Ag==\"\x7d,\x7b\"ca\":-5,\"ct\":0,\"ec\":\"\"," ++
      ascii "\"mid\":\"\",\"rt\":null,\"sid\":\"AQ==\"\x7d]"

/-- `Jason`, as far as it deals with this text. -/
def pairJason : Jason where
  encode _ := pairText
  decode text :=
    if text = pairText then
      some (.array [serializeMessage replyMessage, serializeMessage emptyMessage])
    else none

/-- A reply and a message of empty binaries, in their order. -/
theorem get_after_put_pair :
    ∃ msgs, ((onlyCursors .empty).run
        (putRecentMessages pairJason [1] [2] [replyMessage, emptyMessage] >>= fun _ =>
          getRecentMessages pairJason [1] [2]) fun _ => carriedOut).outcome = .ok (some msgs) ∧
      List.Forall₂ RecentMessage.Agrees msgs [replyMessage, emptyMessage] :=
  get_after_put (fun _ => rfl) (by simp [pairJason])

end TermCache

end Mercury.Gateway
