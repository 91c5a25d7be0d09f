import Mercury.Core.Base

/-!
# Validation of messages and channels

`Message::validate`, `Channel::validate` and the NIFs that call them with the
values of a request. A NIF answers `:ok` or an error atom, or panics where an
assertion about the system clock fails. The SDK validates a message on its own, and
knows no content types (`validations_agree_iff`).
-/

namespace Mercury

inductive ContentType where
  | text
  | image
  | file
  | reaction
  | edit
  | delete
deriving DecidableEq, Repr

/-- `parse_content_type`. -/
def ContentType.parse : ℕ → Option ContentType
  | 0 => some .text
  | 1 => some .image
  | 2 => some .file
  | 3 => some .reaction
  | 4 => some .edit
  | 5 => some .delete
  | _ => none

namespace Message

/-- 256 KB. -/
def maxContentSize : ℕ := 256 * 1024

/-- `Message::validate` of a message that replies to none. -/
def validate (encryptedContent : Bytes) (contentType : ContentType) (createdAt : ℕ) :
    Except Raise (Except Bytes Unit) :=
  if encryptedContent = [] ∧ contentType ≠ .delete then .ok (.error (ascii "invalid_message"))
  else if maxContentSize < encryptedContent.length then
    .ok (.error (ascii "invalid_message"))
  else if 0 < createdAt then .ok (.ok ())
  else .error .panicked

end Message

/-- The NIF `validate_message`; `reading` is its own reading of the system clock. -/
def validateMessage (reading : ℕ) (tenantId channelId senderId content : Bytes)
    (contentType : ℕ) : Except Raise (Except Bytes Unit) :=
  match ContentType.parse contentType with
  | none => .ok (.error (ascii "invalid_content_type"))
  | some contentType =>
      if tenantId.length = 16 ∧ channelId.length = 16 ∧ senderId.length = 16 then
        Message.validate content contentType reading
      else .ok (.error (ascii "invalid_message"))

namespace SdkCore

/-- `validate_message` of `mercury-sdk-core`, which returns the empty text on success. -/
def validateMessage (content : Bytes) (contentType : ℕ) : Bytes :=
  if content = [] ∧ contentType ≠ 5 then ascii "content is empty for non-delete message"
  else if 256 * 1024 < content.length then
    ascii "content size " ++ ascii content.length.repr ++ ascii " exceeds max 262144"
  else []

end SdkCore

/-! ## Both validations of a message -/

/-- The content is refused for its length. -/
def Message.Refused (content : Bytes) (contentType : ℕ) : Prop :=
  content = [] ∧ contentType ≠ 5 ∨ Message.maxContentSize < content.length

theorem ContentType.parse_known {contentType : ℕ} (known : contentType ≤ 5) :
    ∃ parsed, ContentType.parse contentType = some parsed ∧
      (parsed = .delete ↔ contentType = 5) := by
  have cases : contentType = 0 ∨ contentType = 1 ∨ contentType = 2 ∨ contentType = 3 ∨
      contentType = 4 ∨ contentType = 5 := by omega
  rcases cases with rfl | rfl | rfl | rfl | rfl | rfl <;> exact ⟨_, rfl, by decide⟩

theorem ContentType.parse_unknown {contentType : ℕ} (unknown : 5 < contentType) :
    ContentType.parse contentType = none := by
  unfold ContentType.parse
  split <;> first | omega | rfl

theorem SdkCore.validateMessage_eq_nil {content : Bytes} {contentType : ℕ} :
    SdkCore.validateMessage content contentType = [] ↔ ¬Message.Refused content contentType := by
  have texts : ascii "content is empty for non-delete message" ≠ [] ∧
      ascii "content size " ≠ [] := by decide
  unfold SdkCore.validateMessage Message.Refused
  split
  · next empty => simp [texts.1, empty]
  · next filled =>
      split
      · next long => simp [texts.2, Message.maxContentSize, long]
      · next fits => simpa [filled, Message.maxContentSize] using fits

theorem validateMessage_eq_ok {reading contentType : ℕ} {tenantId channelId senderId : Id16}
    {content : Bytes} :
    validateMessage reading tenantId.val channelId.val senderId.val content contentType =
        .ok (.ok ()) ↔
      (contentType ≤ 5 ∧ 0 < reading) ∧ ¬Message.Refused content contentType := by
  rcases Nat.lt_or_ge 5 contentType with unknown | known
  · simp [validateMessage, ContentType.parse_unknown unknown, unknown]
  rcases ContentType.parse_known known with ⟨parsed, parsedEq, isDelete⟩
  have ids : tenantId.val.length = 16 ∧ channelId.val.length = 16 ∧ senderId.val.length = 16 :=
    ⟨tenantId.property, channelId.property, senderId.property⟩
  simp only [validateMessage, parsedEq, if_pos ids, Message.validate, Message.Refused, known,
    true_and, Ne, isDelete]
  split_ifs with empty long positive
  · simp [empty]
  · simp [long]
  · simp [empty, long, positive]
  · simp [positive]

/-- The SDK accepts what the gateway accepts, where the type is known or the content is
refused for its length. -/
theorem validations_agree_iff (reading : ℕ) (tenantId channelId senderId : Id16)
    (content : Bytes) (contentType : Byte) :
    (SdkCore.validateMessage content contentType.val = [] ↔
      validateMessage reading tenantId.val channelId.val senderId.val content contentType.val =
        .ok (.ok ())) ↔
      contentType.val ≤ 5 ∧ 0 < reading ∨ Message.Refused content contentType.val := by
  rw [SdkCore.validateMessage_eq_nil, validateMessage_eq_ok]
  by_cases refused : Message.Refused content contentType.val
  · simp [refused]
  · simp [refused]

/-- A content of a type that there is not. -/
theorem validations_disagree :
    SdkCore.validateMessage [1] 6 = [] ∧ ∀ tenantId channelId senderId : Id16,
      validateMessage 1700000000000 tenantId.val channelId.val senderId.val [1] 6 =
        .ok (.error (ascii "invalid_content_type")) :=
  ⟨by decide, fun _ _ _ => rfl⟩

/-! ## Channels -/

inductive ChannelType where
  | dm
  | group
  | broadcast
deriving DecidableEq, Repr

/-- `parse_channel_type`. -/
def ChannelType.parse : ℕ → Option ChannelType
  | 0 => some .dm
  | 1 => some .group
  | 2 => some .broadcast
  | _ => none

namespace Channel

def maxNameLen : ℕ := 128

/-- `Channel::validate` of a new channel, which has no members and a fixed `created_at`. -/
def validate (channelType : ChannelType) (name : Option Bytes) : Except Bytes Unit :=
  match channelType, name with
  | .dm, none => .ok ()
  | .dm, some _ => .error (ascii "invalid_channel")
  | _, none => .error (ascii "invalid_channel")
  | _, some name =>
      if name = [] ∨ maxNameLen < name.length then .error (ascii "invalid_channel") else .ok ()

end Channel

/-- Whether a binary can be read as a Rust `String`. -/
def isUtf8 (bytes : Bytes) : Bool :=
  (ByteArray.mk (bytes.map fun byte => UInt8.ofNat byte.val).toArray).validateUTF8

/-- The NIF `validate_channel`, whose `name` has to be a string. -/
def validateChannel (tenantId : Bytes) (channelType : ℕ) (name : Option Bytes) :
    Except Raise (Except Bytes Unit) :=
  if name.all isUtf8 then
    match ChannelType.parse channelType with
    | none => .ok (.error (ascii "invalid_channel_type"))
    | some channelType =>
        if tenantId.length = 16 then .ok (Channel.validate channelType name)
        else .ok (.error (ascii "invalid_channel"))
  else .error .argument

end Mercury
