import Mercury.Core.TimeBucket
import Mercury.Persistence.Messages

/-!
# The server-side sync engine

`Persistence.Sync`: the deltas of a channel since a clock reading, and the
deltas a reconnecting client pushes.
-/

namespace Mercury.Persistence.Sync

open Foundations Foundations.Program

def maxDeltas : ℕ := 100

/-- A delta of `get_deltas`: always a `MessageAppend`, its binaries encoded. -/
structure MessageDelta where
  messageId : Bytes
  senderId : Bytes
  encryptedContent : Bytes
  contentType : ℕ
  hlcWall : ℕ
deriving DecidableEq

/-- The reply `{:ok, deltas, server_hlc, has_more}`. -/
structure DeltaPage where
  deltas : List MessageDelta
  serverHlc : ℕ
  hasMore : Bool
deriving DecidableEq

/-- `first..last`, which counts down when `last` is the smaller one. -/
def bucketRange (first last : ℕ) : List ℕ :=
  if first ≤ last then List.range' first (last + 1 - first)
  else (List.range' last (first + 1 - last)).reverse

def fetchMessagesAfter (tenantId channelId : Bytes) (bucket sinceTs limit : ℕ) :
    Backed (List Message) := do
  match ← ask (.selectMessages tenantId channelId bucket limit) with
  | .ok page => pure ((page.map MessageRow.message).filter fun row => sinceTs < row.createdAt)
  | .error _ => pure []

/-- The flat map over the buckets. -/
def fetchBuckets (tenantId channelId : Bytes) (sinceTs limit : ℕ) :
    List ℕ → Backed (List Message)
  | [] => pure []
  | bucket :: later => do
      let rows ← fetchMessagesAfter tenantId channelId bucket sinceTs limit
      let rest ← fetchBuckets tenantId channelId sinceTs limit later
      pure (rows ++ rest)

/-- `Enum.sort_by` on `created_at`, which keeps the order of equal elements. -/
def sortByCreatedAt (rows : List Message) : List Message :=
  rows.insertionSort fun first second => first.createdAt ≤ second.createdAt

def toDelta (msg : Message) : MessageDelta where
  messageId := Base.encode16 msg.messageId
  senderId := Base.encode16 msg.senderId
  encryptedContent := Base.encode64 msg.encryptedContent
  contentType := msg.contentType
  hlcWall := msg.createdAt

def getDeltas (tenantId channelId : Bytes) (sinceHlcWall limit : ℕ) : Backed DeltaPage := do
  let limit := min limit maxDeltas
  let nowMs ← ask .systemTime
  let currentBucket ← ofExcept (TimeBucket.compute nowMs)
  let sinceBucket ← ofExcept (TimeBucket.compute sinceHlcWall)
  let rows ← fetchBuckets tenantId channelId sinceHlcWall (limit + 1)
    (bucketRange sinceBucket currentBucket)
  let deltas := (sortByCreatedAt rows).take (limit + 1)
  pure
    { deltas := (deltas.take limit).map toDelta
      serverHlc := nowMs
      hasMore := limit < deltas.length }

/-- A delta of `apply_deltas`, with the fields its clause reads. -/
inductive Delta where
  | messageAppend (messageId senderId encryptedContent : Option Bytes)
      (contentType hlcWall : Option ℕ)
  | reactionAdd (messageId userId emoji : Option Bytes)
  | readPositionUpdate (userId channelId lastReadMessageId : Option Bytes)
  | unknown
deriving DecidableEq

def decodeHexOrGenerate : Option Bytes → Backed Bytes
  | none => ask .generateMessageId
  | some hex =>
      match Base.decode16 hex with
      | some bin => pure bin
      | none => ask .generateMessageId

/-- `<<0::128>>`, the sender of a delta that names none. -/
def noSender : Bytes := List.replicate 16 0

def decodeHexOrDefault : Option Bytes → Bytes
  | none => noSender
  | some hex => (Base.decode16 hex).getD noSender

def decodeB64OrRaw : Option Bytes → Bytes
  | none => []
  | some val => (Base.decode64 val).getD val

def applySingleDelta (tenantId channelId : Bytes) : Delta → Backed (Except Bytes Unit)
  | .messageAppend messageId senderId encryptedContent contentType hlcWall => do
      let msgId ← decodeHexOrGenerate messageId
      let ts ← match hlcWall with
        | some wall => pure wall
        | none => ask .systemTime
      let bucket ← ofExcept (TimeBucket.compute ts)
      Messages.write tenantId channelId bucket
        { messageId := msgId
          senderId := decodeHexOrDefault senderId
          encryptedContent := decodeB64OrRaw encryptedContent
          contentType := contentType.getD 0
          replyTo := none
          createdAt := ts }
  | .reactionAdd messageId userId emoji => do
      match Base.decode16 (messageId.getD []), Base.decode16 (userId.getD []) with
      | some msgId, some userId =>
          let _ ← ask
            (.insertReaction tenantId channelId msgId userId emoji)
          pure (.ok ())
      | _, _ => pure (.ok ())
  | .readPositionUpdate userId readChannelId lastReadMessageId => do
      match Base.decode16 (userId.getD []), Base.decode16 (readChannelId.getD []),
        Base.decode16 (lastReadMessageId.getD []) with
      | some userId, some readChannelId, some msgId =>
          ask (.updateReadPosition tenantId userId readChannelId msgId)
      | _, _, _ => pure (.ok ())
  | .unknown => pure (.ok ())

/-- Whether `Enum.count` counts a result: `:ok` and `{:error, _}` are both truthy. -/
def isTruthy : Except Bytes Unit → Bool
  | .ok _ => true
  | .error _ => true

def countApplied (tenantId channelId : Bytes) : List Delta → Backed ℕ
  | [] => pure 0
  | delta :: later => do
      let result ← applySingleDelta tenantId channelId delta
      let count ← countApplied tenantId channelId later
      pure (if isTruthy result then count + 1 else count)

/-- `apply_deltas`; the error is `:too_large`. -/
def applyDeltas (tenantId channelId : Bytes) (deltas : List Delta) :
    Backed (Except Unit ℕ) := do
  if 1000 < deltas.length then pure (.error ())
  else
    let count ← countApplied tenantId channelId deltas
    pure (.ok count)

end Mercury.Persistence.Sync
