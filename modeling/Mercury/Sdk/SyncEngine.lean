import Mercury.Sdk.Device

/-!
# Sending and syncing

`Channel.send`, `Channel.sync` and `Channel.pushDeltas` of `channel.ts`, and
`SyncEngine.syncChannel` of `sync.ts`. The handlers of a sent message, which are
callbacks of the application, are left out.
-/

namespace Mercury.Sdk

open Gateway Foundations Foundations.Program

structure Channel where
  channelId : String
  tenantId : Bytes
  userId : Bytes
  mlsReady : Bool
  hasSyncEngine : Bool

/-- A delta of `Channel.sync`, always a `MessageAppend`. -/
structure SyncDelta where
  messageId : Bytes
  senderId : Bytes
  encryptedContent : Bytes
  contentType : ℕ
  hlcWall : ℕ
deriving DecidableEq

structure SyncResult where
  deltas : List SyncDelta
  serverHlc : ℕ
  hasMore : Bool
deriving DecidableEq

/-- What `syncChannel` resolves to. -/
structure SyncCount where
  received : ℕ
  pushed : ℕ
deriving DecidableEq

/-- The value, or an exception where there is none. -/
def orThrow {Result : Type} : Option Result → Script Result
  | some result => pure result
  | none => fail .invalid

namespace Channel

variable (codec : Codec) (channel : Channel)

def topic : Bytes :=
  ascii "channel:" ++ ascii channel.channelId

def channelIdBytes : Bytes :=
  hexToBytes (ascii channel.channelId)

/-- The payload that `send` queues while the transport is disconnected. -/
def offlinePayload (content : Bytes) (contentType : ℕ) (msgId : Bytes) (now : ℕ) : Record :=
  [("content", .text content), ("content_type", .number contentType),
    ("message_id", .text msgId), ("hlc_wall", .number now)]

def sendOffline (content : Bytes) (contentType : ℕ) : Script Bytes := do
  let random ← request (.randomBytes 16)
  let msgId := bytesToHex random
  let now ← request .now
  request (.queueOffline channel.channelId "msg:send"
    (offlinePayload content contentType msgId now))
  pure msgId

def sendOnline (content : Bytes) : Script Bytes := do
  let ts ← request .now
  let msgId ← request (.randomBytes 16)
  let payload ← request (.encrypt content)
  let reply ← request (.push channel.topic Event.msgSend (codec.encodeEnvelope
    { tenantId := channel.tenantId
      channelId := channel.channelIdBytes
      senderId := channel.userId
      messageId := msgId
      timestamp := ts
      payload := payload }))
  pure (if 16 ≤ reply.length then bytesToHex (reply.take 16) else bytesToHex msgId)

/-- `send`, which resolves to the id of the message. -/
def send (content : Bytes) (contentType : ℕ) : Script Bytes := do
  if channel.mlsReady then
    if channel.hasSyncEngine then
      if ← request .isConnected then channel.sendOnline codec content
      else channel.sendOffline content contentType
    else channel.sendOnline codec content
  else fail .notReady

def syncPayload (lastHlcWall limit : ℕ) : Bytes :=
  littleEndian 8 lastHlcWall ++ littleEndian 4 limit ++ littleEndian 4 0

def toSyncDelta (envelope : Envelope) : SyncDelta where
  messageId := bytesToHex envelope.messageId
  senderId := bytesToHex envelope.senderId
  encryptedContent := envelope.payload
  contentType := 0
  hlcWall := envelope.timestamp

/-- The reply to a `sync:request`, read from its bytes. -/
def readSyncReply (reply : Bytes) : Option SyncResult :=
  if reply.length < 8 then none
  else do
    let envelopes ← unpackEnvelopes (reply.drop 9)
    let decoded ← envelopes.mapM codec.decodeEnvelope
    pure
      { deltas := decoded.map toSyncDelta
        serverHlc := fromLittleEndian (reply.take 8)
        hasMore := reply[8]? = some 1 }

def sync (lastHlcWall limit : ℕ) : Script SyncResult := do
  let reply ← request (.push channel.topic Event.syncRequest (syncPayload lastHlcWall limit))
  orThrow (readSyncReply codec reply)

/-- The envelope of a queued delta; `now` is the clock where it has no time. -/
def deltaEnvelope (delta : Record) (now : ℕ) : Option Envelope := do
  let messageId ← (delta.get "message_id").hexToBytes
  let timestamp ← (delta.get "hlc_wall").bigInt now
  pure
    { tenantId := channel.tenantId
      channelId := channel.channelIdBytes
      senderId := channel.userId
      messageId := messageId
      timestamp := toUint64 timestamp
      payload := match delta.get "encrypted_content" with
        | .bytes content => content
        | _ => [] }

def encodeDeltas : List Record → Script (List Bytes)
  | [] => pure []
  | delta :: later => do
      let now ← request .now
      let envelope ← orThrow (channel.deltaEnvelope delta now)
      let rest ← encodeDeltas later
      pure (codec.encodeEnvelope envelope :: rest)

/-- The count of accepted deltas in the reply to a `sync:push`. -/
def readAccepted (reply : Bytes) : Option ℕ :=
  if reply.length < 12 then none else some (fromLittleEndian (reply.take 4))

def pushDeltas (deltas : List Record) : Script ℕ := do
  let envelopes ← channel.encodeDeltas codec deltas
  let reply ← request (.push channel.topic Event.syncPush (packEnvelopes envelopes))
  orThrow (readAccepted reply)

end Channel

namespace SyncEngine

variable (codec : Codec) (channel : Channel) (channelId : String)

/-- The message that `syncChannel` stores for a delta. -/
def received (delta : SyncDelta) : StoredMessage where
  channelId := channelId
  messageId := delta.messageId
  sender := delta.senderId
  content := delta.encryptedContent
  contentType := delta.contentType
  timestamp := delta.hlcWall

def store : List SyncDelta → Script Unit
  | [] => pure ()
  | delta :: later => do
      request (.writeMessage (received channelId delta))
      store later

/-- The loop of the pull phase, for that many rounds: the count of messages received
and the last clock of the server. -/
def pull : ℕ → ℕ → Script (ℕ × ℕ)
  | 0, _ => fail .unfinished
  | rounds + 1, currentWall => do
      let result ← channel.sync codec currentWall 100
      store channelId result.deltas
      if result.hasMore then
        let later ← pull rounds result.serverHlc
        pure (result.deltas.length + later.1, later.2)
      else pure (result.deltas.length, result.serverHlc)

/-- The push phase: the count of accepted deltas. -/
def push : Script ℕ := do
  let pending ← request .drain
  let deltas := pending.filter fun entry => entry.channelId = channelId
  match deltas.getLast? with
  | none => pure 0
  | some last => do
      let accepted ← channel.pushDeltas codec (deltas.map QueuedMessage.payload)
      request (.ack last.id)
      pure accepted

/-- The cursor moves only forward. -/
def updateSyncState (lastWall currentWall : ℕ) : Script Unit :=
  if lastWall < currentWall then request (.setSyncState channelId currentWall) else pure ()

def syncChannel (rounds : ℕ) : Script SyncCount := do
  let syncState ← request (.getSyncState channelId)
  let lastWall := syncState.getD 0
  let (received, currentWall) ← pull codec channel channelId rounds lastWall
  updateSyncState channelId lastWall currentWall
  let pushed ← push codec channel channelId
  request (.evictOldMessages channelId)
  pure { received := received, pushed := pushed }

end SyncEngine

end Mercury.Sdk
