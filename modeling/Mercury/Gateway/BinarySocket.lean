import Mercury.Gateway.Call

/-!
# The binary socket

`Gateway.BinarySocket`: frames in, calls to the rest of the system, frames out.
Every dispatch clause is a definition of its own, and the order of the clauses
is the order of the source.
-/

namespace Mercury.Gateway

open Foundations Foundations.Program Persistence

/-- An entry of `topic_ids`; a lobby has neither a channel id nor a PubSub topic. -/
structure TopicInfo where
  topic : Bytes
  channelId : Option Bytes
  pubsub : Option Bytes
deriving DecidableEq

/-- The state of a socket. `init` provisions the device, which fails unless the
three ids have sixteen bytes. -/
structure Socket where
  tenantId : Id16
  userId : Id16
  deviceId : Id16
  topics : Finmap fun _ : Bytes => ℕ
  nextTopicId : ℕ
  topicIds : Finmap fun _ : ℕ => TopicInfo
  pubsubTopics : Finmap fun _ : Bytes => ℕ
  missedHeartbeats : ℕ

/-- The state that `init` builds. -/
def Socket.init (tenantId userId deviceId : Id16) : Socket where
  tenantId := tenantId
  userId := userId
  deviceId := deviceId
  topics := ∅
  nextTopicId := 1
  topicIds := ∅
  pubsubTopics := ∅
  missedHeartbeats := 0

/-- The pushed frames and the next state of `{:ok, state}` and `{:push, frames, state}`. -/
structure Reaction where
  pushed : List Bytes
  socket : Socket

namespace FrameType

def join : Byte := 0x01
def leave : Byte := 0x02
def reply : Byte := 0x03
def push : Byte := 0x04
def broadcast : Byte := 0x05
def heartbeat : Byte := 0x06

end FrameType

def statusOk : Byte := 0x00
def statusError : Byte := 0x01

namespace Event

def msgSend : Byte := 0x01
def msgNew : Byte := 0x02
def msgHistory : Byte := 0x03
def msgTyping : Byte := 0x04
def msgRead : Byte := 0x05
def mlsKeyPackage : Byte := 0x06
def mlsFetchKp : Byte := 0x07
def mlsCommit : Byte := 0x08
def mlsWelcome : Byte := 0x09
def mlsRemove : Byte := 0x0A
def syncRequest : Byte := 0x0B
def syncPush : Byte := 0x0C
def syncCursor : Byte := 0x0D
def chCreate : Byte := 0x0E
def presenceJoin : Byte := 0x0F
def statusUpdate : Byte := 0x11
def mlsMembers : Byte := 0x12
def mlsGroupInfo : Byte := 0x13
def mlsCek : Byte := 0x14

/-- The events that `handle_push` rejects on a topic without a channel id. -/
def requiresChannel : List Byte :=
  [msgSend, msgHistory, msgTyping, msgRead, mlsCommit, mlsWelcome, mlsRemove, mlsMembers,
    mlsGroupInfo, mlsCek, syncRequest, syncPush, syncCursor]

end Event

/-! ## Helpers -/

def replyFrame (ref topicId : ℕ) (status : Byte) (data : Bytes) : Bytes :=
  FrameType.reply :: (littleEndian 4 ref ++ littleEndian 2 topicId ++ status :: data)

def replyOk (socket : Socket) (ref topicId : ℕ) (data : Bytes) : Reaction where
  pushed := [replyFrame ref topicId statusOk data]
  socket := socket

def replyError (socket : Socket) (ref topicId : ℕ) (reason : Bytes) : Reaction where
  pushed := [replyFrame ref topicId statusError reason]
  socket := socket

/-- A reply tells its status and its data. -/
theorem replyFrame_inj {ref topicId : ℕ} {status other : Byte} {data rest : Bytes}
    (same : replyFrame ref topicId status data = replyFrame ref topicId other rest) :
    status = other ∧ data = rest := by
  simpa [replyFrame] using same

theorem replyError_ne_ok {socket : Socket} {ref topicId : ℕ} {reason reply : Bytes} :
    (replyError socket ref topicId reason).pushed ≠ [replyFrame ref topicId statusOk reply] := by
  intro same
  have statuses := (replyFrame_inj (List.singleton_inj.mp same)).1
  simp [statusError, statusOk] at statuses

def noReply (socket : Socket) : Reaction where
  pushed := []
  socket := socket

def channelIdToBin (hexChannelId : Bytes) : Option Bytes :=
  match Base.decode16 hexChannelId with
  | some bin => if bin.length = 16 then some bin else none
  | none => none

/-- `info.channel_id` and `info.pubsub`, which raise where the key is missing. -/
def fetch : Option Bytes → Handler Bytes
  | some value => pure value
  | none => fail .key

theorem fetch_bind {Result : Type} (value : Bytes) (next : Bytes → Handler Result) :
    fetch (some value) >>= next = next value :=
  rfl

/-- The rest of a binary that starts with `start`. -/
def stripPrefix (start text : Bytes) : Option Bytes :=
  if start.isPrefixOf text then some (text.drop start.length) else none

theorem stripPrefix_append (start rest : Bytes) :
    stripPrefix start (start ++ rest) = some rest := by
  simp [stripPrefix]

theorem eq_append_of_stripPrefix {start text rest : Bytes}
    (stripped : stripPrefix start text = some rest) : text = start ++ rest := by
  unfold stripPrefix at stripped
  split at stripped
  · next isPrefix =>
      rcases List.isPrefixOf_iff_prefix.mp isPrefix with ⟨tail, rfl⟩
      rw [List.drop_left] at stripped
      rw [Option.some.inj stripped]
  · cases stripped

def allocateTopicId (socket : Socket) : Option (ℕ × Socket) :=
  if 0xFFFF < socket.nextTopicId then none
  else some (socket.nextTopicId, { socket with nextTopicId := socket.nextTopicId + 1 })

def packEnvelopes (envelopes : List Bytes) : Bytes :=
  littleEndian 4 envelopes.length ++
    (envelopes.map fun env => littleEndian 4 env.length ++ env).flatten

def unpackEnvelopesLoop (rest : Bytes) : ℕ → List Bytes → List Bytes
  | 0, acc => acc.reverse
  | count + 1, acc =>
      let len := fromLittleEndian (rest.take 4)
      if 4 ≤ rest.length ∧ len ≤ (rest.drop 4).length then
        unpackEnvelopesLoop ((rest.drop 4).drop len) count ((rest.drop 4).take len :: acc)
      else acc.reverse

def unpackEnvelopes (payload : Bytes) : List Bytes :=
  if 4 ≤ payload.length then
    unpackEnvelopesLoop (payload.drop 4) (fromLittleEndian (payload.take 4)) []
  else []

def publishCacheInvalidation (tenantId type targetId : Bytes) : Handler Unit := do
  if ← call .natsRunning then
    let _ ← call (.natsPublish (ascii "mercury.cache.invalidate")
      (.cacheInvalidation type (Base.encode16 tenantId) (Base.encode16 targetId)))

def publishSyncFanout (socket : Socket) (deltas : List Sync.Delta) : Handler Unit := do
  if ← call .natsRunning then
    let subject := ascii "mercury.sync." ++ Base.encode16 socket.tenantId.val ++ ascii "." ++
      Base.encode16 socket.userId.val
    let _ ← call (.natsPublish subject (.syncFanout (Base.encode16 socket.deviceId.val) deltas))

/-- `Persistence.Events.publish_message`. -/
def publishMessage (tenantId channelId : Bytes) (msg : Message) : Handler Unit := do
  let subject := ascii "mercury." ++ Base.encode16 tenantId ++ ascii ".messages." ++
    Base.encode16 channelId
  let _ ← call (.natsPublish subject (.message (Base.encode16 msg.messageId)
    (Base.encode16 msg.senderId) msg.contentType msg.createdAt))

def persistMessage (tenantId channelId : Bytes) (bucket : ℕ) (msg : Message) :
    Handler Unit := do
  if ← call .natsRunning then
    publishMessage tenantId channelId msg
  if ← call .scyllaEnabled then
    call (.startTask (.persistMessage tenantId channelId bucket msg))
  else
    call (.invalidateRecent tenantId channelId)
    publishCacheInvalidation tenantId (ascii "recent") channelId

/-- What a task of `Gateway.TaskSupervisor` does. -/
def runTask : BackgroundTask → Handler Unit
  | .persistMessage tenantId channelId bucket msg => do
      match ← call (.writeMessage tenantId channelId bucket msg) with
      | .ok _ =>
          call (.invalidateRecent tenantId channelId)
          publishCacheInvalidation tenantId (ascii "recent") channelId
      | .error _ => pure ()
  | .updateReadPosition tenantId userId channelId messageId => do
      let _ ← call (.updateReadPosition tenantId userId channelId messageId)

def persistReadPosition (tenantId userId channelId messageId : Bytes) : Handler Unit := do
  if ← call .scyllaEnabled then
    match channelIdToBin channelId with
    | some channelIdBin =>
        call (.startTask (.updateReadPosition tenantId userId channelIdBin messageId))
    | none => pure ()

def warmUserCache (tenantId userId : Bytes) : Handler Unit := do
  if ← call (.getCachedUser tenantId userId) then pure ()
  else match ← call (.findUser tenantId userId) with
    | .ok none => pure ()
    | .ok (some user) => call (.putCachedUser tenantId userId user)
    | .error _ => pure ()

/-! ## Join and leave -/

/-- The reason of a refused join: a text, or an atom that no frame can be built from. -/
inductive JoinError where
  | text (reason : Bytes)
  | invalidChannelId
deriving DecidableEq

def channelTopic (tenantId channelId : Bytes) : Bytes :=
  Base.encode16 tenantId ++ ascii ":channel:" ++ channelId

def presenceTopic (tenantId channelId : Bytes) : Bytes :=
  Base.encode16 tenantId ++ ascii ":presence:" ++ channelId

theorem channelTopic_injective {tid left right : Bytes}
    (same : channelTopic tid left = channelTopic tid right) : left = right := by
  simpa [channelTopic] using same

theorem presenceTopic_injective {tid left right : Bytes}
    (same : presenceTopic tid left = presenceTopic tid right) : left = right := by
  simpa [presenceTopic] using same

theorem presenceTopic_ne_channelTopic (tid left right : Bytes) :
    presenceTopic tid left ≠ channelTopic tid right := by
  intro same
  simp only [presenceTopic, channelTopic, List.append_assoc] at same
  have rest := List.append_cancel_left same
  have letter : (112 : Byte) = 99 := (List.cons.inj (List.cons.inj rest).2).1
  exact absurd letter (by decide)

/-- The socket with `info` as the entry of `topicId`. -/
def Socket.register (socket : Socket) (topicId : ℕ) (info : TopicInfo) : Socket :=
  { socket with
    topics := socket.topics.insert info.topic topicId
    topicIds := socket.topicIds.insert topicId info
    pubsubTopics := match info.pubsub with
      | some pubsub => socket.pubsubTopics.insert pubsub topicId
      | none => socket.pubsubTopics }

def joinChannel (topic channelId : Bytes) (socket : Socket) :
    Handler (Except JoinError (ℕ × Socket)) := do
  match channelIdToBin channelId with
  | none => pure (.error .invalidChannelId)
  | some channelIdBin =>
      match allocateTopicId socket with
      | none => pure (.error (.text (ascii "too_many_topics")))
      | some (topicId, allocated) =>
          match ← call (.isMember socket.tenantId.val channelIdBin socket.userId.val) with
          | .ok true => do
              let pubsubTopic := channelTopic socket.tenantId.val channelId
              call (.subscribe pubsubTopic)
              warmUserCache socket.tenantId.val socket.userId.val
              call (.broadcastFrom pubsubTopic Event.presenceJoin socket.userId.val)
              pure (.ok (topicId, allocated.register topicId
                { topic := topic, channelId := some channelId, pubsub := some pubsubTopic }))
          | .ok false => pure (.error (.text (ascii "not_a_member")))
          | .error _ => pure (.error (.text (ascii "membership_check_failed")))

def joinLobby (topic : Bytes) (socket : Socket) : Except JoinError (ℕ × Socket) :=
  match allocateTopicId socket with
  | none => .error (.text (ascii "too_many_topics"))
  | some (topicId, allocated) =>
      .ok (topicId, allocated.register topicId
        { topic := topic, channelId := none, pubsub := none })

def joinPresence (topic channelId : Bytes) (socket : Socket) :
    Handler (Except JoinError (ℕ × Socket)) := do
  match allocateTopicId socket with
  | none => pure (.error (.text (ascii "too_many_topics")))
  | some (topicId, allocated) => do
      let pubsubTopic := presenceTopic socket.tenantId.val channelId
      call (.subscribe pubsubTopic)
      pure (.ok (topicId, allocated.register topicId
        { topic := topic, channelId := some channelId, pubsub := some pubsubTopic }))

def doJoin (topic : Bytes) (socket : Socket) : Handler (Except JoinError (ℕ × Socket)) :=
  match stripPrefix (ascii "channel:") topic with
  | some channelId => joinChannel topic channelId socket
  | none =>
      match stripPrefix (ascii "lobby:") topic with
      | some _ => pure (joinLobby topic socket)
      | none =>
          match stripPrefix (ascii "presence:") topic with
          | some channelId => joinPresence topic channelId socket
          | none => pure (.error (.text (ascii "unknown_topic")))

def handleJoin (ref : ℕ) (topic : Bytes) (socket : Socket) : Handler Reaction := do
  match ← doJoin topic socket with
  | .ok (topicId, joined) => pure (replyOk joined ref topicId [])
  | .error (.text reason) => pure (replyError socket ref 0 reason)
  -- the atom is not a binary, and no clause rescues here
  | .error .invalidChannelId => fail .argument

def Socket.unregister (socket : Socket) (topicId : ℕ) (info : TopicInfo) : Socket :=
  { socket with
    topics := socket.topics.erase info.topic
    topicIds := socket.topicIds.erase topicId
    pubsubTopics := match info.pubsub with
      | some pubsub => socket.pubsubTopics.erase pubsub
      | none => socket.pubsubTopics }

def handleLeave (topicId : ℕ) (socket : Socket) : Handler Reaction := do
  match socket.topicIds.lookup topicId with
  | none => pure (noReply socket)
  | some info =>
      match info.pubsub with
      | some pubsub => call (.unsubscribe pubsub)
      | none => pure ()
      pure (noReply (socket.unregister topicId info))

/-! ## Message handlers -/

section Dispatch

variable (native : Native) (ref topicId : ℕ) (payload : Bytes) (info : TopicInfo) (socket : Socket)

def dispatchMsgSend : Handler Reaction := do
  let channelId ← fetch info.channelId
  match channelIdToBin channelId with
  | none => pure (replyError socket ref topicId (ascii "invalid_channel_id"))
  | some channelIdBin =>
      match native.envelopeDecode payload with
      | .error reason => pure (replyError socket ref topicId reason)
      -- no clause of the `with` or its `else` accepts the failure
      | .ok (.error _) => fail .noMatch
      | .ok (.ok envelope) => do
          let reading ← call .nativeTime
          match ← ofExcept (validateMessage reading socket.tenantId.val channelIdBin
            socket.userId.val envelope.payload 0) with
          | .error reason => pure (replyError socket ref topicId reason)
          | .ok _ =>
              if ← call (.allow socket.tenantId.val socket.userId.val) then
                let bucket ← ofExcept (TimeBucket.compute envelope.timestamp)
                persistMessage socket.tenantId.val channelIdBin bucket
                  { messageId := envelope.messageId
                    senderId := socket.userId.val
                    encryptedContent := envelope.payload
                    contentType := 0
                    replyTo := none
                    createdAt := envelope.timestamp }
                let pubsub ← fetch info.pubsub
                call (.broadcast pubsub Event.msgNew (native.envelopeEncode
                  { tenantId := socket.tenantId.val
                    channelId := channelIdBin
                    senderId := socket.userId.val
                    messageId := envelope.messageId
                    timestamp := envelope.timestamp
                    payload := envelope.payload }))
                pure (replyOk socket ref topicId envelope.messageId)
              else pure (replyError socket ref topicId (ascii "rate_limited"))

/-- The envelope of a stored message. -/
def encodeMessage (channelIdBin : Bytes) (msg : Message) : Bytes :=
  native.envelopeEncode
    { tenantId := socket.tenantId.val
      channelId := channelIdBin
      senderId := msg.senderId
      messageId := msg.messageId
      timestamp := msg.createdAt
      payload := msg.encryptedContent }

def dispatchMsgHistory : Handler Reaction := do
  let channelId ← fetch info.channelId
  match channelIdToBin channelId with
  | none => pure (replyError socket ref topicId (ascii "invalid_channel_id"))
  | some channelIdBin =>
      let limit := if 4 ≤ payload.length then fromLittleEndian (payload.take 4) else 50
      let msgs ← call (.readRecent socket.tenantId.val channelIdBin (min limit 100))
      pure (replyOk socket ref topicId
        (packEnvelopes (msgs.map (encodeMessage native socket channelIdBin))))

def dispatchMsgTyping : Handler Reaction := do
  let pubsub ← fetch info.pubsub
  call (.broadcastFrom pubsub Event.msgTyping (native.typingEncode socket.userId.val))
  pure (noReply socket)

/-- The second component of what `read_receipt_decode` returns, which the message of a
failure is too. -/
def receiptMessageId : Except Bytes (Bytes × Bytes) → Bytes
  | .ok (_, messageId) => messageId
  | .error message => message

def dispatchMsgRead : Handler Reaction := do
  match native.readReceiptDecode payload with
  | .error reason => pure (replyError socket ref topicId reason)
  | .ok receipt => do
      let messageId := receiptMessageId receipt
      let channelId ← fetch info.channelId
      persistReadPosition socket.tenantId.val socket.userId.val channelId messageId
      let pubsub ← fetch info.pubsub
      call (.broadcastFrom pubsub Event.msgRead
        (native.readReceiptEncode socket.userId.val messageId))
      pure (replyOk socket ref topicId [])

def dispatchMlsKeyPackage : Handler Reaction := do
  match native.mlsKeyPackageDecode payload with
  | .error reason => pure (replyError socket ref topicId reason)
  -- the failure is uploaded, and Ecto cannot cast it
  | .ok (.error _) => fail .cast
  | .ok (.ok keyPackage) =>
      match ← call (.uploadKeyPackage socket.tenantId.val socket.deviceId.val keyPackage) with
      | .ok _ => do
          match info.pubsub with
          | some pubsub => call (.broadcast pubsub Event.mlsKeyPackage socket.userId.val)
          | none => pure ()
          pure (replyOk socket ref topicId [])
      | .error reason => pure (replyError socket ref topicId reason)

def dispatchMlsFetchKp : Handler Reaction := do
  if payload.length = 16 then
    let packages ← call (.fetchKeyPackages socket.tenantId.val payload)
    pure (replyOk socket ref topicId (native.mlsKeyPackageListEncode packages))
  else pure (replyOk socket ref topicId (native.mlsKeyPackageListEncode []))

def dispatchMlsCommit : Handler Reaction := do
  match native.mlsCommitDecode payload with
  | .ok _ => do
      let pubsub ← fetch info.pubsub
      call (.broadcastFrom pubsub Event.mlsCommit payload)
      pure (replyOk socket ref topicId [])
  | .error reason => pure (replyError socket ref topicId reason)

/-- The payload holds more than two bytes, the first two of them a length. -/
def dispatchMlsWelcome : Handler Reaction := do
  let uidLen := fromLittleEndian (payload.take 2)
  if uidLen ≤ (payload.drop 2).length then
    let pubsub ← fetch info.pubsub
    call (.broadcast pubsub Event.mlsWelcome payload)
    pure (replyOk socket ref topicId [])
  else pure (replyError socket ref topicId (ascii "malformed_welcome"))

/-- The payload starts with a user id. -/
def dispatchMlsRemove : Handler Reaction := do
  let userId := payload.take 16
  let commit := payload.drop 16
  let channelId ← fetch info.channelId
  match channelIdToBin channelId with
  | none => pure (replyError socket ref topicId (ascii "invalid_channel_id"))
  | some channelIdBin =>
      match ← call (.getRole socket.tenantId.val channelIdBin socket.userId.val) with
      | .role role =>
          if 1 ≤ role then
            match native.mlsCommitDecode commit with
            | .ok _ => do
                -- a failed removal is only logged
                let _ ← call (.removeMember socket.tenantId.val channelIdBin userId)
                let pubsub ← fetch info.pubsub
                call (.broadcastFrom pubsub Event.mlsCommit commit)
                pure (replyOk socket ref topicId [])
            | .error reason => pure (replyError socket ref topicId reason)
          else pure (replyError socket ref topicId (ascii "unauthorized"))
      | .notFound => pure (replyError socket ref topicId (ascii "unauthorized"))
      | .dbError => pure (replyError socket ref topicId (ascii "unauthorized"))

/-- The envelope of a delta, unless a field does not decode. -/
def encodeDelta (channelIdBin : Bytes) (delta : Sync.MessageDelta) : Option Bytes := do
  let messageId ← Base.decode16 delta.messageId
  let senderId ← Base.decode16 delta.senderId
  let content ← Base.decode64 delta.encryptedContent
  pure (native.envelopeEncode
    { tenantId := socket.tenantId.val
      channelId := channelIdBin
      senderId := senderId
      messageId := messageId
      timestamp := delta.hlcWall
      payload := content })

/-- What the reply to a `sync:request` carries. -/
structure SyncReply where
  mergedWall : ℕ
  hasMore : Bool
  envelopes : List Bytes
deriving DecidableEq

def SyncReply.encode (reply : SyncReply) : Bytes :=
  littleEndian 8 reply.mergedWall ++ (if reply.hasMore then 1 else 0) ::
    packEnvelopes reply.envelopes

def syncReply (channelIdBin : Bytes) (sinceWall limit lastCounter : ℕ) : Handler SyncReply := do
  let page ← call (.getDeltas socket.tenantId.val channelIdBin sinceWall (min limit 100))
  let systemTime ← call .systemTime
  let reading ← call .nativeTime
  match Hlc.merge native.build reading ⟨systemTime, 0, socket.userId⟩
    ⟨sinceWall, lastCounter, socket.userId⟩ with
  | none => fail .panicked
  | some merged =>
      pure
        { mergedWall := merged.wallClockMs
          hasMore := page.hasMore
          envelopes := page.deltas.filterMap (encodeDelta native socket channelIdBin) }

def dispatchSyncRequest : Handler Reaction := do
  let channelId ← fetch info.channelId
  match channelIdToBin channelId with
  | none => pure (replyError socket ref topicId (ascii "invalid_channel_id"))
  | some channelIdBin =>
      let full := 16 ≤ payload.length
      let sinceWall := if full then fromLittleEndian (payload.take 8) else 0
      let limit := if full then fromLittleEndian ((payload.drop 8).take 4) else 100
      let lastCounter := if full then fromLittleEndian ((payload.drop 12).take 4) else 0
      let reply ← syncReply native socket channelIdBin sinceWall limit lastCounter
      pure (replyOk socket ref topicId reply.encode)

/-- The deltas of the pushed envelopes. A decoder that raises is skipped; one that fails
matches no clause of the `case`, which raises for the whole batch. -/
def pushedDeltas : List Bytes → Except Raise (List Sync.Delta)
  | [] => .ok []
  | envelope :: later =>
      match native.envelopeDecode envelope with
      | .ok (.ok decoded) => do
          let deltas ← pushedDeltas later
          .ok (.messageAppend (some (Base.encode16 decoded.messageId))
            (some (Base.encode16 decoded.senderId)) (some (Base.encode64 decoded.payload))
            (some 0) (some decoded.timestamp) :: deltas)
      | .ok (.error _) => .error .noMatch
      | .error _ => pushedDeltas later

/-- The count and the clock of the reply to a `sync:push`, unless the batch is too large. -/
def syncPushed (channelIdBin : Bytes) (deltas : List Sync.Delta) :
    Handler (Option (ℕ × ℕ)) := do
  match ← call (.applyDeltas socket.tenantId.val channelIdBin deltas) with
  | .error _ => pure none
  | .ok count =>
      publishSyncFanout socket deltas
      let systemTime ← call .systemTime
      let reading ← call .nativeTime
      match Hlc.tick reading ⟨systemTime, 0, socket.userId⟩ with
      | none => fail .panicked
      | some clock => pure (some (count, clock.wallClockMs))

def dispatchSyncPush : Handler Reaction := do
  let channelId ← fetch info.channelId
  match channelIdToBin channelId with
  | none => pure (replyError socket ref topicId (ascii "invalid_channel_id"))
  | some channelIdBin =>
      let deltas ← ofExcept (pushedDeltas native (unpackEnvelopes payload))
      match ← syncPushed socket channelIdBin deltas with
      | some (count, wall) =>
          pure (replyOk socket ref topicId (littleEndian 4 count ++ littleEndian 8 wall))
      | none => pure (replyError socket ref topicId (ascii "batch_too_large"))

def dispatchSyncCursor : Handler Reaction := do
  match info.channelId with
  | none => pure (noReply socket)
  | some channelId =>
      let full := 12 ≤ payload.length
      let wall := if full then fromLittleEndian (payload.take 8) else 0
      let counter := if full then fromLittleEndian ((payload.drop 8).take 4) else 0
      match channelIdToBin channelId with
      | none => pure (noReply socket)
      | some channelIdBin => do
          let _ ← call (.updateCursor socket.tenantId.val socket.userId.val
            socket.deviceId.val channelIdBin wall counter)
          pure (noReply socket)

/-- The channel name of a `ch:create` payload. -/
def createName (rest : Bytes) : Option Bytes :=
  let nameLen := fromLittleEndian (rest.take 2)
  if 2 ≤ rest.length ∧ nameLen ≤ (rest.drop 2).length then some ((rest.drop 2).take nameLen)
  else none

def dispatchChCreate : Handler Reaction := do
  match payload with
  | [] => fail .noMatch
  | channelType :: rest =>
      match ← ofExcept (validateChannel socket.tenantId.val channelType.val
        (createName rest)) with
      | .error reason => pure (replyError socket ref topicId reason)
      | .ok _ => do
          let channelId ← call .generateChannelId
          -- a failed insert is only logged
          let _ ← call (.addMember socket.tenantId.val channelId socket.userId.val)
          pure (replyOk socket ref topicId channelId)

def dispatchPresenceJoin : Handler Reaction := do
  match info.channelId with
  | some _ => do
      let pubsub ← fetch info.pubsub
      let lastSeen ← call .systemTime
      call (.track pubsub (Base.encode16 socket.userId.val)
        (Base.encode16 socket.deviceId.val) lastSeen)
  | none => pure ()
  pure (replyOk socket ref topicId [])

def dispatchStatusUpdate (status : Byte) : Handler Reaction := do
  match info.pubsub with
  | some pubsub =>
      call (.updatePresence pubsub (Base.encode16 socket.userId.val)
        (if status = 1 then .away else .online))
  | none => pure ()
  pure (replyOk socket ref topicId [])

/-- A sixteen-byte segment; a longer binary is cut, a shorter one raises. -/
def segment16 (bytes : Bytes) : Handler Bytes :=
  if 16 ≤ bytes.length then pure (bytes.take 16) else fail .argument

def packMembers : List Bytes → Handler Bytes
  | [] => pure []
  | memberId :: later => do
      let first ← segment16 memberId
      let rest ← packMembers later
      pure (first ++ rest)

def dispatchMlsMembers : Handler Reaction := do
  let channelId ← fetch info.channelId
  match channelIdToBin channelId with
  | none => pure (replyError socket ref topicId (ascii "invalid_channel_id"))
  | some channelIdBin => do
      let listing ← call (.listMembers socket.tenantId.val channelIdBin)
      let memberIds := match listing with
        | .ids memberIds => memberIds
        | .empty => []
        | .unavailable => []
      let count := min memberIds.length 1000
      let packed ← packMembers (memberIds.take count)
      pure (replyOk socket ref topicId (littleEndian 2 count ++ packed))

def dispatchMlsGroupInfo : Handler Reaction := do
  let channelId ← fetch info.channelId
  match channelIdToBin channelId with
  | none => pure (replyError socket ref topicId (ascii "invalid_channel_id"))
  | some channelIdBin => do
      call (.setMlsCreator socket.tenantId.val channelIdBin socket.userId.val)
      match ← call (.getMlsCreator socket.tenantId.val channelIdBin) with
      | some creator =>
          if creator = socket.userId.val then pure (replyOk socket ref topicId [1])
          else do
            let creator ← segment16 creator
            pure (replyOk socket ref topicId (0 :: creator))
      | none => pure (replyOk socket ref topicId [1])

def dispatchMlsCek : Handler Reaction := do
  let pubsub ← fetch info.pubsub
  call (.broadcast pubsub Event.mlsCek payload)
  pure (replyOk socket ref topicId [])

/-- The dispatch clauses, in the order of the source. -/
def dispatch (event : Byte) : Handler Reaction :=
  if event = Event.msgSend then dispatchMsgSend native ref topicId payload info socket
  else if event = Event.msgHistory then dispatchMsgHistory native ref topicId payload info socket
  else if event = Event.msgTyping then dispatchMsgTyping native info socket
  else if event = Event.msgRead then dispatchMsgRead native ref topicId payload info socket
  else if event = Event.mlsKeyPackage then
    dispatchMlsKeyPackage native ref topicId payload info socket
  else if event = Event.mlsFetchKp then dispatchMlsFetchKp native ref topicId payload socket
  else if event = Event.mlsCommit then dispatchMlsCommit native ref topicId payload info socket
  else if event = Event.mlsWelcome ∧ 2 < payload.length then
    dispatchMlsWelcome ref topicId payload info socket
  else if event = Event.mlsRemove ∧ 16 ≤ payload.length then
    dispatchMlsRemove native ref topicId payload info socket
  else if event = Event.syncRequest then
    dispatchSyncRequest native ref topicId payload info socket
  else if event = Event.syncPush then dispatchSyncPush native ref topicId payload info socket
  else if event = Event.syncCursor then dispatchSyncCursor payload info socket
  else if event = Event.chCreate then dispatchChCreate ref topicId payload socket
  else if event = Event.presenceJoin then dispatchPresenceJoin ref topicId info socket
  else if event = Event.statusUpdate ∧ payload.length = 1 then
    dispatchStatusUpdate ref topicId info socket (payload.headD 0)
  else if event = Event.mlsMembers then dispatchMlsMembers ref topicId info socket
  else if event = Event.mlsGroupInfo then dispatchMlsGroupInfo ref topicId info socket
  else if event = Event.mlsCek then dispatchMlsCek ref topicId payload info socket
  else pure (replyError socket ref topicId (ascii "unknown_event"))

end Dispatch

/-! ## The callbacks -/

def handlePush (native : Native) (ref topicId : ℕ) (event : Byte) (payload : Bytes)
    (socket : Socket) : Handler Reaction :=
  rescue
    (match socket.topicIds.lookup topicId with
    | none => pure (replyError socket ref topicId (ascii "not_joined"))
    | some info =>
        -- only the key is tested: a presence topic has a channel id too
        if event ∈ Event.requiresChannel ∧ info.channelId = none then
          pure (replyError socket ref topicId (ascii "not_a_channel"))
        else dispatch native ref topicId payload info socket event)
    fun _ => pure (replyError socket ref topicId (ascii "internal_error"))

/-- A binary frame, as the clauses of `handle_in` take it apart. -/
inductive Frame where
  | heartbeat
  | join (ref : ℕ) (topic : Bytes)
  | leave (topicId : ℕ)
  | push (ref topicId : ℕ) (event : Byte) (payload : Bytes)
  | ignored
deriving DecidableEq

def Frame.parse : Bytes → Frame
  | kind :: r0 :: r1 :: r2 :: r3 :: t0 :: t1 :: rest =>
      let ref := fromLittleEndian [r0, r1, r2, r3]
      let topicId := fromLittleEndian [t0, t1]
      if kind = FrameType.heartbeat ∧ rest = [] then .heartbeat
      else if kind = FrameType.join ∧ topicId = 0 then .join ref rest
      else if kind = FrameType.leave ∧ rest = [] then .leave topicId
      else if kind = FrameType.push then
        match rest with
        | event :: payload => .push ref topicId event payload
        | [] => .ignored
      else .ignored
  | _ => .ignored

def handleFrame (native : Native) (frame : Frame) (socket : Socket) : Handler Reaction :=
  match frame with
  | .heartbeat => pure (noReply { socket with missedHeartbeats := 0 })
  | .join ref topic => handleJoin ref topic socket
  | .leave topicId => handleLeave topicId socket
  | .push ref topicId event payload => handlePush native ref topicId event payload socket
  | .ignored => pure (noReply socket)

/-- `handle_in` on a binary frame. -/
def handleIn (native : Native) (data : Bytes) (socket : Socket) : Handler Reaction :=
  handleFrame native (Frame.parse data) socket

/-- `handle_info` on a PubSub broadcast. -/
def handleBroadcast (pubsubTopic : Bytes) (event : Byte) (payload : Bytes) (socket : Socket) :
    Reaction :=
  match socket.pubsubTopics.lookup pubsubTopic with
  | none => noReply socket
  | some topicId =>
      { pushed := [FrameType.broadcast ::
          (littleEndian 4 0 ++ littleEndian 2 topicId ++ event :: payload)]
        socket := socket }

end Mercury.Gateway
