import Mercury.Gateway.BinarySocket

/-!
# What a frame may call

For each kind of frame, the calls that concern the data, the members or the
subscriptions of a channel, whatever the calls are answered. Every result about
the socket is derived from these specifications, and not from the clauses.
-/

namespace Mercury.Gateway

open Foundations Foundations.Program Persistence

/-- The entry carries the channel id `channelIdBin`. -/
def TopicInfo.Names (info : TopicInfo) (channelIdBin : Bytes) : Prop :=
  ∃ channelId, info.channelId = some channelId ∧ channelIdToBin channelId = some channelIdBin

theorem TopicInfo.Names.unique {info : TopicInfo} {left right : Bytes} (first : info.Names left)
    (second : info.Names right) : left = right := by
  rcases first with ⟨hex, named, decodes⟩
  rcases second with ⟨other, sameNamed, sameDecodes⟩
  obtain rfl := Option.some.inj (named.symm.trans sameNamed)
  exact Option.some.inj (decodes.symm.trans sameDecodes)

/-- The message that `msg:send` stores for a decoded envelope. -/
def sentMessage (socket : Socket) (envelope : Envelope) : Message where
  messageId := envelope.messageId
  senderId := socket.userId.val
  encryptedContent := envelope.payload
  contentType := 0
  replyTo := none
  createdAt := envelope.timestamp

/-- The envelope that `msg:send` broadcasts for a decoded one. -/
def sentEnvelope (socket : Socket) (channelIdBin : Bytes) (envelope : Envelope) : Envelope where
  tenantId := socket.tenantId.val
  channelId := channelIdBin
  senderId := socket.userId.val
  messageId := envelope.messageId
  timestamp := envelope.timestamp
  payload := envelope.payload

/-- The payload of a `msg:send` that gets as far as the write: it decodes to
`envelope`, whose payload is valid and whose time lies in `bucket`. -/
def Sends (native : Native) (payload : Bytes) (envelope : Envelope) (bucket : ℕ) : Prop :=
  native.envelopeDecode payload = .ok (.ok envelope) ∧ envelope.payload ≠ [] ∧
    envelope.payload.length ≤ Mercury.Message.maxContentSize ∧
    TimeBucket.compute envelope.timestamp = .ok bucket

/-- The subject on which the messages of a channel are published. -/
def messagesSubject (tenantId channelId : Bytes) : Bytes :=
  ascii "mercury." ++ Base.encode16 tenantId ++ ascii ".messages." ++ Base.encode16 channelId

/-- The subject on which the pushed deltas of a user are published. -/
def syncSubject (tenantId userId : Bytes) : Bytes :=
  ascii "mercury.sync." ++ Base.encode16 tenantId ++ ascii "." ++ Base.encode16 userId

/-- What a push of the user broadcasts beside a new message: for each event, the event and
the data of the broadcast. -/
inductive Announces (native : Native) (userId payload : Bytes) : Byte → Byte → Bytes → Prop where
  | typing :
      Announces native userId payload Event.msgTyping Event.msgTyping (native.typingEncode userId)
  /-- A receipt that does not decode is announced with the text of its failure. -/
  | read {receipt : Except Bytes (Bytes × Bytes)}
      (answered : native.readReceiptDecode payload = .ok receipt) :
      Announces native userId payload Event.msgRead Event.msgRead
        (native.readReceiptEncode userId (receiptMessageId receipt))
  | keyPackage : Announces native userId payload Event.mlsKeyPackage Event.mlsKeyPackage userId
  | commit : Announces native userId payload Event.mlsCommit Event.mlsCommit payload
  | welcome : Announces native userId payload Event.mlsWelcome Event.mlsWelcome payload
  | removal : Announces native userId payload Event.mlsRemove Event.mlsCommit (payload.drop 16)
  | contentKey : Announces native userId payload Event.mlsCek Event.mlsCek payload

theorem Announces.ne_msgNew {native : Native} {userId payload data : Bytes} {event sent : Byte}
    (announces : Announces native userId payload event sent data) : sent ≠ Event.msgNew := by
  cases announces <;> decide

section Push

variable (native : Native) (socket : Socket) (info : TopicInfo) (payload : Bytes)

/-- Every call that a push on a topic with entry `info` may make, by its event. -/
inductive PushCalls : Byte → Call → Prop where
  | systemTime {event : Byte} : PushCalls event .systemTime
  | nativeTime {event : Byte} : PushCalls event .nativeTime
  | generateChannelId {event : Byte} : PushCalls event .generateChannelId
  | scyllaEnabled {event : Byte} : PushCalls event .scyllaEnabled
  | natsRunning {event : Byte} : PushCalls event .natsRunning
  | publishMessage {event : Byte} {channelId messageId senderId : Bytes}
      {contentType createdAt : ℕ} :
      PushCalls event (.natsPublish (messagesSubject socket.tenantId.val channelId)
        (.message messageId senderId contentType createdAt))
  | publishInvalidation {event : Byte} {type targetId : Bytes} :
      PushCalls event (.natsPublish (ascii "mercury.cache.invalidate")
        (.cacheInvalidation type (Base.encode16 socket.tenantId.val) targetId))
  | publishSync {event : Byte} {deviceId : Bytes} {deltas : List Sync.Delta} :
      PushCalls event (.natsPublish (syncSubject socket.tenantId.val socket.userId.val)
        (.syncFanout deviceId deltas))
  | persistMessage {channelId : Bytes} {bucket : ℕ} {envelope : Envelope}
      (names : info.Names channelId) (sends : Sends native payload envelope bucket) :
      PushCalls Event.msgSend (.startTask (.persistMessage socket.tenantId.val channelId bucket
        (sentMessage socket envelope)))
  | startReadPosition {event : Byte} {channelId messageId : Bytes} :
      PushCalls event (.startTask (.updateReadPosition socket.tenantId.val socket.userId.val
        channelId messageId))
  | invalidateRecent {event : Byte} {channelId : Bytes} :
      PushCalls event (.invalidateRecent socket.tenantId.val channelId)
  | broadcastNew {topic channelId : Bytes} {bucket : ℕ} {envelope : Envelope}
      (subscribed : info.pubsub = some topic) (names : info.Names channelId)
      (sends : Sends native payload envelope bucket) :
      PushCalls Event.msgSend (.broadcast topic Event.msgNew
        (native.envelopeEncode (sentEnvelope socket channelId envelope)))
  | broadcast {event sent : Byte} {topic data : Bytes} (subscribed : info.pubsub = some topic)
      (announces : Announces native socket.userId.val payload event sent data) :
      PushCalls event (.broadcast topic sent data)
  | broadcastFrom {event sent : Byte} {topic data : Bytes} (subscribed : info.pubsub = some topic)
      (announces : Announces native socket.userId.val payload event sent data) :
      PushCalls event (.broadcastFrom topic sent data)
  | track {event : Byte} {topic userId deviceId : Bytes} {lastSeen : ℕ}
      (subscribed : info.pubsub = some topic) :
      PushCalls event (.track topic userId deviceId lastSeen)
  | updatePresence {event : Byte} {topic userId : Bytes} {status : Status}
      (subscribed : info.pubsub = some topic) :
      PushCalls event (.updatePresence topic userId status)
  | allow {event : Byte} : PushCalls event (.allow socket.tenantId.val socket.userId.val)
  | readRecent {channelId : Bytes} {limit : ℕ} (names : info.Names channelId) :
      PushCalls Event.msgHistory (.readRecent socket.tenantId.val channelId limit)
  | getDeltas {channelId : Bytes} {since limit : ℕ} (names : info.Names channelId) :
      PushCalls Event.syncRequest (.getDeltas socket.tenantId.val channelId since limit)
  | applyDeltas {channelId : Bytes} {deltas : List Sync.Delta} (names : info.Names channelId)
      (decode : pushedDeltas native (unpackEnvelopes payload) = .ok deltas) :
      PushCalls Event.syncPush (.applyDeltas socket.tenantId.val channelId deltas)
  | updateCursor {event : Byte} {channelId : Bytes} {wall counter : ℕ} :
      PushCalls event (.updateCursor socket.tenantId.val socket.userId.val socket.deviceId.val
        channelId wall counter)
  | uploadKeyPackage {event : Byte} {keyPackage : Bytes} :
      PushCalls event (.uploadKeyPackage socket.tenantId.val socket.deviceId.val keyPackage)
  | fetchKeyPackages {event : Byte} {userId : Bytes} :
      PushCalls event (.fetchKeyPackages socket.tenantId.val userId)
  | listMembers {channelId : Bytes} (names : info.Names channelId) :
      PushCalls Event.mlsMembers (.listMembers socket.tenantId.val channelId)
  | getRole {event : Byte} {channelId : Bytes} :
      PushCalls event (.getRole socket.tenantId.val channelId socket.userId.val)
  | removeMember {channelId : Bytes} (names : info.Names channelId) :
      PushCalls Event.mlsRemove (.removeMember socket.tenantId.val channelId (payload.take 16))
  | addMember {channelId : Bytes} :
      PushCalls Event.chCreate (.addMember socket.tenantId.val channelId socket.userId.val)
  | getMlsCreator {channelId : Bytes} (names : info.Names channelId) :
      PushCalls Event.mlsGroupInfo (.getMlsCreator socket.tenantId.val channelId)
  | setMlsCreator {channelId userId : Bytes} (names : info.Names channelId) :
      PushCalls Event.mlsGroupInfo (.setMlsCreator socket.tenantId.val channelId userId)

end Push

section Push

variable (native : Native) (socket : Socket) (info : TopicInfo) (event : Byte) (payload : Bytes)

/-- What a push of `event` on a topic with entry `info` may call. -/
def PushIssues : Call → Prop
  | .startTask (.persistMessage tenantId channelId bucket msg) =>
      event = Event.msgSend ∧ tenantId = socket.tenantId.val ∧ info.Names channelId ∧
        ∃ envelope, Sends native payload envelope bucket ∧ msg = sentMessage socket envelope
  | .broadcast topic sent data =>
      info.pubsub = some topic ∧
        (sent = Event.msgNew → event = Event.msgSend ∧ ∃ channelId envelope bucket,
          info.Names channelId ∧ Sends native payload envelope bucket ∧
            data = native.envelopeEncode (sentEnvelope socket channelId envelope))
  | .broadcastFrom topic sent _ => info.pubsub = some topic ∧ sent ≠ Event.msgNew
  | .readRecent tenantId channelId _ =>
      event = Event.msgHistory ∧ tenantId = socket.tenantId.val ∧ info.Names channelId
  | .getDeltas tenantId channelId _ _ =>
      event = Event.syncRequest ∧ tenantId = socket.tenantId.val ∧ info.Names channelId
  | .applyDeltas tenantId channelId deltas =>
      event = Event.syncPush ∧ tenantId = socket.tenantId.val ∧ info.Names channelId ∧
        pushedDeltas native (unpackEnvelopes payload) = .ok deltas
  | .listMembers tenantId channelId =>
      event = Event.mlsMembers ∧ tenantId = socket.tenantId.val ∧ info.Names channelId
  | .getMlsCreator tenantId channelId | .setMlsCreator tenantId channelId _ =>
      event = Event.mlsGroupInfo ∧ tenantId = socket.tenantId.val ∧ info.Names channelId
  | .addMember tenantId _ userId =>
      event = Event.chCreate ∧ tenantId = socket.tenantId.val ∧ userId = socket.userId.val
  | .removeMember tenantId channelId userId =>
      event = Event.mlsRemove ∧ tenantId = socket.tenantId.val ∧ info.Names channelId ∧
        userId = payload.take 16
  | .writeMessage .. | .isMember .. | .subscribe _ | .unsubscribe _ => False
  | _ => True

end Push

/-- Of the calls of a push, what the results about channels need. -/
theorem PushCalls.issues {native : Native} {socket : Socket} {info : TopicInfo} {event : Byte}
    {payload : Bytes} {asked : Call} (made : PushCalls native socket info payload event asked) :
    PushIssues native socket info event payload asked := by
  cases made with
  | persistMessage names sends => exact ⟨rfl, rfl, names, _, sends, rfl⟩
  | broadcastNew subscribed names sends =>
      exact ⟨subscribed, fun _ => ⟨rfl, _, _, _, names, sends, rfl⟩⟩
  | broadcast subscribed announces =>
      exact ⟨subscribed, fun same => absurd same announces.ne_msgNew⟩
  | broadcastFrom subscribed announces => exact ⟨subscribed, announces.ne_msgNew⟩
  | readRecent names => exact ⟨rfl, rfl, names⟩
  | getDeltas names => exact ⟨rfl, rfl, names⟩
  | applyDeltas names decode => exact ⟨rfl, rfl, names, decode⟩
  | listMembers names => exact ⟨rfl, rfl, names⟩
  | removeMember names => exact ⟨rfl, rfl, names, rfl⟩
  | addMember => exact ⟨rfl, rfl, rfl⟩
  | getMlsCreator names => exact ⟨rfl, rfl, names⟩
  | setMlsCreator names => exact ⟨rfl, rfl, names⟩
  | _ => trivial

/-- Where its calls are answered as `admitted`, `handler` performs only `allowed` calls,
and where it returns, its result satisfies `post`. -/
def Within {Result : Type} (admitted : Performed calls Raise → Prop) (allowed : Call → Prop)
    (handler : Handler Result) (post : Result → Prop) : Prop :=
  handler.Ensures admitted allowed fun
    | .ok result => post result
    | .error _ => True

namespace Within

variable {Result Other : Type} {admitted : Performed calls Raise → Prop} {allowed : Call → Prop}

theorem pure {result : Result} {post : Result → Prop} (holds : post result) :
    Within admitted allowed (Pure.pure result) post :=
  holds

theorem fail {raised : Raise} {post : Result → Prop} :
    Within admitted allowed (Program.fail raised) post :=
  trivial

theorem bind {first : Handler Result} {next : Result → Handler Other} {middle : Result → Prop}
    {post : Other → Prop} (ensured : Within admitted allowed first middle)
    (later : ∀ result, middle result → Within admitted allowed (next result) post) :
    Within admitted allowed (first >>= next) post := by
  refine Ensures.bind.mpr (Ensures.post_mono ensured ?_)
  rintro (raised | result) holds
  · trivial
  · exact later result holds

theorem call {asked : Call} (permitted : allowed asked) :
    Within admitted allowed (Gateway.call asked) fun answer => admitted ⟨asked, .ok answer⟩ := by
  refine Ensures.perform.mpr ⟨permitted, ?_⟩
  rintro (raised | answer) granted
  · trivial
  · exact granted

theorem fetch {value : Option Bytes} :
    Within admitted allowed (Gateway.fetch value) fun bytes => value = some bytes := by
  rcases value with _ | bytes
  · trivial
  · exact rfl

theorem ofExcept {outcome : Except Raise Result} :
    Within admitted allowed (Program.ofExcept outcome) fun result => outcome = .ok result := by
  rcases outcome with raised | result
  · trivial
  · exact rfl

theorem ite {condition : Prop} [Decidable condition] {left right : Handler Result}
    {post : Result → Prop} (positive : condition → Within admitted allowed left post)
    (negative : ¬condition → Within admitted allowed right post) :
    Within admitted allowed (if condition then left else right) post := by
  split
  · next holds => exact positive holds
  · next fails => exact negative fails

theorem post_mono {handler : Handler Result} {post later : Result → Prop}
    (ensured : Within admitted allowed handler post)
    (implies : ∀ result, post result → later result) :
    Within admitted allowed handler later := by
  apply Ensures.post_mono ensured
  rintro (raised | result) holds
  · trivial
  · exact implies result holds

end Within

section Push

variable {native : Native} {socket : Socket} {info : TopicInfo} {event : Byte} {payload : Bytes}
  {ref topicId : ℕ} {admitted : Performed calls Raise → Prop}

theorem within_publishCacheInvalidation {type targetId : Bytes} :
    Within admitted (PushCalls native socket info payload event)
      (publishCacheInvalidation socket.tenantId.val type targetId) fun _ => True := by
  apply Within.bind (Within.call .natsRunning)
  intro running _
  split
  · exact Within.bind (Within.call .publishInvalidation) fun _ _ => Within.pure trivial
  · exact Within.pure trivial

theorem within_publishMessage {channelId : Bytes} {msg : Message} :
    Within admitted (PushCalls native socket info payload event)
      (publishMessage socket.tenantId.val channelId msg) fun _ => True :=
  Within.bind (Within.call .publishMessage) fun _ _ => Within.pure trivial

theorem within_persistMessage {channelId : Bytes} {bucket : ℕ} {msg : Message}
    (made : PushCalls native socket info payload event
      (.startTask (.persistMessage socket.tenantId.val channelId bucket msg))) :
    Within admitted (PushCalls native socket info payload event)
      (persistMessage socket.tenantId.val channelId bucket msg) fun _ => True := by
  have store : Within admitted (PushCalls native socket info payload event)
      (do
        if ← call .scyllaEnabled then
          call (.startTask (.persistMessage socket.tenantId.val channelId bucket msg))
        else
          call (.invalidateRecent socket.tenantId.val channelId)
          publishCacheInvalidation socket.tenantId.val (ascii "recent") channelId)
      fun _ => True := by
    apply Within.bind (Within.call .scyllaEnabled)
    intro enabled _
    split
    · exact (Within.call made).post_mono fun _ _ => trivial
    · exact Within.bind (Within.call .invalidateRecent) fun _ _ => within_publishCacheInvalidation
  apply Within.bind (Within.call .natsRunning)
  intro running _
  split
  · exact Within.bind within_publishMessage fun _ _ => store
  · exact store

theorem within_persistReadPosition {channelId messageId : Bytes} :
    Within admitted (PushCalls native socket info payload event)
      (persistReadPosition socket.tenantId.val socket.userId.val channelId messageId)
      fun _ => True := by
  apply Within.bind (Within.call .scyllaEnabled)
  intro enabled _
  split
  · split
    · exact (Within.call .startReadPosition).post_mono fun _ _ => trivial
    · exact Within.pure trivial
  · exact Within.pure trivial

theorem within_publishSyncFanout {deltas : List Sync.Delta} :
    Within admitted (PushCalls native socket info payload event)
      (publishSyncFanout socket deltas) fun _ => True := by
  apply Within.bind (Within.call .natsRunning)
  intro running _
  split
  · exact Within.bind (Within.call .publishSync) fun _ _ => Within.pure trivial
  · exact Within.pure trivial

/-- A valid text message is not empty and not too large. -/
theorem validateMessage_ok {reading : ℕ} {tenantId channelId senderId content : Bytes}
    (valid : validateMessage reading tenantId channelId senderId content 0 = .ok (.ok ())) :
    content ≠ [] ∧ content.length ≤ Mercury.Message.maxContentSize := by
  simp only [validateMessage, ContentType.parse, Mercury.Message.validate] at valid
  by_cases empty : content = []
  · simp [empty] at valid
  · refine ⟨empty, Nat.le_of_not_lt fun large => ?_⟩
    simp [empty, large] at valid

theorem within_dispatchMsgSend :
    Within admitted (PushCalls native socket info payload Event.msgSend)
      (dispatchMsgSend native ref topicId payload info socket)
      fun reaction => reaction.socket = socket := by
  apply Within.bind Within.fetch
  intro channelId named
  split
  · exact Within.pure rfl
  next channelIdBin decoded =>
  split
  · exact Within.pure rfl
  · exact Within.fail
  next envelope envelopeEq =>
  apply Within.bind (Within.call .nativeTime)
  intro reading _
  apply Within.bind Within.ofExcept
  intro verdict valid
  split
  · exact Within.pure rfl
  apply Within.bind (Within.call .allow)
  intro allowed _
  split
  · apply Within.bind Within.ofExcept
    intro bucket bucketEq
    have names : info.Names channelIdBin := ⟨channelId, named, decoded⟩
    rcases validateMessage_ok valid with ⟨filled, bounded⟩
    have sends : Sends native payload envelope bucket := ⟨envelopeEq, filled, bounded, bucketEq⟩
    apply Within.bind (within_persistMessage (.persistMessage names sends))
    intro _ _
    apply Within.bind Within.fetch
    intro pubsub pubsubEq
    exact Within.bind (Within.call (.broadcastNew pubsubEq names sends)) fun _ _ => Within.pure rfl
  · exact Within.pure rfl

theorem within_dispatchMsgHistory :
    Within admitted (PushCalls native socket info payload Event.msgHistory)
      (dispatchMsgHistory native ref topicId payload info socket)
      fun reaction => reaction.socket = socket := by
  apply Within.bind Within.fetch
  intro channelId named
  split
  · exact Within.pure rfl
  next channelIdBin decoded =>
  exact Within.bind (Within.call (.readRecent ⟨channelId, named, decoded⟩))
    fun _ _ => Within.pure rfl

theorem within_dispatchMsgTyping :
    Within admitted (PushCalls native socket info payload Event.msgTyping)
      (dispatchMsgTyping native info socket) fun reaction => reaction.socket = socket := by
  apply Within.bind Within.fetch
  intro pubsub pubsubEq
  exact Within.bind (Within.call (.broadcastFrom pubsubEq .typing)) fun _ _ => Within.pure rfl

theorem within_dispatchMsgRead :
    Within admitted (PushCalls native socket info payload Event.msgRead)
      (dispatchMsgRead native ref topicId payload info socket)
      fun reaction => reaction.socket = socket := by
  unfold dispatchMsgRead
  split
  · exact Within.pure rfl
  next receipt answered =>
  apply Within.bind Within.fetch
  intro channelId _
  apply Within.bind within_persistReadPosition
  intro _ _
  apply Within.bind Within.fetch
  intro pubsub pubsubEq
  exact Within.bind (Within.call (.broadcastFrom pubsubEq (.read answered)))
    fun _ _ => Within.pure rfl

theorem within_dispatchMlsKeyPackage :
    Within admitted (PushCalls native socket info payload Event.mlsKeyPackage)
      (dispatchMlsKeyPackage native ref topicId payload info socket)
      fun reaction => reaction.socket = socket := by
  unfold dispatchMlsKeyPackage
  split
  · exact Within.pure rfl
  · exact Within.fail
  apply Within.bind (Within.call .uploadKeyPackage)
  intro uploaded _
  split
  · split
    · next pubsub pubsubEq =>
        exact Within.bind (Within.call (.broadcast pubsubEq .keyPackage))
          fun _ _ => Within.pure rfl
    · exact Within.pure rfl
  · exact Within.pure rfl

theorem within_dispatchMlsFetchKp :
    Within admitted (PushCalls native socket info payload Event.mlsFetchKp)
      (dispatchMlsFetchKp native ref topicId payload socket)
      fun reaction => reaction.socket = socket := by
  unfold dispatchMlsFetchKp
  split
  · exact Within.bind (Within.call .fetchKeyPackages) fun _ _ => Within.pure rfl
  · exact Within.pure rfl

theorem within_dispatchMlsCommit :
    Within admitted (PushCalls native socket info payload Event.mlsCommit)
      (dispatchMlsCommit native ref topicId payload info socket)
      fun reaction => reaction.socket = socket := by
  unfold dispatchMlsCommit
  split
  · apply Within.bind Within.fetch
    intro pubsub pubsubEq
    exact Within.bind (Within.call (.broadcastFrom pubsubEq .commit)) fun _ _ => Within.pure rfl
  · exact Within.pure rfl

theorem within_dispatchMlsWelcome :
    Within admitted (PushCalls native socket info payload Event.mlsWelcome)
      (dispatchMlsWelcome ref topicId payload info socket)
      fun reaction => reaction.socket = socket := by
  unfold dispatchMlsWelcome
  dsimp only
  split
  · apply Within.bind Within.fetch
    intro pubsub pubsubEq
    exact Within.bind (Within.call (.broadcast pubsubEq .welcome))
      fun _ _ => Within.pure rfl
  · exact Within.pure rfl

theorem within_dispatchMlsRemove :
    Within admitted (PushCalls native socket info payload Event.mlsRemove)
      (dispatchMlsRemove native ref topicId payload info socket)
      fun reaction => reaction.socket = socket := by
  apply Within.bind Within.fetch
  intro channelId named
  split
  · exact Within.pure rfl
  next channelIdBin decoded =>
  apply Within.bind (Within.call .getRole)
  intro lookup _
  split
  · split
    · split
      · refine Within.bind (Within.call (.removeMember ⟨channelId, named, decoded⟩))
          fun _ _ => ?_
        apply Within.bind Within.fetch
        intro pubsub pubsubEq
        exact Within.bind (Within.call (.broadcastFrom pubsubEq .removal))
          fun _ _ => Within.pure rfl
      · exact Within.pure rfl
    · exact Within.pure rfl
  · exact Within.pure rfl
  · exact Within.pure rfl

theorem within_syncReply {channelIdBin : Bytes} {sinceWall limit lastCounter : ℕ}
    (names : info.Names channelIdBin) :
    Within admitted (PushCalls native socket info payload Event.syncRequest)
      (syncReply native socket channelIdBin sinceWall limit lastCounter) fun _ => True := by
  apply Within.bind (Within.call (.getDeltas names))
  intro page _
  apply Within.bind (Within.call .systemTime)
  intro systemTime _
  apply Within.bind (Within.call .nativeTime)
  intro reading _
  split
  · exact Within.fail
  · exact Within.pure trivial

theorem within_dispatchSyncRequest :
    Within admitted (PushCalls native socket info payload Event.syncRequest)
      (dispatchSyncRequest native ref topicId payload info socket)
      fun reaction => reaction.socket = socket := by
  apply Within.bind Within.fetch
  intro channelId named
  split
  · exact Within.pure rfl
  next channelIdBin decoded =>
  exact Within.bind (within_syncReply ⟨channelId, named, decoded⟩) fun _ _ => Within.pure rfl

theorem within_dispatchSyncPush :
    Within admitted (PushCalls native socket info payload Event.syncPush)
      (dispatchSyncPush native ref topicId payload info socket)
      fun reaction => reaction.socket = socket := by
  apply Within.bind Within.fetch
  intro channelId named
  split
  · exact Within.pure rfl
  next channelIdBin decoded =>
  apply Within.bind Within.ofExcept
  intro deltas decode
  have pushed : Within admitted (PushCalls native socket info payload Event.syncPush)
      (syncPushed socket channelIdBin deltas) fun _ => True := by
    refine Within.bind (Within.call (.applyDeltas ⟨channelId, named, decoded⟩ decode))
      fun applied _ => ?_
    split
    · exact Within.pure trivial
    apply Within.bind within_publishSyncFanout
    intro _ _
    apply Within.bind (Within.call .systemTime)
    intro systemTime _
    apply Within.bind (Within.call .nativeTime)
    intro reading _
    split
    · exact Within.fail
    · exact Within.pure trivial
  apply Within.bind pushed
  intro result _
  split <;> exact Within.pure rfl

theorem within_dispatchSyncCursor :
    Within admitted (PushCalls native socket info payload Event.syncCursor)
      (dispatchSyncCursor payload info socket) fun reaction => reaction.socket = socket := by
  unfold dispatchSyncCursor
  split
  · exact Within.pure rfl
  · dsimp only
    split
    · exact Within.pure rfl
    · exact Within.bind (Within.call .updateCursor) fun _ _ => Within.pure rfl

theorem within_dispatchChCreate :
    Within admitted (PushCalls native socket info payload Event.chCreate)
      (dispatchChCreate ref topicId payload socket) fun reaction => reaction.socket = socket := by
  unfold dispatchChCreate
  split
  · exact Within.fail
  apply Within.bind Within.ofExcept
  intro verdict _
  split
  · exact Within.pure rfl
  apply Within.bind (Within.call .generateChannelId)
  intro channelId _
  exact Within.bind (Within.call .addMember) fun _ _ => Within.pure rfl

theorem within_dispatchPresenceJoin :
    Within admitted (PushCalls native socket info payload Event.presenceJoin)
      (dispatchPresenceJoin ref topicId info socket)
      fun reaction => reaction.socket = socket := by
  unfold dispatchPresenceJoin
  split
  · apply Within.bind Within.fetch
    intro pubsub pubsubEq
    apply Within.bind (Within.call .systemTime)
    intro lastSeen _
    exact Within.bind (Within.call (.track pubsubEq)) fun _ _ => Within.pure rfl
  · exact Within.pure rfl

theorem within_dispatchStatusUpdate {status : Byte} :
    Within admitted (PushCalls native socket info payload Event.statusUpdate)
      (dispatchStatusUpdate ref topicId info socket status)
      fun reaction => reaction.socket = socket := by
  unfold dispatchStatusUpdate
  split
  · next pubsub pubsubEq =>
      exact Within.bind (Within.call (.updatePresence pubsubEq)) fun _ _ => Within.pure rfl
  · exact Within.pure rfl

theorem within_segment16 {allowed : Call → Prop} {bytes : Bytes} :
    Within admitted allowed (segment16 bytes) fun _ => True := by
  unfold segment16
  split
  · exact Within.pure trivial
  · exact Within.fail

theorem within_packMembers {allowed : Call → Prop} {memberIds : List Bytes} :
    Within admitted allowed (packMembers memberIds) fun _ => True := by
  induction memberIds with
  | nil => exact Within.pure trivial
  | cons memberId later ih =>
      exact Within.bind within_segment16 fun _ _ =>
        Within.bind ih fun _ _ => Within.pure trivial

theorem within_dispatchMlsMembers :
    Within admitted (PushCalls native socket info payload Event.mlsMembers)
      (dispatchMlsMembers ref topicId info socket) fun reaction => reaction.socket = socket := by
  apply Within.bind Within.fetch
  intro channelId named
  split
  · exact Within.pure rfl
  next channelIdBin decoded =>
  apply Within.bind (Within.call (.listMembers ⟨channelId, named, decoded⟩))
  intro listing _
  exact Within.bind within_packMembers fun _ _ => Within.pure rfl

theorem within_dispatchMlsGroupInfo :
    Within admitted (PushCalls native socket info payload Event.mlsGroupInfo)
      (dispatchMlsGroupInfo ref topicId info socket)
      fun reaction => reaction.socket = socket := by
  apply Within.bind Within.fetch
  intro channelId named
  split
  · exact Within.pure rfl
  next channelIdBin decoded =>
  apply Within.bind (Within.call (.setMlsCreator ⟨channelId, named, decoded⟩))
  intro _ _
  apply Within.bind (Within.call (.getMlsCreator ⟨channelId, named, decoded⟩))
  intro creator _
  split
  · split
    · exact Within.pure rfl
    · exact Within.bind within_segment16 fun _ _ => Within.pure rfl
  · exact Within.pure rfl

theorem within_dispatchMlsCek :
    Within admitted (PushCalls native socket info payload Event.mlsCek)
      (dispatchMlsCek ref topicId payload info socket)
      fun reaction => reaction.socket = socket := by
  apply Within.bind Within.fetch
  intro pubsub pubsubEq
  exact Within.bind (Within.call (.broadcast pubsubEq .contentKey))
    fun _ _ => Within.pure rfl

/-- The specification of every dispatch clause. -/
theorem within_dispatch :
    Within admitted (PushCalls native socket info payload event)
      (dispatch native ref topicId payload info socket event)
      fun reaction => reaction.socket = socket := by
  apply Within.ite (fun is => is ▸ within_dispatchMsgSend)
  intro _
  apply Within.ite (fun is => is ▸ within_dispatchMsgHistory)
  intro _
  apply Within.ite (fun is => is ▸ within_dispatchMsgTyping)
  intro _
  apply Within.ite (fun is => is ▸ within_dispatchMsgRead)
  intro _
  apply Within.ite (fun is => is ▸ within_dispatchMlsKeyPackage)
  intro _
  apply Within.ite (fun is => is ▸ within_dispatchMlsFetchKp)
  intro _
  apply Within.ite (fun is => is ▸ within_dispatchMlsCommit)
  intro _
  apply Within.ite (fun is => is.1 ▸ within_dispatchMlsWelcome)
  intro _
  apply Within.ite (fun is => is.1 ▸ within_dispatchMlsRemove)
  intro _
  apply Within.ite (fun is => is ▸ within_dispatchSyncRequest)
  intro _
  apply Within.ite (fun is => is ▸ within_dispatchSyncPush)
  intro _
  apply Within.ite (fun is => is ▸ within_dispatchSyncCursor)
  intro _
  apply Within.ite (fun is => is ▸ within_dispatchChCreate)
  intro _
  apply Within.ite (fun is => is ▸ within_dispatchPresenceJoin)
  intro _
  apply Within.ite (fun is => is.1 ▸ within_dispatchStatusUpdate)
  intro _
  apply Within.ite (fun is => is ▸ within_dispatchMlsMembers)
  intro _
  apply Within.ite (fun is => is ▸ within_dispatchMlsGroupInfo)
  intro _
  apply Within.ite (fun is => is ▸ within_dispatchMlsCek)
  intro _
  exact Within.pure rfl

end Push

section Frame

variable (admitted : Performed calls Raise → Prop) (native : Native) (socket : Socket)

/-- Every call that a join of `topic` may make. -/
inductive JoinCalls (topic : Bytes) : Call → Prop where
  | isMember {hex channelId : Bytes} (isChannel : stripPrefix (ascii "channel:") topic = some hex)
      (decoded : channelIdToBin hex = some channelId) :
      JoinCalls topic (.isMember socket.tenantId.val channelId socket.userId.val)
  | subscribeChannel {channelId : Bytes} :
      JoinCalls topic (.subscribe (channelTopic socket.tenantId.val channelId))
  | subscribePresence {channelId : Bytes} :
      JoinCalls topic (.subscribe (presenceTopic socket.tenantId.val channelId))
  | getCachedUser : JoinCalls topic (.getCachedUser socket.tenantId.val socket.userId.val)
  | findUser : JoinCalls topic (.findUser socket.tenantId.val socket.userId.val)
  | putCachedUser {user : CachedUser} :
      JoinCalls topic (.putCachedUser socket.tenantId.val socket.userId.val user)
  | announce {channelId : Bytes}
      (isChannel : stripPrefix (ascii "channel:") topic = some channelId) :
      JoinCalls topic (.broadcastFrom (channelTopic socket.tenantId.val channelId)
        Event.presenceJoin socket.userId.val)

/-- Of the calls of a join of `topic`, what the results about channels need. -/
def JoinIssues (topic : Bytes) : Call → Prop
  | .isMember tenantId channelId userId =>
      tenantId = socket.tenantId.val ∧ userId = socket.userId.val ∧
        ∃ hex, stripPrefix (ascii "channel:") topic = some hex ∧
          channelIdToBin hex = some channelId
  | .broadcastFrom _ sent _ => sent ≠ Event.msgNew
  | .subscribe _ | .getCachedUser .. | .findUser .. | .putCachedUser .. => True
  | _ => False

/-- `info` is the entry of a successful join of `topic`. -/
inductive Joins (topic : Bytes) : TopicInfo → Prop where
  | channel {channelId channelIdBin : Bytes}
      (isChannel : stripPrefix (ascii "channel:") topic = some channelId)
      (decoded : channelIdToBin channelId = some channelIdBin)
      (member : admitted ⟨.isMember socket.tenantId.val channelIdBin socket.userId.val,
        .ok (.ok true)⟩) :
      Joins topic
        { topic := topic
          channelId := some channelId
          pubsub := some (channelTopic socket.tenantId.val channelId) }
  | lobby : Joins topic { topic := topic, channelId := none, pubsub := none }
  | presence {channelId : Bytes}
      (isPresence : stripPrefix (ascii "presence:") topic = some channelId) :
      Joins topic
        { topic := topic
          channelId := some channelId
          pubsub := some (presenceTopic socket.tenantId.val channelId) }

/-- The socket after a successful join with entry `info`. -/
def Socket.joined (info : TopicInfo) : Socket :=
  { socket with nextTopicId := socket.nextTopicId + 1 }.register socket.nextTopicId info

/-- Every call that a frame may make. -/
def FrameCalls : Frame → Call → Prop
  | .join _ topic => JoinCalls socket topic
  | .leave topicId => fun asked =>
      ∃ info pubsub, socket.topicIds.lookup topicId = some info ∧ info.pubsub = some pubsub ∧
        asked = .unsubscribe pubsub
  | .push _ topicId event payload => fun asked =>
      ∃ info, socket.topicIds.lookup topicId = some info ∧
        PushCalls native socket info payload event asked
  | .heartbeat | .ignored => fun _ => False

/-- Of the calls of a frame, what the results about channels need. -/
def FrameIssues : Frame → Call → Prop
  | .join _ topic => JoinIssues socket topic
  | .leave _ => fun
      | .unsubscribe _ => True
      | _ => False
  | .push _ topicId event payload => fun asked =>
      ∃ info, socket.topicIds.lookup topicId = some info ∧
        PushIssues native socket info event payload asked
  | .heartbeat | .ignored => fun _ => False

/-- The state that a frame may lead to. -/
def Moves (next : Socket) : Frame → Prop
  | .heartbeat => next = { socket with missedHeartbeats := 0 }
  | .join _ topic =>
      next = socket ∨ ∃ info, Joins admitted socket topic info ∧ next = socket.joined info
  | .leave topicId =>
      next = socket ∨ ∃ info, socket.topicIds.lookup topicId = some info ∧
        next = socket.unregister topicId info
  | .push .. | .ignored => next = socket

end Frame

section Frame

variable {admitted : Performed calls Raise → Prop} {native : Native} {socket : Socket}

theorem allocateTopicId_eq_some {topicId : ℕ} {allocated : Socket}
    (free : allocateTopicId socket = some (topicId, allocated)) :
    topicId = socket.nextTopicId ∧
      allocated = { socket with nextTopicId := socket.nextTopicId + 1 } := by
  unfold allocateTopicId at free
  split at free
  · simp at free
  · simpa [eq_comm] using free

/-- Of the calls of a frame, what the results about channels need. -/
theorem FrameCalls.issues {frame : Frame} {asked : Call}
    (made : FrameCalls native socket frame asked) : FrameIssues native socket frame asked := by
  cases frame with
  | heartbeat => exact made
  | ignored => exact made
  | push => exact made.imp fun info entry => ⟨entry.1, entry.2.issues⟩
  | leave topicId =>
      rcases made with ⟨_, _, _, _, rfl⟩
      trivial
  | join ref topic =>
      cases made with
      | isMember isChannel decoded => exact ⟨rfl, rfl, _, isChannel, decoded⟩
      | announce =>
          have notSent : Event.presenceJoin ≠ Event.msgNew := by decide
          exact notSent
      | _ => trivial

theorem within_warmUserCache {allowed : Call → Prop} {tenantId userId : Bytes}
    (reads : allowed (.getCachedUser tenantId userId)) (finds : allowed (.findUser tenantId userId))
    (writes : ∀ user, allowed (.putCachedUser tenantId userId user)) :
    Within admitted allowed (warmUserCache tenantId userId) fun _ => True := by
  apply Within.bind (Within.call reads)
  intro cached _
  split
  · exact Within.pure trivial
  apply Within.bind (Within.call finds)
  intro found _
  split
  · exact Within.pure trivial
  · exact (Within.call (writes _)).post_mono fun _ _ => trivial
  · exact Within.pure trivial

/-- Where a join succeeds, its entry is one of `Joins`. -/
def JoinResult (admitted : Performed calls Raise → Prop) (socket : Socket) (topic : Bytes) :
    Except JoinError (ℕ × Socket) → Prop
  | .ok (_, next) => ∃ info, Joins admitted socket topic info ∧ next = socket.joined info
  | .error _ => True

theorem within_joinChannel {topic channelId : Bytes}
    (isChannel : stripPrefix (ascii "channel:") topic = some channelId) :
    Within admitted (JoinCalls socket topic) (joinChannel topic channelId socket)
      (JoinResult admitted socket topic) := by
  unfold joinChannel
  split
  · exact Within.pure trivial
  next channelIdBin decoded =>
  split
  · exact Within.pure trivial
  next topicId allocated free =>
  rcases allocateTopicId_eq_some free with ⟨rfl, rfl⟩
  apply Within.bind (Within.call (.isMember isChannel decoded))
  intro answer member
  split
  · apply Within.bind (Within.call .subscribeChannel)
    intro _ _
    refine Within.bind (within_warmUserCache .getCachedUser .findUser fun _ => .putCachedUser)
      fun _ _ => ?_
    apply Within.bind (Within.call (.announce isChannel))
    intro _ _
    exact Within.pure ⟨_, Joins.channel isChannel decoded member, rfl⟩
  · exact Within.pure trivial
  · exact Within.pure trivial

theorem within_doJoin {topic : Bytes} :
    Within admitted (JoinCalls socket topic) (doJoin topic socket)
      (JoinResult admitted socket topic) := by
  unfold doJoin
  split
  · next channelId isChannel => exact within_joinChannel isChannel
  split
  · unfold joinLobby
    split
    · exact Within.pure trivial
    next topicId allocated free =>
    rcases allocateTopicId_eq_some free with ⟨rfl, rfl⟩
    exact Within.pure ⟨_, Joins.lobby, rfl⟩
  split
  · next channelId isPresence =>
      unfold joinPresence
      split
      · exact Within.pure trivial
      next topicId allocated free =>
      rcases allocateTopicId_eq_some free with ⟨rfl, rfl⟩
      exact Within.bind (Within.call .subscribePresence) fun _ _ =>
        Within.pure ⟨_, Joins.presence isPresence, rfl⟩
  · exact Within.pure trivial

theorem within_handlePush {ref topicId : ℕ} {event : Byte} {payload : Bytes} :
    Within admitted (FrameCalls native socket (.push ref topicId event payload))
      (handlePush native ref topicId event payload socket)
      fun reaction => reaction.socket = socket := by
  refine Ensures.rescue.mpr (Ensures.post_mono
    (?_ : Within admitted _ _ fun reaction => reaction.socket = socket) ?_)
  · split
    · exact Within.pure rfl
    next info entry =>
    split
    · exact Within.pure rfl
    · exact Ensures.mono within_dispatch (fun asked issued => ⟨info, entry, issued⟩)
        fun _ holds => holds
  · rintro (raised | reaction) keeps
    · exact rfl
    · exact keeps

/-- The specification of every frame. -/
theorem handleFrame_calls {frame : Frame} :
    Within admitted (FrameCalls native socket frame) (handleFrame native frame socket)
      fun reaction => Moves admitted socket reaction.socket frame := by
  cases frame with
  | heartbeat => exact Within.pure rfl
  | ignored => exact Within.pure rfl
  | push ref topicId event payload => exact within_handlePush
  | join ref topic =>
      apply Within.bind within_doJoin
      intro result joined
      split
      · exact Within.pure (Or.inr joined)
      · exact Within.pure (Or.inl rfl)
      · exact Within.fail
  | leave topicId =>
      rw [handleFrame, handleLeave]
      split
      · exact Within.pure (Or.inl rfl)
      next info entry =>
      split
      · next pubsub subscribed =>
          exact Within.bind (Within.call ⟨info, pubsub, entry, subscribed, rfl⟩) fun _ _ =>
            Within.pure (Or.inr ⟨info, entry, rfl⟩)
      · exact Within.pure (Or.inr ⟨info, entry, rfl⟩)

theorem within_handleFrame {frame : Frame} :
    Within admitted (FrameIssues native socket frame) (handleFrame native frame socket)
      fun reaction => Moves admitted socket reaction.socket frame :=
  Ensures.mono handleFrame_calls (fun _ made => made.issues) fun _ holds => holds

@[simp]
theorem lookup_joined (info : TopicInfo) (topicId : ℕ) :
    (socket.joined info).topicIds.lookup topicId =
      if topicId = socket.nextTopicId then some info else socket.topicIds.lookup topicId := by
  split
  · next same =>
      subst topicId
      exact Finmap.lookup_insert _
  · next other => exact Finmap.lookup_insert_of_ne _ other

theorem lookup_of_unregister {topicId other : ℕ} {info entry : TopicInfo}
    (kept : (socket.unregister topicId info).topicIds.lookup other = some entry) :
    socket.topicIds.lookup other = some entry := by
  by_cases same : other = topicId
  · subst other
    rw [Socket.unregister, Finmap.lookup_erase] at kept
    simp at kept
  · rwa [Socket.unregister, Finmap.lookup_erase_ne same] at kept

/-- A frame adds an entry only by a join. -/
theorem Moves.entry {next : Socket} {frame : Frame} (moves : Moves admitted socket next frame)
    {topicId : ℕ} {info : TopicInfo} (entry : next.topicIds.lookup topicId = some info) :
    socket.topicIds.lookup topicId = some info ∨
      ∃ ref topic, frame = .join ref topic ∧ Joins admitted socket topic info := by
  cases frame with
  | heartbeat =>
      obtain rfl : next = _ := moves
      exact Or.inl entry
  | ignored =>
      obtain rfl : next = _ := moves
      exact Or.inl entry
  | push =>
      obtain rfl : next = _ := moves
      exact Or.inl entry
  | join ref topic =>
      rcases moves with rfl | ⟨new, joins, rfl⟩
      · exact Or.inl entry
      · rw [lookup_joined] at entry
        split at entry
        · exact Or.inr ⟨ref, topic, rfl, Option.some.inj entry ▸ joins⟩
        · exact Or.inl entry
  | leave left =>
      rcases moves with rfl | ⟨old, _, rfl⟩
      · exact Or.inl entry
      · exact Or.inl (lookup_of_unregister entry)

/-- The ids of a socket never change. -/
theorem Moves.ids {next : Socket} {frame : Frame} (moves : Moves admitted socket next frame) :
    next.tenantId = socket.tenantId ∧ next.userId = socket.userId := by
  cases frame with
  | heartbeat =>
      obtain rfl : next = _ := moves
      exact ⟨rfl, rfl⟩
  | ignored =>
      obtain rfl : next = _ := moves
      exact ⟨rfl, rfl⟩
  | push =>
      obtain rfl : next = _ := moves
      exact ⟨rfl, rfl⟩
  | join => rcases moves with rfl | ⟨_, _, rfl⟩ <;> exact ⟨rfl, rfl⟩
  | leave => rcases moves with rfl | ⟨_, _, rfl⟩ <;> exact ⟨rfl, rfl⟩

end Frame

end Mercury.Gateway
