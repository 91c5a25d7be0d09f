import Mercury.Gateway.InStep

/-!
# Routing between spellings of a channel id

The stores know a channel by the sixteen bytes of its id, PubSub by the text that
the client sent. The hexadecimal digits have two cases, so that one channel has
many PubSub topics. A message reaches another socket exactly where that socket
is joined by the spelling of the sender (`send_reaches_iff`).
-/

namespace Mercury.Gateway

open Foundations Foundations.Program Persistence

/-- The frames that the client of a process gets of the calls of another process. -/
def SocketProcess.hears (process : SocketProcess) (made : List (Performed calls Raise)) :
    List Bytes :=
  made.flatMap fun taken =>
    match taken.call with
    | .broadcast topic event payload => process.receives topic event payload
    | .broadcastFrom topic event payload => process.receives topic event payload
    | _ => []

/-- The frame is a `msg:new` broadcast. -/
def IsMessageNew (frame : Bytes) : Prop :=
  ∃ topicId payload,
    Sdk.decodeFrame frame = some ⟨FrameType.broadcast, 0, topicId, Event.msgNew :: payload⟩

section

variable {native : Native} {socket : Socket} {ref topicId : ℕ} {payload reply : Bytes}
  {info : TopicInfo} {made : List (Performed calls Raise)} {reaction : Reaction}

theorem eq_some_of_fetch {value : Option Bytes} {bytes : Bytes}
    (performs : (fetch value).Performs made (.ok bytes)) : value = some bytes := by
  rcases value with _ | found
  · cases performs.2
  · exact congrArg some (Except.ok.inj performs.2).symm

/-- A send that is answered ok has broadcast its message. -/
theorem broadcast_of_dispatchMsgSend
    (performs : (dispatchMsgSend native ref topicId payload info socket).Performs made
      (.ok reaction))
    (accepted : reaction.pushed = [replyFrame ref topicId statusOk reply]) :
    ∃ pubsub data, info.pubsub = some pubsub ∧
      ∃ taken ∈ made, taken.call = .broadcast pubsub Event.msgNew data := by
  have refuses : ∀ {calls reason}, (pure (replyError socket ref topicId reason) :
      Handler Reaction).Performs calls (.ok reaction) → False := by
    rintro calls reason ⟨-, same⟩
    rw [Except.ok.inj same] at accepted
    exact replyError_ne_ok accepted
  unfold dispatchMsgSend at performs
  rcases performs.of_bind with ⟨_, _, channelId, rfl, -, decodes⟩
  split at decodes
  · exact (refuses decodes).elim
  next channelIdBin _ =>
  split at decodes
  · exact (refuses decodes).elim
  · cases decodes.2
  next envelope _ =>
  rcases decodes.of_bind with ⟨_, _, reading, rfl, -, validates⟩
  rcases validates.of_bind with ⟨_, _, verdict, rfl, -, validated⟩
  split at validated
  · exact (refuses validated).elim
  rcases validated.of_bind with ⟨_, _, allowed, rfl, -, limits⟩
  split at limits
  · rcases limits.of_bind with ⟨_, _, bucket, rfl, -, persists⟩
    rcases persists.of_bind with ⟨_, _, _, rfl, -, fetches⟩
    rcases fetches.of_bind with ⟨_, _, pubsub, rfl, fetched, broadcasts⟩
    rcases broadcasts.of_bind with ⟨_, _, _, rfl, broadcast, -⟩
    cases broadcast.of_perform
    refine ⟨pubsub, _, eq_some_of_fetch fetched, ⟨.broadcast pubsub Event.msgNew
      (native.envelopeEncode (sentEnvelope socket channelIdBin envelope)), .ok ()⟩, ?_, rfl⟩
    simp [sentEnvelope]
  · exact (refuses limits).elim

theorem broadcast_of_accepted {data : Bytes}
    (performs : (handleIn native data socket).Performs made (.ok reaction))
    (parsed : Frame.parse data = .push ref topicId Event.msgSend payload)
    (entry : socket.topicIds.lookup topicId = some info)
    (accepted : reaction.pushed = [replyFrame ref topicId statusOk reply]) :
    ∃ pubsub data, info.pubsub = some pubsub ∧
      ∃ taken ∈ made, taken.call = .broadcast pubsub Event.msgNew data := by
  rw [handleIn, parsed, handleFrame, handlePush, entry] at performs
  rcases performs.of_resume with ⟨first, later, outcome, rfl, inner, rescued⟩
  have refuses : ∀ {reason}, reaction ≠ replyError socket ref topicId reason := by
    rintro reason rfl
    exact replyError_ne_ok accepted
  rcases outcome with raised | result
  · exact absurd (Except.ok.inj rescued.2) refuses
  rcases rescued with ⟨rfl, same⟩
  cases same
  dsimp only at inner
  split at inner
  · exact absurd (Except.ok.inj inner.2) refuses
  · rw [List.append_nil]
    exact broadcast_of_dispatchMsgSend inner accepted

end

section

variable {native : Native} {process next : SocketProcess} {pubsub payload frame : Bytes}
  {event : Byte}

theorem mem_receives :
    frame ∈ process.receives pubsub event payload ↔
      pubsub ∈ process.subscriptions ∧
        frame ∈ (handleBroadcast pubsub event payload process.socket).pushed := by
  rw [SocketProcess.receives, List.mem_flatten, ← List.count_pos_iff, Nat.pos_iff_ne_zero]
  constructor
  · rintro ⟨frames, framesMem, frameMem⟩
    rcases List.mem_replicate.mp framesMem with ⟨subscribed, rfl⟩
    exact ⟨subscribed, frameMem⟩
  · rintro ⟨subscribed, frameMem⟩
    exact ⟨_, List.mem_replicate.mpr ⟨subscribed, rfl⟩, frameMem⟩

theorem Routed.received (routed : Routed process)
    (received : frame ∈ process.receives pubsub event payload) :
    pubsub ∈ process.socket.pubsubTopics ∧
      ∃ topicId,
        Sdk.decodeFrame frame = some ⟨FrameType.broadcast, 0, topicId, event :: payload⟩ := by
  rcases mem_receives.mp received with ⟨subscribed, pushed⟩
  rcases routed.broadcast pushed with ⟨topicId, info, decoded, -, -⟩
  exact ⟨(routed.subscribed pubsub).mp subscribed, topicId, decoded⟩

theorem Routed.exists_received (routed : Routed process)
    (joined : pubsub ∈ process.socket.pubsubTopics) :
    ∃ frame, frame ∈ process.receives pubsub event payload := by
  rcases Finmap.mem_iff.mp joined with ⟨topicId, named⟩
  refine ⟨FrameType.broadcast ::
    (littleEndian 4 0 ++ littleEndian 2 topicId ++ event :: payload), ?_⟩
  refine mem_receives.mpr ⟨(routed.subscribed pubsub).mpr joined, ?_⟩
  rw [handleBroadcast, named]
  exact List.mem_singleton_self _

theorem tenantId_of_handled {made : List (Performed calls Raise)} {frame : Frame}
    {pushed : List Bytes} (handled : Handled process made frame pushed next) :
    next.socket.tenantId = process.socket.tenantId := by
  cases handled <;> rfl

theorem tenantId_of_step {label : ProcessLabel} (step : ProcessStep native process label next) :
    next.socket.tenantId = process.socket.tenantId := by
  cases step with
  | delivered => rw [delivered_eq]
  | handled performs => exact tenantId_of_handled (handled_of_performs performs)

theorem tenantId_of_run {labels : List ProcessLabel}
    (run : Run (ProcessStep native) process labels next) :
    next.socket.tenantId = process.socket.tenantId := by
  induction run with
  | refl => rfl
  | snoc _ last ih => exact (tenantId_of_step last).trans ih

end

/-- The frame that `data` holds is a send on the topic, and it is answered ok. -/
structure AcceptedSend (native : Native) (socket : Socket) (topic data : Bytes)
    (made : List (Performed calls Raise)) : Prop where
  accepted : ∃ ref topicId payload info reaction reply,
    Frame.parse data = .push ref topicId Event.msgSend payload ∧
      socket.topicIds.lookup topicId = some info ∧ info.topic = topic ∧
        (handleIn native data socket).Performs made (.ok reaction) ∧
          reaction.pushed = [replyFrame ref topicId statusOk reply]

theorem hears_iff {native : Native} {sender receiver : SocketProcess} {hex data : Bytes}
    {made : List (Performed calls Raise)} (senderRouted : Routed sender)
    (receiverRouted : Routed receiver)
    (sameTenant : receiver.socket.tenantId = sender.socket.tenantId)
    (send : AcceptedSend native sender.socket (ascii "channel:" ++ hex) data made) :
    (∃ frame ∈ receiver.hears made, IsMessageNew frame) ↔
      ascii "channel:" ++ hex ∈ receiver.socket.topics := by
  rcases send.accepted with
    ⟨ref, topicId, payload, info, reaction, reply, parsed, entry, isTopic, performs, accepted⟩
  have spelled : info = spelledEntry sender.socket.tenantId.val hex := by
    have same := senderRouted.entries topicId info entry
    rw [isTopic, topicEntry_channel] at same
    exact (Option.some.inj same).symm
  have alike : ascii "channel:" ++ hex ∈ receiver.socket.topics ↔
      channelTopic sender.socket.tenantId.val hex ∈ receiver.socket.pubsubTopics := by
    rw [Finmap.mem_iff, Finmap.mem_iff, receiverRouted.alike _ _ _ topicEntry_channel rfl,
      sameTenant]
  rw [alike]
  constructor
  · rintro ⟨frame, heard, -⟩
    rcases List.mem_flatMap.mp heard with ⟨taken, takenMem, received⟩
    rw [handleIn, parsed] at performs
    rcases (within_handleFrame.of_performs performs fun _ _ => trivial).1 taken takenMem with
      ⟨sameInfo, sameEntry, issued⟩
    cases entry.symm.trans sameEntry
    have joined : ∀ {topic sent content}, info.pubsub = some topic →
        frame ∈ receiver.receives topic sent content →
          channelTopic sender.socket.tenantId.val hex ∈ receiver.socket.pubsubTopics := by
      intro topic sent content carries received
      rw [spelled] at carries
      cases carries
      exact (receiverRouted.received received).1
    rcases taken with ⟨asked, answer⟩
    cases asked with
    | broadcast => exact joined issued.1 received
    | broadcastFrom => exact joined issued.1 received
    | _ => cases received
  · intro joined
    rcases broadcast_of_accepted performs parsed entry accepted with
      ⟨pubsub, content, carries, taken, takenMem, isBroadcast⟩
    rw [spelled] at carries
    cases carries
    rcases receiverRouted.exists_received joined with ⟨frame, received⟩
    rcases receiverRouted.received received with ⟨-, topicId, decoded⟩
    refine ⟨frame, List.mem_flatMap.mpr ⟨taken, takenMem, ?_⟩, topicId, content, decoded⟩
    simp only [isBroadcast]
    exact received

/-- A message that is sent on a spelling of a channel reaches another socket of the tenant
exactly where the socket's `topics` has this spelling. -/
theorem send_reaches_iff (native : Native)
    (tenantId senderUser senderDevice receiverUser receiverDevice : Id16)
    {sent received : List ProcessLabel} {sender receiver : SocketProcess}
    (senderRun : Run (ProcessStep native) (SocketProcess.init tenantId senderUser senderDevice)
      sent sender)
    (receiverRun : Run (ProcessStep native)
      (SocketProcess.init tenantId receiverUser receiverDevice) received receiver)
    {hex data : Bytes} {made : List (Performed calls Raise)}
    (send : AcceptedSend native sender.socket (ascii "channel:" ++ hex) data made) :
    (∃ frame ∈ receiver.hears made, IsMessageNew frame) ↔
      ascii "channel:" ++ hex ∈ receiver.socket.topics :=
  hears_iff
    (senderRun.invariant (fun routed step => routed.step step) (routed_init _ _ _))
    (receiverRun.invariant (fun routed step => routed.step step) (routed_init _ _ _))
    ((tenantId_of_run receiverRun).trans (tenantId_of_run senderRun).symm) send

/-! ### Two spellings of one channel -/

/-- The lower case spelling of the same id. -/
def lowerHex : Bytes :=
  ascii "abababababababababababababababab"

theorem channelIdToBin_lowerHex : channelIdToBin lowerHex = some (List.replicate 16 0xAB) := by
  decide

/-- The calls of a send that is within its limits, while NATS is down. -/
def sendCalls (native : Native) (socket : Socket) (hex channelId : Bytes) (envelope : Envelope)
    (bucket now : ℕ) : List (Performed calls Raise) :=
  [⟨.nativeTime, .ok now⟩, ⟨.allow socket.tenantId.val socket.userId.val, .ok true⟩,
    ⟨.natsRunning, .ok false⟩, ⟨.scyllaEnabled, .ok true⟩,
    ⟨.startTask (.persistMessage socket.tenantId.val channelId bucket
      (sentMessage socket envelope)), .ok ()⟩,
    ⟨.broadcast (channelTopic socket.tenantId.val hex) Event.msgNew
      (native.envelopeEncode (sentEnvelope socket channelId envelope)), .ok ()⟩]

section Send

variable {native : Native} {socket : Socket} {ref topicId now bucket : ℕ}
  {data payload hex channelId : Bytes} {envelope : Envelope}

theorem performs_send (parsed : Frame.parse data = .push ref topicId Event.msgSend payload)
    (entry : socket.topicIds.lookup topicId = some (spelledEntry socket.tenantId.val hex))
    (decoded : channelIdToBin hex = some channelId)
    (envelopeEq : native.envelopeDecode payload = .ok (.ok envelope))
    (valid : validateMessage now socket.tenantId.val channelId socket.userId.val
      envelope.payload 0 = .ok (.ok ()))
    (bucketEq : TimeBucket.compute envelope.timestamp = .ok bucket) :
    (handleIn native data socket).Performs
      (sendCalls native socket hex channelId envelope bucket now)
      (.ok (replyOk socket ref topicId envelope.messageId)) := by
  have sends : (dispatchMsgSend native ref topicId payload (spelledEntry socket.tenantId.val hex)
      socket).Performs (sendCalls native socket hex channelId envelope bucket now)
        (.ok (replyOk socket ref topicId envelope.messageId)) := by
    rw [dispatchMsgSend, spelledEntry]
    simp only [fetch_bind, decoded, envelopeEq]
    refine ⟨.ok now, _, rfl, ?_⟩
    simp only [Program.resume, valid]
    refine ⟨.ok true, _, rfl, ?_⟩
    simp only [Program.resume, bucketEq]
    exact ⟨_, _, rfl, _, _, rfl, _, _, rfl, _, _, rfl, rfl, rfl⟩
  have notLobby : ¬(Event.msgSend ∈ Event.requiresChannel ∧
      (spelledEntry socket.tenantId.val hex).channelId = none) := by
    simp [spelledEntry]
  rw [handleIn, parsed, handleFrame, handlePush, entry, ← List.append_nil (sendCalls ..)]
  dsimp only
  rw [if_neg notLobby]
  exact Performs.resume sends ⟨rfl, rfl⟩

theorem acceptedSend_of_sends
    (parsed : Frame.parse data = .push ref topicId Event.msgSend payload)
    (entry : socket.topicIds.lookup topicId = some (spelledEntry socket.tenantId.val hex))
    (decoded : channelIdToBin hex = some channelId)
    (envelopeEq : native.envelopeDecode payload = .ok (.ok envelope))
    (valid : validateMessage now socket.tenantId.val channelId socket.userId.val
      envelope.payload 0 = .ok (.ok ()))
    (bucketEq : TimeBucket.compute envelope.timestamp = .ok bucket) :
    AcceptedSend native socket (ascii "channel:" ++ hex) data
      (sendCalls native socket hex channelId envelope bucket now) :=
  ⟨ref, topicId, payload, _, _, _, parsed, entry, rfl,
    performs_send parsed entry decoded envelopeEq valid bucketEq, rfl⟩

end Send

/-- The process of a user who has joined the channel by its upper case spelling. -/
def upperSender : SocketProcess :=
  (newProcess 2).joinSpelled upperHex

/-- A message of one byte. -/
def shortEnvelope : Envelope where
  tenantId := List.replicate 16 1
  channelId := List.replicate 16 0xAB
  senderId := List.replicate 16 2
  messageId := List.replicate 16 7
  timestamp := 1
  payload := [7]

def sendFrame : Bytes :=
  Sdk.pushFrame 2 1 Event.msgSend (Capnp.envelope shortEnvelope)

theorem acceptedSend_upperSender :
    AcceptedSend (Capnp.native [shortEnvelope] []) upperSender.socket
      (ascii "channel:" ++ upperHex) sendFrame
      (sendCalls (Capnp.native [shortEnvelope] []) upperSender.socket upperHex
        (List.replicate 16 0xAB) shortEnvelope 0 1) := by
  refine acceptedSend_of_sends (Sdk.parse_pushFrame _ _ (by decide) (by decide)) ?_
    channelIdToBin_upperHex ?_ rfl rfl
  · exact Finmap.lookup_insert _
  · simp [Capnp.native]

theorem run_joinSpelled (native : Native) (userId : Byte) {hex channelId : Bytes}
    (decoded : channelIdToBin hex = some channelId) :
    ∃ labels, Run (ProcessStep native) (newProcess userId) labels
      ((newProcess userId).joinSpelled hex) :=
  ⟨_, Run.refl.snoc (@processStep_join native (newProcess userId) 1 hex channelId (by decide)
    (Nat.le_of_ble_eq_true rfl) decoded)⟩

theorem topics_joinSpelled (process : SocketProcess) (hex : Bytes) :
    (process.joinSpelled hex).socket.topics =
      process.socket.topics.insert (ascii "channel:" ++ hex) process.socket.nextTopicId :=
  rfl

/-- Both users have joined by the upper case spelling. -/
theorem send_reaches_same_spelling :
    ∃ frame ∈ ((newProcess 3).joinSpelled upperHex).hears
        (sendCalls (Capnp.native [shortEnvelope] []) upperSender.socket upperHex
          (List.replicate 16 0xAB) shortEnvelope 0 1), IsMessageNew frame := by
  rcases run_joinSpelled (Capnp.native [shortEnvelope] []) 2 channelIdToBin_upperHex with
    ⟨sent, senderRun⟩
  rcases run_joinSpelled (Capnp.native [shortEnvelope] []) 3 channelIdToBin_upperHex with
    ⟨received, receiverRun⟩
  refine (send_reaches_iff _ _ _ _ _ _ senderRun receiverRun acceptedSend_upperSender).mpr ?_
  rw [topics_joinSpelled, Finmap.mem_insert]
  exact Or.inl rfl

/-- The socket has an entry for the channel under the spelling `hex`. -/
def SocketProcess.JoinedBy (process : SocketProcess) (hex : Bytes) : Prop :=
  ∃ topicId info, process.socket.topicIds.lookup topicId = some info ∧
    info.topic = ascii "channel:" ++ hex

/-- The other user has joined by the lower case spelling. -/
theorem send_lost_between_spellings :
    ¬∀ (native : Native) (tenantId senderUser senderDevice receiverUser receiverDevice : Id16)
        (sent received : List ProcessLabel) (sender receiver : SocketProcess)
        (hex otherHex channelId data : Bytes) (made : List (Performed calls Raise)),
      Run (ProcessStep native) (SocketProcess.init tenantId senderUser senderDevice) sent
          sender →
        Run (ProcessStep native) (SocketProcess.init tenantId receiverUser receiverDevice)
            received receiver →
          channelIdToBin hex = some channelId → channelIdToBin otherHex = some channelId →
            sender.JoinedBy hex → receiver.JoinedBy otherHex →
              AcceptedSend native sender.socket (ascii "channel:" ++ hex) data made →
                ∃ frame ∈ receiver.hears made, IsMessageNew frame := by
  intro hearsNew
  rcases run_joinSpelled (Capnp.native [shortEnvelope] []) 2 channelIdToBin_upperHex with
    ⟨sent, senderRun⟩
  rcases run_joinSpelled (Capnp.native [shortEnvelope] []) 3 channelIdToBin_lowerHex with
    ⟨received, receiverRun⟩
  have reached := hearsNew _ _ _ _ _ _ _ _ _ _ _ _ _ _ _ senderRun receiverRun
    channelIdToBin_upperHex channelIdToBin_lowerHex ⟨1, _, Finmap.lookup_insert _, rfl⟩
    ⟨1, _, Finmap.lookup_insert _, rfl⟩ acceptedSend_upperSender
  rw [hears_iff (senderRun.invariant (fun routed step => routed.step step) (routed_init _ _ _))
    (receiverRun.invariant (fun routed step => routed.step step) (routed_init _ _ _))
    rfl acceptedSend_upperSender, topics_joinSpelled, Finmap.mem_insert] at reached
  rcases reached with same | joined
  · exact absurd same (by decide)
  · exact Finmap.notMem_empty joined

end Mercury.Gateway
