import Mercury.Foundations.Utf8
import Mercury.Gateway.Agreement
import Mercury.Gateway.ContentRuns
import Mercury.Sdk.OfflineDelivery
import Mercury.Sdk.Transport

/-!
# The three routes of a message

`send` gives the message to the handlers of the sender, the gateway broadcasts it to the
other members, and `history` reads it back from the stores. The content type takes only
the first route: the other two fill in 0. They also decode the content, and `TextDecoder`
drops a byte order mark at its front. So the three messages are the same exactly where
neither shows (`agrees_iff`).
-/

namespace Mercury.Sdk

open Gateway Foundations Foundations.Program Persistence

/-! ## Texts -/

/-- A string of JavaScript without lone surrogates. -/
abbrev Text := List Char

def byteOrderMark : Char :=
  '\uFEFF'

namespace TextCodec

/-- `new TextEncoder().encode`. -/
def encode (text : Text) : Bytes :=
  Utf8.encode text

/-- `new TextDecoder().decode`, which leaves out a byte order mark at the front. -/
def decode (bytes : Bytes) : Text :=
  match Utf8.decode bytes with
  | [] => []
  | first :: rest => if first = byteOrderMark then rest else first :: rest

theorem decode_encode_eq_iff (text : Text) :
    decode (encode text) = text ↔ text.head? ≠ some byteOrderMark := by
  rw [decode, encode, Utf8.decode_encode]
  rcases text with _ | ⟨first, rest⟩
  · simp
  by_cases marked : first = byteOrderMark
  · simp [marked]
  · simp [marked]

end TextCodec

/-! ## Messages of a channel -/

/-- `Message` of `types.ts`. -/
structure ChannelMessage where
  id : Bytes
  sender : Bytes
  content : Text
  contentType : ℕ
  timestamp : ℕ
deriving DecidableEq

namespace Channel

variable (codec : Codec) (aead : Aead) (channel : Channel)

def sendEnvelope (ts : ℕ) (msgId payload : Bytes) : Envelope where
  tenantId := channel.tenantId
  channelId := channel.channelIdBytes
  senderId := channel.userId
  messageId := msgId
  timestamp := ts
  payload := payload

/-- `send` while the transport is connected: the message that the handlers are given, and the
id that it resolves to. -/
def sendConnected (content : Text) (contentType : ℕ) : Script (ChannelMessage × Bytes) := do
  let ts ← request .now
  let msgId ← request (.randomBytes 16)
  let payload ← request (.encrypt (TextCodec.encode content))
  let reply ← request (.push channel.topic Event.msgSend
    (codec.encodeEnvelope (channel.sendEnvelope ts msgId payload)))
  pure
    ({ id := bytesToHex msgId
       sender := bytesToHex channel.userId
       content := content
       contentType := contentType
       timestamp := ts },
      if 16 ≤ reply.length then bytesToHex (reply.take 16) else bytesToHex msgId)

/-- Apart from its handlers, `send` is what it was. -/
theorem sendOnline_eq (content : Text) (contentType : ℕ) :
    channel.sendOnline codec (TextCodec.encode content) =
      channel.sendConnected codec content contentType >>= fun sent => pure sent.2 := by
  simp only [sendOnline, sendConnected, bind_bind]
  rfl

/-- The message that is made of an envelope and its plaintext. -/
def messageOf (envelope : Envelope) (plaintext : Bytes) : ChannelMessage where
  id := bytesToHex envelope.messageId
  sender := bytesToHex envelope.senderId
  content := TextCodec.decode plaintext
  contentType := 0
  timestamp := envelope.timestamp

/-- The handler of `msg:new` that `join` registers: the message that it gives to the message
handlers, unless it throws, is the user's own, or cannot be decrypted. -/
def onMsgNew (data : Bytes) : Option ChannelMessage := do
  let envelope ← codec.decodeEnvelope data
  if bytesToHex envelope.senderId = bytesToHex channel.userId then none
  else (MlsClient.decrypt aead envelope.payload).map (messageOf envelope)

/-- The messages that `history` reads from a reply, unless it throws. -/
def readHistory (reply : Bytes) : Option (List ChannelMessage) := do
  let envelopes ← unpackEnvelopes reply
  let decoded ← envelopes.mapM codec.decodeEnvelope
  pure (decoded.filterMap fun envelope =>
    (MlsClient.decrypt aead envelope.payload).map (messageOf envelope))

end Channel

/-! ## A message that is sent -/

/-- A message on its way out, with what the device contributes to it. -/
structure OutgoingMessage (aead : Aead) where
  channel : Channel
  content : Text
  contentType : ℕ
  ts : ℕ
  msgId : Bytes
  iv : Bytes
  ivLength : iv.length = MlsClient.ivLen

namespace OutgoingMessage

variable {aead : Aead} (outgoing : OutgoingMessage aead)

def ciphertext : Bytes :=
  MlsClient.encrypt aead outgoing.iv (TextCodec.encode outgoing.content)

def envelope : Envelope :=
  outgoing.channel.sendEnvelope outgoing.ts outgoing.msgId outgoing.ciphertext

/-- The message that the sender's own handlers are given. -/
def message : ChannelMessage where
  id := bytesToHex outgoing.msgId
  sender := bytesToHex outgoing.channel.userId
  content := outgoing.content
  contentType := outgoing.contentType
  timestamp := outgoing.ts

/-- The calls of `sendConnected`. -/
def deviceCalls (codec : Codec) (reply : Bytes) : List (Performed device Thrown) :=
  [⟨.now, .ok outgoing.ts⟩, ⟨.randomBytes 16, .ok outgoing.msgId⟩,
    ⟨.encrypt (TextCodec.encode outgoing.content), .ok outgoing.ciphertext⟩,
    ⟨.push outgoing.channel.topic Event.msgSend (codec.encodeEnvelope outgoing.envelope),
      .ok reply⟩]

end OutgoingMessage

/-- A `send` while the transport is connected whose frame the gateway answers ok. Cap'n Proto
gives back what it is given. -/
structure ConnectedSend (codec : Codec) (native : Native) (aead : Aead)
    (tenantId channelId : Id16) extends OutgoingMessage aead where
  reply : Bytes
  echo : ChannelMessage
  result : Bytes
  sends : (channel.sendConnected codec content contentType).Performs
    (toOutgoingMessage.deviceCalls codec reply) (.ok (echo, result))
  /-- The socket of the transport. -/
  socket : Socket
  ref : ℕ
  topicId : ℕ
  info : TopicInfo
  tenant : socket.tenantId = tenantId
  user : socket.userId.val = channel.userId
  refFits : ref < 256 ^ 4
  topicFits : topicId < 256 ^ 2
  entry : socket.topicIds.lookup topicId = some info
  joined : topicEntry tenantId.val info.topic = some info
  names : info.Names channelId.val
  made : List (Performed calls Raise)
  reaction : Reaction
  performs : (handleIn native (pushFrame ref topicId Event.msgSend
    (codec.encodeEnvelope toOutgoingMessage.envelope)) socket).Performs made (.ok reaction)
  accepted : reaction.pushed = [replyFrame ref topicId statusOk reply]
  writes : codec.Writes native toOutgoingMessage.envelope
  reads : codec.Reads native (sentEnvelope socket channelId.val toOutgoingMessage.envelope)

namespace ConnectedSend

variable {codec : Codec} {native : Native} {aead : Aead} {tenantId channelId : Id16}
  (send : ConnectedSend codec native aead tenantId channelId)

/-- The message that the gateway stores. -/
def stored : Message :=
  sentMessage send.socket send.envelope

/-- The message that the other routes make of it. -/
def arrived : ChannelMessage :=
  Channel.messageOf (sentEnvelope send.socket channelId.val send.envelope)
    (TextCodec.encode send.content)

/-- A message of the channel that the SDK can read, and that is the sent one if it has its id. -/
structure Fits (msg : Message) : Prop where
  reads : codec.Reads native (messageEnvelope tenantId.val channelId.val msg)
  own : msg.messageId = send.msgId → msg = send.stored

/-- The handlers of the other members get the message of the sender. -/
def BroadcastAgrees : Prop :=
  ∀ receiver : SocketProcess, Routed receiver → receiver.socket.tenantId = tenantId →
    ∀ frame ∈ receiver.hears send.made, IsMessageNew frame →
      ∀ (transport : Transport Channel), ∀ reader ∈ (transport.handleMessage frame).callbacks,
        reader.userId ≠ send.channel.userId →
          reader.onMsgNew codec aead (transport.handleMessage frame).eventData = some send.echo

/-- An envelope of the reply has the id of the message. -/
def Carries (reply : Bytes) : Prop :=
  ∃ envelopes, unpackEnvelopes reply = some envelopes ∧ ∃ bytes ∈ envelopes,
    ∃ envelope, codec.decodeEnvelope bytes = some envelope ∧ envelope.messageId = send.msgId

/-- Whatever a node does whose frames leave its id to the message, a history that is asked for
gives the message of the sender. -/
def HistoryAgrees : Prop :=
  ∀ (json : Json) (rate : ℕ) (stores : Stores) (before : List NodeLabel) (source target : Node)
    (socket : Socket) (data : Bytes) (reaction : Reaction) (reply : Bytes)
    (messages : List ChannelMessage), json.RoundTrips →
    stores.Contain json tenantId.val channelId.val send.Fits →
    Run (Guarded (fun node => node.FramesGood native tenantId.val channelId.val send.Fits)
      (Node.Step native json rate)) (Node.start stores) before source →
    Nonempty (source.Handles native json rate
      (fun node => node.FramesGood native tenantId.val channelId.val send.Fits) socket data
      reaction target) →
    ∀ push : ChannelPush tenantId channelId socket data, push.event = Event.msgHistory →
      reaction.pushed = [replyFrame push.ref push.topicId statusOk reply] →
      Channel.readHistory codec aead reply = some messages →
        (∀ message ∈ messages, message.id = send.echo.id → message = send.echo) ∧
          (send.Carries reply → send.echo ∈ messages)

/-- All members get the same message on all routes. -/
structure Agrees : Prop where
  broadcast : send.BroadcastAgrees
  history : send.HistoryAgrees

end ConnectedSend

/-! ## What arrives -/

theorem echo_of_sendConnected {codec : Codec} {aead : Aead} {outgoing : OutgoingMessage aead}
    {reply result : Bytes} {echo : ChannelMessage}
    (sends : (outgoing.channel.sendConnected codec outgoing.content
      outgoing.contentType).Performs (outgoing.deviceCalls codec reply) (.ok (echo, result))) :
    echo = outgoing.message := by
  rcases Performs.of_bind sends with ⟨_, _, now, split, reads, sends⟩
  cases reads.of_perform
  cases split
  rcases Performs.of_bind sends with ⟨_, _, random, split, generates, sends⟩
  cases generates.of_perform
  cases split
  rcases Performs.of_bind sends with ⟨_, _, encrypted, split, encrypts, sends⟩
  cases encrypts.of_perform
  cases split
  rcases Performs.of_bind sends with ⟨_, _, replied, split, pushes, ends⟩
  cases pushes.of_perform
  cases ends.2
  rfl

namespace ConnectedSend

variable {codec : Codec} {native : Native} {aead : Aead} {tenantId channelId : Id16}
  {send : ConnectedSend codec native aead tenantId channelId}

theorem echo_eq : send.echo = send.message :=
  echo_of_sendConnected send.sends

theorem arrived_eq : send.arrived =
    ⟨bytesToHex send.msgId, bytesToHex send.channel.userId,
      TextCodec.decode (TextCodec.encode send.content), 0, send.ts⟩ := by
  rw [← send.user]
  rfl

/-- What the other routes make of the message is the message of the sender exactly where its
content type is 0 and its content has no byte order mark at the front. -/
theorem arrived_eq_echo_iff : send.arrived = send.echo ↔
    send.contentType = 0 ∧ send.content.head? ≠ some byteOrderMark := by
  rw [arrived_eq, echo_eq, OutgoingMessage.message, ChannelMessage.mk.injEq,
    ← TextCodec.decode_encode_eq_iff]
  constructor
  · rintro ⟨-, -, content, type, -⟩
    exact ⟨type.symm, content⟩
  · rintro ⟨type, content⟩
    exact ⟨rfl, rfl, content, type.symm, rfl⟩

/-- The payload of the broadcast. -/
theorem decodeFrame_of_hears {receiver : SocketProcess} (routed : Routed receiver) {frame : Bytes}
    (heard : frame ∈ receiver.hears send.made) (isNew : IsMessageNew frame) :
    ∃ topicId, decodeFrame frame = some ⟨FrameType.broadcast, 0, topicId, Event.msgNew ::
      native.envelopeEncode (sentEnvelope send.socket channelId.val send.envelope)⟩ := by
  rcases List.mem_flatMap.mp heard with ⟨⟨asked, answer⟩, takenMem, received⟩
  have performs := send.performs
  rw [handleIn, parse_pushFrame _ _ send.refFits send.topicFits] at performs
  rcases (within_handleFrame.of_performs performs fun _ _ => trivial).1 _ takenMem with
    ⟨info, entry, issued⟩
  cases send.entry.symm.trans entry
  rcases isNew with ⟨newId, content, isNew⟩
  cases asked with
  | broadcast topic sent data =>
      rcases (routed.received received).2 with ⟨topicId, decoded⟩
      cases isNew.symm.trans decoded
      rcases issued.2 rfl with ⟨-, cid, envelope, bucket, names, sends, rfl⟩
      obtain rfl := names.unique send.names
      cases send.writes.decoded.symm.trans sends.1
      exact ⟨_, decoded⟩
  | broadcastFrom topic sent data =>
      rcases (routed.received received).2 with ⟨topicId, decoded⟩
      cases isNew.symm.trans decoded
      exact absurd rfl issued.2
  | _ => cases received

/-- Another member that is given the frame gets what arrives. -/
theorem onMsgNew_of_decodeFrame {frame : Bytes} {topicId : ℕ}
    (decoded : decodeFrame frame = some ⟨FrameType.broadcast, 0, topicId, Event.msgNew ::
      native.envelopeEncode (sentEnvelope send.socket channelId.val send.envelope)⟩)
    (transport : Transport Channel) {reader : Channel}
    (other : reader.userId ≠ send.channel.userId) :
    reader.onMsgNew codec aead (transport.handleMessage frame).eventData = some send.arrived := by
  have handed : (transport.handleMessage frame).eventData =
      native.envelopeEncode (sentEnvelope send.socket channelId.val send.envelope) := by
    rw [Transport.handleMessage, decoded]
    rfl
  have foreign : bytesToHex (sentEnvelope send.socket channelId.val send.envelope).senderId ≠
      bytesToHex reader.userId := by
    intro same
    exact other ((bytesToHex_injective same).symm.trans send.user)
  have opened : MlsClient.decrypt aead
      (sentEnvelope send.socket channelId.val send.envelope).payload =
        some (TextCodec.encode send.content) :=
    MlsClient.decrypt_encrypt aead send.ivLength _
  rw [handed, Channel.onMsgNew, send.reads.decoded]
  simp only [Option.bind_eq_bind, Option.bind_some, if_neg foreign, opened, Option.map_some]
  rfl

/-- The sender's own broadcast reaches a socket that joins the topic. -/
theorem exists_heard : ∃ (receiver : SocketProcess) (frame : Bytes), Routed receiver ∧
    receiver.socket.tenantId = tenantId ∧ frame ∈ receiver.hears send.made ∧
      IsMessageNew frame := by
  have parsed := parse_pushFrame Event.msgSend (codec.encodeEnvelope send.envelope)
    send.refFits send.topicFits
  rcases broadcast_of_accepted send.performs parsed send.entry send.accepted with
    ⟨pubsub, data, carries, taken, takenMem, isBroadcast⟩
  let fresh := SocketProcess.init tenantId tenantId tenantId
  have routed := (routed_init tenantId tenantId tenantId).joined (Nat.le_of_ble_eq_true rfl)
    send.joined
  have subscribed : pubsub ∈ (fresh.socket.joined send.info).pubsubTopics :=
    mem_pubsubTopics_joined.mpr (Or.inl carries)
  rcases routed.exists_received subscribed with ⟨frame, received⟩
  refine ⟨_, frame, routed, rfl, List.mem_flatMap.mpr ⟨taken, takenMem, ?_⟩, ?_⟩
  · simp only [isBroadcast]
    exact received
  · rcases (routed.received received).2 with ⟨newId, decoded⟩
    exact ⟨newId, data, decoded⟩

theorem broadcastAgrees_iff : send.BroadcastAgrees ↔ send.arrived = send.echo := by
  constructor
  · intro agrees
    rcases send.exists_heard with ⟨receiver, frame, routed, tenant, heard, isNew⟩
    rcases decodeFrame_of_hears routed heard isNew with ⟨newId, decoded⟩
    let reader : Channel := { send.channel with userId := 0 :: send.channel.userId }
    let transport : Transport Channel := Transport.new.on newId Event.msgNew.val reader
    have other : reader.userId ≠ send.channel.userId := by
      intro same
      have lengths := congrArg List.length same
      simp [reader] at lengths
    have called : reader ∈ (transport.handleMessage frame).callbacks := by
      rw [Transport.handleMessage, decoded]
      simp [transport, Transport.on, Transport.new, FrameType.broadcast, FrameType.reply]
    have given := agrees receiver routed tenant frame heard isNew transport reader called other
    rw [onMsgNew_of_decodeFrame decoded transport other] at given
    exact Option.some.inj given
  · intro same receiver routed tenant frame heard isNew transport reader called other
    rcases decodeFrame_of_hears routed heard isNew with ⟨newId, decoded⟩
    rw [onMsgNew_of_decodeFrame decoded transport other, same]

end ConnectedSend

/-! ## Histories -/

section Histories

variable {codec : Codec} {native : Native} {aead : Aead} {tenantId : Id16} {channelId : Bytes}
  {socket : Socket} {msgs : List Message}

theorem unpackEnvelopes_messages (tenant : socket.tenantId = tenantId) (few : msgs.length ≤ 100)
    (legible : ∀ msg ∈ msgs, codec.Reads native (messageEnvelope tenantId.val channelId msg)) :
    unpackEnvelopes (packEnvelopes (msgs.map (encodeMessage native socket channelId))) =
      some (msgs.map fun msg =>
        native.envelopeEncode (messageEnvelope tenantId.val channelId msg)) := by
  subst tenant
  apply unpackEnvelopes_pack (by rw [List.length_map]; omega)
  intro env envMem
  rcases List.mem_map.mp envMem with ⟨msg, msgMem, rfl⟩
  exact (legible msg msgMem).size

/-- The SDK reads the messages of a history as the gateway sends them. -/
theorem readHistory_packEnvelopes (tenant : socket.tenantId = tenantId) (few : msgs.length ≤ 100)
    (legible : ∀ msg ∈ msgs, codec.Reads native (messageEnvelope tenantId.val channelId msg)) :
    Channel.readHistory codec aead
        (packEnvelopes (msgs.map (encodeMessage native socket channelId))) =
      some (msgs.filterMap fun msg => (MlsClient.decrypt aead msg.encryptedContent).map
        (Channel.messageOf (messageEnvelope tenantId.val channelId msg))) := by
  rw [Channel.readHistory, unpackEnvelopes_messages tenant few legible, Option.bind_eq_bind,
    Option.bind_some, mapM_decodeEnvelope legible]
  simp only [Option.bind_eq_bind, Option.bind_some, List.filterMap_map]
  rfl

end Histories

namespace ConnectedSend

variable {codec : Codec} {native : Native} {aead : Aead} {tenantId channelId : Id16}
  {send : ConnectedSend codec native aead tenantId channelId}

/-- What the SDK makes of the stored message. -/
theorem decrypt_stored :
    (MlsClient.decrypt aead send.stored.encryptedContent).map
        (Channel.messageOf (messageEnvelope tenantId.val channelId.val send.stored)) =
      some send.arrived := by
  have opened : MlsClient.decrypt aead send.stored.encryptedContent =
      some (TextCodec.encode send.content) :=
    MlsClient.decrypt_encrypt aead send.ivLength _
  rw [opened]
  rfl

/-- A history of messages that fit carries the message only if it is one of them. -/
theorem stored_mem_of_carries {socket : Socket} (tenant : socket.tenantId = tenantId)
    {msgs : List Message} (few : msgs.length ≤ 100) (fits : ∀ msg ∈ msgs, send.Fits msg)
    (carries : send.Carries
      (packEnvelopes (msgs.map (encodeMessage native socket channelId.val)))) :
    send.stored ∈ msgs := by
  rcases carries with ⟨envelopes, unpacked, bytes, bytesMem, envelope, decoded, sameId⟩
  rw [unpackEnvelopes_messages tenant few fun msg msgMem => (fits msg msgMem).reads] at unpacked
  obtain rfl := Option.some.inj unpacked
  rcases List.mem_map.mp bytesMem with ⟨msg, msgMem, rfl⟩
  cases (fits msg msgMem).reads.decoded.symm.trans decoded
  rw [← (fits msg msgMem).own sameId]
  exact msgMem

theorem historyAgrees_of_arrived (same : send.arrived = send.echo) : send.HistoryAgrees := by
  intro json rate stores before source target socket data reaction reply messages roundTrips
    contain run ⟨handles⟩ push isHistory pushed read
  have startGood : (Node.start stores).Good json tenantId.val channelId.val send.Fits
      fun _ _ _ => True :=
    { stores := contain
      workers := fun running => by cases running
      pending := fun taskMem => by cases taskMem }
  have sourceGood := startGood.run roundTrips run fun _ _ _ _ _ _ => trivial
  rcases handles.history roundTrips sourceGood push isHistory reaction rfl with
    ⟨msgs, few, fits, rfl⟩ | rfl
  · have replyEq := (replyFrame_inj (List.singleton_inj.mp pushed)).2
    rw [← replyEq, readHistory_packEnvelopes push.tenant few fun msg msgMem =>
      (fits msg msgMem).reads] at read
    obtain rfl := Option.some.inj read
    constructor
    · intro message messageMem sameId
      rcases List.mem_filterMap.mp messageMem with ⟨msg, msgMem, opened⟩
      rcases Option.map_eq_some_iff.mp opened with ⟨plaintext, decrypted, rfl⟩
      have ownId : msg.messageId = send.msgId := by
        rw [echo_eq] at sameId
        exact bytesToHex_injective sameId
      obtain rfl := (fits msg msgMem).own ownId
      rw [← same]
      exact Option.some.inj (opened.symm.trans decrypt_stored)
    · intro carries
      rw [← replyEq] at carries
      refine List.mem_filterMap.mpr ⟨send.stored, ?_, decrypt_stored.trans (congrArg some same)⟩
      exact stored_mem_of_carries push.tenant few fits carries
  · exact absurd pushed replyError_ne_ok

/-- The frame of the message leaves its id to it. -/
theorem framesGood_of_send :
    FrameWritesGood native tenantId.val channelId.val send.Fits send.socket
      (Frame.parse (pushFrame send.ref send.topicId Event.msgSend
        (codec.encodeEnvelope send.envelope))) := by
  rw [parse_pushFrame _ _ send.refFits send.topicFits]
  intro info entry names tenant
  refine ⟨fun _ envelope decoded => ?_, fun isPush => absurd isPush (by decide)⟩
  cases send.writes.decoded.symm.trans decoded
  refine ⟨?_, fun _ => rfl⟩
  have reads := send.reads
  rw [sentEnvelope, tenant] at reads
  exact reads

end ConnectedSend

/-- The three messages are the same exactly where the content type is 0 and the content has no
byte order mark at the front. -/
theorem agrees_iff {codec : Codec} {native : Native} {aead : Aead} {tenantId channelId : Id16}
    (send : ConnectedSend codec native aead tenantId channelId) :
    send.Agrees ↔ send.contentType = 0 ∧ send.content.head? ≠ some byteOrderMark := by
  rw [← ConnectedSend.arrived_eq_echo_iff]
  constructor
  · intro agrees
    exact ConnectedSend.broadcastAgrees_iff.mp agrees.broadcast
  · intro same
    exact ⟨ConnectedSend.broadcastAgrees_iff.mpr same,
      ConnectedSend.historyAgrees_of_arrived same⟩

/-! ### A picture -/

namespace OutgoingMessage

variable {aead : Aead} (outgoing : OutgoingMessage aead)

theorem performs_sendConnected (codec : Codec) (reply : Bytes) :
    ∃ result, (outgoing.channel.sendConnected codec outgoing.content
      outgoing.contentType).Performs (outgoing.deviceCalls codec reply)
        (.ok (outgoing.message, result)) :=
  ⟨_, .ok outgoing.ts, _, rfl, .ok outgoing.msgId, _, rfl, .ok outgoing.ciphertext, _, rfl,
    .ok reply, _, rfl, rfl, rfl⟩

/-- Within its limits, the message is answered ok. -/
theorem exists_connectedSend {codec : Codec} {native : Native} {channelId : Id16}
    {socket : Socket} {topicId now bucket : ℕ} (user : socket.userId.val = outgoing.channel.userId)
    (topicFits : topicId < 256 ^ 2)
    (entry : socket.topicIds.lookup topicId = some (channelEntry socket.tenantId channelId))
    (writes : codec.Writes native outgoing.envelope)
    (reads : codec.Reads native (sentEnvelope socket channelId.val outgoing.envelope))
    (valid : validateMessage now socket.tenantId.val channelId.val socket.userId.val
      outgoing.envelope.payload 0 = .ok (.ok ()))
    (bucketEq : TimeBucket.compute outgoing.envelope.timestamp = .ok bucket) :
    ∃ send : ConnectedSend codec native aead socket.tenantId channelId,
      send.toOutgoingMessage = outgoing := by
  rcases outgoing.performs_sendConnected codec outgoing.msgId with ⟨result, sends⟩
  have parsed := @parse_pushFrame 0 topicId Event.msgSend
    (codec.encodeEnvelope outgoing.envelope) (by decide) topicFits
  have performs := performs_send parsed entry (channelIdToBin_encode16 channelId)
    writes.decoded valid bucketEq
  refine ⟨⟨outgoing, outgoing.msgId, outgoing.message, result, sends, socket, 0, topicId, _, rfl,
    user, by decide, topicFits, entry, topicEntry_channel, channelEntry_names _ channelId, _, _,
    performs, rfl, writes, reads⟩, rfl⟩

end OutgoingMessage

/-- Content of type 1 for the channel. -/
def pictureSend : OutgoingMessage plainAead where
  channel := numberedChannel
  content := "hi".toList
  contentType := 1
  ts := 5
  msgId := sampleId
  iv := List.replicate 12 0
  ivLength := rfl

def pictureNative : Native :=
  Capnp.native [pictureSend.envelope] []

def pictureCodec : Codec :=
  capnpCodec [pictureSend.envelope]

theorem readable_picture : Readable pictureNative pictureSend.envelope :=
  ⟨by decide +kernel, by decide +kernel, rfl⟩

theorem writes_picture : pictureCodec.Writes pictureNative pictureSend.envelope := by
  have encodes : pictureCodec.encodeEnvelope = Capnp.envelope := rfl
  refine ⟨?_, ?_⟩ <;> rw [encodes]
  · exact readable_picture.size
  · exact readable_picture.decodes

/-- The gateway has nothing to correct in the envelope. -/
theorem sentEnvelope_picture :
    sentEnvelope (memberSocket 2) (Id16.replicate 7).val pictureSend.envelope =
      pictureSend.envelope := by
  decide +kernel

theorem exists_pictureRoute :
    ∃ send : ConnectedSend pictureCodec pictureNative plainAead (.replicate 1) (.replicate 7),
      send.toOutgoingMessage = pictureSend := by
  refine @OutgoingMessage.exists_connectedSend _ pictureSend _ _ _ (memberSocket 2) 1 6 0 rfl
    (by decide) (entry_memberSocket 2) writes_picture ?_ (by decide +kernel)
    readable_picture.bucket
  rw [sentEnvelope_picture]
  exact capnpCodec_reads rfl List.mem_cons_self readable_picture.size (by decide +kernel)

/-- The other members get content of type 0. -/
theorem content_type_lost :
    ¬∀ (codec : Codec) (native : Native) (aead : Aead) (tenantId channelId : Id16)
        (send : ConnectedSend codec native aead tenantId channelId), send.Agrees := by
  intro allAgree
  rcases exists_pictureRoute with ⟨send, isPicture⟩
  have agrees := allAgree _ _ _ _ _ send
  have same := ConnectedSend.broadcastAgrees_iff.mp agrees.broadcast
  have plain := (ConnectedSend.arrived_eq_echo_iff.mp same).1
  rw [isPicture] at plain
  exact absurd plain (by decide)

end Mercury.Sdk
