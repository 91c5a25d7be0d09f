import Mercury.Gateway.Capnp
import Mercury.Gateway.SocketProcess
import Mercury.Sdk.Frame

/-!
# The tables of a socket

Three maps and the PubSub subscriptions of a process say which topic has which
id. A topic that is joined twice has two ids and two subscriptions, and a leave
of either drops the others' keys, so that the maps and the subscriptions come
apart. What survives every run is `Routed`: no id is handed out twice, and every
broadcast goes out under an id of its own PubSub topic. Without a second join
they stay in step (`InStep`).
-/

namespace Mercury.Gateway

open Foundations Foundations.Program Persistence

/-! ## Every run -/

/-- The key of the entry in `topics`. -/
def TopicInfo.topicKey (info : TopicInfo) : Option Bytes :=
  some info.topic

/-- What every run of a process keeps. -/
structure Routed (process : SocketProcess) : Prop where
  positive : 1 ≤ process.socket.nextTopicId
  bounded : process.socket.nextTopicId ≤ 0x10000
  below : ∀ topicId info, process.socket.topicIds.lookup topicId = some info →
    topicId < process.socket.nextTopicId
  entries : ∀ topicId info, process.socket.topicIds.lookup topicId = some info →
    topicEntry process.socket.tenantId.val info.topic = some info
  topics : IndexSound TopicInfo.topicKey process.socket.topics process.socket.topicIds
  pubsubs : IndexSound TopicInfo.pubsub process.socket.pubsubTopics process.socket.topicIds
  alike : ∀ topic info pubsub, topicEntry process.socket.tenantId.val topic = some info →
    info.pubsub = some pubsub →
      process.socket.topics.lookup topic = process.socket.pubsubTopics.lookup pubsub
  subscribed : ∀ pubsub,
    pubsub ∈ process.subscriptions ↔ pubsub ∈ process.socket.pubsubTopics

section

variable {socket : Socket} {info : TopicInfo} {topicId : ℕ}

theorem topics_joined :
    (socket.joined info).topics = indexInsert socket.topics socket.nextTopicId info.topicKey :=
  rfl

theorem pubsubTopics_joined :
    (socket.joined info).pubsubTopics =
      indexInsert socket.pubsubTopics socket.nextTopicId info.pubsub := by
  rcases info with ⟨topic, channelId, _ | pubsub⟩ <;> rfl

theorem topics_unregister :
    (socket.unregister topicId info).topics = indexErase socket.topics info.topicKey :=
  rfl

theorem pubsubTopics_unregister :
    (socket.unregister topicId info).pubsubTopics =
      indexErase socket.pubsubTopics info.pubsub := by
  rcases info with ⟨topic, channelId, _ | pubsub⟩ <;> rfl

theorem mem_pubsubTopics_joined {pubsub : Bytes} :
    pubsub ∈ (socket.joined info).pubsubTopics ↔
      info.pubsub = some pubsub ∨ pubsub ∈ socket.pubsubTopics := by
  rw [pubsubTopics_joined, Finmap.mem_iff, Finmap.mem_iff]
  by_cases carries : info.pubsub = some pubsub
  · simp [carries, lookup_indexInsert_self]
  · simp [carries, lookup_indexInsert_of_ne]

theorem mem_pubsubTopics_unregister {pubsub : Bytes} :
    pubsub ∈ (socket.unregister topicId info).pubsubTopics ↔
      info.pubsub ≠ some pubsub ∧ pubsub ∈ socket.pubsubTopics := by
  rw [pubsubTopics_unregister, Finmap.mem_iff, Finmap.mem_iff]
  by_cases carries : info.pubsub = some pubsub
  · simp [carries, lookup_indexErase_self]
  · simp [carries, lookup_indexErase_of_ne]

end

section

variable {process next : SocketProcess} {info : TopicInfo} {topicId : ℕ}

theorem Routed.fresh (routed : Routed process) :
    process.socket.topicIds.lookup process.socket.nextTopicId = none := by
  rcases found : process.socket.topicIds.lookup process.socket.nextTopicId with _ | info
  · rfl
  · exact absurd (routed.below _ info found) (Nat.lt_irrefl _)

/-- The entry is under the topic exactly where it is under the PubSub topic of the topic. -/
theorem topicKey_iff_pubsub {tenantId joined topic pubsub : Bytes} {other : TopicInfo}
    (entry : topicEntry tenantId joined = some info)
    (otherEntry : topicEntry tenantId topic = some other)
    (carries : other.pubsub = some pubsub) :
    info.topicKey = some topic ↔ info.pubsub = some pubsub := by
  constructor
  · intro keyed
    have same : joined = topic :=
      (topic_of_topicEntry entry).symm.trans (Option.some.inj keyed)
    rw [same, otherEntry] at entry
    exact Option.some.inj entry ▸ carries
  · intro keyed
    rw [TopicInfo.topicKey, topic_of_topicEntry entry,
      topic_eq_of_pubsub entry otherEntry keyed carries]

theorem Routed.joined (routed : Routed process) {topic : Bytes}
    (room : process.socket.nextTopicId ≤ 0xFFFF)
    (entry : topicEntry process.socket.tenantId.val topic = some info) :
    Routed ⟨process.socket.joined info, info.pubsub.toList ++ process.subscriptions⟩ where
  positive := Nat.le_succ_of_le routed.positive
  bounded := Nat.succ_le_succ room
  below other found otherAt := by
    rw [lookup_joined] at otherAt
    split at otherAt
    · next same => exact same ▸ Nat.lt_succ_self _
    · exact Nat.lt_succ_of_lt (routed.below other found otherAt)
  entries other found otherAt := by
    rw [lookup_joined] at otherAt
    split at otherAt
    · cases otherAt
      rw [topic_of_topicEntry entry]
      exact entry
    · exact routed.entries other found otherAt
  topics := routed.topics.insert routed.fresh
  pubsubs := by
    rw [pubsubTopics_joined]
    exact routed.pubsubs.insert routed.fresh
  alike other found pubsub otherEntry carries := by
    rw [pubsubTopics_joined]
    have keyed := topicKey_iff_pubsub entry otherEntry carries
    by_cases same : info.pubsub = some pubsub
    · rw [topics_joined, keyed.mpr same, same, lookup_indexInsert_self, lookup_indexInsert_self]
    · rw [topics_joined, lookup_indexInsert_of_ne (fun key => same (keyed.mp key)),
        lookup_indexInsert_of_ne same]
      exact routed.alike other found pubsub otherEntry carries
  subscribed pubsub := by
    rw [mem_pubsubTopics_joined, List.mem_append, Option.mem_toList, routed.subscribed]

theorem Routed.unregistered (routed : Routed process)
    (entry : process.socket.topicIds.lookup topicId = some info) :
    Routed ⟨process.socket.unregister topicId info,
      process.subscriptions.filter fun topic => some topic ≠ info.pubsub⟩ where
  positive := routed.positive
  bounded := routed.bounded
  below other found otherAt := routed.below other found (lookup_of_unregister otherAt)
  entries other found otherAt := routed.entries other found (lookup_of_unregister otherAt)
  topics := routed.topics.erase entry
  pubsubs := by
    rw [pubsubTopics_unregister]
    exact routed.pubsubs.erase entry
  alike other found pubsub otherEntry carries := by
    have keyed := topicKey_iff_pubsub (routed.entries topicId info entry) otherEntry carries
    rw [topics_unregister, pubsubTopics_unregister]
    by_cases same : info.pubsub = some pubsub
    · rw [keyed.mpr same, same, lookup_indexErase_self, lookup_indexErase_self]
    · rw [lookup_indexErase_of_ne (fun key => same (keyed.mp key)),
        lookup_indexErase_of_ne same]
      exact routed.alike other found pubsub otherEntry carries
  subscribed pubsub := by
    rw [mem_pubsubTopics_unregister, List.mem_filter, routed.subscribed, decide_eq_true_iff,
      and_comm, ne_comm]

theorem Routed.handled (routed : Routed process) {made : List (Performed calls Raise)}
    {frame : Frame} {pushed : List Bytes} (handled : Handled process made frame pushed next) :
    Routed next := by
  cases handled with
  | beat => exact { routed with }
  | joined accepts entry => exact routed.joined accepts.room entry
  | left entry => exact routed.unregistered entry
  | _ => exact routed

theorem routed_init (tenantId userId deviceId : Id16) :
    Routed (SocketProcess.init tenantId userId deviceId) where
  positive := Nat.le_refl 1
  bounded := Nat.le_of_ble_eq_true rfl
  below _ _ found := by simp [SocketProcess.init, Socket.init] at found
  entries _ _ found := by simp [SocketProcess.init, Socket.init] at found
  topics := IndexSound.empty
  pubsubs := IndexSound.empty
  alike _ _ _ _ _ := by simp [SocketProcess.init, Socket.init]
  subscribed _ := by simp [SocketProcess.init, Socket.init, Finmap.notMem_empty]

theorem delivered_eq {pubsubTopic payload : Bytes} {event : Byte} :
    (⟨(handleBroadcast pubsubTopic event payload process.socket).socket,
      process.subscriptions⟩ : SocketProcess) = process := by
  unfold handleBroadcast
  split <;> rfl

theorem Routed.step {native : Native} {label : ProcessLabel} (routed : Routed process)
    (step : ProcessStep native process label next) : Routed next := by
  cases step with
  | handled performs => exact routed.handled (handled_of_performs performs)
  | delivered =>
      rw [delivered_eq]
      exact routed

/-- A broadcast frame carries an id whose entry has the PubSub topic. -/
theorem Routed.broadcast (routed : Routed process) {pubsub payload frame : Bytes} {event : Byte}
    (pushed : frame ∈ (handleBroadcast pubsub event payload process.socket).pushed) :
    ∃ topicId info,
      Sdk.decodeFrame frame = some ⟨FrameType.broadcast, 0, topicId, event :: payload⟩ ∧
        process.socket.topicIds.lookup topicId = some info ∧ info.pubsub = some pubsub := by
  unfold handleBroadcast at pushed
  split at pushed
  · simp [noReply] at pushed
  next topicId named =>
  rw [List.mem_singleton] at pushed
  rcases routed.pubsubs pubsub topicId named with ⟨info, entry, carries⟩
  refine ⟨topicId, info, ?_, entry, carries⟩
  have fits : topicId < 256 ^ 2 := Nat.lt_of_lt_of_le (routed.below topicId info entry)
    routed.bounded
  rw [pushed]
  refine (Sdk.decodeFrame_encodeFrame FrameType.broadcast 0 topicId (event :: payload)).trans ?_
  rw [Nat.mod_eq_of_lt fits]
  rfl

/-- The topic id of a reply of status ok. -/
def grantedId (frame : Bytes) : Option ℕ :=
  match Sdk.decodeFrame frame with
  | some ⟨type, _, topicId, status :: _⟩ =>
      if type = FrameType.reply ∧ status = statusOk then some topicId else none
  | _ => none

/-- The topic ids that a frame hands out: those of the ok replies to a join. -/
def Frame.handedOut (pushed : List Bytes) : Frame → List ℕ
  | .join _ _ => pushed.filterMap grantedId
  | _ => []

def ProcessLabel.handedOut : ProcessLabel → List ℕ
  | .handled data _ pushed => (Frame.parse data).handedOut pushed
  | .delivered .. => []

theorem grantedId_replyFrame (ref topicId : ℕ) (status : Byte) (data : Bytes) :
    grantedId (replyFrame ref topicId status data) =
      if status = statusOk then some (topicId % 256 ^ 2) else none := by
  rw [grantedId, Sdk.replyFrame_eq_encodeFrame, Sdk.decodeFrame_encodeFrame]
  simp

/-- The step hands out the next id or none. -/
def HandsOut (process next : SocketProcess) (ids : List ℕ) : Prop :=
  ids = [] ∧ next.socket.nextTopicId = process.socket.nextTopicId ∨
    ids = [process.socket.nextTopicId] ∧
      next.socket.nextTopicId = process.socket.nextTopicId + 1

theorem handsOut_of_handled {made : List (Performed calls Raise)} {frame : Frame}
    {pushed : List Bytes} (handled : Handled process made frame pushed next) :
    HandsOut process next (frame.handedOut pushed) := by
  cases handled with
  | joined accepts entry =>
      have fits : process.socket.nextTopicId < 256 ^ 2 := Nat.lt_succ_of_le accepts.room
      refine Or.inr ⟨?_, rfl⟩
      simpa [Frame.handedOut, grantedId_replyFrame] using fits
  | refused =>
      refine Or.inl ⟨?_, rfl⟩
      simp [Frame.handedOut, grantedId_replyFrame, statusError, statusOk]
  | _ => exact Or.inl ⟨rfl, rfl⟩

theorem handsOut_of_step {native : Native} {label : ProcessLabel}
    (step : ProcessStep native process label next) : HandsOut process next label.handedOut := by
  cases step with
  | delivered =>
      rw [delivered_eq]
      exact Or.inl ⟨rfl, rfl⟩
  | handled performs => exact handsOut_of_handled (handled_of_performs performs)

/-- The ids handed out in a run are the numbers from one up to the next id, in order. -/
theorem handedOut_of_run {native : Native} {labels : List ProcessLabel}
    (run : Run (ProcessStep native) process labels next) :
    process.socket.nextTopicId ≤ next.socket.nextTopicId ∧
      labels.flatMap ProcessLabel.handedOut =
        List.range' process.socket.nextTopicId
          (next.socket.nextTopicId - process.socket.nextTopicId) := by
  induction run with
  | refl => simp
  | snoc earlier last ih =>
      rcases ih with ⟨grows, ids⟩
      rw [List.flatMap_append, ids, List.flatMap_singleton]
      rcases handsOut_of_step last with ⟨none, same⟩ | ⟨one, succ⟩
      · rw [none, same, List.append_nil]
        exact ⟨grows, rfl⟩
      · rw [one, succ, Nat.succ_sub grows, List.range'_concat, Nat.one_mul,
          Nat.add_sub_of_le grows]
        exact ⟨Nat.le_succ_of_le grows, rfl⟩

/-- In every run, a broadcast goes out under an id of its own PubSub topic, and no id is
handed out twice. -/
theorem broadcast_ids_routed (native : Native) (tenantId userId deviceId : Id16)
    {labels : List ProcessLabel} {reached : SocketProcess}
    (run : Run (ProcessStep native) (SocketProcess.init tenantId userId deviceId) labels
      reached) :
    (∀ (pubsub payload frame : Bytes) (event : Byte),
      frame ∈ (handleBroadcast pubsub event payload reached.socket).pushed →
        ∃ topicId info,
          Sdk.decodeFrame frame = some ⟨FrameType.broadcast, 0, topicId, event :: payload⟩ ∧
            reached.socket.topicIds.lookup topicId = some info ∧ info.pubsub = some pubsub) ∧
      (labels.flatMap ProcessLabel.handedOut).Nodup ∧
        ∀ topicId ∈ labels.flatMap ProcessLabel.handedOut, 1 ≤ topicId ∧ topicId ≤ 0xFFFF := by
  have routed : Routed reached :=
    run.invariant (fun routed step => routed.step step) (routed_init tenantId userId deviceId)
  refine ⟨fun pubsub payload frame event pushed => routed.broadcast pushed, ?_⟩
  have bounded := routed.bounded
  rw [(handedOut_of_run run).2]
  refine ⟨List.nodup_range', fun topicId topicIdMem => ?_⟩
  rw [List.mem_range'_1] at topicIdMem
  change 1 ≤ topicId ∧ topicId < 1 + (reached.socket.nextTopicId - 1) at topicIdMem
  omega

end

/-! ### Joins of a channel -/

/-- The calls of a member's join, with the user in the cache. -/
def memberJoin (socket : Socket) (hex channelId : Bytes) : List (Performed calls Raise) :=
  [⟨.isMember socket.tenantId.val channelId socket.userId.val, .ok (.ok true)⟩,
    ⟨.subscribe (channelTopic socket.tenantId.val hex), .ok ()⟩,
    ⟨.getCachedUser socket.tenantId.val socket.userId.val, .ok true⟩,
    ⟨.broadcastFrom (channelTopic socket.tenantId.val hex) Event.presenceJoin
      socket.userId.val, .ok ()⟩]

/-- The entry of a channel that is joined by the spelling `hex` of its id. -/
def spelledEntry (tenantId hex : Bytes) : TopicInfo where
  topic := ascii "channel:" ++ hex
  channelId := some hex
  pubsub := some (channelTopic tenantId hex)

def SocketProcess.joinSpelled (process : SocketProcess) (hex : Bytes) : SocketProcess where
  socket := process.socket.joined (spelledEntry process.socket.tenantId.val hex)
  subscriptions := channelTopic process.socket.tenantId.val hex :: process.subscriptions

theorem processStep_join {native : Native} {process : SocketProcess} {ref : ℕ}
    {hex channelId : Bytes} (refFits : ref < 256 ^ 4)
    (room : process.socket.nextTopicId ≤ 0xFFFF) (decoded : channelIdToBin hex = some channelId) :
    ProcessStep native process
      (.handled (Sdk.joinFrame ref (ascii "channel:" ++ hex))
        (memberJoin process.socket hex channelId)
        [replyFrame ref process.socket.nextTopicId statusOk []])
      (process.joinSpelled hex) := by
  have allocated : allocateTopicId process.socket =
      some (process.socket.nextTopicId,
        { process.socket with nextTopicId := process.socket.nextTopicId + 1 }) :=
    if_neg (Nat.not_lt.mpr room)
  refine @ProcessStep.handled native process (Sdk.joinFrame ref (ascii "channel:" ++ hex))
    (memberJoin process.socket hex channelId)
    (replyOk (process.joinSpelled hex).socket ref process.socket.nextTopicId []) ?_
  rw [handleIn, Sdk.parse_joinFrame _ refFits, handleFrame, handleJoin, doJoin,
    stripPrefix_append]
  dsimp only
  rw [joinChannel, decoded, allocated]
  exact ⟨_, _, rfl, _, _, rfl, _, _, rfl, _, _, rfl, rfl, rfl⟩

/-- The upper case spelling of a channel id. -/
def upperHex : Bytes :=
  ascii "ABABABABABABABABABABABABABABABAB"

theorem channelIdToBin_upperHex : channelIdToBin upperHex = some (List.replicate 16 0xAB) := by
  decide

/-- Two joins of one topic get two ids. -/
theorem broadcast_ids_routed_of_joins :
    ∃ labels, Run (ProcessStep (Capnp.native [] []))
        (SocketProcess.init (.replicate 1) (.replicate 2) (.replicate 3)) labels
        (((SocketProcess.init (.replicate 1) (.replicate 2) (.replicate 3)).joinSpelled
          upperHex).joinSpelled upperHex) ∧
      (labels.flatMap ProcessLabel.handedOut).Nodup := by
  have run := (Run.refl.snoc
    (@processStep_join (Capnp.native [] [])
      (SocketProcess.init (.replicate 1) (.replicate 2) (.replicate 3)) 1 upperHex _
      (by decide) (by decide) channelIdToBin_upperHex)).snoc
    (@processStep_join (Capnp.native [] []) _ 2 upperHex _ (by decide) (by decide)
      channelIdToBin_upperHex)
  exact ⟨_, run, (broadcast_ids_routed _ _ _ _ run).2.1⟩

end Mercury.Gateway
