import Mercury.Gateway.Routing

/-!
# Tables in step

As long as no topic is joined a second time, `topics`, `pubsub_topics` and the
subscriptions follow `topic_ids`, and a broadcast reaches the client once. A
second join of a topic that the gateway accepts always breaks this
(`not_inStep_of_rejoins`).
-/

namespace Mercury.Gateway

open Foundations Foundations.Program Persistence

/-- The three maps and the subscriptions say the same. -/
structure InStep (process : SocketProcess) : Prop where
  topics : ∀ topic topicId, process.socket.topics.lookup topic = some topicId ↔
    ∃ info, process.socket.topicIds.lookup topicId = some info ∧ info.topic = topic
  pubsubs : ∀ pubsub topicId, process.socket.pubsubTopics.lookup pubsub = some topicId ↔
    ∃ info, process.socket.topicIds.lookup topicId = some info ∧ info.pubsub = some pubsub
  subscriptions : ∀ pubsub, process.subscriptions.count pubsub =
    if pubsub ∈ process.socket.pubsubTopics then 1 else 0
  broadcasts : ∀ pubsub event payload, (process.receives pubsub event payload).length =
    if pubsub ∈ process.socket.pubsubTopics then 1 else 0

/-- The frame is an accepted join of a topic that is joined already. -/
def Rejoins (process : SocketProcess) : ProcessLabel → Prop
  | .handled data made _ =>
      ∃ ref topic, Frame.parse data = .join ref topic ∧ topic ∈ process.socket.topics ∧
        Accepts process.socket made topic
  | .delivered .. => False

/-- What a process keeps without a second join. -/
structure Straight (process : SocketProcess) : Prop where
  routed : Routed process
  topics : IndexComplete TopicInfo.topicKey process.socket.topics process.socket.topicIds
  pubsubs : IndexComplete TopicInfo.pubsub process.socket.pubsubTopics process.socket.topicIds
  once : ∀ pubsub, process.subscriptions.count pubsub ≤ 1

section

variable {process next : SocketProcess} {info : TopicInfo} {topicId : ℕ}

theorem Straight.count (straight : Straight process) (pubsub : Bytes) :
    process.subscriptions.count pubsub =
      if pubsub ∈ process.socket.pubsubTopics then 1 else 0 := by
  have once := straight.once pubsub
  split
  · next joined =>
      have present := List.count_pos_iff.mpr ((straight.routed.subscribed pubsub).mpr joined)
      omega
  · next absent =>
      exact List.count_eq_zero.mpr fun present =>
        absent ((straight.routed.subscribed pubsub).mp present)

theorem length_receives (pubsub payload : Bytes) (event : Byte)
    (counts : process.subscriptions.count pubsub =
      if pubsub ∈ process.socket.pubsubTopics then 1 else 0) :
    (process.receives pubsub event payload).length =
      if pubsub ∈ process.socket.pubsubTopics then 1 else 0 := by
  rw [SocketProcess.receives, counts]
  split
  · next joined =>
      rcases Finmap.mem_iff.mp joined with ⟨topicId, named⟩
      simp [handleBroadcast, named]
  · rfl

theorem Straight.inStep (straight : Straight process) : InStep process where
  topics topic topicId := by
    constructor
    · intro named
      rcases straight.routed.topics topic topicId named with ⟨info, entry, keyed⟩
      exact ⟨info, entry, Option.some.inj keyed⟩
    · rintro ⟨info, entry, rfl⟩
      exact straight.topics info.topic topicId info entry rfl
  pubsubs pubsub topicId := by
    constructor
    · exact straight.routed.pubsubs pubsub topicId
    · rintro ⟨info, entry, carries⟩
      exact straight.pubsubs pubsub topicId info entry carries
  subscriptions := straight.count
  broadcasts pubsub event payload := length_receives pubsub payload event (straight.count pubsub)

/-- A new topic has a new PubSub topic. -/
theorem Straight.joined (straight : Straight process) {topic : Bytes}
    (room : process.socket.nextTopicId ≤ 0xFFFF)
    (entry : topicEntry process.socket.tenantId.val topic = some info)
    (isNew : topic ∉ process.socket.topics) :
    Straight ⟨process.socket.joined info, info.pubsub.toList ++ process.subscriptions⟩ where
  routed := straight.routed.joined room entry
  topics := by
    apply straight.topics.insert
    intro key keyed
    rw [TopicInfo.topicKey, topic_of_topicEntry entry] at keyed
    cases keyed
    exact Finmap.lookup_eq_none.mpr isNew
  pubsubs := by
    rw [pubsubTopics_joined]
    apply straight.pubsubs.insert
    intro pubsub carries
    rw [← straight.routed.alike topic info pubsub entry carries]
    exact Finmap.lookup_eq_none.mpr isNew
  once pubsub := by
    rw [List.count_append]
    have before := straight.count pubsub
    by_cases carries : info.pubsub = some pubsub
    · have absent : pubsub ∉ process.socket.pubsubTopics := by
        rw [← Finmap.lookup_eq_none, ← straight.routed.alike topic info pubsub entry carries]
        exact Finmap.lookup_eq_none.mpr isNew
      rw [if_neg absent] at before
      simp [carries, before]
    · have notCarried : info.pubsub.toList.count pubsub = 0 := by
        rw [List.count_eq_zero, Option.mem_toList]
        exact carries
      rw [notCarried, Nat.zero_add]
      exact straight.once pubsub

theorem Straight.unregistered (straight : Straight process)
    (entry : process.socket.topicIds.lookup topicId = some info) :
    Straight ⟨process.socket.unregister topicId info,
      process.subscriptions.filter fun topic => some topic ≠ info.pubsub⟩ where
  routed := straight.routed.unregistered entry
  topics := straight.topics.erase entry
  pubsubs := by
    rw [pubsubTopics_unregister]
    exact straight.pubsubs.erase entry
  once pubsub :=
    Nat.le_trans (List.filter_sublist.count_le pubsub) (straight.once pubsub)

theorem Straight.handled (straight : Straight process) {made : List (Performed calls Raise)}
    {frame : Frame} {pushed : List Bytes} (handled : Handled process made frame pushed next)
    (noRejoin : ∀ ref topic, frame = .join ref topic → topic ∈ process.socket.topics →
      ¬Accepts process.socket made topic) : Straight next := by
  cases handled with
  | beat =>
      exact ⟨straight.routed.handled (@Handled.beat process made), straight.topics,
        straight.pubsubs, straight.once⟩
  | joined accepts entry =>
      exact straight.joined accepts.room entry fun again => noRejoin _ _ rfl again accepts
  | left entry => exact straight.unregistered entry
  | _ => exact straight

theorem Straight.step {native : Native} {label : ProcessLabel} (straight : Straight process)
    (step : Guarded (fun source label => ¬Rejoins source label) (ProcessStep native) process
      label next) : Straight next := by
  rcases step with ⟨noRejoin, step⟩
  cases step with
  | delivered =>
      rw [delivered_eq]
      exact straight
  | handled performs =>
      exact straight.handled (handled_of_performs performs) fun ref topic parsed again accepts =>
        noRejoin ⟨ref, topic, parsed, again, accepts⟩

theorem not_inStep_of_handled {made : List (Performed calls Raise)} {ref old : ℕ}
    {pushed : List Bytes} (routed : Routed process)
    (handled : Handled process made (.join ref info.topic) pushed next)
    (accepts : Accepts process.socket made info.topic)
    (entry : process.socket.topicIds.lookup old = some info) : ¬InStep next := by
  intro inStep
  cases handled with
  | refused refuses =>
      rcases refuses with unknown | refuses
      · simp [routed.entries old info entry] at unknown
      · exact refuses accepts
  | joined _ sameEntry =>
      cases (routed.entries old info entry).symm.trans sameEntry
      have older : old ≠ process.socket.nextTopicId := Nat.ne_of_lt (routed.below old info entry)
      have kept : (process.socket.joined info).topicIds.lookup old = some info := by
        rw [lookup_joined, if_neg older]
        exact entry
      have named := (inStep.topics info.topic old).mpr ⟨info, kept, rfl⟩
      rw [topics_joined] at named
      exact older (Option.some.inj (named.symm.trans lookup_indexInsert_self))

/-- A second join always breaks the tables: the first id keeps the topic. -/
theorem not_inStep_of_rejoins {native : Native} {label : ProcessLabel} (routed : Routed process)
    (step : ProcessStep native process label next)
    (rejoins : Rejoins process label) : ¬InStep next := by
  intro stillInStep
  cases step with
  | delivered => exact rejoins
  | @handled data made reaction performs =>
      rcases rejoins with ⟨ref, topic, parsed, again, accepts⟩
      have handled := handled_of_performs performs
      rw [parsed] at handled
      rcases Finmap.mem_iff.mp again with ⟨old, named⟩
      rcases routed.topics topic old named with ⟨info, entry, keyed⟩
      cases keyed
      exact not_inStep_of_handled routed handled accepts entry stillInStep

end

/-- In every run without a second join of a joined topic, the tables stay in step. -/
theorem tables_in_step (native : Native) (tenantId userId deviceId : Id16)
    {labels : List ProcessLabel} {reached : SocketProcess}
    (run : Run (Guarded (fun source label => ¬Rejoins source label) (ProcessStep native))
      (SocketProcess.init tenantId userId deviceId) labels reached) : InStep reached := by
  have initially : Straight (SocketProcess.init tenantId userId deviceId) :=
    ⟨routed_init tenantId userId deviceId, IndexComplete.empty, IndexComplete.empty,
      fun pubsub => Nat.zero_le 1⟩
  have straight : Straight reached :=
    run.invariant (fun straight step => Straight.step straight step) initially
  exact straight.inStep

/-- The process of a socket before its first frame. -/
def newProcess (userId : Byte) : SocketProcess :=
  SocketProcess.init (.replicate 1) (.replicate userId) (.replicate 3)

/-- The process after it has left a channel that was joined by the spelling `hex`. -/
def SocketProcess.leaveSpelled (process : SocketProcess) (topicId : ℕ) (hex : Bytes) :
    SocketProcess where
  socket := process.socket.unregister topicId (spelledEntry process.socket.tenantId.val hex)
  subscriptions := process.subscriptions.filter fun other =>
    other ≠ channelTopic process.socket.tenantId.val hex

theorem processStep_leave {native : Native} {process : SocketProcess} {topicId : ℕ}
    {hex data : Bytes} (parsed : Frame.parse data = .leave topicId)
    (entry : process.socket.topicIds.lookup topicId =
      some (spelledEntry process.socket.tenantId.val hex)) :
    ProcessStep native process
      (.handled data
        [⟨.unsubscribe (channelTopic process.socket.tenantId.val hex), .ok ()⟩] [])
      (process.leaveSpelled topicId hex) := by
  refine @ProcessStep.handled native process data _
    (noReply (process.leaveSpelled topicId hex).socket) ?_
  rw [handleIn, parsed, handleFrame, handleLeave, entry]
  exact ⟨_, _, rfl, rfl, rfl⟩

/-- The id of another channel. -/
def otherHex : Bytes :=
  ascii "CDCDCDCDCDCDCDCDCDCDCDCDCDCDCDCD"

theorem channelIdToBin_otherHex : channelIdToBin otherHex = some (List.replicate 16 0xCD) := by
  decide

/-- The process has joined two channels and left the first. -/
def leftFirst : SocketProcess :=
  (((newProcess 2).joinSpelled upperHex).joinSpelled otherHex).leaveSpelled 1 upperHex

theorem not_rejoins_joinFrame {process : SocketProcess} {ref : ℕ} {topic : Bytes}
    {made : List (Performed calls Raise)} {pushed : List Bytes} (refFits : ref < 256 ^ 4)
    (isNew : topic ∉ process.socket.topics) :
    ¬Rejoins process (.handled (Sdk.joinFrame ref topic) made pushed) := by
  rintro ⟨otherRef, other, parsed, again, -⟩
  rw [Sdk.parse_joinFrame topic refFits] at parsed
  cases parsed
  exact isNew again

theorem not_rejoins_leave {process : SocketProcess} {topicId : ℕ} {data : Bytes}
    {made : List (Performed calls Raise)} {pushed : List Bytes}
    (parsed : Frame.parse data = .leave topicId) :
    ¬Rejoins process (.handled data made pushed) := by
  rintro ⟨ref, topic, joins, -⟩
  cases parsed.symm.trans joins

/-- A join, that of a second channel, a leave of the first, and a new join of it. -/
theorem tables_in_step_of_leave : ∃ labels reached,
    Run (Guarded (fun source label => ¬Rejoins source label) (ProcessStep (Capnp.native [] [])))
        (newProcess 2) labels reached ∧
      labels.flatMap ProcessLabel.handedOut = [1, 2, 3] ∧
      reached.socket.topicIds.keys = {2, 3} ∧
      reached.subscriptions = [channelTopic (List.replicate 16 1) upperHex,
        channelTopic (List.replicate 16 1) otherHex] ∧ InStep reached := by
  have first := @processStep_join (Capnp.native [] []) (newProcess 2) 1 upperHex _ (by decide)
    (by decide) channelIdToBin_upperHex
  have second := @processStep_join (Capnp.native [] []) ((newProcess 2).joinSpelled upperHex) 2
    otherHex _ (by decide) (by decide) channelIdToBin_otherHex
  have leaves := @processStep_leave (Capnp.native [] [])
    (((newProcess 2).joinSpelled upperHex).joinSpelled otherHex) 1 upperHex
    (Sdk.encodeFrame FrameType.leave 0 1 []) rfl rfl
  have again := @processStep_join (Capnp.native [] []) leftFirst 3 upperHex _ (by decide)
    (by decide) channelIdToBin_upperHex
  have joins : Run (Guarded (fun source label => ¬Rejoins source label)
      (ProcessStep (Capnp.native [] []))) (newProcess 2) _ _ :=
    (Run.refl.snoc ⟨not_rejoins_joinFrame (by decide) (by decide), first⟩).snoc
      ⟨not_rejoins_joinFrame (by decide) (by decide), second⟩
  have left := joins.snoc ⟨not_rejoins_leave rfl, leaves⟩
  have run := left.snoc ⟨not_rejoins_joinFrame (by decide) (by decide), again⟩
  exact ⟨_, _, run, by decide, by decide, by decide, tables_in_step _ _ _ _ run⟩

/-- A second join of the channel. -/
theorem tables_apart_after_rejoin :
    ¬∀ (native : Native) (tenantId userId deviceId : Id16) (labels : List ProcessLabel)
        (reached : SocketProcess),
      Run (ProcessStep native) (SocketProcess.init tenantId userId deviceId) labels reached →
        InStep reached := by
  intro alwaysInStep
  have first := @processStep_join (Capnp.native [] []) (newProcess 2) 1 upperHex _ (by decide)
    (by decide) channelIdToBin_upperHex
  have second := @processStep_join (Capnp.native [] []) ((newProcess 2).joinSpelled upperHex) 2
    upperHex _ (by decide) (by decide) channelIdToBin_upperHex
  have routed : Routed ((newProcess 2).joinSpelled upperHex) :=
    (routed_init _ _ _).step first
  refine not_inStep_of_rejoins routed second ?_
    (alwaysInStep _ _ _ _ _ _ ((Run.refl.snoc first).snoc second))
  refine ⟨2, ascii "channel:" ++ upperHex, Sdk.parse_joinFrame _ (by decide), ?_, ?_⟩
  · exact Finmap.mem_iff.mpr ⟨1, Finmap.lookup_insert _⟩
  · refine ⟨by decide, fun hex isHex => ?_⟩
    rw [stripPrefix_append] at isHex
    cases isHex
    exact ⟨_, channelIdToBin_upperHex, by simp [memberJoin]⟩

end Mercury.Gateway
