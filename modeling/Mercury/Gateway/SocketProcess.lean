import Mercury.Foundations.ReverseIndex
import Mercury.Gateway.Issued

/-!
# The process of a socket

A socket with its PubSub subscriptions, and its steps: the frames that
`handle_in` handles and the broadcasts that `handle_info` handles. What a frame
does to the tables and to the subscriptions is said once, in `Handled`.
-/

namespace Mercury.Gateway

open Foundations Foundations.Program Persistence

/-- The state of the process, and its subscriptions with their duplicates. -/
structure SocketProcess where
  socket : Socket
  subscriptions : List Bytes

/-- The subscriptions after a call; unsubscribing drops all of a topic. -/
def subscribed (subscriptions : List Bytes) (taken : Performed calls Raise) : List Bytes :=
  match taken.call with
  | .subscribe topic => topic :: subscriptions
  | .unsubscribe topic => subscriptions.filter fun other => other ≠ topic
  | _ => subscriptions

def SocketProcess.init (tenantId userId deviceId : Id16) : SocketProcess where
  socket := Socket.init tenantId userId deviceId
  subscriptions := []

/-- A step of the process, with the frames that it pushes to the client. -/
inductive ProcessLabel where
  | handled (data : Bytes) (made : List (Performed calls Raise)) (pushed : List Bytes)
  | delivered (pubsubTopic : Bytes) (event : Byte) (payload : Bytes) (pushed : List Bytes)

inductive ProcessStep (native : Native) : SocketProcess → ProcessLabel → SocketProcess → Prop where
  | handled {process : SocketProcess} {data : Bytes} {made : List (Performed calls Raise)}
      {reaction : Reaction}
      (performs : (handleIn native data process.socket).Performs made (.ok reaction)) :
      ProcessStep native process (.handled data made reaction.pushed)
        ⟨reaction.socket, made.foldl subscribed process.subscriptions⟩
  | delivered {process : SocketProcess} {pubsubTopic payload : Bytes} {event : Byte} :
      ProcessStep native process
        (.delivered pubsubTopic event payload
          (handleBroadcast pubsubTopic event payload process.socket).pushed)
        ⟨(handleBroadcast pubsubTopic event payload process.socket).socket,
          process.subscriptions⟩

/-- The frames that the client gets of a broadcast: PubSub delivers it once for each
subscription. -/
def SocketProcess.receives (process : SocketProcess) (pubsubTopic : Bytes) (event : Byte)
    (payload : Bytes) : List Bytes :=
  (List.replicate (process.subscriptions.count pubsubTopic)
    (handleBroadcast pubsubTopic event payload process.socket).pushed).flatten

/-- The entry that a join of the topic makes, unless the topic is unknown. -/
def topicEntry (tenantId topic : Bytes) : Option TopicInfo :=
  match stripPrefix (ascii "channel:") topic with
  | some channelId =>
      some
        { topic := topic
          channelId := some channelId
          pubsub := some (channelTopic tenantId channelId) }
  | none =>
      match stripPrefix (ascii "lobby:") topic with
      | some _ => some { topic := topic, channelId := none, pubsub := none }
      | none =>
          match stripPrefix (ascii "presence:") topic with
          | some channelId =>
              some
                { topic := topic
                  channelId := some channelId
                  pubsub := some (presenceTopic tenantId channelId) }
          | none => none

/-- A join of the topic is accepted: an id is left, and a channel has the user as a member. -/
structure Accepts (socket : Socket) (made : List (Performed calls Raise)) (topic : Bytes) :
    Prop where
  room : socket.nextTopicId ≤ 0xFFFF
  member : ∀ hex, stripPrefix (ascii "channel:") topic = some hex →
    ∃ channelId, channelIdToBin hex = some channelId ∧
      ⟨.isMember socket.tenantId.val channelId socket.userId.val, .ok (.ok true)⟩ ∈ made

/-- What a frame does to the process, and what it pushes to the client. -/
inductive Handled (process : SocketProcess) (made : List (Performed calls Raise)) :
    Frame → List Bytes → SocketProcess → Prop where
  | beat :
      Handled process made .heartbeat []
        ⟨{ process.socket with missedHeartbeats := 0 }, process.subscriptions⟩
  | joined {ref : ℕ} {topic : Bytes} {info : TopicInfo}
      (accepts : Accepts process.socket made topic)
      (entry : topicEntry process.socket.tenantId.val topic = some info) :
      Handled process made (.join ref topic)
        [replyFrame ref process.socket.nextTopicId statusOk []]
        ⟨process.socket.joined info, info.pubsub.toList ++ process.subscriptions⟩
  | refused {ref : ℕ} {topic reason : Bytes}
      (refuses : topicEntry process.socket.tenantId.val topic = none ∨
        ¬Accepts process.socket made topic) :
      Handled process made (.join ref topic) [replyFrame ref 0 statusError reason] process
  | left {topicId : ℕ} {info : TopicInfo}
      (entry : process.socket.topicIds.lookup topicId = some info) :
      Handled process made (.leave topicId) []
        ⟨process.socket.unregister topicId info,
          process.subscriptions.filter fun topic => some topic ≠ info.pubsub⟩
  | unknown {topicId : ℕ} (absent : process.socket.topicIds.lookup topicId = none) :
      Handled process made (.leave topicId) [] process
  | pushed {ref topicId : ℕ} {event : Byte} {payload : Bytes} {frames : List Bytes} :
      Handled process made (.push ref topicId event payload) frames process
  | ignored : Handled process made .ignored [] process

/-! ## The entry of a topic -/

section TopicEntry

variable {tenantId topic : Bytes} {info : TopicInfo}

theorem topic_of_topicEntry (entry : topicEntry tenantId topic = some info) :
    info.topic = topic := by
  unfold topicEntry at entry
  repeat' split at entry
  all_goals cases entry <;> rfl

theorem topicEntry_channel {channelId : Bytes} :
    topicEntry tenantId (ascii "channel:" ++ channelId) =
      some
        { topic := ascii "channel:" ++ channelId
          channelId := some channelId
          pubsub := some (channelTopic tenantId channelId) } := by
  simp only [topicEntry, stripPrefix_append]

/-- The PubSub topic of an entry names a channel or the presence of one, and determines
the topic. -/
theorem topic_of_pubsub {pubsub : Bytes} (entry : topicEntry tenantId topic = some info)
    (carries : info.pubsub = some pubsub) :
    (∃ channelId, pubsub = channelTopic tenantId channelId ∧
        topic = ascii "channel:" ++ channelId) ∨
      ∃ channelId, pubsub = presenceTopic tenantId channelId ∧
        topic = ascii "presence:" ++ channelId := by
  unfold topicEntry at entry
  split at entry
  · next channelId isChannel =>
      cases entry
      exact Or.inl ⟨channelId, (Option.some.inj carries).symm, eq_append_of_stripPrefix isChannel⟩
  split at entry
  · cases entry
    cases carries
  split at entry
  · next channelId isPresence =>
      cases entry
      exact Or.inr ⟨channelId, (Option.some.inj carries).symm,
        eq_append_of_stripPrefix isPresence⟩
  · cases entry

theorem topic_eq_of_pubsub {otherTopic pubsub : Bytes} {other : TopicInfo}
    (entry : topicEntry tenantId topic = some info)
    (otherEntry : topicEntry tenantId otherTopic = some other)
    (carries : info.pubsub = some pubsub) (otherCarries : other.pubsub = some pubsub) :
    topic = otherTopic := by
  rcases topic_of_pubsub entry carries with ⟨left, rfl, rfl⟩ | ⟨left, rfl, rfl⟩ <;>
    rcases topic_of_pubsub otherEntry otherCarries with ⟨right, same, rfl⟩ | ⟨right, same, rfl⟩
  · rw [channelTopic_injective same]
  · exact absurd same.symm (presenceTopic_ne_channelTopic _ _ _)
  · exact absurd same (presenceTopic_ne_channelTopic _ _ _)
  · rw [presenceTopic_injective same]

end TopicEntry

/-! ## What a frame does -/

section Step

variable {native : Native} {process : SocketProcess} {subscriptions : List Bytes}
  {made : List (Performed calls Raise)}

/-- The call neither subscribes nor unsubscribes. -/
def LeavesSubscriptions : Call → Prop
  | .subscribe _ | .unsubscribe _ => False
  | _ => True

theorem subscribed_of_leaves {taken : Performed calls Raise}
    (leaves : LeavesSubscriptions taken.call) : subscribed subscriptions taken = subscriptions := by
  rcases taken with ⟨asked, answer⟩
  cases asked with
  | subscribe => exact leaves.elim
  | unsubscribe => exact leaves.elim
  | _ => rfl

theorem foldl_subscribed_of_leaves
    (leave : ∀ taken ∈ made, LeavesSubscriptions taken.call) :
    made.foldl subscribed subscriptions = subscriptions := by
  induction made with
  | nil => rfl
  | cons taken later ih =>
      rw [List.foldl_cons, subscribed_of_leaves (leave taken (by simp))]
      exact ih fun other otherMem => leave other (List.mem_cons_of_mem _ otherMem)

theorem leaves_warmUserCache {tenantId userId : Bytes} :
    Within (fun _ => True) LeavesSubscriptions (warmUserCache tenantId userId) fun _ => True :=
  within_warmUserCache trivial trivial fun _ => trivial

theorem room_of_allocateTopicId {socket allocated : Socket} {topicId : ℕ}
    (free : allocateTopicId socket = some (topicId, allocated)) :
    socket.nextTopicId ≤ 0xFFFF := by
  unfold allocateTopicId at free
  split at free
  · cases free
  · next room => exact Nat.le_of_not_lt room

theorem allocateTopicId_ne_none {socket : Socket} (room : socket.nextTopicId ≤ 0xFFFF) :
    allocateTopicId socket ≠ none := by
  rw [allocateTopicId, if_neg (Nat.not_lt.mpr room)]
  exact Option.some_ne_none _

/-- A join of a channel subscribes once where it is accepted, and never otherwise. -/
theorem performs_joinChannel {socket : Socket} {topic channelId : Bytes}
    {result : Except JoinError (ℕ × Socket)}
    (isChannel : stripPrefix (ascii "channel:") topic = some channelId)
    (performs : (joinChannel topic channelId socket).Performs made (.ok result)) :
    (∃ info, Accepts socket made topic ∧ topicEntry socket.tenantId.val topic = some info ∧
      result = .ok (socket.nextTopicId, socket.joined info) ∧
      made.foldl subscribed subscriptions = info.pubsub.toList ++ subscriptions) ∨
    ∃ reason, result = .error reason ∧ made.foldl subscribed subscriptions = subscriptions ∧
      (topicEntry socket.tenantId.val topic = none ∨ ¬Accepts socket made topic) := by
  unfold joinChannel at performs
  split at performs
  · next notDecoded =>
      rcases performs with ⟨rfl, same⟩
      refine Or.inr ⟨_, Except.ok.inj same, rfl, Or.inr fun accepts => ?_⟩
      rcases accepts.member channelId isChannel with ⟨_, decoded, -⟩
      simp [notDecoded] at decoded
  next channelIdBin decoded =>
  split at performs
  · next full =>
      rcases performs with ⟨rfl, same⟩
      exact Or.inr ⟨_, Except.ok.inj same, rfl, Or.inr fun accepts =>
        absurd full (allocateTopicId_ne_none accepts.room)⟩
  next topicId allocated free =>
  have room := room_of_allocateTopicId free
  rcases allocateTopicId_eq_some free with ⟨rfl, rfl⟩
  rcases performs.of_bind with ⟨_, later, answer, rfl, asked, answered⟩
  cases asked.of_perform
  have refused : answer ≠ .ok true → ¬Accepts socket
      [⟨.isMember socket.tenantId.val channelIdBin socket.userId.val, .ok answer⟩] topic := by
    intro otherwise accepts
    rcases accepts.member channelId isChannel with ⟨same, sameDecoded, answered⟩
    cases Option.some.inj (decoded.symm.trans sameDecoded)
    rw [List.mem_singleton] at answered
    cases answered
    exact otherwise rfl
  split at answered
  · rcases answered.of_bind with ⟨_, afterSubscribe, _, rfl, subscribes, continues⟩
    cases subscribes.of_perform
    rcases continues.of_bind with ⟨warming, afterWarming, _, rfl, warms, announces⟩
    rcases announces.of_bind with ⟨_, _, _, rfl, announced, rfl, same⟩
    cases announced.of_perform
    have leaves : warming.foldl subscribed
        (channelTopic socket.tenantId.val channelId :: subscriptions) = _ :=
      foldl_subscribed_of_leaves (leaves_warmUserCache.of_performs warms fun _ _ => trivial).1
    refine Or.inl ⟨_, ⟨room, ?_⟩, ?_, Except.ok.inj same, ?_⟩
    · intro hex isHex
      cases Option.some.inj (isChannel.symm.trans isHex)
      exact ⟨channelIdBin, decoded, by simp⟩
    · simp only [topicEntry, isChannel]
    · simp only [List.foldl_append, List.foldl_cons, List.foldl_nil]
      exact leaves
  · rcases answered with ⟨rfl, same⟩
    exact Or.inr ⟨_, Except.ok.inj same, rfl, Or.inr (refused (by simp))⟩
  · rcases answered with ⟨rfl, same⟩
    exact Or.inr ⟨_, Except.ok.inj same, rfl, Or.inr (refused (by simp))⟩

theorem performs_doJoin {socket : Socket} {topic : Bytes}
    {result : Except JoinError (ℕ × Socket)}
    (performs : (doJoin topic socket).Performs made (.ok result)) :
    (∃ info, Accepts socket made topic ∧ topicEntry socket.tenantId.val topic = some info ∧
      result = .ok (socket.nextTopicId, socket.joined info) ∧
      made.foldl subscribed subscriptions = info.pubsub.toList ++ subscriptions) ∨
    ∃ reason, result = .error reason ∧ made.foldl subscribed subscriptions = subscriptions ∧
      (topicEntry socket.tenantId.val topic = none ∨ ¬Accepts socket made topic) := by
  unfold doJoin at performs
  split at performs
  · next channelId isChannel => exact performs_joinChannel isChannel performs
  next notChannel =>
  have noMember : ∀ hex, stripPrefix (ascii "channel:") topic = some hex →
      ∃ channelId, channelIdToBin hex = some channelId ∧
        ⟨.isMember socket.tenantId.val channelId socket.userId.val, .ok (.ok true)⟩ ∈ made :=
    fun hex isHex => by simp [notChannel] at isHex
  split at performs
  · next isLobby =>
      rcases performs with ⟨rfl, same⟩
      rw [Except.ok.inj same]
      unfold joinLobby
      split
      · next full =>
          exact Or.inr ⟨_, rfl, rfl, Or.inr fun accepts =>
            absurd full (allocateTopicId_ne_none accepts.room)⟩
      next topicId allocated free =>
      have room := room_of_allocateTopicId free
      rcases allocateTopicId_eq_some free with ⟨rfl, rfl⟩
      refine Or.inl ⟨_, ⟨room, noMember⟩, ?_, rfl, rfl⟩
      simp only [topicEntry, notChannel, isLobby]
  next notLobby =>
  split at performs
  · next channelId isPresence =>
      unfold joinPresence at performs
      split at performs
      · next full =>
          rcases performs with ⟨rfl, same⟩
          exact Or.inr ⟨_, Except.ok.inj same, rfl, Or.inr fun accepts =>
            absurd full (allocateTopicId_ne_none accepts.room)⟩
      next topicId allocated free =>
      have room := room_of_allocateTopicId free
      rcases allocateTopicId_eq_some free with ⟨rfl, rfl⟩
      rcases performs.of_bind with ⟨_, _, _, rfl, subscribes, rfl, same⟩
      cases subscribes.of_perform
      refine Or.inl ⟨_, ⟨room, noMember⟩, ?_, Except.ok.inj same, rfl⟩
      simp only [topicEntry, notChannel, notLobby, isPresence]
  · next notPresence =>
      rcases performs with ⟨rfl, same⟩
      refine Or.inr ⟨_, Except.ok.inj same, rfl, Or.inl ?_⟩
      simp only [topicEntry, notChannel, notLobby, notPresence]

theorem leaves_of_pushIssues {info : TopicInfo} {event : Byte} {payload : Bytes} {asked : Call}
    (issued : PushIssues native process.socket info event payload asked) :
    LeavesSubscriptions asked := by
  cases asked <;> first | exact trivial | exact issued.elim

/-- The specification of every frame of a process. -/
theorem handled_of_performs {data : Bytes} {reaction : Reaction}
    (performs : (handleIn native data process.socket).Performs made (.ok reaction)) :
    Handled process made (Frame.parse data) reaction.pushed
      ⟨reaction.socket, made.foldl subscribed process.subscriptions⟩ := by
  unfold handleIn at performs
  cases frameEq : Frame.parse data with
  | heartbeat =>
      rw [frameEq] at performs
      rcases performs with ⟨rfl, same⟩
      cases same
      exact Handled.beat
  | ignored =>
      rw [frameEq] at performs
      rcases performs with ⟨rfl, same⟩
      cases same
      exact Handled.ignored
  | push ref topicId event payload =>
      rw [frameEq] at performs
      rcases within_handleFrame.of_performs performs fun _ _ => trivial with ⟨issued, kept⟩
      have leaves : ∀ taken ∈ made, LeavesSubscriptions taken.call := by
        intro taken takenMem
        rcases issued taken takenMem with ⟨info, -, issued⟩
        exact leaves_of_pushIssues issued
      rw [foldl_subscribed_of_leaves leaves, show reaction.socket = process.socket from kept]
      exact Handled.pushed
  | join ref topic =>
      rw [frameEq] at performs
      rcases performs.of_bind with ⟨joining, replying, result, rfl, joins, replies⟩
      rcases performs_doJoin joins with
        ⟨info, accepts, entry, rfl, subscribes⟩ | ⟨reason, rfl, leaves, refuses⟩
      · rcases replies with ⟨rfl, same⟩
        cases same
        rw [List.append_nil, subscribes]
        exact Handled.joined accepts entry
      · rcases reason with reason | _
        · rcases replies with ⟨rfl, same⟩
          cases same
          rw [List.append_nil, leaves]
          exact Handled.refused refuses
        · cases replies.2
  | leave topicId =>
      rw [frameEq] at performs
      rw [handleFrame, handleLeave] at performs
      split at performs
      · next absent =>
          rcases performs with ⟨rfl, same⟩
          cases same
          exact Handled.unknown absent
      next info entry =>
      split at performs
      · next pubsub carries =>
          rcases performs.of_bind with ⟨_, _, _, rfl, unsubscribes, rfl, same⟩
          cases unsubscribes.of_perform
          cases same
          have kept : subscribed process.subscriptions ⟨.unsubscribe pubsub, .ok ()⟩ =
              process.subscriptions.filter fun topic => some topic ≠ info.pubsub := by
            simp [subscribed, carries]
          simp only [List.foldl_append, List.foldl_cons, List.foldl_nil, kept]
          exact Handled.left entry
      · next carries =>
          rcases performs with ⟨rfl, same⟩
          cases same
          have kept : process.subscriptions =
              process.subscriptions.filter fun topic => some topic ≠ info.pubsub := by
            simp [carries]
          rw [List.foldl_nil, kept]
          exact Handled.left entry

end Step

end Mercury.Gateway
