import Mercury.Gateway.Access
import Mercury.Gateway.Node

/-!
# Who a stored message is from

`msg:send` takes the sender of a message from the socket, `sync:push` takes it
from the pushed envelope. So every row and every broadcast of a frame carries the
user of the socket, unless the frame pushes a batch that decodes and has an envelope
of another sender (`authentic_iff`).
-/

namespace Mercury.Gateway

open Foundations Foundations.Program Persistence

/-- The frame stores the row, itself or through a task that it starts. -/
inductive StoresRow (native : Native) (socket : Socket) (data : Bytes) (row : MessageRow) :
    Prop where
  | frame (stored : (nodeHandleIn native data socket).Reaches
      ⟨.inl (.insertMessage row), .ok (.ok ())⟩)
  | task {task : BackgroundTask}
      (started : (nodeHandleIn native data socket).Reaches ⟨.inr (.startTask task), .ok ()⟩)
      (stored : (nodeRunTask task).Reaches ⟨.inl (.insertMessage row), .ok (.ok ())⟩)

/-- The frame broadcasts `payload` as `event`. -/
def Broadcasts (native : Native) (socket : Socket) (data : Bytes) (event : Byte)
    (payload : Bytes) : Prop :=
  ∃ topic, (nodeHandleIn native data socket).Reaches
      ⟨.inr (.broadcast topic event payload), .ok ()⟩ ∨
    (nodeHandleIn native data socket).Reaches
      ⟨.inr (.broadcastFrom topic event payload), .ok ()⟩

/-- Every row that the frame stores and every `msg:new` envelope that it broadcasts is
from the user of the socket. -/
def Authentic (native : Native) (socket : Socket) (data : Bytes) : Prop :=
  (∀ row, StoresRow native socket data row → row.message.senderId = socket.userId.val) ∧
    ∀ payload, Broadcasts native socket data Event.msgNew payload →
      ∃ envelope, envelope.senderId = socket.userId.val ∧
        payload = native.envelopeEncode envelope

/-- A `sync:push` on a channel, of a batch that decodes and is not too large, in which the
envelopes up to one of another sender have time buckets. -/
def ForgesSender (native : Native) (socket : Socket) : Frame → Prop
  | .push _ topicId event payload =>
      event = Event.syncPush ∧
        ∃ info channelId, socket.topicIds.lookup topicId = some info ∧ info.Names channelId ∧
          ∃ earlier envelope later,
            decodedEnvelopes native (unpackEnvelopes payload) =
                some (earlier ++ envelope :: later) ∧
              (earlier ++ envelope :: later).length ≤ 1000 ∧
                (∀ other ∈ earlier, other.Fits) ∧ envelope.Fits ∧
                  envelope.senderId ≠ socket.userId.val
  | _ => False

section

variable {native : Native} {socket : Socket} {data : Bytes}

/-! ## What is stored -/

theorem stored_of_storesRow {row : MessageRow} (stores : StoresRow native socket data row) :
    row.message.senderId = socket.userId.val ∨ ForgesSender native socket (Frame.parse data) := by
  cases stores with
  | frame stored =>
      rcases nodeHandleIn_ensures.of_reaches stored with
        ⟨ref, topicId, payload, info, frameEq, entry, names, -, earlier, envelope, later,
          decodes, small, fits, bucketEq, messageEq⟩
      by_cases own : envelope.senderId = socket.userId.val
      · exact Or.inl (by rw [messageEq]; exact own)
      · right
        rw [frameEq]
        exact ⟨rfl, info, _, entry, names, earlier, envelope, later, decodes, small, fits,
          ⟨_, bucketEq⟩, own⟩
  | @task task started stored =>
      have taskEq := nodeRunTask_ensures.of_reaches stored
      have issued := nodeHandleIn_ensures.of_reaches started
      left
      simp only at taskEq
      subst taskEq
      cases frameEq : Frame.parse data with
      | push ref topicId event payload =>
          rw [frameEq] at issued
          rcases issued with ⟨info, -, -, -, -, envelope, -, messageEq⟩
          rw [messageEq]
          rfl
      | _ =>
          rw [frameEq] at issued
          exact issued.elim

/-- Only `msg:send` broadcasts `msg:new`, in the name of the user. -/
theorem exists_envelope_of_broadcasts {payload : Bytes}
    (broadcasts : Broadcasts native socket data Event.msgNew payload) :
    ∃ envelope, envelope.senderId = socket.userId.val ∧
      payload = native.envelopeEncode envelope := by
  rcases broadcasts with ⟨topic, sent | sent⟩ <;>
    have issued := nodeHandleIn_ensures.of_reaches sent <;>
    cases frameEq : Frame.parse data <;> rw [frameEq] at issued
  case inl.push =>
    rcases issued with ⟨info, -, -, new⟩
    rcases new rfl with ⟨-, channelId, envelope, bucket, -, -, rfl⟩
    exact ⟨_, rfl, rfl⟩
  case inr.push =>
    rcases issued with ⟨info, -, -, notNew⟩
    exact absurd rfl notNew
  case inr.join => exact absurd rfl issued
  all_goals exact issued.elim

/-! ## What a forging push stores -/

/-- A program of the persistence application performs the same calls on the node. -/
theorem performs_inner {Result : Type} {program : Backed Result}
    {calls : List (Performed backend Raise)} {outcome : Except Raise Result}
    (performs : program.Performs calls outcome) :
    (inner program).Performs
      (calls.map fun taken => (⟨.inl taken.call, taken.answer⟩ : Performed node Raise))
      outcome := by
  induction program generalizing calls with
  | done result =>
      rcases performs with ⟨rfl, rfl⟩
      exact ⟨rfl, rfl⟩
  | fail error =>
      rcases performs with ⟨rfl, rfl⟩
      exact ⟨rfl, rfl⟩
  | call asked next ih =>
      rcases performs with ⟨answer, later, rfl, performs⟩
      refine ⟨answer, _, rfl, ?_⟩
      rcases answer with raised | answer <;> exact ih _ performs

theorem reaches_inner {Result : Type} {program : Backed Result}
    {taken : Performed backend Raise} (reaches : program.Reaches taken) :
    (inner program).Reaches ⟨.inl taken.call, taken.answer⟩ := by
  rcases reaches with ⟨calls, outcome, performed, takenMem⟩
  exact ⟨_, outcome, performs_inner performed, List.mem_map_of_mem takenMem⟩

theorem write_reaches (tenantId channelId : Bytes) (bucket : ℕ) (msg : Message) :
    (Messages.write tenantId channelId bucket msg).Reaches
      ⟨.insertMessage ⟨tenantId, channelId, bucket, msg, 0⟩, .ok (.ok ())⟩ :=
  Reaches.bind_right (@Ends.perform backend Raise .systemTime (0 : ℕ))
    (@Reaches.perform backend Raise (.insertMessage _) (.ok ()))

theorem write_ends (tenantId channelId : Bytes) (bucket : ℕ) (msg : Message) :
    (Messages.write tenantId channelId bucket msg).Ends (.ok (.ok ())) :=
  Ends.bind (@Ends.perform backend Raise .systemTime (0 : ℕ))
    (@Ends.perform backend Raise (.insertMessage _) (.ok ()))

theorem countApplied_reaches (tenantId channelId : Bytes) {earlier later : List Envelope}
    {envelope : Envelope} {bucket : ℕ} (fits : ∀ other ∈ earlier, other.Fits)
    (bucketEq : TimeBucket.compute envelope.timestamp = .ok bucket) :
    (Sync.countApplied tenantId channelId
        ((earlier ++ envelope :: later).map envelopeDelta)).Reaches
      ⟨.insertMessage ⟨tenantId, channelId, bucket, pushedMessage envelope, 0⟩,
        .ok (.ok ())⟩ := by
  induction earlier with
  | nil =>
      apply Reaches.bind_left
      rw [applySingleDelta_envelopeDelta, bucketEq]
      exact Reaches.bind_right ⟨[], rfl, rfl⟩ (write_reaches ..)
  | cons first rest ih =>
      rcases fits first (by simp) with ⟨firstBucket, firstEq⟩
      have ended : (Sync.applySingleDelta tenantId channelId (envelopeDelta first)).Ends
          (.ok (.ok ())) := by
        rw [applySingleDelta_envelopeDelta, firstEq]
        exact Ends.bind ⟨[], rfl, rfl⟩ (write_ends ..)
      exact Reaches.bind_right ended
        (Reaches.bind_left (ih fun other otherMem => fits other (by simp [otherMem])))

/-- A push on a topic of a channel reaches the clause of its event. -/
theorem handlePush_of_names {ref topicId : ℕ} {event : Byte} {payload channelId : Bytes}
    {info : TopicInfo} (entry : socket.topicIds.lookup topicId = some info)
    (names : info.Names channelId) :
    handlePush native ref topicId event payload socket =
      rescue (dispatch native ref topicId payload info socket event)
        fun _ => pure (replyError socket ref topicId (ascii "internal_error")) := by
  rcases names with ⟨hex, named, -⟩
  have notLobby : ¬(event ∈ Event.requiresChannel ∧ info.channelId = none) := by
    simp [named]
  rw [handlePush, entry]
  dsimp only
  rw [if_neg notLobby]

theorem handlePush_syncPush {ref topicId : ℕ} {payload channelId : Bytes} {info : TopicInfo}
    (entry : socket.topicIds.lookup topicId = some info) (names : info.Names channelId) :
    handlePush native ref topicId Event.syncPush payload socket =
      rescue
        (ofExcept (pushedDeltas native (unpackEnvelopes payload)) >>= fun deltas =>
          syncPushed socket channelId deltas >>= fun
            | some (count, wall) =>
                pure (replyOk socket ref topicId (littleEndian 4 count ++ littleEndian 8 wall))
            | none => pure (replyError socket ref topicId (ascii "batch_too_large")))
        fun _ => pure (replyError socket ref topicId (ascii "internal_error")) := by
  have dispatched : dispatch native ref topicId payload info socket Event.syncPush =
      dispatchSyncPush native ref topicId payload info socket := by
    simp [dispatch, Event.syncPush, Event.msgSend, Event.msgHistory, Event.msgTyping,
      Event.msgRead, Event.mlsKeyPackage, Event.mlsFetchKp, Event.mlsCommit, Event.mlsWelcome,
      Event.mlsRemove, Event.syncRequest]
  rw [handlePush_of_names entry names, dispatched]
  rcases names with ⟨hex, named, decoded⟩
  rw [dispatchSyncPush, named, fetch_bind]
  generalize channelIdToBin hex = found at decoded ⊢
  subst decoded
  rfl

theorem handlePush_decoded {ref topicId : ℕ} {payload channelId : Bytes} {info : TopicInfo}
    {envelopes : List Envelope} (entry : socket.topicIds.lookup topicId = some info)
    (names : info.Names channelId)
    (decodes : decodedEnvelopes native (unpackEnvelopes payload) = some envelopes) :
    handlePush native ref topicId Event.syncPush payload socket =
      rescue
        (syncPushed socket channelId (envelopes.map envelopeDelta) >>= fun
          | some (count, wall) =>
              pure (replyOk socket ref topicId (littleEndian 4 count ++ littleEndian 8 wall))
          | none => pure (replyError socket ref topicId (ascii "batch_too_large")))
        fun _ => pure (replyError socket ref topicId (ascii "internal_error")) := by
  rw [handlePush_syncPush entry names, pushedDeltas_of_decoded decodes]
  rfl

/-- The row of the forged envelope is stored. -/
theorem storesRow_of_forged {ref topicId : ℕ} {payload channelId : Bytes} {info : TopicInfo}
    {earlier later : List Envelope} {envelope : Envelope} {bucket : ℕ}
    (frameEq : Frame.parse data = .push ref topicId Event.syncPush payload)
    (entry : socket.topicIds.lookup topicId = some info) (names : info.Names channelId)
    (decodes : decodedEnvelopes native (unpackEnvelopes payload) =
      some (earlier ++ envelope :: later))
    (small : (earlier ++ envelope :: later).length ≤ 1000)
    (fits : ∀ other ∈ earlier, other.Fits)
    (bucketEq : TimeBucket.compute envelope.timestamp = .ok bucket) :
    StoresRow native socket data
      ⟨socket.tenantId.val, channelId, bucket, pushedMessage envelope, 0⟩ := by
  apply StoresRow.frame
  rw [nodeHandleIn, handleIn, frameEq, handleFrame, handlePush_decoded entry names decodes,
    rescue, through_resume, through_bind, syncPushed, through_bind, call, through_perform]
  refine Reaches.resume_left (Reaches.bind_left (Reaches.bind_left ?_))
  have applied : (Sync.applyDeltas socket.tenantId.val channelId
      ((earlier ++ envelope :: later).map envelopeDelta)).Reaches
        ⟨.insertMessage ⟨socket.tenantId.val, channelId, bucket, pushedMessage envelope, 0⟩,
          .ok (.ok ())⟩ := by
    rw [Sync.applyDeltas, if_neg (by simpa using small)]
    exact Reaches.bind_left (countApplied_reaches _ _ fits bucketEq)
  exact reaches_inner applied

theorem not_authentic_of_forgesSender (forges : ForgesSender native socket (Frame.parse data)) :
    ¬Authentic native socket data := by
  rintro ⟨rows, -⟩
  cases frameEq : Frame.parse data with
  | push ref topicId event payload =>
      rw [frameEq] at forges
      rcases forges with ⟨rfl, info, channelId, entry, names, earlier, envelope, later, decodes,
        small, fits, ⟨bucket, bucketEq⟩, forged⟩
      exact forged (rows _ (storesRow_of_forged frameEq entry names decodes small fits bucketEq))
  | _ =>
      rw [frameEq] at forges
      exact forges.elim

end

/-- A frame is authentic exactly when it pushes no envelope of another sender. -/
theorem authentic_iff (native : Native) (socket : Socket) (data : Bytes) :
    Authentic native socket data ↔ ¬ForgesSender native socket (Frame.parse data) :=
  ⟨fun authentic forges => not_authentic_of_forgesSender forges authentic,
    fun honest =>
      ⟨fun _ stores => (stored_of_storesRow stores).resolve_right honest,
        fun _ => exists_envelope_of_broadcasts⟩⟩

/-- Answers of a node on which every user is a member of every channel. -/
def memberAnswers : (asked : Call) → Except Raise asked.Answer
  | .isMember .. => .ok (.ok true)
  | asked => emptyAnswers asked

/-- The topic of a channel. -/
def channelOf (channelId : Id16) : Bytes :=
  ascii "channel:" ++ Base.encode16 channelId.val

/-- An envelope of user 5. -/
def foreignEnvelope : Envelope where
  tenantId := (Id16.replicate 1).val
  channelId := (Id16.replicate 7).val
  senderId := (Id16.replicate 5).val
  messageId := (Id16.replicate 8).val
  timestamp := 1000
  payload := [42]

/-- A member of a channel pushes a message in the name of user 5. -/
theorem forged_sender_stored :
    ¬∀ (native : Native) (tenantId userId deviceId : Id16) (frames : List HandledFrame)
        (socket : Socket) (data : Bytes),
      Run (SocketStep native fun _ => True) (some (Socket.init tenantId userId deviceId)) frames
        (some socket) →
      Authentic native socket data := by
  intro authentic
  have run := @guardedRun_play (Capnp.native [foreignEnvelope] []) memberAnswers (fun _ => True)
    (fun _ _ => True) (fun _ => trivial)
    (Socket.init (.replicate 1) (.replicate 2) (.replicate 3))
    [Sdk.joinFrame 1 (channelOf (.replicate 7))] (fun _ _ _ _ => trivial)
  refine not_authentic_of_forgesSender ?_ (authentic _ _ _ _ _
    ((Socket.init (.replicate 1) (.replicate 2) (.replicate 3)).joined
      { topic := channelOf (.replicate 7)
        channelId := some (Base.encode16 (Id16.replicate 7).val)
        pubsub := some (channelTopic (Id16.replicate 1).val
          (Base.encode16 (Id16.replicate 7).val)) })
    (Sdk.pushFrame 2 1 Event.syncPush (packEnvelopes [Capnp.envelope foreignEnvelope]))
    run.of_guarded)
  rw [Sdk.parse_pushFrame _ _ (by decide) (by decide)]
  have decoded : decodedEnvelopes (Capnp.native [foreignEnvelope] [])
      (unpackEnvelopes (packEnvelopes [Capnp.envelope foreignEnvelope])) =
        some [foreignEnvelope] := by
    rw [Sdk.unpackEnvelopes_packEnvelopes (by decide) (by decide +kernel)]
    simp [decodedEnvelopes, Capnp.native]
  exact ⟨rfl, _, (Id16.replicate 7).val, lookup_joined _ _, ⟨_, rfl, rfl⟩, [],
    foreignEnvelope, [], decoded, by decide, by simp, ⟨0, rfl⟩, by decide⟩

end Mercury.Gateway
