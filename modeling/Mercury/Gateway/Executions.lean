import Mercury.Gateway.Authenticity
import Mercury.Gateway.System

/-!
# Executions of single frames

What a node performs for a join of a channel by one of its members, and for the
push of one envelope, when every command succeeds.
-/

namespace Mercury.Gateway

open Foundations Foundations.Program Persistence

theorem channelIdToBin_encode16 (channelId : Id16) :
    channelIdToBin (Base.encode16 channelId.val) = some channelId.val := by
  simp [channelIdToBin, channelId.property]

/-- The entry of a joined channel. -/
def channelEntry (tenantId channelId : Id16) : TopicInfo where
  topic := channelOf channelId
  channelId := some (Base.encode16 channelId.val)
  pubsub := some (channelTopic tenantId.val (Base.encode16 channelId.val))

theorem channelEntry_names (tenantId channelId : Id16) :
    (channelEntry tenantId channelId).Names channelId.val :=
  ⟨_, rfl, channelIdToBin_encode16 channelId⟩

/-- A frame that is a push on the channel, from a socket of its tenant. -/
structure ChannelPush (tenantId channelId : Id16) (socket : Socket) (data : Bytes) where
  ref : ℕ
  topicId : ℕ
  event : Byte
  payload : Bytes
  info : TopicInfo
  parsed : Frame.parse data = .push ref topicId event payload
  entry : socket.topicIds.lookup topicId = some info
  names : info.Names channelId.val
  tenant : socket.tenantId = tenantId

/-- The calls of a member's join, with the members read from the cache. -/
def joinCalls (socket : Socket) (channelId : Id16) (members : List Bytes) :
    List (Performed node Raise) :=
  let topic := channelTopic socket.tenantId.val (Base.encode16 channelId.val)
  [⟨.inl (.smembers (Cache.membersKey socket.tenantId.val channelId.val)), .ok (.ok members)⟩,
    ⟨.inr (.subscribe topic), .ok ()⟩,
    ⟨.inr (.getCachedUser socket.tenantId.val socket.userId.val), .ok true⟩,
    ⟨.inr (.broadcastFrom topic Event.presenceJoin socket.userId.val), .ok ()⟩]

theorem performs_isMember {tenantId channelId userId : Bytes} {members : List Bytes}
    (member : userId ∈ members) :
    (Members.isMember tenantId channelId userId).Performs
      [⟨.smembers (Cache.membersKey tenantId channelId), .ok (.ok members)⟩] (.ok (.ok true)) := by
  refine ⟨.ok (.ok members), [], rfl, ?_⟩
  rcases members with _ | ⟨first, later⟩
  · simp at member
  · exact ⟨rfl, by simp [member]⟩

/-- A member joins a channel. -/
theorem performs_join {native : Native} {socket : Socket} {data : Bytes} {ref : ℕ}
    {channelId : Id16} {members : List Bytes}
    (frameEq : Frame.parse data = .join ref (channelOf channelId))
    (room : socket.nextTopicId ≤ 0xFFFF) (member : socket.userId.val ∈ members) :
    (nodeHandleIn native data socket).Performs (joinCalls socket channelId members)
      (.ok (replyOk (socket.joined (channelEntry socket.tenantId channelId)) ref
        socket.nextTopicId [])) := by
  have allocated : allocateTopicId socket =
      some (socket.nextTopicId, { socket with nextTopicId := socket.nextTopicId + 1 }) :=
    if_neg (Nat.not_lt.mpr room)
  have asked :
      (persistence (.isMember socket.tenantId.val channelId.val socket.userId.val)).Performs _
        (.ok (.ok true)) := performs_inner (performs_isMember member)
  have joined : ((doJoin (channelOf channelId) socket).through persistence).Performs
      (joinCalls socket channelId members)
      (.ok (.ok (socket.nextTopicId,
        socket.joined (channelEntry socket.tenantId channelId)))) := by
    rw [doJoin, channelOf, stripPrefix_append]
    dsimp only
    rw [joinChannel, channelIdToBin_encode16, allocated]
    dsimp only
    rw [through_bind, call, through_perform]
    exact asked.bind ⟨_, _, rfl, _, _, rfl, _, _, rfl, rfl, rfl⟩
  rw [nodeHandleIn, handleIn, frameEq, handleFrame, handleJoin, through_bind]
  rw [← List.append_nil (joinCalls socket channelId members)]
  exact joined.bind ⟨rfl, rfl⟩

/-- The row of a pushed envelope. -/
def pushedRow (socket : Socket) (channelId : Bytes) (bucket : ℕ) (envelope : Envelope)
    (now : ℕ) : MessageRow where
  tenantId := socket.tenantId.val
  channelId := channelId
  bucketId := bucket
  message := pushedMessage envelope
  serverReceivedAt := now

/-- The calls of a join that the members in the database refuse. -/
def refusedCalls (socket : Socket) (channelId : Id16) (members : List Id16) :
    List (Performed node Raise) :=
  let key := Cache.membersKey socket.tenantId.val channelId.val
  [⟨.inl (.smembers key), .ok (.ok [])⟩,
    ⟨.inl (.selectMemberIds socket.tenantId channelId), .ok members⟩,
    ⟨.inl (.replaceSet key (members.map Subtype.val)), .ok (.ok ())⟩]

theorem performs_isMember_false {tenantId channelId : Id16} {userId : Bytes}
    {members : List Id16} (others : members ≠ []) (notMember : userId ∉ members.map Subtype.val) :
    (Members.isMember tenantId.val channelId.val userId).Performs
      [⟨.smembers (Cache.membersKey tenantId.val channelId.val), .ok (.ok [])⟩,
        ⟨.selectMemberIds tenantId channelId, .ok members⟩,
        ⟨.replaceSet (Cache.membersKey tenantId.val channelId.val) (members.map Subtype.val),
          .ok (.ok ())⟩] (.ok (.ok false)) := by
  rcases members with _ | ⟨first, later⟩
  · exact absurd rfl others
  · simp only [Members.isMember, Members.listMembers, Members.loadFromDb, Id16.ofBytes_val]
    exact ⟨_, _, rfl, _, _, rfl, _, _, rfl, rfl, by simpa using notMember⟩

/-- A user who is no member is refused. -/
theorem performs_refusedJoin {native : Native} {socket : Socket} {data : Bytes} {ref : ℕ}
    {channelId : Id16} {members : List Id16}
    (frameEq : Frame.parse data = .join ref (channelOf channelId))
    (room : socket.nextTopicId ≤ 0xFFFF) (others : members ≠ [])
    (notMember : socket.userId.val ∉ members.map Subtype.val) :
    (nodeHandleIn native data socket).Performs (refusedCalls socket channelId members)
      (.ok (replyError socket ref 0 (ascii "not_a_member"))) := by
  have allocated : allocateTopicId socket =
      some (socket.nextTopicId, { socket with nextTopicId := socket.nextTopicId + 1 }) :=
    if_neg (Nat.not_lt.mpr room)
  have asked :
      (persistence (.isMember socket.tenantId.val channelId.val socket.userId.val)).Performs
        (refusedCalls socket channelId members) (.ok (.ok false)) :=
    performs_inner (performs_isMember_false others notMember)
  have refused : ((doJoin (channelOf channelId) socket).through persistence).Performs
      (refusedCalls socket channelId members)
      (.ok (.error (.text (ascii "not_a_member")))) := by
    rw [doJoin, channelOf, stripPrefix_append]
    dsimp only
    rw [joinChannel, channelIdToBin_encode16, allocated]
    dsimp only
    rw [through_bind, call, through_perform, ← List.append_nil (refusedCalls ..)]
    exact asked.bind ⟨rfl, rfl⟩
  rw [nodeHandleIn, handleIn, frameEq, handleFrame, handleJoin, through_bind,
    ← List.append_nil (refusedCalls socket channelId members)]
  exact refused.bind ⟨rfl, rfl⟩

/-- The calls of a push of one envelope. -/
def pushCalls (socket : Socket) (channelId : Bytes) (bucket : ℕ) (envelope : Envelope)
    (now : ℕ) : List (Performed node Raise) :=
  [⟨.inl .systemTime, .ok now⟩,
    ⟨.inl (.insertMessage (pushedRow socket channelId bucket envelope now)), .ok (.ok ())⟩,
    ⟨.inr .natsRunning, .ok false⟩, ⟨.inr .systemTime, .ok now⟩, ⟨.inr .nativeTime, .ok now⟩]

theorem performs_syncPushed {socket : Socket} {channelId : Bytes} {envelope : Envelope}
    {bucket : ℕ} (now : ℕ) (bucketEq : TimeBucket.compute envelope.timestamp = .ok bucket) :
    ((syncPushed socket channelId [envelopeDelta envelope]).through persistence).Performs
      (pushCalls socket channelId bucket envelope now) (.ok (some (1, now))) := by
  have applied : (Sync.applyDeltas socket.tenantId.val channelId [envelopeDelta envelope]).Performs
      [⟨.systemTime, .ok now⟩,
        ⟨.insertMessage (pushedRow socket channelId bucket envelope now), .ok (.ok ())⟩]
      (.ok (.ok 1)) := by
    rw [Sync.applyDeltas, if_neg (by simp), Sync.countApplied, applySingleDelta_envelopeDelta,
      bucketEq]
    exact ⟨_, _, rfl, _, _, rfl, rfl, rfl⟩
  have ticked : Hlc.tick now ⟨now, 0, socket.userId⟩ = some ⟨now, 1, socket.userId⟩ := by
    simp [Hlc.tick, Build.increment]
  rw [syncPushed, through_bind, call, through_perform]
  refine (performs_inner applied).bind ⟨_, _, rfl, _, _, rfl, _, _, rfl, ?_⟩
  simp only [Program.resume, ticked]
  exact ⟨rfl, rfl⟩

/-- A push of one envelope stores its message. -/
theorem performs_push {native : Native} {socket : Socket} {data : Bytes} {ref topicId : ℕ}
    {payload channelId : Bytes} {info : TopicInfo} {envelope : Envelope} {bucket : ℕ} (now : ℕ)
    (frameEq : Frame.parse data = .push ref topicId Event.syncPush payload)
    (entry : socket.topicIds.lookup topicId = some info) (names : info.Names channelId)
    (decoded : decodedEnvelopes native (unpackEnvelopes payload) = some [envelope])
    (bucketEq : TimeBucket.compute envelope.timestamp = .ok bucket) :
    (nodeHandleIn native data socket).Performs (pushCalls socket channelId bucket envelope now)
      (.ok (replyOk socket ref topicId (littleEndian 4 1 ++ littleEndian 8 now))) := by
  rw [nodeHandleIn, handleIn, frameEq, handleFrame, handlePush_decoded entry names decoded,
    rescue, through_resume, through_bind,
    ← List.append_nil (pushCalls socket channelId bucket envelope now)]
  refine Performs.resume (?_ : Performs _ _ (.ok (replyOk socket ref topicId
    (littleEndian 4 1 ++ littleEndian 8 now)))) ⟨rfl, rfl⟩
  rw [← List.append_nil (pushCalls socket channelId bucket envelope now)]
  exact (performs_syncPushed now bucketEq).bind ⟨rfl, rfl⟩

/-- A member asks for the history of a channel that has none. -/
theorem performs_history {native : Native} {socket : Socket} {data : Bytes} {ref topicId : ℕ}
    {tenantId channelId : Id16}
    (frameEq : Frame.parse data = .push ref topicId Event.msgHistory [])
    (entry : socket.topicIds.lookup topicId = some (channelEntry tenantId channelId)) :
    (nodeHandleIn native data socket).Performs
      [⟨.inr (.readRecent socket.tenantId.val channelId.val 50), .ok []⟩]
      (.ok (replyOk socket ref topicId (packEnvelopes []))) := by
  have dispatched : dispatch native ref topicId [] (channelEntry tenantId channelId) socket
      Event.msgHistory = dispatchMsgHistory native ref topicId []
        (channelEntry tenantId channelId) socket := by
    simp [dispatch, Event.msgSend, Event.msgHistory]
  have named : dispatchMsgHistory native ref topicId [] (channelEntry tenantId channelId) socket =
      call (.readRecent socket.tenantId.val channelId.val 50) >>= fun msgs =>
        pure (replyOk socket ref topicId
          (packEnvelopes (msgs.map (encodeMessage native socket channelId.val)))) := by
    rw [dispatchMsgHistory, channelEntry]
    simp only [fetch_bind, channelIdToBin_encode16]
    rfl
  rw [nodeHandleIn, handleIn, frameEq, handleFrame,
    handlePush_of_names entry (channelEntry_names tenantId channelId), dispatched, named]
  exact ⟨_, _, rfl, rfl, rfl⟩

/-- The calls of a removal whose commands are carried out. -/
def removeCalls (socket : Socket) (channelId userId : Id16) (commit : Bytes) (role : ℕ) :
    List (Performed node Raise) :=
  [⟨.inl (.selectRole socket.tenantId channelId socket.userId), .ok (some role)⟩,
    ⟨.inl (.deleteMember socket.tenantId channelId userId), .ok (1 : ℕ)⟩,
    ⟨.inl (.del (Cache.membersKey socket.tenantId.val channelId.val)), .ok (.ok ())⟩,
    ⟨.inr (.broadcastFrom (channelTopic socket.tenantId.val (Base.encode16 channelId.val))
      Event.mlsCommit commit), .ok ()⟩]

theorem performs_getRole {tenantId channelId userId : Id16} (role : ℕ) :
    (Members.getRole tenantId.val channelId.val userId.val).Performs
      [⟨.selectRole tenantId channelId userId, .ok (some role)⟩] (.ok (.role role)) := by
  simp only [Members.getRole, Id16.ofBytes_val]
  exact ⟨_, _, rfl, rfl, rfl⟩

theorem performs_removeMember {tenantId channelId userId : Id16} :
    (Members.removeMember tenantId.val channelId.val userId.val).Performs
      [⟨.deleteMember tenantId channelId userId, .ok (1 : ℕ)⟩,
        ⟨.del (Cache.membersKey tenantId.val channelId.val), .ok (.ok ())⟩] (.ok (.ok ())) := by
  simp only [Members.removeMember, Id16.ofBytes_val]
  exact ⟨_, _, rfl, _, _, rfl, rfl, rfl⟩

/-- An admin removes a member. -/
theorem performs_remove {native : Native} {socket : Socket} {data : Bytes} {ref topicId : ℕ}
    {channelId userId : Id16} {commit : Bytes} {decoded : Except Bytes Bytes} {role : ℕ}
    (admin : 1 ≤ role)
    (frameEq : Frame.parse data =
      .push ref topicId Event.mlsRemove (userId.val ++ commit))
    (entry : socket.topicIds.lookup topicId = some (channelEntry socket.tenantId channelId))
    (commitEq : native.mlsCommitDecode commit = .ok decoded) :
    (nodeHandleIn native data socket).Performs (removeCalls socket channelId userId commit role)
      (.ok (replyOk socket ref topicId [])) := by
  have long : 16 ≤ (userId.val ++ commit).length := by simp [userId.property]
  have dispatched : dispatch native ref topicId (userId.val ++ commit)
      (channelEntry socket.tenantId channelId) socket Event.mlsRemove =
        dispatchMlsRemove native ref topicId (userId.val ++ commit)
          (channelEntry socket.tenantId channelId) socket := by
    simp only [dispatch, long, and_true]
    rfl
  have asks : ∃ next, dispatchMlsRemove native ref topicId (userId.val ++ commit)
      (channelEntry socket.tenantId channelId) socket =
        call (.getRole socket.tenantId.val channelId.val socket.userId.val) >>= next ∧
      next (.role role) =
        call (.removeMember socket.tenantId.val channelId.val userId.val) >>= fun _ =>
          call (.broadcastFrom (channelTopic socket.tenantId.val
            (Base.encode16 channelId.val)) Event.mlsCommit commit) >>= fun _ =>
              pure (replyOk socket ref topicId []) := by
    rw [dispatchMlsRemove, channelEntry, List.take_left' userId.property,
      List.drop_left' userId.property, commitEq]
    simp only [fetch_bind, channelIdToBin_encode16]
    exact ⟨_, rfl, if_pos admin⟩
  rcases asks with ⟨next, asks, removes⟩
  have roleRead : (persistence (.getRole socket.tenantId.val channelId.val
      socket.userId.val)).Performs _ (.ok (.role role)) := performs_inner (performs_getRole role)
  have removed : (persistence (.removeMember socket.tenantId.val channelId.val
      userId.val)).Performs _ (.ok (.ok ())) := performs_inner performs_removeMember
  rw [nodeHandleIn, handleIn, frameEq, handleFrame,
    handlePush_of_names entry (channelEntry_names _ channelId), dispatched, asks, rescue,
    through_resume, through_bind, call, through_perform,
    ← List.append_nil (removeCalls socket channelId userId commit role)]
  refine Performs.resume (?_ : Performs _ _ (.ok (replyOk socket ref topicId []))) ⟨rfl, rfl⟩
  apply roleRead.bind
  rw [removes, through_bind, call, through_perform]
  exact removed.bind ⟨_, _, rfl, rfl, rfl⟩

/-! ## A member of a channel -/

def newSocket (userId : Byte) : Socket :=
  Socket.init (.replicate 1) (.replicate userId) (.replicate 3)

/-- The socket of a user who has joined the channel. -/
def memberSocket (userId : Byte) : Socket :=
  (newSocket userId).joined (channelEntry (.replicate 1) (.replicate 7))

theorem entry_memberSocket (userId : Byte) :
    (memberSocket userId).topicIds.lookup 1 =
      some (channelEntry (.replicate 1) (.replicate 7)) :=
  @lookup_joined (newSocket userId) _ 1

theorem entry_memberFive :
    (memberSocket 5).topicIds.lookup 1 = some (channelEntry (.replicate 1) (.replicate 7)) :=
  entry_memberSocket 5

theorem names_channelSeven :
    (channelEntry (.replicate 1) (.replicate 7)).Names (Id16.replicate 7).val :=
  channelEntry_names _ _

/-- The frame with which a user joins the channel. -/
def joinOf : Bytes :=
  Sdk.joinFrame 1 (channelOf (.replicate 7))

theorem parse_joinOf : Frame.parse joinOf = .join 1 (channelOf (.replicate 7)) :=
  Sdk.parse_joinFrame _ (by decide)

/-- A user connects and joins the channel while the other processes wait. -/
theorem run_join {Store : Type} {native : Native}
    {answers : Store → Performed node Raise → Store → Prop}
    {guard : System Store → SystemLabel → Prop} {system : System Store} {pid : ℕ} {userId : Byte}
    {members : List Bytes}
    (receives : guard (system.set pid (some (.idle (newSocket userId))))
      (.received pid (newSocket userId) joinOf))
    (connects : guard system (.connected pid))
    (unguarded : ∀ system process,
      ∀ taken ∈ joinCalls (newSocket userId) (.replicate 7) members,
        guard system (.performed pid process taken))
    (answersFrame : ∀ system pushed, guard system (.answered pid pushed))
    (free : system.processes pid = none) (member : (Id16.replicate userId).val ∈ members)
    (stores : Run answers system.store (joinCalls (newSocket userId) (.replicate 7) members)
      system.store) :
    ∃ labels, Run (Guarded guard (SystemStep native answers)) system labels
      (system.set pid (some (.idle (memberSocket userId)))) := by
  have connect : Guarded guard (SystemStep native answers) system (.connected pid)
      (system.set pid (some (.idle (newSocket userId)))) :=
    ⟨connects, SystemStep.connected (.replicate 1) (.replicate userId) (.replicate 3) free⟩
  have joins := @performs_join native (newSocket userId) joinOf 1 (.replicate 7) members
    parse_joinOf (Nat.le_of_ble_eq_true rfl) member
  rcases System.run_frame receives unguarded answersFrame (System.set_processes_self ..) joins
    stores with ⟨labels, run, -⟩
  rw [System.set_set] at run
  exact ⟨_, Run.cons connect run⟩

end Mercury.Gateway
