import Mercury.Gateway.Capnp
import Mercury.Gateway.Issued
import Mercury.Sdk.Frame

/-!
# Access to the data of a channel

The runs of one socket, and the frames that reach the data of a channel without
a membership check. A topic that carries a channel id comes from a join of the
channel, which asks for the membership, or from a join of its presence, which
does not; the early check of `handle_push` tells the two apart from a lobby
only. Without the pushes on a presence topic, a socket of a user who is no
member never reaches the channel (`no_access_without_membership`).
-/

namespace Mercury.Gateway

open Foundations Persistence

/-- The call reads or writes the data of the channel. -/
def Call.Touches (tenantId channelId : Bytes) : Call → Prop
  | .readRecent tid cid _ | .getDeltas tid cid _ _ | .applyDeltas tid cid _
  | .listMembers tid cid | .getMlsCreator tid cid | .setMlsCreator tid cid _
  | .writeMessage tid cid _ _ | .startTask (.persistMessage tid cid _ _) =>
      tid = tenantId ∧ cid = channelId
  | _ => False

/-- A frame given to `handle_in`, with the calls it made. -/
structure HandledFrame where
  data : Bytes
  calls : List (Performed calls Raise)

/-- The steps of one socket; an exception that escapes ends the process. -/
inductive SocketStep (native : Native) (admitted : Performed calls Raise → Prop) :
    Option Socket → HandledFrame → Option Socket → Prop where
  | returned {socket : Socket} {data : Bytes} {made : List (Performed calls Raise)}
      {reaction : Reaction}
      (performs : (handleIn native data socket).Performs made (.ok reaction))
      (granted : ∀ taken ∈ made, admitted taken) :
      SocketStep native admitted (some socket) ⟨data, made⟩ (some reaction.socket)
  | raised {socket : Socket} {data : Bytes} {made : List (Performed calls Raise)}
      {error : Raise}
      (performs : (handleIn native data socket).Performs made (.error error))
      (granted : ∀ taken ∈ made, admitted taken) :
      SocketStep native admitted (some socket) ⟨data, made⟩ none

/-- The frames `datas` in order, with every call answered by `answers`. -/
def Socket.play (native : Native) (answers : (asked : Call) → Except Raise asked.Answer) :
    Socket → List Bytes → List HandledFrame × Option Socket
  | socket, [] => ([], some socket)
  | socket, data :: later =>
      match (handleIn native data socket).runWith answers with
      | (made, .ok reaction) =>
          let rest := reaction.socket.play native answers later
          (⟨data, made⟩ :: rest.1, rest.2)
      | (made, .error _) => ([⟨data, made⟩], none)

theorem guardedRun_play {native : Native}
    {answers : (asked : Call) → Except Raise asked.Answer}
    {admitted : Performed calls Raise → Prop} {guard : Option Socket → HandledFrame → Prop}
    (granted : ∀ asked, admitted ⟨asked, answers asked⟩) (socket : Socket) (datas : List Bytes)
    (guarded : ∀ data ∈ datas, ∀ state made, guard state ⟨data, made⟩) :
    Run (Guarded guard (SocketStep native admitted)) (some socket)
      (socket.play native answers datas).1 (socket.play native answers datas).2 := by
  induction datas generalizing socket with
  | nil => exact Run.refl
  | cons data later ih =>
      have guardedNow := guarded data (by simp) (some socket)
      have guardedLater := fun other otherMem => guarded other (List.mem_cons_of_mem _ otherMem)
      have performs := Program.performs_runWith answers (handleIn native data socket)
      have answered : ∀ taken ∈ ((handleIn native data socket).runWith answers).1,
          admitted taken := by
        rintro ⟨asked, answer⟩ takenMem
        have same : answer = answers asked := Program.answer_of_mem_runWith takenMem
        exact same ▸ granted asked
      simp only [Socket.play]
      split
      · next made reaction outcome =>
          rw [outcome] at performs answered
          exact Run.cons ⟨guardedNow made, SocketStep.returned performs answered⟩
            (ih reaction.socket guardedLater)
      · next made error outcome =>
          rw [outcome] at performs answered
          exact Run.cons ⟨guardedNow made, SocketStep.raised performs answered⟩ Run.refl

/-- `Members.member?` never answers that the user is a member of the channel. -/
def NeverMember (tenantId channelId userId : Bytes) (taken : Performed calls Raise) : Prop :=
  taken ≠ ⟨.isMember tenantId channelId userId, .ok (.ok true)⟩

/-- The entry comes from a join of a presence topic. -/
def TopicInfo.IsPresence (info : TopicInfo) : Prop :=
  ∃ channelId, stripPrefix (ascii "presence:") info.topic = some channelId

/-- The events whose handler reads or writes data of the channel at once. -/
def dataEvents : List Byte :=
  [Event.msgHistory, Event.mlsMembers, Event.mlsGroupInfo, Event.syncRequest, Event.syncPush]

/-- A push that reaches the data of the channel through a presence topic. -/
def ReachesByPresence (native : Native) (channelIdBin : Bytes) (socket : Socket) :
    Frame → Prop
  | .push _ topicId event payload =>
      ∃ info, socket.topicIds.lookup topicId = some info ∧ info.IsPresence ∧
        info.Names channelIdBin ∧
          (event ∈ dataEvents ∨
            event = Event.msgSend ∧ ∃ envelope bucket, Sends native payload envelope bucket)
  | _ => False

/-- Every entry that carries the channel id is that of a presence topic. -/
def OnlyPresence (channelIdBin : Bytes) (socket : Socket) : Prop :=
  ∀ topicId info, socket.topicIds.lookup topicId = some info → info.Names channelIdBin →
    info.IsPresence

section

variable {native : Native} {socket : Socket} {tenantId channelIdBin userId : Bytes}

/-- A push on a topic touches no channel but that of the topic, and only by the events
that reach its data. -/
theorem reaches_of_pushIssues {info : TopicInfo} {event : Byte} {payload : Bytes} {asked : Call}
    (issued : PushIssues native socket info event payload asked)
    (touches : asked.Touches tenantId channelIdBin) :
    info.Names channelIdBin ∧
      (event ∈ dataEvents ∨
        event = Event.msgSend ∧ ∃ envelope bucket, Sends native payload envelope bucket) := by
  cases asked with
  | startTask task =>
      cases task with
      | updateReadPosition => exact touches.elim
      | persistMessage tid cid bucket msg =>
          rcases issued with ⟨isSend, -, names, envelope, sends, -⟩
          exact ⟨touches.2 ▸ names, Or.inr ⟨isSend, envelope, bucket, sends⟩⟩
  | readRecent =>
      exact ⟨touches.2 ▸ issued.2.2, Or.inl (by simp [issued.1, dataEvents])⟩
  | getDeltas =>
      exact ⟨touches.2 ▸ issued.2.2, Or.inl (by simp [issued.1, dataEvents])⟩
  | applyDeltas =>
      exact ⟨touches.2 ▸ issued.2.2.1, Or.inl (by simp [issued.1, dataEvents])⟩
  | listMembers =>
      exact ⟨touches.2 ▸ issued.2.2, Or.inl (by simp [issued.1, dataEvents])⟩
  | getMlsCreator =>
      exact ⟨touches.2 ▸ issued.2.2, Or.inl (by simp [issued.1, dataEvents])⟩
  | setMlsCreator =>
      exact ⟨touches.2 ▸ issued.2.2, Or.inl (by simp [issued.1, dataEvents])⟩
  | writeMessage => exact issued.elim
  | _ => exact touches.elim

theorem not_touches_of_frameIssues {frame : Frame} {asked : Call}
    (onlyPresence : OnlyPresence channelIdBin socket)
    (avoids : ¬ReachesByPresence native channelIdBin socket frame)
    (issued : FrameIssues native socket frame asked) :
    ¬asked.Touches tenantId channelIdBin := by
  intro touches
  cases frame with
  | heartbeat => exact issued.elim
  | ignored => exact issued.elim
  | join ref topic => cases asked <;> first | exact touches.elim | exact issued.elim
  | leave topicId => cases asked <;> first | exact touches.elim | exact issued.elim
  | push ref topicId event payload =>
      rcases issued with ⟨info, entry, issued⟩
      rcases reaches_of_pushIssues issued touches with ⟨names, reaches⟩
      exact avoids ⟨info, entry, onlyPresence topicId info entry names, names, reaches⟩

/-- A join that carries the channel id without the membership is that of a presence topic. -/
theorem isPresence_of_joins {topic : Bytes} {info : TopicInfo}
    (joins : Joins (NeverMember socket.tenantId.val channelIdBin socket.userId.val) socket
      topic info)
    (names : info.Names channelIdBin) : info.IsPresence := by
  cases joins with
  | lobby =>
      rcases names with ⟨channelId, none, -⟩
      simp at none
  | presence isPresence => exact ⟨_, isPresence⟩
  | channel isChannel decoded member =>
      rcases names with ⟨channelId, named, decoded'⟩
      cases Option.some.inj named
      cases Option.some.inj (decoded.symm.trans decoded')
      exact absurd rfl member

theorem OnlyPresence.moves {next : Socket} {frame : Frame}
    (onlyPresence : OnlyPresence channelIdBin socket)
    (moves : Moves (NeverMember socket.tenantId.val channelIdBin socket.userId.val) socket next
      frame) :
    OnlyPresence channelIdBin next := by
  intro topicId info entry names
  rcases moves.entry entry with old | ⟨ref, topic, -, joins⟩
  · exact onlyPresence topicId info old names
  · exact isPresence_of_joins joins names

end

/-- What a socket whose user is no member keeps. -/
structure Outside (tenantId userId : Id16) (channelIdBin : Bytes) (socket : Socket) : Prop where
  tenant : socket.tenantId = tenantId
  user : socket.userId = userId
  onlyPresence : OnlyPresence channelIdBin socket

theorem outside_init (tenantId userId deviceId : Id16) (channelIdBin : Bytes) :
    Outside tenantId userId channelIdBin (Socket.init tenantId userId deviceId) where
  tenant := rfl
  user := rfl
  onlyPresence topicId info entry := by simp [Socket.init] at entry

/-- One frame of a socket whose user is no member. -/
theorem Outside.step {native : Native} {tenantId userId : Id16} {channelIdBin : Bytes}
    {socket : Socket} (outside : Outside tenantId userId channelIdBin socket)
    {handled : HandledFrame} {target : Option Socket}
    (step : SocketStep native (NeverMember tenantId.val channelIdBin userId.val) (some socket)
      handled target)
    (avoids : ¬ReachesByPresence native channelIdBin socket (Frame.parse handled.data)) :
    (∀ next, target = some next → Outside tenantId userId channelIdBin next) ∧
      ∀ taken ∈ handled.calls, ¬taken.call.Touches tenantId.val channelIdBin := by
  rcases outside with ⟨rfl, rfl, onlyPresence⟩
  cases step with
  | returned performs granted =>
      rcases within_handleFrame.of_performs performs granted with ⟨issued, moves⟩
      refine ⟨?_, fun taken takenMem =>
        not_touches_of_frameIssues onlyPresence avoids (issued taken takenMem)⟩
      rintro next ⟨rfl⟩
      rcases Moves.ids moves with ⟨tenant, user⟩
      exact ⟨tenant, user, onlyPresence.moves moves⟩
  | raised performs granted =>
      rcases within_handleFrame.of_performs performs granted with ⟨issued, -⟩
      exact ⟨by simp, fun taken takenMem =>
        not_touches_of_frameIssues onlyPresence avoids (issued taken takenMem)⟩

/-- No push of the run reaches the channel through a presence topic. -/
def AvoidsPresence (native : Native) (channelIdBin : Bytes) (state : Option Socket)
    (handled : HandledFrame) : Prop :=
  ∀ socket, state = some socket →
    ¬ReachesByPresence native channelIdBin socket (Frame.parse handled.data)

/-- A socket whose user is never a member of the channel reaches none of its data, in
every run without a data event on its presence topic. -/
theorem no_access_without_membership (native : Native) (tenantId userId deviceId channelId : Id16)
    {frames : List HandledFrame} {target : Option Socket}
    (run : Run
      (Guarded (AvoidsPresence native channelId.val)
        (SocketStep native (NeverMember tenantId.val channelId.val userId.val)))
      (some (Socket.init tenantId userId deviceId)) frames target) :
    ∀ handled ∈ frames, ∀ taken ∈ handled.calls,
      ¬taken.call.Touches tenantId.val channelId.val := by
  refine (@Run.labels _ _ _
    (fun state => ∀ socket, state = some socket → Outside tenantId userId channelId.val socket)
    _ ?_ _ _ _ run ?_).2
  · rintro source handled target outside ⟨avoids, step⟩
    rcases source with _ | socket
    · cases step
    · exact (outside socket rfl).step step (avoids socket rfl)
  · rintro socket ⟨rfl⟩
    exact outside_init tenantId userId deviceId channelId.val

/-- Answers of a node whose stores are empty: nobody is a member of anything. -/
def emptyAnswers : (asked : Call) → Except Raise asked.Answer
  | .systemTime | .nativeTime => .ok 1
  | .generateChannelId => .ok (List.replicate 16 9)
  | .scyllaEnabled => .ok true
  | .natsRunning => .ok false
  | .natsPublish .. => .ok (.ok ())
  | .startTask _ | .subscribe _ | .unsubscribe _ => .ok ()
  | .broadcast .. | .broadcastFrom .. | .track .. | .updatePresence .. => .ok ()
  | .allow .. => .ok true
  | .isMember .. => .ok (.ok false)
  | .listMembers .. => .ok .empty
  | .addMember .. => .ok (.ok ())
  | .getRole .. => .ok .notFound
  | .removeMember .. => .ok (.error [])
  | .readRecent .. => .ok []
  | .writeMessage .. => .ok (.ok ())
  | .invalidateRecent .. => .ok ()
  | .updateReadPosition .. => .ok (.ok ())
  | .getDeltas .. => .ok ⟨[], 1, false⟩
  | .applyDeltas _ _ deltas => .ok (.ok deltas.length)
  | .updateCursor .. => .ok (.ok ())
  | .getMlsCreator .. => .ok none
  | .setMlsCreator .. => .ok ()
  | .uploadKeyPackage .. => .ok (.ok ())
  | .fetchKeyPackages .. => .ok []
  | .getCachedUser .. => .ok true
  | .findUser .. => .ok (.ok none)
  | .putCachedUser .. => .ok ()

theorem emptyAnswers_neverMember (tenantId channelId userId : Bytes) (asked : Call) :
    NeverMember tenantId channelId userId ⟨asked, emptyAnswers asked⟩ := by
  intro same
  cases asked with
  | isMember => simp [emptyAnswers] at same
  | _ => cases same

/-- The presence topic of a channel. -/
def presenceOf (channelId : Id16) : Bytes :=
  ascii "presence:" ++ Base.encode16 channelId.val

/-- The frames of a typing event on the presence topic of a channel. -/
def typingFrames : List HandledFrame :=
  ((Socket.init (.replicate 1) (.replicate 2) (.replicate 3)).play (Capnp.native [] [])
    emptyAnswers
    [Sdk.joinFrame 1 (presenceOf (.replicate 7)), Sdk.pushFrame 2 1 Event.msgTyping []]).1

/-- A typing event on the presence topic of the channel reaches no data. -/
theorem no_access_by_typing :
    typingFrames.length = 2 ∧
      ∀ handled ∈ typingFrames, ∀ taken ∈ handled.calls,
        ¬taken.call.Touches (Id16.replicate 1).val (Id16.replicate 7).val := by
  refine ⟨rfl, no_access_without_membership _ _ _ (.replicate 3) _
    (guardedRun_play (emptyAnswers_neverMember _ _ _) _ _ ?_)⟩
  rintro data dataMem state made socket -
  simp only [List.mem_cons, List.not_mem_nil, or_false] at dataMem
  rcases dataMem with rfl | rfl
  · rw [Sdk.parse_joinFrame _ (by decide)]
    exact id
  · rw [Sdk.parse_pushFrame _ _ (by decide) (by decide)]
    rintro ⟨info, -, -, -, data | ⟨send, -⟩⟩
    · exact absurd data (by decide)
    · exact absurd send (by decide)

/-- The history of a channel answers on its presence topic, to a user who is no member. -/
theorem access_by_presence :
    ¬∀ (native : Native) (tenantId userId deviceId channelId : Id16)
        (frames : List HandledFrame) (target : Option Socket),
      Run (SocketStep native (NeverMember tenantId.val channelId.val userId.val))
        (some (Socket.init tenantId userId deviceId)) frames target →
      ∀ handled ∈ frames, ∀ taken ∈ handled.calls,
        ¬taken.call.Touches tenantId.val channelId.val := by
  intro noAccess
  have run := @guardedRun_play (Capnp.native [] []) emptyAnswers _ (fun _ _ => True)
    (emptyAnswers_neverMember (Id16.replicate 1).val (Id16.replicate 7).val
      (Id16.replicate 2).val)
    (Socket.init (.replicate 1) (.replicate 2) (.replicate 3))
    [Sdk.joinFrame 1 (presenceOf (.replicate 7)), Sdk.pushFrame 2 1 Event.msgHistory []]
    (fun _ _ _ _ => trivial)
  exact noAccess _ _ _ _ _ _ _ run.of_guarded
    ⟨Sdk.pushFrame 2 1 Event.msgHistory [],
      [⟨.readRecent (Id16.replicate 1).val (Id16.replicate 7).val 50, .ok []⟩]⟩
    (List.mem_cons_of_mem _ (List.mem_singleton.mpr rfl)) _ (List.mem_singleton.mpr rfl)
    ⟨rfl, rfl⟩

end Mercury.Gateway
