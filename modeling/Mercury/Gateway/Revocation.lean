import Mercury.Gateway.Executions
import Mercury.Persistence.MemberStore

/-!
# After the removal of a member

The membership of a user is asked for at a join, and never again. So the removal
of a member refuses every later join (`no_access_after_removal`), but a socket
that joined the channel before keeps its topic, and with it its access
(`access_after_removal`).
-/

namespace Mercury.Gateway

open Foundations Foundations.Program Persistence

section

variable (tenantId channelId userId : Id16)

/-- How a node's stores of members answer. -/
def NodeMemberStep (store : MemberStore) (taken : Performed node Raise)
    (target : MemberStore) : Prop :=
  match taken with
  | ⟨.inl command, answer⟩ => MemberStep store ⟨command, answer⟩ target
  | ⟨.inr _, _⟩ => Expires store target

/-- An answer of a node on which the user is gone. -/
def NodeGoneAnswer : Performed node Raise → Prop
  | ⟨.inl command, answer⟩ => GoneAnswer tenantId channelId userId ⟨command, answer⟩
  | ⟨.inr _, _⟩ => True

def NodeKeepsGone : node.Call → Prop
  | .inl command => KeepsGone tenantId channelId userId command
  | .inr _ => True

/-- The call reads or writes the data of the channel. -/
def NodeTouches : node.Call → Prop
  | .inl (.insertMessage row) => row.tenantId = tenantId.val ∧ row.channelId = channelId.val
  | .inl (.selectMessages tid cid _ _) => tid = tenantId.val ∧ cid = channelId.val
  | .inl _ => False
  | .inr asked => asked.Touches tenantId.val channelId.val

/-- A PubSub topic of the channel; there is one for each spelling of its id. -/
def IsChannelTopic (topic : Bytes) : Prop :=
  ∃ hex, channelIdToBin hex = some channelId.val ∧ topic = channelTopic tenantId.val hex

/-- The socket holds no topic of the channel. -/
structure Free (socket : Socket) : Prop where
  entries : ∀ topicId info, socket.topicIds.lookup topicId = some info →
    ¬info.Names channelId.val
  pubsub : ∀ topic, IsChannelTopic tenantId channelId topic →
    socket.pubsubTopics.lookup topic = none

/-- The frame joins a presence topic of the channel. -/
def JoinsPresence : Frame → Prop
  | .join _ topic =>
      ∃ hex, stripPrefix (ascii "presence:") topic = some hex ∧
        channelIdToBin hex = some channelId.val
  | _ => False

/-- The socket is one of the user. -/
def Socket.Of (socket : Socket) : Prop :=
  socket.tenantId = tenantId ∧ socket.userId = userId

end

section

variable {tenantId channelId userId : Id16} {native : Native} {socket : Socket}

theorem nodeGoneAnswer_of_gone {store target : MemberStore} {taken : Performed node Raise}
    (gone : Gone tenantId channelId userId store) (step : NodeMemberStep store taken target) :
    NodeGoneAnswer tenantId channelId userId taken := by
  rcases taken with ⟨command | asked, answer⟩
  · exact gone.answer step
  · trivial

theorem gone_of_nodeMemberStep {store target : MemberStore} {taken : Performed node Raise}
    (gone : Gone tenantId channelId userId store)
    (keeps : NodeKeepsGone tenantId channelId userId taken.call)
    (notAdded : ∀ role, taken.call ≠ .inl (.insertMember tenantId channelId userId role))
    (step : NodeMemberStep store taken target) : Gone tenantId channelId userId target := by
  rcases taken with ⟨command | asked, answer⟩
  · exact @Gone.step _ _ _ _ _ ⟨command, answer⟩ gone keeps
      (fun role same => notAdded role (congrArg Sum.inl same)) step
  · exact gone.expires step

/-! ## What a frame can do while the user is gone -/

/-- A call while the user is gone: `member?` does not say otherwise, and no listing puts
the user back into the cache. -/
theorem persistence_gone {asked : Call} :
    (persistence asked).Ensures (NodeGoneAnswer tenantId channelId userId)
      (NodeKeepsGone tenantId channelId userId)
      fun answer => NeverMember tenantId.val channelId.val userId.val ⟨asked, answer⟩ := by
  have others : (∀ tid cid uid, asked ≠ .isMember tid cid uid) →
      (∀ tid cid, asked ≠ .listMembers tid cid) →
        (persistence asked).Ensures (NodeGoneAnswer tenantId channelId userId)
          (NodeKeepsGone tenantId channelId userId)
          fun answer => NeverMember tenantId.val channelId.val userId.val ⟨asked, answer⟩ := by
    intro notIsMember notList
    refine persistence_commands.mono ?_ ?_
    · rintro (command | passed) commands
      · cases command with
        | replaceSet =>
            cases asked with
            | isMember => exact absurd rfl (notIsMember _ _ _)
            | listMembers => exact absurd rfl (notList _ _)
            | _ => exact commands.elim
        | _ => trivial
      · trivial
    · intro answer _ same
      exact notIsMember _ _ _ (congrArg Performed.call same)
  cases asked with
  | isMember tid cid uid =>
      refine ensures_inner (isMember_ensures.post_mono ?_)
      intro answer notMember same
      cases same
      exact notMember rfl rfl rfl rfl
  | listMembers =>
      refine ensures_inner (listMembers_ensures.post_mono ?_)
      intro answer _ same
      cases same
  | _ => exact others (by simp) (by simp)

/-- A call that touches no data of the channel makes no command that does. -/
theorem not_nodeTouches_of_commandsOf {asked : Call} {command : node.Call}
    (untouched : ¬asked.Touches tenantId.val channelId.val)
    (commands : CommandsOf asked command) : ¬NodeTouches tenantId channelId command := by
  rcases command with command | passed
  · cases command with
    | insertMessage row =>
        rintro ⟨tenant, channel⟩
        cases asked with
        | writeMessage =>
            exact untouched ⟨commands.1.symm.trans tenant, commands.2.symm.trans channel⟩
        | applyDeltas =>
            exact untouched ⟨commands.1.symm.trans tenant, commands.2.symm.trans channel⟩
        | _ => exact commands.elim
    | selectMessages =>
        rintro ⟨tenant, channel⟩
        cases asked with
        | getDeltas => exact untouched ⟨commands.1.symm.trans tenant, commands.2.symm.trans channel⟩
        | _ => exact commands.elim
    | _ => exact id
  · have passedEq : passed = asked := by cases asked <;> exact commands
    exact passedEq ▸ untouched

/-- A socket without a topic of the channel touches none of its data. -/
theorem not_touches_of_free {frame : Frame} {asked : Call}
    (free : Free tenantId channelId socket) (issued : FrameIssues native socket frame asked) :
    ¬asked.Touches tenantId.val channelId.val := by
  refine not_touches_of_frameIssues (fun topicId info entry names => ?_) ?_ issued
  · exact absurd names (free.entries topicId info entry)
  · cases frame with
    | push ref topicId event payload =>
        rintro ⟨info, entry, -, names, -⟩
        exact free.entries topicId info entry names
    | _ => exact id

/-- A frame subscribes to a topic only by a join. -/
theorem Moves.pubsub {admitted : Performed calls Raise → Prop} {next : Socket} {frame : Frame}
    (moves : Moves admitted socket next frame) {topic : Bytes}
    (subscribed : next.pubsubTopics.lookup topic ≠ none) :
    socket.pubsubTopics.lookup topic ≠ none ∨
      ∃ ref joined info, frame = .join ref joined ∧ Joins admitted socket joined info ∧
        info.pubsub = some topic := by
  cases frame with
  | heartbeat =>
      obtain rfl : next = _ := moves
      exact Or.inl subscribed
  | ignored =>
      obtain rfl : next = _ := moves
      exact Or.inl subscribed
  | push =>
      obtain rfl : next = _ := moves
      exact Or.inl subscribed
  | join ref joined =>
      rcases moves with rfl | ⟨info, joins, rfl⟩
      · exact Or.inl subscribed
      · by_cases new : info.pubsub = some topic
        · exact Or.inr ⟨ref, joined, info, rfl, joins, new⟩
        · left
          unfold Socket.joined Socket.register at subscribed
          rcases pubsubEq : info.pubsub with _ | pubsub
          · simpa [pubsubEq] using subscribed
          · have different : topic ≠ pubsub := fun same => new (same ▸ pubsubEq)
            simpa [pubsubEq, Finmap.lookup_insert_of_ne _ different] using subscribed
  | leave topicId =>
      rcases moves with rfl | ⟨info, entry, rfl⟩
      · exact Or.inl subscribed
      · left
        unfold Socket.unregister at subscribed
        rcases pubsubEq : info.pubsub with _ | pubsub
        · simpa [pubsubEq] using subscribed
        · by_cases same : topic = pubsub
          · subst same
            simp [pubsubEq] at subscribed
          · simpa [pubsubEq, Finmap.lookup_erase_ne same] using subscribed

/-- A socket of the user stays without a topic of the channel, unless it joins its
presence. -/
theorem Free.moves {next : Socket} {frame : Frame} (of : socket.Of tenantId userId)
    (free : Free tenantId channelId socket) (noPresence : ¬JoinsPresence channelId frame)
    (moves : Moves (NeverMember tenantId.val channelId.val userId.val) socket next frame) :
    Free tenantId channelId next := by
  rcases of with ⟨rfl, rfl⟩
  constructor
  · rintro topicId info entry names
    rcases moves.entry entry with old | ⟨ref, topic, rfl, joins⟩
    · exact free.entries topicId info old names
    · rcases names with ⟨hex, named, decoded⟩
      cases joins with
      | lobby => cases named
      | presence isPresence =>
          cases named
          exact noPresence ⟨_, isPresence, decoded⟩
      | channel isChannel decoded' member =>
          cases named
          cases decoded.symm.trans decoded'
          exact member rfl
  · rintro topic ⟨hex, decoded, rfl⟩
    by_contra subscribed
    rcases moves.pubsub subscribed with old | ⟨ref, joined, info, rfl, joins, pubsubEq⟩
    · exact old (free.pubsub _ ⟨hex, decoded, rfl⟩)
    · cases joins with
      | lobby => cases pubsubEq
      | presence isPresence =>
          exact presenceTopic_ne_channelTopic _ _ _ (Option.some.inj pubsubEq)
      | channel isChannel decoded' member =>
          have sameHex := channelTopic_injective (Option.some.inj pubsubEq)
          subst sameHex
          cases decoded.symm.trans decoded'
          exact member rfl

theorem nodeHandleIn_unaware {data : Bytes} :
    (nodeHandleIn native data socket).Ensures (NodeGoneAnswer tenantId channelId userId)
      (NodeKeepsGone tenantId channelId userId) fun _ => True := by
  have handled : (handleIn native data socket).Ensures
      (NeverMember tenantId.val channelId.val userId.val)
      (FrameIssues native socket (Frame.parse data)) _ := within_handleFrame
  exact Ensures.through (handled.post_mono fun _ _ => trivial) fun _ _ => persistence_gone

/-- A frame of a socket of the user, while the user is gone. -/
theorem nodeHandleIn_clear {data : Bytes}
    (free : socket.Of tenantId userId → Free tenantId channelId socket)
    (noPresence : socket.Of tenantId userId → ¬JoinsPresence channelId (Frame.parse data)) :
    (nodeHandleIn native data socket).Ensures (NodeGoneAnswer tenantId channelId userId)
      (fun asked => socket.Of tenantId userId → ¬NodeTouches tenantId channelId asked)
      fun
        | .ok reaction =>
            reaction.socket.Of tenantId userId → Free tenantId channelId reaction.socket
        | .error _ => True := by
  have handled : (handleIn native data socket).Ensures
      (NeverMember tenantId.val channelId.val userId.val)
      (FrameIssues native socket (Frame.parse data)) _ := within_handleFrame
  refine Ensures.through (handled.post_mono ?_) fun asked issued => ?_
  · rintro (raised | reaction) moves
    · trivial
    · intro of
      have ids : reaction.socket.tenantId = socket.tenantId ∧
          reaction.socket.userId = socket.userId := Moves.ids moves
      have was : socket.Of tenantId userId := ⟨ids.1 ▸ of.1, ids.2 ▸ of.2⟩
      exact (free was).moves was (noPresence was) moves
  · have commands : (persistence asked).Ensures (NodeGoneAnswer tenantId channelId userId)
        (fun command => socket.Of tenantId userId → ¬NodeTouches tenantId channelId command)
        fun _ => True :=
      persistence_commands.mono
        (fun command commands of => not_nodeTouches_of_commandsOf
          (not_touches_of_free (free of) issued) commands)
        fun _ holds => holds
    exact (persistence_gone.and commands).mono (fun _ both => both.2) fun _ holds => holds.1

theorem nodeRunTask_gone {task : BackgroundTask} :
    (nodeRunTask task).Ensures (NodeGoneAnswer tenantId channelId userId)
      (NodeKeepsGone tenantId channelId userId) fun _ => True := by
  refine nodeRunTask_ensures.mono ?_ fun _ holds => holds
  rintro (command | passed) permitted
  · cases command with
    | replaceSet => cases permitted
    | _ => trivial
  · trivial

end

/-! ## One step after a removal -/

section

variable (tenantId channelId userId : Id16)

/-- What is left of the process puts the user back into no cache. -/
def Process.Unaware : Process → Prop
  | .idle _ => True
  | .handling _ _ rest =>
      rest.Ensures (NodeGoneAnswer tenantId channelId userId)
        (NodeKeepsGone tenantId channelId userId) fun _ => True
  | .running _ rest =>
      rest.Ensures (NodeGoneAnswer tenantId channelId userId)
        (NodeKeepsGone tenantId channelId userId) fun _ => True

/-- If the process is a socket of the user, it holds no topic of the channel, and what is
left of its frame touches no data of the channel and leads to no such topic. -/
def Process.Clear : Process → Prop
  | .idle socket => socket.Of tenantId userId → Free tenantId channelId socket
  | .handling socket _ rest =>
      rest.Ensures (NodeGoneAnswer tenantId channelId userId)
        (fun asked => socket.Of tenantId userId → ¬NodeTouches tenantId channelId asked)
        fun
          | .ok reaction =>
              reaction.socket.Of tenantId userId → Free tenantId channelId reaction.socket
          | .error _ => True
  | .running _ _ => True

/-- The user has been removed from the channel, no process puts the user back into the
cache, and process `pid` is no socket of the user with a topic of the channel. -/
structure Removed (pid : ℕ) (system : System MemberStore) : Prop where
  gone : Gone tenantId channelId userId system.store
  unaware : ∀ other process, system.processes other = some process →
    process.Unaware tenantId channelId userId
  clear : ∀ process, system.processes pid = some process →
    process.Clear tenantId channelId userId

/-- The user is not added again, and process `pid` joins no presence of the channel. -/
def StaysRemoved (pid : ℕ) (_ : System MemberStore) : SystemLabel → Prop
  | .performed _ _ taken =>
      ∀ role, taken.call ≠ .inl (.insertMember tenantId channelId userId role)
  | .received other socket data =>
      other = pid → socket.Of tenantId userId → ¬JoinsPresence channelId (Frame.parse data)
  | _ => True

/-- As a socket of the user, process `pid` touches no data of the channel and pushes no
broadcast of it. -/
def Refused (pid : ℕ) : SystemLabel → Prop
  | .performed other (.handling socket _ _) taken =>
      other = pid → socket.Of tenantId userId → ¬NodeTouches tenantId channelId taken.call
  | .delivered other socket topic pushed =>
      other = pid → socket.Of tenantId userId → IsChannelTopic tenantId channelId topic →
        pushed = []
  | _ => True

end

section

variable {tenantId channelId userId : Id16} {native : Native} {pid : ℕ}

/-- A `set` after a removal. -/
theorem Removed.set {system : System MemberStore} {other : ℕ} {process : Option Process}
    (removed : Removed tenantId channelId userId pid system)
    (unaware : ∀ new, process = some new → new.Unaware tenantId channelId userId)
    (clear : other = pid → ∀ new, process = some new → new.Clear tenantId channelId userId) :
    Removed tenantId channelId userId pid (system.set other process) where
  gone := removed.gone
  unaware := by
    intro third running present
    by_cases same : third = other
    · subst same
      rw [System.set_processes_self] at present
      exact unaware running present
    · rw [System.set_processes_of_ne _ _ same] at present
      exact removed.unaware third running present
  clear := by
    intro running present
    by_cases same : pid = other
    · subst same
      rw [System.set_processes_self] at present
      exact clear rfl running present
    · rw [System.set_processes_of_ne _ _ same] at present
      exact removed.clear running present

theorem free_init (deviceId : Id16) :
    Free tenantId channelId (Socket.init tenantId userId deviceId) where
  entries topicId info entry := by simp [Socket.init] at entry
  pubsub topic _ := by simp [Socket.init]

/-- What a process performs while the user is gone. -/
theorem Process.Performs.unaware {process next : Process} {taken : Performed node Raise}
    (performs : process.Performs taken next)
    (answer : NodeGoneAnswer tenantId channelId userId taken)
    (unaware : process.Unaware tenantId channelId userId) :
    NodeKeepsGone tenantId channelId userId taken.call ∧
      next.Unaware tenantId channelId userId := by
  cases performs with
  | handling => exact ⟨unaware.1, unaware.2 _ answer⟩
  | running => exact ⟨unaware.1, unaware.2 _ answer⟩

theorem Process.Performs.clear {process next : Process} {taken : Performed node Raise}
    (performs : process.Performs taken next)
    (answer : NodeGoneAnswer tenantId channelId userId taken)
    (clear : process.Clear tenantId channelId userId) :
    (∀ socket data rest, process = .handling socket data rest → socket.Of tenantId userId →
      ¬NodeTouches tenantId channelId taken.call) ∧ next.Clear tenantId channelId userId := by
  cases performs with
  | handling =>
      refine ⟨?_, clear.2 _ answer⟩
      rintro socket data rest ⟨rfl⟩
      exact clear.1
  | running => exact ⟨by rintro socket data rest ⟨⟩, trivial⟩

/-- One step after a removal. -/
theorem Removed.step {source target : System MemberStore} {label : SystemLabel}
    (removed : Removed tenantId channelId userId pid source)
    (stays : StaysRemoved tenantId channelId userId pid source label)
    (step : SystemStep native NodeMemberStep source label target) :
    Removed tenantId channelId userId pid target ∧ Refused tenantId channelId userId pid label := by
  cases step with
  | connected tid uid did =>
      refine ⟨removed.set ?_ ?_, trivial⟩
      · rintro new ⟨rfl⟩
        trivial
      · rintro - new ⟨rfl⟩ ⟨rfl, rfl⟩
        exact free_init did
  | @received other socket data idle =>
      refine ⟨removed.set ?_ ?_, trivial⟩
      · rintro new ⟨rfl⟩
        exact nodeHandleIn_unaware
      · rintro rfl new ⟨rfl⟩
        exact nodeHandleIn_clear (removed.clear _ idle) (stays rfl)
  | @performed other process next taken stored present performs answered =>
      have answer := nodeGoneAnswer_of_gone removed.gone answered
      rcases performs.unaware answer (removed.unaware other process present) with
        ⟨keeps, unaware⟩
      have kept := @Removed.set _ _ _ _ source other (some next) removed
        (by rintro new ⟨rfl⟩; exact unaware)
        (by rintro rfl new ⟨rfl⟩; exact (performs.clear answer (removed.clear _ present)).2)
      have gone := gone_of_nodeMemberStep removed.gone keeps stays answered
      refine ⟨⟨gone, kept.unaware, kept.clear⟩, ?_⟩
      cases process with
      | handling socket data rest =>
          rintro rfl of
          exact (performs.clear answer (removed.clear _ present)).1 socket data rest rfl of
      | _ => trivial
  | @answered other socket data reaction present =>
      refine ⟨removed.set ?_ ?_, trivial⟩
      · rintro new ⟨rfl⟩
        trivial
      · rintro rfl new ⟨rfl⟩
        have returned := removed.clear _ present
        exact returned
  | ended => exact ⟨removed.set (by rintro new ⟨⟩) (by rintro - new ⟨⟩), trivial⟩
  | @started other task before after free pending =>
      have set := @Removed.set _ _ _ _ source other (some (.running task (nodeRunTask task)))
        removed (by rintro new ⟨rfl⟩; exact nodeRunTask_gone) (by rintro - new ⟨rfl⟩; trivial)
      exact ⟨⟨set.gone, set.unaware, set.clear⟩, trivial⟩
  | @delivered other socket topic event payload idle =>
      refine ⟨removed.set ?_ ?_, ?_⟩
      · rintro new ⟨rfl⟩
        trivial
      · rintro rfl new ⟨rfl⟩
        rw [handleBroadcast_socket]
        exact removed.clear _ idle
      · rintro rfl of channel
        have none := (removed.clear _ idle of).pubsub topic channel
        simp [handleBroadcast, none, noReply]

end

/-! ## The removal of a member -/

theorem Expires.refl (store : MemberStore) : Expires store store :=
  ⟨rfl, fun _ => Or.inl rfl⟩

theorem nodeMemberStep_inl {store target : MemberStore} {command : Backend.Call}
    {answer : Except Raise (Backend.Answer command)}
    (carried : Carried store ⟨command, answer⟩ target) :
    NodeMemberStep store ⟨.inl command, answer⟩ target :=
  ⟨target, carried, Expires.refl target⟩

theorem nodeMemberStep_inr {store : MemberStore} {asked : Call}
    {answer : Except Raise asked.Answer} :
    NodeMemberStep store ⟨.inr asked, answer⟩ store :=
  Expires.refl store

/-- The cache key of the channel. -/
def membersOf : Bytes :=
  Cache.membersKey (Id16.replicate 1).val (Id16.replicate 7).val

/-- User 2 is a member of the channel and user 5 its admin. -/
def joinedStore : MemberStore where
  table :=
    { rows := [⟨.replicate 1, .replicate 7, .replicate 2, 0⟩,
        ⟨.replicate 1, .replicate 7, .replicate 5, 1⟩]
      unique := by decide }
  cache := Function.update (fun _ => []) membersOf
    [(Id16.replicate 2).val, (Id16.replicate 5).val]

/-- User 2 has been removed. -/
def removedStore : MemberStore where
  table := joinedStore.table.filter (·.key ≠ (.replicate 1, .replicate 7, .replicate 2))
  cache := Function.update joinedStore.cache membersOf []

/-- Both users have joined. -/
def joinedSystem : System MemberStore :=
  ((System.start joinedStore).set 0 (some (.idle (memberSocket 2)))).set 1
    (some (.idle (memberSocket 5)))

/-- The frame with which user 5 removes user 2. -/
def removeOf : Bytes :=
  Sdk.pushFrame 2 1 Event.mlsRemove ((Id16.replicate 2).val ++ Capnp.mlsCommit [9])

def removeNative : Native :=
  Capnp.native [] [[9]]

def removedSystem : System MemberStore :=
  { joinedSystem with store := removedStore }

theorem run_joins : ∃ labels, Run (SystemStep removeNative NodeMemberStep)
    (System.start joinedStore) labels joinedSystem := by
  have stores : ∀ userId : Byte, Run NodeMemberStep joinedStore
      (joinCalls (newSocket userId) (.replicate 7)
        [(Id16.replicate 2).val, (Id16.replicate 5).val]) joinedStore := by
    intro userId
    have cached : ∀ id, id ∈ [(Id16.replicate 2).val, (Id16.replicate 5).val] ↔
        id ∈ joinedStore.cache membersOf := by simp [joinedStore]
    exact Run.cons (nodeMemberStep_inl (Carried.smembers cached))
      (Run.cons nodeMemberStep_inr (Run.cons nodeMemberStep_inr
        (Run.cons nodeMemberStep_inr Run.refl)))
  rcases @run_join _ removeNative NodeMemberStep (fun _ _ => True) (System.start joinedStore) 0 2 _
    trivial trivial (fun _ _ _ _ => trivial) (fun _ _ => trivial) rfl (by simp) (stores 2)
    with ⟨firstJoin, first⟩
  rcases @run_join _ removeNative NodeMemberStep (fun _ _ => True)
    ((System.start joinedStore).set 0 (some (.idle (memberSocket 2)))) 1 5 _
    trivial trivial (fun _ _ _ _ => trivial) (fun _ _ => trivial) rfl (by simp) (stores 5)
    with ⟨secondJoin, second⟩
  exact ⟨_, first.of_guarded.append second.of_guarded⟩

theorem stores_removeCalls : Run NodeMemberStep joinedStore
    (removeCalls (memberSocket 5) (.replicate 7) (.replicate 2) (Capnp.mlsCommit [9]) 1)
    removedStore := by
  have admin : ∀ value, some 1 = some value ↔
      (⟨.replicate 1, .replicate 7, .replicate 5, value⟩ : MemberRow) ∈ joinedStore.table := by
    intro value
    constructor
    · rintro ⟨rfl⟩
      exact List.mem_cons_of_mem _ (List.mem_singleton_self _)
    · intro rowMem
      have different : Id16.replicate 5 ≠ Id16.replicate 2 := by decide
      rcases List.mem_cons.mp rowMem with same | rowMem
      · exact absurd (congrArg MemberRow.userId same) different
      · exact congrArg some (congrArg MemberRow.role (List.mem_singleton.mp rowMem)).symm
  exact Run.cons (nodeMemberStep_inl (Carried.selectRole admin))
    (Run.cons (nodeMemberStep_inl Carried.deleteMember)
      (Run.cons (nodeMemberStep_inl Carried.del) (Run.cons nodeMemberStep_inr Run.refl)))

/-- User 5 removes user 2. -/
theorem run_removal : ∃ labels process,
    Run (SystemStep removeNative NodeMemberStep) joinedSystem labels removedSystem ∧
      .performed 1 process ⟨.inl (.deleteMember (.replicate 1) (.replicate 7) (.replicate 2)),
        .ok (1 : ℕ)⟩ ∈ labels := by
  have parsed : Frame.parse removeOf = .push 2 1 Event.mlsRemove
      ((Id16.replicate 2).val ++ Capnp.mlsCommit [9]) :=
    Sdk.parse_pushFrame _ _ (by decide) (by decide)
  have removes := @performs_remove removeNative (memberSocket 5) removeOf 2 1 (.replicate 7)
    (.replicate 2) _ (.ok [9]) 1 le_rfl parsed (entry_memberSocket 5) rfl
  rcases @System.run_frame _ removeNative NodeMemberStep (fun _ _ => True) joinedSystem 1 _ _ _ _ _
    trivial (fun _ _ _ _ => trivial) (fun _ _ => trivial) rfl removes stores_removeCalls with
    ⟨labels, run, performed⟩
  rcases performed _ (List.mem_cons_of_mem _ (List.mem_cons_self ..)) with ⟨rest, labelMem⟩
  have same : joinedSystem.set 1 (some (.idle (memberSocket 5))) = joinedSystem :=
    System.set_eq_self rfl
  simp only [replyOk, same] at run
  exact ⟨labels, _, run.of_guarded, labelMem⟩

theorem gone_removedStore :
    Gone (.replicate 1) (.replicate 7) (.replicate 2) removedStore where
  table := fun row rowMem => by simpa using (KeyedTable.mem_filter.mp rowMem).2
  cache := by simp [removedStore, membersOf]

theorem removed_removedSystem :
    Removed (.replicate 1) (.replicate 7) (.replicate 2) 2 removedSystem where
  gone := gone_removedStore
  unaware := by
    intro other process present
    have idle : ∃ socket, process = .idle socket := by
      by_cases first : other = 1
      · subst first
        exact ⟨_, (Option.some.inj present).symm⟩
      · by_cases second : other = 0
        · subst second
          exact ⟨_, (Option.some.inj present).symm⟩
        · rw [show removedSystem.processes other = none from
            (Function.update_of_ne first ..).trans (Function.update_of_ne second ..)] at present
          cases present
    rcases idle with ⟨socket, rfl⟩
    trivial
  clear := by
    intro process present
    rw [show removedSystem.processes 2 = none from rfl] at present
    cases present

/-- The cache of the channel after the next join. -/
def refilledStore : MemberStore :=
  { removedStore with
    cache := Function.update removedStore.cache membersOf [(Id16.replicate 5).val] }

theorem stores_refusedCalls : Run NodeMemberStep removedStore
    (refusedCalls (newSocket 2) (.replicate 7) [.replicate 5]) refilledStore := by
  have emptied : ∀ id, id ∈ ([] : List Bytes) ↔ id ∈ removedStore.cache membersOf := by
    simp [removedStore]
  have left : ∀ id, id ∈ [Id16.replicate 5] ↔
      ∃ row ∈ removedStore.table, row.key = (.replicate 1, .replicate 7, id) := by
    have rows : removedStore.table.rows = [⟨.replicate 1, .replicate 7, .replicate 5, 1⟩] := by
      decide
    simp only [KeyedTable.mem_def, rows, List.mem_singleton, exists_eq_left, MemberRow.key,
      Prod.mk.injEq, true_and, eq_comm, implies_true]
  exact Run.cons (nodeMemberStep_inl (Carried.smembers emptied))
    (Run.cons (nodeMemberStep_inl (Carried.selectMemberIds left))
      (Run.cons (nodeMemberStep_inl Carried.replaceSet) Run.refl))

/-! ## Runs after a removal -/

/-- After the removal of a user, a process that is no socket of the user with a topic of
the channel touches, as a socket of the user, no data of the channel and pushes none of
its broadcasts, in every run in which the user is not added again and the process joins
no presence of the channel. -/
theorem no_access_after_removal (native : Native) (tenantId channelId userId : Id16) (pid : ℕ)
    {labels : List SystemLabel} {now later : System MemberStore}
    (removed : Removed tenantId channelId userId pid now)
    (run : Run (Guarded (StaysRemoved tenantId channelId userId pid)
      (SystemStep native NodeMemberStep)) now labels later) :
    ∀ label ∈ labels, Refused tenantId channelId userId pid label :=
  (run.labels (fun removed taken => removed.step taken.1 taken.2) removed).2

/-- After the removal of user 2, a new socket of the user is refused. -/
theorem no_access_after_removal_refused :
    ∃ labels later, Run (Guarded
        (StaysRemoved (.replicate 1) (.replicate 7) (.replicate 2) 2)
        (SystemStep removeNative NodeMemberStep)) removedSystem labels later ∧ labels ≠ [] ∧
      ∀ label ∈ labels,
        Refused (.replicate 1) (.replicate 7) (.replicate 2) 2 label := by
  let guard := StaysRemoved (.replicate 1) (.replicate 7) (.replicate 2) 2
  have connect : Guarded guard (SystemStep removeNative NodeMemberStep) removedSystem
      (.connected 2) (removedSystem.set 2 (some (.idle (newSocket 2)))) :=
    ⟨trivial, SystemStep.connected (.replicate 1) (.replicate 2) (.replicate 3) rfl⟩
  have refuses := @performs_refusedJoin removeNative (newSocket 2) joinOf 1 (.replicate 7)
    [.replicate 5] parse_joinOf (Nat.le_of_ble_eq_true rfl) (by simp) (by decide)
  have noInsert : ∀ (system : System MemberStore) (process : Process),
      ∀ taken ∈ refusedCalls (newSocket 2) (.replicate 7) [.replicate 5],
        guard system (.performed 2 process taken) := by
    rintro system process taken takenMem role same
    have call : taken.call ∈ (refusedCalls (newSocket 2) (.replicate 7) [.replicate 5]).map
        Performed.call := List.mem_map_of_mem takenMem
    rw [same] at call
    simp [refusedCalls] at call
  have notPresence : ¬JoinsPresence (.replicate 7) (.join 1 (channelOf (.replicate 7))) := by
    have notPrefixed : stripPrefix (ascii "presence:") (channelOf (.replicate 7)) = none := by
      decide
    rintro ⟨hex, isPresence, -⟩
    rw [notPrefixed] at isPresence
    cases isPresence
  rcases @System.run_frame _ removeNative NodeMemberStep guard
    (removedSystem.set 2 (some (.idle (newSocket 2)))) 2 _ _ _ _ _
    (fun _ _ => by rw [parse_joinOf]; exact notPresence) noInsert (fun _ _ => trivial) rfl refuses
    stores_refusedCalls with ⟨labels, run, -⟩
  have whole := Run.cons connect run
  exact ⟨_, _, whole, by simp, no_access_after_removal _ _ _ _ 2 removed_removedSystem whole⟩

/-- A socket of user 2 that joined before the removal reads the history. -/
theorem access_after_removal :
    ¬∀ (native : Native) (tenantId channelId userId : Id16) (store : MemberStore)
        (before after : List SystemLabel) (now later : System MemberStore),
      Run (SystemStep native NodeMemberStep) (System.start store) before now →
        (∃ pid process, .performed pid process
          ⟨.inl (.deleteMember tenantId channelId userId), .ok (1 : ℕ)⟩ ∈ before) →
        Gone tenantId channelId userId now.store →
        Run (Guarded (fun system label => ∀ pid,
            StaysRemoved tenantId channelId userId pid system label)
          (SystemStep native NodeMemberStep)) now after later →
        ∀ label ∈ after, ∀ pid, Refused tenantId channelId userId pid label := by
  intro refused
  rcases run_joins with ⟨joins, joined⟩
  rcases run_removal with ⟨removal, process, removes, deleted⟩
  have parsed : Frame.parse (Sdk.pushFrame 3 1 Event.msgHistory []) =
      .push 3 1 Event.msgHistory [] := Sdk.parse_pushFrame _ _ (by decide) (by decide)
  have reads := @performs_history removeNative (memberSocket 2) _ 3 1 _ _ parsed
    (entry_memberSocket 2)
  have noInsert : ∀ (system : System MemberStore) (process : Process),
      ∀ taken ∈ [(⟨.inr (.readRecent (Id16.replicate 1).val (Id16.replicate 7).val 50), .ok []⟩ :
        Performed node Raise)], ∀ pid, StaysRemoved (.replicate 1) (.replicate 7) (.replicate 2)
          pid system (.performed 0 process taken) := by
    rintro system process taken takenMem pid role
    rw [List.mem_singleton.mp takenMem]
    exact Sum.inr_ne_inl
  rcases @System.run_frame _ removeNative NodeMemberStep
    (fun system label => ∀ pid, StaysRemoved (.replicate 1) (.replicate 7) (.replicate 2) pid
      system label) removedSystem 0 _ _ _ _ removedStore
    (fun _ _ _ => parsed ▸ id) noInsert (fun _ _ _ => trivial) rfl reads
    (Run.cons nodeMemberStep_inr Run.refl) with ⟨labels, run, performed⟩
  rcases performed _ (List.mem_singleton_self _) with ⟨rest, labelMem⟩
  exact refused removeNative (.replicate 1) (.replicate 7) (.replicate 2) joinedStore _ _ _ _
    (joined.append removes) ⟨1, process, List.mem_append_right _ deleted⟩ gone_removedStore run
    _ labelMem 0 rfl ⟨rfl, rfl⟩ ⟨rfl, rfl⟩

end Mercury.Gateway
