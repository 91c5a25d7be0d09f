import Mercury.Sdk.Refs

/-!
# What a step of the transport does

A step leaves the routes of broadcasts as they are, or it is one of the few that
register, delete, rejoin or receive (`effect_of_step`). Only an arriving join reply
tells a connection a topic.
-/

namespace Mercury.Sdk

open Foundations Gateway

/-! ## What the actions do to the connections -/

/-- A connection after a step that tells it no new topic. -/
structure Connection.Continues (connection later : Connection) : Prop where
  told : later.told = connection.told
  opened : later.phase = .opened → connection.phase = .opened ∨ connection.phase = .connecting
  connecting : later.phase = .connecting → connection.phase = .connecting

namespace Connection

variable {connection later : Connection}

theorem Continues.refl : connection.Continues connection :=
  ⟨rfl, Or.inl, id⟩

theorem continues_post (frames : List Bytes) :
    connection.Continues (connection.post frames) := by
  unfold post
  split
  · exact ⟨rfl, Or.inl, id⟩
  · exact Continues.refl

theorem continues_close : connection.Continues connection.close := by
  refine ⟨rfl, ?_, ?_⟩ <;>
    (simp only [close]; cases connection.phase <;> simp)

/-- A connection that is over. -/
theorem continues_over {phase : Phase} (unopened : phase ≠ .opened)
    (unconnecting : phase ≠ .connecting) :
    connection.Continues { connection with phase := phase } :=
  ⟨rfl, fun isOpen => absurd isOpen unopened,
    fun connecting => absurd connecting unconnecting⟩

theorem continues_answer {answer : Answer} (answered : connection.answer answer = some later) :
    connection.Continues later := by
  unfold Connection.answer at answered
  split at answered
  · split at answered
    · cases answered
      exact ⟨rfl, Or.inl, id⟩
    · cases answered
  · cases answered
    exact ⟨rfl, Or.inl, id⟩
  · cases answered
    exact ⟨rfl, Or.inl, id⟩
  · cases answered
    exact ⟨rfl, Or.inl, id⟩
  · cases answered

theorem continues_broadcast {topic : Bytes} {event : Byte} {payload : Bytes}
    (sent : connection.broadcast topic event payload = some later) :
    connection.Continues later := by
  unfold Connection.broadcast at sent
  split at sent
  · cases sent
  · split at sent
    · cases sent
      exact ⟨rfl, Or.inl, id⟩
    · cases sent

/-- What has arrived, and what it says about the numbering. -/
theorem receive_spec {message : ServerMessage}
    (first : connection.incoming.head? = some message) :
    message.FollowsOn connection.told ∧
      connection.receive.told = connection.told ++ message.tells ∧
      connection.receive.phase = connection.phase := by
  rcases connection with ⟨phase, rejoins, requests, accepted, incoming, told, follows⟩
  cases incoming with
  | nil => cases first
  | cons head rest =>
      cases first
      exact ⟨follows.1, rfl, rfl⟩

end Connection

namespace System

variable {system next : System} {socket : ℕ} {throws : Registration → Bytes → Bool}

/-- Every connection is a new one, or one of before that was told nothing. -/
def Continues (system next : System) : Prop :=
  ∀ later ∈ next.connections, later.told = [] ∨
    ∃ connection ∈ system.connections, connection.Continues later

theorem Continues.refl : system.Continues system :=
  fun later laterMem => Or.inr ⟨later, laterMem, Connection.Continues.refl⟩

/-- A connection of the changed system is an other one, or the changed one. -/
theorem mem_onConnection {change : Connection → Connection} {later : Connection}
    (laterMem : later ∈ (system.onConnection socket change).connections) :
    (∃ other, other ≠ socket ∧ system.connections[other]? = some later) ∨
      ∃ connection, system.connections[socket]? = some connection ∧ later = change connection := by
  rcases List.getElem?_of_mem laterMem with ⟨index, found⟩
  rw [onConnection, List.getElem?_modify] at found
  rcases Option.map_eq_some_iff.mp found with ⟨connection, connectionAt, changed⟩
  by_cases same : socket = index
  · subst index
    rw [if_pos rfl] at changed
    exact Or.inr ⟨connection, connectionAt, changed.symm⟩
  · rw [if_neg same] at changed
    exact Or.inl ⟨index, Ne.symm same, changed ▸ connectionAt⟩

theorem continues_onConnection {change : Connection → Connection}
    (continues : ∀ connection, system.connections[socket]? = some connection →
      connection.Continues (change connection)) :
    system.Continues (system.onConnection socket change) := by
  intro later laterMem
  rcases mem_onConnection laterMem with ⟨other, _, found⟩ | ⟨connection, found, rfl⟩
  · exact Or.inr ⟨later, List.mem_of_getElem? found, Connection.Continues.refl⟩
  · exact Or.inr ⟨connection, List.mem_of_getElem? found, continues connection found⟩

theorem continues_post (frames : List Bytes) (system : System) :
    system.Continues (system.post frames) := by
  unfold post
  split
  · exact continues_onConnection fun _ _ => Connection.continues_post frames
  · exact Continues.refl

theorem continues_dial (rejoins : Bool) (system : System) :
    system.Continues (system.dial rejoins) := by
  intro later laterMem
  rcases List.mem_append.mp laterMem with old | new
  · exact Or.inr ⟨later, old, Connection.Continues.refl⟩
  · rw [List.mem_singleton.mp new]
    exact Or.inl rfl

/-- Without a new topic told, open connections know what open connections knew. -/
theorem Continues.opened (continues : system.Continues next)
    (untold : ∀ connection ∈ system.connections, connection.phase = .connecting →
      connection.told = []) {later : Connection} (laterMem : later ∈ next.connections)
    (isOpen : later.phase = .opened) :
    later.told = [] ∨
      ∃ connection ∈ system.connections, connection.phase = .opened ∧
        later.told = connection.told := by
  rcases continues later laterMem with fresh | ⟨connection, connectionMem, before⟩
  · exact Or.inl fresh
  · rcases before.opened isOpen with was | was
    · exact Or.inr ⟨connection, connectionMem, was, before.told⟩
    · exact Or.inl (before.told.trans (untold connection connectionMem was))

theorem Continues.untold (continues : system.Continues next)
    (untold : ∀ connection ∈ system.connections, connection.phase = .connecting →
      connection.told = []) :
    ∀ connection ∈ next.connections, connection.phase = .connecting →
      connection.told = [] := by
  intro later laterMem connecting
  rcases continues later laterMem with fresh | ⟨connection, connectionMem, before⟩
  · exact fresh
  · exact before.told.trans (untold connection connectionMem (before.connecting connecting))

/-- Only an arriving message tells a connection a topic. -/
theorem continues_step {action : Action} (quiet : ∀ socket, action ≠ .deliver socket)
    (taken : Step throws system action next) : system.Continues next := by
  have same : system.Continues system := Continues.refl
  cases takes_of_step taken with
  | connect => exact continues_dial false system
  | disconnect =>
      unfold disconnect
      dsimp only
      split
      · exact continues_onConnection fun _ _ => Connection.continues_close
      · exact same
  | join topic => exact continues_post _ _
  | push topic event payload =>
      unfold push
      split
      · exact same
      · split
        · exact continues_post _ _
        · exact same
  | on topicId event => exact same
  | onByName topic event => exact same
  | off topicId event => exact same
  | heartbeat => exact continues_post _ _
  | lateTimer => exact same
  | reconnect => exact continues_dial true { system with timers := system.timers - 1 }
  | @opened socket connection found connecting =>
      have changed : system.Continues (system.onConnection socket fun connection =>
          { connection with phase := .opened }) := by
        apply continues_onConnection
        intro other otherFound
        cases otherFound.symm.trans found
        refine ⟨rfl, fun _ => Or.inr connecting, ?_⟩
        intro isConnecting
        cases isConnecting
      unfold System.opened
      dsimp only
      split
      · intro later laterMem
        rcases continues_post _ _ later laterMem with fresh | ⟨middle, middleMem, second⟩
        · exact Or.inl fresh
        · rcases changed middle middleMem with fresh | ⟨first, firstMem, before⟩
          · exact Or.inl (second.told.trans fresh)
          · refine Or.inr ⟨first, firstMem, second.told.trans before.told, ?_, ?_⟩
            · intro isOpen
              rcases second.opened isOpen with was | was
              · exact before.opened was
              · exact Or.inr (before.connecting was)
            · intro isConnecting
              exact before.connecting (second.connecting isConnecting)
      · exact changed
  | failed => exact continues_onConnection fun _ _ => Connection.continues_over (by simp) (by simp)
  | lost => exact continues_onConnection fun _ _ => Connection.continues_over (by simp) (by simp)
  | answer found answered =>
      apply continues_onConnection
      intro other otherFound
      cases otherFound.symm.trans found
      exact Connection.continues_answer answered
  | broadcast found sent =>
      apply continues_onConnection
      intro other otherFound
      cases otherFound.symm.trans found
      exact Connection.continues_broadcast sent
  | @deliver socket => exact absurd rfl (quiet socket)

/-! ## What the actions do to the routes -/

/-- Only the reply to an accepted join changes the routes. -/
theorem routes_deliver {forgets : Prop} {socket : ℕ} {connection : Connection}
    {message : ServerMessage} (tracked : Tracked forgets system.transport system.inFlight)
    (fits : RefsFit system) (found : system.connections[socket]? = some connection)
    (first : connection.incoming.head? = some message) (unjoined : message.tells = []) :
    Transport.SameRoutes system.transport (system.deliver throws socket message).transport := by
  unfold RefsFit at fits
  cases message with
  | joined ref topicId topic => simp [ServerMessage.tells] at unjoined
  | refused ref topic reason =>
      unfold deliver
      simp only [ServerMessage.encode, Transport.handleMessage_reply]
      apply Transport.handleReply_unregistered _ _
      simp [Transport.registerReply]
  | pushed ref topicId status data =>
      have before := tracked.of_subperm (inFlight_receive found first).symm.subperm
      have known : ref ≤ system.transport.ref := before.sent (ref, .push) (by
        simp [ServerMessage.answers])
      have unjoinedRef : system.transport.pendingJoinRefs ref = none := by
        rw [Option.eq_none_iff_forall_ne_some]
        intro topic joining
        have waiting := (tracked.joinRefs ref topic).mp joining
        rcases before.expected (ref, .push) (by simp [ServerMessage.answers]) with push | ⟨_, none⟩
        · simp [waiting] at push
        · simp [waiting] at none
      unfold deliver
      simp only [ServerMessage.encode, Transport.handleMessage_reply]
      apply Transport.handleReply_unregistered _ _
      rw [Transport.registerReply, Nat.mod_eq_of_lt (by omega), unjoinedRef]
      simp
  | broadcast topicId topic event payload =>
      unfold deliver
      simp only [ServerMessage.encode, Transport.handleMessage_broadcast]
      constructor <;> rfl

/-- The transport after the reply to the accepted join of `topic`. -/
structure Joined (transport next : Transport Registration) (topicId : ℕ) (topic : Bytes) :
    Prop where
  nameToId : next.topicNameToId = Function.update transport.topicNameToId topic (some topicId)
  idToName : next.topicIdToName = Function.update transport.topicIdToName topicId (some topic)
  deferred : next.deferredBindings =
    transport.deferredBindings.filter fun entry => ¬HasPrefix topic entry.1
  bindings : ∀ otherId event, next.topicBindings otherId event =
    transport.topicBindings otherId event ++
      if otherId = topicId then Transport.resolved topic event transport.deferredBindings else []

/-- An accepted join is mapped, unless it has been forgotten. -/
theorem joined_deliver {forgets : Prop} {socket : ℕ} {connection : Connection}
    {ref topicId : ℕ} {topic : Bytes}
    (tracked : Tracked forgets system.transport system.inFlight) (fits : RefsFit system)
    (found : system.connections[socket]? = some connection)
    (first : connection.incoming.head? = some (.joined ref topicId topic)) :
    system.transport.pendingReplies ref = some (.join topic) ∧
        Joined system.transport
          (system.deliver throws socket (.joined ref topicId topic)).transport topicId topic ∨
      forgets ∧ system.transport.pendingReplies ref = none ∧
        (system.deliver throws socket (.joined ref topicId topic)).transport =
          system.transport := by
  unfold RefsFit at fits
  rcases (Connection.receive_spec first).1 with ⟨number, idFits, named⟩
  have before := tracked.of_subperm (inFlight_receive found first).symm.subperm
  have known : ref ≤ system.transport.ref := before.sent (ref, .join topic) (by
    simp [ServerMessage.answers])
  have handled : (system.deliver throws socket (.joined ref topicId topic)).transport =
      system.transport.handleReply ⟨FrameType.reply, ref, topicId, [statusOk]⟩ := by
    unfold deliver
    simp only [ServerMessage.encode, Transport.handleMessage_reply]
    rw [Nat.mod_eq_of_lt (by omega), Nat.mod_eq_of_lt idFits]
  rw [handled]
  rcases before.expected (ref, .join topic) (by simp [ServerMessage.answers]) with
    waiting | ⟨forgot, none⟩
  · have joining := (tracked.joinRefs ref topic).mpr waiting
    have positive : 0 < topicId := by omega
    rcases Transport.handleReply_joined system.transport positive named waiting joining with
      ⟨nameToId, idToName, deferred, bindings⟩
    exact Or.inl ⟨waiting, nameToId, idToName, deferred, bindings⟩
  · refine Or.inr ⟨forgot, none, ?_⟩
    simp only [Transport.handleReply, none]

/-- What a reconnect does besides opening and sending. -/
theorem opened_spec {connection : Connection} (rejoins : connection.rejoins = true) :
    (system.opened socket connection).transport =
        (system.transport.rejoin system.transport.joinedTopics).1 ∧
      (system.opened socket connection).registrations = system.registrations ∧
      (system.opened socket connection).deliveries = system.deliveries := by
  unfold System.opened
  simp only [rejoins, if_true]
  refine ⟨post_transport _ _, ?_, ?_⟩ <;> (unfold post; split <;> rfl)

/-- A step that changes no route and delivers nothing. -/
structure Quiet (system next : System) : Prop where
  routes : Transport.SameRoutes system.transport next.transport
  registrations : next.registrations = system.registrations
  deliveries : next.deliveries = system.deliveries
  continues : system.Continues next

/-- The steps by what they do to routes and deliveries. -/
inductive Effect (throws : Registration → Bytes → Bool) (system : System) :
    Action → System → Prop where
  | quiet {action : Action} {next : System} (quiet : system.Quiet next) :
      Effect throws system action next
  | disconnect (continues : system.Continues system.disconnect) :
      Effect throws system .disconnect system.disconnect
  | on (topicId event : ℕ) : Effect throws system (.on topicId event) (system.on topicId event)
  | onByName (topic : Bytes) (event : ℕ) :
      Effect throws system (.onByName topic event) (system.onByName topic event)
  | off (topicId event : ℕ) :
      Effect throws system (.off topicId event)
        { system with transport := system.transport.off topicId event }
  | rejoined {socket : ℕ} {connection : Connection}
      (found : system.connections[socket]? = some connection) (rejoins : connection.rejoins = true)
      (continues : system.Continues (system.opened socket connection)) :
      Effect throws system (.opened socket) (system.opened socket connection)
  | joined {socket : ℕ} {connection : Connection} {ref topicId : ℕ} {topic : Bytes}
      (found : system.connections[socket]? = some connection)
      (isOpen : connection.phase = .opened)
      (first : connection.incoming.head? = some (.joined ref topicId topic)) :
      Effect throws system (.deliver socket)
        (system.deliver throws socket (.joined ref topicId topic))
  | broadcast {socket : ℕ} {connection : Connection} {topicId : ℕ} {topic : Bytes}
      {event : Byte} {payload : Bytes}
      (found : system.connections[socket]? = some connection)
      (isOpen : connection.phase = .opened)
      (first : connection.incoming.head? = some (.broadcast topicId topic event payload)) :
      Effect throws system (.deliver socket)
        (system.deliver throws socket (.broadcast topicId topic event payload))

/-- A system that differs in what routes do not depend on. -/
theorem Quiet.of_post {transport : Transport Registration} (frames : List Bytes)
    (routes : Transport.SameRoutes system.transport transport) :
    system.Quiet ({ system with transport := transport }.post frames) where
  routes := by
    rw [post_transport]
    exact routes
  registrations := by
    unfold post
    split <;> rfl
  deliveries := by
    unfold post
    split <;> rfl
  continues := continues_post frames { system with transport := transport }

theorem quiet_push (topic : Bytes) (event : Byte) (payload : Bytes) (system : System) :
    system.Quiet (system.push topic event payload) := by
  unfold push Transport.push
  rcases system.transport.topicNameToId topic with _ | topicId
  · exact ⟨by constructor <;> rfl, rfl, rfl, Continues.refl⟩
  · simp only [Option.map_some]
    split
    · exact Quiet.of_post _ (by constructor <;> rfl)
    · exact ⟨by constructor <;> rfl, rfl, rfl, Continues.refl⟩

theorem quiet_deliver {forgets : Prop} {connection : Connection} {message : ServerMessage}
    (tracked : Tracked forgets system.transport system.inFlight) (fits : RefsFit system)
    (found : system.connections[socket]? = some connection)
    (first : connection.incoming.head? = some message) (quiet : message.tells = [])
    (unrecorded : ∀ handled, system.delivery throws socket message handled = []) :
    system.Quiet (system.deliver throws socket message) where
  routes := routes_deliver tracked fits found first quiet
  registrations := rfl
  deliveries := by
    unfold deliver
    simp only [unrecorded, List.append_nil]
  continues := by
    apply continues_onConnection
    intro other otherFound
    cases otherFound.symm.trans found
    rcases Connection.receive_spec first with ⟨_, told, phase⟩
    rw [quiet, List.append_nil] at told
    exact ⟨told, fun isOpen => Or.inl (phase ▸ isOpen), fun connecting => phase ▸ connecting⟩

/-- What a step does. -/
theorem effect_of_step {forgets : Prop} {action : Action}
    (tracked : Tracked forgets system.transport system.inFlight) (fits : RefsFit system)
    (taken : Step throws system action next) : system.Effect throws action next := by
  have same : Transport.SameRoutes system.transport system.transport := by constructor <;> rfl
  have continues := fun quiet => continues_step quiet taken
  cases takes_of_step taken with
  | connect => exact .quiet ⟨by constructor <;> rfl, rfl, rfl, continues (by simp)⟩
  | disconnect => exact .disconnect (continues (by simp))
  | join topic => exact .quiet (Quiet.of_post _ (by constructor <;> rfl))
  | push topic event payload => exact .quiet (quiet_push topic event payload system)
  | on topicId event => exact .on topicId event
  | onByName topic event => exact .onByName topic event
  | off topicId event => exact .off topicId event
  | heartbeat => exact .quiet (Quiet.of_post _ (by constructor <;> rfl))
  | lateTimer => exact .quiet ⟨same, rfl, rfl, continues (by simp)⟩
  | reconnect => exact .quiet ⟨by constructor <;> rfl, rfl, rfl, continues (by simp)⟩
  | @opened socket connection found connecting =>
      have onward := continues (by simp)
      by_cases rejoins : connection.rejoins = true
      · exact .rejoined found rejoins onward
      · unfold System.opened at onward ⊢
        simp only [rejoins, Bool.false_eq_true, if_false] at onward ⊢
        exact .quiet ⟨same, rfl, rfl, onward⟩
  | failed => exact .quiet ⟨same, rfl, rfl, continues (by simp)⟩
  | lost => exact .quiet ⟨same, rfl, rfl, continues (by simp)⟩
  | answer => exact .quiet ⟨same, rfl, rfl, continues (by simp)⟩
  | broadcast => exact .quiet ⟨same, rfl, rfl, continues (by simp)⟩
  | @deliver socket connection message found isOpen first =>
      cases message with
      | joined ref topicId topic => exact .joined found isOpen first
      | broadcast topicId topic event payload => exact .broadcast found isOpen first
      | refused ref topic reason =>
          exact .quiet (quiet_deliver tracked fits found first rfl fun _ => rfl)
      | pushed ref topicId status data =>
          exact .quiet (quiet_deliver tracked fits found first rfl fun _ => rfl)

end System

end Mercury.Sdk
