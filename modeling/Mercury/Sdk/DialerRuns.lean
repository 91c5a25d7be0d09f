import Mercury.Sdk.PendingReplies
import Mercury.Sdk.Reconnects

/-!
# The dialer of the transport

Every run of the transport on its connections, where a socket fails in a single step, is a
run of its dialer, where the error and the close event are two.
-/

namespace Mercury.Sdk

open Foundations Gateway

def SocketPhase.ofPhase : Phase → SocketPhase
  | .connecting => .connecting
  | .opened => .opened
  | .failing => .failing
  | .closing => .closing
  | .closed => .closed

def DialedSocket.ofConnection (connection : Connection) : DialedSocket where
  phase := .ofPhase connection.phase
  rejoins := connection.rejoins

namespace Connection

variable {connection later : Connection}

theorem dialed_post (frames : List Bytes) (connection : Connection) :
    DialedSocket.ofConnection (connection.post frames) = .ofConnection connection := by
  unfold post
  split <;> rfl

theorem dialed_receive (connection : Connection) :
    DialedSocket.ofConnection connection.receive = .ofConnection connection := by
  unfold receive
  split <;> rfl

theorem dialed_answer {answer : Answer} (answered : connection.answer answer = some later) :
    DialedSocket.ofConnection later = .ofConnection connection := by
  unfold Connection.answer at answered
  split at answered
  · split at answered
    · cases answered
      rfl
    · cases answered
  · cases answered
    rfl
  · cases answered
    rfl
  · cases answered
    rfl
  · cases answered

theorem dialed_broadcast {topic payload : Bytes} {event : Byte}
    (sent : connection.broadcast topic event payload = some later) :
    DialedSocket.ofConnection later = .ofConnection connection := by
  unfold Connection.broadcast at sent
  split at sent
  · cases sent
  · split at sent
    · cases sent
      rfl
    · cases sent

theorem dialed_close (connection : Connection) :
    DialedSocket.ofConnection connection.close = (DialedSocket.ofConnection connection).close := by
  rcases connection with ⟨phase, rejoins, requests, accepted, incoming, told, follows⟩
  cases phase <;> rfl

end Connection

namespace Transport

variable {Callback : Type}

theorem forget_closed (topic : Bytes) (transport : Transport Callback) :
    (transport.forget topic).closed = transport.closed := by
  unfold forget
  dsimp only
  split <;> rfl

theorem rejoin_closed (topics : List Bytes) (transport : Transport Callback) :
    (transport.rejoin topics).1.closed = transport.closed := by
  induction topics generalizing transport with
  | nil => rfl
  | cons topic rest ih => exact (ih _).trans (forget_closed topic transport)

theorem push_closed {transport asked : Transport Callback} {topic payload frame : Bytes}
    {event : Byte} (pushed : transport.push topic event payload = some (asked, frame)) :
    asked.closed = transport.closed := by
  rcases Option.map_eq_some_iff.mp pushed with ⟨topicId, -, built⟩
  rcases Prod.mk.inj built with ⟨rfl, rfl⟩
  rfl

theorem onByName_closed (topic : Bytes) (event : ℕ) (callback : Callback)
    (transport : Transport Callback) :
    (transport.onByName topic event callback).closed = transport.closed := by
  unfold onByName
  split <;> rfl

theorem register_closed (topic : Bytes) (topicId : ℕ) (transport : Transport Callback) :
    (transport.register topic topicId).closed = transport.closed := by
  by_cases named : topic = []
  · rw [register, if_pos named]
  · exact (register_spec named topicId transport).1.closed

theorem handleReply_closed (frame : DecodedFrame) (transport : Transport Callback) :
    (transport.handleReply frame).closed = transport.closed := by
  have registered : (transport.registerReply frame (frame.payload.headD statusOk)).closed =
      transport.closed := by
    unfold registerReply
    split
    · split
      · exact register_closed _ _ transport
      · rfl
    · rfl
  unfold handleReply
  dsimp only
  split
  · rfl
  · next waits _ => cases waits <;> exact registered

theorem handleMessage_closed (data : Bytes) (transport : Transport Callback) :
    (transport.handleMessage data).transport.closed = transport.closed := by
  unfold handleMessage
  split
  · rfl
  · split
    · exact handleReply_closed _ transport
    · split
      · split <;> rfl
      · rfl

end Transport

namespace System

/-- The dialer of a transport, whose failures are single steps. -/
structure Dials (system : System) (dialer : Dialer) : Prop where
  ws : dialer.ws = system.transport.ws
  closed : dialer.closed = system.transport.closed
  timers : dialer.timers.length = system.timers
  sockets : dialer.sockets = system.connections.map DialedSocket.ofConnection

variable {system next : System} {dialer : Dialer} {socket : ℕ}

theorem map_onConnection {change : Connection → Connection}
    {changed : DialedSocket → DialedSocket}
    (same : ∀ connection, DialedSocket.ofConnection (change connection) =
      changed (.ofConnection connection)) :
    (system.onConnection socket change).connections.map DialedSocket.ofConnection =
      (system.connections.map DialedSocket.ofConnection).modify socket changed := by
  apply List.ext_getElem?
  intro index
  simp only [onConnection, List.getElem?_map, List.getElem?_modify]
  rcases system.connections[index]? with _ | connection
  · rfl
  · by_cases isSocket : socket = index <;> simp [isSocket, same]

theorem Dials.onConnection (dials : system.Dials dialer) {change : Connection → Connection}
    (same : ∀ connection, DialedSocket.ofConnection (change connection) =
      .ofConnection connection) : (system.onConnection socket change).Dials dialer where
  ws := dials.ws
  closed := dials.closed
  timers := dials.timers
  sockets := by
    have unchanged := @map_onConnection system socket change id same
    rw [unchanged, List.modify_id, dials.sockets]

theorem Dials.replace (dials : system.Dials dialer) {connection later : Connection}
    (found : system.connections[socket]? = some connection)
    (same : DialedSocket.ofConnection later = .ofConnection connection) :
    (system.onConnection socket fun _ => later).Dials dialer where
  ws := dials.ws
  closed := dials.closed
  timers := dials.timers
  sockets := by
    rw [dials.sockets]
    apply List.ext_getElem?
    intro index
    simp only [System.onConnection, List.getElem?_map, List.getElem?_modify]
    by_cases isSocket : socket = index
    · subst isSocket
      simp [found, same]
    · simp [isSocket]

theorem Dials.post (dials : system.Dials dialer) (frames : List Bytes) :
    (system.post frames).Dials dialer := by
  unfold System.post
  split
  · exact dials.onConnection (Connection.dialed_post frames)
  · exact dials

theorem Dials.tables (dials : system.Dials dialer) {transport : Transport Registration}
    (ws : transport.ws = system.transport.ws)
    (closed : transport.closed = system.transport.closed) :
    Dials { system with transport := transport } dialer :=
  ⟨dials.ws.trans ws.symm, dials.closed.trans closed.symm, dials.timers, dials.sockets⟩

theorem Dials.dial (dials : system.Dials dialer) (rejoins : Bool) :
    (system.dial rejoins).Dials (dialer.connect rejoins) where
  ws := by simp [System.dial, Transport.connect, Dialer.connect, dials.sockets]
  closed := rfl
  timers := dials.timers
  sockets := by
    simp only [System.dial, Dialer.connect, dials.sockets, List.map_append, List.map_singleton]
    rfl

theorem Dials.setPhase (dials : system.Dials dialer) (socket : ℕ) (phase : Phase) :
    (system.onConnection socket fun connection => { connection with phase := phase }).Dials
      (dialer.setPhase socket (.ofPhase phase)) where
  ws := dials.ws
  closed := dials.closed
  timers := dials.timers
  sockets := by
    rw [Dialer.setPhase, Dialer.onSocket, dials.sockets]
    exact (map_onConnection fun connection => rfl).symm

/-- Only the heartbeat, and the count of attempts, are changed. -/
theorem Dials.other (dials : system.Dials dialer) {later : Dialer} (ws : later.ws = dialer.ws)
    (closed : later.closed = dialer.closed) (timers : later.timers = dialer.timers)
    (sockets : later.sockets = dialer.sockets) : system.Dials later :=
  ⟨ws.trans dials.ws, closed.trans dials.closed, timers ▸ dials.timers,
    sockets.trans dials.sockets⟩

theorem Dials.stopHeartbeat (dials : system.Dials dialer) : system.Dials dialer.stopHeartbeat := by
  unfold Dialer.stopHeartbeat
  split
  · exact dials
  · exact dials.other rfl rfl rfl rfl

theorem Dials.scheduleReconnect (dials : system.Dials dialer) :
    Dials { system with timers := system.timers + 1 } dialer.scheduleReconnect where
  ws := dials.ws
  closed := dials.closed
  timers := by simp [Dialer.scheduleReconnect, dials.timers]
  sockets := dials.sockets

theorem Dials.found (dials : system.Dials dialer) {connection : Connection}
    (found : system.connections[socket]? = some connection) :
    dialer.sockets[socket]? = some (.ofConnection connection) := by
  rw [dials.sockets, List.getElem?_map, found, Option.map_some]

theorem Dials.disconnect (dials : system.Dials dialer) :
    system.disconnect.Dials dialer.disconnect := by
  have stopped : Dials { system with transport := { system.transport with closed := true } }
      ({ dialer with closed := true } : Dialer).stopHeartbeat :=
    Dials.stopHeartbeat ⟨dials.ws, rfl, dials.timers, dials.sockets⟩
  have ws := stopped.ws
  unfold Dialer.disconnect System.disconnect
  rcases wsEq : system.transport.ws with _ | current
  · simp only [wsEq] at ws
    simp only [ws]
    exact ⟨rfl, stopped.closed, stopped.timers, stopped.sockets⟩
  · simp only [wsEq] at ws
    simp only [ws]
    refine ⟨rfl, stopped.closed, stopped.timers, ?_⟩
    have closed := @map_onConnection system current Connection.close _ Connection.dialed_close
    rw [Dialer.onSocket, stopped.sockets]
    exact closed.symm

theorem Dials.ended (dials : system.Dials dialer) :
    Dials { system with timers := system.timers + if system.transport.closed then 0 else 1 }
      dialer.ended := by
  have stopped := dials.stopHeartbeat
  unfold Dialer.ended
  by_cases isClosed : system.transport.closed = true
  · simp only [stopped.closed, isClosed, if_true]
    exact stopped
  · simp only [stopped.closed, isClosed]
    exact stopped.scheduleReconnect

/-- The error event changes no socket, but for the phase. -/
theorem setPhase_erred (dialer : Dialer) (socket : ℕ) (found : DialedSocket) :
    ((dialer.setPhase socket .erred).erred found).setPhase socket .closed =
      (dialer.setPhase socket .closed).erred found := by
  have phases : (dialer.setPhase socket .erred).setPhase socket .closed =
      dialer.setPhase socket .closed := by
    simp only [Dialer.setPhase, Dialer.onSocket, List.modify_modify_eq]
    rfl
  unfold Dialer.erred
  split
  · exact congrArg Dialer.scheduleReconnect phases
  · exact phases

theorem Dials.erred (dials : system.Dials dialer) {connection : Connection}
    (unopened : connection.phase = .connecting ∨ connection.phase = .failing) :
    Dials { system with timers := system.timers + if connection.rejoins then 1 else 0 }
      (dialer.erred (.ofConnection connection)) := by
  have isUnopened : SocketPhase.ofPhase connection.phase = .connecting ∨
      SocketPhase.ofPhase connection.phase = .failing := by
    rcases unopened with phaseEq | phaseEq <;> simp [phaseEq, SocketPhase.ofPhase]
  unfold Dialer.erred DialedSocket.ofConnection
  by_cases rejoins : connection.rejoins = true
  · simp only [rejoins, isUnopened, and_self, if_true]
    exact dials.scheduleReconnect
  · simp only [rejoins]
    exact dials

theorem timers_of_step {throws : Registration → Bytes → Bool}
    (taken : Step throws system .timer next) : 0 < system.timers := by
  by_contra unset
  simp [Step, step, timer, Nat.eq_zero_of_not_pos unset] at taken

theorem Dials.timer (dials : system.Dials dialer) (set : 0 < system.timers) :
    Dials { system with timers := system.timers - 1 }
      { dialer with timers := dialer.timers.eraseIdx 0 } where
  ws := dials.ws
  closed := dials.closed
  timers := by
    rw [List.length_eraseIdx_of_lt (dials.timers ▸ set), dials.timers]
  sockets := dials.sockets

theorem phaseAt_erred {found : DialedSocket}
    (foundEq : dialer.sockets[socket]? = some found) :
    ((dialer.setPhase socket .erred).erred found).phaseAt socket = some .erred := by
  have same : ((dialer.setPhase socket .erred).erred found).phaseAt socket =
      (dialer.setPhase socket .erred).phaseAt socket := by
    unfold Dialer.erred
    split <;> rfl
  rw [same, Dialer.phaseAt_setPhase, if_pos rfl, Dialer.phaseAt, foundEq]
  rfl

/-- The application calls `connect` only while it is disconnected. -/
def Disconnected (system : System) (action : Action) : Prop :=
  action = .connect → system.transport.ws = none

/-- Every step of the transport on its connections is a run of its dialer, if the application
calls `connect` only while it is disconnected. -/
theorem Dials.step {throws : Registration → Bytes → Bool} {action : Action}
    (dials : system.Dials dialer) (disconnected : system.Disconnected action)
    (taken : Step throws system action next) :
    ∃ events later, Run Dialer.Step dialer events later ∧ next.Dials later := by
  have still : next.Dials dialer → ∃ events later, Run Dialer.Step dialer events later ∧
      next.Dials later := fun dials => ⟨[], dialer, Run.refl, dials⟩
  have once : ∀ event later, dialer.step event = some later → next.Dials later →
      ∃ events later, Run Dialer.Step dialer events later ∧ next.Dials later :=
    fun event later stepped dials => ⟨[event], later, Run.cons stepped Run.refl, dials⟩
  cases takes_of_step taken with
  | connect =>
      apply once .connect (dialer.connect false) _ (dials.dial false)
      exact if_pos (dials.ws.trans (disconnected rfl))
  | disconnect => exact once .disconnect _ rfl dials.disconnect
  | join topic =>
      have kept : Dials { system with transport := (system.transport.join topic).1 } dialer :=
        dials.tables rfl rfl
      exact still (kept.post _)
  | push topic event payload =>
      apply still
      rcases pushed : system.transport.push topic event payload with _ | ⟨asked, frame⟩
      · rw [push_unknown pushed]
        exact dials
      · have kept := dials.tables (Transport.push_kept pushed).1 (Transport.push_closed pushed)
        by_cases connected : system.isConnected = true
        · rw [push_sent pushed connected]
          exact kept.post _
        · rw [push_unsent pushed connected]
          exact ⟨kept.ws, kept.closed, kept.timers, kept.sockets⟩
  | on topicId event => exact still ⟨dials.ws, dials.closed, dials.timers, dials.sockets⟩
  | onByName topic event =>
      have kept := dials.tables (system.transport.onByName_kept topic event
        ⟨system.registrations.length, some topic, true, event⟩).1
        (system.transport.onByName_closed topic event _)
      exact still ⟨kept.ws, kept.closed, kept.timers, kept.sockets⟩
  | off topicId event => exact still ⟨dials.ws, dials.closed, dials.timers, dials.sockets⟩
  | heartbeat =>
      have kept : Dials { system with transport := system.transport.nextRef } dialer :=
        dials.tables rfl rfl
      exact still (kept.post _)
  | lateTimer isClosed =>
      apply once (.timer 0) { dialer with timers := dialer.timers.eraseIdx 0 } _
        (dials.timer (timers_of_step taken))
      rw [Dialer.step, if_pos (dials.timers ▸ timers_of_step taken), Dialer.retry,
        if_pos (dials.closed.trans isClosed)]
  | reconnect unclosed =>
      apply once (.timer 0) _ _ ((dials.timer (timers_of_step taken)).dial true)
      rw [Dialer.step, if_pos (dials.timers ▸ timers_of_step taken), Dialer.retry,
        if_neg (dials.closed ▸ unclosed)]
  | @opened socket connection found connecting =>
      have opened : Dials (system.onConnection socket fun connection =>
          { connection with phase := .opened }) (dialer.setPhase socket .opened).opened :=
        (dials.setPhase socket .opened).other rfl rfl rfl rfl
      apply once (.opened socket) (dialer.setPhase socket .opened).opened
      · simp only [Dialer.step, dials.found found, Option.bind_some, DialedSocket.ofConnection,
          connecting, SocketPhase.ofPhase, if_true]
      · unfold System.opened
        dsimp only
        split
        · exact (opened.tables (Transport.rejoin_ws _ _) (Transport.rejoin_closed _ _)).post _
        · exact opened
  | @failed socket connection found unopened =>
      have erred : dialer.step (.erred socket) =
          some ((dialer.setPhase socket .erred).erred (.ofConnection connection)) := by
        rw [Dialer.step, dials.found found, Option.bind_some, if_pos]
        rcases unopened with phaseEq | phaseEq <;>
          simp [DialedSocket.ofConnection, phaseEq, SocketPhase.ofPhase]
      have closed : ((dialer.setPhase socket .erred).erred (.ofConnection connection)).step
          (.closed socket) = some ((dialer.setPhase socket .closed).erred
            (.ofConnection connection)).ended := by
        have phaseEq := phaseAt_erred (dials.found found)
        rcases Option.map_eq_some_iff.mp phaseEq with ⟨other, otherEq, isErred⟩
        rw [Dialer.step, otherEq, Option.bind_some, if_pos (by simp [isErred]), setPhase_erred]
      refine ⟨_, _, Run.cons erred (Run.cons closed Run.refl), ?_⟩
      exact ((dials.setPhase socket .closed).erred unopened).ended
  | @lost socket connection found wasOpen =>
      apply once (.closed socket) _ _ (dials.setPhase socket .closed).ended
      rw [Dialer.step, dials.found found, Option.bind_some, if_pos]
      · rfl
      · rcases wasOpen with phaseEq | phaseEq <;>
          simp [DialedSocket.ofConnection, phaseEq, SocketPhase.ofPhase]
  | answer found answered => exact still (dials.replace found (Connection.dialed_answer answered))
  | broadcast found sent => exact still (dials.replace found (Connection.dialed_broadcast sent))
  | @deliver socket connection message =>
      have received := @Dials.onConnection system dialer socket dials Connection.receive
        Connection.dialed_receive
      have kept := received.tables (Transport.handleMessage_kept message.encode system.transport).1
        (Transport.handleMessage_closed message.encode system.transport)
      exact still ⟨kept.ws, kept.closed, kept.timers, kept.sockets⟩

/-- The runs of the transport on its connections are runs of its dialer. -/
theorem dials_of_run {throws : Registration → Bytes → Bool} {actions : List Action}
    (run : Run (Guarded Disconnected (Step throws)) (start.dial false) actions system) :
    ∃ events dialer, Run Dialer.Step Dialer.start events dialer ∧ system.Dials dialer := by
  induction run with
  | refl => exact ⟨[], Dialer.start, Run.refl, rfl, rfl, rfl, rfl⟩
  | snoc _ last ih =>
      rcases ih with ⟨events, dialer, earlier, dials⟩
      rcases dials.step last.1 last.2 with ⟨more, later, run, next⟩
      exact ⟨events ++ more, later, earlier.append run, next⟩

end System

end Mercury.Sdk
