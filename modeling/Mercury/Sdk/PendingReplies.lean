import Mercury.Sdk.Refs

/-!
# Pending replies and the open socket

`join` and `push` return a promise that an entry of `pendingReplies` settles. The runs in
which every entry belongs to a frame that was sent on the open socket of the transport
are those whose steps are all careful (`careful_runs`): nothing is joined while the
transport is not connected, and the connection is neither lost nor replaced while a reply
is pending.
-/

namespace Mercury.Sdk

open Foundations Gateway

/-! ## Frames that are sent -/

namespace System

def phaseOf (system : System) (socket : ℕ) : Option Phase :=
  (system.connections[socket]?).map Connection.phase

/-- The frames that a step hands to `send`. -/
def handed (system : System) : Action → List Bytes
  | .join topic => [(system.transport.join topic).2]
  | .push topic event payload => ((system.transport.push topic event payload).map Prod.snd).toList
  | .heartbeat => [encodeFrame FrameType.heartbeat (system.transport.ref + 1) 0 []]
  | .opened socket =>
      if (system.connections[socket]?).any Connection.rejoins then
        (system.transport.rejoin system.transport.joinedTopics).2
      else []
  | _ => []

/-- The frames that a step sends, with the socket: `send` drops them where that is not open. -/
def sends (system : System) (action : Action) (next : System) : List (ℕ × Bytes) :=
  match next.transport.ws with
  | some socket =>
      if next.phaseOf socket = some .opened then (system.handed action).map (Prod.mk socket)
      else []
  | none => []

end System

/-- A system, and the frames that were sent on its sockets. -/
structure Traffic where
  system : System
  sent : List (ℕ × Bytes)

inductive TrafficAction where
  | act (action : Action)
  /-- Data of any kind arrives on an open socket. -/
  | incoming (socket : ℕ) (data : Bytes)

namespace Traffic

def start : Traffic where
  system := System.start
  sent := []

def step (throws : Registration → Bytes → Bool) (traffic : Traffic) :
    TrafficAction → Option Traffic
  | .act action =>
      (traffic.system.step throws action).map fun next =>
        { system := next
          sent := traffic.sent ++ traffic.system.sends action next }
  | .incoming socket data =>
      if traffic.system.phaseOf socket = some .opened then
        some
          { traffic with
            system :=
              { traffic.system with
                transport := (traffic.system.transport.handleMessage data).transport } }
      else none

def Step (throws : Registration → Bytes → Bool) (traffic : Traffic) (action : TrafficAction)
    (next : Traffic) : Prop :=
  traffic.step throws action = some next

end Traffic

/-- The frames that an entry of `pendingReplies` is added for. -/
def PendingReply.SentAs (ref : ℕ) (frame : Bytes) : PendingReply → Prop
  | .join topic => frame = joinFrame ref topic
  | .push => ∃ topicId event payload, frame = pushFrame ref topicId event payload

/-- Every pending reply belongs to a frame that was sent on the socket that is open. -/
def Traffic.NoOrphans (traffic : Traffic) : Prop :=
  ∀ ref pending, traffic.system.transport.pendingReplies ref = some pending →
    ∃ socket frame, traffic.system.transport.ws = some socket ∧
      traffic.system.phaseOf socket = some .opened ∧
      (socket, frame) ∈ traffic.sent ∧ pending.SentAs ref frame

def Transport.NothingPending {Callback : Type} (transport : Transport Callback) : Prop :=
  ∀ ref, transport.pendingReplies ref = none

/-- The steps that leave no promise behind: `join` is called while connected, connections
are made (by `connect`, or a timer that is not too late) or lost while nothing is pending,
and a reconnect has topics to join only where the socket of the transport is open. -/
def Traffic.Careful (traffic : Traffic) : TrafficAction → Prop
  | .act (.join _) => traffic.system.isConnected = true
  | .act .connect => traffic.system.transport.NothingPending
  | .act .timer =>
      traffic.system.transport.closed = true ∨ traffic.system.transport.NothingPending
  | .act (.lost socket) =>
      traffic.system.transport.ws ≠ some socket ∨ traffic.system.transport.NothingPending
  | .act (.opened socket) =>
      (traffic.system.connections[socket]?).any Connection.rejoins = true →
        traffic.system.transport.joinedTopics = [] ∨
          traffic.system.transport.ws = some socket ∨ traffic.system.isConnected = true
  | _ => True

/-! ## What the steps do to the sockets -/

namespace Connection

variable {connection later : Connection}

theorem phase_answer {answer : Answer} (answered : connection.answer answer = some later) :
    later.phase = connection.phase := by
  unfold Connection.answer at answered
  split at answered
  · split at answered
    · cases answered
      rfl
    · cases answered
  · cases answered
    rfl
  · cases answered
    rfl
  · cases answered
    rfl
  · cases answered

theorem broadcast_kept {topic payload : Bytes} {event : Byte}
    (passed : connection.broadcast topic event payload = some later) :
    later.phase = connection.phase ∧ later.requests = connection.requests := by
  unfold Connection.broadcast at passed
  split at passed
  · cases passed
  · split at passed
    · cases passed
      exact ⟨rfl, rfl⟩
    · cases passed

theorem receive_kept (connection : Connection) :
    connection.receive.phase = connection.phase ∧
      connection.receive.requests = connection.requests := by
  unfold Connection.receive
  split <;> exact ⟨rfl, rfl⟩

end Connection

namespace System

variable {system : System} {socket : ℕ}

theorem isConnected_iff : system.isConnected = true ↔
    ∃ current, system.transport.ws = some current ∧ system.phaseOf current = some .opened := by
  unfold isConnected phaseOf
  rcases system.transport.ws with _ | current
  · simp
  · simp only [Option.bind_some, Option.some.injEq, exists_eq_left']
    rcases system.connections[current]? with _ | connection <;> simp

theorem phaseOf_onConnection (change : Connection → Connection) (other : ℕ) :
    (system.onConnection socket change).phaseOf other =
      if socket = other then (system.connections[other]?).map fun connection =>
        (change connection).phase
      else system.phaseOf other := by
  simp only [phaseOf, onConnection, List.getElem?_modify]
  split <;> simp [Function.comp_def]

/-- A change that leaves the phase of a connection. -/
theorem phaseOf_same {change : Connection → Connection}
    (same : ∀ connection, (change connection).phase = connection.phase) (other : ℕ) :
    (system.onConnection socket change).phaseOf other = system.phaseOf other := by
  rw [phaseOf_onConnection]
  split
  · simp only [same, phaseOf]
  · rfl

theorem phaseOf_replace {connection later : Connection}
    (found : system.connections[socket]? = some connection)
    (same : later.phase = connection.phase) (other : ℕ) :
    (system.onConnection socket fun _ => later).phaseOf other = system.phaseOf other := by
  rw [phaseOf_onConnection]
  split
  · next isOther =>
      subst isOther
      rw [phaseOf, found]
      exact congrArg some same
  · rfl

theorem phaseOf_post (frames : List Bytes) (system : System) (other : ℕ) :
    (system.post frames).phaseOf other = system.phaseOf other := by
  unfold post
  split
  · apply phaseOf_same
    intro connection
    unfold Connection.post
    split <;> rfl
  · rfl

theorem phaseOf_dial (rejoins : Bool) (system : System) (other : ℕ) :
    (system.dial rejoins).phaseOf other =
      if other = system.connections.length then some .connecting else system.phaseOf other := by
  simp only [phaseOf, dial]
  rcases Nat.lt_trichotomy other system.connections.length with old | rfl | beyond
  · rw [List.getElem?_append_left old, if_neg (Nat.ne_of_lt old)]
  · rw [List.getElem?_concat_length, if_pos rfl]
    rfl
  · have longer : (system.connections ++ [Connection.new rejoins]).length ≤ other := by
      rw [List.length_append]
      exact beyond
    rw [List.getElem?_eq_none longer, if_neg (Nat.ne_of_gt beyond),
      List.getElem?_eq_none (Nat.le_of_lt beyond)]

/-- The socket has ended, and the others are as they were. -/
theorem phaseOf_ended (retries : ℕ) (other : ℕ) :
    (system.ended socket retries).phaseOf other =
      if socket = other then (system.phaseOf other).map fun _ => .closed
      else system.phaseOf other := by
  have ended := @phaseOf_onConnection system socket
    (fun connection => { connection with phase := .closed }) other
  apply Eq.trans ended
  simp only [phaseOf, Option.map_map]
  rfl

theorem phaseOf_opened (connection : Connection) (other : ℕ) :
    (system.opened socket connection).phaseOf other =
      if socket = other then (system.phaseOf other).map fun _ => .opened
      else system.phaseOf other := by
  have opened := @phaseOf_onConnection system socket
    (fun connection => { connection with phase := .opened }) other
  have same : (system.opened socket connection).phaseOf other =
      (system.onConnection socket fun connection =>
        { connection with phase := .opened }).phaseOf other := by
    unfold System.opened
    dsimp only
    split
    · exact phaseOf_post _ _ _
    · rfl
  rw [same, opened]
  simp only [phaseOf, Option.map_map]
  rfl

end System

/-! ## What is sent arrives at the gateway -/

namespace System

variable {system next : System} {socket : ℕ} {action : Action}

def requestsAt (system : System) (socket : ℕ) : List Frame :=
  ((system.connections[socket]?).map Connection.requests).getD []

theorem requestsAt_onConnection (change : Connection → Connection) (other : ℕ) :
    (system.onConnection socket change).requestsAt other =
      if socket = other then
        ((system.connections[other]?).map fun connection =>
          (change connection).requests).getD []
      else system.requestsAt other := by
  simp only [requestsAt, onConnection, List.getElem?_modify]
  split <;> simp [Function.comp_def]

theorem requestsAt_same {change : Connection → Connection}
    (same : ∀ connection, (change connection).requests = connection.requests) (other : ℕ) :
    (system.onConnection socket change).requestsAt other = system.requestsAt other := by
  rw [requestsAt_onConnection]
  split
  · simp only [same, requestsAt]
  · rfl

theorem requestsAt_replace {connection later : Connection}
    (found : system.connections[socket]? = some connection)
    (same : later.requests = connection.requests) (other : ℕ) :
    (system.onConnection socket fun _ => later).requestsAt other = system.requestsAt other := by
  rw [requestsAt_onConnection]
  split
  · next isOther =>
      subst isOther
      rw [requestsAt, found]
      exact same
  · rfl

theorem requestsAt_ended (retries : ℕ) (other : ℕ) :
    (system.ended socket retries).requestsAt other = system.requestsAt other :=
  @requestsAt_same system socket (fun connection => { connection with phase := .closed })
    (fun _ => rfl) other

theorem requestsAt_dial (rejoins : Bool) (other : ℕ) :
    (system.dial rejoins).requestsAt other = system.requestsAt other := by
  simp only [requestsAt, dial, List.getElem?_append]
  split
  · rfl
  · next beyond =>
      rw [List.getElem?_eq_none (Nat.le_of_not_lt beyond)]
      rcases other - system.connections.length with _ | _ <;> rfl

/-- `send` adds to the requests of the open socket. -/
theorem requestsAt_post (frames : List Bytes) (other : ℕ) :
    (system.post frames).requestsAt other =
      system.requestsAt other ++
        if system.transport.ws = some other ∧ system.phaseOf other = some .opened then
          frames.map Frame.parse
        else [] := by
  unfold post
  rcases system.transport.ws with _ | current
  · simp
  · simp only [requestsAt_onConnection, Option.some.injEq]
    by_cases same : current = other
    · subst current
      simp only [requestsAt, phaseOf, true_and, if_true]
      rcases system.connections[other]? with _ | connection
      · rfl
      · by_cases isOpen : connection.phase = .opened <;> simp [Connection.post, isOpen]
    · simp [same]

theorem sends_at (other : ℕ) :
    ((system.sends action next).filter fun sent => sent.1 = other).map (Frame.parse ·.2) =
      if next.transport.ws = some other ∧ next.phaseOf other = some .opened then
        (system.handed action).map Frame.parse
      else [] := by
  unfold sends
  rcases next.transport.ws with _ | current
  · simp
  · by_cases same : current = other
    · subst current
      by_cases isOpen : next.phaseOf other = some .opened <;>
        simp [isOpen, Function.comp_def, List.filter_eq_self.mpr]
    · simp only [Option.some.injEq, same, false_and, if_false]
      split <;> simp [same]

end System

/-! ## What the steps do to the pending replies -/

namespace Transport

variable {Callback : Type} {ref : ℕ} {pending : PendingReply}

theorem forget_pendingReplies (topic : Bytes) (transport : Transport Callback) :
    (transport.forget topic).pendingReplies = transport.pendingReplies := by
  unfold forget
  dsimp only
  split <;> rfl

theorem forget_ws (topic : Bytes) (transport : Transport Callback) :
    (transport.forget topic).ws = transport.ws := by
  unfold forget
  dsimp only
  split <;> rfl

theorem rejoin_ws (topics : List Bytes) (transport : Transport Callback) :
    (transport.rejoin topics).1.ws = transport.ws := by
  induction topics generalizing transport with
  | nil => rfl
  | cons topic rest ih => exact (ih _).trans (forget_ws topic transport)

theorem pending_join {topic : Bytes} {transport : Transport Callback}
    (waiting : (transport.join topic).1.pendingReplies ref = some pending) :
    transport.pendingReplies ref = some pending ∨
      pending.SentAs ref (transport.join topic).2 := by
  by_cases new : ref = transport.ref + 1
  · subst ref
    right
    simp only [join, nextRef, Function.update_self, Option.some.injEq] at waiting
    subst pending
    rfl
  · left
    simp only [join, nextRef, Function.update_of_ne new] at waiting
    exact waiting

/-- The entries after the rejoins are those from before and those of the rejoins. -/
theorem pending_rejoin {topics : List Bytes} {transport : Transport Callback}
    (waiting : (transport.rejoin topics).1.pendingReplies ref = some pending) :
    transport.pendingReplies ref = some pending ∨
      ∃ frame ∈ (transport.rejoin topics).2, pending.SentAs ref frame := by
  induction topics generalizing transport with
  | nil => exact .inl waiting
  | cons topic rest ih =>
      rcases ih waiting with joined | ⟨frame, frameMem, sentAs⟩
      · rcases pending_join joined with old | sentAs
        · rw [forget_pendingReplies] at old
          exact .inl old
        · exact .inr ⟨_, List.mem_cons_self, sentAs⟩
      · exact .inr ⟨frame, List.mem_cons_of_mem _ frameMem, sentAs⟩

theorem push_kept {transport asked : Transport Callback} {topic payload frame : Bytes}
    {event : Byte} (pushed : transport.push topic event payload = some (asked, frame)) :
    asked.ws = transport.ws ∧
      ∀ ref pending, asked.pendingReplies ref = some pending →
        transport.pendingReplies ref = some pending ∨ pending.SentAs ref frame := by
  rcases Option.map_eq_some_iff.mp pushed with ⟨topicId, -, built⟩
  rcases Prod.mk.inj built with ⟨rfl, rfl⟩
  refine ⟨rfl, ?_⟩
  intro ref pending waiting
  by_cases new : ref = transport.ref + 1
  · subst ref
    right
    simp only [nextRef, Function.update_self, Option.some.injEq] at waiting
    subst pending
    exact ⟨topicId, event, payload, rfl⟩
  · left
    simp only [nextRef, Function.update_of_ne new] at waiting
    exact waiting

/-- The entry of a frame that was not sent is taken out again. -/
theorem withdrawPush_kept {transport asked : Transport Callback} {topic payload frame : Bytes}
    {event : Byte} (pushed : transport.push topic event payload = some (asked, frame)) :
    ∀ ref pending, asked.withdrawPush.pendingReplies ref = some pending →
      transport.pendingReplies ref = some pending := by
  rcases Option.map_eq_some_iff.mp pushed with ⟨topicId, -, built⟩
  rcases Prod.mk.inj built with ⟨rfl, rfl⟩
  intro ref pending waiting
  simp only [withdrawPush, nextRef, Function.update_idem] at waiting
  by_cases new : ref = transport.ref + 1
  · rw [new, Function.update_self] at waiting
    cases waiting
  · rwa [Function.update_of_ne new] at waiting

theorem waiting_join (topic : Bytes) {transport : Transport Callback}
    (waiting : transport.pendingReplies ref ≠ none) :
    (transport.join topic).1.pendingReplies ref ≠ none := by
  by_cases new : ref = transport.ref + 1
  · simp [join, nextRef, new]
  · simpa [join, nextRef, Function.update_of_ne new] using waiting

theorem waiting_rejoin (topics : List Bytes) {transport : Transport Callback}
    (waiting : transport.pendingReplies ref ≠ none) :
    (transport.rejoin topics).1.pendingReplies ref ≠ none := by
  induction topics generalizing transport with
  | nil => exact waiting
  | cons topic rest ih =>
      apply ih
      apply waiting_join
      rwa [forget_pendingReplies]

/-- Where there are topics to join again, a reply is pending afterwards. -/
theorem exists_waiting_rejoin {topics : List Bytes} (nonempty : topics ≠ [])
    (transport : Transport Callback) :
    ∃ ref, (transport.rejoin topics).1.pendingReplies ref ≠ none := by
  rcases topics with _ | ⟨topic, rest⟩
  · exact absurd rfl nonempty
  · have joined : ((transport.forget topic).join topic).1.pendingReplies
        ((transport.forget topic).ref + 1) ≠ none := by simp [join, nextRef]
    exact ⟨_, waiting_rejoin rest joined⟩

theorem onByName_kept (topic : Bytes) (event : ℕ) (callback : Callback)
    (transport : Transport Callback) :
    (transport.onByName topic event callback).ws = transport.ws ∧
      (transport.onByName topic event callback).pendingReplies = transport.pendingReplies := by
  unfold onByName
  split <;> exact ⟨rfl, rfl⟩

theorem register_ws (topic : Bytes) (topicId : ℕ) (transport : Transport Callback) :
    (transport.register topic topicId).ws = transport.ws := by
  by_cases named : topic = []
  · rw [register, if_pos named]
  · exact (register_spec named topicId transport).1.ws

theorem registerReply_ws (frame : DecodedFrame) (status : Byte)
    (transport : Transport Callback) :
    (transport.registerReply frame status).ws = transport.ws := by
  unfold registerReply
  split
  · split
    · exact register_ws _ _ transport
    · rfl
  · rfl

/-- A reply takes its entry out, and no other. -/
theorem handleReply_kept (frame : DecodedFrame) (transport : Transport Callback) :
    (transport.handleReply frame).ws = transport.ws ∧
      ∀ ref pending, (transport.handleReply frame).pendingReplies ref = some pending →
        transport.pendingReplies ref = some pending := by
  unfold handleReply
  dsimp only
  split
  · exact ⟨rfl, fun _ _ waiting => waiting⟩
  · next waits _ =>
      have socket := transport.registerReply_ws frame (frame.payload.headD statusOk)
      have replies := (transport.registerReply_refs frame (frame.payload.headD statusOk)).2.1
      have kept : ∀ ref pending,
          Function.update transport.pendingReplies frame.ref none ref = some pending →
            transport.pendingReplies ref = some pending := by
        intro ref pending waiting
        by_cases same : ref = frame.ref
        · rw [same, Function.update_self] at waiting
          cases waiting
        · rwa [Function.update_of_ne same] at waiting
      rw [← replies] at kept
      cases waits <;> exact ⟨socket, fun ref pending waiting => replies ▸ kept ref pending waiting⟩

theorem handleMessage_kept (data : Bytes) (transport : Transport Callback) :
    (transport.handleMessage data).transport.ws = transport.ws ∧
      ∀ ref pending,
        (transport.handleMessage data).transport.pendingReplies ref = some pending →
          transport.pendingReplies ref = some pending := by
  unfold handleMessage
  split
  · exact ⟨rfl, fun _ _ waiting => waiting⟩
  · split
    · exact handleReply_kept _ transport
    · split
      · split <;> exact ⟨rfl, fun _ _ waiting => waiting⟩
      · exact ⟨rfl, fun _ _ waiting => waiting⟩

end Transport

namespace System

/-! ## What the steps do to the transport -/

section Methods

variable {system : System}

theorem transport_join (topic : Bytes) (system : System) :
    (system.join topic).transport = (system.transport.join topic).1 :=
  post_transport _ _

variable {asked : Transport Registration} {topic payload frame : Bytes} {event : Byte}

theorem push_unknown (unknown : system.transport.push topic event payload = none) :
    system.push topic event payload = system := by
  rw [push, unknown]

theorem push_sent (pushed : system.transport.push topic event payload = some (asked, frame))
    (connected : system.isConnected = true) :
    system.push topic event payload = { system with transport := asked }.post [frame] := by
  rw [push, pushed]
  simp only [connected, if_true]

theorem push_unsent (pushed : system.transport.push topic event payload = some (asked, frame))
    (unconnected : ¬system.isConnected = true) :
    system.push topic event payload = { system with transport := asked.withdrawPush } := by
  rw [push, pushed]
  simp only [unconnected]
  rfl

variable {socket : ℕ} {connection : Connection}

theorem transport_opened (first : ¬connection.rejoins = true) :
    (system.opened socket connection).transport = system.transport := by
  unfold opened
  dsimp only
  rw [if_neg first]
  rfl

theorem transport_reopened (rejoins : connection.rejoins = true) :
    (system.opened socket connection).transport =
      (system.transport.rejoin system.transport.joinedTopics).1 := by
  unfold opened
  dsimp only
  rw [if_pos rejoins, post_transport]
  rfl

end Methods

variable {throws : Registration → Bytes → Bool} {system next : System} {action : Action}

theorem requestsAt_quiet {other : ℕ} (quiet : system.handed action = [])
    (same : next.requestsAt other = system.requestsAt other) :
    next.requestsAt other = system.requestsAt other ++
      ((system.sends action next).filter fun sent => sent.1 = other).map (Frame.parse ·.2) := by
  rw [sends_at, quiet, same]
  simp

theorem requestsAt_handed {other : ℕ} (frames : List Bytes)
    (handed : system.handed action = frames) {before : System}
    (same : before.requestsAt other = system.requestsAt other) :
    (before.post frames).requestsAt other = system.requestsAt other ++
      ((system.sends action (before.post frames)).filter fun sent => sent.1 = other).map
        (Frame.parse ·.2) := by
  rw [sends_at, handed, requestsAt_post, same, post_transport, phaseOf_post]

/-- The frames that a step sends are what it adds to the requests that the gateway has to
handle; otherwise only an answer changes these. -/
theorem requests_of_step (taken : Step throws system action next)
    (unanswered : ∀ socket answer, action ≠ .answer socket answer) (other : ℕ) :
    next.requestsAt other = system.requestsAt other ++
      ((system.sends action next).filter fun sent => sent.1 = other).map (Frame.parse ·.2) := by
  cases takes_of_step taken with
  | connect => exact requestsAt_quiet rfl (requestsAt_dial false other)
  | disconnect =>
      apply requestsAt_quiet rfl
      unfold disconnect
      dsimp only
      split
      · exact @requestsAt_same system _ Connection.close (fun _ => rfl) other
      · rfl
  | join topic =>
      unfold join
      apply requestsAt_handed <;> rfl
  | push topic event payload =>
      rcases pushed : system.transport.push topic event payload with _ | ⟨asked, frame⟩
      · apply requestsAt_quiet
        · rw [handed, pushed]
          rfl
        · rw [push_unknown pushed]
      · have handedEq : system.handed (.push topic event payload) = [frame] := by
          rw [handed, pushed]
          rfl
        by_cases connected : system.isConnected = true
        · rw [push_sent pushed connected]
          exact requestsAt_handed _ handedEq rfl
        · rw [push_unsent pushed connected, sends_at, if_neg, List.append_nil]
          · rfl
          · rintro ⟨wsEq, isOpen⟩
            exact connected (isConnected_iff.mpr
              ⟨other, (Transport.push_kept pushed).1.symm.trans wsEq, isOpen⟩)
  | on topicId event => exact requestsAt_quiet rfl rfl
  | onByName topic event => exact requestsAt_quiet rfl rfl
  | off topicId event => exact requestsAt_quiet rfl rfl
  | heartbeat =>
      unfold heartbeat
      apply requestsAt_handed <;> rfl
  | lateTimer => exact requestsAt_quiet rfl rfl
  | reconnect =>
      exact requestsAt_quiet rfl
        (@requestsAt_dial { system with timers := system.timers - 1 } true other)
  | @opened socket connection found connecting =>
      have same := @requestsAt_same system socket
        (fun connection => { connection with phase := .opened }) (fun _ => rfl) other
      unfold opened
      dsimp only
      by_cases rejoins : connection.rejoins = true
      · rw [if_pos rejoins]
        apply requestsAt_handed
        · rw [handed, found]
          simp [rejoins, onConnection]
        · exact same
      · rw [if_neg rejoins]
        apply requestsAt_quiet
        · rw [handed, found]
          simp [rejoins]
        · exact same
  | failed => exact requestsAt_quiet rfl (requestsAt_ended _ other)
  | lost => exact requestsAt_quiet rfl (requestsAt_ended _ other)
  | @answer socket _ _ answer => exact absurd rfl (unanswered socket answer)
  | broadcast found sent =>
      apply requestsAt_quiet rfl
      exact requestsAt_replace found (Connection.broadcast_kept sent).2 other
  | @deliver socket =>
      apply requestsAt_quiet rfl
      exact @requestsAt_same system socket Connection.receive
        (fun connection => connection.receive_kept.2) other

end System

/-! ## Careful steps -/

section Steps

variable {throws : Registration → Bytes → Bool} {system next : System}
  {sent : List (ℕ × Bytes)} {action : Action} {socket : ℕ}

theorem Traffic.NoOrphans.connected {traffic : Traffic} (inv : traffic.NoOrphans) {ref : ℕ}
    (waiting : traffic.system.transport.pendingReplies ref ≠ none) :
    traffic.system.isConnected = true := by
  rcases Option.ne_none_iff_exists'.mp waiting with ⟨pending, waiting⟩
  rcases inv ref pending waiting with ⟨current, frame, wsEq, isOpen, -, -⟩
  exact System.isConnected_iff.mpr ⟨current, wsEq, isOpen⟩

theorem Transport.NothingPending.noOrphans (nothing : system.transport.NothingPending) :
    Traffic.NoOrphans ⟨system, sent⟩ := by
  intro ref pending waiting
  rw [nothing ref] at waiting
  cases waiting

theorem System.mem_sends {frame : Bytes} {current : ℕ} (handed : frame ∈ system.handed action)
    (wsEq : next.transport.ws = some current) (isOpen : next.phaseOf current = some .opened) :
    (current, frame) ∈ system.sends action next := by
  rw [System.sends, wsEq]
  simp only [if_pos isOpen]
  exact List.mem_map_of_mem handed

/-- A step that keeps the socket open and adds no entries. -/
theorem Traffic.NoOrphans.keep (inv : Traffic.NoOrphans ⟨system, sent⟩)
    (wsEq : next.transport.ws = system.transport.ws)
    (phases : ∀ current, system.transport.ws = some current →
      system.phaseOf current = some .opened → next.phaseOf current = some .opened)
    (waits : ∀ ref pending, next.transport.pendingReplies ref = some pending →
      system.transport.pendingReplies ref = some pending) (more : List (ℕ × Bytes)) :
    Traffic.NoOrphans ⟨next, sent ++ more⟩ := by
  intro ref pending waiting
  rcases inv ref pending (waits ref pending waiting) with
    ⟨current, frame, current_ws, isOpen, frameMem, sentAs⟩
  exact ⟨current, frame, wsEq.trans current_ws, phases current current_ws isOpen,
    List.mem_append_left _ frameMem, sentAs⟩

/-- A step of the application that sends nothing. -/
theorem Traffic.NoOrphans.still (inv : Traffic.NoOrphans ⟨system, sent⟩)
    (same : next.connections = system.connections)
    (wsEq : next.transport.ws = system.transport.ws)
    (waits : ∀ ref pending, next.transport.pendingReplies ref = some pending →
      system.transport.pendingReplies ref = some pending) (more : List (ℕ × Bytes)) :
    Traffic.NoOrphans ⟨next, sent ++ more⟩ := by
  apply inv.keep wsEq _ waits
  intro current _ isOpen
  rw [System.phaseOf, same]
  exact isOpen

/-- A step that keeps the socket open and adds entries only for frames that it sends. -/
theorem Traffic.NoOrphans.extend (inv : Traffic.NoOrphans ⟨system, sent⟩)
    (wsEq : next.transport.ws = system.transport.ws)
    (phases : ∀ current, system.phaseOf current = some .opened →
      next.phaseOf current = some .opened)
    (waits : ∀ ref pending, next.transport.pendingReplies ref = some pending →
      system.transport.pendingReplies ref = some pending ∨
        next.isConnected = true ∧ ∃ frame ∈ system.handed action, pending.SentAs ref frame) :
    Traffic.NoOrphans ⟨next, sent ++ system.sends action next⟩ := by
  intro ref pending waiting
  rcases waits ref pending waiting with old | ⟨connected, frame, frameMem, sentAs⟩
  · rcases inv ref pending old with ⟨current, frame, current_ws, isOpen, frameMem, sentAs⟩
    exact ⟨current, frame, wsEq.trans current_ws, phases current isOpen,
      List.mem_append_left _ frameMem, sentAs⟩
  · rcases System.isConnected_iff.mp connected with ⟨current, current_ws, isOpen⟩
    exact ⟨current, frame, current_ws, isOpen,
      List.mem_append_right _ (System.mem_sends frameMem current_ws isOpen), sentAs⟩

theorem System.isConnected_post (frames : List Bytes) (system : System) :
    (system.post frames).isConnected = system.isConnected := by
  rw [Bool.eq_iff_iff, isConnected_iff, isConnected_iff, post_transport]
  simp only [phaseOf_post]

theorem Traffic.NoOrphans.join (inv : Traffic.NoOrphans ⟨system, sent⟩) (topic : Bytes)
    (connected : system.isConnected = true) :
    Traffic.NoOrphans
      ⟨system.join topic, sent ++ system.sends (.join topic) (system.join topic)⟩ := by
  apply inv.extend
  · rw [System.transport_join]
    rfl
  · intro current isOpen
    exact (System.phaseOf_post _ _ current).trans isOpen
  · intro ref pending waiting
    rw [System.transport_join] at waiting
    rcases Transport.pending_join waiting with old | sentAs
    · exact .inl old
    · have connectedAfter := (System.isConnected_post [(system.transport.join topic).2]
        { system with transport := (system.transport.join topic).1 }).trans connected
      exact .inr ⟨connectedAfter, _, List.mem_singleton_self _, sentAs⟩

/-- `push` takes its entry out again where its frame is not sent. -/
theorem Traffic.NoOrphans.push (inv : Traffic.NoOrphans ⟨system, sent⟩) (topic : Bytes)
    (event : Byte) (payload : Bytes) :
    Traffic.NoOrphans ⟨system.push topic event payload,
      sent ++ system.sends (.push topic event payload) (system.push topic event payload)⟩ := by
  rcases pushed : system.transport.push topic event payload with _ | ⟨asked, frame⟩
  · rw [System.push_unknown pushed]
    apply inv.still rfl rfl
    intro ref pending waiting
    exact waiting
  · rcases Transport.push_kept pushed with ⟨wsEq, waits⟩
    by_cases connected : system.isConnected = true
    · rw [System.push_sent pushed connected]
      apply inv.extend
      · rw [System.post_transport]
        exact wsEq
      · intro current isOpen
        exact (System.phaseOf_post _ _ current).trans isOpen
      · intro ref pending waiting
        rw [System.post_transport] at waiting
        rcases waits ref pending waiting with old | sentAs
        · exact .inl old
        · right
          rw [System.isConnected_post]
          refine ⟨?_, frame, ?_, sentAs⟩
          · rw [System.isConnected_iff] at connected ⊢
            rw [← wsEq] at connected
            exact connected
          · rw [System.handed, pushed]
            exact List.mem_singleton_self _
    · rw [System.push_unsent pushed connected]
      apply inv.still
      · rfl
      · exact wsEq
      · exact Transport.withdrawPush_kept pushed

theorem Traffic.NoOrphans.opened (inv : Traffic.NoOrphans ⟨system, sent⟩)
    {connection : Connection} (found : system.connections[socket]? = some connection)
    (careful : connection.rejoins = true → system.transport.joinedTopics = [] ∨
      system.transport.ws = some socket ∨ system.isConnected = true) :
    Traffic.NoOrphans ⟨system.opened socket connection,
      sent ++ system.sends (.opened socket) (system.opened socket connection)⟩ := by
  have phases : ∀ current, system.phaseOf current = some .opened →
      (system.opened socket connection).phaseOf current = some .opened := by
    intro current isOpen
    rw [System.phaseOf_opened, isOpen]
    split <;> rfl
  by_cases rejoins : connection.rejoins = true
  · have transportEq := @System.transport_reopened system socket connection rejoins
    have wsEq : (system.opened socket connection).transport.ws = system.transport.ws := by
      rw [transportEq, Transport.rejoin_ws]
    apply inv.extend wsEq phases
    intro ref pending waiting
    rw [transportEq] at waiting
    rcases Transport.pending_rejoin waiting with old | ⟨frame, frameMem, sentAs⟩
    · exact .inl old
    · right
      refine ⟨?_, frame, ?_, sentAs⟩
      · rw [System.isConnected_iff, wsEq]
        rcases careful rejoins with none | current | connected
        · rw [none] at frameMem
          cases frameMem
        · refine ⟨socket, current, ?_⟩
          rw [System.phaseOf_opened, if_pos rfl, System.phaseOf, found]
          rfl
        · rcases System.isConnected_iff.mp connected with ⟨current, current_ws, isOpen⟩
          exact ⟨current, current_ws, phases current isOpen⟩
      · simp only [System.handed, found, Option.any_some, rejoins, if_true]
        exact frameMem
  · have openedEq := @System.transport_opened system socket connection rejoins
    refine inv.keep ?_ (fun current _ => phases current) ?_ _
    · rw [openedEq]
    · intro ref pending waiting
      rwa [openedEq] at waiting

/-- A socket that ends takes no replies with it, unless it is the transport's and open. -/
theorem Traffic.NoOrphans.ended (inv : Traffic.NoOrphans ⟨system, sent⟩)
    (careful : system.phaseOf socket = some .opened →
      system.transport.ws ≠ some socket ∨ system.transport.NothingPending)
    (retries : ℕ) (more : List (ℕ × Bytes)) :
    Traffic.NoOrphans ⟨system.ended socket retries, sent ++ more⟩ := by
  intro ref pending waiting
  rcases inv ref pending waiting with ⟨current, frame, wsEq, isOpen, frameMem, sentAs⟩
  refine ⟨current, frame, wsEq, ?_, List.mem_append_left _ frameMem, sentAs⟩
  rw [System.phaseOf_ended, if_neg]
  · exact isOpen
  · rintro rfl
    rcases careful isOpen with other | nothing
    · exact other wsEq
    · have none : system.transport.pendingReplies ref = none := nothing ref
      have some : system.transport.pendingReplies ref = some pending := waiting
      rw [none] at some
      cases some

/-- A careful step leaves no promise behind. -/
theorem Traffic.NoOrphans.step {traffic later : Traffic} {taking : TrafficAction}
    (inv : traffic.NoOrphans) (careful : traffic.Careful taking)
    (taken : Traffic.Step throws traffic taking later) : later.NoOrphans := by
  rcases traffic with ⟨system, sent⟩
  cases taking with
  | incoming socket data =>
      unfold Traffic.Step Traffic.step at taken
      dsimp only at taken
      split at taken
      · cases taken
        rcases Transport.handleMessage_kept data system.transport with ⟨wsEq, waits⟩
        rw [← List.append_nil sent]
        apply inv.still
        · rfl
        · exact wsEq
        · exact waits
      · cases taken
  | act action =>
      rcases Option.map_eq_some_iff.mp taken with ⟨next, stepped, rfl⟩
      cases System.takes_of_step stepped with
      | connect => exact Transport.NothingPending.noOrphans careful
      | disconnect =>
          apply Transport.NothingPending.noOrphans
          intro ref
          unfold System.disconnect
          dsimp only
          split <;> rfl
      | join topic => exact inv.join topic careful
      | push topic event payload => exact inv.push topic event payload
      | on topicId event =>
          apply inv.still
          · rfl
          · rfl
          · intro _ _ waiting
            exact waiting
      | onByName topic event =>
          have kept := system.transport.onByName_kept topic event
            ⟨system.registrations.length, some topic, true, event⟩
          apply inv.still
          · rfl
          · exact kept.1
          · intro ref pending waiting
            exact kept.2 ▸ waiting
      | off topicId event =>
          apply inv.still
          · rfl
          · rfl
          · intro _ _ waiting
            exact waiting
      | heartbeat =>
          apply inv.keep
          · unfold System.heartbeat
            rw [System.post_transport]
            rfl
          · intro current _ isOpen
            exact (System.phaseOf_post _ _ current).trans isOpen
          · intro ref pending waiting
            unfold System.heartbeat at waiting
            rw [System.post_transport] at waiting
            exact waiting
      | lateTimer =>
          apply inv.still
          · rfl
          · rfl
          · intro _ _ waiting
            exact waiting
      | reconnect unclosed =>
          exact Transport.NothingPending.noOrphans (careful.resolve_left unclosed)
      | opened found =>
          apply inv.opened found
          intro rejoins
          apply careful
          simp only [found, Option.any_some, rejoins]
      | failed found unopened =>
          apply inv.ended
          intro isOpen
          rw [System.phaseOf, found, Option.map_some, Option.some.injEq] at isOpen
          rw [isOpen] at unopened
          simp at unopened
      | lost => exact inv.ended (fun _ => careful) _ _
      | answer found answered =>
          apply inv.keep
          · rfl
          · intro current _ isOpen
            exact (System.phaseOf_replace found (Connection.phase_answer answered) current).trans
              isOpen
          · intro _ _ waiting
            exact waiting
      | broadcast found sent =>
          apply inv.keep
          · rfl
          · intro current _ isOpen
            exact (System.phaseOf_replace found (Connection.broadcast_kept sent).1 current).trans
              isOpen
          · intro _ _ waiting
            exact waiting
      | @deliver socket connection message =>
          rcases Transport.handleMessage_kept message.encode system.transport with ⟨wsEq, waits⟩
          apply inv.keep
          · exact wsEq
          · intro current _ isOpen
            have same := @System.phaseOf_same system socket Connection.receive
              (fun connection => connection.receive_kept.1) current
            exact same.trans isOpen
          · exact waits

theorem System.not_isConnected_dial (rejoins : Bool) :
    ¬(system.dial rejoins).isConnected = true := by
  intro connected
  rcases System.isConnected_iff.mp connected with ⟨current, wsEq, isOpen⟩
  have isNew : current = system.connections.length := (Option.some.inj wsEq).symm
  rw [System.phaseOf_dial, if_pos isNew] at isOpen
  cases isOpen

/-- A connection can be made only while nothing is pending. -/
theorem Traffic.NoOrphans.dialed {rejoins : Bool}
    (inv : Traffic.NoOrphans ⟨system.dial rejoins, sent⟩) : system.transport.NothingPending := by
  intro ref
  by_contra waiting
  exact System.not_isConnected_dial rejoins (inv.connected waiting)

theorem Traffic.NoOrphans.joined {topic : Bytes}
    (inv : Traffic.NoOrphans ⟨system.join topic, sent⟩) : system.isConnected = true := by
  have waiting : (system.join topic).transport.pendingReplies (system.transport.ref + 1) ≠
      none := by
    rw [System.transport_join]
    simp [Transport.join, Transport.nextRef]
  have connected := inv.connected waiting
  unfold System.join at connected
  rw [System.isConnected_post] at connected
  exact connected

theorem Traffic.NoOrphans.lost {retries : ℕ}
    (inv : Traffic.NoOrphans ⟨system.ended socket retries, sent⟩)
    (current : system.transport.ws = some socket) : system.transport.NothingPending := by
  intro ref
  by_contra waiting
  rcases System.isConnected_iff.mp (inv.connected waiting) with ⟨other, wsEq, isOpen⟩
  have same : socket = other := Option.some.inj (current.symm.trans wsEq)
  rw [System.phaseOf_ended, if_pos same, Option.map_eq_some_iff] at isOpen
  rcases isOpen with ⟨phase, -, closed⟩
  cases closed

theorem Traffic.NoOrphans.reopened {connection : Connection}
    (inv : Traffic.NoOrphans ⟨system.opened socket connection, sent⟩)
    (rejoins : connection.rejoins = true) (topics : system.transport.joinedTopics ≠ []) :
    system.transport.ws = some socket ∨ system.isConnected = true := by
  have transportEq := @System.transport_reopened system socket connection rejoins
  rcases Transport.exists_waiting_rejoin topics system.transport with ⟨ref, waiting⟩
  rw [← transportEq] at waiting
  rcases System.isConnected_iff.mp (inv.connected waiting) with ⟨current, wsEq, isOpen⟩
  rw [transportEq, Transport.rejoin_ws] at wsEq
  rw [System.phaseOf_opened] at isOpen
  split at isOpen
  · next same => exact .inl (same ▸ wsEq)
  · exact .inr (System.isConnected_iff.mpr ⟨current, wsEq, isOpen⟩)

/-- A step that leaves no promise behind is careful. -/
theorem Traffic.Careful.of_noOrphans {traffic later : Traffic} {taking : TrafficAction}
    (inv : later.NoOrphans) (taken : Traffic.Step throws traffic taking later) :
    traffic.Careful taking := by
  rcases traffic with ⟨system, sent⟩
  cases taking with
  | incoming socket data => trivial
  | act action =>
      rcases Option.map_eq_some_iff.mp taken with ⟨next, stepped, rfl⟩
      cases System.takes_of_step stepped with
      | connect => exact inv.dialed
      | join topic => exact inv.joined
      | lateTimer closed => exact .inl closed
      | reconnect => exact .inr inv.dialed
      | @lost socket =>
          by_cases current : system.transport.ws = some socket
          · exact .inr (inv.lost current)
          · exact .inl current
      | opened found =>
          intro rejoins
          simp only [found, Option.any_some] at rejoins
          by_cases none : system.transport.joinedTopics = []
          · exact .inl none
          · exact .inr (inv.reopened rejoins none)
      | disconnect => trivial
      | push topic event payload => trivial
      | on topicId event => trivial
      | onByName topic event => trivial
      | off topicId event => trivial
      | heartbeat => trivial
      | failed => trivial
      | answer => trivial
      | broadcast => trivial
      | deliver => trivial

end Steps

/-! ## Runs -/

theorem Traffic.noOrphans_start : Traffic.start.NoOrphans := by
  intro ref pending waiting
  cases waiting

/-- A run of careful steps leaves no promise behind, in any state that it reaches; and
every run through such states takes careful steps only. -/
theorem careful_runs (throws : Registration → Bytes → Bool) (actions : List TrafficAction)
    (traffic : Traffic) :
    (Run (Guarded Traffic.Careful (Traffic.Step throws)) Traffic.start actions traffic →
      traffic.NoOrphans) ∧
    (Run (Guarded Traffic.Careful (Traffic.Step throws)) Traffic.start actions traffic ↔
      Run (Into Traffic.NoOrphans (Traffic.Step throws)) Traffic.start actions traffic) := by
  constructor
  · intro run
    exact run.invariant (fun inv step => inv.step step.1 step.2) Traffic.noOrphans_start
  · apply Run.guarded_iff_into _ Traffic.noOrphans_start
    intro source label target inv taken
    constructor
    · intro careful
      exact inv.step careful taken
    · intro after
      exact Traffic.Careful.of_noOrphans after taken

/-- A join before `connect`, and one whose connection is lost, are both left pending. -/
theorem orphans_reached :
    (∃ traffic, Run (Traffic.Step fun _ _ => false) Traffic.start
      [.act (.join (ascii "lobby:general"))] traffic ∧ ¬traffic.NoOrphans) ∧
    ∃ traffic, Run (Traffic.Step fun _ _ => false) Traffic.start
      [.act .connect, .act (.opened 0), .act (.join (ascii "lobby:general")), .act (.lost 0)]
      traffic ∧ ¬traffic.NoOrphans := by
  constructor
  · refine ⟨_, Run.of_play rfl, ?_⟩
    intro inv
    have waiting := inv 1 (.join (ascii "lobby:general")) rfl
    rcases waiting with ⟨socket, frame, wsEq, -⟩
    cases wsEq
  · refine ⟨_, Run.of_play rfl, ?_⟩
    intro inv
    have waiting := inv 1 (.join (ascii "lobby:general")) rfl
    rcases waiting with ⟨socket, frame, wsEq, isOpen, -⟩
    cases wsEq
    cases isOpen

end Mercury.Sdk
