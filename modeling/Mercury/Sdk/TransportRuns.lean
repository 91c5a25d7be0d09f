import Mercury.Foundations.Run
import Mercury.Sdk.Transport

/-!
# The transport on its connections

A transport and the sockets it has made so far: each connection has its requests
in flight, the numbering of topics by the gateway, and the frames on their way
back, in order. The application calls the methods of the transport, sockets open,
fail and close, timers fire, and the gateway answers and broadcasts, in any order.

Callbacks are known by their registrations. One that throws ends the loop over
the callbacks of its broadcast.
-/

namespace Mercury.Sdk

open Foundations Gateway

/-! ## What the gateway sends -/

/-- The topic that an id of a numbering 1, 2, ... denotes. -/
def topicAt (topics : List Bytes) (topicId : ℕ) : Option Bytes :=
  if topicId = 0 then none else topics[topicId - 1]?

/-- The newest id of a topic. -/
def idOf (topics : List Bytes) (topic : Bytes) : Option ℕ :=
  (topics.reverse.findIdx? fun other => other = topic).map fun index => topics.length - index

theorem topicAt_append (topics : List Bytes) (topic : Bytes) (topicId : ℕ) :
    topicAt (topics ++ [topic]) topicId =
      if topicId = topics.length + 1 then some topic else topicAt topics topicId := by
  rcases topicId with _ | index
  · simp [topicAt]
  · by_cases last : index = topics.length
    · subst index
      simp [topicAt]
    · simp only [topicAt, Nat.succ_ne_zero, if_false, Nat.add_sub_cancel, Nat.add_right_cancel_iff,
        last]
      rcases Nat.lt_or_ge index topics.length with old | beyond
      · exact List.getElem?_append_left old
      · rw [List.getElem?_eq_none (by simp; omega), List.getElem?_eq_none beyond]

theorem idOf_append (topics : List Bytes) (topic other : Bytes) :
    idOf (topics ++ [topic]) other =
      if topic = other then some (topics.length + 1) else idOf topics other := by
  rw [idOf, List.reverse_append, List.reverse_singleton, List.singleton_append,
    List.findIdx?_cons]
  by_cases same : topic = other
  · simp [same]
  · simp only [same, decide_false, Bool.false_eq_true, if_false, idOf, Option.map_map]
    congr 1
    funext index
    simp

theorem topicAt_of_idOf {topics : List Bytes} {topic : Bytes} {topicId : ℕ}
    (current : idOf topics topic = some topicId) : topicAt topics topicId = some topic := by
  induction topics using List.reverseRecOn generalizing topicId with
  | nil => simp [idOf] at current
  | append_singleton topics last ih =>
      rw [idOf_append] at current
      rw [topicAt_append]
      split at current
      · next same => simp_all
      · next different =>
          have old := ih current
          have bound : topicId ≤ topics.length := by
            unfold topicAt at old
            split at old
            · cases old
            · have := (List.getElem?_eq_some_iff.mp old).1
              omega
          rw [if_neg (by omega), old]

theorem idOf_eq_none {topics : List Bytes} {topic : Bytes} (unknown : topic ∉ topics) :
    idOf topics topic = none := by
  simp only [idOf, Option.map_eq_none_iff, List.findIdx?_eq_none_iff, decide_eq_false_iff_not]
  intro other otherMem same
  exact unknown (same ▸ List.mem_reverse.mp otherMem)

/-- A frame on its way to the client, with the topic that it is about. -/
inductive ServerMessage where
  | joined (ref topicId : ℕ) (topic : Bytes)
  | refused (ref : ℕ) (topic reason : Bytes)
  | pushed (ref topicId : ℕ) (status : Byte) (data : Bytes)
  | broadcast (topicId : ℕ) (topic : Bytes) (event : Byte) (payload : Bytes)
deriving DecidableEq

namespace ServerMessage

def encode : ServerMessage → Bytes
  | joined ref topicId _ => replyFrame ref topicId statusOk []
  | refused ref _ reason => replyFrame ref 0 statusError reason
  | pushed ref topicId status data => replyFrame ref topicId status data
  | broadcast topicId _ event payload =>
      encodeFrame FrameType.broadcast 0 topicId (event :: payload)

/-- The topic whose id a message tells. -/
def tells : ServerMessage → List Bytes
  | joined _ _ topic => [topic]
  | _ => []

theorem tells_cases (message : ServerMessage) :
    message.tells = [] ∨ ∃ ref topicId topic, message = joined ref topicId topic := by
  cases message with
  | joined ref topicId topic => exact Or.inr ⟨ref, topicId, topic, rfl⟩
  | refused ref topic reason => exact Or.inl rfl
  | pushed ref topicId status data => exact Or.inl rfl
  | broadcast topicId topic event payload => exact Or.inl rfl

/-- The ref of a reply, and what it is a reply to. -/
def answers : ServerMessage → Option (ℕ × PendingReply)
  | joined ref _ topic => some (ref, .join topic)
  | refused ref topic _ => some (ref, .join topic)
  | pushed ref _ _ _ => some (ref, .push)
  | broadcast .. => none

/-- Whether a message is about the numbering that the client knows by then. -/
def FollowsOn (told : List Bytes) : ServerMessage → Prop
  | joined _ topicId topic => topicId = told.length + 1 ∧ topicId < 256 ^ 2 ∧ topic ≠ []
  | broadcast topicId topic _ _ => idOf told topic = some topicId ∧ topicId < 256 ^ 2
  | _ => True

end ServerMessage

/-- Read in order, the messages lead from the numbering `told` to `accepted`. -/
def Follows : List Bytes → List ServerMessage → List Bytes → Prop
  | told, [], accepted => told = accepted
  | told, message :: rest, accepted =>
      message.FollowsOn told ∧ Follows (told ++ message.tells) rest accepted

theorem Follows.snoc {told accepted : List Bytes} {messages : List ServerMessage}
    {message : ServerMessage} (follows : Follows told messages accepted)
    (next : message.FollowsOn accepted) :
    Follows told (messages ++ [message]) (accepted ++ message.tells) := by
  induction messages generalizing told with
  | nil =>
      cases follows
      exact ⟨next, rfl⟩
  | cons first rest ih => exact ⟨follows.1, ih follows.2⟩

/-! ## Connections -/

/-- `readyState`; a socket that is closed while connecting is `failing`. -/
inductive Phase where
  | connecting
  | opened
  | failing
  | closing
  | closed
deriving DecidableEq

structure Connection where
  phase : Phase
  /-- Made by `scheduleReconnect`. -/
  rejoins : Bool
  /-- Sent frames, as the gateway takes them apart. -/
  requests : List Frame
  /-- The topics joined on the connection: the first has id 1, and so on. -/
  accepted : List Bytes
  incoming : List ServerMessage
  /-- The topics whose join replies have arrived. -/
  told : List Bytes
  follows : Follows told incoming accepted

/-- Topic names that `do_join` knows. -/
def serves (topic : Bytes) : Bool :=
  (stripPrefix (ascii "channel:") topic).isSome || (stripPrefix (ascii "lobby:") topic).isSome ||
    (stripPrefix (ascii "presence:") topic).isSome

/-- How the gateway handles a request. -/
inductive Answer where
  | accept
  | refuse (reason : Bytes)
  | respond (status : Byte) (data : Bytes)
  | silence

namespace Connection

def new (rejoins : Bool) : Connection where
  phase := .connecting
  rejoins := rejoins
  requests := []
  accepted := []
  incoming := []
  told := []
  follows := rfl

/-- `WebSocket.close`. -/
def close (connection : Connection) : Connection :=
  { connection with
    phase := match connection.phase with
      | .connecting => .failing
      | .opened => .closing
      | phase => phase }

/-- `WebSocket.send` of each frame, which needs an open socket. -/
def post (frames : List Bytes) (connection : Connection) : Connection :=
  if connection.phase = .opened then
    { connection with requests := connection.requests ++ frames.map Frame.parse }
  else connection

/-- The gateway sends a message. -/
def reply (message : ServerMessage) (connection : Connection)
    (next : message.FollowsOn connection.accepted) : Connection :=
  { connection with
    incoming := connection.incoming ++ [message]
    accepted := connection.accepted ++ message.tells
    follows := connection.follows.snoc next }

theorem ne_nil_of_serves {topic : Bytes} (served : serves topic) : topic ≠ [] := by
  rintro rfl
  exact absurd served (by decide)

/-- The gateway handles the next request: it numbers the joins that it accepts. -/
def answer (connection : Connection) (answer : Answer) : Option Connection :=
  match connection.requests, answer with
  | .join ref topic :: rest, .accept =>
      if room : serves topic ∧ connection.accepted.length < 0xFFFF then
        some { reply (.joined ref (connection.accepted.length + 1) topic) connection
            ⟨rfl, by have := room.2; omega, ne_nil_of_serves room.1⟩ with requests := rest }
      else none
  | .join ref topic :: rest, .refuse reason =>
      some { reply (.refused ref topic reason) connection trivial with requests := rest }
  | .push ref topicId _ _ :: rest, .respond status data =>
      some { reply (.pushed ref topicId status data) connection trivial with requests := rest }
  | _ :: rest, .silence => some { connection with requests := rest }
  | _, _ => none

/-- The gateway passes a broadcast on, under the newest id of the topic. -/
def broadcast (connection : Connection) (topic : Bytes) (event : Byte) (payload : Bytes) :
    Option Connection :=
  match current : idOf connection.accepted topic with
  | none => none
  | some topicId =>
      if fits : topicId < 256 ^ 2 then
        some (reply (.broadcast topicId topic event payload) connection ⟨current, fits⟩)
      else none

/-- The first message on its way has arrived. -/
def receive (connection : Connection) : Connection :=
  match connection.incoming, connection.follows with
  | [], _ => connection
  | message :: rest, follows =>
      { connection with
        incoming := rest
        told := connection.told ++ message.tells
        follows := follows.2 }

end Connection

/-! ## The system -/

/-- A callback, known by the call that registered it. -/
structure Registration where
  number : ℕ
  /-- The given name, or the topic that the given id stands for. -/
  topic : Option Bytes
  byName : Bool
  event : ℕ
deriving DecidableEq

/-- A broadcast that has arrived, with the callbacks it invoked. -/
structure Delivery where
  socket : ℕ
  topic : Bytes
  event : Byte
  payload : Bytes
  invoked : List Registration
  /-- How many callbacks were registered by then. -/
  registered : ℕ
deriving DecidableEq

structure System where
  transport : Transport Registration
  connections : List Connection
  /-- The reconnect timers that are set. -/
  timers : ℕ
  registrations : List Registration
  deliveries : List Delivery

inductive Action where
  | connect
  | disconnect
  | join (topic : Bytes)
  | push (topic : Bytes) (event : Byte) (payload : Bytes)
  | on (topicId event : ℕ)
  | onByName (topic : Bytes) (event : ℕ)
  | off (topicId event : ℕ)
  | heartbeat
  /-- A reconnect timer fires. -/
  | timer
  | opened (socket : ℕ)
  /-- A socket that never opened errs and closes. -/
  | failed (socket : ℕ)
  | lost (socket : ℕ)
  | answer (socket : ℕ) (answer : Answer)
  | broadcast (socket : ℕ) (topic : Bytes) (event : Byte) (payload : Bytes)
  | deliver (socket : ℕ)

/-- The callbacks that a broadcast invokes, in order, up to one that throws. -/
def invocations (throws : Registration → Bytes → Bool) (data : Bytes) :
    List Registration → List Registration
  | [] => []
  | callback :: rest =>
      if throws callback data then [callback] else callback :: invocations throws data rest

namespace System

def start : System where
  transport := Transport.new
  connections := []
  timers := 0
  registrations := []
  deliveries := []

def onConnection (socket : ℕ) (change : Connection → Connection) (system : System) : System :=
  { system with connections := system.connections.modify socket change }

/-- `isConnected`. -/
def isConnected (system : System) : Bool :=
  match system.transport.ws.bind fun socket => system.connections[socket]? with
  | some connection => connection.phase = .opened
  | none => false

/-- `send` of each frame. -/
def post (frames : List Bytes) (system : System) : System :=
  match system.transport.ws with
  | some socket => system.onConnection socket (Connection.post frames)
  | none => system

/-- `new WebSocket` and the rest of `connect`. -/
def dial (rejoins : Bool) (system : System) : System :=
  { system with
    transport := system.transport.connect system.connections.length
    connections := system.connections ++ [Connection.new rejoins] }

def disconnect (system : System) : System :=
  let closing :=
    match system.transport.ws with
    | some socket => system.onConnection socket Connection.close
    | none => system
  { closing with transport := closing.transport.disconnect }

def join (topic : Bytes) (system : System) : System :=
  { system with transport := (system.transport.join topic).1 }.post
    [(system.transport.join topic).2]

def push (topic : Bytes) (event : Byte) (payload : Bytes) (system : System) : System :=
  match system.transport.push topic event payload with
  | none => system
  | some (transport, frame) =>
      if system.isConnected then { system with transport := transport }.post [frame]
      else { system with transport := transport.withdrawPush }

/-- The topic that an id stands for at present. -/
def topicOf (system : System) (topicId : ℕ) : Option Bytes :=
  (system.transport.topicIdToName topicId).filter fun topic =>
    system.transport.topicNameToId topic = some topicId

def on (topicId event : ℕ) (system : System) : System :=
  let callback : Registration :=
    ⟨system.registrations.length, system.topicOf topicId, false, event⟩
  { system with
    transport := system.transport.on topicId event callback
    registrations := system.registrations ++ [callback] }

def onByName (topic : Bytes) (event : ℕ) (system : System) : System :=
  let callback : Registration := ⟨system.registrations.length, some topic, true, event⟩
  { system with
    transport := system.transport.onByName topic event callback
    registrations := system.registrations ++ [callback] }

def heartbeat (system : System) : System :=
  { system with transport := system.transport.nextRef }.post
    [encodeFrame FrameType.heartbeat (system.transport.ref + 1) 0 []]

/-- The callback of a reconnect timer. -/
def timer (system : System) : Option System :=
  if system.timers = 0 then none
  else if system.transport.closed then some { system with timers := system.timers - 1 }
  else some ({ system with timers := system.timers - 1 }.dial true)

/-- `onopen`, and the rejoins of a reconnect. -/
def opened (socket : ℕ) (connection : Connection) (system : System) : System :=
  let system := system.onConnection socket fun connection => { connection with phase := .opened }
  if connection.rejoins then
    { system with
      transport := (system.transport.rejoin system.transport.joinedTopics).1 }.post
        (system.transport.rejoin system.transport.joinedTopics).2
  else system

/-- `onclose`, after `onerror` where the socket never opened. -/
def ended (socket : ℕ) (retries : ℕ) (system : System) : System :=
  let system := system.onConnection socket fun connection => { connection with phase := .closed }
  { system with
    timers := system.timers + retries + if system.transport.closed then 0 else 1 }

/-- The record of an arrived message. -/
def delivery (throws : Registration → Bytes → Bool) (system : System) (socket : ℕ)
    (message : ServerMessage) (handled : Transport.Handled Registration) : List Delivery :=
  match message with
  | .broadcast _ topic event payload =>
      [⟨socket, topic, event, payload, invocations throws handled.eventData handled.callbacks,
        system.registrations.length⟩]
  | _ => []

/-- `onmessage`. -/
def deliver (throws : Registration → Bytes → Bool) (socket : ℕ) (message : ServerMessage)
    (system : System) : System :=
  let handled := system.transport.handleMessage message.encode
  let received := system.onConnection socket Connection.receive
  { received with
    transport := handled.transport
    deliveries := system.deliveries ++ system.delivery throws socket message handled }

def step (throws : Registration → Bytes → Bool) (system : System) : Action → Option System
  | .connect => some (system.dial false)
  | .disconnect => some system.disconnect
  | .join topic => some (system.join topic)
  | .push topic event payload => some (system.push topic event payload)
  | .on topicId event => some (system.on topicId event)
  | .onByName topic event => some (system.onByName topic event)
  | .off topicId event =>
      some { system with transport := system.transport.off topicId event }
  | .heartbeat => some system.heartbeat
  | .timer => system.timer
  | .opened socket =>
      (system.connections[socket]?).bind fun connection =>
        if connection.phase = .connecting then some (system.opened socket connection) else none
  | .failed socket =>
      (system.connections[socket]?).bind fun connection =>
        if connection.phase = .connecting ∨ connection.phase = .failing then
          some (system.ended socket (if connection.rejoins then 1 else 0))
        else none
  | .lost socket =>
      (system.connections[socket]?).bind fun connection =>
        if connection.phase = .opened ∨ connection.phase = .closing then
          some (system.ended socket 0)
        else none
  | .answer socket answer =>
      (system.connections[socket]?).bind fun connection =>
        (connection.answer answer).map fun next => system.onConnection socket fun _ => next
  | .broadcast socket topic event payload =>
      (system.connections[socket]?).bind fun connection =>
        (connection.broadcast topic event payload).map fun next =>
          system.onConnection socket fun _ => next
  | .deliver socket =>
      (system.connections[socket]?).bind fun connection =>
        if connection.phase = .opened then
          (connection.incoming.head?).map fun message => system.deliver throws socket message
        else none

/-- The steps of the system as a transition system. -/
def Step (throws : Registration → Bytes → Bool) (system : System) (action : Action)
    (next : System) : Prop :=
  system.step throws action = some next

/-- The steps, by what an action may come to. -/
inductive Takes (throws : Registration → Bytes → Bool) (system : System) :
    Action → System → Prop where
  | connect : Takes throws system .connect (system.dial false)
  | disconnect : Takes throws system .disconnect system.disconnect
  | join (topic : Bytes) : Takes throws system (.join topic) (system.join topic)
  | push (topic : Bytes) (event : Byte) (payload : Bytes) :
      Takes throws system (.push topic event payload) (system.push topic event payload)
  | on (topicId event : ℕ) : Takes throws system (.on topicId event) (system.on topicId event)
  | onByName (topic : Bytes) (event : ℕ) :
      Takes throws system (.onByName topic event) (system.onByName topic event)
  | off (topicId event : ℕ) :
      Takes throws system (.off topicId event)
        { system with transport := system.transport.off topicId event }
  | heartbeat : Takes throws system .heartbeat system.heartbeat
  | lateTimer (closed : system.transport.closed = true) :
      Takes throws system .timer { system with timers := system.timers - 1 }
  | reconnect (unclosed : ¬system.transport.closed = true) :
      Takes throws system .timer ({ system with timers := system.timers - 1 }.dial true)
  | opened {socket : ℕ} {connection : Connection}
      (found : system.connections[socket]? = some connection)
      (connecting : connection.phase = .connecting) :
      Takes throws system (.opened socket) (system.opened socket connection)
  | failed {socket : ℕ} {connection : Connection}
      (found : system.connections[socket]? = some connection)
      (unopened : connection.phase = .connecting ∨ connection.phase = .failing) :
      Takes throws system (.failed socket)
        (system.ended socket (if connection.rejoins then 1 else 0))
  | lost {socket : ℕ} {connection : Connection}
      (found : system.connections[socket]? = some connection)
      (wasOpen : connection.phase = .opened ∨ connection.phase = .closing) :
      Takes throws system (.lost socket) (system.ended socket 0)
  | answer {socket : ℕ} {connection later : Connection} {answer : Answer}
      (found : system.connections[socket]? = some connection)
      (answered : connection.answer answer = some later) :
      Takes throws system (.answer socket answer) (system.onConnection socket fun _ => later)
  | broadcast {socket : ℕ} {connection later : Connection} {topic payload : Bytes} {event : Byte}
      (found : system.connections[socket]? = some connection)
      (sent : connection.broadcast topic event payload = some later) :
      Takes throws system (.broadcast socket topic event payload)
        (system.onConnection socket fun _ => later)
  | deliver {socket : ℕ} {connection : Connection} {message : ServerMessage}
      (found : system.connections[socket]? = some connection)
      (isOpen : connection.phase = .opened) (first : connection.incoming.head? = some message) :
      Takes throws system (.deliver socket) (system.deliver throws socket message)

theorem takes_of_step {throws : Registration → Bytes → Bool} {system next : System}
    {action : Action} (taken : Step throws system action next) :
    system.Takes throws action next := by
  cases action with
  | connect =>
      cases taken
      exact .connect
  | disconnect =>
      cases taken
      exact .disconnect
  | join topic =>
      cases taken
      exact .join topic
  | push topic event payload =>
      cases taken
      exact .push topic event payload
  | on topicId event =>
      cases taken
      exact .on topicId event
  | onByName topic event =>
      cases taken
      exact .onByName topic event
  | off topicId event =>
      cases taken
      exact .off topicId event
  | heartbeat =>
      cases taken
      exact .heartbeat
  | timer =>
      simp only [Step, step, timer] at taken
      split_ifs at taken with _ closed
      · cases taken
        exact .lateTimer closed
      · cases taken
        exact .reconnect closed
  | opened socket =>
      rcases Option.bind_eq_some_iff.mp taken with ⟨connection, found, opened⟩
      rcases Option.ite_none_right_eq_some.mp opened with ⟨connecting, openedEq⟩
      cases openedEq
      exact .opened found connecting
  | failed socket =>
      rcases Option.bind_eq_some_iff.mp taken with ⟨connection, found, ended⟩
      rcases Option.ite_none_right_eq_some.mp ended with ⟨unopened, endedEq⟩
      cases endedEq
      exact .failed found unopened
  | lost socket =>
      rcases Option.bind_eq_some_iff.mp taken with ⟨connection, found, ended⟩
      rcases Option.ite_none_right_eq_some.mp ended with ⟨wasOpen, endedEq⟩
      cases endedEq
      exact .lost found wasOpen
  | answer socket answer =>
      rcases Option.bind_eq_some_iff.mp taken with ⟨connection, found, answered⟩
      rcases Option.map_eq_some_iff.mp answered with ⟨later, answerEq, rfl⟩
      exact .answer found answerEq
  | broadcast socket topic event payload =>
      rcases Option.bind_eq_some_iff.mp taken with ⟨connection, found, sent⟩
      rcases Option.map_eq_some_iff.mp sent with ⟨later, sentEq, rfl⟩
      exact .broadcast found sentEq
  | deliver socket =>
      rcases Option.bind_eq_some_iff.mp taken with ⟨connection, found, delivered⟩
      rcases Option.ite_none_right_eq_some.mp delivered with ⟨isOpen, messageEq⟩
      rcases Option.map_eq_some_iff.mp messageEq with ⟨message, first, rfl⟩
      exact .deliver found isOpen first

end System

end Mercury.Sdk
