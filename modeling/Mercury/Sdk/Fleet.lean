import Mercury.Foundations.Interleaving
import Mercury.Foundations.Progress
import Mercury.Gateway.History
import Mercury.Sdk.LocalStore
import Mercury.Sdk.Pulls

/-!
# The devices of a channel

Any number of devices on one channel, each with its cursor and its local store, and the gateway
with the message table, the sockets of anybody and their background tasks. The sync cycles of the
devices, the frames and the tasks interleave call by call. While a cycle waits for the reply to a
push, the gateway handles the frame of it.
-/

namespace Mercury.Sdk

open Gateway Foundations Foundations.Program Persistence

/-- The libraries on both sides, the channel under both of its names, and the users. -/
structure Fleet where
  native : Native
  codec : Codec
  tenantId : Id16
  channelId : Bytes
  name : String
  userId : ℕ → Bytes

namespace Fleet

variable (fleet : Fleet)

def channel (device : ℕ) : Channel where
  channelId := fleet.name
  tenantId := fleet.tenantId.val
  userId := fleet.userId device
  mlsReady := true
  hasSyncEngine := true

def syncChannel (device rounds : ℕ) : Script SyncCount :=
  SyncEngine.syncChannel fleet.codec (fleet.channel device) fleet.name rounds

/-- The rows of the channel. -/
def rows (table : MessageTable) : List MessageRow :=
  Gateway.messagesOf table fleet.tenantId.val fleet.channelId

/-- The messages of the channel. -/
def messages (table : MessageTable) : List Message :=
  (fleet.rows table).map MessageRow.message

end Fleet

/-! ## Devices -/

/-- The record that is put into the `messages` object store. -/
def localMessage (stored : StoredMessage) : LocalMessage Bytes where
  channelId := ascii stored.channelId
  messageId := stored.messageId
  sender := stored.sender
  content := stored.content
  contentType := stored.contentType
  timestamp := stored.timestamp

/-- The local store of a device, as far as the channel is concerned. -/
structure DeviceState where
  cursor : Option ℕ
  messages : LocalStore.Messages Bytes

namespace DeviceState

/-- The message is in the local store. -/
def Holds (state : DeviceState) (name : String) (msg : Message) : Prop :=
  localMessage (pulledMessage name msg) ∈ state.messages

/-- The store after a call that is carried out. -/
def after (state : DeviceState) : Device.Call → DeviceState
  | .setSyncState _ wall => { state with cursor := some wall }
  | .writeMessage stored =>
      { state with messages := LocalStore.writeMessage state.messages (localMessage stored) }
  | .evictOldMessages channelId =>
      { state with
        messages := (LocalStore.evictOldMessages state.messages (ascii channelId)).1 }
  | _ => state

/-- How a device carries out a call of its own. One that is rejected may have had its effect. -/
structure Carries (state : DeviceState) (taken : Performed device Thrown) (target : DeviceState) :
    Prop where
  own : ∀ topic event payload, taken.call ≠ .push topic event payload
  reads : ∀ channelId cursor, taken = ⟨.getSyncState channelId, .ok cursor⟩ →
    cursor = state.cursor
  effect : target = state.after taken.call ∨
    target = state ∧ ∃ thrown, taken.answer = .error thrown

end DeviceState

/-! ## The gateway -/

/-- How the message table and the clocks answer a command: an `INSERT` is carried out unless it
fails, a query that succeeds reads the rows of its bucket, and the devices can read the time. -/
structure AnswersFrom (table : MessageTable) (taken : Performed node Raise)
    (target : MessageTable) : Prop where
  step : MessageStep table taken target
  selects : ∀ tenantId channelId bucketId limit rows,
    taken = ⟨.inl (.selectMessages tenantId channelId bucketId limit), .ok (.ok rows)⟩ →
      rows = table.select tenantId channelId bucketId limit
  clock : ∀ now : ℕ, taken = ⟨.inr .systemTime, .ok now⟩ ∨ taken = ⟨.inr .nativeTime, .ok now⟩ →
    now < exactBound

/-- A push of a cycle, as the gateway handles it: what it has performed for the frame, and what
it has still to do. -/
structure PushedFrame where
  socket : Socket
  ref : ℕ
  topicId : ℕ
  event : Byte
  payload : Bytes
  made : List (Performed node Raise)
  rest : Program node Raise Reaction

namespace PushedFrame

def data (frame : PushedFrame) : Bytes :=
  pushFrame frame.ref frame.topicId frame.event frame.payload

/-- The cursor that a sync request sends. -/
def since (frame : PushedFrame) : ℕ :=
  fromLittleEndian (frame.payload.take 8)

/-- The frame goes through a socket that has joined the channel. -/
structure Joined (fleet : Fleet) (topic : Bytes) (frame : PushedFrame) : Prop where
  tenant : frame.socket.tenantId = fleet.tenantId
  refFits : frame.ref < 256 ^ 4
  topicFits : frame.topicId < 256 ^ 2
  entry : ∃ info, frame.socket.topicIds.lookup frame.topicId = some info ∧ info.topic = topic ∧
    info.Names fleet.channelId

end PushedFrame

/-! ## Cycles -/

/-- A `syncChannel` of a device. Its messages are `due` that were accepted before it started, and
its cursor does not pass what it has `reached`: the cursor that it started from and the clocks
that its sync requests were merged with. -/
structure SyncCycle where
  owner : ℕ
  due : List Message
  reached : ℕ
  past : List (Performed device Thrown)
  rest : Script SyncCount
  frame : Option PushedFrame

/-- The cursor that a call reads. -/
def readCursor : Performed device Thrown → ℕ
  | ⟨.getSyncState _, .ok cursor⟩ => cursor.getD 0
  | _ => 0

/-- The clock that a command reads for the merge. -/
def mergedClock : Performed node Raise → ℕ
  | ⟨.inr .systemTime, .ok now⟩ => now
  | ⟨.inr .nativeTime, .ok now⟩ => now
  | _ => 0

namespace SyncCycle

/-- The cycle after a call of it. -/
def after (cycle : SyncCycle) (taken : Performed device Thrown) (rest : Script SyncCount) :
    SyncCycle :=
  { cycle with
    reached := max cycle.reached (readCursor taken)
    past := cycle.past ++ [taken]
    rest := rest
    frame := none }

/-- The cycle after a command of the frame it waits for. -/
def handle (cycle : SyncCycle) (frame : PushedFrame) (taken : Performed node Raise)
    (rest : Program node Raise Reaction) : SyncCycle :=
  { cycle with
    reached :=
      if frame.event = Event.syncRequest then max cycle.reached (mergedClock taken)
      else cycle.reached
    frame := some { frame with made := frame.made ++ [taken], rest := rest } }

end SyncCycle

/-! ## Steps -/

structure FleetState where
  gateway : Gateway.System MessageTable
  /-- The messages whose write has succeeded. -/
  accepted : List Message
  devices : ℕ → DeviceState
  cycles : ℕ → Option SyncCycle

namespace FleetState

/-- An empty channel, and devices that have not synced yet. -/
def start : FleetState where
  gateway := Gateway.System.start KeyedTable.empty
  accepted := []
  devices _ := ⟨none, KeyedTable.empty⟩
  cycles _ := none

def table (state : FleetState) : MessageTable :=
  state.gateway.store

def setCycle (state : FleetState) (pid : ℕ) (cycle : SyncCycle) : FleetState :=
  { state with cycles := Function.update state.cycles pid (some cycle) }

def setDevice (state : FleetState) (device : ℕ) (target : DeviceState) : FleetState :=
  { state with devices := Function.update state.devices device target }

end FleetState

inductive FleetLabel where
  /-- A step of another socket or of a task. -/
  | gateway (label : SystemLabel)
  | began (pid device rounds : ℕ)
  | performed (pid : ℕ) (taken : Performed device Thrown)
  | asked (pid : ℕ)
  | handled (pid : ℕ) (taken : Performed node Raise)
  | answered (pid : ℕ)
  | lost (pid : ℕ)

/-- The command to the stores that is performed in a step. -/
def FleetLabel.command : FleetLabel → Option (Performed node Raise)
  | .gateway (.performed _ _ taken) => some taken
  | .handled _ taken => some taken
  | _ => none

namespace Fleet

variable (fleet : Fleet)

/-- The row is one of the channel. -/
def Owns (row : MessageRow) : Prop :=
  row.tenantId = fleet.tenantId.val ∧ row.channelId = fleet.channelId

instance (row : MessageRow) : Decidable (fleet.Owns row) :=
  inferInstanceAs (Decidable (_ ∧ _))

/-- The message of the channel that a command writes, if it succeeds. -/
def accepts : Performed node Raise → List Message
  | ⟨.inl (.insertMessage row), .ok (.ok ())⟩ => if fleet.Owns row then [row.message] else []
  | _ => []

def acceptedIn (label : FleetLabel) : List Message :=
  label.command.elim [] fleet.accepts

/-- The envelope in which the gateway sends a message of the channel. -/
def envelope (msg : Message) : Envelope :=
  messageEnvelope fleet.tenantId.val fleet.channelId msg

end Fleet

inductive FleetStep (fleet : Fleet) : FleetState → FleetLabel → FleetState → Prop where
  | gateway {state : FleetState} {label : SystemLabel} {target : Gateway.System MessageTable}
      (step : SystemStep fleet.native AnswersFrom state.gateway label target) :
      FleetStep fleet state (.gateway label)
        { state with
          gateway := target
          accepted := fleet.acceptedIn (.gateway label) ++ state.accepted }
  | began {state : FleetState} {pid device rounds : ℕ} (free : state.cycles pid = none) :
      FleetStep fleet state (.began pid device rounds)
        (state.setCycle pid
          ⟨device, state.accepted, 0, [], fleet.syncChannel device rounds, none⟩)
  | performed {state : FleetState} {pid : ℕ} {cycle : SyncCycle} {asked : Device.Call}
      {answer : Except Thrown (Device.Answer asked)}
      {next : Except Thrown (Device.Answer asked) → Script SyncCount} {target : DeviceState}
      (present : state.cycles pid = some cycle) (waits : cycle.rest = .call asked next)
      (carries : (state.devices cycle.owner).Carries ⟨asked, answer⟩ target) :
      FleetStep fleet state (.performed pid ⟨asked, answer⟩)
        ((state.setDevice cycle.owner target).setCycle pid
          (cycle.after ⟨asked, answer⟩ (next answer)))
  | asked {state : FleetState} {pid : ℕ} {cycle : SyncCycle} {topic payload : Bytes} {event : Byte}
      {next : Except Thrown Bytes → Script SyncCount} {socket : Socket} {ref topicId : ℕ}
      (present : state.cycles pid = some cycle)
      (waits : cycle.rest = .call (.push topic event payload) next) (silent : cycle.frame = none)
      (joined : PushedFrame.Joined fleet topic ⟨socket, ref, topicId, event, payload, [],
        nodeHandleIn fleet.native (pushFrame ref topicId event payload) socket⟩) :
      FleetStep fleet state (.asked pid)
        (state.setCycle pid { cycle with
          frame := some ⟨socket, ref, topicId, event, payload, [],
            nodeHandleIn fleet.native (pushFrame ref topicId event payload) socket⟩ })
  | handled {state : FleetState} {pid : ℕ} {cycle : SyncCycle} {frame : PushedFrame}
      {asked : node.Call} {answer : Except Raise (node.Answer asked)}
      {next : Except Raise (node.Answer asked) → Program node Raise Reaction}
      {stored : MessageTable}
      (present : state.cycles pid = some cycle) (waits : cycle.frame = some frame)
      (handles : frame.rest = .call asked next)
      (answered : AnswersFrom state.table ⟨asked, answer⟩ stored) :
      FleetStep fleet state (.handled pid ⟨asked, answer⟩)
        { state.setCycle pid (cycle.handle frame ⟨asked, answer⟩ (next answer)) with
          gateway := { state.gateway with
            pending := startedTasks ⟨asked, answer⟩ ++ state.gateway.pending
            store := stored }
          accepted := fleet.acceptedIn (.handled pid ⟨asked, answer⟩) ++ state.accepted }
  | answered {state : FleetState} {pid : ℕ} {cycle : SyncCycle} {frame : PushedFrame}
      {topic data : Bytes} {next : Except Thrown Bytes → Script SyncCount} {reaction : Reaction}
      (present : state.cycles pid = some cycle)
      (waits : cycle.rest = .call (.push topic frame.event frame.payload) next)
      (handling : cycle.frame = some frame) (handled : frame.rest = .done reaction)
      (pushed : reaction.pushed = [replyFrame frame.ref frame.topicId statusOk data]) :
      FleetStep fleet state (.answered pid)
        (state.setCycle pid
          (cycle.after ⟨.push topic frame.event frame.payload, .ok data⟩ (next (.ok data))))
  /-- The push is rejected before it is sent. -/
  | unsent {state : FleetState} {pid : ℕ} {cycle : SyncCycle} {topic payload : Bytes}
      {event : Byte} {next : Except Thrown Bytes → Script SyncCount} {thrown : Thrown}
      (present : state.cycles pid = some cycle)
      (waits : cycle.rest = .call (.push topic event payload) next) (silent : cycle.frame = none) :
      FleetStep fleet state (.lost pid)
        (state.setCycle pid
          (cycle.after ⟨.push topic event payload, .error thrown⟩ (next (.error thrown))))
  /-- The push is rejected while the gateway handles the frame, and goes on to do so. -/
  | lost {state : FleetState} {pid socketPid : ℕ} {cycle : SyncCycle} {frame : PushedFrame}
      {topic payload : Bytes} {event : Byte} {next : Except Thrown Bytes → Script SyncCount}
      {thrown : Thrown} (present : state.cycles pid = some cycle)
      (waits : cycle.rest = .call (.push topic event payload) next)
      (handling : cycle.frame = some frame)
      (free : state.gateway.processes socketPid = none) :
      FleetStep fleet state (.lost pid)
        { state.setCycle pid
            (cycle.after ⟨.push topic event payload, .error thrown⟩ (next (.error thrown))) with
          gateway := state.gateway.set socketPid
            (some (.handling frame.socket frame.data frame.rest)) }

/-! ## What the cycles deliver -/

/-- The messages that are due are in the local store at the end of the cycle. -/
def FleetState.Delivers (fleet : Fleet) (state : FleetState) (pid : ℕ) : Prop :=
  ∀ cycle count, state.cycles pid = some cycle → cycle.rest = .done count →
    ∀ msg ∈ cycle.due, (state.devices cycle.owner).Holds fleet.name msg

/-- The envelopes of the messages that a step stores in the channel are read by the devices,
with their times. -/
def Fleet.Legible (fleet : Fleet) (label : FleetLabel) : Prop :=
  ∀ row answer, label.command = some ⟨.inl (.insertMessage row), answer⟩ → fleet.Owns row →
    row.message.createdAt < exactBound ∧
      fleet.codec.Reads fleet.native (fleet.envelope row.message)

/-- The messages of the channel that some commands have read. -/
def Fleet.readIn (fleet : Fleet) (made : List (Performed node Raise)) : List Message :=
  made.flatMap fun
    | ⟨.inl (.selectMessages tenantId channelId _ _), .ok (.ok rows)⟩ =>
        if tenantId = fleet.tenantId.val ∧ channelId = fleet.channelId then
          rows.map MessageRow.message
        else []
    | _ => []

/-- A new message is later than every cursor, and than what every running cycle has reached. -/
structure FleetState.Fresh (fleet : Fleet) (state : FleetState) (msg : Message) : Prop where
  id : ∀ other ∈ fleet.messages state.table, other.messageId ≠ msg.messageId
  cursors : ∀ device, (state.devices device).cursor.getD 0 < msg.createdAt
  cycles : ∀ pid cycle, state.cycles pid = some cycle → cycle.rest.ended = false →
    cycle.reached < msg.createdAt

/-- The label is a command of the sync request that `frame` is for `cycle`. -/
def FleetState.Requests (state : FleetState) (cycle : SyncCycle) (frame : PushedFrame)
    (taken : Performed node Raise) (label : FleetLabel) : Prop :=
  ∃ pid, label = .handled pid taken ∧ state.cycles pid = some cycle ∧
    cycle.frame = some frame ∧ frame.event = Event.syncRequest

/-- No message is stored late; no sync request runs into more messages than it can return, into a
query that fails or is cut off before a message that is due, or into a clock that leaves out the
bucket of such a message or has passed a message it has not read; and no store is over its
limit. -/
structure Fleet.Timely (fleet : Fleet) (state : FleetState) (label : FleetLabel) : Prop where
  inserts : ∀ row answer, label.command = some ⟨.inl (.insertMessage row), answer⟩ →
    fleet.Owns row → row.message ∈ fleet.messages state.table ∨ state.Fresh fleet row.message
  starts : ∀ cycle frame now, state.Requests cycle frame ⟨.inl .systemTime, .ok now⟩ label →
    ∀ msg ∈ cycle.due, frame.since < msg.createdAt →
      TimeBucket.ofMs msg.createdAt ≤ max (TimeBucket.ofMs now) (TimeBucket.ofMs frame.since)
  reads : ∀ cycle frame bucketId limit answer, state.Requests cycle frame
      ⟨.inl (.selectMessages fleet.tenantId.val fleet.channelId bucketId limit), .ok answer⟩
        label →
    (newerMessages state.table fleet.tenantId.val fleet.channelId frame.since).length ≤ 100 ∧
      ∀ row ∈ newerMessages state.table fleet.tenantId.val fleet.channelId frame.since,
        row.message ∈ cycle.due → row.bucketId = bucketId → ∃ rows, answer = .ok rows ∧ row ∈ rows
  merges : ∀ cycle frame taken now, state.Requests cycle frame taken label →
    taken = ⟨.inr .systemTime, .ok now⟩ ∨ taken = ⟨.inr .nativeTime, .ok now⟩ →
      ∀ msg ∈ fleet.messages state.table, frame.since < msg.createdAt → msg.createdAt ≤ now →
        msg ∈ cycle.due ∨ msg ∈ fleet.readIn frame.made
  evicts : ∀ pid cycle channelId answer,
    label = .performed pid ⟨.evictOldMessages channelId, answer⟩ → state.cycles pid = some cycle →
      LocalStore.count (state.devices cycle.owner).messages (ascii channelId) ≤
        LocalStore.maxMessagesPerChannel

end Mercury.Sdk
