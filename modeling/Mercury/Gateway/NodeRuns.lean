import Mathlib.Data.List.Perm.Subperm
import Mercury.Gateway.Stores

/-!
# A node with all of its tenants

The socket processes and tasks of a node, its PubSub, the stores behind it, NATS
with the consumer of the node, and the garbage collector of sync cursors. A step
is determined by its label: who takes it, and what the outside contributes.
Processes are known by their tenant and a number.

A broadcast goes to the processes that are subscribed when it is made, to each as a
message of its own. What one process sends another arrives in the order in which it was
sent; what different processes send arrives in any order, at each of the subscribers in
its own.
-/

namespace Mercury.Gateway

open Foundations Persistence

/-- A PubSub broadcast in a mailbox. -/
structure Mail where
  topic : Bytes
  event : Byte
  payload : Bytes
deriving DecidableEq

/-- What waits for a process, by the process that sent it. -/
abbrev Mailbox := Id16 × ℕ → List Mail

structure Subscription where
  topic : Bytes
  tenantId : Id16
  pid : ℕ
deriving DecidableEq

/-- A process: a socket that waits, a socket with what it has still to do, or a task. -/
inductive Worker where
  | idle (socket : Socket)
  | handling (rest : Stored Reaction)
  | running (rest : Stored Unit)

/-- The next command of a process, and how it goes on. -/
structure NextCommand where
  command : Command
  resume : Except Raise command.Answer → Worker

def Worker.next : Worker → Option NextCommand
  | .handling (.call command rest) => some ⟨command, fun answer => .handling (rest answer)⟩
  | .running (.call command rest) => some ⟨command, fun answer => .running (rest answer)⟩
  | _ => none

structure Node where
  workers : Id16 → ℕ → Option Worker
  mailboxes : Id16 → ℕ → Mailbox
  /-- The frames pushed to the sockets of each tenant. -/
  pushed : Id16 → List (ℕ × List Bytes)
  /-- The tasks that have not started yet. -/
  pending : Id16 → List BackgroundTask
  subscriptions : List Subscription
  stores : Stores
  published : List Publication
  /-- Cache invalidations on their way to the consumer. -/
  arriving : List Publication
  /-- The newest cutoff of the garbage collector. -/
  collected : ℕ

/-- What happens to a process. -/
inductive WorkerEvent where
  | connected (userId deviceId : Id16)
  | received (data : Bytes)
  | performed (moment : Moment)
  | answered
  /-- The next message of the sender arrives. -/
  | delivered (sender : Id16 × ℕ)
  /-- The timer of the heartbeats. -/
  | checked
  | ended
  /-- A task starts, the one at this place. -/
  | started (index : ℕ)

inductive NodeLabel where
  | worker (tenantId : Id16) (pid : ℕ) (event : WorkerEvent)
  /-- The consumer takes an invalidation for the tenant with this hex id. -/
  | consumed (tenantHex : Bytes) (applied : Bool)
  /-- A key of Redis expires. -/
  | expired (key : Bytes)
  /-- The garbage collector runs. -/
  | collected (now : ℕ) (deleted : List CursorRow)

/-- `handle_info` on a `:heartbeat_check`; `none` stops the socket. -/
def Socket.heartbeatCheck (socket : Socket) : Option Socket :=
  if 3 ≤ socket.missedHeartbeats + 1 then none
  else some { socket with missedHeartbeats := socket.missedHeartbeats + 1 }

/-- The key that `handle_cache_invalidation` deletes. -/
def invalidatedKey (type tenantHex targetHex : Bytes) : Option Bytes :=
  match Base.decode16 tenantHex, Base.decode16 targetHex with
  | some tenantId, some targetId =>
      if type = ascii "recent" then some (Cache.recentKey tenantId targetId)
      else if type = ascii "user" then some (Cache.userKey tenantId targetId)
      else if type = ascii "members" then some (Persistence.Cache.membersKey tenantId targetId)
      else none
  | _, _ => none

/-- The tenant that an invalidation names. -/
def Publication.tenantHex (publication : Publication) : Option Bytes :=
  match publication.message with
  | .cacheInvalidation _ tenantHex _ => some tenantHex
  | _ => none

namespace GcWorker

def maxDeletes : ℕ := 10000

/-- Ninety days, in milliseconds. -/
def cursorTtl : ℕ := 90 * 24 * 60 * 60 * 1000

/-- The cursors that a run of the collector may delete: no more than `maxDeletes`,
whichever the database finds first. -/
def expiredCursors (cutoff : ℕ) (cursors : KeyedTable CursorRow.key) : List CursorRow :=
  cursors.rows.filter fun row => row.updatedAt < cutoff

def Deletes (cutoff : ℕ) (cursors : KeyedTable CursorRow.key) (deleted : List CursorRow) : Prop :=
  List.Subperm deleted (expiredCursors cutoff cursors) ∧
    deleted.length = min maxDeletes (expiredCursors cutoff cursors).length

instance (cutoff : ℕ) (cursors : KeyedTable CursorRow.key) (deleted : List CursorRow) :
    Decidable (Deletes cutoff cursors deleted) :=
  inferInstanceAs (Decidable (_ ∧ _))

end GcWorker

namespace Node

def setWorker (tenantId : Id16) (pid : ℕ) (worker : Option Worker) (node : Node) : Node :=
  { node with
    workers := Function.update node.workers tenantId
      (Function.update (node.workers tenantId) pid worker) }

def push (tenantId : Id16) (pid : ℕ) (frames : List Bytes) (node : Node) : Node :=
  { node with
    pushed := Function.update node.pushed tenantId (node.pushed tenantId ++ [(pid, frames)]) }

def setMailbox (tenantId : Id16) (pid : ℕ) (mailbox : Mailbox) (node : Node) : Node :=
  { node with
    mailboxes := Function.update node.mailboxes tenantId
      (Function.update (node.mailboxes tenantId) pid mailbox) }

def setPending (tenantId : Id16) (tasks : List BackgroundTask) (node : Node) : Node :=
  { node with pending := Function.update node.pending tenantId tasks }

/-- A process is gone, and with it its mailbox and its subscriptions. -/
def remove (tenantId : Id16) (pid : ℕ) (node : Node) : Node :=
  { (node.setWorker tenantId pid none).setMailbox tenantId pid (fun _ => []) with
    subscriptions := node.subscriptions.filter fun subscription =>
      ¬(subscription.tenantId = tenantId ∧ subscription.pid = pid) }

/-- The sender sends each subscriber the broadcast, once for each subscription. -/
def broadcast (sender : Id16 × ℕ) (mail : Mail) (except : Option (Id16 × ℕ)) (node : Node) :
    Node :=
  { node with
    mailboxes := fun tenantId pid => Function.update (node.mailboxes tenantId pid) sender
      (node.mailboxes tenantId pid sender ++
        (node.subscriptions.filter fun subscription =>
          subscription = ⟨mail.topic, tenantId, pid⟩ ∧ except ≠ some (tenantId, pid)).map
            fun _ => mail) }

def publish (publication : Publication) (node : Node) : Node :=
  { node with
    published := node.published ++ [publication]
    arriving :=
      if publication.subject = ascii "mercury.cache.invalidate" then
        node.arriving ++ [publication]
      else node.arriving }

/-- The answer to a command of a process, and the node after it. -/
def perform (tenantId : Id16) (pid : ℕ) (moment : Moment) (node : Node) :
    (command : Command) → Except Raise command.Answer × Node
  | .time => (.ok moment.time, node)
  | .generateId => (.ok moment.id, node)
  | .setting => (.ok moment.setting, node)
  | .natsPublish subject message =>
      (moment.fate.answer (.natsPublish subject message) (.ok (.ok ())),
        if moment.fate.applies then node.publish ⟨subject, message⟩ else node)
  | .startTask task => (.ok (), node.setPending tenantId (node.pending tenantId ++ [task]))
  | .subscribe topic =>
      (.ok (), { node with subscriptions := node.subscriptions ++ [⟨topic, tenantId, pid⟩] })
  | .unsubscribe topic =>
      (.ok (), { node with
        subscriptions := node.subscriptions.filter fun subscription =>
          subscription ≠ ⟨topic, tenantId, pid⟩ })
  | .broadcast topic event payload =>
      (.ok (), node.broadcast (tenantId, pid) ⟨topic, event, payload⟩ none)
  | .broadcastFrom topic event payload =>
      (.ok (), node.broadcast (tenantId, pid) ⟨topic, event, payload⟩ (some (tenantId, pid)))
  -- what the presence tracker sends to sockets, they ignore
  | .track .. => (.ok (), node)
  | .updatePresence .. => (.ok (), node)
  | command =>
      let executed := node.stores.execute moment command
      (moment.fate.answer command executed.1,
        if moment.fate.applies then { node with stores := executed.2 } else node)

variable (native : Native) (json : Json) (rate : ℕ)

/-- What an event of a process leads to, where it can happen. -/
def workerStep (tenantId : Id16) (pid : ℕ) (node : Node) : WorkerEvent → Option Node
  | .connected userId deviceId =>
      match node.workers tenantId pid with
      | none =>
          some (node.setWorker tenantId pid
            (some (.handling (initSocket tenantId userId deviceId))))
      | some _ => none
  | .received data =>
      match node.workers tenantId pid with
      | some (.idle socket) =>
          some (node.setWorker tenantId pid
            (some (.handling (storedHandleIn native json rate data socket))))
      | _ => none
  | .performed moment =>
      ((node.workers tenantId pid).bind Worker.next).map fun next =>
        let performed := node.perform tenantId pid moment next.command
        performed.2.setWorker tenantId pid (some (next.resume performed.1))
  | .answered =>
      match node.workers tenantId pid with
      | some (.handling (.done reaction)) =>
          some ((node.setWorker tenantId pid (some (.idle reaction.socket))).push tenantId pid
            reaction.pushed)
      | _ => none
  | .delivered sender =>
      match node.workers tenantId pid, node.mailboxes tenantId pid sender with
      | some (.idle socket), mail :: rest =>
          let reaction := handleBroadcast mail.topic mail.event mail.payload socket
          some (((node.setWorker tenantId pid (some (.idle reaction.socket))).setMailbox tenantId
            pid (Function.update (node.mailboxes tenantId pid) sender rest)).push tenantId pid
              reaction.pushed)
      | _, _ => none
  | .checked =>
      match node.workers tenantId pid with
      | some (.idle socket) =>
          match socket.heartbeatCheck with
          | some checked => some (node.setWorker tenantId pid (some (.idle checked)))
          | none => some (node.remove tenantId pid)
      | _ => none
  -- a process returns, raises or is killed
  | .ended => some (node.remove tenantId pid)
  | .started index =>
      match node.workers tenantId pid, (node.pending tenantId)[index]? with
      | none, some task =>
          some ((node.setWorker tenantId pid
            (some (.running (storedRunTask json rate task)))).setPending tenantId
              ((node.pending tenantId).eraseIdx index))
      | _, _ => none

/-- The consumer handles an invalidation. -/
def consume (publication : Publication) (applied : Bool) (node : Node) : Node :=
  match publication.message with
  | .cacheInvalidation type tenantHex targetHex =>
      match invalidatedKey type tenantHex targetHex with
      | some key =>
          if applied then { node with stores := node.stores.setRedis key none } else node
      | none => node
  | _ => node

def step (node : Node) : NodeLabel → Option Node
  | .worker tenantId pid event => node.workerStep native json rate tenantId pid event
  | .consumed tenantHex applied =>
      match node.arriving with
      | [] => none
      | publication :: rest =>
          if publication.tenantHex = some tenantHex then
            some ({ node with arriving := rest }.consume publication applied)
          else none
  | .expired key => some { node with stores := node.stores.setRedis key none }
  | .collected now deleted =>
      let cutoff := now - GcWorker.cursorTtl
      if GcWorker.Deletes cutoff node.stores.cursors deleted then
        some { node with
          stores := { node.stores with
            cursors := node.stores.cursors.filter fun row => row ∉ deleted }
          collected := max node.collected cutoff }
      else none

/-- The steps of a node as a transition system. -/
def Step (node : Node) (label : NodeLabel) (next : Node) : Prop :=
  node.step native json rate label = some next

/-- No process runs yet. -/
def start (stores : Stores) : Node where
  workers _ _ := none
  mailboxes _ _ _ := []
  pushed _ := []
  pending _ := []
  subscriptions := []
  stores := stores
  published := []
  arriving := []
  collected := 0

end Node

end Mercury.Gateway
