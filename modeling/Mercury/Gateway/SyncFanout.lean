import Mercury.Gateway.Connections
import Mercury.Gateway.Executions
import Mercury.Gateway.Routing
import Mercury.Gateway.Tenancy

/-!
# The fan-out of pushed deltas

A `sync:push` publishes its deltas on the NATS subject of the user. The sync consumer of
each node that has the subject broadcasts them on the PubSub topic `sync:fanout`. No
socket subscribes to that topic, and `handle_info` of a socket ignores the message, so
no device is ever told.
-/

namespace Mercury.Gateway

open Foundations Foundations.Program Persistence

/-! ## From NATS to PubSub -/

def syncFanoutTopic : Bytes :=
  ascii "sync:fanout"

namespace SyncConsumer

/-- How often NATS delivers a message on the subject: once for each subscription to it. -/
def deliveries (consumer : SyncConsumer) (subject : Bytes) : ℕ :=
  ((List.range consumer.nextSid).filter fun sid => consumer.subjects sid = some subject).length

end SyncConsumer

/-- The sync consumers of the nodes, and the sockets on them. PubSub reaches every node. -/
structure Cluster where
  consumers : List SyncConsumer
  sockets : ℕ → Option SocketProcess

/-- What is published on NATS. -/
def published (made : List (Performed calls Raise)) : List Publication :=
  made.filterMap fun
    | ⟨.natsPublish subject message, .ok (.ok ())⟩ => some ⟨subject, message⟩
    | _ => none

/-- NATS is up, and it takes every message. -/
structure NatsUp (made : List (Performed calls Raise)) : Prop where
  running : ∀ answer, ⟨.natsRunning, answer⟩ ∈ made → answer = .ok true
  publishes : ∀ subject message answer, ⟨.natsPublish subject message, answer⟩ ∈ made →
    answer = .ok (.ok ())

section Push

variable {native : Native} {cluster : Cluster} {channelId : Id16}

/-- A `sync:push` on the channel that is answered ok, while NATS is up. -/
structure AcceptedPush (native : Native) (cluster : Cluster) (channelId : Id16) where
  pid : ℕ
  process : SocketProcess
  present : cluster.sockets pid = some process
  data : Bytes
  push : ChannelPush process.socket.tenantId channelId process.socket data
  isPush : push.event = Event.syncPush
  made : List (Performed calls Raise)
  reply : Bytes
  performs : (handleIn native data process.socket).Performs made
    (.ok (replyOk process.socket push.ref push.topicId reply))
  natsUp : NatsUp made

/-- The deltas of the batch, which decodes where it is accepted (`published_made`). -/
def AcceptedPush.deltas (accepted : AcceptedPush native cluster channelId) : List Sync.Delta :=
  match pushedDeltas native (unpackEnvelopes accepted.push.payload) with
  | .ok deltas => deltas
  | .error _ => []

/-- No run of a socket subscribes to the topic of the fan-out. -/
theorem Routed.ignores_fanout {process : SocketProcess} (routed : Routed process) :
    syncFanoutTopic ∉ process.subscriptions := by
  intro mem
  rcases Finmap.mem_iff.mp ((routed.subscribed _).mp mem) with ⟨topicId, named⟩
  rcases routed.pubsubs _ topicId named with ⟨info, entry, carries⟩
  have owned : OwnedName process.socket.tenantId.val syncFanoutTopic := by
    rcases topic_of_pubsub (routed.entries topicId info entry) carries with
      ⟨hex, same, -⟩ | ⟨hex, same, -⟩
    · exact same ▸ ownedName_channelTopic _ _
    · exact same ▸ ownedName_presenceTopic _ _
  -- the name of the fan-out is too short to start with a tenant's id
  have long := owned.length_le
  simp [process.socket.tenantId.property, syncFanoutTopic, ascii] at long

/-- A socket that has joined the channel. -/
def SocketProcess.Joined (process : SocketProcess) (channelId : Id16) : Prop :=
  ∃ topicId info, process.socket.topicIds.lookup topicId = some info ∧ info.Names channelId.val ∧
    info.pubsub = some (channelTopic process.socket.tenantId.val (Base.encode16 channelId.val))

end Push

/-! ## Two devices of one user -/

end Mercury.Gateway
