import Mercury.Gateway.Call
import Mercury.Persistence.MemberStore

/-!
# Single commands of a node

What a socket process, a task or the consumer does in one step: a reading of a
clock, a command to Redis, ScyllaDB or Postgres, or a message to PubSub, NATS or
the task supervisor. Names of Redis keys, PubSub topics and NATS subjects are
the texts that the source builds.
-/

namespace Mercury.Gateway

open Persistence

/-- A row of `mercury.reactions`. -/
structure ReactionRow where
  tenantId : Bytes
  channelId : Bytes
  messageId : Bytes
  userId : Bytes
  emoji : Bytes
  createdAt : ℕ
deriving DecidableEq

def ReactionRow.key (row : ReactionRow) : Bytes × Bytes × Bytes × Bytes × Bytes :=
  (row.tenantId, row.channelId, row.messageId, row.userId, row.emoji)

/-- A row of `mercury.read_positions`. -/
structure ReadPositionRow where
  tenantId : Bytes
  userId : Bytes
  channelId : Bytes
  lastReadMessageId : Bytes
  updatedAt : ℕ
deriving DecidableEq

def ReadPositionRow.key (row : ReadPositionRow) : Bytes × Bytes × Bytes :=
  (row.tenantId, row.userId, row.channelId)

/-- A row of `sync_cursors`. -/
structure CursorRow where
  tenantId : Id16
  userId : Id16
  deviceId : Id16
  channelId : Id16
  lastHlcWall : ℕ
  lastHlcCounter : ℕ
  lastHlcNode : Bytes
  updatedAt : ℕ
deriving DecidableEq

abbrev CursorKey := Id16 × Id16 × Id16 × Id16

def CursorRow.key (row : CursorRow) : CursorKey :=
  (row.tenantId, row.userId, row.deviceId, row.channelId)

/-- `BIGINT` and `INT` are signed. -/
def CursorRow.FitsColumns (row : CursorRow) : Prop :=
  row.lastHlcWall < 2 ^ 63 ∧ row.lastHlcCounter < 2 ^ 31

instance (row : CursorRow) : Decidable row.FitsColumns :=
  inferInstanceAs (Decidable (_ ∧ _))

/-- A row of `tenants`. -/
structure TenantRow where
  tenantId : Id16
  name : Bytes
  plan : Bytes
  maxUsers : ℕ
  maxChannels : ℕ
  rateLimitPerUser : ℕ
  createdAt : ℕ
deriving DecidableEq

/-- A row of `users`. -/
structure UserRow where
  tenantId : Id16
  userId : Id16
  displayName : Option Bytes
  avatarUrl : Option Bytes
  createdAt : ℕ
deriving DecidableEq

def UserRow.key (row : UserRow) : Id16 × Id16 :=
  (row.tenantId, row.userId)

/-- A row of `devices`. -/
structure DeviceRow where
  tenantId : Id16
  deviceId : Id16
  userId : Id16
  deviceName : Bytes
  platform : Bytes
  mlsKeyPackage : Option Bytes
  createdAt : ℕ
deriving DecidableEq

def DeviceRow.key (row : DeviceRow) : Id16 × Id16 :=
  (row.tenantId, row.deviceId)

inductive Command where
  | time
  | generateId
  /-- A setting of the node, or whether one of its connections is up. -/
  | setting
  | natsPublish (subject : Bytes) (message : NatsMessage)
  | startTask (task : BackgroundTask)
  | subscribe (topic : Bytes)
  | unsubscribe (topic : Bytes)
  | broadcast (topic : Bytes) (event : Byte) (payload : Bytes)
  | broadcastFrom (topic : Bytes) (event : Byte) (payload : Bytes)
  | track (topic userId deviceId : Bytes) (lastSeen : ℕ)
  | updatePresence (topic userId : Bytes) (status : Status)
  -- Redis
  | get (key : Bytes)
  | setex (key value : Bytes)
  /-- `SET` with `NX`. -/
  | setNew (key value : Bytes)
  | del (key : Bytes)
  | smembers (key : Bytes)
  /-- The pipeline `DEL`, `SADD`, `EXPIRE` on one key. -/
  | replaceSet (key : Bytes) (members : List Bytes)
  /-- The pipeline `INCR`, `EXPIRE` on one key. -/
  | incr (key : Bytes)
  -- ScyllaDB
  | insertMessage (row : MessageRow)
  | selectMessages (tenantId channelId : Bytes) (bucketId limit : ℕ)
  | insertReaction (tenantId channelId messageId userId : Bytes) (emoji : Option Bytes)
  | selectReadPosition (tenantId userId channelId : Bytes)
  | insertReadPosition (tenantId userId channelId messageId : Bytes)
  -- Postgres
  | selectMemberIds (tenantId channelId : Id16)
  | selectRole (tenantId channelId userId : Id16)
  | insertMember (tenantId channelId userId : Id16) (role : ℕ)
  | deleteMember (tenantId channelId userId : Id16)
  | upsertCursor (row : CursorRow)
  | updateKeyPackage (tenantId deviceId : Id16) (keyPackage : Bytes)
  | selectKeyPackages (tenantId userId : Id16)
  | selectUser (tenantId userId : Id16)
  | insertTenant (row : TenantRow)
  | insertUser (row : UserRow)
  | insertDevice (row : DeviceRow)
deriving DecidableEq

abbrev Command.Answer : Command → Type
  | .time => ℕ
  | .generateId => Bytes
  | .setting => Bool
  | .natsPublish .. => Except Bytes Unit
  | .startTask _ | .subscribe _ | .unsubscribe _ => Unit
  | .broadcast .. | .broadcastFrom .. | .track .. | .updatePresence .. => Unit
  | .get _ => Except Unit (Option Bytes)
  | .setex .. | .setNew .. | .del _ | .replaceSet .. => Except Unit Unit
  | .smembers _ => Except Unit (List Bytes)
  -- a reply that is not an integer is an error of Redis
  | .incr _ => Except Unit (Option ℕ)
  | .insertMessage _ => Except Bytes Unit
  | .selectMessages .. => Except Bytes (List MessageRow)
  | .insertReaction .. => Except Bytes Unit
  | .selectReadPosition .. => Except Bytes (Option Bytes)
  | .insertReadPosition .. => Except Bytes Unit
  | .selectMemberIds .. => List Id16
  | .selectRole .. => Option ℕ
  | .insertMember .. => Except Bytes Unit
  | .deleteMember .. => ℕ
  | .upsertCursor _ => Except Bytes Unit
  | .updateKeyPackage .. => ℕ
  | .selectKeyPackages .. => List Bytes
  | .selectUser .. => Option CachedUser
  | .insertTenant _ | .insertUser _ | .insertDevice _ => Except Bytes Unit

abbrev commands : Foundations.Interface where
  Call := Command
  Answer := Command.Answer

/-- A function of the node, down to its single commands. -/
abbrev Stored (Result : Type) := Foundations.Program commands Raise Result

def send (command : Command) : Stored command.Answer :=
  @Foundations.Program.perform commands Raise command

end Mercury.Gateway
