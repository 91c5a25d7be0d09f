import Mathlib.Data.Finmap
import Mercury.Core.Hlc
import Mercury.Core.Validate
import Mercury.Persistence.Members
import Mercury.Persistence.Sync

/-!
# What a socket process calls

The calls that `Gateway.BinarySocket` makes to the persistence application, to
PubSub, NATS, the presence tracker and the clocks, and the Cap'n Proto codecs of
the NIF library, which are parameters.
-/

namespace Mercury.Gateway

open Persistence

/-- The fields of an envelope, as `envelope_decode` returns them. -/
structure Envelope where
  tenantId : Bytes
  channelId : Bytes
  senderId : Bytes
  messageId : Bytes
  timestamp : ℕ
  payload : Bytes
deriving DecidableEq

/-- What `safe_nif_call` makes of a decoder. A decoder that fails raises nothing: it returns
the term `{:error, message}`, and the call answers `{:ok, {:error, message}}`. Only an
exception of the NIF is answered as `{:error, reason}`. -/
abbrev NifAnswer (Value : Type) := Except Bytes (Except Bytes Value)

/-- The Cap'n Proto NIFs, the decoders as `safe_nif_call` answers for them, and the build of
the library. -/
structure Native where
  build : Build
  envelopeEncode : Envelope → Bytes
  envelopeDecode : Bytes → NifAnswer Envelope
  typingEncode : Bytes → Bytes
  readReceiptEncode : Bytes → Bytes → Bytes
  readReceiptDecode : Bytes → NifAnswer (Bytes × Bytes)
  mlsKeyPackageDecode : Bytes → NifAnswer Bytes
  mlsKeyPackageListEncode : List Bytes → Bytes
  mlsCommitDecode : Bytes → NifAnswer Bytes

/-- A task of `Gateway.TaskSupervisor`. -/
inductive BackgroundTask where
  | persistMessage (tenantId channelId : Bytes) (bucket : ℕ) (msg : Message)
  | updateReadPosition (tenantId userId channelId messageId : Bytes)
deriving DecidableEq

/-- A message published on NATS, before it is encoded as JSON. -/
inductive NatsMessage where
  | message (messageId senderId : Bytes) (contentType createdAt : ℕ)
  | cacheInvalidation (type tenantId targetId : Bytes)
  | syncFanout (deviceId : Bytes) (deltas : List Sync.Delta)
deriving DecidableEq

/-- A user as `warm_user_cache` caches it. -/
structure CachedUser where
  userId : Bytes
  displayName : Option Bytes
  avatarUrl : Option Bytes
deriving DecidableEq

inductive Status where
  | online
  | away
deriving DecidableEq

inductive Call where
  | systemTime
  /-- A reading of the system clock inside a NIF. -/
  | nativeTime
  | generateChannelId
  | scyllaEnabled
  | natsRunning
  | natsPublish (subject : Bytes) (message : NatsMessage)
  | startTask (task : BackgroundTask)
  | subscribe (topic : Bytes)
  | unsubscribe (topic : Bytes)
  | broadcast (topic : Bytes) (event : Byte) (payload : Bytes)
  | broadcastFrom (topic : Bytes) (event : Byte) (payload : Bytes)
  | track (topic userId deviceId : Bytes) (lastSeen : ℕ)
  | updatePresence (topic userId : Bytes) (status : Status)
  | allow (tenantId userId : Bytes)
  | isMember (tenantId channelId userId : Bytes)
  | listMembers (tenantId channelId : Bytes)
  | addMember (tenantId channelId userId : Bytes)
  | getRole (tenantId channelId userId : Bytes)
  | removeMember (tenantId channelId userId : Bytes)
  | readRecent (tenantId channelId : Bytes) (limit : ℕ)
  | writeMessage (tenantId channelId : Bytes) (bucket : ℕ) (msg : Message)
  | invalidateRecent (tenantId channelId : Bytes)
  | updateReadPosition (tenantId userId channelId messageId : Bytes)
  | getDeltas (tenantId channelId : Bytes) (sinceHlcWall limit : ℕ)
  | applyDeltas (tenantId channelId : Bytes) (deltas : List Sync.Delta)
  | updateCursor (tenantId userId deviceId channelId : Bytes) (wall counter : ℕ)
  | getMlsCreator (tenantId channelId : Bytes)
  | setMlsCreator (tenantId channelId userId : Bytes)
  | uploadKeyPackage (tenantId deviceId keyPackage : Bytes)
  | fetchKeyPackages (tenantId userId : Bytes)
  | getCachedUser (tenantId userId : Bytes)
  | findUser (tenantId userId : Bytes)
  | putCachedUser (tenantId userId : Bytes) (user : CachedUser)
deriving DecidableEq

abbrev Call.Answer : Call → Type
  | .systemTime | .nativeTime => ℕ
  | .generateChannelId => Bytes
  | .scyllaEnabled | .natsRunning => Bool
  | .natsPublish .. => Except Bytes Unit
  | .startTask _ | .subscribe _ | .unsubscribe _ => Unit
  | .broadcast .. | .broadcastFrom .. | .track .. | .updatePresence .. => Unit
  | .allow .. => Bool
  | .isMember .. => Except Unit Bool
  | .listMembers .. => Members.Listing
  | .addMember .. => Except Bytes Unit
  | .getRole .. => Members.RoleLookup
  | .removeMember .. => Except Bytes Unit
  | .readRecent .. => List Message
  | .writeMessage .. => Except Bytes Unit
  | .invalidateRecent .. => Unit
  | .updateReadPosition .. => Except Bytes Unit
  | .getDeltas .. => Sync.DeltaPage
  | .applyDeltas .. => Except Unit ℕ
  | .updateCursor .. => Except Bytes Unit
  | .getMlsCreator .. => Option Bytes
  | .setMlsCreator .. => Unit
  | .uploadKeyPackage .. => Except Bytes Unit
  | .fetchKeyPackages .. => List Bytes
  | .getCachedUser .. => Bool
  -- the error is an exception that `warm_user_cache` rescues
  | .findUser .. => Except Unit (Option CachedUser)
  | .putCachedUser .. => Unit

abbrev calls : Foundations.Interface where
  Call := Call
  Answer := Call.Answer

/-- A function of the gateway. -/
abbrev Handler (Result : Type) := Foundations.Program calls Raise Result

def call (asked : Call) : Handler asked.Answer :=
  @Foundations.Program.perform calls Raise asked

end Mercury.Gateway
