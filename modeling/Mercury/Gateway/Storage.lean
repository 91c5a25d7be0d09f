import Mercury.Gateway.BinarySocket
import Mercury.Gateway.Commands

/-!
# The rest of the persistence application

The functions of `Cache`, `Messages`, `ReadPositions`, `KeyPackages`, `Sync` and
`Provisioning` that a socket calls, down to single commands, and with them every
call of a socket (`stored`).
-/

namespace Mercury.Gateway

open Foundations Foundations.Program Persistence

/-- A message in the cache, with its binaries in base 64. -/
structure CachedMessage where
  mid : Option Bytes
  sid : Option Bytes
  ec : Option Bytes
  ct : ℕ
  ca : ℕ
  rt : Option Bytes
deriving DecidableEq

/-- `Jason`, on what the cache holds. -/
structure Json where
  encodeUser : CachedUser → Bytes
  decodes : Bytes → Bool
  encodeMessages : List CachedMessage → Bytes
  decodeMessages : Bytes → Option (List CachedMessage)

/-- JSON, where no entry of the cache is ever read or written. -/
def unusedJson : Json where
  encodeUser _ := []
  decodes _ := false
  encodeMessages _ := []
  decodeMessages _ := none

/-! ## Keys of the cache -/

namespace Cache

def userKey (tenantId userId : Bytes) : Bytes :=
  Base.encode16 tenantId ++ ascii ":user:" ++ Base.encode16 userId

def recentKey (tenantId channelId : Bytes) : Bytes :=
  Base.encode16 tenantId ++ ascii ":ch:" ++ Base.encode16 channelId ++ ascii ":recent"

def rateKey (tenantId userId : Bytes) : Bytes :=
  Base.encode16 tenantId ++ ascii ":rl:" ++ Base.encode16 userId

def mlsCreatorKey (tenantId channelId : Bytes) : Bytes :=
  Base.encode16 tenantId ++ ascii ":ch:" ++ Base.encode16 channelId ++ ascii ":mls_creator"

/-! ## The user cache -/

/-- Whether `get_user` hits; a corrupt entry is deleted. -/
def getUser (json : Json) (tenantId userId : Bytes) : Stored Bool := do
  match ← send (.get (userKey tenantId userId)) with
  | .ok none => pure false
  | .ok (some text) =>
      if json.decodes text then pure true
      else do
        let _ ← send (.del (userKey tenantId userId))
        pure false
  | .error _ => pure false

def putUser (json : Json) (tenantId userId : Bytes) (user : CachedUser) : Stored Unit := do
  let _ ← send (.setex (userKey tenantId userId) (json.encodeUser user))
  pure ()

/-! ## The recent messages -/

def serializeMessage (msg : Message) : CachedMessage where
  mid := some (Base.encode64 msg.messageId)
  sid := some (Base.encode64 msg.senderId)
  ec := some (Base.encode64 msg.encryptedContent)
  ct := msg.contentType
  ca := msg.createdAt
  rt := msg.replyTo.map Base.encode64

def deserializeMessage (item : CachedMessage) : Option Message := do
  let messageId ← Base.decode64 (item.mid.getD [])
  let senderId ← Base.decode64 (item.sid.getD [])
  let encryptedContent ← Base.decode64 (item.ec.getD [])
  pure
    { messageId := messageId
      senderId := senderId
      encryptedContent := encryptedContent
      contentType := item.ct
      replyTo := item.rt.bind Base.decode64
      createdAt := item.ca }

def getRecentMessages (json : Json) (tenantId channelId : Bytes) :
    Stored (Option (List Message)) := do
  match ← send (.get (recentKey tenantId channelId)) with
  | .ok none => pure none
  | .ok (some text) =>
      match (json.decodeMessages text).bind fun items => items.mapM deserializeMessage with
      | some msgs => pure (some msgs)
      | none => do
          let _ ← send (.del (recentKey tenantId channelId))
          pure none
  | .error _ => pure none

def putRecentMessages (json : Json) (tenantId channelId : Bytes) (messages : List Message) :
    Stored Unit := do
  let _ ← send (.setex (recentKey tenantId channelId)
    (json.encodeMessages (messages.map serializeMessage)))
  pure ()

def invalidateRecentMessages (tenantId channelId : Bytes) : Stored Unit := do
  let _ ← send (.del (recentKey tenantId channelId))
  pure ()

/-! ## The rate limiter and the creators of MLS groups -/

/-- Whether `rate_check` allows; an unreachable cache does. -/
def rateCheck (tenantId userId : Bytes) (limit : ℕ) : Stored Bool := do
  match ← send (.incr (rateKey tenantId userId)) with
  | .ok (some count) => pure (count ≤ limit)
  | .ok none => pure false
  | .error _ => pure true

def getMlsCreator (tenantId channelId : Bytes) : Stored (Option Bytes) := do
  match ← send (.get (mlsCreatorKey tenantId channelId)) with
  | .ok none => pure none
  | .ok (some hex) =>
      match Base.decode16 hex with
      | some bin => pure (some bin)
      | none => do
          let _ ← send (.del (mlsCreatorKey tenantId channelId))
          pure none
  | .error _ => pure none

def setMlsCreator (tenantId channelId userId : Bytes) : Stored Unit := do
  let _ ← send (.setNew (mlsCreatorKey tenantId channelId) (Base.encode16 userId))
  pure ()

end Cache

/-! ## Messages, read positions, key packages and cursors -/

namespace Messages

def read (tenantId channelId : Bytes) (bucketId limit : ℕ) :
    Stored (Except Bytes (List Message)) := do
  match ← send (.selectMessages tenantId channelId bucketId limit) with
  | .ok page => pure (.ok (page.map MessageRow.message))
  | .error reason => pure (.error reason)

def readRecentFromScylla (tenantId channelId : Bytes) (limit : ℕ) : Stored (List Message) := do
  let now ← send .time
  let nowBucket ← ofExcept (TimeBucket.compute now)
  match ← read tenantId channelId nowBucket limit with
  | .error _ => pure []
  | .ok msgs =>
      if msgs.length < limit then
        match nowBucket with
        -- no message is in a bucket before the first one
        | 0 => pure msgs
        | older + 1 =>
            match ← read tenantId channelId older (limit - msgs.length) with
            | .ok more => pure (msgs ++ more)
            | .error _ => pure msgs
      else pure msgs

/-- What a miss of the cache leads to. -/
def refreshRecent (json : Json) (tenantId channelId : Bytes) (limit : ℕ) :
    Stored (List Message) := do
  let msgs ← readRecentFromScylla tenantId channelId limit
  if msgs ≠ [] then Cache.putRecentMessages json tenantId channelId msgs
  pure msgs

def readRecent (json : Json) (tenantId channelId : Bytes) (limit : ℕ) :
    Stored (List Message) := do
  match ← Cache.getRecentMessages json tenantId channelId with
  | some cached =>
      if limit ≤ cached.length then pure (cached.take limit)
      else refreshRecent json tenantId channelId limit
  | none => refreshRecent json tenantId channelId limit

end Messages

namespace ReadPositions

/-- The position, unless there is none or it cannot be read. -/
def get (tenantId userId channelId : Bytes) : Stored (Option Bytes) := do
  match ← send (.selectReadPosition tenantId userId channelId) with
  | .ok position => pure position
  | .error _ => pure none

def update (tenantId userId channelId messageId : Bytes) : Stored (Except Bytes Unit) := do
  match ← get tenantId userId channelId with
  | some current =>
      if messageId ≤ current then pure (.ok ())
      else send (.insertReadPosition tenantId userId channelId messageId)
  | none => send (.insertReadPosition tenantId userId channelId messageId)

end ReadPositions

namespace KeyPackages

def upload (tenantId deviceId keyPackage : Bytes) : Stored (Except Bytes Unit) := do
  match Id16.ofBytes tenantId, Id16.ofBytes deviceId with
  | some tid, some did =>
      let count : ℕ ← send (.updateKeyPackage tid did keyPackage)
      if 0 < count then pure (.ok ()) else pure (.error (ascii "device_not_found"))
  | _, _ => pure (.error (ascii "invalid_id"))

def fetch (tenantId userId : Bytes) : Stored (List Bytes) := do
  match Id16.ofBytes tenantId, Id16.ofBytes userId with
  | some tid, some uid => send (.selectKeyPackages tid uid)
  | _, _ => pure []

end KeyPackages

/-- `Sync.update_cursor`. -/
def updateCursor (tenantId userId deviceId channelId : Bytes) (wall counter : ℕ) :
    Stored (Except Bytes Unit) := do
  match Id16.ofBytes tenantId, Id16.ofBytes userId, Id16.ofBytes deviceId,
    Id16.ofBytes channelId with
  | some tid, some uid, some did, some cid =>
      let now ← send .time
      send (.upsertCursor
        { tenantId := tid
          userId := uid
          deviceId := did
          channelId := cid
          lastHlcWall := wall
          lastHlcCounter := counter
          lastHlcNode := [0]
          updatedAt := now })
  | _, _, _, _ => pure (.ok ())

/-- The query of `warm_user_cache`, whose exceptions it rescues. -/
def findUser (tenantId userId : Bytes) : Stored (Except Unit (Option CachedUser)) :=
  rescue
    (match Id16.ofBytes tenantId, Id16.ofBytes userId with
    | some tid, some uid => do
        let user ← send (.selectUser tid uid)
        pure (.ok user)
    | _, _ => pure (.ok none))
    fun _ => pure (.error ())

/-- `Provisioning.ensure_device`. -/
def ensureDevice (tenantId userId deviceId : Id16) : Stored (Except Bytes Unit) := do
  let now ← send .time
  match ← send (.insertTenant ⟨tenantId, ascii "default", ascii "free", 1000, 100, 100, now⟩) with
  | .error reason => pure (.error reason)
  | .ok _ =>
      match ← send (.insertUser ⟨tenantId, userId, some (ascii "user"), none, now⟩) with
      | .error reason => pure (.error reason)
      | .ok _ =>
          send (.insertDevice
            ⟨tenantId, deviceId, userId, ascii "browser", ascii "web", none, now⟩)

/-! ## Every call of a socket -/

def storedBackend : (asked : Backend.Call) → Stored (Backend.Answer asked)
  | .systemTime => send .time
  | .generateMessageId => send .generateId
  | .insertMessage row => send (.insertMessage row)
  | .selectMessages tenantId channelId bucketId limit =>
      send (.selectMessages tenantId channelId bucketId limit)
  | .insertReaction tenantId channelId messageId userId emoji =>
      send (.insertReaction tenantId channelId messageId userId emoji)
  | .updateReadPosition tenantId userId channelId messageId =>
      ReadPositions.update tenantId userId channelId messageId
  | .smembers key => send (.smembers key)
  | .replaceSet key members => send (.replaceSet key members)
  | .del key => send (.del key)
  | .selectMemberIds tenantId channelId => send (.selectMemberIds tenantId channelId)
  | .selectRole tenantId channelId userId => send (.selectRole tenantId channelId userId)
  | .insertMember tenantId channelId userId role =>
      send (.insertMember tenantId channelId userId role)
  | .deleteMember tenantId channelId userId => send (.deleteMember tenantId channelId userId)

/-- `rate` is the configured rate of the limiter. -/
def stored (json : Json) (rate : ℕ) : (asked : Call) → Stored asked.Answer
  | .systemTime => send .time
  | .nativeTime => send .time
  | .generateChannelId => send .generateId
  | .scyllaEnabled => send .setting
  | .natsRunning => send .setting
  | .natsPublish subject message => send (.natsPublish subject message)
  | .startTask task => send (.startTask task)
  | .subscribe topic => send (.subscribe topic)
  | .unsubscribe topic => send (.unsubscribe topic)
  | .broadcast topic event payload => send (.broadcast topic event payload)
  | .broadcastFrom topic event payload => send (.broadcastFrom topic event payload)
  | .track topic userId deviceId lastSeen => send (.track topic userId deviceId lastSeen)
  | .updatePresence topic userId status => send (.updatePresence topic userId status)
  | .allow tenantId userId => Cache.rateCheck tenantId userId rate
  | .isMember tenantId channelId userId =>
      (Members.isMember tenantId channelId userId).through storedBackend
  | .listMembers tenantId channelId =>
      (Members.listMembers tenantId channelId).through storedBackend
  | .addMember tenantId channelId userId =>
      (Members.addMember tenantId channelId userId 0).through storedBackend
  | .getRole tenantId channelId userId =>
      (Members.getRole tenantId channelId userId).through storedBackend
  | .removeMember tenantId channelId userId =>
      (Members.removeMember tenantId channelId userId).through storedBackend
  | .readRecent tenantId channelId limit => Messages.readRecent json tenantId channelId limit
  | .writeMessage tenantId channelId bucket msg =>
      (Persistence.Messages.write tenantId channelId bucket msg).through storedBackend
  | .invalidateRecent tenantId channelId => Cache.invalidateRecentMessages tenantId channelId
  | .updateReadPosition tenantId userId channelId messageId =>
      ReadPositions.update tenantId userId channelId messageId
  | .getDeltas tenantId channelId sinceHlcWall limit =>
      (Sync.getDeltas tenantId channelId sinceHlcWall limit).through storedBackend
  | .applyDeltas tenantId channelId deltas =>
      (Sync.applyDeltas tenantId channelId deltas).through storedBackend
  | .updateCursor tenantId userId deviceId channelId wall counter =>
      updateCursor tenantId userId deviceId channelId wall counter
  | .getMlsCreator tenantId channelId => Cache.getMlsCreator tenantId channelId
  | .setMlsCreator tenantId channelId userId => Cache.setMlsCreator tenantId channelId userId
  | .uploadKeyPackage tenantId deviceId keyPackage =>
      KeyPackages.upload tenantId deviceId keyPackage
  | .fetchKeyPackages tenantId userId => KeyPackages.fetch tenantId userId
  | .getCachedUser tenantId userId => Cache.getUser json tenantId userId
  | .findUser tenantId userId => findUser tenantId userId
  | .putCachedUser tenantId userId user => Cache.putUser json tenantId userId user

/-- `init`, once the process runs: a failed provisioning is only logged. -/
def initSocket (tenantId userId deviceId : Id16) : Stored Reaction := do
  let _ ← ensureDevice tenantId userId deviceId
  pure (noReply (Socket.init tenantId userId deviceId))

/-- `handle_in` on a binary frame. -/
def storedHandleIn (native : Native) (json : Json) (rate : ℕ) (data : Bytes) (socket : Socket) :
    Stored Reaction :=
  (handleIn native data socket).through (stored json rate)

def storedRunTask (json : Json) (rate : ℕ) (task : BackgroundTask) : Stored Unit :=
  (runTask task).through (stored json rate)

end Mercury.Gateway
