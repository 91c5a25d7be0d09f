import Mercury.Gateway.StoredCommands
import Mercury.Gateway.Tenancy

/-!
# A socket names only what is its tenant's

The commands that a frame, a task or the start of a socket performs are all about
its tenant, whatever they are answered.
-/

namespace Mercury.Gateway

open Foundations Foundations.Program Persistence

/-- The tenant of a task. -/
def BackgroundTask.tenantId : BackgroundTask → Bytes
  | .persistMessage tenantId .. => tenantId
  | .updateReadPosition tenantId .. => tenantId

/-- The command is about nothing but the tenant. -/
def Command.Owned (tenantId : Id16) : Command → Prop
  | .time | .generateId | .setting | .track .. | .updatePresence .. => True
  | .natsPublish subject message => Publication.Concerns tenantId.val ⟨subject, message⟩
  | .startTask task => task.tenantId = tenantId.val
  | .subscribe name | .unsubscribe name | .broadcast name _ _ | .broadcastFrom name _ _
  | .get name | .setex name _ | .setNew name _ | .del name | .smembers name
  | .replaceSet name _ | .incr name => OwnedName tenantId.val name
  | .insertMessage row => row.tenantId = tenantId.val
  | .selectMessages tid .. | .insertReaction tid .. | .selectReadPosition tid ..
  | .insertReadPosition tid .. => tid = tenantId.val
  | .selectMemberIds tid .. | .selectRole tid .. | .insertMember tid .. | .deleteMember tid ..
  | .updateKeyPackage tid .. | .selectKeyPackages tid .. | .selectUser tid .. => tid = tenantId
  | .upsertCursor row => row.tenantId = tenantId
  | .insertTenant row => row.tenantId = tenantId
  | .insertUser row => row.tenantId = tenantId
  | .insertDevice row => row.tenantId = tenantId

/-- The call is about nothing but the tenant. -/
def Call.Owned (tenantId : Id16) : Call → Prop
  | .systemTime | .nativeTime | .generateChannelId | .scyllaEnabled | .natsRunning
  | .track .. | .updatePresence .. => True
  | .natsPublish subject message => Publication.Concerns tenantId.val ⟨subject, message⟩
  | .startTask task => task.tenantId = tenantId.val
  | .subscribe name | .unsubscribe name | .broadcast name _ _ | .broadcastFrom name _ _ =>
      OwnedName tenantId.val name
  | .allow tid _ | .isMember tid .. | .listMembers tid _ | .addMember tid .. | .getRole tid ..
  | .removeMember tid .. | .readRecent tid .. | .writeMessage tid .. | .invalidateRecent tid _
  | .updateReadPosition tid .. | .getDeltas tid .. | .applyDeltas tid .. | .updateCursor tid ..
  | .getMlsCreator tid _ | .setMlsCreator tid .. | .uploadKeyPackage tid ..
  | .fetchKeyPackages tid _ | .getCachedUser tid _ | .findUser tid _ | .putCachedUser tid .. =>
      tid = tenantId.val

/-- The command of the persistence application is about nothing but the tenant. -/
def BackendOwned (tenantId : Id16) : Backend.Call → Prop
  | .systemTime | .generateMessageId => True
  | .insertMessage row => row.tenantId = tenantId.val
  | .selectMessages tid .. | .insertReaction tid .. | .updateReadPosition tid .. =>
      tid = tenantId.val
  | .smembers key | .replaceSet key _ | .del key => OwnedName tenantId.val key
  | .selectMemberIds tid .. | .selectRole tid .. | .insertMember tid .. | .deleteMember tid .. =>
      tid = tenantId

section Functions

variable {tenantId : Id16} {admitted : Performed commands Raise → Prop}

/-- The program performs only commands about the tenant. -/
abbrev Owns {Result : Type} (admitted : Performed commands Raise → Prop) (tenantId : Id16)
    (program : Stored Result) : Prop :=
  program.Ensures admitted (Command.Owned tenantId) fun _ => True

theorem owns_send {command : Command} (owned : command.Owned tenantId) :
    Owns admitted tenantId (send command) :=
  Ensures.ask owned

theorem owns_update {userId channelId messageId : Bytes} :
    Owns admitted tenantId (ReadPositions.update tenantId.val userId channelId messageId) :=
  update_commands rfl rfl

/-! ## The commands of a call -/

section Commands

variable {command : Command} {channelId userId id : Bytes}

theorem Command.owned_of_onKey (kind : CacheKind)
    (onKey : OnKey (cacheKey kind tenantId.val id) command) :
    command.Owned tenantId := by
  cases command with
  | get | setex | setNew | del | incr =>
      cases onKey
      exact ownedName_cacheKey kind tenantId.val id
  | _ => exact onKey.elim

theorem Command.owned_of_listsChannel (lists : ListsChannel tenantId.val channelId command) :
    command.Owned tenantId := by
  cases command with
  | smembers | replaceSet =>
      cases lists
      exact ownedName_cacheKey .members tenantId.val channelId
  | selectMemberIds => exact (Subtype.ext lists.1).symm
  | _ => exact lists.elim

theorem Command.owned_of_changesMember
    (changes : ChangesMember tenantId.val channelId userId command) : command.Owned tenantId := by
  cases command with
  | del =>
      cases changes
      exact ownedName_cacheKey .members tenantId.val channelId
  | selectRole | insertMember | deleteMember => exact (Subtype.ext changes.1).symm
  | _ => exact changes.elim

theorem Command.owned_of_readsChannel (reads : ReadsChannel tenantId.val channelId command) :
    command.Owned tenantId := by
  cases command with
  | time => trivial
  | get | setex | del =>
      cases reads
      exact ownedName_cacheKey .recent tenantId.val channelId
  | selectMessages => exact reads.1
  | _ => exact reads.elim

theorem Command.owned_of_aboutUser (about : AboutUser tenantId.val command) :
    command.Owned tenantId := by
  cases command with
  | time => trivial
  | upsertCursor | updateKeyPackage | selectKeyPackages | selectUser =>
      exact (Subtype.ext about).symm
  | selectReadPosition | insertReadPosition => exact about
  | _ => exact about.elim

end Commands

/-! ## The persistence application -/

/-- The program of a persistence module performs only commands about the tenant. -/
abbrev OwnsBackend {Result : Type} (tenantId : Id16) (program : Backed Result) : Prop :=
  program.Ensures (fun _ => True) (BackendOwned tenantId) fun _ => True

theorem owns_storedBackend {asked : Backend.Call} (owned : BackendOwned tenantId asked) :
    Owns admitted tenantId (storedBackend asked) := by
  cases asked with
  | updateReadPosition tid userId channelId messageId =>
      cases owned
      exact owns_update
  | _ => exact owns_send owned

theorem owns_through {Result : Type} {program : Backed Result}
    (owns : OwnsBackend tenantId program) :
    Owns admitted tenantId (program.through storedBackend) :=
  Ensures.through owns fun _ owned => (owns_storedBackend owned).post_mono fun _ _ => trivial

theorem owns_write {channelId : Bytes} {bucket : ℕ} {msg : Message} :
    OwnsBackend tenantId (Persistence.Messages.write tenantId.val channelId bucket msg) :=
  Ensures.seq (Ensures.ask trivial) fun _ => Ensures.ask rfl

theorem owns_applySingleDelta {channelId : Bytes} {delta : Sync.Delta} :
    OwnsBackend tenantId (Sync.applySingleDelta tenantId.val channelId delta) := by
  cases delta with
  | unknown => trivial
  | reactionAdd messageId userId emoji =>
      rw [Sync.applySingleDelta]
      split
      · exact Ensures.seq (Ensures.ask rfl) fun _ => trivial
      · trivial
  | readPositionUpdate userId readChannelId lastReadMessageId =>
      rw [Sync.applySingleDelta]
      split
      · exact Ensures.ask rfl
      · trivial
  | messageAppend messageId senderId encryptedContent contentType hlcWall =>
      have id : OwnsBackend tenantId (Sync.decodeHexOrGenerate messageId) := by
        unfold Sync.decodeHexOrGenerate
        split
        · exact Ensures.ask trivial
        · split
          · trivial
          · exact Ensures.ask trivial
      apply Ensures.seq id
      intro msgId
      rcases hlcWall with _ | wall
      · exact Ensures.seq (Ensures.ask trivial) fun now =>
          Ensures.seq (Ensures.ofExcept.mpr trivial) fun bucket => owns_write
      · exact Ensures.seq (trivial : OwnsBackend tenantId (Pure.pure wall)) fun ts =>
          Ensures.seq (Ensures.ofExcept.mpr trivial) fun bucket => owns_write

theorem owns_applyDeltas {channelId : Bytes} {deltas : List Sync.Delta} :
    OwnsBackend tenantId (Sync.applyDeltas tenantId.val channelId deltas) := by
  have applied : ∀ deltas, OwnsBackend tenantId
      (Sync.countApplied tenantId.val channelId deltas) := by
    intro deltas
    induction deltas with
    | nil => trivial
    | cons delta later ih =>
        exact Ensures.seq owns_applySingleDelta fun _ => Ensures.seq ih fun _ => trivial
  unfold Sync.applyDeltas
  split
  · trivial
  · exact Ensures.seq (applied deltas) fun _ => trivial

/-! ## Calls, frames and tasks -/

theorem owns_stored {json : Json} {rate : ℕ} {asked : Call} (owned : asked.Owned tenantId) :
    Owns admitted tenantId (stored json rate asked) := by
  have commands := @stored_commands admitted json rate asked
  have owns : (∀ command, StoredCommands asked command → command.Owned tenantId) →
      Owns admitted tenantId (stored json rate asked) :=
    fun own => Ensures.mono commands own fun _ _ => trivial
  cases asked with
  | writeMessage tid channelId bucket msg =>
      cases owned
      exact owns_through owns_write
  | applyDeltas tid channelId deltas =>
      cases owned
      exact owns_through owns_applyDeltas
  | isMember | listMembers =>
      cases owned
      exact owns fun _ => Command.owned_of_listsChannel
  | addMember | getRole | removeMember =>
      cases owned
      exact owns fun _ => Command.owned_of_changesMember
  | readRecent | getDeltas =>
      cases owned
      exact owns fun _ => Command.owned_of_readsChannel
  | updateReadPosition | updateCursor | uploadKeyPackage | fetchKeyPackages | findUser =>
      cases owned
      exact owns fun _ => Command.owned_of_aboutUser
  | allow =>
      cases owned
      exact owns fun _ => Command.owned_of_onKey .rate
  | invalidateRecent =>
      cases owned
      apply owns
      intro command issued
      cases issued
      exact ownedName_cacheKey .recent tenantId.val _
  | getMlsCreator | setMlsCreator =>
      cases owned
      exact owns fun _ => Command.owned_of_onKey .mlsCreator
  | getCachedUser | putCachedUser =>
      cases owned
      exact owns fun _ => Command.owned_of_onKey .user
  | _ => exact owns_send owned

end Functions

/-- The topics of the socket are those of its tenant. -/
def Socket.Confined (socket : Socket) : Prop :=
  ∀ topicId info, socket.topicIds.lookup topicId = some info →
    ∀ pubsub, info.pubsub = some pubsub → OwnedName socket.tenantId.val pubsub

/-- Where it returns, the socket is the tenant's and confined to it. -/
def StaysWith (tenantId : Id16) : Except Raise Reaction → Prop
  | .ok reaction => reaction.socket.tenantId = tenantId ∧ reaction.socket.Confined
  | .error _ => True

section Frames

variable {native : Native} {json : Json} {rate : ℕ} {socket : Socket} {frame : Frame}
  {admitted : Performed commands Raise → Prop}

theorem confined_init (tenantId userId deviceId : Id16) :
    (Socket.init tenantId userId deviceId).Confined := by
  intro topicId info entry
  simp [Socket.init] at entry

theorem Socket.Confined.moves {next : Socket} {granted : Performed calls Raise → Prop}
    (confined : socket.Confined) (moves : Moves granted socket next frame) :
    next.tenantId = socket.tenantId ∧ next.Confined := by
  have tenant : next.tenantId = socket.tenantId := moves.ids.1
  refine ⟨tenant, ?_⟩
  intro topicId info entry pubsub subscribed
  rw [tenant]
  rcases moves.entry entry with old | ⟨ref, topic, _, joins⟩
  · exact confined topicId info old pubsub subscribed
  · cases joins with
    | channel =>
        cases subscribed
        exact ownedName_channelTopic _ _
    | lobby => cases subscribed
    | presence =>
        cases subscribed
        exact ownedName_presenceTopic _ _

theorem FrameCalls.owned {asked : Call} (confined : socket.Confined)
    (made : FrameCalls native socket frame asked) : asked.Owned socket.tenantId := by
  cases frame with
  | heartbeat => exact made.elim
  | ignored => exact made.elim
  | leave topicId =>
      rcases made with ⟨info, pubsub, entry, subscribed, rfl⟩
      exact confined topicId info entry pubsub subscribed
  | join ref topic =>
      cases made with
      | isMember => rfl
      | subscribeChannel => exact ownedName_channelTopic _ _
      | subscribePresence => exact ownedName_presenceTopic _ _
      | getCachedUser => rfl
      | findUser => rfl
      | putCachedUser => rfl
      | announce => exact ownedName_channelTopic _ _
  | push ref topicId event payload =>
      rcases made with ⟨info, entry, made⟩
      cases made with
      | publishMessage => exact concerns_message
      | publishInvalidation => exact Base.decode16_encode16 _
      | publishSync => exact concerns_syncFanout
      | broadcastNew subscribed => exact confined topicId info entry _ subscribed
      | broadcast subscribed => exact confined topicId info entry _ subscribed
      | broadcastFrom subscribed => exact confined topicId info entry _ subscribed
      | systemTime | nativeTime | generateChannelId | scyllaEnabled | natsRunning | track
      | updatePresence => trivial
      | _ => rfl

/-- A frame performs only commands about the socket's tenant. -/
theorem storedHandleIn_owned (data : Bytes) (confined : socket.Confined) :
    (storedHandleIn native json rate data socket).Ensures admitted
      (Command.Owned socket.tenantId) (StaysWith socket.tenantId) := by
  have handled : (handleIn native data socket).Ensures (fun _ => True)
      (Call.Owned socket.tenantId) (StaysWith socket.tenantId) := by
    refine Ensures.mono handleFrame_calls (fun asked made => made.owned confined) ?_
    intro outcome moves
    rcases outcome with raised | reaction
    · trivial
    · exact confined.moves moves
  exact Ensures.through handled fun asked owned =>
    (owns_stored owned).post_mono fun _ _ => trivial

theorem initSocket_owned (tenantId userId deviceId : Id16) :
    (initSocket tenantId userId deviceId).Ensures admitted (Command.Owned tenantId)
      (StaysWith tenantId) := by
  have provisioned : Owns admitted tenantId (ensureDevice tenantId userId deviceId) :=
    ensureDevice_commands trivial (fun _ own => own) (fun _ own => own) fun _ own => own
  refine Ensures.bind.mpr (Ensures.post_mono provisioned ?_)
  intro outcome _
  rcases outcome with raised | provisioned
  · trivial
  · exact ⟨rfl, confined_init tenantId userId deviceId⟩

theorem storedRunTask_owned {tenantId : Id16} {task : BackgroundTask}
    (own : task.tenantId = tenantId.val) :
    Owns admitted tenantId (storedRunTask json rate task) := by
  have runs : (runTask task).Ensures (fun _ => True) (Call.Owned tenantId) fun _ => True := by
    cases task with
    | updateReadPosition tid userId channelId messageId =>
        exact Ensures.seq (Ensures.ask own) fun _ => trivial
    | persistMessage tid channelId bucket msg =>
        cases own
        refine Ensures.seq (Ensures.ask rfl) fun written => ?_
        split
        · refine Ensures.seq (Ensures.ask rfl) fun _ => ?_
          apply Ensures.seq (Ensures.ask trivial)
          intro running
          split
          · exact Ensures.seq (Ensures.ask (Base.decode16_encode16 _)) fun _ => trivial
          · trivial
        · trivial
  exact Ensures.through runs fun asked owned =>
    (owns_stored owned).post_mono fun _ _ => trivial

end Frames

end Mercury.Gateway
