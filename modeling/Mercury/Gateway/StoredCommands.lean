import Mercury.Gateway.Node
import Mercury.Gateway.Storage

/-!
# The commands of a call

For each call of a socket, the commands to the stores that carry it out, whatever they
are answered (`stored_commands`).
-/

namespace Mercury.Gateway

open Foundations Foundations.Program Persistence

/-! ## What the functions of the persistence application do -/

/-- The commands of `list_members`. -/
def ListsChannel (tenantId channelId : Bytes) : Command → Prop
  | .smembers key => key = Persistence.Cache.membersKey tenantId channelId
  | .selectMemberIds tid cid => tenantId = tid.val ∧ channelId = cid.val
  | .replaceSet key _ => key = Persistence.Cache.membersKey tenantId channelId
  | _ => False

/-- The commands of `add_member`, `get_role` and `remove_member`. -/
def ChangesMember (tenantId channelId userId : Bytes) : Command → Prop
  | .selectRole tid cid uid => tenantId = tid.val ∧ channelId = cid.val ∧ userId = uid.val
  | .insertMember tid cid uid _ => tenantId = tid.val ∧ channelId = cid.val ∧ userId = uid.val
  | .deleteMember tid cid uid => tenantId = tid.val ∧ channelId = cid.val ∧ userId = uid.val
  | .del key => key = Persistence.Cache.membersKey tenantId channelId
  | _ => False

/-- The commands of `read_recent` and `get_deltas`. -/
def ReadsChannel (tenantId channelId : Bytes) : Command → Prop
  | .time => True
  | .get key => key = Cache.recentKey tenantId channelId
  | .setex key _ => key = Cache.recentKey tenantId channelId
  | .del key => key = Cache.recentKey tenantId channelId
  | .selectMessages tid cid _ _ => tid = tenantId ∧ cid = channelId
  | _ => False

/-- The commands of `write` and `apply_deltas`. -/
def WritesChannel (tenantId channelId : Bytes) : Command → Prop
  | .time => True
  | .generateId => True
  | .insertMessage row => row.tenantId = tenantId ∧ row.channelId = channelId
  | .insertReaction tid cid .. => tid = tenantId ∧ cid = channelId
  | .selectReadPosition .. => True
  | .insertReadPosition .. => True
  | _ => False

/-- The commands of the functions about one user or device. -/
def AboutUser (tenantId : Bytes) : Command → Prop
  | .time => True
  | .upsertCursor row => tenantId = row.tenantId.val
  | .updateKeyPackage tid .. => tenantId = tid.val
  | .selectKeyPackages tid _ => tenantId = tid.val
  | .selectUser tid _ => tenantId = tid.val
  | .selectReadPosition tid .. => tid = tenantId
  | .insertReadPosition tid .. => tid = tenantId
  | _ => False

/-- The commands on one key of the cache. -/
def OnKey (name : Bytes) : Command → Prop
  | .get key => key = name
  | .setex key _ => key = name
  | .setNew key _ => key = name
  | .del key => key = name
  | .incr key => key = name
  | _ => False

/-- The commands that carry out a call. -/
def StoredCommands : Call → Command → Prop
  | .systemTime, command => command = .time
  | .nativeTime, command => command = .time
  | .generateChannelId, command => command = .generateId
  | .scyllaEnabled, command => command = .setting
  | .natsRunning, command => command = .setting
  | .natsPublish subject message, command => command = .natsPublish subject message
  | .startTask task, command => command = .startTask task
  | .subscribe topic, command => command = .subscribe topic
  | .unsubscribe topic, command => command = .unsubscribe topic
  | .broadcast topic event payload, command => command = .broadcast topic event payload
  | .broadcastFrom topic event payload, command => command = .broadcastFrom topic event payload
  | .track topic userId deviceId lastSeen, command =>
      command = .track topic userId deviceId lastSeen
  | .updatePresence topic userId status, command => command = .updatePresence topic userId status
  | .allow tenantId userId, command => OnKey (Cache.rateKey tenantId userId) command
  | .isMember tenantId channelId _, command => ListsChannel tenantId channelId command
  | .listMembers tenantId channelId, command => ListsChannel tenantId channelId command
  | .addMember tenantId channelId userId, command =>
      ChangesMember tenantId channelId userId command
  | .getRole tenantId channelId userId, command => ChangesMember tenantId channelId userId command
  | .removeMember tenantId channelId userId, command =>
      ChangesMember tenantId channelId userId command
  | .readRecent tenantId channelId _, command => ReadsChannel tenantId channelId command
  | .writeMessage tenantId channelId _ _, command => WritesChannel tenantId channelId command
  | .invalidateRecent tenantId channelId, command =>
      command = .del (Cache.recentKey tenantId channelId)
  | .updateReadPosition tenantId _ _ _, command => AboutUser tenantId command
  | .getDeltas tenantId channelId _ _, command => ReadsChannel tenantId channelId command
  | .applyDeltas tenantId channelId _, command => WritesChannel tenantId channelId command
  | .updateCursor tenantId _ _ _ _ _, command => AboutUser tenantId command
  | .getMlsCreator tenantId channelId, command =>
      OnKey (Cache.mlsCreatorKey tenantId channelId) command
  | .setMlsCreator tenantId channelId _, command =>
      OnKey (Cache.mlsCreatorKey tenantId channelId) command
  | .uploadKeyPackage tenantId _ _, command => AboutUser tenantId command
  | .fetchKeyPackages tenantId _, command => AboutUser tenantId command
  | .getCachedUser tenantId userId, command => OnKey (Cache.userKey tenantId userId) command
  | .findUser tenantId _, command => AboutUser tenantId command
  | .putCachedUser tenantId userId _, command => OnKey (Cache.userKey tenantId userId) command

section

variable {admitted : Performed commands Raise → Prop} {tenantId channelId userId : Bytes}
  {json : Json}

/-- The program performs only `allowed` commands. -/
abbrev PerformsOnly {Result : Type} (admitted : Performed commands Raise → Prop)
    (allowed : Command → Prop) (program : Stored Result) : Prop :=
  program.Ensures admitted allowed fun _ => True

theorem performsOnly_send {allowed : Command → Prop} {command : Command}
    (permitted : allowed command) : PerformsOnly admitted allowed (send command) :=
  Ensures.ask permitted

/-! ## The cache -/

theorem getUser_commands :
    PerformsOnly admitted (OnKey (Cache.userKey tenantId userId))
      (Cache.getUser json tenantId userId) := by
  refine Ensures.seq (performsOnly_send rfl) fun found => ?_
  split
  · trivial
  · split
    · trivial
    · exact Ensures.seq (performsOnly_send rfl) fun _ => trivial
  · trivial

theorem getMlsCreator_commands :
    PerformsOnly admitted (OnKey (Cache.mlsCreatorKey tenantId channelId))
      (Cache.getMlsCreator tenantId channelId) := by
  refine Ensures.seq (performsOnly_send rfl) fun found => ?_
  split
  · trivial
  · split
    · trivial
    · exact Ensures.seq (performsOnly_send rfl) fun _ => trivial
  · trivial

theorem rateCheck_commands {limit : ℕ} :
    PerformsOnly admitted (OnKey (Cache.rateKey tenantId userId))
      (Cache.rateCheck tenantId userId limit) := by
  refine Ensures.seq (performsOnly_send rfl) fun count => ?_
  split <;> trivial

theorem getRecentMessages_commands :
    PerformsOnly admitted (ReadsChannel tenantId channelId)
      (Cache.getRecentMessages json tenantId channelId) := by
  refine Ensures.seq (performsOnly_send rfl) fun found => ?_
  split
  · trivial
  · split
    · trivial
    · exact Ensures.seq (performsOnly_send rfl) fun _ => trivial
  · trivial

/-! ## Messages, read positions, key packages and cursors -/

theorem read_commands {bucketId limit : ℕ} :
    PerformsOnly admitted (ReadsChannel tenantId channelId)
      (Messages.read tenantId channelId bucketId limit) := by
  apply Ensures.seq (performsOnly_send ⟨rfl, rfl⟩)
  intro page
  split <;> trivial

theorem readRecentFromScylla_commands {limit : ℕ} :
    PerformsOnly admitted (ReadsChannel tenantId channelId)
      (Messages.readRecentFromScylla tenantId channelId limit) := by
  apply Ensures.seq (performsOnly_send trivial)
  intro now
  apply Ensures.seq (Ensures.ofExcept.mpr trivial)
  intro nowBucket
  apply Ensures.seq read_commands
  intro msgs
  split
  · trivial
  split
  · split
    · trivial
    · apply Ensures.seq read_commands
      intro more
      split <;> trivial
  · trivial

theorem readRecent_commands {limit : ℕ} :
    PerformsOnly admitted (ReadsChannel tenantId channelId)
      (Messages.readRecent json tenantId channelId limit) := by
  have refreshed : PerformsOnly admitted (ReadsChannel tenantId channelId)
      (Messages.refreshRecent json tenantId channelId limit) := by
    apply Ensures.seq readRecentFromScylla_commands
    intro msgs
    split
    · exact Ensures.seq (Ensures.seq (performsOnly_send rfl) fun _ => trivial) fun _ => trivial
    · trivial
  apply Ensures.seq getRecentMessages_commands
  intro cached
  split
  · split
    · trivial
    · exact refreshed
  · exact refreshed

/-- The commands of `ReadPositions.update`, for whatever set of commands holds them. -/
theorem update_commands {messageId : Bytes} {allowed : Command → Prop}
    (reads : allowed (.selectReadPosition tenantId userId channelId))
    (writes : allowed (.insertReadPosition tenantId userId channelId messageId)) :
    PerformsOnly admitted allowed
      (ReadPositions.update tenantId userId channelId messageId) := by
  have position : PerformsOnly admitted allowed
      (ReadPositions.get tenantId userId channelId) := by
    apply Ensures.seq (performsOnly_send reads)
    intro found
    split <;> trivial
  apply Ensures.seq position
  intro current
  split
  · split
    · trivial
    · exact performsOnly_send writes
  · exact performsOnly_send writes

theorem upload_commands {deviceId keyPackage : Bytes} :
    PerformsOnly admitted (AboutUser tenantId)
      (KeyPackages.upload tenantId deviceId keyPackage) := by
  unfold KeyPackages.upload
  split
  · next tid did tidEq didEq =>
      apply Ensures.seq (performsOnly_send (Id16.ofBytes_eq_some.mp tidEq))
      intro count
      split <;> trivial
  · trivial

theorem fetch_commands :
    PerformsOnly admitted (AboutUser tenantId) (KeyPackages.fetch tenantId userId) := by
  unfold KeyPackages.fetch
  split
  · next tid uid tidEq uidEq => exact performsOnly_send (Id16.ofBytes_eq_some.mp tidEq)
  · trivial

theorem updateCursor_commands {deviceId : Bytes} {wall counter : ℕ} :
    PerformsOnly admitted (AboutUser tenantId)
      (updateCursor tenantId userId deviceId channelId wall counter) := by
  unfold updateCursor
  split
  · next tid uid did cid tidEq uidEq didEq cidEq =>
      exact Ensures.seq (performsOnly_send trivial) fun now =>
        performsOnly_send (Id16.ofBytes_eq_some.mp tidEq)
  · trivial

theorem findUser_commands :
    PerformsOnly admitted (AboutUser tenantId) (findUser tenantId userId) := by
  refine Ensures.rescue.mpr (Ensures.post_mono (?_ : PerformsOnly admitted _ _) ?_)
  · split
    · next tid uid tidEq uidEq =>
        exact Ensures.seq (performsOnly_send (Id16.ofBytes_eq_some.mp tidEq)) fun user => trivial
    · trivial
  · rintro (raised | user) - <;> trivial

/-- The commands of `ensure_device`, for whatever set of commands holds them. -/
theorem ensureDevice_commands {tid uid did : Id16} {allowed : Command → Prop}
    (reads : allowed .time)
    (tenants : ∀ row : TenantRow, row.tenantId = tid → allowed (.insertTenant row))
    (users : ∀ row : UserRow, row.tenantId = tid → allowed (.insertUser row))
    (devices : ∀ row : DeviceRow, row.tenantId = tid → allowed (.insertDevice row)) :
    PerformsOnly admitted allowed (ensureDevice tid uid did) := by
  apply Ensures.seq (performsOnly_send reads)
  intro now
  apply Ensures.seq (performsOnly_send (tenants _ rfl))
  intro tenantRow
  split
  · trivial
  apply Ensures.seq (performsOnly_send (users _ rfl))
  intro userRow
  split
  · trivial
  · exact performsOnly_send (devices _ rfl)

/-! ## The persistence application -/

theorem performsOnly_through {Result : Type} {program : Backed Result}
    {allowed : Command → Prop} {asks : Backend.Call → Prop}
    (performs : program.Ensures (fun _ => True) asks fun _ => True)
    (carried : ∀ asked, asks asked → PerformsOnly admitted allowed (storedBackend asked)) :
    PerformsOnly admitted allowed (program.through storedBackend) :=
  Ensures.through performs fun asked issued => (carried asked issued).post_mono fun _ _ => trivial

theorem getDeltas_storedCommands {since limit : ℕ} :
    PerformsOnly admitted (ReadsChannel tenantId channelId)
      ((Sync.getDeltas tenantId channelId since limit).through storedBackend) := by
  apply performsOnly_through getDeltas_commands
  intro asked reads
  cases asked with
  | systemTime => exact performsOnly_send trivial
  | selectMessages => exact performsOnly_send reads
  | _ => exact reads.elim

theorem writesMessages_storedCommands {Result : Type} {program : Backed Result}
    (writes : program.Ensures (fun _ => True) (WritesMessages tenantId channelId) fun _ => True) :
    PerformsOnly admitted (WritesChannel tenantId channelId) (program.through storedBackend) := by
  apply performsOnly_through writes
  intro asked writes
  cases asked with
  | systemTime => exact performsOnly_send trivial
  | generateMessageId => exact performsOnly_send trivial
  | insertMessage => exact performsOnly_send writes
  | insertReaction => exact performsOnly_send writes
  | updateReadPosition => exact update_commands trivial trivial
  | _ => exact writes.elim

theorem listMembers_storedCommands :
    PerformsOnly admitted (ListsChannel tenantId channelId)
      ((Members.listMembers tenantId channelId).through storedBackend) := by
  have load : PerformsOnly admitted (ListsChannel tenantId channelId)
      ((Members.loadFromDb tenantId channelId).through storedBackend) := by
    rw [Members.loadFromDb, through_rescue]
    refine Ensures.rescue.mpr (Ensures.post_mono (?_ : PerformsOnly admitted _ _) ?_)
    · split
      · next tid cid tidEq cidEq =>
          rw [through_bind, ask, through_perform]
          refine Ensures.seq (performsOnly_send
            ⟨Id16.ofBytes_eq_some.mp tidEq, Id16.ofBytes_eq_some.mp cidEq⟩) fun uuids => ?_
          split
          · trivial
          · rw [through_bind, Persistence.Cache.putChannelMembers]
            refine Ensures.seq ?_ fun _ => trivial
            split
            · rw [through_bind, ask, through_perform]
              exact Ensures.seq (performsOnly_send rfl) fun _ => trivial
            · trivial
      · trivial
    · rintro (raised | listing) - <;> trivial
  rw [Members.listMembers, through_bind, Persistence.Cache.getChannelMembers, through_bind, ask,
    through_perform]
  refine Ensures.seq (Ensures.seq (performsOnly_send rfl) fun found => ?_) fun cached => ?_
  · split <;> trivial
  · split
    · trivial
    · exact load

theorem isMember_storedCommands :
    PerformsOnly admitted (ListsChannel tenantId channelId)
      ((Members.isMember tenantId channelId userId).through storedBackend) := by
  rw [Members.isMember, through_bind]
  apply Ensures.seq listMembers_storedCommands
  intro listing
  split <;> trivial

theorem invalidateChannelMembers_storedCommands :
    PerformsOnly admitted (ChangesMember tenantId channelId userId)
      ((Persistence.Cache.invalidateChannelMembers tenantId channelId).through storedBackend) := by
  rw [Persistence.Cache.invalidateChannelMembers, through_bind, ask, through_perform]
  exact Ensures.seq (performsOnly_send rfl) fun _ => trivial

theorem addMember_storedCommands {role : ℕ} :
    PerformsOnly admitted (ChangesMember tenantId channelId userId)
      ((Members.addMember tenantId channelId userId role).through storedBackend) := by
  unfold Members.addMember
  split
  · next tid cid uid tidEq cidEq uidEq =>
      rw [through_bind, ask, through_perform]
      refine Ensures.seq (performsOnly_send ⟨Id16.ofBytes_eq_some.mp tidEq,
        Id16.ofBytes_eq_some.mp cidEq, Id16.ofBytes_eq_some.mp uidEq⟩) fun inserted => ?_
      split
      · rw [through_bind]
        exact Ensures.seq invalidateChannelMembers_storedCommands fun _ => trivial
      · trivial
  · trivial

theorem getRole_storedCommands :
    PerformsOnly admitted (ChangesMember tenantId channelId userId)
      ((Members.getRole tenantId channelId userId).through storedBackend) := by
  rw [Members.getRole, through_rescue]
  refine Ensures.rescue.mpr (Ensures.post_mono (?_ : PerformsOnly admitted _ _) ?_)
  · split
    · next tid cid uid tidEq cidEq uidEq =>
        rw [through_bind, ask, through_perform]
        refine Ensures.seq (performsOnly_send ⟨Id16.ofBytes_eq_some.mp tidEq,
          Id16.ofBytes_eq_some.mp cidEq, Id16.ofBytes_eq_some.mp uidEq⟩) fun role => ?_
        split <;> trivial
    · trivial
  · rintro (raised | role) - <;> trivial

theorem removeMember_storedCommands :
    PerformsOnly admitted (ChangesMember tenantId channelId userId)
      ((Members.removeMember tenantId channelId userId).through storedBackend) := by
  rw [Members.removeMember, through_rescue]
  refine Ensures.rescue.mpr (Ensures.post_mono (?_ : PerformsOnly admitted _ _) ?_)
  · split
    · next tid cid uid tidEq cidEq uidEq =>
        rw [through_bind, ask, through_perform]
        refine Ensures.seq (performsOnly_send ⟨Id16.ofBytes_eq_some.mp tidEq,
          Id16.ofBytes_eq_some.mp cidEq, Id16.ofBytes_eq_some.mp uidEq⟩) fun count => ?_
        rw [through_bind]
        apply Ensures.seq invalidateChannelMembers_storedCommands
        intro _
        split <;> trivial
    · trivial
  · rintro (raised | removed) - <;> trivial

/-! ## Every call -/

/-- A call performs no other commands, whatever they are answered. -/
theorem stored_commands {rate : ℕ} (asked : Call) :
    PerformsOnly admitted (StoredCommands asked) (stored json rate asked) := by
  cases asked with
  | allow => exact rateCheck_commands
  | isMember => exact isMember_storedCommands
  | listMembers => exact listMembers_storedCommands
  | addMember => exact addMember_storedCommands
  | getRole => exact getRole_storedCommands
  | removeMember => exact removeMember_storedCommands
  | readRecent => exact readRecent_commands
  | writeMessage => exact writesMessages_storedCommands write_commands
  | invalidateRecent => exact Ensures.seq (performsOnly_send rfl) fun _ => trivial
  | updateReadPosition => exact update_commands rfl rfl
  | getDeltas => exact getDeltas_storedCommands
  | applyDeltas => exact writesMessages_storedCommands applyDeltas_commands
  | updateCursor => exact updateCursor_commands
  | getMlsCreator => exact getMlsCreator_commands
  | setMlsCreator => exact Ensures.seq (performsOnly_send rfl) fun _ => trivial
  | uploadKeyPackage => exact upload_commands
  | fetchKeyPackages => exact fetch_commands
  | getCachedUser => exact getUser_commands
  | findUser => exact findUser_commands
  | putCachedUser => exact Ensures.seq (performsOnly_send rfl) fun _ => trivial
  | _ => exact performsOnly_send rfl

end

end Mercury.Gateway
