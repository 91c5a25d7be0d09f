import Mercury.Gateway.Ownership

/-!
# The stores of a node

Redis, the tables of ScyllaDB and Postgres, and what a command does to them. What
the outside decides (the clock, generated ids, settings, failures) is given as a
`Moment`. A command about one tenant sees and changes only the part of the stores
that is the tenant's (`execute_view`, `execute_silent`).
-/

namespace Mercury.Gateway

open Foundations Persistence

/-- What a Redis key holds. -/
inductive Entry where
  | text (value : Bytes)
  | number (value : ℕ)
  | set (members : List Bytes)
deriving DecidableEq

/-- The key of a row of `channels`. -/
structure ChannelRow where
  tenantId : Id16
  channelId : Id16
deriving DecidableEq

structure Stores where
  redis : Bytes → Option Entry
  messages : MessageTable
  reactions : KeyedTable ReactionRow.key
  readPositions : KeyedTable ReadPositionRow.key
  channels : KeyedTable (id : ChannelRow → ChannelRow)
  members : KeyedTable MemberRow.key
  cursors : KeyedTable CursorRow.key
  tenants : KeyedTable TenantRow.tenantId
  users : KeyedTable UserRow.key
  devices : KeyedTable DeviceRow.key

/-- Stores that hold cursors only. -/
def onlyCursors (cursors : KeyedTable CursorRow.key) : Stores where
  redis _ := none
  messages := .empty
  reactions := .empty
  readPositions := .empty
  channels := .empty
  members := .empty
  cursors := cursors
  tenants := .empty
  users := .empty
  devices := .empty

/-- How the outside carries out a command. One that fails may have taken effect. -/
inductive Fate where
  | carried
  | refused (reason : Bytes) (applied : Bool)
  | raised (error : Raise) (applied : Bool)

def Fate.applies : Fate → Bool
  | .carried => true
  | .refused _ applied => applied
  | .raised _ applied => applied

/-- What a command depends on beside the stores. -/
structure Moment where
  time : ℕ
  id : Bytes
  setting : Bool
  fate : Fate

/-- A command that is carried out. -/
def carriedOut : Moment where
  time := 1
  id := []
  setting := true
  fate := .carried

/-- An exception of Ecto or the database driver; nothing tells exceptions apart. -/
def databaseError : Raise := .argument

/-- The error reply of a command, for those that have one. -/
def refusal (reason : Bytes) : (command : Command) → Option command.Answer
  | .natsPublish .. | .insertMessage _ | .selectMessages .. | .insertReaction ..
  | .selectReadPosition .. | .insertReadPosition .. | .insertMember .. | .upsertCursor _
  | .insertTenant _ | .insertUser _ | .insertDevice _ => some (.error reason)
  | .get _ | .setex .. | .setNew .. | .del _ | .smembers _ | .replaceSet .. | .incr _ =>
      some (.error ())
  | _ => none

/-- The answer to a command that would be answered by `answer`. -/
def Fate.answer (fate : Fate) (command : Command) (answer : Except Raise command.Answer) :
    Except Raise command.Answer :=
  match fate with
  | .carried => answer
  | .refused reason _ =>
      match refusal reason command with
      | some reply => .ok reply
      | none => .error databaseError
  | .raised error _ => .error error

/-- The text of a UUID, as Ecto loads it. -/
def uuidText (id : Id16) : Bytes :=
  let digits := (Base.encode16 id.val).map fun char => if 65 ≤ char.val then char + 32 else char
  digits.take 8 ++ 45 :: (digits.drop 8).take 4 ++ 45 :: (digits.drop 12).take 4 ++
    45 :: (digits.drop 16).take 4 ++ 45 :: digits.drop 20

/-- The device with its key package replaced, if it is the one. -/
def DeviceRow.withKeyPackage (tenantId deviceId : Id16) (keyPackage : Bytes) (row : DeviceRow) :
    DeviceRow :=
  if row.tenantId = tenantId ∧ row.deviceId = deviceId then
    { row with mlsKeyPackage := some keyPackage }
  else row

theorem DeviceRow.key_withKeyPackage (tenantId deviceId : Id16) (keyPackage : Bytes)
    (row : DeviceRow) : (row.withKeyPackage tenantId deviceId keyPackage).key = row.key := by
  unfold withKeyPackage
  split <;> rfl

theorem DeviceRow.tenantId_withKeyPackage (tenantId deviceId : Id16) (keyPackage : Bytes)
    (row : DeviceRow) :
    (row.withKeyPackage tenantId deviceId keyPackage).tenantId = row.tenantId :=
  congrArg Prod.fst (row.key_withKeyPackage tenantId deviceId keyPackage)

namespace Stores

def setRedis (stores : Stores) (key : Bytes) (entry : Option Entry) : Stores :=
  { stores with redis := Function.update stores.redis key entry }

/-- The answer to a command and the stores after it. The rows that a query without an
order returns come in the order of the table. -/
def execute (moment : Moment) (stores : Stores) :
    (command : Command) → Except Raise command.Answer × Stores
  | .get key =>
      (.ok (match stores.redis key with
        | none => .ok none
        | some (.text value) => .ok (some value)
        | some (.number value) => .ok (some (ascii value.repr))
        | some (.set _) => .error ()), stores)
  | .setex key value => (.ok (.ok ()), stores.setRedis key (some (.text value)))
  | .setNew key value =>
      (.ok (.ok ()),
        if stores.redis key = none then stores.setRedis key (some (.text value)) else stores)
  | .del key => (.ok (.ok ()), stores.setRedis key none)
  | .smembers key =>
      (.ok (match stores.redis key with
        | none => .ok []
        | some (.set members) => .ok members
        | some _ => .error ()), stores)
  | .replaceSet key members => (.ok (.ok ()), stores.setRedis key (some (.set members)))
  | .incr key =>
      match stores.redis key with
      | none => (.ok (.ok (some 1)), stores.setRedis key (some (.number 1)))
      | some (.number value) =>
          (.ok (.ok (some (value + 1))), stores.setRedis key (some (.number (value + 1))))
      | some _ => (.ok (.ok none), stores)
  | .insertMessage row =>
      (.ok (.ok ()), { stores with messages := stores.messages.upsert row })
  | .selectMessages tenantId channelId bucketId limit =>
      (.ok (if limit = 0 then .error [] else
        .ok (stores.messages.select tenantId channelId bucketId limit)), stores)
  | .insertReaction tenantId channelId messageId userId emoji =>
      match emoji with
      -- a primary key holds no null
      | none => (.ok (.error []), stores)
      | some emoji =>
          let row : ReactionRow := ⟨tenantId, channelId, messageId, userId, emoji, moment.time⟩
          (.ok (.ok ()), { stores with reactions := stores.reactions.upsert row })
  | .selectReadPosition tenantId userId channelId =>
      (.ok (.ok ((stores.readPositions.rows.find? fun row =>
        row.tenantId = tenantId ∧ row.userId = userId ∧ row.channelId = channelId).map
          ReadPositionRow.lastReadMessageId)), stores)
  | .insertReadPosition tenantId userId channelId messageId =>
      let row : ReadPositionRow := ⟨tenantId, userId, channelId, messageId, moment.time⟩
      (.ok (.ok ()), { stores with readPositions := stores.readPositions.upsert row })
  | .selectMemberIds tenantId channelId =>
      (.ok ((stores.members.rows.filter fun row =>
        row.tenantId = tenantId ∧ row.channelId = channelId).map MemberRow.userId), stores)
  | .selectRole tenantId channelId userId =>
      (.ok ((stores.members.rows.find? fun row =>
        row.tenantId = tenantId ∧ row.channelId = channelId ∧ row.userId = userId).map
          MemberRow.role), stores)
  | .insertMember tenantId channelId userId role =>
      if (tenantId, channelId, userId) ∈ stores.members.rows.map MemberRow.key then
        (.ok (.ok ()), stores)
      else if (⟨tenantId, channelId⟩ : ChannelRow) ∈ stores.channels.rows ∧
          (tenantId, userId) ∈ stores.users.rows.map UserRow.key then
        (.ok (.ok ()),
          { stores with members := stores.members.upsert ⟨tenantId, channelId, userId, role⟩ })
      else (.error databaseError, stores)
  | .deleteMember tenantId channelId userId =>
      (.ok (stores.members.rows.filter fun row =>
        row.tenantId = tenantId ∧ row.channelId = channelId ∧ row.userId = userId).length,
        { stores with members := stores.members.filter fun row =>
          ¬(row.tenantId = tenantId ∧ row.channelId = channelId ∧ row.userId = userId) })
  | .upsertCursor row =>
      if row.FitsColumns then
        (.ok (.ok ()), { stores with cursors := stores.cursors.upsert row })
      else (.error databaseError, stores)
  | .updateKeyPackage tenantId deviceId keyPackage =>
      (.ok (stores.devices.rows.filter fun row =>
        row.tenantId = tenantId ∧ row.deviceId = deviceId).length,
        { stores with
          devices := stores.devices.modify
            (DeviceRow.withKeyPackage tenantId deviceId keyPackage)
            (DeviceRow.key_withKeyPackage tenantId deviceId keyPackage) })
  | .selectKeyPackages tenantId userId =>
      (.ok ((stores.devices.rows.filter fun row =>
        row.tenantId = tenantId ∧ row.userId = userId).filterMap DeviceRow.mlsKeyPackage), stores)
  | .selectUser tenantId userId =>
      (.ok ((stores.users.rows.find? fun row =>
        row.tenantId = tenantId ∧ row.userId = userId).map fun row =>
          ⟨uuidText row.userId, row.displayName, row.avatarUrl⟩), stores)
  | .insertTenant row => (.ok (.ok ()), { stores with tenants := stores.tenants.insertNew row })
  | .insertUser row =>
      if row.tenantId ∈ stores.tenants.rows.map TenantRow.tenantId then
        (.ok (.ok ()), { stores with users := stores.users.insertNew row })
      else (.ok (.error []), stores)
  | .insertDevice row =>
      if (row.tenantId, row.userId) ∈ stores.users.rows.map UserRow.key then
        (.ok (.ok ()), { stores with devices := stores.devices.insertNew row })
      else (.ok (.error []), stores)
  -- the other commands do not reach the stores
  | _ => (.error databaseError, stores)

/-! ## The part of a tenant -/

/-- The keys of the tenant. -/
def ownedEntries (tenantId : Id16) (redis : Bytes → Option Entry) : Bytes → Option Entry :=
  fun key => if OwnedName tenantId.val key then redis key else none

/-- What the stores hold about the tenant. Of its cursors, those that are not older
than `since`. -/
def view (tenantId : Id16) (since : ℕ) (stores : Stores) : Stores where
  redis := ownedEntries tenantId stores.redis
  messages := stores.messages.filter fun row => row.tenantId = tenantId.val
  reactions := stores.reactions.filter fun row => row.tenantId = tenantId.val
  readPositions := stores.readPositions.filter fun row => row.tenantId = tenantId.val
  channels := stores.channels.filter fun row => row.tenantId = tenantId
  members := stores.members.filter fun row => row.tenantId = tenantId
  cursors := stores.cursors.filter fun row => row.tenantId = tenantId ∧ since ≤ row.updatedAt
  tenants := stores.tenants.filter fun row => row.tenantId = tenantId
  users := stores.users.filter fun row => row.tenantId = tenantId
  devices := stores.devices.filter fun row => row.tenantId = tenantId

section View

variable {tenantId : Id16} {since : ℕ} {stores : Stores}

theorem ownedEntries_ownedEntries (redis : Bytes → Option Entry) :
    ownedEntries tenantId (ownedEntries tenantId redis) = ownedEntries tenantId redis := by
  funext key
  unfold ownedEntries
  split <;> rfl

theorem ownedEntries_update (redis : Bytes → Option Entry) (key : Bytes) (entry : Option Entry) :
    ownedEntries tenantId (Function.update (ownedEntries tenantId redis) key entry) =
      ownedEntries tenantId (Function.update redis key entry) := by
  funext other
  simp only [ownedEntries, Function.update_apply]
  split <;> rfl

theorem ownedEntries_update_of_not {redis : Bytes → Option Entry} {key : Bytes}
    {entry : Option Entry} (foreign : ¬OwnedName tenantId.val key) :
    ownedEntries tenantId (Function.update redis key entry) = ownedEntries tenantId redis := by
  funext other
  unfold ownedEntries
  split
  · next owned =>
      rw [Function.update_of_ne]
      rintro rfl
      exact foreign owned
  · rfl

theorem view_view :
    (stores.view tenantId since).view tenantId since = stores.view tenantId since := by
  simp only [view, ownedEntries_ownedEntries, KeyedTable.filter_filter_self]

theorem redis_view {key : Bytes} (owned : OwnedName tenantId.val key) :
    (stores.view tenantId since).redis key = stores.redis key :=
  if_pos owned

theorem view_setRedis (key : Bytes) (entry : Option Entry) :
    ((stores.view tenantId since).setRedis key entry).view tenantId since =
      (stores.setRedis key entry).view tenantId since := by
  simp only [view, setRedis, ownedEntries_update, KeyedTable.filter_filter_self]

theorem view_setRedis_of_not {key : Bytes} {entry : Option Entry}
    (foreign : ¬OwnedName tenantId.val key) :
    (stores.setRedis key entry).view tenantId since = stores.view tenantId since := by
  simp only [view, setRedis, ownedEntries_update_of_not foreign]

theorem user_view {userId : Id16} :
    (tenantId, userId) ∈ (stores.view tenantId since).users.rows.map UserRow.key ↔
      (tenantId, userId) ∈ stores.users.rows.map UserRow.key := by
  apply KeyedTable.mem_keys_filter
  intro row _ same
  exact decide_eq_true (congrArg Prod.fst same)

/-! ## Commands and the part of a tenant -/

/-- The same answer, and the same part of the tenant. -/
structure Agrees {Answer : Type} (tenantId : Id16) (since : ℕ) (left right : Answer × Stores) :
    Prop where
  answer : left.1 = right.1
  view : left.2.view tenantId since = right.2.view tenantId since

variable {moment : Moment} {command : Command}

/-- A command about the tenant sees and changes only the tenant's part of the stores. -/
theorem execute_view (owned : command.Owned tenantId) :
    Agrees tenantId since ((stores.view tenantId since).execute moment command)
      (stores.execute moment command) := by
  cases command with
  | get key =>
      refine ⟨?_, view_view⟩
      simp only [execute, redis_view owned]
  | setex key value => exact ⟨rfl, view_setRedis key _⟩
  | setNew key value =>
      refine ⟨rfl, ?_⟩
      simp only [execute, redis_view owned]
      split
      · exact view_setRedis key _
      · exact view_view
  | del key => exact ⟨rfl, view_setRedis key _⟩
  | smembers key =>
      refine ⟨?_, view_view⟩
      simp only [execute, redis_view owned]
  | replaceSet key members => exact ⟨rfl, view_setRedis key _⟩
  | incr key =>
      simp only [execute, redis_view owned]
      split
      · exact ⟨rfl, view_setRedis key _⟩
      · exact ⟨rfl, view_setRedis key _⟩
      · exact ⟨rfl, view_view⟩
  | insertMessage row =>
      refine ⟨rfl, ?_⟩
      simp only [execute, view, ownedEntries_ownedEntries, KeyedTable.filter_filter_self,
        KeyedTable.filter_upsert_filter]
  | selectMessages tid channelId bucketId limit =>
      cases owned
      refine ⟨?_, view_view⟩
      have same : (stores.view tenantId since).messages.select tenantId.val channelId bucketId
          limit = stores.messages.select tenantId.val channelId bucketId limit := by
        unfold MessageTable.select MessageTable.partition
        rw [view, KeyedTable.rows_filter_filter (by simp +contextual)]
      simp only [execute, same]
  | insertReaction tid channelId messageId userId emoji =>
      cases emoji with
      | none => exact ⟨rfl, view_view⟩
      | some emoji =>
          refine ⟨rfl, ?_⟩
          simp only [execute, view, ownedEntries_ownedEntries, KeyedTable.filter_filter_self,
            KeyedTable.filter_upsert_filter]
  | selectReadPosition tid userId channelId =>
      cases owned
      refine ⟨?_, view_view⟩
      simp only [execute, view]
      rw [KeyedTable.rows_filter_find (by simp +contextual)]
  | insertReadPosition tid userId channelId messageId =>
      refine ⟨rfl, ?_⟩
      simp only [execute, view, ownedEntries_ownedEntries, KeyedTable.filter_filter_self,
        KeyedTable.filter_upsert_filter]
  | selectMemberIds tid channelId =>
      cases owned
      refine ⟨?_, view_view⟩
      simp only [execute, view]
      rw [KeyedTable.rows_filter_filter (by simp +contextual)]
  | selectRole tid channelId userId =>
      cases owned
      refine ⟨?_, view_view⟩
      simp only [execute, view]
      rw [KeyedTable.rows_filter_find (by simp +contextual)]
  | insertMember tid channelId userId role =>
      cases owned
      have known : (tenantId, channelId, userId) ∈
          (stores.view tenantId since).members.rows.map MemberRow.key ↔
            (tenantId, channelId, userId) ∈ stores.members.rows.map MemberRow.key := by
        apply KeyedTable.mem_keys_filter
        intro row _ same
        exact decide_eq_true (congrArg Prod.fst same)
      have channel : (⟨tenantId, channelId⟩ : ChannelRow) ∈
          (stores.view tenantId since).channels.rows ↔
            (⟨tenantId, channelId⟩ : ChannelRow) ∈ stores.channels.rows := by
        simp [view, KeyedTable.filter]
      simp only [execute, known, channel, user_view]
      split
      · exact ⟨rfl, view_view⟩
      split
      · refine ⟨rfl, ?_⟩
        simp only [view, ownedEntries_ownedEntries, KeyedTable.filter_filter_self,
          KeyedTable.filter_upsert_filter]
      · exact ⟨rfl, view_view⟩
  | deleteMember tid channelId userId =>
      cases owned
      refine ⟨?_, ?_⟩
      · simp only [execute, view]
        rw [KeyedTable.rows_filter_filter (by simp +contextual)]
      · simp only [execute, view, ownedEntries_ownedEntries, KeyedTable.filter_filter_self,
          KeyedTable.filter_filter_filter]
  | upsertCursor row =>
      simp only [execute]
      split
      · refine ⟨rfl, ?_⟩
        simp only [view, ownedEntries_ownedEntries, KeyedTable.filter_filter_self,
          KeyedTable.filter_upsert_filter]
      · exact ⟨rfl, view_view⟩
  | updateKeyPackage tid deviceId keyPackage =>
      cases owned
      have stable : ∀ row : DeviceRow,
          decide ((row.withKeyPackage tenantId deviceId keyPackage).tenantId = tenantId) =
            decide (row.tenantId = tenantId) := by
        intro row
        rw [DeviceRow.tenantId_withKeyPackage]
      refine ⟨?_, ?_⟩
      · simp only [execute, view]
        rw [KeyedTable.rows_filter_filter (by simp +contextual)]
      · simp only [execute, view, ownedEntries_ownedEntries, KeyedTable.filter_filter_self]
        rw [KeyedTable.filter_modify stable, KeyedTable.filter_modify stable,
          KeyedTable.filter_filter_self]
  | selectKeyPackages tid userId =>
      cases owned
      refine ⟨?_, view_view⟩
      simp only [execute, view]
      rw [KeyedTable.rows_filter_filter (by simp +contextual)]
  | selectUser tid userId =>
      cases owned
      refine ⟨?_, view_view⟩
      simp only [execute, view]
      rw [KeyedTable.rows_filter_find (by simp +contextual)]
  | insertTenant row =>
      cases owned
      refine ⟨rfl, ?_⟩
      simp only [execute, view, ownedEntries_ownedEntries, KeyedTable.filter_filter_self]
      rw [KeyedTable.filter_insertNew_filter fun other _ same => decide_eq_true same]
  | insertUser row =>
      cases owned
      have known : row.tenantId ∈
          (stores.view row.tenantId since).tenants.rows.map TenantRow.tenantId ↔
            row.tenantId ∈ stores.tenants.rows.map TenantRow.tenantId :=
        KeyedTable.mem_keys_filter fun other _ same => decide_eq_true same
      simp only [execute, known]
      split
      · have alike : ∀ other ∈ stores.users, other.key = row.key →
            decide (other.tenantId = row.tenantId) = true := by
          intro other _ same
          exact decide_eq_true (congrArg Prod.fst same)
        refine ⟨rfl, ?_⟩
        simp only [view, ownedEntries_ownedEntries, KeyedTable.filter_filter_self]
        rw [KeyedTable.filter_insertNew_filter alike]
      · exact ⟨rfl, view_view⟩
  | insertDevice row =>
      cases owned
      simp only [execute, user_view]
      split
      · have alike : ∀ other ∈ stores.devices, other.key = row.key →
            decide (other.tenantId = row.tenantId) = true := by
          intro other _ same
          exact decide_eq_true (congrArg Prod.fst same)
        refine ⟨rfl, ?_⟩
        simp only [view, ownedEntries_ownedEntries, KeyedTable.filter_filter_self]
        rw [KeyedTable.filter_insertNew_filter alike]
      · exact ⟨rfl, view_view⟩
  | _ => exact ⟨rfl, view_view⟩

/-- A command about another tenant leaves the tenant's part of the stores alone. -/
theorem execute_silent {other : Id16} (owned : command.Owned other) (different : other ≠ tenantId) :
    (stores.execute moment command).2.view tenantId since = stores.view tenantId since := by
  have foreign : ∀ {name : Bytes}, OwnedName other.val name → ¬OwnedName tenantId.val name := by
    intro name otherOwned tenantOwned
    exact different (Subtype.ext (otherOwned.unique tenantOwned))
  have unlike : other.val ≠ tenantId.val := fun same => different (Subtype.ext same)
  cases command with
  | setex key value => exact view_setRedis_of_not (foreign owned)
  | setNew key value =>
      simp only [execute]
      split
      · exact view_setRedis_of_not (foreign owned)
      · rfl
  | del key => exact view_setRedis_of_not (foreign owned)
  | replaceSet key members => exact view_setRedis_of_not (foreign owned)
  | incr key =>
      simp only [execute]
      split
      · exact view_setRedis_of_not (foreign owned)
      · exact view_setRedis_of_not (foreign owned)
      · rfl
  | insertMessage row =>
      have away : row.tenantId ≠ tenantId.val := fun same => unlike (Eq.trans (Eq.symm owned) same)
      simp only [execute, view]
      rw [KeyedTable.filter_upsert_of_owner MessageRow.tenantId
        (fun _ same => congrArg MessageKey.tenantId same) away]
  | insertReaction tid channelId messageId userId emoji =>
      cases owned
      cases emoji with
      | none => rfl
      | some emoji =>
          simp only [execute, view]
          rw [KeyedTable.filter_upsert_of_owner ReactionRow.tenantId
            (fun _ same => congrArg Prod.fst same) unlike]
  | insertReadPosition tid userId channelId messageId =>
      cases owned
      simp only [execute, view]
      rw [KeyedTable.filter_upsert_of_owner ReadPositionRow.tenantId
        (fun _ same => congrArg Prod.fst same) unlike]
  | insertMember tid channelId userId role =>
      cases owned
      simp only [execute]
      split
      · rfl
      split
      · simp only [view]
        rw [KeyedTable.filter_upsert_of_owner MemberRow.tenantId
          (fun _ same => congrArg Prod.fst same) different]
      · rfl
  | deleteMember tid channelId userId =>
      cases owned
      simp only [execute, view]
      rw [KeyedTable.filter_filter_of_imp]
      intro row _ keeps
      have own := of_decide_eq_true keeps
      simp [own, Ne.symm different]
  | upsertCursor row =>
      cases owned
      simp only [execute]
      split
      · simp only [view]
        rw [KeyedTable.filter_upsert_of_not (by simp [different])]
        intro kept _ keeps same
        have own := (of_decide_eq_true keeps).1
        exact different ((congrArg Prod.fst same).symm.trans own)
      · rfl
  | updateKeyPackage tid deviceId keyPackage =>
      cases owned
      have stable : ∀ row : DeviceRow,
          decide ((row.withKeyPackage other deviceId keyPackage).tenantId = tenantId) =
            decide (row.tenantId = tenantId) := by
        intro row
        rw [DeviceRow.tenantId_withKeyPackage]
      simp only [execute, view]
      rw [KeyedTable.filter_modify stable, KeyedTable.modify_filter_of_not]
      intro row keeps
      have own := of_decide_eq_true keeps
      simp [DeviceRow.withKeyPackage, own, Ne.symm different]
  | insertTenant row =>
      cases owned
      simp only [execute, view]
      rw [KeyedTable.filter_insertNew_of_owner TenantRow.tenantId (fun _ same => same) different]
  | insertUser row =>
      cases owned
      simp only [execute]
      split
      · simp only [view]
        rw [KeyedTable.filter_insertNew_of_owner UserRow.tenantId
          (fun _ same => congrArg Prod.fst same) different]
      · rfl
  | insertDevice row =>
      cases owned
      simp only [execute]
      split
      · simp only [view]
        rw [KeyedTable.filter_insertNew_of_owner DeviceRow.tenantId
          (fun _ same => congrArg Prod.fst same) different]
      · rfl
  | _ => rfl

end View

end Stores

/-! ## Programs on the stores -/

/-- The program that follows its next command, and the stores after it. -/
def performNext {Result : Type} (moment : Moment) (stores : Stores) :
    Stored Result → Option (Stored Result × Stores)
  | .call command next =>
      let executed := stores.execute moment command
      some (next (moment.fate.answer command executed.1),
        if moment.fate.applies then executed.2 else stores)
  | _ => none

theorem performNext_send {Result : Type} {moment : Moment} {stores : Stores}
    {command : Command}
    (next : command.Answer → Stored Result) :
    performNext moment stores (send command >>= next) =
      some (match moment.fate.answer command (stores.execute moment command).1 with
        | .ok answer => next answer
        | .error error => .fail error,
        if moment.fate.applies then (stores.execute moment command).2 else stores) := by
  refine congrArg some (Prod.ext ?_ rfl)
  rcases moment.fate.answer command (stores.execute moment command).1 with error | answer <;> rfl

end Mercury.Gateway
