import Mercury.Gateway.Executions
import Mercury.Gateway.Sessions
import Mercury.Gateway.StoredCommands

/-!
# Created channels

A `ch:create` makes up a channel id and adds its sender to the members. The rows of
`channel_members` refer to `channels`, and nothing that a node does adds a row to that
table (`channels_run`), so that the insert is refused and the push fails. Where a row
has come about otherwise, the sender stays listed and can join (`Stores.Lists`).
-/

namespace Mercury.Gateway

open Foundations Foundations.Program Persistence

/-! ## A listed member -/

section Listed

variable {up : Prop} {tenantId channelId userId : Id16}

/-- The user has a row, and no filled cache of the channel leaves the user out. -/
structure Stores.Lists (tenantId channelId userId : Id16) (stores : Stores) : Prop where
  member : stores.HasMember tenantId channelId userId
  cached : ∀ ids, stores.redis (Cache.membersKey tenantId.val channelId.val) = some (.set ids) →
    ids = [] ∨ userId.val ∈ ids

/-- An answer of stores that list the user; where they are `up`, they answer. -/
structure ListedAnswer (up : Prop) (tenantId channelId userId : Id16)
    (taken : Performed commands Raise) : Prop where
  cached : ∀ ids, taken = ⟨.smembers (Cache.membersKey tenantId.val channelId.val),
    .ok (.ok ids)⟩ → ids = [] ∨ userId.val ∈ ids
  selected : ∀ ids : List Id16, taken = ⟨.selectMemberIds tenantId channelId, .ok ids⟩ →
    userId ∈ ids
  replied : up → ¬MayRaise taken.call → ∃ reply, taken.answer = .ok reply

/-- The command fills no cache of the channel that leaves the user out. -/
def KeepsListed (tenantId channelId userId : Id16) : Command → Prop
  | .replaceSet key ids =>
      key = Cache.membersKey tenantId.val channelId.val → userId.val ∈ ids
  | _ => True

theorem Stores.Lists.answer {stores : Stores} (lists : stores.Lists tenantId channelId userId)
    {moment : Moment} (carried : up → moment.fate = .carried) (command : Command) :
    ListedAnswer up tenantId channelId userId ⟨command, (stores.perform moment command).1⟩ := by
  refine ⟨fun ids same => ?_, fun ids same => ?_, fun isUp surely => ?_⟩
  · have isRead : command = .smembers (Cache.membersKey tenantId.val channelId.val) :=
      congrArg Performed.call same
    subst isRead
    have answered := eq_of_heq (Performed.mk.inj same).2
    rcases fateEq : moment.fate with _ | ⟨reason, applied⟩ | ⟨error, applied⟩ <;>
      simp only [perform, fateEq, Fate.answer, execute, refusal] at answered
    · split at answered
      · exact Or.inl (Except.ok.inj (Except.ok.inj answered)).symm
      · next members held =>
          obtain rfl := Except.ok.inj (Except.ok.inj answered)
          exact lists.cached _ held
      · cases Except.ok.inj answered
    · cases Except.ok.inj answered
    · cases answered
  · have isRead : command = .selectMemberIds tenantId channelId := congrArg Performed.call same
    subst isRead
    have answered := eq_of_heq (Performed.mk.inj same).2
    rcases fateEq : moment.fate with _ | ⟨reason, applied⟩ | ⟨error, applied⟩ <;>
      simp only [perform, fateEq, Fate.answer, execute, refusal] at answered
    · rcases lists.member with ⟨role, rowMem⟩
      obtain rfl := Except.ok.inj answered
      exact List.mem_map.mpr ⟨_, List.mem_filter.mpr ⟨rowMem, by simp⟩, rfl⟩
    · cases answered
    · cases answered
  · exact perform_replies (carried isUp) surely

theorem Stores.Lists.setRedis {stores : Stores} (lists : stores.Lists tenantId channelId userId)
    {key : Bytes} {entry : Option Entry}
    (fills : key = Cache.membersKey tenantId.val channelId.val → ∀ ids, entry = some (.set ids) →
      ids = [] ∨ userId.val ∈ ids) :
    (stores.setRedis key entry).Lists tenantId channelId userId := by
  refine ⟨lists.member, fun ids held => ?_⟩
  by_cases same : Cache.membersKey tenantId.val channelId.val = key
  · subst same
    simp only [Stores.setRedis, Function.update_self] at held
    exact fills rfl ids held
  · simp only [Stores.setRedis, Function.update_of_ne same] at held
    exact lists.cached ids held

theorem Stores.Lists.execute {stores : Stores} (lists : stores.Lists tenantId channelId userId)
    {moment : Moment} {command : Command} (keeps : KeepsListed tenantId channelId userId command)
    (notRemoved : command ≠ .deleteMember tenantId channelId userId) :
    (stores.execute moment command).2.Lists tenantId channelId userId := by
  have same : ∀ other : Stores, other.redis = stores.redis → other.members = stores.members →
      other.Lists tenantId channelId userId := by
    intro other redisEq membersEq
    refine ⟨?_, ?_⟩
    · rw [Stores.HasMember, membersEq]
      exact lists.member
    · rw [redisEq]
      exact lists.cached
  cases command with
  | setex key value => exact lists.setRedis fun _ ids held => by cases held
  | del key => exact lists.setRedis fun _ ids held => by cases held
  | replaceSet key members =>
      apply lists.setRedis
      intro isKey ids held
      cases held
      exact Or.inr (keeps isKey)
  | setNew key value =>
      simp only [Stores.execute]
      split
      · exact lists.setRedis fun _ ids held => by cases held
      · exact lists
  | incr key =>
      simp only [Stores.execute]
      split
      · exact lists.setRedis fun _ ids held => by cases held
      · exact lists.setRedis fun _ ids held => by cases held
      · exact lists
  | insertReaction tid cid mid uid emoji => cases emoji <;> exact same _ rfl rfl
  | insertMember tid cid uid role =>
      simp only [Stores.execute]
      split
      · exact lists
      split
      · next notThere _ =>
          rcases lists.member with ⟨held, rowMem⟩
          refine ⟨⟨held, KeyedTable.mem_upsert.mpr (Or.inl ⟨rowMem, ?_⟩)⟩, lists.cached⟩
          intro keyEq
          exact notThere (List.mem_map.mpr ⟨_, rowMem, keyEq⟩)
      · exact lists
  | deleteMember tid cid uid =>
      rcases lists.member with ⟨held, rowMem⟩
      refine ⟨⟨held, KeyedTable.mem_filter.mpr ⟨rowMem, ?_⟩⟩, lists.cached⟩
      apply decide_eq_true
      rintro ⟨rfl, rfl, rfl⟩
      exact notRemoved rfl
  | upsertCursor row =>
      simp only [Stores.execute]
      split
      · exact same _ rfl rfl
      · exact lists
  | insertUser row =>
      simp only [Stores.execute]
      split
      · exact same _ rfl rfl
      · exact lists
  | insertDevice row =>
      simp only [Stores.execute]
      split
      · exact same _ rfl rfl
      · exact lists
  | _ => exact same _ rfl rfl

/-! ### What keeps the user listed -/

/-- The listing holds the user, if it is one of the channel; where the stores are `up`, there
is one. -/
def ListsUser (up : Prop) (tenantId channelId userId : Id16) (tid cid : Bytes) :
    Except Raise Members.Listing → Prop
  | .ok (.ids memberIds) => tid = tenantId.val → cid = channelId.val → userId.val ∈ memberIds
  | .ok .empty => tid = tenantId.val → cid ≠ channelId.val
  | .ok .unavailable => ¬up
  | .error _ => ¬up

theorem ListedAnswer.not_up {command : Command} {raised : Raise}
    (listed : ListedAnswer up tenantId channelId userId ⟨command, .error raised⟩)
    (surely : ¬MayRaise command) : ¬up := by
  intro isUp
  rcases listed.replied isUp surely with ⟨reply, same⟩
  cases same

theorem loadFromDb_listed {tid cid : Bytes} :
    ((Members.loadFromDb tid cid).through storedBackend).Ensures
      (ListedAnswer up tenantId channelId userId) (KeepsListed tenantId channelId userId)
      (ListsUser up tenantId channelId userId tid cid) := by
  rw [Members.loadFromDb, through_rescue]
  refine Ensures.rescue.mpr (Ensures.post_mono
    (?_ : Ensures _ _ _ (ListsUser up tenantId channelId userId tid cid)) ?_)
  · split
    · next tid' cid' tidEq cidEq =>
        obtain rfl := Id16.ofBytes_eq_some.mp tidEq
        obtain rfl := Id16.ofBytes_eq_some.mp cidEq
        rw [through_bind, ask, through_perform]
        refine Ensures.bind.mpr (Ensures.perform.mpr ⟨trivial, ?_⟩)
        rintro (raised | uuids) listed
        · exact listed.not_up id
        have holds : tid'.val = tenantId.val → cid'.val = channelId.val →
            userId.val ∈ uuids.map Subtype.val := by
          intro tenant channel
          obtain rfl := Subtype.ext tenant
          obtain rfl := Subtype.ext channel
          exact List.mem_map_of_mem (listed.selected uuids rfl)
        dsimp only
        split
        · next none =>
            intro tenant channel
            have member := holds tenant channel
            rw [none] at member
            simp at member
        · next found =>
            rw [through_bind, Cache.putChannelMembers, if_pos found, through_bind, ask,
              through_perform]
            have keeps : KeepsListed tenantId channelId userId (.replaceSet
                (Cache.membersKey tid'.val cid'.val) (uuids.map Subtype.val)) := by
              intro same
              rcases Cache.membersKey_injective tid'.property same with ⟨tenant, channel⟩
              exact holds tenant channel
            refine Ensures.bind.mpr (Ensures.bind.mpr (Ensures.perform.mpr ⟨keeps, ?_⟩))
            rintro (raised | answer) listed
            · exact listed.not_up id
            · exact holds
    · next unknown =>
        rintro rfl rfl
        exact unknown _ _ (Id16.ofBytes_val _) (Id16.ofBytes_val _)
  · rintro (raised | listing) holds
    · exact holds
    · exact holds

/-- A miss, or members that hold the user, if they are the channel's. -/
def CachesUser (up : Prop) (tenantId channelId userId : Id16) (tid cid : Bytes) :
    Except Raise (Option (List Bytes)) → Prop
  | .ok (some members) => tid = tenantId.val → cid = channelId.val → userId.val ∈ members
  | .ok none => True
  | .error _ => ¬up

theorem getChannelMembers_listed {tid cid : Bytes} :
    ((Cache.getChannelMembers tid cid).through storedBackend).Ensures
      (ListedAnswer up tenantId channelId userId) (KeepsListed tenantId channelId userId)
      (CachesUser up tenantId channelId userId tid cid) := by
  rw [Cache.getChannelMembers, through_bind, ask, through_perform]
  refine Ensures.bind.mpr (Ensures.perform.mpr ⟨trivial, ?_⟩)
  rintro (raised | _ | members) listed
  · exact listed.not_up id
  · trivial
  · rcases members with _ | ⟨first, later⟩
    · trivial
    · rintro rfl rfl
      rcases listed.cached _ rfl with none | member
      · cases none
      · exact member

theorem listMembers_listed {tid cid : Bytes} :
    ((Members.listMembers tid cid).through storedBackend).Ensures
      (ListedAnswer up tenantId channelId userId) (KeepsListed tenantId channelId userId)
      (ListsUser up tenantId channelId userId tid cid) := by
  rw [Members.listMembers, through_bind]
  refine Ensures.bind.mpr (Ensures.post_mono getChannelMembers_listed ?_)
  rintro (raised | _ | members) cached
  · exact cached
  · exact loadFromDb_listed
  · exact cached

/-- Where the user is listed and the stores are up, `member?` answers that the user is one. -/
theorem isMember_listed {tid cid uid : Bytes} :
    ((Members.isMember tid cid uid).through storedBackend).Ensures
      (ListedAnswer up tenantId channelId userId) (KeepsListed tenantId channelId userId)
      fun outcome => up → tid = tenantId.val → cid = channelId.val → uid = userId.val →
        outcome = .ok (.ok true) := by
  rw [Members.isMember, through_bind]
  refine Ensures.bind.mpr (Ensures.post_mono listMembers_listed ?_)
  rintro (raised | memberIds | _ | _) lists
  · intro isUp
    exact absurd isUp lists
  · rintro - rfl rfl rfl
    exact congrArg (Except.ok ∘ Except.ok) (decide_eq_true (lists rfl rfl))
  · rintro - tenant channel
    exact absurd channel (lists tenant)
  · intro isUp
    exact absurd isUp lists

/-- No call fills the cache of the channel without the user. -/
theorem stored_listed {json : Json} {rate : ℕ} (asked : Call) :
    PerformsOnly (ListedAnswer up tenantId channelId userId)
      (KeepsListed tenantId channelId userId) (stored json rate asked) := by
  have others : (∀ key ids, ¬StoredCommands asked (.replaceSet key ids)) →
      PerformsOnly (ListedAnswer up tenantId channelId userId)
        (KeepsListed tenantId channelId userId) (stored json rate asked) := by
    intro fills
    refine Ensures.mono (stored_commands asked) (fun command issued => ?_) fun _ _ => trivial
    cases command with
    | replaceSet key ids => exact absurd issued (fills key ids)
    | _ => trivial
  cases asked with
  | isMember => exact isMember_listed.post_mono fun _ _ => trivial
  | listMembers => exact listMembers_listed.post_mono fun _ _ => trivial
  | _ => exact others fun key ids issued => by cases issued

theorem activity_listed {native : Native} {json : Json} {rate : ℕ} (activity : Activity) :
    PerformsOnly (ListedAnswer up tenantId channelId userId)
      (KeepsListed tenantId channelId userId) (activity.program native json rate) := by
  have through : ∀ {Result : Type} (program : Handler Result),
      PerformsOnly (ListedAnswer up tenantId channelId userId)
        (KeepsListed tenantId channelId userId) (program.through (stored json rate)) :=
    fun program => by
      have ensured : program.Ensures (fun _ => True) (fun _ => True) fun _ => True := Ensures.any
      exact ensured.through fun asked _ => (stored_listed asked).post_mono fun _ _ => trivial
  cases activity with
  | connects tid uid did =>
      have provisions := @ensureDevice_commands (ListedAnswer up tenantId channelId userId) tid uid
        did (KeepsListed tenantId channelId userId) trivial (fun _ _ => trivial)
        (fun _ _ => trivial) fun _ _ => trivial
      exact Ensures.seq (Ensures.seq provisions fun _ => trivial) fun _ => trivial
  | handles socket data => exact Ensures.seq (through _) fun _ => trivial
  | runs task => exact through _

/-! ### Runs that keep the user -/

/-- The step does not remove the user from the channel. -/
def KeepsMember (tenantId channelId userId : Id16) (_ : Stores) : SerialLabel → Prop
  | .performed _ made => ∀ taken ∈ made, taken.call ≠ .deleteMember tenantId channelId userId
  | .expired _ => True

theorem Stores.Lists.perform {stores : Stores} (lists : stores.Lists tenantId channelId userId)
    {moment : Moment} {command : Command} (keeps : KeepsListed tenantId channelId userId command)
    (notRemoved : command ≠ .deleteMember tenantId channelId userId) :
    (stores.perform moment command).2.Lists tenantId channelId userId := by
  rcases perform_after moment stores command with same | executed
  · rwa [same]
  · rw [executed]
    exact lists.execute keeps notRemoved

/-- The user stays listed while nobody removes them. -/
theorem Stores.Lists.run {native : Native} {json : Json} {rate : ℕ} {stores later : Stores}
    {labels : List SerialLabel} (lists : stores.Lists tenantId channelId userId)
    (run : Run (Guarded (KeepsMember tenantId channelId userId) (SerialStep native json rate))
      stores labels later) : later.Lists tenantId channelId userId := by
  refine run.invariant ?_ lists
  rintro source label target holds ⟨keeps, step⟩
  cases step with
  | @performed activity moments =>
      exact (Stores.run_ensures (fun _ => True)
        (fun taken => taken.call ≠ .deleteMember tenantId channelId userId)
        (activity_listed activity)
        (fun _ holds _ => holds.answer (fun down : False => down.elim) _)
        (fun _ holds listed notRemoved => holds.perform listed notRemoved) (fun _ => trivial)
        holds keeps).2
  | expired => exact holds.setRedis fun _ ids held => by cases held

/-! ### The join of a listed member -/

/-- The command leaves the user listed. -/
def KeepsLists (tenantId channelId userId : Id16) (command : Command) : Prop :=
  KeepsListed tenantId channelId userId command ∧
    command ≠ .deleteMember tenantId channelId userId

/-- On stores that are up and list the user, the program keeps the user listed and ends
without an exception. -/
abbrev Succeeds {Result : Type} (tenantId channelId userId : Id16) (program : Stored Result) :
    Prop :=
  program.Ensures (ListedAnswer True tenantId channelId userId)
    (KeepsLists tenantId channelId userId) fun outcome => ∃ result, outcome = .ok result

theorem succeeds_seq {Result Other : Type} {program : Stored Result}
    {next : Result → Stored Other} {post : Except Raise Other → Prop}
    (first : Succeeds tenantId channelId userId program)
    (later : ∀ result, (next result).Ensures (ListedAnswer True tenantId channelId userId)
      (KeepsLists tenantId channelId userId) post) :
    (program >>= next).Ensures (ListedAnswer True tenantId channelId userId)
      (KeepsLists tenantId channelId userId) post := by
  refine Ensures.bind.mpr (Ensures.post_mono first ?_)
  rintro outcome ⟨result, rfl⟩
  exact later result

theorem succeeds_send {command : Command} (surely : ¬MayRaise command)
    (keeps : KeepsLists tenantId channelId userId command) :
    Succeeds tenantId channelId userId (send command) :=
  Ensures.perform.mpr ⟨keeps, fun _ listed => listed.replied trivial surely⟩

theorem succeeds_pure {Result : Type} (result : Result) :
    Succeeds tenantId channelId userId (pure result) :=
  ⟨result, rfl⟩

theorem warmUserCache_succeeds {json : Json} {rate : ℕ} {tid uid : Bytes} :
    Succeeds tenantId channelId userId ((warmUserCache tid uid).through (stored json rate)) := by
  have found : Succeeds tenantId channelId userId (findUser tid uid) := by
    refine Ensures.rescue.mpr (Ensures.post_mono (?_ : Succeeds tenantId channelId userId _) ?_)
    · split
      · exact succeeds_seq (succeeds_send id ⟨trivial, fun same => by cases same⟩)
          fun _ => succeeds_pure _
      · exact succeeds_pure _
    · rintro outcome ⟨result, rfl⟩
      exact ⟨result, rfl⟩
  have cached : Succeeds tenantId channelId userId (Cache.getUser json tid uid) := by
    refine succeeds_seq (succeeds_send id ⟨trivial, fun same => by cases same⟩) fun answer => ?_
    split
    · exact succeeds_pure _
    · split
      · exact succeeds_pure _
      · exact succeeds_seq (succeeds_send id ⟨trivial, fun same => by cases same⟩)
          fun _ => succeeds_pure _
    · exact succeeds_pure _
  rw [warmUserCache, through_bind, call, through_perform]
  apply succeeds_seq cached
  intro hit
  split
  · exact succeeds_pure _
  rw [through_bind, call, through_perform]
  apply succeeds_seq found
  intro user
  split
  · exact succeeds_pure _
  · rw [call, through_perform]
    exact succeeds_seq (succeeds_send id ⟨trivial, fun same => by cases same⟩)
      fun _ => succeeds_pure _
  · exact succeeds_pure _

/-- The reply of a join that is accepted. -/
def AnswersJoin (socket : Socket) (ref : ℕ) (outcome : Except Raise Reaction) : Prop :=
  ∃ joined, outcome = .ok (replyOk joined ref socket.nextTopicId [])

theorem join_listed {native : Native} {json : Json} {rate : ℕ} {socket : Socket} {data : Bytes}
    {ref : ℕ} (frameEq : Frame.parse data = .join ref (channelOf channelId))
    (room : socket.nextTopicId ≤ 0xFFFF) :
    (storedHandleIn native json rate data socket).Ensures
      (ListedAnswer True socket.tenantId channelId socket.userId)
      (KeepsLists socket.tenantId channelId socket.userId) (AnswersJoin socket ref) := by
  have allocated : allocateTopicId socket =
      some (socket.nextTopicId, { socket with nextTopicId := socket.nextTopicId + 1 }) :=
    if_neg (Nat.not_lt.mpr room)
  have member := (@isMember_listed True socket.tenantId channelId socket.userId
    socket.tenantId.val channelId.val socket.userId.val).and isMember_storedCommands
  have joins : ((doJoin (channelOf channelId) socket).through (stored json rate)).Ensures
      (ListedAnswer True socket.tenantId channelId socket.userId)
      (KeepsLists socket.tenantId channelId socket.userId)
      fun outcome => ∃ joined, outcome = .ok (.ok (socket.nextTopicId, joined)) := by
    rw [doJoin, channelOf, stripPrefix_append]
    dsimp only
    rw [joinChannel, channelIdToBin_encode16, allocated]
    dsimp only
    rw [through_bind, call, through_perform]
    refine Ensures.bind.mpr (Ensures.mono member (fun command both => ⟨both.1, ?_⟩) ?_)
    · rintro rfl
      exact both.2
    rintro outcome ⟨isMember, -⟩
    obtain rfl := isMember trivial rfl rfl rfl
    dsimp only
    rw [through_bind, call, through_perform]
    refine succeeds_seq (succeeds_send id ⟨trivial, fun same => by cases same⟩) fun _ => ?_
    rw [through_bind]
    apply succeeds_seq warmUserCache_succeeds
    intro _
    rw [through_bind, call, through_perform]
    exact succeeds_seq (succeeds_send id ⟨trivial, fun same => by cases same⟩) fun _ => ⟨_, rfl⟩
  rw [storedHandleIn, handleIn, frameEq, handleFrame, handleJoin, through_bind]
  refine Ensures.bind.mpr (Ensures.post_mono joins ?_)
  rintro outcome ⟨joined, rfl⟩
  exact ⟨joined, rfl⟩

end Listed

/-! ## The creation of a channel -/

/-- Postgres enforces that members are members of channels that have a row. -/
def Stores.EnforcesChannels (stores : Stores) : Prop :=
  ∀ row ∈ stores.members, (⟨row.tenantId, row.channelId⟩ : ChannelRow) ∈ stores.channels.rows

/-- The rows that `ensure_device` provides. -/
structure Stores.Provisioned (tenantId userId deviceId : Id16) (stores : Stores) : Prop where
  tenant : tenantId ∈ stores.tenants.rows.map TenantRow.tenantId
  user : (tenantId, userId) ∈ stores.users.rows.map UserRow.key
  device : (tenantId, deviceId) ∈ stores.devices.rows.map DeviceRow.key

/-- The start of a socket provides the rows, where its commands are carried out. -/
theorem provisioned_initSocket {tenantId userId deviceId : Id16} {stores : Stores}
    {moments : ℕ → Moment} (carried : ∀ index, (moments index).fate = .carried) :
    (stores.run (initSocket tenantId userId deviceId) moments).world.Provisioned tenantId userId
      deviceId := by
  let tenantRow : TenantRow :=
    ⟨tenantId, ascii "default", ascii "free", 1000, 100, 100, (moments 0).time⟩
  let userRow : UserRow := ⟨tenantId, userId, some (ascii "user"), none, (moments 0).time⟩
  let deviceRow : DeviceRow :=
    ⟨tenantId, deviceId, userId, ascii "browser", ascii "web", none, (moments 0).time⟩
  let first : Stores := { stores with tenants := stores.tenants.insertNew tenantRow }
  let second : Stores := { first with users := first.users.insertNew userRow }
  let third : Stores := { second with devices := second.devices.insertNew deviceRow }
  have tenants : Stores.perform (moments 1) stores (.insertTenant tenantRow) =
      (.ok (.ok ()), first) := by
    simp [Stores.perform, carried 1, Fate.answer, Fate.applies, Stores.execute, first]
  have users : Stores.perform (moments 2) first (.insertUser userRow) = (.ok (.ok ()), second) := by
    have known : userRow.tenantId ∈ first.tenants.rows.map TenantRow.tenantId :=
      KeyedTable.mem_keys_insertNew stores.tenants tenantRow
    simp only [Stores.perform, carried 2, Fate.answer, Fate.applies, Stores.execute, if_pos known]
    rfl
  have devices : Stores.perform (moments 3) second (.insertDevice deviceRow) =
      (.ok (.ok ()), third) := by
    have known : (deviceRow.tenantId, deviceRow.userId) ∈ second.users.rows.map UserRow.key :=
      KeyedTable.mem_keys_insertNew first.users userRow
    simp only [Stores.perform, carried 3, Fate.answer, Fate.applies, Stores.execute, if_pos known]
    rfl
  have provisions : stores.run (ensureDevice tenantId userId deviceId) moments =
      ⟨[⟨.time, .ok (moments 0).time⟩, ⟨.insertTenant tenantRow, .ok (.ok ())⟩,
        ⟨.insertUser userRow, .ok (.ok ())⟩, ⟨.insertDevice deviceRow, .ok (.ok ())⟩],
        .ok (.ok ()), third⟩ := by
    refine (Stores.run_send_bind _ (rfl : Stores.perform (moments 0) stores .time =
      (.ok (moments 0).time, stores))).trans ?_
    rw [Stores.run_send_bind _ tenants]
    dsimp only
    rw [Stores.run_send_bind _ users]
    dsimp only
    rw [Stores.run_send devices]
  rw [initSocket, Stores.run_bind _ provisions]
  exact ⟨KeyedTable.mem_keys_insertNew stores.tenants tenantRow,
    KeyedTable.mem_keys_insertNew first.users userRow,
    KeyedTable.mem_keys_insertNew second.devices deviceRow⟩

/-- Nothing that a node does adds a row of `channels`. -/
theorem channels_run {Result : Type} {stores : Stores} {moments : ℕ → Moment}
    (program : Stored Result) : (stores.run program moments).world.channels = stores.channels := by
  refine @Stores.run_preserves stores moments Result (fun other => other.channels = stores.channels)
    ?_ program rfl
  intro moment source command same
  rw [← same]
  cases command with
  | insertReaction tid cid mid uid emoji => cases emoji <;> rfl
  | setNew | incr | insertMember | upsertCursor | insertUser | insertDevice =>
      simp only [Stores.execute]
      repeat' split
      all_goals rfl
  | _ => rfl

section Creation

variable {tenantId channelId userId : Id16} {stores : Stores} {moments : ℕ → Moment}

theorem Stores.mem_memberKeys :
    (tenantId, channelId, userId) ∈ stores.members.rows.map MemberRow.key ↔
      stores.HasMember tenantId channelId userId := by
  constructor
  · intro member
    rcases List.mem_map.mp member with ⟨⟨tid, cid, uid, role⟩, rowMem, same⟩
    cases same
    exact ⟨role, rowMem⟩
  · rintro ⟨role, rowMem⟩
    exact List.mem_map.mpr ⟨_, rowMem, rfl⟩

theorem execute_insertMember {moment : Moment} {role : ℕ}
    (known : (tenantId, userId) ∈ stores.users.rows.map UserRow.key)
    (created : (⟨tenantId, channelId⟩ : ChannelRow) ∈ stores.channels.rows) :
    ∃ after, stores.execute moment (.insertMember tenantId channelId userId role) =
      (.ok (.ok ()), after) ∧ ∀ other, after.HasMember tenantId channelId other ↔
        other = userId ∨ stores.HasMember tenantId channelId other := by
  simp only [Stores.execute]
  split
  · next member =>
      refine ⟨stores, rfl, fun other => ⟨.inr, ?_⟩⟩
      rintro (rfl | before)
      · exact Stores.mem_memberKeys.mp member
      · exact before
  · rw [if_pos ⟨created, known⟩]
    refine ⟨_, rfl, fun other => ?_⟩
    rw [← Stores.mem_memberKeys, ← Stores.mem_memberKeys, KeyedTable.mem_keys_upsert]
    simp [MemberRow.key]

theorem execute_insertMember_refused {moment : Moment} {role : ℕ}
    (enforced : stores.EnforcesChannels)
    (missing : (⟨tenantId, channelId⟩ : ChannelRow) ∉ stores.channels.rows) :
    stores.execute moment (.insertMember tenantId channelId userId role) =
      (.error databaseError, stores) := by
  have notMember : (tenantId, channelId, userId) ∉ stores.members.rows.map MemberRow.key := by
    intro member
    rcases Stores.mem_memberKeys.mp member with ⟨held, rowMem⟩
    exact missing (enforced _ rowMem)
  simp only [Stores.execute]
  rw [if_neg notMember, if_neg fun both => missing both.1]

theorem perform_insertMember {moment : Moment} {role : ℕ} (carried : moment.fate = .carried) :
    Stores.perform moment stores (.insertMember tenantId channelId userId role) =
      stores.execute moment (.insertMember tenantId channelId userId role) := by
  simp [Stores.perform, carried, Fate.answer, Fate.applies]

theorem run_addMember (carried : ∀ index, (moments index).fate = .carried)
    (known : (tenantId, userId) ∈ stores.users.rows.map UserRow.key)
    (created : (⟨tenantId, channelId⟩ : ChannelRow) ∈ stores.channels.rows) :
    ∃ made after,
      stores.run ((Members.addMember tenantId.val channelId.val userId.val 0).through storedBackend)
          moments = ⟨made, .ok (.ok ()), after⟩ ∧
        after.redis (Cache.membersKey tenantId.val channelId.val) = none ∧
        ∀ other, after.HasMember tenantId channelId other ↔
          other = userId ∨ stores.HasMember tenantId channelId other := by
  rcases @execute_insertMember tenantId channelId userId stores (moments 0) 0 known created with
    ⟨middle, inserts, members⟩
  rw [← perform_insertMember (carried 0)] at inserts
  have emptied : middle.run ((Cache.invalidateChannelMembers tenantId.val channelId.val).through
      storedBackend) (dropInputs 1 moments) =
        ⟨[⟨.del (Cache.membersKey tenantId.val channelId.val), .ok (.ok ())⟩], .ok (),
          middle.setRedis (Cache.membersKey tenantId.val channelId.val) none⟩ := by
    rw [Cache.invalidateChannelMembers, through_bind, ask, through_perform]
    exact Stores.run_send_bind _ (Stores.perform_del (carried 1))
  refine ⟨[⟨.insertMember tenantId channelId userId 0, .ok (.ok ())⟩,
      ⟨.del (Cache.membersKey tenantId.val channelId.val), .ok (.ok ())⟩],
    middle.setRedis (Cache.membersKey tenantId.val channelId.val) none, ?_,
    Function.update_self _ _ _, members⟩
  · simp only [Members.addMember, Id16.ofBytes_val]
    rw [through_bind, ask, through_perform]
    refine (Stores.run_send_bind _ inserts).trans ?_
    dsimp only
    rw [through_bind, Stores.run_bind _ emptied]
    rfl

theorem run_addMember_refused (carried : ∀ index, (moments index).fate = .carried)
    (enforced : stores.EnforcesChannels)
    (missing : (⟨tenantId, channelId⟩ : ChannelRow) ∉ stores.channels.rows) :
    stores.run ((Members.addMember tenantId.val channelId.val userId.val 0).through storedBackend)
        moments =
      ⟨[⟨.insertMember tenantId channelId userId 0, .error databaseError⟩],
        .error databaseError, stores⟩ := by
  have refused := @execute_insertMember_refused tenantId channelId userId stores (moments 0) 0
    enforced missing
  rw [← perform_insertMember (carried 0)] at refused
  simp only [Members.addMember, Id16.ofBytes_val]
  rw [through_bind, ask, through_perform]
  exact Stores.run_send_bind_error _ refused

end Creation

/-! ## The push -/

/-- A push that creates a channel which `validate_channel` accepts. -/
structure CreatePush (socket : Socket) (data : Bytes) where
  ref : ℕ
  topicId : ℕ
  info : TopicInfo
  channelType : Byte
  rest : Bytes
  parsed : Frame.parse data = .push ref topicId Event.chCreate (channelType :: rest)
  entry : socket.topicIds.lookup topicId = some info
  accepted : validateChannel socket.tenantId.val channelType.val (createName rest) = .ok (.ok ())

namespace CreatePush

variable {native : Native} {json : Json} {rate : ℕ} {socket : Socket} {data : Bytes}
  (push : CreatePush socket data) {stores : Stores} {moments : ℕ → Moment} {channelId : Id16}

theorem handled :
    storedHandleIn native json rate data socket =
      rescue
        (send .generateId >>= fun channelId =>
          (Members.addMember socket.tenantId.val channelId socket.userId.val 0).through
              storedBackend >>= fun _ =>
            pure (replyOk socket push.ref push.topicId channelId))
        fun _ => pure (replyError socket push.ref push.topicId (ascii "internal_error")) := by
  have notChannel : ¬(Event.chCreate ∈ Event.requiresChannel ∧ push.info.channelId = none) :=
    fun both => absurd both.1 (by decide)
  have dispatched : dispatch native push.ref push.topicId (push.channelType :: push.rest)
      push.info socket Event.chCreate = dispatchChCreate push.ref push.topicId
        (push.channelType :: push.rest) socket := by
    simp [dispatch, Event.chCreate, Event.msgSend, Event.msgHistory, Event.msgTyping,
      Event.msgRead, Event.mlsKeyPackage, Event.mlsFetchKp, Event.mlsCommit, Event.mlsWelcome,
      Event.mlsRemove, Event.syncRequest, Event.syncPush, Event.syncCursor]
  rw [storedHandleIn, handleIn, push.parsed, handleFrame, handlePush, push.entry]
  dsimp only
  rw [if_neg notChannel, dispatched, dispatchChCreate, push.accepted, through_rescue]
  apply congrArg (rescue · _)
  change through _ (call .generateChannelId >>= fun channelId =>
    call (.addMember socket.tenantId.val channelId socket.userId.val) >>= fun _ =>
      pure (replyOk socket push.ref push.topicId channelId)) = _
  rw [through_bind, call, through_perform]
  refine congrArg _ (funext fun channelId => ?_)
  rw [through_bind, call, through_perform]
  rfl

theorem perform_generateId (generated : (moments 0).id = channelId.val) :
    Stores.perform (moments 0) stores .generateId = (.ok channelId.val, stores) := by
  simp only [Stores.perform, generated]

/-- Where the channel has a row, the push is answered with its id and the sender is listed. -/
theorem executed_of_created (carried : ∀ index, (moments index).fate = .carried)
    (generated : (moments 0).id = channelId.val)
    (known : (socket.tenantId, socket.userId) ∈ stores.users.rows.map UserRow.key)
    (created : (⟨socket.tenantId, channelId⟩ : ChannelRow) ∈ stores.channels.rows) :
    (stores.run (storedHandleIn native json rate data socket) moments).outcome =
        .ok (replyOk socket push.ref push.topicId channelId.val) ∧
      (stores.run (storedHandleIn native json rate data socket) moments).world.Lists
        socket.tenantId channelId socket.userId := by
  rcases @run_addMember socket.tenantId channelId socket.userId stores (dropInputs 1 moments)
    (fun index => carried (index + 1)) known created with ⟨made, after, added, emptied, members⟩
  have executed : stores.run (storedHandleIn native json rate data socket) moments =
      ⟨⟨.generateId, .ok channelId.val⟩ :: (made ++ []),
        .ok (replyOk socket push.ref push.topicId channelId.val), after⟩ := by
    rw [push.handled]
    refine Stores.run_rescue _ ((Stores.run_send_bind _ (perform_generateId generated)).trans ?_)
    rw [Stores.run_bind _ added]
    rfl
  rw [executed]
  refine ⟨rfl, (members _).mpr (.inl rfl), fun ids held => ?_⟩
  rw [emptied] at held
  cases held

theorem executed_of_missing (carried : ∀ index, (moments index).fate = .carried)
    (generated : (moments 0).id = channelId.val) (enforced : stores.EnforcesChannels)
    (missing : (⟨socket.tenantId, channelId⟩ : ChannelRow) ∉ stores.channels.rows) :
    (stores.run (storedHandleIn native json rate data socket) moments).outcome =
      .ok (replyError socket push.ref push.topicId (ascii "internal_error")) := by
  have refused := @run_addMember_refused socket.tenantId channelId socket.userId stores
    (dropInputs 1 moments) (fun index => carried (index + 1)) enforced missing
  have executed : stores.run (storedHandleIn native json rate data socket) moments =
      ⟨[⟨.generateId, .ok channelId.val⟩,
          ⟨.insertMember socket.tenantId channelId socket.userId 0, .error databaseError⟩],
        .ok (replyError socket push.ref push.topicId (ascii "internal_error")), stores⟩ := by
    rw [push.handled]
    refine @Stores.run_rescue_error _ _ _ _ _ _ databaseError _ _ rfl
      ((Stores.run_send_bind _ (perform_generateId generated)).trans ?_)
    rw [Stores.run_bind_error _ refused]
  rw [executed]

/-- The push is answered with an id, and in every later state that the activities of the node
lead to without removing the user, a socket of the user with a free topic id joins. -/
structure Usable (native : Native) (json : Json) (rate : ℕ) (channelId : Id16)
    (executed : Execution commands Raise Reaction Stores) : Prop where
  answered : executed.outcome = .ok (replyOk socket push.ref push.topicId channelId.val)
  joins : ∀ (labels : List SerialLabel) (later : Stores),
    Run (Guarded (KeepsMember socket.tenantId channelId socket.userId)
      (SerialStep native json rate)) executed.world labels later →
    ∀ (joining : Socket) (joinData : Bytes) (ref : ℕ) (moments : ℕ → Moment),
      joining.tenantId = socket.tenantId → joining.userId = socket.userId →
      joining.nextTopicId ≤ 0xFFFF → Frame.parse joinData = .join ref (channelOf channelId) →
      (∀ index, (moments index).fate = .carried) →
        AnswersJoin joining ref
          (later.run (storedHandleIn native json rate joinData joining) moments).outcome

/-- A created channel is usable exactly where its id has a row already. -/
theorem usable_iff (native : Native) (json : Json) (rate : ℕ) (stores : Stores)
    (moments : ℕ → Moment) (channelId : Id16)
    (carried : ∀ index, (moments index).fate = .carried)
    (generated : (moments 0).id = channelId.val) (enforced : stores.EnforcesChannels)
    (provisioned : stores.Provisioned socket.tenantId socket.userId socket.deviceId) :
    push.Usable native json rate channelId
        (stores.run (storedHandleIn native json rate data socket) moments) ↔
      (⟨socket.tenantId, channelId⟩ : ChannelRow) ∈ stores.channels.rows := by
  constructor
  · intro usable
    by_contra missing
    have refused := @executed_of_missing native json rate socket data push stores moments channelId
      carried generated enforced missing
    have same := Except.ok.inj (refused.symm.trans usable.answered)
    exact replyError_ne_ok (congrArg Reaction.pushed same)
  · intro created
    rcases @executed_of_created native json rate socket data push stores moments channelId carried
      generated provisioned.user created with ⟨answered, lists⟩
    refine ⟨answered, ?_⟩
    intro labels later run joining joinData ref laterMoments tenant user room frameEq laterCarried
    have listed := lists.run run
    rw [← tenant, ← user] at listed
    exact (Stores.run_ensures (fun moment => moment.fate = .carried) (fun _ => True)
      (join_listed frameEq room) (fun carriedOut holds _ => holds.answer (fun _ => carriedOut) _)
      (fun _ holds keeps _ => holds.perform keeps.1 keeps.2) laterCarried listed
      fun _ _ => trivial).1

end CreatePush

/-! ### The first channel of a user -/

/-- The stores after user 5 has connected for the first time. -/
def provisionedStores : Stores :=
  ((onlyCursors .empty).run (initSocket (.replicate 1) (.replicate 5) (.replicate 3))
    fun _ => carriedOut).world

theorem provisioned_provisionedStores :
    provisionedStores.Provisioned (.replicate 1) (.replicate 5) (.replicate 3) :=
  provisioned_initSocket fun _ => rfl

theorem members_provisionedStores : provisionedStores.members = .empty :=
  rfl

/-- User 5 creates a conversation without a name. -/
def createOf : Bytes :=
  Sdk.pushFrame 2 1 Event.chCreate [0]

def firstPush : CreatePush (memberSocket 5) createOf where
  ref := 2
  topicId := 1
  info := channelEntry (.replicate 1) (.replicate 7)
  channelType := 0
  rest := []
  parsed := Sdk.parse_pushFrame _ _ (by decide) (by decide)
  entry := entry_memberFive
  accepted := rfl

/-- The id that is made up is that of channel 6. -/
def generatesSix : Moment :=
  { carriedOut with id := (Id16.replicate 6).val }

/-- The push of a provisioned user fails, with every command carried out. -/
theorem firstPush_not_usable :
    provisionedStores.Provisioned (.replicate 1) (.replicate 5) (.replicate 3) ∧
      ¬firstPush.Usable (Capnp.native [] []) unusedJson 100 (.replicate 6)
        (provisionedStores.run (storedHandleIn (Capnp.native [] []) unusedJson 100 createOf
          (memberSocket 5)) fun _ => generatesSix) := by
  refine ⟨provisioned_provisionedStores, fun usable => ?_⟩
  have enforced : provisionedStores.EnforcesChannels := by
    intro row rowMem
    rw [members_provisionedStores] at rowMem
    cases rowMem
  have missing : (⟨.replicate 1, .replicate 6⟩ : ChannelRow) ∉ provisionedStores.channels.rows := by
    rw [provisionedStores, channels_run]
    exact List.not_mem_nil
  have refused := @CreatePush.executed_of_missing (Capnp.native [] []) unusedJson 100 _ _ firstPush
    provisionedStores (fun _ => generatesSix) (.replicate 6) (fun _ => rfl) rfl enforced missing
  have same := Except.ok.inj (refused.symm.trans usable.answered)
  exact replyError_ne_ok (congrArg Reaction.pushed same)

/-- The stores where channel 6 has a row. -/
def createdStores : Stores :=
  { provisionedStores with
    channels := { rows := [⟨.replicate 1, .replicate 6⟩], unique := by decide } }

theorem firstPush_usable_of_row :
    firstPush.Usable (Capnp.native [] []) unusedJson 100 (.replicate 6)
      (createdStores.run (storedHandleIn (Capnp.native [] []) unusedJson 100 createOf
        (memberSocket 5)) fun _ => generatesSix) := by
  have enforced : createdStores.EnforcesChannels := by
    intro row rowMem
    cases (members_provisionedStores ▸ rowMem : row ∈ KeyedTable.empty)
  have provisioned : createdStores.Provisioned (.replicate 1) (.replicate 5) (.replicate 3) :=
    ⟨provisioned_provisionedStores.tenant, provisioned_provisionedStores.user,
      provisioned_provisionedStores.device⟩
  exact (firstPush.usable_iff (Capnp.native [] []) unusedJson 100 createdStores
    (fun _ => generatesSix) (.replicate 6) (fun _ => rfl) rfl enforced provisioned).mpr
      (List.mem_singleton_self _)

end Mercury.Gateway
