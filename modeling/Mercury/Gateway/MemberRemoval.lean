import Mercury.Gateway.Executions
import Mercury.Gateway.Sessions
import Mercury.Gateway.SocketProcess

/-!
# Removals of members

A removal reads the caller's role, deletes the row of the target, empties the members
cache and broadcasts the commit. The handler does not look at what became of the
deletion, and so the commit reaches the other members also where no row was deleted.
Nor does it look at the commit: one that does not decode is broadcast like any other.
-/

namespace Mercury.Gateway

open Foundations Foundations.Program Persistence

/-- The user has a row with the role of an admin. -/
def Stores.HasAdmin (stores : Stores) (tenantId channelId userId : Id16) : Prop :=
  ∃ role, 1 ≤ role ∧ (⟨tenantId, channelId, userId, role⟩ : MemberRow) ∈ stores.members

/-- What `get_role` makes of the answer of the database. -/
def roleLookup : Except Raise (Option ℕ) → Members.RoleLookup
  | .ok (some role) => .role role
  | .ok none => .notFound
  | .error _ => .dbError

section Commands

variable {tenantId channelId userId : Id16} {moments : ℕ → Moment} {stores : Stores}

/-- The answer of the database to the query for a role. -/
def roleAnswer (tenantId channelId userId : Id16) (moment : Moment) (stores : Stores) :
    Except Raise (Option ℕ) :=
  (stores.perform moment (.selectRole tenantId channelId userId)).1

theorem perform_selectRole {moment : Moment} :
    Stores.perform moment stores (.selectRole tenantId channelId userId) =
      (roleAnswer tenantId channelId userId moment stores, stores) :=
  Prod.ext rfl (ite_self _)

theorem run_getRole :
    stores.run ((Members.getRole tenantId.val channelId.val userId.val).through storedBackend)
        moments =
      ⟨[⟨.selectRole tenantId channelId userId,
          roleAnswer tenantId channelId userId (moments 0) stores⟩],
        .ok (roleLookup (roleAnswer tenantId channelId userId (moments 0) stores)), stores⟩ := by
  have performed := @perform_selectRole tenantId channelId userId stores (moments 0)
  generalize roleAnswer tenantId channelId userId (moments 0) stores = answer at performed ⊢
  simp only [Members.getRole, Id16.ofBytes_val]
  rw [through_rescue, through_bind, ask, through_perform, storedBackend]
  rcases answer with raised | role
  · exact Stores.run_rescue_error rfl (Stores.run_send_bind_error _ performed)
  · refine Stores.run_rescue _ ((Stores.run_send_bind _ performed).trans ?_)
    rcases role with _ | role <;> rfl

theorem roleAnswer_eq_some {moment : Moment} {role : ℕ} :
    roleAnswer tenantId channelId userId moment stores = .ok (some role) ↔
      moment.fate = .carried ∧
        (⟨tenantId, channelId, userId, role⟩ : MemberRow) ∈ stores.members := by
  have found : (stores.members.rows.find? fun row => row.tenantId = tenantId ∧
      row.channelId = channelId ∧ row.userId = userId).map MemberRow.role = some role ↔
        (⟨tenantId, channelId, userId, role⟩ : MemberRow) ∈ stores.members := by
    refine Option.map_eq_some_iff.trans ⟨?_, fun rowMem => ?_⟩
    · rintro ⟨⟨tid, cid, uid, held⟩, search, rfl⟩
      have wanted : tid = tenantId ∧ cid = channelId ∧ uid = userId := by
        simpa using List.find?_some search
      rcases wanted with ⟨rfl, rfl, rfl⟩
      exact List.mem_of_find?_eq_some search
    · have some : (stores.members.rows.find? fun row => decide (row.tenantId = tenantId ∧
          row.channelId = channelId ∧ row.userId = userId)).isSome :=
        List.find?_isSome.mpr ⟨_, rowMem, decide_eq_true ⟨rfl, rfl, rfl⟩⟩
      rcases Option.isSome_iff_exists.mp some with ⟨row, search⟩
      have wanted : row.tenantId = tenantId ∧ row.channelId = channelId ∧ row.userId = userId := by
        simpa using List.find?_some search
      have same : row = ⟨tenantId, channelId, userId, role⟩ :=
        KeyedTable.eq_of_key_eq (List.mem_of_find?_eq_some search) rowMem
          (Prod.ext wanted.1 (Prod.ext wanted.2.1 wanted.2.2))
      exact ⟨row, search, congrArg MemberRow.role same⟩
  rw [← found]
  rcases fateEq : moment.fate with _ | ⟨reason, applied⟩ | ⟨error, applied⟩ <;>
    simp [roleAnswer, Stores.perform, fateEq, Fate.answer, Stores.execute, refusal]

/-- The rows after a removal of the target. -/
def Stores.membersWithout (stores : Stores) (tenantId channelId userId : Id16) :
    KeyedTable MemberRow.key :=
  stores.members.filter fun row =>
    ¬(row.tenantId = tenantId ∧ row.channelId = channelId ∧ row.userId = userId)

theorem members_deleteMember {moment : Moment} :
    (stores.perform moment (.deleteMember tenantId channelId userId)).2.members =
      if moment.fate.applies then stores.membersWithout tenantId channelId userId
      else stores.members := by
  simp only [Stores.perform]
  split <;> rfl

theorem members_del {moment : Moment} {key : Bytes} :
    (stores.perform moment (.del key)).2.members = stores.members := by
  simp only [Stores.perform]
  split <;> rfl

theorem run_invalidateChannelMembers {tid cid : Bytes} :
    ∃ answer outcome after,
      stores.run ((Cache.invalidateChannelMembers tid cid).through storedBackend) moments =
          ⟨[⟨.del (Cache.membersKey tid cid), answer⟩], outcome, after⟩ ∧
        after.members = stores.members := by
  have kept := @members_del stores (moments 0) (Cache.membersKey tid cid)
  rw [Cache.invalidateChannelMembers, through_bind, ask, through_perform, storedBackend]
  rcases performed : Stores.perform (moments 0) stores (.del (Cache.membersKey tid cid))
    with ⟨raised | answer, after⟩
  · rw [performed] at kept
    exact ⟨_, _, after, Stores.run_send_bind_error _ performed, kept⟩
  · rw [performed] at kept
    exact ⟨_, _, after, Stores.run_send_bind _ performed, kept⟩

/-- A removal deletes the row if its command takes effect, whatever it answers. -/
theorem run_removeMember :
    ∃ made result after,
      stores.run
          ((Members.removeMember tenantId.val channelId.val userId.val).through storedBackend)
          moments = ⟨made, .ok result, after⟩ ∧
        (∀ taken ∈ made, taken.call = .deleteMember tenantId channelId userId ∨
          taken.call = .del (Cache.membersKey tenantId.val channelId.val)) ∧
        after.members = if (moments 0).fate.applies then
          stores.membersWithout tenantId channelId userId else stores.members := by
  have deleted := @members_deleteMember tenantId channelId userId stores (moments 0)
  simp only [Members.removeMember, Id16.ofBytes_val]
  rw [through_rescue, through_bind, ask, through_perform, storedBackend]
  rcases deletion : Stores.perform (moments 0) stores (.deleteMember tenantId channelId userId)
    with ⟨raised | count, middle⟩
  · rw [deletion] at deleted
    exact ⟨_, _, middle, Stores.run_rescue_error rfl (Stores.run_send_bind_error _ deletion),
      by simp, deleted⟩
  rw [deletion] at deleted
  rcases @run_invalidateChannelMembers (dropInputs 1 moments) middle tenantId.val channelId.val
    with ⟨answer, raised | emptied, after, invalidated, kept⟩
  · refine ⟨[⟨.deleteMember tenantId channelId userId, .ok count⟩, ⟨.del _, answer⟩], _, after,
      @Stores.run_rescue_error _ _ _ _ _ _ raised _ _ rfl
        ((Stores.run_send_bind _ deletion).trans ?_), by simp,
      kept.trans deleted⟩
    rw [through_bind, Stores.run_bind_error _ invalidated]
  · have chosen : ∃ replied, (if 0 < count then pure (Except.ok ())
        else pure (Except.error (ascii "not_found")) : Backed (Except Bytes Unit)) =
          pure replied := by
      split
      · exact ⟨_, rfl⟩
      · exact ⟨_, rfl⟩
    rcases chosen with ⟨replied, chosen⟩
    refine ⟨[⟨.deleteMember tenantId channelId userId, .ok count⟩, ⟨.del _, answer⟩], replied,
      after, Stores.run_rescue _ ((Stores.run_send_bind _ deletion).trans ?_), by simp,
      kept.trans deleted⟩
    rw [through_bind, Stores.run_bind _ invalidated, chosen]
    rfl

end Commands

/-! ## The push -/

/-- A push that asks to remove the target from a channel, with a commit. -/
structure RemovalPush (socket : Socket) (data : Bytes) where
  ref : ℕ
  topicId : ℕ
  info : TopicInfo
  channelId : Id16
  target : Id16
  commit : Bytes
  parsed : Frame.parse data = .push ref topicId Event.mlsRemove (target.val ++ commit)
  entry : socket.topicIds.lookup topicId = some info
  built : topicEntry socket.tenantId.val info.topic = some info
  names : info.Names channelId.val

namespace RemovalPush

variable {native : Native} {json : Json} {rate : ℕ} {socket : Socket} {data : Bytes}
  (push : RemovalPush socket data) {moments : ℕ → Moment} {stores : Stores}

theorem exists_pubsub : ∃ pubsub, push.info.pubsub = some pubsub := by
  rcases push.names with ⟨hex, named, -⟩
  have built := push.built
  unfold topicEntry at built
  repeat' split at built
  · exact ⟨_, congrArg TopicInfo.pubsub (Option.some.inj built).symm⟩
  · have lobby := congrArg TopicInfo.channelId (Option.some.inj built)
    rw [named] at lobby
    cases lobby
  · exact ⟨_, congrArg TopicInfo.pubsub (Option.some.inj built).symm⟩
  · cases built

/-- What the handler does with the caller's role. -/
def withRole (native : Native) (pubsub : Bytes) : Members.RoleLookup → Stored Reaction
  | .role role =>
      if 1 ≤ role then
        match native.mlsCommitDecode push.commit with
        | .ok _ => do
            let _ ← (Members.removeMember socket.tenantId.val push.channelId.val
              push.target.val).through storedBackend
            send (.broadcastFrom pubsub Event.mlsCommit push.commit)
            pure (replyOk socket push.ref push.topicId [])
        | .error reason => pure (replyError socket push.ref push.topicId reason)
      else pure (replyError socket push.ref push.topicId (ascii "unauthorized"))
  | .notFound => pure (replyError socket push.ref push.topicId (ascii "unauthorized"))
  | .dbError => pure (replyError socket push.ref push.topicId (ascii "unauthorized"))

theorem handled {pubsub : Bytes} (carries : push.info.pubsub = some pubsub) :
    storedHandleIn native json rate data socket =
      rescue ((Members.getRole socket.tenantId.val push.channelId.val
          socket.userId.val).through storedBackend >>= push.withRole native pubsub)
        fun _ => pure (replyError socket push.ref push.topicId (ascii "internal_error")) := by
  rcases push.names with ⟨hex, named, valid⟩
  have long : 16 ≤ (push.target.val ++ push.commit).length := by simp [push.target.property]
  have dispatched : dispatch native push.ref push.topicId (push.target.val ++ push.commit)
      push.info socket Event.mlsRemove = dispatchMlsRemove native push.ref push.topicId
        (push.target.val ++ push.commit) push.info socket := by
    simp only [dispatch, long, and_true]
    rfl
  rw [storedHandleIn, handleIn, push.parsed, handleFrame,
    handlePush_of_names push.entry push.names, dispatched, through_rescue]
  apply congrArg (rescue · _)
  rw [dispatchMlsRemove, List.take_left' push.target.property,
    List.drop_left' push.target.property, named, fetch_bind, valid, carries]
  dsimp only
  rw [through_bind, call, through_perform, stored]
  refine congrArg _ (funext fun lookup => ?_)
  rcases lookup with role | _ | _
  · dsimp only [withRole]
    by_cases admin : 1 ≤ role
    · rw [if_pos admin, if_pos admin]
      rcases native.mlsCommitDecode push.commit with reason | decoded
      · rfl
      · dsimp only
        rw [through_bind, call, through_perform, stored]
        refine congrArg _ (funext fun _ => ?_)
        rw [fetch_bind, through_bind, call, through_perform]
        rfl
    · rw [if_neg admin, if_neg admin]
      rfl
  · rfl
  · rfl

variable {stores : Stores} {moments : ℕ → Moment}

/-- The caller's role is read and is that of an admin, and the decoder of the commit raises
no exception. -/
structure Accepted (native : Native) (moment : Moment) (stores : Stores) : Prop where
  admin : stores.HasAdmin socket.tenantId push.channelId socket.userId
  read : moment.fate = .carried
  returns : ∃ decoded, native.mlsCommitDecode push.commit = .ok decoded

theorem executed_of_withRole {pubsub : Bytes} (carries : push.info.pubsub = some pubsub)
    {made : List (Performed commands Raise)} {reaction : Reaction} {after : Stores}
    (continues : stores.run (push.withRole native pubsub (roleLookup
        (roleAnswer socket.tenantId push.channelId socket.userId (moments 0) stores)))
      (dropInputs 1 moments) = ⟨made, .ok reaction, after⟩) :
    stores.run (storedHandleIn native json rate data socket) moments =
      ⟨⟨.selectRole socket.tenantId push.channelId socket.userId,
        roleAnswer socket.tenantId push.channelId socket.userId (moments 0) stores⟩ :: made,
        .ok reaction, after⟩ := by
  rw [push.handled carries]
  refine Stores.run_rescue _ ((Stores.run_bind _ run_getRole).trans ?_)
  dsimp only [List.length_singleton]
  rw [continues]
  rfl

theorem run_withRole_admin {pubsub : Bytes} {decoded : Except Bytes Bytes} {role : ℕ}
    (admin : 1 ≤ role) (returns : native.mlsCommitDecode push.commit = .ok decoded) :
    ∃ made after,
      stores.run (push.withRole native pubsub (.role role)) moments =
          ⟨made ++ [⟨.broadcastFrom pubsub Event.mlsCommit push.commit, .ok ()⟩],
            .ok (replyOk socket push.ref push.topicId []), after⟩ ∧
        after.members = if (moments 0).fate.applies then
          stores.membersWithout socket.tenantId push.channelId push.target
          else stores.members := by
  rcases @run_removeMember socket.tenantId push.channelId push.target moments stores
    with ⟨made, result, after, removed, -, members⟩
  refine ⟨made, after, ?_, members⟩
  rw [withRole, if_pos admin, returns]
  exact Stores.run_bind _ removed

theorem executed_of_accepted (accepted : push.Accepted native (moments 0) stores)
    {pubsub : Bytes} (carries : push.info.pubsub = some pubsub) :
    ∃ made after,
      stores.run (storedHandleIn native json rate data socket) moments =
          ⟨made, .ok (replyOk socket push.ref push.topicId []), after⟩ ∧
        ⟨.broadcastFrom pubsub Event.mlsCommit push.commit, .ok ()⟩ ∈ made ∧
        after.members = if (moments 1).fate.applies then
          stores.membersWithout socket.tenantId push.channelId push.target
          else stores.members := by
  rcases accepted with ⟨⟨role, admin, rowMem⟩, read, decoded, returns⟩
  have answered := roleAnswer_eq_some.mpr ⟨read, rowMem⟩
  rcases @run_withRole_admin native socket data push stores (dropInputs 1 moments) pubsub decoded
    role admin returns with ⟨made, after, continues, members⟩
  have looked : roleLookup (roleAnswer socket.tenantId push.channelId socket.userId (moments 0)
      stores) = .role role := congrArg roleLookup answered
  rw [← looked] at continues
  have performed := @executed_of_withRole native json rate socket data push stores moments pubsub
    carries _ _ _ continues
  exact ⟨_, after, performed, by simp, members⟩

/-- The reason of the refusal of a push that is not accepted. -/
theorem withRole_of_not_accepted {pubsub : Bytes}
    (notAccepted : ¬push.Accepted native (moments 0) stores) :
    ∃ reason, push.withRole native pubsub (roleLookup
        (roleAnswer socket.tenantId push.channelId socket.userId (moments 0) stores)) =
      pure (replyError socket push.ref push.topicId reason) := by
  rcases answered : roleAnswer socket.tenantId push.channelId socket.userId (moments 0) stores
    with raised | _ | role
  · exact ⟨_, rfl⟩
  · exact ⟨_, rfl⟩
  rcases roleAnswer_eq_some.mp answered with ⟨read, rowMem⟩
  dsimp only [roleLookup, withRole]
  by_cases admin : 1 ≤ role
  · rw [if_pos admin]
    rcases returns : native.mlsCommitDecode push.commit with reason | decoded
    · exact ⟨reason, rfl⟩
    · exact absurd ⟨⟨role, admin, rowMem⟩, read, decoded, returns⟩ notAccepted
  · rw [if_neg admin]
    exact ⟨_, rfl⟩

theorem executed_of_not_accepted (notAccepted : ¬push.Accepted native (moments 0) stores) :
    ∃ reason,
      stores.run (storedHandleIn native json rate data socket) moments =
        ⟨[⟨.selectRole socket.tenantId push.channelId socket.userId,
            roleAnswer socket.tenantId push.channelId socket.userId (moments 0) stores⟩],
          .ok (replyError socket push.ref push.topicId reason), stores⟩ := by
  rcases push.exists_pubsub with ⟨pubsub, carries⟩
  rcases @withRole_of_not_accepted native socket data push stores moments pubsub notAccepted
    with ⟨reason, refuses⟩
  exact ⟨reason, push.executed_of_withRole carries (refuses ▸ Stores.run_pure _)⟩

/-! ## All or nothing -/

/-- The command broadcasts a commit. -/
def IsCommitBroadcast : Command → Prop
  | .broadcast _ event _ => event = Event.mlsCommit
  | .broadcastFrom _ event _ => event = Event.mlsCommit
  | _ => False

/-- The commit is broadcast and the push answered OK, and the target is a member no more. -/
structure Completes (stores : Stores) (executed : Execution commands Raise Reaction Stores) :
    Prop where
  broadcast : ∃ pubsub, push.info.pubsub = some pubsub ∧
    ⟨.broadcastFrom pubsub Event.mlsCommit push.commit, .ok ()⟩ ∈ executed.made
  replied : executed.outcome = .ok (replyOk socket push.ref push.topicId [])
  before : stores.HasMember socket.tenantId push.channelId push.target
  after : ¬executed.world.HasMember socket.tenantId push.channelId push.target

/-- No commit is broadcast, the push is answered by an error, and the members are as before. -/
structure Refuses (stores : Stores) (executed : Execution commands Raise Reaction Stores) :
    Prop where
  silent : ∀ taken ∈ executed.made, ¬IsCommitBroadcast taken.call
  replied : ∃ reason,
    executed.outcome = .ok (replyError socket push.ref push.topicId reason)
  members : executed.world.members = stores.members

def AllOrNothing (stores : Stores) (executed : Execution commands Raise Reaction Stores) : Prop :=
  push.Completes stores executed ∨ push.Refuses stores executed

/-- A removal is all or nothing exactly where, once it is accepted, the target has a row
and the command that deletes it takes effect. -/
theorem allOrNothing_iff (native : Native) (json : Json) (rate : ℕ) (moments : ℕ → Moment)
    (stores : Stores) :
    push.AllOrNothing stores
        (stores.run (storedHandleIn native json rate data socket) moments) ↔
      (push.Accepted native (moments 0) stores →
        stores.HasMember socket.tenantId push.channelId push.target ∧
          (moments 1).fate.applies = true) := by
  rcases push.exists_pubsub with ⟨pubsub, carries⟩
  by_cases accepted : push.Accepted native (moments 0) stores
  · rcases @executed_of_accepted native json rate socket data push stores moments accepted pubsub
      carries with ⟨made, after, executed, sent, members⟩
    rw [executed]
    constructor
    · rintro (completes | refuses) -
      · refine ⟨completes.before, ?_⟩
        by_contra lost
        rw [if_neg lost] at members
        apply completes.after
        rcases completes.before with ⟨role, rowMem⟩
        exact ⟨role, members ▸ rowMem⟩
      · exact absurd rfl (refuses.silent _ sent)
    · intro holds
      rcases holds accepted with ⟨before, applied⟩
      rw [if_pos applied] at members
      refine Or.inl ⟨⟨pubsub, carries, sent⟩, rfl, before, ?_⟩
      rintro ⟨role, rowMem⟩
      rw [members] at rowMem
      simpa using (KeyedTable.mem_filter.mp rowMem).2
  · rcases @executed_of_not_accepted native json rate socket data push stores moments accepted
      with ⟨reason, executed⟩
    rw [executed]
    refine iff_of_true (Or.inr ⟨?_, ⟨reason, rfl⟩, rfl⟩) fun holds => absurd holds accepted
    simp [IsCommitBroadcast]

end RemovalPush

/-! ### A target that is no member -/

/-- User 5 is the only member of the channel, and its admin. -/
def adminStores : Stores :=
  { onlyCursors .empty with
    members := { rows := [⟨.replicate 1, .replicate 7, .replicate 5, 1⟩], unique := by decide } }

/-- User 5 removes user 9. -/
def removeStranger : Bytes :=
  Sdk.pushFrame 2 1 Event.mlsRemove ((Id16.replicate 9).val ++ Capnp.mlsCommit [9])

theorem parse_removeStranger : Frame.parse removeStranger =
    .push 2 1 Event.mlsRemove ((Id16.replicate 9).val ++ Capnp.mlsCommit [9]) :=
  Sdk.parse_pushFrame _ _ (by decide) (by decide)

def strangerPush : RemovalPush (memberSocket 5) removeStranger where
  ref := 2
  topicId := 1
  info := channelEntry (.replicate 1) (.replicate 7)
  channelId := .replicate 7
  target := .replicate 9
  commit := Capnp.mlsCommit [9]
  parsed := parse_removeStranger
  entry := entry_memberFive
  built := topicEntry_channel
  names := names_channelSeven

/-- The commit for a user without a row is broadcast, with every command carried out. -/
theorem stranger_not_allOrNothing :
    ¬strangerPush.AllOrNothing adminStores
      (adminStores.run (storedHandleIn (Capnp.native [] [[9]]) unusedJson 100 removeStranger
        (memberSocket 5)) fun _ => carriedOut) := by
  have admin : adminStores.HasAdmin (.replicate 1) (.replicate 7) (.replicate 5) :=
    ⟨1, le_rfl, List.mem_singleton_self _⟩
  have stranger : ¬adminStores.HasMember (.replicate 1) (.replicate 7) (.replicate 9) := by
    rintro ⟨role, rowMem⟩
    have different : Id16.replicate 9 ≠ Id16.replicate 5 := by decide
    exact different (congrArg MemberRow.userId (List.mem_singleton.mp rowMem))
  rcases @RemovalPush.executed_of_accepted (Capnp.native [] [[9]]) unusedJson 100 _ _ strangerPush
    adminStores (fun _ => carriedOut) ⟨admin, rfl, .ok [9], rfl⟩ _ rfl with
    ⟨made, after, executed, sent, -⟩
  rw [executed]
  rintro (completes | refuses)
  · exact stranger completes.before
  · exact refuses.silent _ sent rfl

end Mercury.Gateway
