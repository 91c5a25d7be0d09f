import Mercury.Gateway.NodeRuns

/-!
# What a frame writes about users, devices and members

Four calls of a socket write rows that belong to somebody: a key package, a sync
cursor, a membership and the end of one. Each has one clause of `dispatch` that makes
it, for the ids of the socket and with what the frame says; a membership ends only
after the role of the caller was read, and a new one is without a role and for a
generated channel id. The same is said of the commands that carry the calls out
(`storedHandleIn_writes`).
-/

namespace Mercury.Gateway

open Foundations Foundations.Program Persistence

/-! ## What the frames say -/

namespace Frame

/-- The frame asks for the removal of a user. -/
def Removes (userId : Bytes) (frame : Frame) : Prop :=
  ∃ ref topicId payload, frame = .push ref topicId Event.mlsRemove payload ∧
    userId = payload.take 16

/-- The frame asks for a new channel. -/
def Creates (frame : Frame) : Prop :=
  ∃ ref topicId payload, frame = .push ref topicId Event.chCreate payload

/-- The clock in the payload of a `sync:cursor`. -/
def cursorClock (payload : Bytes) : ℕ × ℕ :=
  if 12 ≤ payload.length then
    (fromLittleEndian (payload.take 8), fromLittleEndian ((payload.drop 8).take 4))
  else (0, 0)

/-- The frame moves a cursor to a clock. -/
def MovesCursor (wall counter : ℕ) (frame : Frame) : Prop :=
  ∃ ref topicId payload, frame = .push ref topicId Event.syncCursor payload ∧
    cursorClock payload = (wall, counter)

/-- The frame brings a key package. -/
def Uploads (native : Native) (keyPackage : Bytes) (frame : Frame) : Prop :=
  ∃ ref topicId payload, frame = .push ref topicId Event.mlsKeyPackage payload ∧
    native.mlsKeyPackageDecode payload = .ok (.ok keyPackage)

end Frame

/-- The table of members gives the user this role. -/
def Stores.HasRole (stores : Stores) (tenantId channelId userId : Bytes) (role : ℕ) : Prop :=
  ∃ row ∈ stores.members.rows, row.tenantId.val = tenantId ∧ row.channelId.val = channelId ∧
    row.userId.val = userId ∧ row.role = role

/-- What a run is supplied with: the ids that are generated and the times that clocks show. -/
structure Supply where
  minted : Bytes → Prop
  shown : ℕ → Prop

section Calls

variable (native : Native) (stores : Stores) (supply : Supply) (socket : Socket)

/-- Roles above zero are answered as the stores have them, and generated ids are minted. -/
structure AnswersCall (taken : Performed calls Raise) : Prop where
  roles : ∀ tenantId channelId userId role, 1 ≤ role →
    taken = ⟨.getRole tenantId channelId userId, .ok (.role role)⟩ →
      stores.HasRole tenantId channelId userId role
  minted : ∀ channelId, taken = ⟨.generateChannelId, .ok channelId⟩ → supply.minted channelId

/-- What the four calls ask for. -/
def CallWrites (frame : Frame) : Call → Prop
  | .addMember tenantId channelId userId =>
      tenantId = socket.tenantId.val ∧ userId = socket.userId.val ∧ frame.Creates ∧
        supply.minted channelId
  | .removeMember tenantId channelId userId =>
      tenantId = socket.tenantId.val ∧ frame.Removes userId ∧
        ∃ role, 1 ≤ role ∧ stores.HasRole tenantId channelId socket.userId.val role
  | .updateCursor tenantId userId deviceId _ wall counter =>
      tenantId = socket.tenantId.val ∧ userId = socket.userId.val ∧
        deviceId = socket.deviceId.val ∧ frame.MovesCursor wall counter
  | .uploadKeyPackage tenantId deviceId keyPackage =>
      tenantId = socket.tenantId.val ∧ deviceId = socket.deviceId.val ∧
        frame.Uploads native keyPackage
  | _ => True

/-- The calls other than the four. -/
def Plain : Call → Prop
  | .addMember .. | .removeMember .. | .updateCursor .. | .uploadKeyPackage .. => False
  | _ => True

end Calls

section Push

variable {native : Native} {stores : Stores} {supply : Supply} {socket : Socket}
  {info : TopicInfo}
  {ref topicId : ℕ} {event : Byte} {payload : Bytes} {frame : Frame}
  {admitted : Performed calls Raise → Prop}

theorem CallWrites.of_plain {asked : Call} (plain : Plain asked) :
    CallWrites native stores supply socket frame asked := by
  cases asked with
  | addMember | removeMember | updateCursor | uploadKeyPackage => exact plain.elim
  | _ => trivial

/-- The handler makes none of the four calls. -/
abbrev StaysPlain {Result : Type} (admitted : Performed calls Raise → Prop)
    (handler : Handler Result) : Prop :=
  Within admitted Plain handler fun _ => True

theorem StaysPlain.call {asked : Call} (plain : Plain asked) :
    StaysPlain admitted (Gateway.call asked) :=
  (Within.call plain).post_mono fun _ _ => trivial

theorem StaysPlain.seq {Result Other : Type} {first : Handler Result}
    {next : Result → Handler Other} (plain : StaysPlain admitted first)
    (later : ∀ result, StaysPlain admitted (next result)) : StaysPlain admitted (first >>= next) :=
  Within.bind plain fun result _ => later result

theorem StaysPlain.asks {Other : Type} {asked : Call} {next : asked.Answer → Handler Other}
    (plain : Plain asked) (later : ∀ answer, StaysPlain admitted (next answer)) :
    StaysPlain admitted (Gateway.call asked >>= next) :=
  (StaysPlain.call plain).seq later

theorem StaysPlain.fetch {value : Option Bytes} : StaysPlain admitted (Gateway.fetch value) :=
  Within.fetch.post_mono fun _ _ => trivial

theorem StaysPlain.ofExcept {Result : Type} {outcome : Except Raise Result} :
    StaysPlain admitted (Program.ofExcept outcome) :=
  Within.ofExcept.post_mono fun _ _ => trivial

theorem plain_publishCacheInvalidation {tenantId type targetId : Bytes} :
    StaysPlain admitted (publishCacheInvalidation tenantId type targetId) := by
  refine StaysPlain.asks trivial fun running => ?_
  split
  · exact StaysPlain.asks trivial fun _ => trivial
  · trivial

theorem plain_persistMessage {tenantId channelId : Bytes} {bucket : ℕ} {msg : Message} :
    StaysPlain admitted (persistMessage tenantId channelId bucket msg) := by
  have store : StaysPlain admitted (do
      if ← call .scyllaEnabled then
        call (.startTask (.persistMessage tenantId channelId bucket msg))
      else
        call (.invalidateRecent tenantId channelId)
        publishCacheInvalidation tenantId (ascii "recent") channelId) := by
    refine StaysPlain.asks trivial fun enabled => ?_
    split
    · exact StaysPlain.call trivial
    · exact StaysPlain.asks trivial fun _ => plain_publishCacheInvalidation
  refine StaysPlain.asks trivial fun running => ?_
  split
  · exact StaysPlain.seq (StaysPlain.asks trivial fun _ => trivial) fun _ => store
  · exact store

theorem plain_persistReadPosition {tenantId userId channelId messageId : Bytes} :
    StaysPlain admitted (persistReadPosition tenantId userId channelId messageId) := by
  refine StaysPlain.asks trivial fun enabled => ?_
  split
  · split
    · exact StaysPlain.call trivial
    · trivial
  · trivial

/-! ## The dispatch clauses -/

theorem plain_dispatchMsgSend :
    StaysPlain admitted (dispatchMsgSend native ref topicId payload info socket) := by
  apply StaysPlain.seq StaysPlain.fetch
  intro channelId
  split
  · trivial
  split
  · trivial
  · trivial
  refine StaysPlain.asks trivial fun reading => ?_
  apply StaysPlain.seq StaysPlain.ofExcept
  intro verdict
  split
  · trivial
  refine StaysPlain.asks trivial fun allowed => ?_
  split
  · apply StaysPlain.seq StaysPlain.ofExcept
    intro bucket
    apply StaysPlain.seq plain_persistMessage
    intro _
    apply StaysPlain.seq StaysPlain.fetch
    intro pubsub
    exact StaysPlain.asks trivial fun _ => trivial
  · trivial

theorem plain_dispatchMsgHistory :
    StaysPlain admitted (dispatchMsgHistory native ref topicId payload info socket) := by
  apply StaysPlain.seq StaysPlain.fetch
  intro channelId
  split
  · trivial
  · exact StaysPlain.asks trivial fun _ => trivial

theorem plain_dispatchMsgTyping : StaysPlain admitted (dispatchMsgTyping native info socket) := by
  apply StaysPlain.seq StaysPlain.fetch
  intro pubsub
  exact StaysPlain.asks trivial fun _ => trivial

theorem plain_dispatchMsgRead :
    StaysPlain admitted (dispatchMsgRead native ref topicId payload info socket) := by
  unfold dispatchMsgRead
  split
  · trivial
  apply StaysPlain.seq StaysPlain.fetch
  intro channelId
  apply StaysPlain.seq plain_persistReadPosition
  intro _
  apply StaysPlain.seq StaysPlain.fetch
  intro pubsub
  exact StaysPlain.asks trivial fun _ => trivial

theorem plain_dispatchMlsFetchKp :
    StaysPlain admitted (dispatchMlsFetchKp native ref topicId payload socket) := by
  unfold dispatchMlsFetchKp
  split
  · exact StaysPlain.asks trivial fun _ => trivial
  · trivial

theorem plain_dispatchMlsCommit :
    StaysPlain admitted (dispatchMlsCommit native ref topicId payload info socket) := by
  unfold dispatchMlsCommit
  split
  · apply StaysPlain.seq StaysPlain.fetch
    intro pubsub
    exact StaysPlain.asks trivial fun _ => trivial
  · trivial

theorem plain_dispatchMlsWelcome :
    StaysPlain admitted (dispatchMlsWelcome ref topicId payload info socket) := by
  unfold dispatchMlsWelcome
  dsimp only
  split
  · apply StaysPlain.seq StaysPlain.fetch
    intro pubsub
    exact StaysPlain.asks trivial fun _ => trivial
  · trivial

theorem plain_syncReply {channelIdBin : Bytes} {sinceWall limit lastCounter : ℕ} :
    StaysPlain admitted (syncReply native socket channelIdBin sinceWall limit lastCounter) := by
  refine StaysPlain.asks trivial fun page => ?_
  refine StaysPlain.asks trivial fun systemTime => ?_
  refine StaysPlain.asks trivial fun reading => ?_
  split <;> trivial

theorem plain_dispatchSyncRequest :
    StaysPlain admitted (dispatchSyncRequest native ref topicId payload info socket) := by
  apply StaysPlain.seq StaysPlain.fetch
  intro channelId
  split
  · trivial
  · exact StaysPlain.seq plain_syncReply fun _ => trivial

theorem plain_dispatchSyncPush :
    StaysPlain admitted (dispatchSyncPush native ref topicId payload info socket) := by
  apply StaysPlain.seq StaysPlain.fetch
  intro channelId
  split
  · trivial
  apply StaysPlain.seq StaysPlain.ofExcept
  intro deltas
  have pushed : ∀ channelIdBin, StaysPlain admitted
      (syncPushed socket channelIdBin deltas) := by
    intro channelIdBin
    refine StaysPlain.asks trivial fun applied => ?_
    split
    · trivial
    have announced : StaysPlain admitted
        (publishSyncFanout socket deltas) := by
      refine StaysPlain.asks trivial fun running => ?_
      split
      · exact StaysPlain.asks trivial fun _ => trivial
      · trivial
    apply StaysPlain.seq announced
    intro _
    refine StaysPlain.asks trivial fun systemTime => ?_
    refine StaysPlain.asks trivial fun reading => ?_
    split <;> trivial
  apply StaysPlain.seq (pushed _)
  intro result
  split <;> trivial

theorem plain_dispatchPresenceJoin :
    StaysPlain admitted (dispatchPresenceJoin ref topicId info socket) := by
  unfold dispatchPresenceJoin
  split
  · apply StaysPlain.seq StaysPlain.fetch
    intro pubsub
    refine StaysPlain.asks trivial fun lastSeen => ?_
    exact StaysPlain.asks trivial fun _ => trivial
  · trivial

theorem plain_dispatchStatusUpdate {status : Byte} :
    StaysPlain admitted (dispatchStatusUpdate ref topicId info socket status) := by
  unfold dispatchStatusUpdate
  split
  · exact StaysPlain.asks trivial fun _ => trivial
  · trivial

theorem plain_dispatchMlsMembers :
    StaysPlain admitted (dispatchMlsMembers ref topicId info socket) := by
  apply StaysPlain.seq StaysPlain.fetch
  intro channelId
  split
  · trivial
  refine StaysPlain.asks trivial fun listing => ?_
  exact StaysPlain.seq within_packMembers fun _ => trivial

theorem plain_dispatchMlsGroupInfo :
    StaysPlain admitted (dispatchMlsGroupInfo ref topicId info socket) := by
  apply StaysPlain.seq StaysPlain.fetch
  intro channelId
  split
  · trivial
  refine StaysPlain.asks trivial fun _ => ?_
  refine StaysPlain.asks trivial fun creator => ?_
  split
  · split
    · trivial
    · exact StaysPlain.seq within_segment16 fun _ => trivial
  · trivial

theorem plain_dispatchMlsCek :
    StaysPlain admitted (dispatchMlsCek ref topicId payload info socket) := by
  apply StaysPlain.seq StaysPlain.fetch
  intro pubsub
  exact StaysPlain.asks trivial fun _ => trivial

theorem writes_dispatchMlsKeyPackage :
    Within admitted
      (CallWrites native stores supply socket (.push ref topicId Event.mlsKeyPackage payload))
      (dispatchMlsKeyPackage native ref topicId payload info socket) fun _ => True := by
  unfold dispatchMlsKeyPackage
  split
  · trivial
  · trivial
  next keyPackage decoded =>
  apply Within.bind (Within.call ⟨rfl, rfl, ref, topicId, payload, rfl, decoded⟩)
  intro uploaded _
  split
  · split
    · exact Within.bind (Within.call trivial) fun _ _ => trivial
    · trivial
  · trivial

theorem writes_dispatchSyncCursor :
    Within admitted
      (CallWrites native stores supply socket (.push ref topicId Event.syncCursor payload))
      (dispatchSyncCursor payload info socket) fun _ => True := by
  unfold dispatchSyncCursor
  split
  · trivial
  dsimp only
  split
  · trivial
  have moves : Frame.cursorClock payload =
      (if 12 ≤ payload.length then fromLittleEndian (payload.take 8) else 0,
        if 12 ≤ payload.length then fromLittleEndian ((payload.drop 8).take 4) else 0) := by
    unfold Frame.cursorClock
    split <;> rfl
  exact Within.bind (Within.call ⟨rfl, rfl, rfl, ref, topicId, payload, rfl, moves⟩)
    fun _ _ => trivial

theorem writes_dispatchChCreate :
    Within (AnswersCall stores supply)
      (CallWrites native stores supply socket (.push ref topicId Event.chCreate payload))
      (dispatchChCreate ref topicId payload socket) fun _ => True := by
  have creates : Frame.Creates (.push ref topicId Event.chCreate payload) :=
    ⟨ref, topicId, payload, rfl⟩
  unfold dispatchChCreate
  split
  · trivial
  apply Within.bind Within.ofExcept
  intro verdict _
  split
  · trivial
  apply Within.bind (Within.call trivial)
  intro channelId answered
  exact Within.bind (Within.call ⟨rfl, rfl, creates, answered.minted channelId rfl⟩)
    fun _ _ => trivial

theorem writes_dispatchMlsRemove :
    Within (AnswersCall stores supply)
      (CallWrites native stores supply socket (.push ref topicId Event.mlsRemove payload))
      (dispatchMlsRemove native ref topicId payload info socket) fun _ => True := by
  apply Within.bind (Within.fetch.post_mono fun _ _ => trivial)
  intro channelId _
  split
  · trivial
  apply Within.bind (Within.call trivial)
  intro lookup answered
  split
  · next role =>
      split
      · next admin =>
          split
          · have removes : Frame.Removes (payload.take 16)
                (.push ref topicId Event.mlsRemove payload) := ⟨ref, topicId, payload, rfl, rfl⟩
            refine Within.bind (Within.call
              ⟨rfl, removes, role, admin, answered.roles _ _ _ _ admin rfl⟩) fun _ _ => ?_
            apply Within.bind (Within.fetch.post_mono fun _ _ => trivial)
            intro pubsub _
            exact Within.bind (Within.call trivial) fun _ _ => trivial
          · trivial
      · trivial
  · trivial
  · trivial

theorem StaysPlain.writes {Result : Type} {handler : Handler Result}
    (plain : StaysPlain admitted handler) :
    Within admitted (CallWrites native stores supply socket frame) handler fun _ => True :=
  Ensures.mono plain (fun _ => CallWrites.of_plain) fun _ holds => holds

theorem writes_dispatch :
    Within (AnswersCall stores supply)
      (CallWrites native stores supply socket (.push ref topicId event payload))
      (dispatch native ref topicId payload info socket event) fun _ => True := by
  apply Within.ite (fun _ => plain_dispatchMsgSend.writes)
  intro _
  apply Within.ite (fun _ => plain_dispatchMsgHistory.writes)
  intro _
  apply Within.ite (fun _ => plain_dispatchMsgTyping.writes)
  intro _
  apply Within.ite (fun _ => plain_dispatchMsgRead.writes)
  intro _
  apply Within.ite (fun is => is ▸ writes_dispatchMlsKeyPackage)
  intro _
  apply Within.ite (fun _ => plain_dispatchMlsFetchKp.writes)
  intro _
  apply Within.ite (fun _ => plain_dispatchMlsCommit.writes)
  intro _
  apply Within.ite (fun _ => plain_dispatchMlsWelcome.writes)
  intro _
  apply Within.ite (fun is => is.1 ▸ writes_dispatchMlsRemove)
  intro _
  apply Within.ite (fun _ => plain_dispatchSyncRequest.writes)
  intro _
  apply Within.ite (fun _ => plain_dispatchSyncPush.writes)
  intro _
  apply Within.ite (fun is => is ▸ writes_dispatchSyncCursor)
  intro _
  apply Within.ite (fun is => is ▸ writes_dispatchChCreate)
  intro _
  apply Within.ite (fun _ => plain_dispatchPresenceJoin.writes)
  intro _
  apply Within.ite (fun _ => plain_dispatchStatusUpdate.writes)
  intro _
  apply Within.ite (fun _ => plain_dispatchMlsMembers.writes)
  intro _
  apply Within.ite (fun _ => plain_dispatchMlsGroupInfo.writes)
  intro _
  apply Within.ite (fun _ => plain_dispatchMlsCek.writes)
  intro _
  trivial

/-- What every frame asks for of the four calls. -/
theorem handleFrame_writes :
    Within (AnswersCall stores supply) (CallWrites native stores supply socket frame)
      (handleFrame native frame socket) fun _ => True := by
  cases frame with
  | push ref topicId event payload =>
      refine Ensures.rescue.mpr (Ensures.post_mono
        (?_ : Within (AnswersCall stores supply) _ _ fun _ => True) ?_)
      · split
        · trivial
        split
        · trivial
        · exact writes_dispatch
      · rintro (raised | reaction) - <;> trivial
  | join ref topic =>
      refine Ensures.mono handleFrame_calls (fun asked made => ?_) fun _ _ => ?_
      · cases made <;> trivial
      · split <;> trivial
  | leave topicId =>
      refine Ensures.mono handleFrame_calls (fun asked made => ?_) fun _ _ => ?_
      · rcases made with ⟨_, _, _, _, rfl⟩
        trivial
      · split <;> trivial
  | heartbeat => trivial
  | ignored => trivial

end Push

/-! ## The commands -/

section Commands

variable (native : Native) (stores : Stores) (supply : Supply)

/-- Roles above zero are answered as the stores have them, ids and times as supplied. -/
structure AnswersCommand (taken : Performed commands Raise) : Prop where
  roles : ∀ tenantId channelId userId role, 1 ≤ role →
    taken = ⟨.selectRole tenantId channelId userId, .ok (some role)⟩ →
      stores.HasRole tenantId.val channelId.val userId.val role
  minted : ∀ channelId, taken = ⟨.generateId, .ok channelId⟩ → supply.minted channelId
  shown : ∀ now, taken = ⟨.time, .ok now⟩ → supply.shown now

/-- What the commands of a frame write into rows that belong to somebody. -/
def CommandWrites (tenantId userId deviceId : Id16) (frame : Frame) : Command → Prop
  | .insertMember tid channelId newMember role =>
      tid = tenantId ∧ newMember = userId ∧ role = 0 ∧ frame.Creates ∧
        supply.minted channelId.val
  | .deleteMember tid channelId target =>
      tid = tenantId ∧ frame.Removes target.val ∧
        ∃ role, 1 ≤ role ∧ stores.HasRole tid.val channelId.val userId.val role
  | .upsertCursor row =>
      row.tenantId = tenantId ∧ row.userId = userId ∧ row.deviceId = deviceId ∧
        frame.MovesCursor row.lastHlcWall row.lastHlcCounter ∧ supply.shown row.updatedAt
  | .updateKeyPackage tid did keyPackage =>
      tid = tenantId ∧ did = deviceId ∧ frame.Uploads native keyPackage
  | .insertTenant _ | .insertUser _ | .insertDevice _ => False
  | _ => True

/-- The commands that write no such row. -/
def Harmless : Command → Prop
  | .insertMember .. | .deleteMember .. | .upsertCursor _ | .updateKeyPackage .. => False
  | .insertTenant _ | .insertUser _ | .insertDevice _ => False
  | _ => True

end Commands

section Commands

variable {native : Native} {stores : Stores} {supply : Supply} {json : Json} {rate : ℕ}
  {socket : Socket} {frame : Frame} {tenantId userId deviceId : Id16}
  {admitted : Performed commands Raise → Prop}

theorem CommandWrites.of_harmless {command : Command} (harmless : Harmless command) :
    CommandWrites native stores supply tenantId userId deviceId frame command := by
  cases command with
  | insertMember | deleteMember | upsertCursor | updateKeyPackage => exact harmless.elim
  | insertTenant | insertUser | insertDevice => exact harmless.elim
  | _ => trivial

/-- Of the commands of a call, those that may write are known. -/
theorem Command.harmless_of_listsChannel {command : Command} {tid cid : Bytes}
    (lists : ListsChannel tid cid command) : Harmless command := by
  cases command <;> trivial

theorem Command.harmless_of_readsChannel {command : Command} {tid cid : Bytes}
    (reads : ReadsChannel tid cid command) : Harmless command := by
  cases command <;> trivial

theorem Command.harmless_of_writesChannel {command : Command} {tid cid : Bytes}
    (writes : WritesChannel tid cid command) : Harmless command := by
  cases command <;> trivial

theorem Command.harmless_of_onKey {command : Command} {key : Bytes} (onKey : OnKey key command) :
    Harmless command := by
  cases command <;> trivial

theorem fetch_harmless {tid uid : Bytes} :
    PerformsOnly admitted Harmless (KeyPackages.fetch tid uid) := by
  unfold KeyPackages.fetch
  split
  · exact performsOnly_send trivial
  · trivial

theorem findUser_harmless {tid uid : Bytes} :
    PerformsOnly admitted Harmless (findUser tid uid) := by
  refine Ensures.rescue.mpr (Ensures.post_mono (?_ : PerformsOnly admitted _ _) ?_)
  · split
    · exact Ensures.seq (performsOnly_send trivial) fun user => trivial
    · trivial
  · rintro (raised | user) - <;> trivial

/-- The calls that are carried out by harmless commands only. -/
def CarriedHarmlessly : Call → Prop
  | .addMember .. | .removeMember .. | .updateCursor .. | .uploadKeyPackage .. => False
  | .getRole .. | .generateChannelId => False
  | _ => True

theorem stored_harmless {asked : Call} (carried : CarriedHarmlessly asked) :
    PerformsOnly admitted Harmless (stored json rate asked) := by
  have commands := @stored_commands admitted json rate asked
  have only : (∀ command, StoredCommands asked command → Harmless command) →
      PerformsOnly admitted Harmless (stored json rate asked) :=
    fun harmless => Ensures.mono commands harmless fun _ _ => trivial
  cases asked with
  | addMember | removeMember | updateCursor | uploadKeyPackage => exact carried.elim
  | getRole | generateChannelId => exact carried.elim
  | isMember | listMembers => exact only fun _ => Command.harmless_of_listsChannel
  | readRecent | getDeltas => exact only fun _ => Command.harmless_of_readsChannel
  | writeMessage | applyDeltas => exact only fun _ => Command.harmless_of_writesChannel
  | allow => exact only fun _ => Command.harmless_of_onKey
  | getMlsCreator | setMlsCreator => exact only fun _ => Command.harmless_of_onKey
  | getCachedUser | putCachedUser => exact only fun _ => Command.harmless_of_onKey
  | updateReadPosition => exact update_commands trivial trivial
  | fetchKeyPackages => exact fetch_harmless
  | findUser => exact findUser_harmless
  | _ =>
      apply only
      intro command issued
      cases issued
      trivial

/-! ### The calls that write -/

theorem AnswersCall.of_other {asked : Call} {answer : Except Raise asked.Answer}
    (notRole : ∀ tid cid uid, asked ≠ .getRole tid cid uid)
    (notId : asked ≠ .generateChannelId) : AnswersCall stores supply ⟨asked, answer⟩ where
  roles tid cid uid _ _ taken := absurd (congrArg Performed.call taken) (notRole tid cid uid)
  minted _ taken := absurd (congrArg Performed.call taken) notId

theorem addMember_writes {cid : Bytes} (creates : frame.Creates) (isMinted : supply.minted cid) :
    PerformsOnly admitted (CommandWrites native stores supply tenantId userId deviceId frame)
      ((Members.addMember tenantId.val cid userId.val 0).through storedBackend) := by
  unfold Members.addMember
  split
  · next tidRaw cidRaw uidRaw tidEq cidEq uidEq =>
      rw [Id16.ofBytes_val, Option.some.injEq] at tidEq uidEq
      rw [Id16.ofBytes_eq_some] at cidEq
      subst cidEq
      rw [through_bind, ask, through_perform]
      refine Ensures.seq
        (performsOnly_send ⟨tidEq.symm, uidEq.symm, rfl, creates, isMinted⟩) fun inserted => ?_
      split
      · rw [through_bind, Persistence.Cache.invalidateChannelMembers, through_bind, ask,
          through_perform]
        exact Ensures.seq (Ensures.seq (performsOnly_send trivial) fun _ => trivial)
          fun _ => trivial
      · trivial
  · trivial

theorem removeMember_writes {tid cid uid : Bytes} {role : ℕ} (own : tid = tenantId.val)
    (removes : frame.Removes uid) (admin : 1 ≤ role)
    (has : stores.HasRole tid cid userId.val role) :
    PerformsOnly admitted (CommandWrites native stores supply tenantId userId deviceId frame)
      ((Members.removeMember tid cid uid).through storedBackend) := by
  rw [Members.removeMember, through_rescue]
  refine Ensures.rescue.mpr (Ensures.post_mono (?_ : PerformsOnly admitted _ _) ?_)
  · split
    · next tidRaw cidRaw uidRaw tidEq cidEq uidEq =>
        have writes : CommandWrites native stores supply tenantId userId deviceId frame
            (.deleteMember tidRaw cidRaw uidRaw) := by
          rw [Id16.ofBytes_eq_some] at tidEq cidEq uidEq
          subst tidEq cidEq uidEq
          exact ⟨Subtype.ext own, removes, role, admin, has⟩
        rw [through_bind, ask, through_perform]
        refine Ensures.seq (performsOnly_send writes) fun count => ?_
        rw [through_bind, Persistence.Cache.invalidateChannelMembers, through_bind, ask,
          through_perform]
        refine Ensures.seq (Ensures.seq (performsOnly_send trivial) fun _ => trivial) fun _ => ?_
        split <;> trivial
    · trivial
  · rintro (raised | removed) - <;> trivial

theorem getRole_answers {tid cid uid : Bytes} :
    ((Members.getRole tid cid uid).through storedBackend).Ensures (AnswersCommand stores supply)
      Harmless fun answer => ∀ role, 1 ≤ role → answer = .ok (.role role) →
        stores.HasRole tid cid uid role := by
  rw [Members.getRole, through_rescue]
  apply Ensures.rescue.mpr
  split
  · next tidRaw cidRaw uidRaw tidEq cidEq uidEq =>
      rw [Id16.ofBytes_eq_some] at tidEq cidEq uidEq
      subst tidEq cidEq uidEq
      rw [through_bind, ask, through_perform]
      refine Ensures.bind.mpr (Ensures.perform.mpr ⟨trivial, ?_⟩)
      rintro (raised | _ | held) answered
      · rintro role _ ⟨⟩
      · rintro role _ ⟨⟩
      · rintro role admin ⟨⟩
        exact answered.roles _ _ _ _ admin rfl
  · rintro role _ ⟨⟩

theorem updateCursor_writes {cid : Bytes} {wall counter : ℕ}
    (moves : frame.MovesCursor wall counter) :
    PerformsOnly (AnswersCommand stores supply)
      (CommandWrites native stores supply tenantId userId deviceId frame)
      (updateCursor tenantId.val userId.val deviceId.val cid wall counter) := by
  unfold updateCursor
  split
  · next tid uid did cid tidEq uidEq didEq cidEq =>
      rw [Id16.ofBytes_val, Option.some.injEq] at tidEq uidEq didEq
      refine Ensures.bind.mpr (Ensures.perform.mpr ⟨trivial, ?_⟩)
      rintro (raised | now) answered
      · trivial
      · exact performsOnly_send
          ⟨tidEq.symm, uidEq.symm, didEq.symm, moves, answered.shown now rfl⟩
  · trivial

theorem upload_writes {keyPackage : Bytes} (uploads : frame.Uploads native keyPackage) :
    PerformsOnly admitted (CommandWrites native stores supply tenantId userId deviceId frame)
      (KeyPackages.upload tenantId.val deviceId.val keyPackage) := by
  unfold KeyPackages.upload
  split
  · next tid did tidEq didEq =>
      rw [Id16.ofBytes_val, Option.some.injEq] at tidEq didEq
      apply Ensures.seq (performsOnly_send ⟨tidEq.symm, didEq.symm, uploads⟩)
      intro count
      split <;> trivial
  · trivial

/-- The commands of a call write what the call may, and answer it as the stores do. -/
theorem stored_writes {asked : Call} (writes : CallWrites native stores supply socket frame asked) :
    (stored json rate asked).Ensures (AnswersCommand stores supply)
      (CommandWrites native stores supply socket.tenantId socket.userId socket.deviceId frame)
      fun answer => AnswersCall stores supply ⟨asked, answer⟩ := by
  cases asked with
  | addMember tid cid uid =>
      rcases writes with ⟨rfl, rfl, creates, isMinted⟩
      apply Ensures.post_mono (addMember_writes creates isMinted)
      intro answer _
      exact AnswersCall.of_other (by simp) (by simp)
  | removeMember tid cid uid =>
      rcases writes with ⟨own, removes, role, admin, has⟩
      apply Ensures.post_mono (removeMember_writes own removes admin has)
      intro answer _
      exact AnswersCall.of_other (by simp) (by simp)
  | updateCursor tid uid did cid wall counter =>
      rcases writes with ⟨rfl, rfl, rfl, moves⟩
      apply Ensures.post_mono (updateCursor_writes moves)
      intro answer _
      exact AnswersCall.of_other (by simp) (by simp)
  | uploadKeyPackage tid did keyPackage =>
      rcases writes with ⟨rfl, rfl, uploads⟩
      apply Ensures.post_mono (upload_writes uploads)
      intro answer _
      exact AnswersCall.of_other (by simp) (by simp)
  | getRole tid cid uid =>
      apply Ensures.mono getRole_answers (fun _ => CommandWrites.of_harmless)
      intro answer has
      refine ⟨?_, fun _ same => absurd (congrArg Performed.call same) (by simp)⟩
      intro _ _ _ role admin same
      cases same
      exact has role admin rfl
  | generateChannelId =>
      refine Ensures.perform.mpr ⟨trivial, fun answer answered => ⟨?_, ?_⟩⟩
      · intro _ _ _ _ _ same
        exact absurd (congrArg Performed.call same) (by simp)
      · intro channelId same
        cases same
        exact answered.minted channelId rfl
  | _ =>
      refine Ensures.mono (stored_harmless trivial) (fun _ => CommandWrites.of_harmless) ?_
      intro answer _
      exact AnswersCall.of_other (by simp) (by simp)

/-- What the commands of a frame write. -/
theorem storedHandleIn_writes (data : Bytes) :
    (storedHandleIn native json rate data socket).Ensures (AnswersCommand stores supply)
      (CommandWrites native stores supply socket.tenantId socket.userId socket.deviceId
        (Frame.parse data)) fun _ => True := by
  apply Ensures.through (Ensures.post_mono handleFrame_writes fun _ _ => trivial)
  intro asked writes
  exact stored_writes writes

end Commands

end Mercury.Gateway
