import Mercury.Gateway.Stores

/-!
# Who creates the MLS group of a channel

The clients that join one channel, with their `mls:group_info` requests at the
gateway. A request stores the user as the creator unless the cache names one, and
then reads the name back. A client that is told that it is the creator creates the
group, and so does one that has waited too long, whatever it is told. So there is
one creator as long as the cache keeps its name, its user has joined with one device,
and the answer to a client that has waited says what it would do anyway.
-/

namespace Mercury.Mls

open Foundations Foundations.Program Gateway

/-! ## The request at the gateway -/

/-- What `mls:group_info` makes of the creator that the cache names. -/
def creatorReply (userId : Bytes) : Option Bytes → Stored Bytes
  | some creator =>
      if creator = userId then pure [1]
      else if 16 ≤ creator.length then pure (0 :: creator.take 16)
      else fail .argument
  | none => pure [1]

/-- The payload of the reply to `mls:group_info`, once the creator was to be stored. -/
def queryCreator (tenantId channelId userId : Bytes) : Stored Bytes := do
  let found ← Cache.getMlsCreator tenantId channelId
  creatorReply userId found

/-- The payload of the reply to `mls:group_info`. -/
def claimCreator (tenantId channelId userId : Bytes) : Stored Bytes := do
  Cache.setMlsCreator tenantId channelId userId
  queryCreator tenantId channelId userId

/-- `dispatch` of `mls:group_info` on a channel replies with the payload. -/
theorem through_dispatchMlsGroupInfo {json : Json} {rate ref topicId : ℕ} {info : TopicInfo}
    {socket : Socket} {channelId : Bytes} (named : info.Names channelId) :
    (dispatchMlsGroupInfo ref topicId info socket).through (stored json rate) =
      claimCreator socket.tenantId.val channelId socket.userId.val >>= fun payload =>
        pure (replyOk socket ref topicId payload) := by
  rcases named with ⟨text, isChannel, decoded⟩
  rw [dispatchMlsGroupInfo, isChannel, fetch_bind, decoded, claimCreator, queryCreator]
  simp only [bind_bind, through_bind]
  refine congrArg₂ Bind.bind (through_perform _) (funext fun _ => ?_)
  refine congrArg₂ Bind.bind (through_perform _) (funext fun found => ?_)
  rcases found with _ | creator
  · rfl
  · by_cases own : creator = socket.userId.val
    · simp only [own, creatorReply, if_true]
      rfl
    · simp only [own, creatorReply, if_false, segment16]
      split <;> rfl

/-! ## The clients -/

/-- How far `Channel.join` has come, after the upload of the key package. -/
inductive JoinPhase where
  | asking
  /-- The timeout runs. -/
  | waiting
  /-- The timeout has fired, and the client asks again. -/
  | retrying
  | resolved
  | rejected
deriving DecidableEq

/-- A client that joins the channel. -/
structure Joiner where
  userId : Id16
  phase : JoinPhase
  /-- What the gateway has still to do for the client's last `mls:group_info`. -/
  request : Stored Bytes
  /-- The manager of the client has the group. -/
  hasGroup : Bool
  mlsReady : Bool
  isGroupCreator : Bool

namespace Joiner

/-- The client asks who creates the group. -/
def ask (joiner : Joiner) (tenantId channelId : Id16) (phase : JoinPhase) : Joiner :=
  { joiner with
    phase := phase
    request := claimCreator tenantId.val channelId.val joiner.userId.val }

/-- The client creates the group, `none` where its manager has one already. -/
def createGroup (joiner : Joiner) : Option Joiner :=
  if joiner.hasGroup then none
  else some { joiner with
    phase := .resolved
    hasGroup := true
    mlsReady := true
    isGroupCreator := true }

/-- The first reply. -/
def firstReply (joiner : Joiner) (payload : Bytes) : Joiner :=
  if payload.head? = some 1 then joiner.createGroup.getD { joiner with phase := .rejected }
  else { joiner with phase := .waiting }

/-- The reply after the timeout. The payload is not read. -/
def lateReply (joiner : Joiner) : Joiner :=
  if joiner.mlsReady then { joiner with phase := .resolved }
  else joiner.createGroup.getD { joiner with phase := .resolved }

/-- The reply to `mls:group_info` arrives. -/
def reply (joiner : Joiner) (payload : Bytes) : Joiner :=
  match joiner.phase with
  | .asking => joiner.firstReply payload
  | .retrying => joiner.lateReply
  | _ => joiner

/-- The push of `mls:group_info` is rejected. -/
def refuse (joiner : Joiner) : Joiner :=
  match joiner.phase with
  | .asking => { joiner with phase := .rejected }
  | .retrying => { joiner with phase := .resolved }
  | _ => joiner

/-- A Welcome for the client, which is processed until it is ready. -/
def welcome (joiner : Joiner) : Joiner :=
  if joiner.mlsReady then joiner else { joiner with hasGroup := true }

/-- An `mls:cek` that the client can decrypt if it has the group. -/
def receiveCek (joiner : Joiner) : Joiner :=
  if joiner.mlsReady ∨ ¬joiner.hasGroup then joiner
  else
    { joiner with
      mlsReady := true
      phase := if joiner.phase = .waiting ∨ joiner.phase = .retrying then .resolved
        else joiner.phase }

/-- The timeout fires. -/
def timeOut (joiner : Joiner) (tenantId channelId : Id16) : Joiner :=
  if joiner.mlsReady then { joiner with phase := .resolved }
  else joiner.ask tenantId channelId .retrying

/-- The client waits for a reply. -/
def Awaits (joiner : Joiner) : Prop :=
  joiner.phase = .asking ∨ joiner.phase = .retrying

/-- The client has created the group, or the reply that makes it the creator is on its way. -/
def Leads (joiner : Joiner) : Prop :=
  joiner.isGroupCreator = true ∨
    joiner.Awaits ∧ ∃ payload, joiner.request = .done payload ∧ payload.head? = some 1

end Joiner

/-! ### What the client's own steps leave -/

namespace Joiner

/-- `next` waits for the same reply as `joiner`, and leads only if `joiner` does. -/
structure Continues (joiner next : Joiner) : Prop where
  userId : next.userId = joiner.userId
  request : next.request = joiner.request
  leads : next.Leads → joiner.Leads

variable {joiner next : Joiner}

/-- A client that is no more a creator, and waits no sooner for a reply. -/
theorem continues_of (userId : next.userId = joiner.userId)
    (request : next.request = joiner.request)
    (creator : next.isGroupCreator = joiner.isGroupCreator) (awaits : next.Awaits → joiner.Awaits) :
    joiner.Continues next where
  userId := userId
  request := request
  leads := by
    rintro (created | ⟨waits, payload, finished, told⟩)
    · exact Or.inl (creator ▸ created)
    · exact Or.inr ⟨awaits waits, payload, request ▸ finished, told⟩

theorem continues_refl : joiner.Continues joiner :=
  ⟨rfl, rfl, id⟩

/-- A phase in which the client waits for no reply. -/
theorem continues_phase {phase : JoinPhase} (quiet : phase ≠ .asking ∧ phase ≠ .retrying) :
    joiner.Continues { joiner with phase := phase } := by
  refine continues_of rfl rfl rfl ?_
  rintro (asks | retries)
  · exact absurd asks quiet.1
  · exact absurd retries quiet.2

theorem continues_refuse : joiner.Continues joiner.refuse := by
  unfold refuse
  split
  · exact continues_phase (by decide)
  · exact continues_phase (by decide)
  · exact continues_refl

theorem continues_welcome : joiner.Continues joiner.welcome := by
  unfold welcome
  split
  · exact continues_refl
  · exact continues_of rfl rfl rfl id

theorem continues_receiveCek : joiner.Continues joiner.receiveCek := by
  unfold receiveCek
  split
  · exact continues_refl
  · refine continues_of rfl rfl rfl ?_
    rintro (asks | retries)
    · by_cases ends : joiner.phase = .waiting ∨ joiner.phase = .retrying
      · simp [ends] at asks
      · exact Or.inl (by simpa [ends] using asks)
    · by_cases ends : joiner.phase = .waiting ∨ joiner.phase = .retrying
      · simp [ends] at retries
      · exact Or.inr (by simpa [ends] using retries)

/-- A client that creates the group keeps its user and its request. -/
theorem createGroup_eq_some {created : Joiner} (creates : joiner.createGroup = some created) :
    created.userId = joiner.userId ∧ created.request = joiner.request := by
  unfold createGroup at creates
  split at creates
  · cases creates
  · cases creates
    exact ⟨rfl, rfl⟩

/-- A client that creates the group if it can, and otherwise waits for no reply, leads only if
it may. -/
theorem continues_createGroup {phase : JoinPhase}
    (quiet : phase ≠ .asking ∧ phase ≠ .retrying) (leads : joiner.Leads) :
    joiner.Continues (joiner.createGroup.getD { joiner with phase := phase }) := by
  rcases creates : joiner.createGroup with _ | created
  · exact continues_phase quiet
  · rcases createGroup_eq_some creates with ⟨userId, request⟩
    exact ⟨userId, request, fun _ => leads⟩

/-- The first reply makes only a client the creator that it says is. -/
theorem continues_firstReply {payload : Bytes} (finished : joiner.request = .done payload)
    (asks : joiner.phase = .asking) : joiner.Continues (joiner.firstReply payload) := by
  unfold firstReply
  split
  · next told =>
      exact continues_createGroup (by decide) (Or.inr ⟨Or.inl asks, payload, finished, told⟩)
  · exact continues_phase (by decide)

/-- The reply after the timeout does nothing that it does not say. -/
def Heeds (joiner : Joiner) (payload : Bytes) : Prop :=
  joiner.phase = .retrying →
    joiner.mlsReady = true ∨ joiner.hasGroup = true ∨ payload.head? = some 1

theorem continues_lateReply {payload : Bytes} (finished : joiner.request = .done payload)
    (retries : joiner.phase = .retrying) (heeds : joiner.Heeds payload) :
    joiner.Continues joiner.lateReply := by
  unfold lateReply
  split
  · exact continues_phase (by decide)
  next notReady =>
  rcases heeds retries with ready | hasGroup | told
  · exact absurd ready notReady
  · rw [createGroup, if_pos hasGroup]
    exact continues_phase (by decide)
  · exact continues_createGroup (by decide) (Or.inr ⟨Or.inr retries, payload, finished, told⟩)

theorem continues_reply {payload : Bytes} (finished : joiner.request = .done payload)
    (heeds : joiner.Heeds payload) : joiner.Continues (joiner.reply payload) := by
  unfold reply
  split
  · next asks => exact continues_firstReply finished asks
  · next retries => exact continues_lateReply finished retries heeds
  · exact continues_refl

end Joiner

/-! ## The channel -/

/-- The stores and the clients that have joined the topic of the channel. -/
structure GroupWorld where
  stores : Stores
  joiners : ℕ → Option Joiner

inductive JoinLabel where
  | joined (id : ℕ) (userId : Id16)
  | performed (id : ℕ) (moment : Moment)
  | replied (id : ℕ)
  | refused (id : ℕ)
  | welcomed (id : ℕ)
  | keyed (id : ℕ)
  | timedOut (id : ℕ)
  /-- The name of the creator expires. -/
  | expired

namespace GroupWorld

variable (tenantId channelId : Id16)

def set (world : GroupWorld) (id : ℕ) (joiner : Joiner) : GroupWorld :=
  { world with joiners := Function.update world.joiners id (some joiner) }

def setStores (world : GroupWorld) (stores : Stores) : GroupWorld :=
  { world with stores := stores }

/-- A client asks for the first time. -/
def join (world : GroupWorld) (id : ℕ) (userId : Id16) : GroupWorld :=
  world.set id
    { userId := userId
      phase := .asking
      request := claimCreator tenantId.val channelId.val userId.val
      hasGroup := false
      mlsReady := false
      isGroupCreator := false }

/-- The entry of the cache that names the creator. -/
def entry (world : GroupWorld) : Option Entry :=
  world.stores.redis (Cache.mlsCreatorKey tenantId.val channelId.val)

end GroupWorld

inductive JoinStep (tenantId channelId : Id16) : GroupWorld → JoinLabel → GroupWorld → Prop where
  | joined {world : GroupWorld} {id : ℕ} {userId : Id16} (free : world.joiners id = none) :
      JoinStep tenantId channelId world (.joined id userId)
        (world.join tenantId channelId id userId)
  | performed {world : GroupWorld} {id : ℕ} {joiner : Joiner} {moment : Moment}
      {rest : Stored Bytes} {stores : Stores} (present : world.joiners id = some joiner)
      (performs : performNext moment world.stores joiner.request = some (rest, stores)) :
      JoinStep tenantId channelId world (.performed id moment)
        ((world.set id { joiner with request := rest }).setStores stores)
  | replied {world : GroupWorld} {id : ℕ} {joiner : Joiner} {payload : Bytes}
      (present : world.joiners id = some joiner) (finished : joiner.request = .done payload) :
      JoinStep tenantId channelId world (.replied id) (world.set id (joiner.reply payload))
  | refused {world : GroupWorld} {id : ℕ} {joiner : Joiner}
      (present : world.joiners id = some joiner) :
      JoinStep tenantId channelId world (.refused id) (world.set id joiner.refuse)
  | welcomed {world : GroupWorld} {id : ℕ} {joiner : Joiner}
      (present : world.joiners id = some joiner) :
      JoinStep tenantId channelId world (.welcomed id) (world.set id joiner.welcome)
  | keyed {world : GroupWorld} {id : ℕ} {joiner : Joiner}
      (present : world.joiners id = some joiner) :
      JoinStep tenantId channelId world (.keyed id) (world.set id joiner.receiveCek)
  | timedOut {world : GroupWorld} {id : ℕ} {joiner : Joiner}
      (present : world.joiners id = some joiner) (waits : joiner.phase = .waiting) :
      JoinStep tenantId channelId world (.timedOut id)
        (world.set id (joiner.timeOut tenantId channelId))
  | expired {world : GroupWorld} :
      JoinStep tenantId channelId world .expired
        (world.setStores
          (world.stores.setRedis (Cache.mlsCreatorKey tenantId.val channelId.val) none))

/-! ## One command of a request -/

section

variable {tenantId channelId userId : Id16} {moment : Moment} {stores : Stores}

/-- What follows the `SET`: its answer is not read. -/
def claimed (tenantId channelId userId : Id16) : Fate → Stored Bytes
  | .raised error _ => .fail error
  | _ => queryCreator tenantId.val channelId.val userId.val

/-- The stores after the `SET`. -/
def claimStores (tenantId channelId userId : Id16) (stores : Stores) (fate : Fate) : Stores :=
  if fate.applies ∧ stores.redis (Cache.mlsCreatorKey tenantId.val channelId.val) = none then
    stores.setRedis (Cache.mlsCreatorKey tenantId.val channelId.val)
      (some (.text (Base.encode16 userId.val)))
  else stores

theorem performNext_claim :
    performNext moment stores (claimCreator tenantId.val channelId.val userId.val) =
      some (claimed tenantId channelId userId moment.fate,
        claimStores tenantId channelId userId stores moment.fate) := by
  have next : performNext moment stores (claimCreator tenantId.val channelId.val userId.val) =
      some (claimed tenantId channelId userId moment.fate,
        if moment.fate.applies then
          (if stores.redis (Cache.mlsCreatorKey tenantId.val channelId.val) = none then
            stores.setRedis (Cache.mlsCreatorKey tenantId.val channelId.val)
              (some (.text (Base.encode16 userId.val)))
          else stores)
        else stores) := by
    rcases moment with ⟨time, id, setting, fate⟩
    cases fate <;> rfl
  rw [next, claimStores, ite_and]

/-- A query in a cache that names `creator`. -/
theorem performNext_query_of_named {creator : Id16}
    (named : stores.redis (Cache.mlsCreatorKey tenantId.val channelId.val) =
      some (.text (Base.encode16 creator.val))) :
    performNext moment stores (queryCreator tenantId.val channelId.val userId.val) =
      some (match moment.fate with
        | .raised error _ => .fail error
        | .refused .. => .done [1]
        | .carried => .done (if creator = userId then [1] else 0 :: creator.val), stores) := by
  have got : stores.execute moment (.get (Cache.mlsCreatorKey tenantId.val channelId.val)) =
      (.ok (.ok (some (Base.encode16 creator.val))), stores) := by
    simp only [Stores.execute, named]
  have replied : creatorReply userId.val (some creator.val) =
      .done (if creator = userId then [1] else 0 :: creator.val) := by
    have full : creator.val.take 16 = creator.val :=
      List.take_of_length_le (Nat.le_of_eq creator.property)
    simp only [creatorReply, creator.property, Nat.le_refl, if_true, full, Subtype.val_inj]
    split <;> rfl
  rw [queryCreator, Cache.getMlsCreator, bind_bind, performNext_send, got, ite_self, ← replied]
  rcases moment with ⟨time, id, setting, fate⟩
  cases fate with
  | carried => simp only [Fate.answer, Base.decode16_encode16]; rfl
  | refused reason applied => rfl
  | raised error applied => rfl

theorem query_ne_done {payload : Bytes} :
    queryCreator tenantId.val channelId.val userId.val ≠ .done payload := by
  intro same
  cases same

theorem claimed_ne_done {fate : Fate} {payload : Bytes} :
    claimed tenantId channelId userId fate ≠ .done payload := by
  cases fate with
  | raised error applied => intro same; cases same
  | _ => exact query_ne_done

theorem claim_ne_done {payload : Bytes} :
    claimCreator tenantId.val channelId.val userId.val ≠ .done payload := by
  intro same
  cases same

end

/-! ## Runs with a single creator -/

namespace GroupWorld

variable {tenantId channelId : Id16} {world next : GroupWorld} {id : ℕ} {joiner : Joiner}

def Leads (world : GroupWorld) (id : ℕ) : Prop :=
  ∃ joiner, world.joiners id = some joiner ∧ joiner.Leads

def HasUser (world : GroupWorld) (userId : Id16) (id : ℕ) : Prop :=
  ∃ joiner, world.joiners id = some joiner ∧ joiner.userId = userId

/-- The cache names the user as the creator. -/
def Named (tenantId channelId : Id16) (world : GroupWorld) (userId : Id16) : Prop :=
  world.entry tenantId channelId = some (.text (Base.encode16 userId.val))

/-- How a command of a request is served. -/
structure Served (tenantId channelId : Id16) (world : GroupWorld) (id : ℕ) (joiner : Joiner)
    (moment : Moment) : Prop where
  /-- The cache does not lose the first name. -/
  stored : joiner.request = claimCreator tenantId.val channelId.val joiner.userId.val →
    world.entry tenantId channelId = none → ∀ reason, moment.fate ≠ .refused reason false
  /-- The cache does not refuse to read the name. -/
  read : joiner.request = queryCreator tenantId.val channelId.val joiner.userId.val →
    ∀ reason applied, moment.fate ≠ .refused reason applied
  /-- A client that reads the name of its own user is the only one of the user. -/
  own : joiner.request = queryCreator tenantId.val channelId.val joiner.userId.val →
    moment.fate = .carried → world.Named tenantId channelId joiner.userId →
      ∀ other, world.HasUser joiner.userId other → other = id

/-- The steps at which the cache serves the requests and keeps the name, the creator's user has
one device, and a reply after the timeout is heeded. -/
def Undisturbed (tenantId channelId : Id16) (world : GroupWorld) : JoinLabel → Prop
  | .performed id moment => ∀ joiner, world.joiners id = some joiner →
      world.Served tenantId channelId id joiner moment
  | .replied id => ∀ joiner payload, world.joiners id = some joiner →
      joiner.request = .done payload → joiner.Heeds payload
  | .expired => world.entry tenantId channelId = none
  | _ => True

/-- What the gateway can have still to do for a request. The name is read only once there is
one. -/
inductive RequestStage (tenantId channelId userId : Id16) (named : Prop) : Stored Bytes → Prop where
  | claim : RequestStage tenantId channelId userId named
      (claimCreator tenantId.val channelId.val userId.val)
  | query (isNamed : named) : RequestStage tenantId channelId userId named
      (queryCreator tenantId.val channelId.val userId.val)
  | done (payload : Bytes) : RequestStage tenantId channelId userId named (.done payload)
  | failed (error : Raise) : RequestStage tenantId channelId userId named (.fail error)

theorem RequestStage.mono {userId : Id16} {named later : Prop} {request : Stored Bytes}
    (stage : RequestStage tenantId channelId userId named request) (implies : named → later) :
    RequestStage tenantId channelId userId later request := by
  cases stage with
  | claim => exact .claim
  | query isNamed => exact .query (implies isNamed)
  | done payload => exact .done payload
  | failed error => exact .failed error

/-- What every undisturbed run keeps: at most one client leads, and the cache names its user. -/
structure SingleLeader (tenantId channelId : Id16) (world : GroupWorld) : Prop where
  entry : world.entry tenantId channelId = none ∨ ∃ userId, world.Named tenantId channelId userId
  stages : ∀ id joiner, world.joiners id = some joiner →
    RequestStage tenantId channelId joiner.userId (world.entry tenantId channelId ≠ none)
      joiner.request
  named : ∀ id joiner, world.joiners id = some joiner → joiner.Leads →
    world.Named tenantId channelId joiner.userId
  unique : ∀ left right, world.Leads left → world.Leads right → left = right

theorem leads_set_self : (world.set id joiner).Leads id ↔ joiner.Leads := by
  simp [Leads, set]

theorem leads_set_of_ne {other : ℕ} (different : other ≠ id) :
    (world.set id joiner).Leads other ↔ world.Leads other := by
  simp [Leads, set, Function.update_of_ne different]

theorem named_unique {left right : Id16} (leftNamed : world.Named tenantId channelId left)
    (rightNamed : world.Named tenantId channelId right) : left = right := by
  have same := leftNamed.symm.trans rightNamed
  simp only [Option.some.injEq, Entry.text.injEq] at same
  exact Subtype.ext (Base.encode16_injective same)

/-- Where the cache names no creator, nobody leads. -/
theorem SingleLeader.nobody (single : world.SingleLeader tenantId channelId)
    (unnamed : world.entry tenantId channelId = none) (other : ℕ) : ¬world.Leads other := by
  rintro ⟨joiner, present, leads⟩
  cases unnamed.symm.trans (single.named other joiner present leads)

/-- A client goes on, and leads only where the cache names its user and nobody else leads. -/
theorem SingleLeader.set (single : world.SingleLeader tenantId channelId)
    (stage : RequestStage tenantId channelId joiner.userId
      (world.entry tenantId channelId ≠ none) joiner.request)
    (leads : joiner.Leads → world.Named tenantId channelId joiner.userId ∧
      ∀ other, world.Leads other → other = id) :
    (world.set id joiner).SingleLeader tenantId channelId where
  entry := single.entry
  stages other otherJoiner present := by
    by_cases same : other = id
    · subst same
      cases (Function.update_self ..).symm.trans present
      exact stage
    · exact single.stages other otherJoiner
        ((Function.update_of_ne same _ _).symm.trans present)
  named other otherJoiner present otherLeads := by
    by_cases same : other = id
    · subst same
      cases (Function.update_self ..).symm.trans present
      exact (leads otherLeads).1
    · exact single.named other otherJoiner
        ((Function.update_of_ne same _ _).symm.trans present) otherLeads
  unique left right leftLeads rightLeads := by
    have others : ∀ other, other ≠ id → (world.set id joiner).Leads id →
        (world.set id joiner).Leads other → False := by
      intro other different idLeads otherLeads
      exact different ((leads (leads_set_self.mp idLeads)).2 other
        ((leads_set_of_ne different).mp otherLeads))
    by_cases leftSame : left = id
    · by_cases rightSame : right = id
      · exact leftSame.trans rightSame.symm
      · exact (others right rightSame (leftSame ▸ leftLeads) rightLeads).elim
    · by_cases rightSame : right = id
      · exact (others left leftSame (rightSame ▸ rightLeads) leftLeads).elim
      · exact single.unique left right ((leads_set_of_ne leftSame).mp leftLeads)
          ((leads_set_of_ne rightSame).mp rightLeads)

theorem SingleLeader.continues (single : world.SingleLeader tenantId channelId)
    {following : Joiner} (present : world.joiners id = some joiner)
    (continues : joiner.Continues following) :
    (world.set id following).SingleLeader tenantId channelId := by
  refine single.set ?_ fun leads => ?_
  · rw [continues.userId, continues.request]
    exact single.stages id joiner present
  · rw [continues.userId]
    have before := continues.leads leads
    exact ⟨single.named id joiner present before,
      fun other otherLeads => single.unique other id otherLeads ⟨joiner, present, before⟩⟩

/-- The stores change, and the entry of the creator at most from none to a name. -/
theorem SingleLeader.setStores (single : world.SingleLeader tenantId channelId) {stores : Stores}
    (entry : (world.setStores stores).entry tenantId channelId = world.entry tenantId channelId ∨
      world.entry tenantId channelId = none ∧
        ∃ userId, (world.setStores stores).Named tenantId channelId userId) :
    (world.setStores stores).SingleLeader tenantId channelId := by
  rcases entry with kept | ⟨unnamed, userId, isNamed⟩
  · refine ⟨?_, fun id joiner present => ?_, fun id joiner present leads => ?_, single.unique⟩
    · exact single.entry.imp kept.trans fun ⟨userId, isNamed⟩ => ⟨userId, kept.trans isNamed⟩
    · rw [kept]
      exact single.stages id joiner present
    · exact kept.trans (single.named id joiner present leads)
  · refine ⟨Or.inr ⟨userId, isNamed⟩, fun id joiner present => ?_,
      fun id joiner present leads => ?_, single.unique⟩
    · exact (single.stages id joiner present).mono fun isSome => absurd unnamed isSome
    · exact absurd ⟨joiner, present, leads⟩ (single.nobody unnamed id)

/-- The client asks again. -/
theorem SingleLeader.timeOut (single : world.SingleLeader tenantId channelId)
    (present : world.joiners id = some joiner) :
    (world.set id (joiner.timeOut tenantId channelId)).SingleLeader tenantId channelId := by
  unfold Joiner.timeOut
  split
  · exact single.continues present (Joiner.continues_phase (by decide))
  · refine single.set ?_ ?_
    · exact .claim
    rintro (created | ⟨-, payload, finished, -⟩)
    · have before : joiner.Leads := Or.inl created
      exact ⟨single.named id joiner present before,
        fun other leads => single.unique other id leads ⟨joiner, present, before⟩⟩
    · exact absurd finished claim_ne_done

/-- A request goes on, and makes its client the creator only where the cache names its user and
nobody else leads. -/
theorem SingleLeader.request (single : world.SingleLeader tenantId channelId)
    (present : world.joiners id = some joiner) {rest : Stored Bytes}
    (stage : RequestStage tenantId channelId joiner.userId
      (world.entry tenantId channelId ≠ none) rest)
    (told : ∀ payload, rest = .done payload → payload.head? = some 1 →
      world.Named tenantId channelId joiner.userId ∧ ∀ other, world.Leads other → other = id) :
    (world.set id { joiner with request := rest }).SingleLeader tenantId channelId := by
  refine single.set stage ?_
  rintro (created | ⟨-, payload, finished, first⟩)
  · have before : joiner.Leads := Or.inl created
    exact ⟨single.named id joiner present before,
      fun other leads => single.unique other id leads ⟨joiner, present, before⟩⟩
  · exact told payload finished first

/-- A `SET` that the cache does not lose leaves a name. -/
theorem entry_claimStores {userId : Id16} {fate : Fate}
    (stored : world.entry tenantId channelId = none → ∀ reason, fate ≠ .refused reason false)
    (returned : ∀ error applied, fate ≠ .raised error applied) :
    (world.setStores (claimStores tenantId channelId userId world.stores fate)).entry tenantId
      channelId ≠ none := by
  unfold claimStores
  split
  · have stores : (world.setStores (world.stores.setRedis
        (Cache.mlsCreatorKey tenantId.val channelId.val)
        (some (.text (Base.encode16 userId.val))))).entry tenantId channelId =
          some (.text (Base.encode16 userId.val)) := Function.update_self _ _ _
    rw [stores]
    exact Option.some_ne_none _
  · next lost =>
    intro unnamed
    cases fate with
    | carried => exact lost ⟨rfl, unnamed⟩
    | refused reason applied =>
        cases applied
        · exact stored unnamed reason rfl
        · exact lost ⟨rfl, unnamed⟩
    | raised error applied => exact returned error applied rfl

theorem SingleLeader.performClaim (single : world.SingleLeader tenantId channelId)
    (present : world.joiners id = some joiner) {moment : Moment}
    (claims : joiner.request = claimCreator tenantId.val channelId.val joiner.userId.val)
    (served : world.Served tenantId channelId id joiner moment) :
    ((world.set id
        { joiner with
          request := claimed tenantId channelId joiner.userId moment.fate }).setStores
      (claimStores tenantId channelId joiner.userId world.stores moment.fate)).SingleLeader
        tenantId channelId := by
  have stored : (world.setStores (claimStores tenantId channelId joiner.userId world.stores
      moment.fate)).SingleLeader tenantId channelId := by
    apply single.setStores
    unfold claimStores
    split
    · next applied => exact Or.inr ⟨applied.2, joiner.userId, Function.update_self _ _ _⟩
    · exact Or.inl rfl
  refine stored.request present ?_ fun payload finished => absurd finished claimed_ne_done
  have isNamed := @entry_claimStores tenantId channelId world joiner.userId moment.fate
    (served.stored claims)
  rcases fateEq : moment.fate with _ | ⟨reason, applied⟩ | ⟨error, applied⟩ <;>
    rw [fateEq] at isNamed
  · exact .query (isNamed fun _ _ same => by cases same)
  · exact .query (isNamed fun _ _ same => by cases same)
  · exact .failed error

/-- The `GET` of a request finds a name, and makes the client the creator only if it is the
name of its user. -/
theorem SingleLeader.performQuery (single : world.SingleLeader tenantId channelId)
    (present : world.joiners id = some joiner) {moment : Moment} {rest : Stored Bytes}
    {stores : Stores}
    (queries : joiner.request = queryCreator tenantId.val channelId.val joiner.userId.val)
    (isNamed : world.entry tenantId channelId ≠ none)
    (served : world.Served tenantId channelId id joiner moment)
    (performs : performNext moment world.stores
      (queryCreator tenantId.val channelId.val joiner.userId.val) = some (rest, stores)) :
    ((world.set id { joiner with request := rest }).setStores stores).SingleLeader
      tenantId channelId := by
  rcases single.entry.resolve_left isNamed with ⟨creator, named⟩
  rw [performNext_query_of_named named] at performs
  cases performs
  rcases fateEq : moment.fate with _ | ⟨reason, applied⟩ | ⟨error, applied⟩
  · refine single.request present (.done _) fun payload finished told => ?_
    by_cases own : creator = joiner.userId
    · subst own
      refine ⟨named, fun other ⟨leader, leaderPresent, leads⟩ => ?_⟩
      have sameUser := named_unique (single.named other leader leaderPresent leads) named
      exact served.own queries fateEq named other ⟨leader, leaderPresent, sameUser⟩
    · cases finished
      simp [own] at told
  · exact absurd fateEq (served.read queries reason applied)
  · exact single.request present (.failed error) fun _ finished => by cases finished

theorem SingleLeader.perform (single : world.SingleLeader tenantId channelId)
    (present : world.joiners id = some joiner) {moment : Moment} {rest : Stored Bytes}
    {stores : Stores} (served : world.Served tenantId channelId id joiner moment)
    (performs : performNext moment world.stores joiner.request = some (rest, stores)) :
    ((world.set id { joiner with request := rest }).setStores stores).SingleLeader
      tenantId channelId := by
  have stage := single.stages id joiner present
  generalize requestEq : joiner.request = request at stage performs
  cases stage with
  | claim =>
      rw [performNext_claim] at performs
      cases performs
      exact single.performClaim present requestEq served
  | query isNamed => exact single.performQuery present requestEq isNamed served performs
  | done payload => cases performs
  | failed error => cases performs

theorem SingleLeader.step {label : JoinLabel} (single : world.SingleLeader tenantId channelId)
    (step : Guarded (Undisturbed tenantId channelId) (JoinStep tenantId channelId) world label
      next) : next.SingleLeader tenantId channelId := by
  rcases step with ⟨undisturbed, step⟩
  cases step with
  | joined free =>
      refine single.set ?_ ?_
      · exact .claim
      rintro (created | ⟨-, payload, finished, -⟩)
      · cases created
      · exact absurd finished claim_ne_done
  | performed present performs => exact single.perform present (undisturbed _ present) performs
  | replied present finished =>
      exact single.continues present
        (Joiner.continues_reply finished (undisturbed _ _ present finished))
  | refused present => exact single.continues present Joiner.continues_refuse
  | welcomed present => exact single.continues present Joiner.continues_welcome
  | keyed present => exact single.continues present Joiner.continues_receiveCek
  | timedOut present _ => exact single.timeOut present
  | expired =>
      exact single.setStores (Or.inl ((Function.update_self _ _ _).trans undisturbed.symm))

/-- No client has joined the channel yet. -/
def start (stores : Stores) : GroupWorld where
  stores := stores
  joiners _ := none

/-- The client has created the group. -/
def IsCreator (world : GroupWorld) (id : ℕ) : Prop :=
  ∃ joiner, world.joiners id = some joiner ∧ joiner.isGroupCreator = true

/-- At most one client has created the group. -/
def AtMostOneCreator (world : GroupWorld) : Prop :=
  ∀ left right, world.IsCreator left → world.IsCreator right → left = right

theorem singleLeader_start {stores : Stores}
    (unnamed : (start stores).entry tenantId channelId = none) :
    (start stores).SingleLeader tenantId channelId where
  entry := Or.inl unnamed
  stages _ _ present := by cases present
  named _ _ present := by cases present
  unique left _ leads := by
    rcases leads with ⟨joiner, absent, -⟩
    cases absent

/-- In every undisturbed run at most one client creates the group of the channel. -/
theorem creator_unique {stores : Stores} {labels : List JoinLabel} {world : GroupWorld}
    (unnamed : (start stores).entry tenantId channelId = none)
    (run : Run (Guarded (Undisturbed tenantId channelId) (JoinStep tenantId channelId))
      (start stores) labels world) : world.AtMostOneCreator := by
  have single : world.SingleLeader tenantId channelId :=
    run.invariant (fun single step => SingleLeader.step single step) (singleLeader_start unnamed)
  rintro left right ⟨leftJoiner, leftPresent, leftCreated⟩
    ⟨rightJoiner, rightPresent, rightCreated⟩
  exact single.unique left right ⟨leftJoiner, leftPresent, Or.inl leftCreated⟩
    ⟨rightJoiner, rightPresent, Or.inl rightCreated⟩

/-- A reply after the timeout that is not heeded makes a second creator, whatever it says. -/
theorem second_creator_of_unheeded {other : ℕ} {payload : Bytes}
    (creator : world.IsCreator other) (different : other ≠ id)
    (present : world.joiners id = some joiner) (finished : joiner.request = .done payload)
    (unheeded : ¬joiner.Heeds payload) :
    ∃ next, JoinStep tenantId channelId world (.replied id) next ∧ ¬next.AtMostOneCreator := by
  rcases Classical.not_imp.mp unheeded with ⟨retries, neither⟩
  rcases not_or.mp neither with ⟨notReady, neither⟩
  have groupless : joiner.hasGroup ≠ true := fun hasGroup => neither (Or.inl hasGroup)
  refine ⟨_, .replied present finished, fun atMostOne => different (atMostOne other id ?_ ?_)⟩
  · rcases creator with ⟨leader, leaderPresent, created⟩
    exact ⟨leader, (Function.update_of_ne different _ _).trans leaderPresent, created⟩
  · refine ⟨_, Function.update_self _ _ _, ?_⟩
    rw [Joiner.reply, retries]
    simp [Joiner.lateReply, Joiner.createGroup, notReady, groupless]

/-! ### Two clients that join -/

theorem set_set {first second : Joiner} :
    (world.set id first).set id second = world.set id second := by
  simp [set]

/-- A client in its first request. -/
def askingWith (userId : Id16) (request : Stored Bytes) : Joiner where
  userId := userId
  phase := .asking
  request := request
  hasGroup := false
  mlsReady := false
  isGroupCreator := false

/-- The reply to a client of the user where the cache names `creator`. -/
def namedReply (userId creator : Id16) : Bytes :=
  if creator = userId then [1] else 0 :: creator.val

/-- The world after a client has asked and been answered, with every command carried out. -/
def afterJoin (tenantId channelId : Id16) (world : GroupWorld) (id : ℕ) (userId creator : Id16) :
    GroupWorld :=
  (world.setStores (claimStores tenantId channelId userId world.stores .carried)).set id
    ((askingWith userId (.done (namedReply userId creator))).reply (namedReply userId creator))

/-- A client joins, its two commands are carried out, and the reply arrives. -/
def joins (id : ℕ) (userId : Id16) : List JoinLabel :=
  [.joined id userId, .performed id carriedOut, .performed id carriedOut, .replied id]

theorem run_joins {userId creator : Id16} {guard : GroupWorld → JoinLabel → Prop}
    (free : world.joiners id = none)
    (named : (world.setStores (claimStores tenantId channelId userId world.stores
      .carried)).Named tenantId channelId creator)
    (joined : guard world (.joined id userId))
    (performed : ∀ stores request, guard ((world.setStores stores).set id
      (askingWith userId request)) (.performed id carriedOut))
    (replied : ∀ stores request, guard ((world.setStores stores).set id
      (askingWith userId request)) (.replied id)) :
    Run (Guarded guard (JoinStep tenantId channelId)) world (joins id userId)
      (world.afterJoin tenantId channelId id userId creator) := by
  have present : ∀ stores request, ((world.setStores stores).set id
      (askingWith userId request)).joiners id = some (askingWith userId request) :=
    fun _ _ => Function.update_self _ _ _
  have claims : JoinStep tenantId channelId
      ((world.setStores world.stores).set id
        (askingWith userId (claimCreator tenantId.val channelId.val userId.val)))
      (.performed id carriedOut)
      ((world.setStores (claimStores tenantId channelId userId world.stores .carried)).set id
        (askingWith userId (queryCreator tenantId.val channelId.val userId.val))) := by
    have step := @JoinStep.performed tenantId channelId _ id _ carriedOut _ _
      (present world.stores _)
      (@performNext_claim tenantId channelId userId carriedOut world.stores)
    rw [set_set] at step
    exact step
  have queries : JoinStep tenantId channelId
      ((world.setStores (claimStores tenantId channelId userId world.stores .carried)).set id
        (askingWith userId (queryCreator tenantId.val channelId.val userId.val)))
      (.performed id carriedOut)
      ((world.setStores (claimStores tenantId channelId userId world.stores .carried)).set id
        (askingWith userId (.done (namedReply userId creator)))) := by
    have step := @JoinStep.performed tenantId channelId _ id _ carriedOut _ _
      (present (claimStores tenantId channelId userId world.stores .carried) _)
      (@performNext_query_of_named tenantId channelId userId carriedOut _ creator named)
    rw [set_set] at step
    exact step
  have answered : JoinStep tenantId channelId
      ((world.setStores (claimStores tenantId channelId userId world.stores .carried)).set id
        (askingWith userId (.done (namedReply userId creator)))) (.replied id)
      (world.afterJoin tenantId channelId id userId creator) := by
    have step := @JoinStep.replied tenantId channelId _ id _ (namedReply userId creator)
      (present (claimStores tenantId channelId userId world.stores .carried) _) rfl
    rw [set_set] at step
    exact step
  have entered : JoinStep tenantId channelId world (.joined id userId)
      ((world.setStores world.stores).set id
        (askingWith userId (claimCreator tenantId.val channelId.val userId.val))) := .joined free
  exact .cons ⟨joined, entered⟩ (.cons ⟨performed _ _, claims⟩ (.cons ⟨performed _ _, queries⟩
    (.cons ⟨replied _ _, answered⟩ .refl)))

/-- Users 3 and `second` join one after the other. -/
def joinedTwo (second : Byte) : GroupWorld :=
  ((start (onlyCursors .empty)).afterJoin (.replicate 1) (.replicate 2) 0 (.replicate 3)
    (.replicate 3)).afterJoin (.replicate 1) (.replicate 2) 1 (.replicate second) (.replicate 3)

theorem run_joinedTwo {second : Byte} {guard : GroupWorld → JoinLabel → Prop}
    (joined : ∀ world id userId, guard world (.joined id userId))
    (first : ∀ stores request, guard (((start (onlyCursors .empty)).setStores stores).set 0
      (askingWith (.replicate 3) request)) (.performed 0 carriedOut))
    (later : ∀ stores request, guard ((((start (onlyCursors .empty)).afterJoin (.replicate 1)
      (.replicate 2) 0 (.replicate 3) (.replicate 3)).setStores stores).set 1
        (askingWith (.replicate second) request)) (.performed 1 carriedOut))
    (replied : ∀ (world : GroupWorld) (id : ℕ) (userId : Id16) (request : Stored Bytes),
      guard (world.set id (askingWith userId request)) (.replied id)) :
    Run (Guarded guard (JoinStep (.replicate 1) (.replicate 2))) (start (onlyCursors .empty))
      (joins 0 (.replicate 3) ++ joins 1 (.replicate second)) (joinedTwo second) :=
  (@run_joins (.replicate 1) (.replicate 2) (start (onlyCursors .empty)) 0 (.replicate 3)
    (.replicate 3) guard rfl rfl (joined _ _ _) first fun _ _ => replied _ _ _ _).append
    (@run_joins (.replicate 1) (.replicate 2) ((start (onlyCursors .empty)).afterJoin
      (.replicate 1) (.replicate 2) 0 (.replicate 3) (.replicate 3)) 1 (.replicate second)
      (.replicate 3) guard rfl rfl (joined _ _ _) later fun _ _ => replied _ _ _ _)

/-- Two devices of one user join while the cache carries out every command: each is told that it
is the creator. -/
theorem two_creators_of_two_devices :
    ¬∀ (tenantId channelId : Id16) (stores : Stores) (labels : List JoinLabel)
        (world : GroupWorld), (start stores).entry tenantId channelId = none →
      Run (JoinStep tenantId channelId) (start stores) labels world →
        world.AtMostOneCreator := by
  intro single
  have run := @run_joinedTwo 3 (fun _ _ => True) (fun _ _ _ => trivial) (fun _ _ => trivial)
    (fun _ _ => trivial) fun _ _ _ _ => trivial
  have same := single _ _ _ _ _ rfl run.of_guarded 0 1 ⟨_, rfl, rfl⟩ ⟨_, rfl, rfl⟩
  cases same

/-- A command that is carried out for the only client of a user. -/
theorem served_of_carriedOut
    (alone : ∀ other, world.HasUser joiner.userId other → other = id) :
    world.Served tenantId channelId id joiner carriedOut where
  stored _ _ _ refused := by cases refused
  read _ _ _ refused := by cases refused
  own _ _ _ := alone

theorem hasUser_set {userId : Id16} {other : ℕ}
    (user : (world.set id joiner).HasUser userId other) :
    other = id ∨ world.HasUser userId other := by
  by_cases same : other = id
  · exact Or.inl same
  · rcases user with ⟨found, present, isUser⟩
    exact Or.inr ⟨found, (Function.update_of_ne same _ _).symm.trans present, isUser⟩

theorem undisturbed_asking {userId : Id16} {request : Stored Bytes} :
    (world.set id (askingWith userId request)).Undisturbed tenantId channelId (.replied id) := by
  intro joiner payload present _ retries
  cases (Function.update_self ..).symm.trans present
  cases retries

/-- The second of two users is told to wait, and gets the group by a Welcome. -/
theorem creator_unique_of_two :
    ∃ labels world,
      Run (Guarded (Undisturbed (.replicate 1) (.replicate 2))
        (JoinStep (.replicate 1) (.replicate 2))) (start (onlyCursors .empty)) labels world ∧
      world.IsCreator 0 ∧
        (∃ joiner, world.joiners 1 = some joiner ∧ joiner.phase = .resolved ∧
          joiner.mlsReady = true) ∧ world.AtMostOneCreator := by
  have joined : Run (Guarded (Undisturbed (.replicate 1) (.replicate 2))
      (JoinStep (.replicate 1) (.replicate 2))) (start (onlyCursors .empty))
        (joins 0 (.replicate 3) ++ joins 1 (.replicate 4)) (joinedTwo 4) := by
    apply run_joinedTwo
    · exact fun _ _ _ => trivial
    · intro stores request joiner present
      cases present
      refine served_of_carriedOut fun other user => (hasUser_set user).resolve_right ?_
      rintro ⟨found, absent, -⟩
      cases absent
    · intro stores request joiner present
      cases present
      refine served_of_carriedOut fun other user => (hasUser_set user).resolve_right ?_
      rintro ⟨found, present, isUser⟩
      rcases hasUser_set (⟨found, present, rfl⟩ : HasUser _ found.userId other) with
        rfl | ⟨_, absent, -⟩
      · cases present
        cases isUser
      · cases absent
    · exact fun _ _ _ _ => undisturbed_asking
  have welcomed := joined.snoc (show Guarded (Undisturbed (.replicate 1) (.replicate 2))
    (JoinStep (.replicate 1) (.replicate 2)) _ (.welcomed 1) _ from ⟨trivial, .welcomed rfl⟩)
  have keyed := welcomed.snoc (show Guarded (Undisturbed (.replicate 1) (.replicate 2))
    (JoinStep (.replicate 1) (.replicate 2)) _ (.keyed 1) _ from ⟨trivial, .keyed rfl⟩)
  exact ⟨_, _, keyed, ⟨_, rfl, rfl⟩, ⟨_, rfl, rfl, rfl⟩, creator_unique rfl keyed⟩

end GroupWorld

end Mercury.Mls
