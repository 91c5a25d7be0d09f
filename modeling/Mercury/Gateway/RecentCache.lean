import Mercury.Gateway.MessageMaps

/-!
# The cache of recent messages

`read_recent` serves the newest messages of a channel from a list in Redis, as long as
the list is long enough. A list that was right stays right while what is written to the
channel leaves its messages the newest, or is followed by the deletion of the list
(`CacheCoherent`). `msg:send` deletes the list, `sync:push` does not.
-/

namespace Mercury.Gateway

open Foundations Foundations.Program Persistence

/-! ## The newest messages of a channel -/

/-- The messages of a bucket, newest first. -/
def bucketMessages (table : MessageTable) (tenantId channelId : Bytes) (bucket : ℕ) :
    List Message :=
  ((table.partition tenantId channelId bucket).insertionSort fun first second =>
    second.message.messageId ≤ first.message.messageId).map MessageRow.message

/-- The messages of the current bucket and the one before it, newest first. -/
def newestMessages (table : MessageTable) (tenantId channelId : Bytes) (bucket : ℕ) :
    List Message :=
  bucketMessages table tenantId channelId bucket ++
    match bucket with
    | 0 => []
    | older + 1 => bucketMessages table tenantId channelId older

/-- The maps of the messages of a bucket, newest first. -/
def bucketMaps (table : MessageTable) (tenantId channelId : Bytes) (bucket : ℕ) :
    List MessageMap :=
  ((table.partition tenantId channelId bucket).insertionSort fun first second =>
    second.message.messageId ≤ first.message.messageId).map MessageMap.ofRow

/-- The maps of the newest messages. -/
def newestMaps (table : MessageTable) (tenantId channelId : Bytes) (bucket : ℕ) :
    List MessageMap :=
  bucketMaps table tenantId channelId bucket ++
    match bucket with
    | 0 => []
    | older + 1 => bucketMaps table tenantId channelId older

theorem map_bucketMaps (table : MessageTable) (tenantId channelId : Bytes) (bucket : ℕ) :
    (bucketMaps table tenantId channelId bucket).map MessageMap.message =
      bucketMessages table tenantId channelId bucket :=
  List.map_map

theorem map_newestMaps (table : MessageTable) (tenantId channelId : Bytes) (bucket : ℕ) :
    (newestMaps table tenantId channelId bucket).map MessageMap.message =
      newestMessages table tenantId channelId bucket := by
  unfold newestMaps newestMessages
  rw [List.map_append, map_bucketMaps]
  rcases bucket with _ | older
  · rfl
  · exact congrArg _ (map_bucketMaps table tenantId channelId older)

theorem map_select (table : MessageTable) (tenantId channelId : Bytes) (bucket limit : ℕ) :
    (table.select tenantId channelId bucket limit).map MessageMap.ofRow =
      (bucketMaps table tenantId channelId bucket).take limit :=
  List.map_take

/-- The list that is cached as `text`. -/
def cachedMessages (json : Json) (text : Bytes) : Option (List Message) :=
  (json.decodeMessages text).bind fun items => items.mapM Cache.deserializeMessage

/-- JSON reads back the lists of messages that it writes. -/
def Json.RoundTrips (json : Json) : Prop :=
  ∀ messages : List Message,
    json.decodeMessages (json.encodeMessages (messages.map Cache.serializeMessage)) =
      some (messages.map Cache.serializeMessage)

theorem deserializeMessage_serializeMessage (msg : Message) :
    Cache.deserializeMessage (Cache.serializeMessage msg) = some msg := by
  rcases msg with ⟨messageId, senderId, encryptedContent, contentType, replyTo, createdAt⟩
  simp only [Cache.deserializeMessage, Cache.serializeMessage, Option.getD_some,
    Base.decode64_encode64, Option.bind_eq_bind, Option.bind_some]
  cases replyTo <;> simp [Base.decode64_encode64]

theorem cachedMessages_encode {json : Json} (roundTrips : json.RoundTrips)
    (messages : List Message) :
    cachedMessages json (json.encodeMessages (messages.map Cache.serializeMessage)) =
      some messages := by
  rw [cachedMessages, roundTrips, Option.bind_some]
  induction messages with
  | nil => rfl
  | cons msg later ih =>
      rw [List.map_cons, List.mapM_cons, deserializeMessage_serializeMessage, ih]
      rfl

/-! ## Reading the newest messages -/

section Reading

variable {up : Prop} {json : Json} {table : MessageTable} {tenantId channelId : Bytes}
  {bucket limit : ℕ}

/-- The list holds the newest messages, as many as it has. -/
def AreNewest (table : MessageTable) (tenantId channelId : Bytes) (bucket : ℕ)
    (msgs : List Message) : Prop :=
  msgs = (newestMessages table tenantId channelId bucket).take msgs.length

theorem areNewest_take (limit : ℕ) :
    AreNewest table tenantId channelId bucket
      ((newestMessages table tenantId channelId bucket).take limit) := by
  unfold AreNewest
  rw [List.length_take, ← List.take_take, List.take_length]

theorem AreNewest.take {msgs : List Message}
    (newest : AreNewest table tenantId channelId bucket msgs)
    (enough : limit ≤ msgs.length) :
    msgs.take limit = (newestMessages table tenantId channelId bucket).take limit := by
  rw [AreNewest] at newest
  rw [newest, List.take_take, Nat.min_eq_left enough]

/-- An answer of stores with this table whose cached list is right, at a time in the bucket;
where the stores are `up`, they answer. -/
structure RecentAnswer (up : Prop) (json : Json) (table : MessageTable)
    (tenantId channelId : Bytes) (bucket : ℕ) (taken : Performed commands Raise) : Prop where
  replied : up → ¬MayRaise taken.call → ∃ reply, taken.answer = .ok reply
  timed : ∀ now : ℕ, taken = ⟨.time, .ok now⟩ → TimeBucket.compute now = .ok bucket
  read : ∀ (asked limit : ℕ) (page : Except Bytes (List MessageRow)),
    taken = ⟨.selectMessages tenantId channelId asked limit, .ok page⟩ →
      (limit = 0 ∧ ∃ reason, page = .error reason) ∨
        (0 < limit ∧ page = .ok (table.select tenantId channelId asked limit))
  cached : ∀ text msgs, taken = ⟨.get (Cache.recentKey tenantId channelId), .ok (.ok (some text))⟩ →
    cachedMessages json text = some msgs → AreNewest table tenantId channelId bucket msgs

/-- The commands of a read; what is cached is right. -/
def RefreshesRecent (json : Json) (table : MessageTable) (tenantId channelId : Bytes)
    (bucket : ℕ) : Command → Prop
  | .time => True
  | .get _ => True
  | .selectMessages .. => True
  | .del _ => True
  | .setex key text => key = Cache.recentKey tenantId channelId ∧
      ∃ msgs, AreNewest table tenantId channelId bucket msgs ∧
        text = json.encodeMessages (msgs.map Cache.serializeMessage)
  | _ => False

theorem RecentAnswer.not_up {command : Command} {raised : Raise}
    (answered : RecentAnswer up json table tenantId channelId bucket ⟨command, .error raised⟩)
    (surely : ¬MayRaise command) : ¬up := by
  intro isUp
  rcases answered.replied isUp surely with ⟨reply, same⟩
  cases same

/-- The program returns the newest messages; it may fail where the stores are not `up`. -/
def ReturnsNewest (up : Prop) (table : MessageTable) (tenantId channelId : Bytes)
    (bucket limit : ℕ) : Except Raise (List Message) → Prop
  | .ok msgs => msgs = (newestMessages table tenantId channelId bucket).take limit
  | .error _ => ¬up

/-- The program returns the maps of the newest messages. -/
def ReturnsNewestMaps (up : Prop) (table : MessageTable) (tenantId channelId : Bytes)
    (bucket limit : ℕ) : Except Raise (List MessageMap) → Prop
  | .ok maps => maps = (newestMaps table tenantId channelId bucket).take limit
  | .error _ => ¬up

theorem readMaps_newest {asked : ℕ} :
    (Messages.readMaps tenantId channelId asked limit).Ensures
      (RecentAnswer up json table tenantId channelId bucket)
      (RefreshesRecent json table tenantId channelId bucket) fun
        | .ok (.ok maps) =>
            0 < limit ∧ maps = (bucketMaps table tenantId channelId asked).take limit
        | .ok (.error _) => limit = 0
        | .error _ => ¬up := by
  refine Ensures.bind.mpr (Ensures.perform.mpr ⟨trivial, ?_⟩)
  rintro (raised | page) answered
  · exact answered.not_up id
  rcases answered.read asked limit page rfl with ⟨none, reason, rfl⟩ | ⟨positive, rfl⟩
  · exact none
  · exact ⟨positive, map_select ..⟩

theorem readMapsFromScylla_newest :
    (Messages.readMapsFromScylla tenantId channelId limit).Ensures
      (RecentAnswer up json table tenantId channelId bucket)
      (RefreshesRecent json table tenantId channelId bucket)
      (ReturnsNewestMaps up table tenantId channelId bucket limit) := by
  refine Ensures.bind.mpr (Ensures.perform.mpr ⟨trivial, ?_⟩)
  rintro (raised | now) answered
  · exact answered.not_up id
  have current := answered.timed now rfl
  dsimp only
  rw [current]
  refine Ensures.bind.mpr (Ensures.ofExcept.mpr ?_)
  refine Ensures.bind.mpr (Ensures.post_mono readMaps_newest ?_)
  rintro (raised | reason | maps) first
  · exact first
  · obtain rfl : limit = 0 := first
    rfl
  rcases first with ⟨positive, rfl⟩
  dsimp only
  split
  · next short =>
      -- the whole bucket has been read
      have all : limit > (bucketMaps table tenantId channelId bucket).length := by
        rw [List.length_take] at short
        omega
      rcases bucket with _ | older
      · simp [ReturnsNewestMaps, newestMaps]
      dsimp only
      refine Ensures.bind.mpr (Ensures.post_mono readMaps_newest ?_)
      rintro (raised | reason | more) second
      · exact second
      · have spent : limit - (List.take limit
            (bucketMaps table tenantId channelId (older + 1))).length = 0 := second
        rw [List.length_take] at spent
        omega
      · rcases second with ⟨-, rfl⟩
        show _ = _
        unfold newestMaps
        rw [List.take_append, List.length_take, Nat.min_eq_right (by omega)]
  · next enough =>
      have long : limit ≤ (bucketMaps table tenantId channelId bucket).length := by
        rw [List.length_take] at enough
        omega
      show _ = _
      unfold newestMaps
      rw [List.take_append_of_le_length long]

theorem readRecentFromScylla_newest :
    (Messages.readRecentFromScylla tenantId channelId limit).Ensures
      (RecentAnswer up json table tenantId channelId bucket)
      (RefreshesRecent json table tenantId channelId bucket)
      (ReturnsNewest up table tenantId channelId bucket limit) := by
  rw [Messages.readRecentFromScylla_eq]
  refine Ensures.bind.mpr (Ensures.post_mono readMapsFromScylla_newest ?_)
  rintro (raised | maps) newest
  · exact newest
  · obtain rfl : maps = _ := newest
    show _ = _
    rw [List.map_take, map_newestMaps]

theorem getRecentMessages_newest :
    (Cache.getRecentMessages json tenantId channelId).Ensures
      (RecentAnswer up json table tenantId channelId bucket)
      (RefreshesRecent json table tenantId channelId bucket) fun
        | .ok (some msgs) => AreNewest table tenantId channelId bucket msgs
        | .ok none => True
        | .error _ => ¬up := by
  refine Ensures.bind.mpr (Ensures.perform.mpr ⟨trivial, ?_⟩)
  rintro (raised | _ | _ | text) answered
  · exact answered.not_up id
  · trivial
  · trivial
  dsimp only
  split
  · next msgs held => exact answered.cached text msgs rfl held
  · refine Ensures.bind.mpr (Ensures.perform.mpr ⟨trivial, ?_⟩)
    rintro (raised | answer) answered
    · exact answered.not_up id
    · trivial

theorem refreshRecent_newest :
    (Messages.refreshRecent json tenantId channelId limit).Ensures
      (RecentAnswer up json table tenantId channelId bucket)
      (RefreshesRecent json table tenantId channelId bucket)
      (ReturnsNewest up table tenantId channelId bucket limit) := by
  refine Ensures.bind.mpr (Ensures.post_mono readRecentFromScylla_newest ?_)
  rintro (raised | msgs) newest
  · exact newest
  have stores : RefreshesRecent json table tenantId channelId bucket
      (.setex (Cache.recentKey tenantId channelId)
        (json.encodeMessages (msgs.map Cache.serializeMessage))) :=
    ⟨rfl, msgs, newest ▸ areNewest_take limit, rfl⟩
  dsimp only
  split
  · refine Ensures.bind.mpr (Ensures.bind.mpr (Ensures.perform.mpr ⟨stores, ?_⟩))
    rintro (raised | answer) answered
    · exact answered.not_up id
    · exact newest
  · exact newest

/-- A read returns the newest messages, from the cache or from the table. -/
theorem readRecent_newest :
    (Messages.readRecent json tenantId channelId limit).Ensures
      (RecentAnswer up json table tenantId channelId bucket)
      (RefreshesRecent json table tenantId channelId bucket)
      (ReturnsNewest up table tenantId channelId bucket limit) := by
  refine Ensures.bind.mpr (Ensures.post_mono getRecentMessages_newest ?_)
  rintro (raised | _ | msgs) cached
  · exact cached
  · exact refreshRecent_newest
  dsimp only
  split
  · next enough => exact AreNewest.take cached enough
  · exact refreshRecent_newest

end Reading

/-! ## The cached list and the table -/

section Coherence

variable {json : Json} {tenantId channelId : Bytes} {bucket : ℕ} {stores : Stores}

/-- What a `GET` of the key returns. -/
def heldText : Option Entry → Option Bytes
  | some (.text value) => some value
  | some (.number value) => some (ascii value.repr)
  | some (.set _) => none
  | none => none

/-- The list that the cache holds for the channel, if any, are the newest messages. -/
def CacheCoherent (json : Json) (tenantId channelId : Bytes) (bucket : ℕ) (stores : Stores) :
    Prop :=
  ∀ text msgs, heldText (stores.redis (Cache.recentKey tenantId channelId)) = some text →
    cachedMessages json text = some msgs →
      AreNewest stores.messages tenantId channelId bucket msgs

/-- The read of a page of messages succeeds. A page without room is an error of ScyllaDB. -/
def ReadSucceeds : Performed commands Raise → Prop
  | ⟨.selectMessages _ _ _ limit, answer⟩ => limit = 0 ∨ ∃ rows, answer = .ok (.ok rows)
  | _ => True

/-- The reply to a `GET` is what the key holds. -/
theorem heldText_of_get {moment : Moment} {key text : Bytes}
    (answered : (stores.perform moment (.get key)).1 = .ok (.ok (some text))) :
    heldText (stores.redis key) = some text := by
  rcases fateEq : moment.fate with _ | ⟨reason, applied⟩ | ⟨error, applied⟩ <;>
    simp only [Stores.perform, fateEq, Fate.answer, Stores.execute, refusal] at answered
  · split at answered
    · cases Except.ok.inj (Except.ok.inj answered)
    · next value entryEq =>
        rw [entryEq]
        exact Except.ok.inj (Except.ok.inj answered)
    · next value entryEq =>
        rw [entryEq]
        exact Except.ok.inj (Except.ok.inj answered)
    · cases Except.ok.inj answered
  · cases Except.ok.inj answered
  · cases answered

/-- A page of messages is the first rows of its bucket. -/
theorem page_of_select {moment : Moment} {asked limit : ℕ} {page : List MessageRow}
    (answered : (stores.perform moment (.selectMessages tenantId channelId asked limit)).1 =
      .ok (.ok page)) :
    0 < limit ∧ page = stores.messages.select tenantId channelId asked limit := by
  rcases fateEq : moment.fate with _ | ⟨reason, applied⟩ | ⟨error, applied⟩ <;>
    simp only [Stores.perform, fateEq, Fate.answer, Stores.execute, refusal] at answered
  · split at answered
    · cases Except.ok.inj answered
    · next positive =>
        exact ⟨Nat.pos_of_ne_zero positive, (Except.ok.inj (Except.ok.inj answered)).symm⟩
  · cases Except.ok.inj answered
  · cases answered

theorem CacheCoherent.answer {up : Prop} {moment : Moment} {command : Command}
    (replied : up → ¬MayRaise command → ∃ reply, (stores.perform moment command).1 = .ok reply)
    (coherent : CacheCoherent json tenantId channelId bucket stores)
    (current : TimeBucket.compute moment.time = .ok bucket)
    (reads : ReadSucceeds ⟨command, (stores.perform moment command).1⟩) :
    RecentAnswer up json stores.messages tenantId channelId bucket
      ⟨command, (stores.perform moment command).1⟩ := by
  refine ⟨replied, fun now same => ?_, fun asked limit page same => ?_,
    fun text msgs same held => ?_⟩
  · have isTime : command = .time := congrArg Performed.call same
    subst isTime
    obtain rfl := Except.ok.inj (eq_of_heq (Performed.mk.inj same).2)
    exact current
  · have isRead : command = .selectMessages tenantId channelId asked limit :=
      congrArg Performed.call same
    subst isRead
    have answered := eq_of_heq (Performed.mk.inj same).2
    rcases page with reason | page
    · rcases reads with none | ⟨rows, succeeds⟩
      · exact Or.inl ⟨none, reason, rfl⟩
      · cases answered.symm.trans succeeds
    · rcases page_of_select answered with ⟨positive, rfl⟩
      exact Or.inr ⟨positive, rfl⟩
  · have isRead : command = .get (Cache.recentKey tenantId channelId) :=
      congrArg Performed.call same
    subst isRead
    exact coherent text msgs (heldText_of_get (eq_of_heq (Performed.mk.inj same).2)) held

theorem readSucceeds_of_carried {moment : Moment} {command : Command}
    (carried : moment.fate = .carried) :
    ReadSucceeds ⟨command, (stores.perform moment command).1⟩ := by
  cases command with
  | selectMessages tid cid asked limit =>
      by_cases none : limit = 0
      · exact Or.inl none
      · refine Or.inr ⟨stores.messages.select tid cid asked limit, ?_⟩
        simp only [Stores.perform, carried, Fate.answer, Stores.execute, if_neg none]
  | _ => trivial

theorem CacheCoherent.setRedis {key : Bytes} {entry : Option Entry}
    (coherent : CacheCoherent json tenantId channelId bucket stores)
    (right : key = Cache.recentKey tenantId channelId → ∀ text msgs, heldText entry = some text →
      cachedMessages json text = some msgs →
        AreNewest stores.messages tenantId channelId bucket msgs) :
    CacheCoherent json tenantId channelId bucket (stores.setRedis key entry) := by
  intro text msgs held
  by_cases same : Cache.recentKey tenantId channelId = key
  · subst same
    simp only [Stores.setRedis, Function.update_self] at held
    exact right rfl text msgs held
  · simp only [Stores.setRedis, Function.update_of_ne same] at held
    exact coherent text msgs held

theorem coherent_of_none (none : stores.redis (Cache.recentKey tenantId channelId) = none) :
    CacheCoherent json tenantId channelId bucket stores := by
  intro text msgs held
  rw [none] at held
  cases held

/-- The same messages, and a cached list that is right. -/
structure KeepsMessages (json : Json) (tenantId channelId : Bytes) (bucket : ℕ)
    (table : MessageTable) (stores : Stores) : Prop where
  messages : stores.messages = table
  coherent : CacheCoherent json tenantId channelId bucket stores

theorem RefreshesRecent.messages {table : MessageTable} {moment : Moment} {command : Command}
    (refreshes : RefreshesRecent json table tenantId channelId bucket command) :
    (stores.execute moment command).2.messages = stores.messages := by
  cases command with
  | time | get | selectMessages | del | setex => rfl
  | _ => exact refreshes.elim

/-- A read keeps the messages, and what it caches is right. -/
theorem KeepsMessages.execute {table : MessageTable} {moment : Moment} {command : Command}
    (roundTrips : json.RoundTrips)
    (holds : KeepsMessages json tenantId channelId bucket table stores)
    (refreshes : RefreshesRecent json table tenantId channelId bucket command) :
    KeepsMessages json tenantId channelId bucket table (stores.execute moment command).2 := by
  refine ⟨refreshes.messages.trans holds.messages, ?_⟩
  cases command with
  | time | get | selectMessages => exact holds.coherent
  | del key => exact holds.coherent.setRedis fun _ text msgs none => by cases none
  | setex key text =>
      rcases refreshes with ⟨rfl, msgs, newest, rfl⟩
      apply holds.coherent.setRedis
      intro _ held other heldEq otherEq
      obtain rfl := Option.some.inj heldEq
      rw [cachedMessages_encode roundTrips] at otherEq
      obtain rfl := Option.some.inj otherEq
      exact holds.messages ▸ newest
  | _ => exact refreshes.elim

/-- The command writes no messages but the given rows, and the cached list not at all, but for
a deletion. -/
def WritesOnly (tenantId channelId : Bytes) (rows : MessageRow → Prop) : Command → Prop
  | .insertMessage row => rows row
  | .setex key _ => key ≠ Cache.recentKey tenantId channelId
  | .setNew key _ => key ≠ Cache.recentKey tenantId channelId
  | .replaceSet key _ => key ≠ Cache.recentKey tenantId channelId
  | .incr key => key ≠ Cache.recentKey tenantId channelId
  | _ => True

/-- Some of the rows have been written since, and the cached list, if it is there, is the same. -/
structure Written (tenantId channelId : Bytes) (rows : MessageRow → Prop)
    (before stores : Stores) : Prop where
  messages : ∃ written, (∀ row ∈ written, rows row) ∧
    stores.messages = before.messages.upsertAll written
  cached : stores.redis (Cache.recentKey tenantId channelId) = none ∨
    stores.redis (Cache.recentKey tenantId channelId) =
      before.redis (Cache.recentKey tenantId channelId)

section Written

variable {rows : MessageRow → Prop} {before : Stores}

theorem written_refl : Written tenantId channelId rows before before :=
  ⟨⟨[], by simp, rfl⟩, Or.inr rfl⟩

theorem Written.setRedis {key : Bytes} {entry : Option Entry}
    (written : Written tenantId channelId rows before stores)
    (spares : key = Cache.recentKey tenantId channelId → entry = none) :
    Written tenantId channelId rows before (stores.setRedis key entry) := by
  refine ⟨written.messages, ?_⟩
  by_cases same : Cache.recentKey tenantId channelId = key
  · subst same
    exact Or.inl ((Function.update_self ..).trans (spares rfl))
  · simp only [Stores.setRedis, Function.update_of_ne same]
    exact written.cached

theorem Written.execute {moment : Moment} {command : Command}
    (written : Written tenantId channelId rows before stores)
    (writes : WritesOnly tenantId channelId rows command) :
    Written tenantId channelId rows before (stores.execute moment command).2 := by
  have same : ∀ other : Stores, other.redis = stores.redis → other.messages = stores.messages →
      Written tenantId channelId rows before other := by
    intro other redis messages
    refine ⟨messages ▸ written.messages, ?_⟩
    rw [redis]
    exact written.cached
  cases command with
  | insertMessage row =>
      rcases written.messages with ⟨earlier, own, messages⟩
      refine ⟨⟨earlier ++ [row], ?_, ?_⟩, written.cached⟩
      · intro other otherMem
        rcases List.mem_append.mp otherMem with old | new
        · exact own other old
        · exact List.mem_singleton.mp new ▸ writes
      · simp only [Stores.execute, messages, KeyedTable.upsertAll, List.foldl_append]
        rfl
  | del key => exact written.setRedis fun _ => rfl
  | setex key value => exact written.setRedis fun isKey => absurd isKey writes
  | replaceSet key members => exact written.setRedis fun isKey => absurd isKey writes
  | setNew key value =>
      simp only [Stores.execute]
      split
      · exact written.setRedis fun isKey => absurd isKey writes
      · exact written
  | incr key =>
      simp only [Stores.execute]
      split
      · exact written.setRedis fun isKey => absurd isKey writes
      · exact written.setRedis fun isKey => absurd isKey writes
      · exact written
  | insertReaction tid cid mid uid emoji => cases emoji <;> exact same _ rfl rfl
  | insertMember | upsertCursor | insertUser | insertDevice =>
      simp only [Stores.execute]
      repeat' split
      all_goals exact same _ rfl rfl
  | _ => exact same _ rfl rfl

/-- The rows leave the messages of the cached list the newest ones, whichever of them are
written. -/
def Spares (json : Json) (tenantId channelId : Bytes) (bucket : ℕ) (rows : MessageRow → Prop)
    (stores : Stores) : Prop :=
  ∀ text msgs, heldText (stores.redis (Cache.recentKey tenantId channelId)) = some text →
    cachedMessages json text = some msgs → ∀ written, (∀ row ∈ written, rows row) →
      (newestMessages (stores.messages.upsertAll written) tenantId channelId bucket).take
          msgs.length =
        (newestMessages stores.messages tenantId channelId bucket).take msgs.length

theorem spares_nothing (none : ∀ row, ¬rows row) :
    Spares json tenantId channelId bucket rows stores := by
  intro text msgs _ _ written own
  obtain rfl : written = [] := List.eq_nil_iff_forall_not_mem.mpr fun row rowMem =>
    none row (own row rowMem)
  rfl

theorem CacheCoherent.written (coherent : CacheCoherent json tenantId channelId bucket before)
    (spares : Spares json tenantId channelId bucket rows before)
    (written : Written tenantId channelId rows before stores) :
    CacheCoherent json tenantId channelId bucket stores := by
  rcases written.cached with none | same
  · exact coherent_of_none none
  intro text msgs entryEq held
  rw [same] at entryEq
  rcases written.messages with ⟨rest, own, messages⟩
  rw [AreNewest, messages, spares text msgs entryEq held rest own]
  exact coherent text msgs entryEq held

end Written

end Coherence

end Mercury.Gateway
