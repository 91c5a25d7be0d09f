import Mercury.Gateway.RecentRuns

/-!
# Smaller limits read prefixes

The direct read of fewer messages is the start of the direct read of more, in whatever way
the limits fall on the two buckets. So a cached list that was read with a larger limit
answers a smaller one as the table does, but for the time at which the server received
each message, which is not cached.
-/

namespace Mercury.Gateway

open Foundations Foundations.Program Persistence

section Prefixes

variable {json : Json} {tenantId channelId : Bytes} {bucket limit : ℕ} {stores : Stores}
  {moments : ℕ → Moment} {admitted : Performed commands Raise → Prop}

/-- Every command is carried out, at a time in the bucket. -/
def CarriedIn (bucket : ℕ) (moments : ℕ → Moment) : Prop :=
  ∀ index, (moments index).fate = .carried ∧
    TimeBucket.compute (moments index).time = .ok bucket

theorem CarriedIn.drop (count : ℕ) (carried : CarriedIn bucket moments) :
    CarriedIn bucket (dropInputs count moments) :=
  fun index => carried (index + count)

/-- The command stores a list of recent messages. -/
def FillsRecent (tenantId channelId : Bytes) (taken : Performed commands Raise) : Prop :=
  ∃ text, taken.call = .setex (Cache.recentKey tenantId channelId) text

/-! ## Direct reads -/

/-- The command leaves the stores as they are. -/
def LooksUp : Command → Prop
  | .time => True
  | .selectMessages .. => True
  | _ => False

theorem readMaps_looksUp {bucketId : ℕ} :
    PerformsOnly admitted LooksUp
      (Messages.readMaps tenantId channelId bucketId limit) := by
  apply Ensures.seq (performsOnly_send trivial)
  intro page
  split <;> trivial

theorem readMapsFromScylla_looksUp :
    PerformsOnly admitted LooksUp
      (Messages.readMapsFromScylla tenantId channelId limit) := by
  apply Ensures.seq (performsOnly_send trivial)
  intro now
  apply Ensures.seq (Ensures.ofExcept.mpr trivial)
  intro nowBucket
  apply Ensures.seq readMaps_looksUp
  intro reply
  split
  · trivial
  split
  · split
    · trivial
    · apply Ensures.seq readMaps_looksUp
      intro more
      split <;> trivial
  · trivial

/-- A direct read returns the newest messages, and changes nothing. -/
theorem run_readMapsFromScylla (carried : CarriedIn bucket moments) :
    ∃ made, stores.run (Messages.readMapsFromScylla tenantId channelId limit) moments =
        ⟨made, .ok ((newestMaps stores.messages tenantId channelId bucket).take limit), stores⟩ ∧
      ∀ taken ∈ made, LooksUp taken.call := by
  -- no list is cached as far as this JSON goes
  have uncached : CacheCoherent unusedJson tenantId channelId bucket stores :=
    fun _ _ _ held => by cases held
  have answers := Ensures.and (@readMapsFromScylla_newest True unusedJson stores.messages tenantId
    channelId bucket limit) readMapsFromScylla_looksUp
  have ran := @Stores.run_ensures stores moments (List MessageMap)
    (fun moment => moment.fate = .carried ∧ TimeBucket.compute moment.time = .ok bucket)
    (fun _ => True) (fun source => source = stores) _ _ _ _ answers ?_ ?_ carried rfl
    fun _ _ => trivial
  · have looked : ∀ taken ∈ (stores.run (Messages.readMapsFromScylla tenantId channelId limit)
        moments).made, LooksUp taken.call :=
      (Ensures.of_performs readMapsFromScylla_looksUp (performs_execute _ moments stores)
        fun _ _ => trivial).1
    generalize stores.run (Messages.readMapsFromScylla tenantId channelId limit) moments = run at *
    rcases run with ⟨made, raised | maps, after⟩
    · exact absurd trivial ran.1.1
    · obtain rfl : maps = _ := ran.1.1
      obtain rfl : after = stores := ran.2
      exact ⟨made, rfl, looked⟩
  · rintro moment source command ⟨fate, now⟩ rfl _
    exact uncached.answer (fun _ => Stores.perform_replies fate) now (readSucceeds_of_carried fate)
  · rintro moment source command _ rfl ⟨-, looks⟩ _
    rcases Stores.perform_after moment source command with same | executed
    · exact same
    · rw [executed]
      cases command with
      | time => rfl
      | selectMessages => rfl
      | _ => exact looks.elim

/-! ## The cached list -/

/-- The list that `get_recent_messages` finds. -/
def heldMessages (json : Json) (tenantId channelId : Bytes) (stores : Stores) :
    Option (List Message) :=
  (heldText (stores.redis (Cache.recentKey tenantId channelId))).bind (cachedMessages json)

def getReply : Option Entry → Except Unit (Option Bytes)
  | some (.set _) => .error ()
  | entry => .ok (heldText entry)

theorem heldText_eq (entry : Option Entry) :
    heldText entry = match getReply entry with
      | .ok text => text
      | .error _ => none := by
  rcases entry with _ | (text | number | members) <;> rfl

theorem perform_get {moment : Moment} {key : Bytes} (carried : moment.fate = .carried) :
    Stores.perform moment stores (.get key) = (.ok (getReply (stores.redis key)), stores) := by
  simp only [Stores.perform, carried, Fate.answer, Fate.applies, Stores.execute, if_true]
  rcases stores.redis key with _ | (text | number | members) <;> rfl

theorem perform_setex {moment : Moment} {key text : Bytes} (carried : moment.fate = .carried) :
    Stores.perform moment stores (.setex key text) =
      (.ok (.ok ()), stores.setRedis key (some (.text text))) := by
  simp [Stores.perform, carried, Fate.answer, Fate.applies, Stores.execute]

theorem not_fillsRecent_get {key : Bytes} {answer : Except Raise (Except Unit (Option Bytes))} :
    ¬FillsRecent tenantId channelId ⟨.get key, answer⟩ := by
  rintro ⟨text, same⟩
  cases same

theorem not_fillsRecent_del {key : Bytes} {answer : Except Raise (Except Unit Unit)} :
    ¬FillsRecent tenantId channelId ⟨.del key, answer⟩ := by
  rintro ⟨text, same⟩
  cases same

theorem run_getRecentMessages (carried : CarriedIn bucket moments) :
    ∃ made after, stores.run (Cache.getRecentMessages json tenantId channelId) moments =
        ⟨made, .ok (heldMessages json tenantId channelId stores), after⟩ ∧
      after.messages = stores.messages ∧ ∀ taken ∈ made, ¬FillsRecent tenantId channelId taken := by
  have gets := @perform_get stores (moments 0) (Cache.recentKey tenantId channelId) (carried 0).1
  rw [Cache.getRecentMessages, Stores.run_send_bind _ gets, heldMessages, heldText_eq]
  rcases getReply (stores.redis (Cache.recentKey tenantId channelId)) with reason | _ | text
  · exact ⟨_, _, rfl, rfl, List.forall_mem_singleton.mpr not_fillsRecent_get⟩
  · exact ⟨_, _, rfl, rfl, List.forall_mem_singleton.mpr not_fillsRecent_get⟩
  · dsimp only [Option.bind_some]
    rcases heldEq : cachedMessages json text with _ | msgs
    · rw [cachedMessages] at heldEq
      have deletes := @Stores.perform_del stores (dropInputs 1 moments 0)
        (Cache.recentKey tenantId channelId) (carried 1).1
      rw [heldEq]
      dsimp only
      rw [Stores.run_send_bind _ deletes]
      refine ⟨_, _, rfl, rfl, ?_⟩
      intro taken takenMem
      rcases List.mem_cons.mp takenMem with rfl | later
      · exact not_fillsRecent_get
      · rcases List.mem_singleton.mp later with rfl
        exact not_fillsRecent_del
    · rw [cachedMessages] at heldEq
      rw [heldEq]
      exact ⟨_, _, rfl, rfl, List.forall_mem_singleton.mpr not_fillsRecent_get⟩

/-! ## Reads through the cache -/

/-- The maps that a read returns, where the table holds `newest` ones. -/
def servedMaps (held : Option (List Message)) (limit : ℕ) (newest : List MessageMap) :
    List MessageMap :=
  match held with
  | some cached =>
      if limit ≤ cached.length then (cached.take limit).map MessageMap.ofCached
      else newest.take limit
  | none => newest.take limit

/-- The text of the newest messages, as many as the limit. -/
def newestText (json : Json) (table : MessageTable) (tenantId channelId : Bytes)
    (bucket limit : ℕ) : Bytes :=
  json.encodeMessages (((newestMaps table tenantId channelId bucket).take limit).map
    fun found => Cache.serializeMessage found.message)

theorem run_refreshMaps (carried : CarriedIn bucket moments) :
    ∃ made after, stores.run (Messages.refreshMaps json tenantId channelId limit) moments =
        ⟨made, .ok ((newestMaps stores.messages tenantId channelId bucket).take limit), after⟩ ∧
      after.messages = stores.messages ∧
      ((∃ taken ∈ made, FillsRecent tenantId channelId taken) →
        after.redis (Cache.recentKey tenantId channelId) =
          some (.text (newestText json stores.messages tenantId channelId bucket limit))) := by
  rcases @run_readMapsFromScylla tenantId channelId bucket limit stores moments carried with
    ⟨made, reads, looked⟩
  rw [Messages.refreshMaps, Stores.run_bind _ reads]
  have readFills : ¬∃ taken ∈ made, FillsRecent tenantId channelId taken := by
    rintro ⟨taken, takenMem, text, same⟩
    have looks := looked taken takenMem
    rw [same] at looks
    exact looks
  rw [newestText]
  generalize (newestMaps stores.messages tenantId channelId bucket).take limit = maps
  rcases maps with _ | ⟨first, later⟩
  · exact ⟨_, _, rfl, rfl, fun fills => absurd (by simpa [Stores.run_pure] using fills) readFills⟩
  · let text := json.encodeMessages ((first :: later).map fun found =>
      Cache.serializeMessage found.message)
    have puts := @perform_setex stores (dropInputs made.length moments 0)
      (Cache.recentKey tenantId channelId) text (carried _).1
    have same : ((first :: later).map MessageMap.message).map Cache.serializeMessage =
        (first :: later).map fun found => Cache.serializeMessage found.message := List.map_map
    dsimp only
    rw [if_pos (List.cons_ne_nil _ _), Cache.putRecentMessages, bind_bind, same]
    rw [Stores.run_send_bind _ puts]
    refine ⟨_, _, rfl, rfl, fun _ => ?_⟩
    exact Function.update_self ..

/-- A read serves what is cached, or else the table, and fills the cache from the table. -/
theorem run_readRecentMaps (carried : CarriedIn bucket moments) :
    ∃ made after, stores.run (Messages.readRecentMaps json tenantId channelId limit) moments =
        ⟨made, .ok (servedMaps (heldMessages json tenantId channelId stores) limit
          (newestMaps stores.messages tenantId channelId bucket)), after⟩ ∧
      after.messages = stores.messages ∧
      ((∃ taken ∈ made, FillsRecent tenantId channelId taken) →
        after.redis (Cache.recentKey tenantId channelId) =
          some (.text (newestText json stores.messages tenantId channelId bucket limit))) := by
  rcases @run_getRecentMessages json tenantId channelId bucket stores moments carried with
    ⟨made, after, gets, messages, unfilled⟩
  rw [Messages.readRecentMaps, Stores.run_bind _ gets]
  rcases @run_refreshMaps json tenantId channelId bucket limit after
    (dropInputs made.length moments) (carried.drop _) with ⟨more, last, refreshes, kept, fills⟩
  rw [messages] at refreshes kept fills
  have fillsLater : (∃ taken ∈ made ++ more, FillsRecent tenantId channelId taken) →
      last.redis (Cache.recentKey tenantId channelId) =
        some (.text (newestText json stores.messages tenantId channelId bucket limit)) := by
    rintro ⟨taken, takenMem, filling⟩
    rcases List.mem_append.mp takenMem with early | late
    · exact absurd filling (unfilled taken early)
    · exact fills ⟨taken, late, filling⟩
  rcases heldMessages json tenantId channelId stores with _ | cached
  · dsimp only
    rw [refreshes]
    exact ⟨_, _, rfl, kept, fillsLater⟩
  · dsimp only
    rw [servedMaps]
    split
    · refine ⟨_, _, rfl, messages, ?_⟩
      rintro ⟨taken, takenMem, filling⟩
      exact absurd filling (unfilled taken (by simpa [Stores.run_pure] using takenMem))
    · rw [refreshes]
      exact ⟨_, _, rfl, kept, fillsLater⟩

/-- The list that a read with a larger limit cached, and what it serves. -/
theorem heldMessages_of_filled (roundTrips : json.RoundTrips)
    (cached : stores.redis (Cache.recentKey tenantId channelId) =
      some (.text (newestText json stores.messages tenantId channelId bucket limit))) :
    heldMessages json tenantId channelId stores =
      some (((newestMaps stores.messages tenantId channelId bucket).take limit).map
        MessageMap.message) := by
  have text : newestText json stores.messages tenantId channelId bucket limit =
      json.encodeMessages ((((newestMaps stores.messages tenantId channelId bucket).take limit).map
        MessageMap.message).map Cache.serializeMessage) := by
    rw [List.map_map]
    rfl
  rw [heldMessages, cached, text]
  exact cachedMessages_encode roundTrips _

theorem servedMaps_prefix {newest : List MessageMap} {larger : ℕ} (smaller : limit ≤ larger) :
    servedMaps (some ((newest.take larger).map MessageMap.message)) limit newest =
      if limit ≤ ((newest.take larger).map MessageMap.message).length then
        (newest.take limit).map fun found => MessageMap.ofCached found.message
      else newest.take limit := by
  have shown : (((newest.take larger).map MessageMap.message).take limit).map MessageMap.ofCached =
      (newest.take limit).map fun found => MessageMap.ofCached found.message := by
    rw [← List.map_take, List.take_take, Nat.min_eq_left smaller, List.map_map]
    rfl
  rw [servedMaps, shown]

/-- The outcomes of both reads on a list that a larger read has cached. -/
theorem read_of_filled {larger : ℕ} {fast slow : ℕ → Moment} (roundTrips : json.RoundTrips)
    (smaller : limit ≤ larger)
    (cached : stores.redis (Cache.recentKey tenantId channelId) =
      some (.text (newestText json stores.messages tenantId channelId bucket larger)))
    (fastCarried : CarriedIn bucket fast) (slowCarried : CarriedIn bucket slow) :
    ∃ cached maps, heldMessages json tenantId channelId stores = some cached ∧
      (stores.run (Messages.readMapsFromScylla tenantId channelId limit) slow).outcome =
        .ok maps ∧
      (stores.run (Messages.readRecentMaps json tenantId channelId limit) fast).outcome =
        .ok (if limit ≤ cached.length then
          maps.map fun found => MessageMap.ofCached found.message else maps) := by
  have held := heldMessages_of_filled roundTrips cached
  rcases @run_readMapsFromScylla tenantId channelId bucket limit stores slow slowCarried with
    ⟨_, slowReads, -⟩
  rcases @run_readRecentMaps json tenantId channelId bucket limit stores fast fastCarried with
    ⟨_, _, fastReads, -, -⟩
  refine ⟨_, _, held, congrArg Execution.outcome slowReads,
    (congrArg Execution.outcome fastReads).trans ?_⟩
  rw [held, servedMaps_prefix smaller]

/-- A smaller limit reads the start of what a larger one does, from the table; and from the list
that a larger one cached, with no time of receipt, as long as nothing was written since. -/
theorem smaller_reads_are_prefixes {larger : ℕ} (roundTrips : json.RoundTrips)
    (smaller : limit ≤ larger) (carried : CarriedIn bucket moments) :
    (∀ others, CarriedIn bucket others → ∃ maps,
      (stores.run (Messages.readMapsFromScylla tenantId channelId larger) moments).outcome =
          .ok maps ∧
        (stores.run (Messages.readMapsFromScylla tenantId channelId limit) others).outcome =
          .ok (maps.take limit)) ∧
    ((∃ taken ∈ (stores.run (Messages.readRecentMaps json tenantId channelId larger) moments).made,
        FillsRecent tenantId channelId taken) →
      ∀ after : Stores,
        after.messages =
          (stores.run (Messages.readRecentMaps json tenantId channelId larger)
            moments).world.messages →
        after.redis (Cache.recentKey tenantId channelId) =
          (stores.run (Messages.readRecentMaps json tenantId channelId larger)
            moments).world.redis (Cache.recentKey tenantId channelId) →
        ∀ fast slow, CarriedIn bucket fast → CarriedIn bucket slow → ∃ cached maps,
          heldMessages json tenantId channelId after = some cached ∧
          (after.run (Messages.readMapsFromScylla tenantId channelId limit) slow).outcome =
            .ok maps ∧
          (after.run (Messages.readRecentMaps json tenantId channelId limit) fast).outcome =
            .ok (if limit ≤ cached.length then
              maps.map fun found => MessageMap.ofCached found.message else maps)) := by
  constructor
  · intro others othersCarried
    rcases @run_readMapsFromScylla tenantId channelId bucket larger stores moments carried with
      ⟨_, readsLarger, -⟩
    rcases @run_readMapsFromScylla tenantId channelId bucket limit stores others othersCarried with
      ⟨_, readsSmaller, -⟩
    refine ⟨_, congrArg Execution.outcome readsLarger,
      (congrArg Execution.outcome readsSmaller).trans ?_⟩
    rw [List.take_take, Nat.min_eq_left smaller]
  · rcases @run_readRecentMaps json tenantId channelId bucket larger stores moments carried with
      ⟨made, world, reads, kept, fills⟩
    rw [reads]
    intro filled after messages redis fast slow fastCarried slowCarried
    have cached := redis.trans (fills filled)
    rw [← kept, ← messages] at cached
    exact read_of_filled roundTrips smaller cached fastCarried slowCarried

end Prefixes

/-! ## Channels with a few messages -/

theorem carriedIn_carriedOut : CarriedIn 0 fun _ => carriedOut := by
  intro index
  have now : TimeBucket.compute carriedOut.time = .ok 0 := rfl
  exact ⟨rfl, now⟩

theorem oldStores_filled :
    ∃ taken ∈ (oldStores.run (Messages.readRecentMaps JsonText.json (Id16.replicate 1).val
        (Id16.replicate 7).val 2) fun _ => carriedOut).made,
      FillsRecent (Id16.replicate 1).val (Id16.replicate 7).val taken :=
  ⟨_, .tail _ (.tail _ (.tail _ (.head _))), _, rfl⟩

/-- The message under another id. -/
def rowNumbered (number : Byte) : MessageRow :=
  { oldRow with message := { oldRow.message with messageId := (Id16.replicate number).val } }

def threeStores : Stores :=
  { onlyCursors .empty with
    messages := { rows := [1, 2, 3].map rowNumbered, unique := by decide } }

theorem threeStores_filled :
    ∃ taken ∈ (threeStores.run (Messages.readRecentMaps JsonText.json (Id16.replicate 1).val
        (Id16.replicate 7).val 3) fun _ => carriedOut).made,
      FillsRecent (Id16.replicate 1).val (Id16.replicate 7).val taken :=
  ⟨_, .tail _ (.tail _ (.tail _ (.head _))), _, rfl⟩

/-- The stores once three messages were asked for. -/
def filledThree : Stores :=
  (threeStores.run (Messages.readRecentMaps JsonText.json (Id16.replicate 1).val
    (Id16.replicate 7).val 3) fun _ => carriedOut).world

/-- Two of three messages, from the table and from the list of all three. -/
theorem smaller_read_of_three :
    (∃ maps, maps.length = 3 ∧
      (threeStores.run (Messages.readMapsFromScylla (Id16.replicate 1).val
        (Id16.replicate 7).val 3) fun _ => carriedOut).outcome = .ok maps ∧
      (threeStores.run (Messages.readMapsFromScylla (Id16.replicate 1).val
        (Id16.replicate 7).val 2) fun _ => carriedOut).outcome = .ok (maps.take 2)) ∧
    ∃ cached maps, cached.length = 3 ∧
      heldMessages JsonText.json (Id16.replicate 1).val (Id16.replicate 7).val
        filledThree = some cached ∧
      (filledThree.run (Messages.readMapsFromScylla (Id16.replicate 1).val
        (Id16.replicate 7).val 2) fun _ => carriedOut).outcome = .ok maps ∧
      (filledThree.run (Messages.readRecentMaps JsonText.json (Id16.replicate 1).val
        (Id16.replicate 7).val 2) fun _ => carriedOut).outcome =
          .ok (maps.map fun found => MessageMap.ofCached found.message) := by
  rcases @smaller_reads_are_prefixes JsonText.json (Id16.replicate 1).val (Id16.replicate 7).val 0
    2 threeStores (fun _ => carriedOut) 3 JsonText.json_roundTrips (by decide)
    carriedIn_carriedOut with ⟨direct, fromCache⟩
  rcases direct _ carriedIn_carriedOut with ⟨maps, larger, smaller⟩
  rcases fromCache threeStores_filled _ rfl rfl _ _ carriedIn_carriedOut carriedIn_carriedOut with
    ⟨cached, taken, held, slow, fast⟩
  have found : (threeStores.run (Messages.readMapsFromScylla (Id16.replicate 1).val
      (Id16.replicate 7).val 3) fun _ => carriedOut).outcome.toOption.map List.length = some 3 := by
    decide +kernel
  have kept : (heldMessages JsonText.json (Id16.replicate 1).val (Id16.replicate 7).val
      filledThree).map List.length = some 3 := by
    decide +kernel
  rw [larger] at found
  change heldMessages JsonText.json (Id16.replicate 1).val (Id16.replicate 7).val
      filledThree = some cached at held
  rw [held] at kept
  have length : cached.length = 3 := Option.some.inj kept
  rw [if_pos (by omega)] at fast
  exact ⟨⟨maps, Option.some.inj found, larger, smaller⟩, cached, taken, length, held, slow, fast⟩

/-- The message is read without the time at which the server received it. -/
theorem fast_reads_lose_times :
    ¬∀ (json : Json) (tenantId channelId : Bytes) (bucket limit larger : ℕ) (stores : Stores)
        (moments : ℕ → Moment), json.RoundTrips → 1 ≤ limit → limit ≤ larger →
      CarriedIn bucket moments →
      (∃ taken ∈ (stores.run (Messages.readRecentMaps json tenantId channelId larger)
        moments).made, FillsRecent tenantId channelId taken) →
      let after := (stores.run (Messages.readRecentMaps json tenantId channelId larger)
        moments).world
      (after.run (Messages.readRecentMaps json tenantId channelId limit) moments).outcome =
        (after.run (Messages.readMapsFromScylla tenantId channelId limit) moments).outcome := by
  intro sameMaps
  have same := sameMaps _ _ _ _ 1 _ _ _ JsonText.json_roundTrips (by decide) (by decide)
    carriedIn_carriedOut oldStores_filled
  rcases @run_readRecentMaps JsonText.json (Id16.replicate 1).val (Id16.replicate 7).val 0 2
    oldStores _ carriedIn_carriedOut with ⟨made, after, reads, kept, fills⟩
  have filled := oldStores_filled
  rw [reads] at filled same
  have cached := fills filled
  rw [← kept] at cached
  have held := heldMessages_of_filled JsonText.json_roundTrips cached
  have newest : newestMaps oldStores.messages (Id16.replicate 1).val (Id16.replicate 7).val 0 =
      [MessageMap.ofRow oldRow] := by
    decide +kernel
  rcases @run_readMapsFromScylla (Id16.replicate 1).val (Id16.replicate 7).val 0 1 after _
    carriedIn_carriedOut with ⟨_, slow, -⟩
  rcases @run_readRecentMaps JsonText.json (Id16.replicate 1).val (Id16.replicate 7).val 0 1 after _
    carriedIn_carriedOut with ⟨_, _, fast, -, -⟩
  dsimp only at same
  rw [slow, fast, held, kept, newest] at same
  cases same

end Mercury.Gateway
