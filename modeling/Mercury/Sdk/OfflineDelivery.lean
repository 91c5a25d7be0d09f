import Mercury.Gateway.PushedBatches
import Mercury.Sdk.PullCompleteness
import Mercury.Sdk.QueueRuns

/-!
# What becomes of a message that is sent offline

`Channel.send` while the transport is disconnected, and a later cycle of the
channel that pushes the queued entry. The entry has the content of the message
under `content`, and the push reads `encrypted_content`: what arrives is a row
with the id of the message and no content. So the message is on the server only
if another row or another entry carries it (`delivered_iff_elsewhere`).
-/

namespace Mercury.Sdk

open Gateway Foundations Foundations.Program Persistence

/-! ## Encryption -/

/-- AES-GCM under one key, with its tag of 16 bytes; opening fails where the tag does not
match. -/
structure Aead where
  sealed : Bytes → Bytes → Bytes
  opened : Bytes → Bytes → Option Bytes
  length_sealed : ∀ iv plaintext, (sealed iv plaintext).length = plaintext.length + 16
  opened_sealed : ∀ iv plaintext, opened iv (sealed iv plaintext) = some plaintext

namespace MlsClient

def ivLen : ℕ := 12

/-- `encrypt` under the key of a channel; `iv` is random. -/
def encrypt (aead : Aead) (iv plaintext : Bytes) : Bytes :=
  iv ++ aead.sealed iv plaintext

/-- `decrypt` under the key of a channel, which throws on what is too short. -/
def decrypt (aead : Aead) (ciphertext : Bytes) : Option Bytes :=
  if ciphertext.length < ivLen + 16 then none
  else aead.opened (ciphertext.take ivLen) (ciphertext.drop ivLen)

theorem decrypt_encrypt (aead : Aead) {iv : Bytes} (ivLength : iv.length = ivLen)
    (plaintext : Bytes) : decrypt aead (encrypt aead iv plaintext) = some plaintext := by
  have long : ¬(encrypt aead iv plaintext).length < ivLen + 16 := by
    simp only [encrypt, List.length_append, aead.length_sealed, ivLength]
    omega
  rw [decrypt, if_neg long, encrypt, List.take_left' ivLength, List.drop_left' ivLength,
    aead.opened_sealed]

@[simp]
theorem decrypt_nil (aead : Aead) : decrypt aead [] = none :=
  if_pos (by decide)

end MlsClient

/-! ## The queue of a device -/

def UsesQueue : Device.Call → Prop
  | .queueOffline .. | .drain | .ack _ => True
  | _ => False

/-- What a call of the SDK does to the queue. A `queueOffline` that is rejected may have
evicted an entry. -/
inductive QueueStep (store : QueueStore Record) :
    Performed device Thrown → QueueStore Record → Prop where
  | queued {channelId event : String} {payload : Record} {now : ℕ} :
      QueueStep store ⟨.queueOffline channelId event payload, .ok ()⟩
        (OfflineQueue.enqueue store channelId event payload now)
  | evicted {channelId event : String} {payload : Record} {thrown : Thrown}
      {oldest : QueuedMessage Record} {rest : List (QueuedMessage Record)}
      (evicts : OfflineQueue.evicts store = oldest :: rest) :
      QueueStep store ⟨.queueOffline channelId event payload, .error thrown⟩
        (store.clearQueue oldest.id)
  | drained : QueueStep store ⟨.drain, .ok (OfflineQueue.drain store)⟩ store
  | acked {upToId : ℕ} :
      QueueStep store ⟨.ack upToId, .ok ()⟩ (OfflineQueue.ack store upToId)
  | rejected {asked : Device.Call} {thrown : Thrown} :
      QueueStep store ⟨asked, .error thrown⟩ store
  | other {asked : Device.Call} {answer : Device.Answer asked} (elsewhere : ¬UsesQueue asked) :
      QueueStep store ⟨asked, .ok answer⟩ store

/-- Whatever entry of the store has the key of `entry` is `entry`. -/
structure QueueStore.Knows (store : QueueStore Record) (entry : QueuedMessage Record) :
    Prop where
  generated : entry.id < store.nextId
  only : ∀ other ∈ store.entries, other.id = entry.id → other = entry

theorem QueueStore.Knows.clearQueue {store : QueueStore Record} {entry : QueuedMessage Record}
    (knows : store.Knows entry) (upToId : ℕ) : (store.clearQueue upToId).Knows entry where
  generated := knows.generated
  only other otherMem := knows.only other (mem_clearQueue.mp otherMem).1

theorem QueueStore.Knows.step {store after : QueueStore Record} {entry : QueuedMessage Record}
    {taken : Performed device Thrown} (knows : store.Knows entry)
    (step : QueueStep store taken after) : after.Knows entry := by
  cases step with
  | queued =>
      refine ⟨?_, fun other otherMem sameId => ?_⟩
      · rw [OfflineQueue.nextId_enqueue]
        exact Nat.lt_succ_of_lt knows.generated
      · rcases OfflineQueue.mem_enqueue.mp otherMem with ⟨held, -⟩ | rfl
        · exact knows.only other held sameId
        · have fresh := knows.generated
          simp only [QueueStore.newEntry] at sameId
          omega
  | evicted => exact knows.clearQueue _
  | drained => exact knows
  | acked => exact knows.clearQueue _
  | rejected => exact knows
  | other => exact knows

/-- A new entry is known by its key. -/
theorem QueueStore.knows_newEntry (store : QueueStore Record) (channelId event : String)
    (payload : Record) (now : ℕ) :
    (OfflineQueue.enqueue store channelId event payload now).Knows
      (store.newEntry channelId event payload now) where
  generated := by
    rw [OfflineQueue.nextId_enqueue]
    exact Nat.lt_succ_self _
  only other otherMem sameId := by
    rcases OfflineQueue.mem_enqueue.mp otherMem with ⟨held, -⟩ | same
    · have fresh := store.generated other held
      simp only [QueueStore.newEntry] at sameId
      omega
    · exact same

/-! ## The calls of a send and of a cycle -/

def reading (now : ℕ) : Performed device Thrown :=
  ⟨.now, .ok now⟩

/-- The readings of the clock, in order. -/
def readings (calls : List (Performed device Thrown)) : List ℕ :=
  calls.filterMap fun taken =>
    match taken with
    | ⟨.now, .ok now⟩ => some now
    | _ => none

theorem readings_append (first later : List (Performed device Thrown)) :
    readings (first ++ later) = readings first ++ readings later :=
  List.filterMap_append

@[simp]
theorem readings_map_reading (clock : List ℕ) : readings (clock.map reading) = clock := by
  induction clock with
  | nil => rfl
  | cons now later ih => exact congrArg (now :: ·) ih

/-- The envelopes that are pushed for `entries`, each encoded at its reading of the clock. -/
def Channel.Encodes (channel : Channel) (entries : List (QueuedMessage Record))
    (clock : List ℕ) (envelopes : List Envelope) : Prop :=
  List.Forall₂ (fun (queued : QueuedMessage Record × ℕ) envelope =>
    channel.deltaEnvelope queued.1.payload queued.2 = some envelope) (entries.zip clock) envelopes

/-- The calls of the pull phase. -/
def Pulls : Device.Call → Prop
  | .push _ event _ => event = Event.syncRequest
  | .writeMessage _ => True
  | _ => False

section Calls

variable {codec : Codec} {channel : Channel} {channelId : String}
  {calls : List (Performed device Thrown)}

theorem encodeDeltas_performs {entries : List (QueuedMessage Record)} {encoded : List Bytes}
    (performs : (channel.encodeDeltas codec (entries.map QueuedMessage.payload)).Performs calls
      (.ok encoded)) :
    ∃ clock envelopes, calls = clock.map reading ∧ clock.length = entries.length ∧
      channel.Encodes entries clock envelopes ∧
        encoded = envelopes.map codec.encodeEnvelope := by
  induction entries generalizing calls encoded with
  | nil =>
      rcases performs with ⟨rfl, same⟩
      cases same
      exact ⟨[], [], rfl, rfl, List.Forall₂.nil, rfl⟩
  | cons entry later ih =>
      rcases Performs.of_bind performs with ⟨first, rest, now, rfl, reads, encodes⟩
      rcases Performs.of_bind encodes with ⟨thrown, rest, envelope, rfl, encodesFirst, encodes⟩
      rcases Performs.of_bind encodes with ⟨others, ending, rest, rfl, encodesLater, ends⟩
      rcases orThrow_performs encodesFirst with ⟨rfl, envelopeEq⟩
      rcases ends with ⟨rfl, same⟩
      cases same
      rcases ih encodesLater with ⟨clock, envelopes, rfl, length, encodesAll, rfl⟩
      refine ⟨now :: clock, envelope :: envelopes, ?_, by simp [length],
        List.Forall₂.cons envelopeEq encodesAll, rfl⟩
      rw [Performs.of_perform reads]
      simp [reading]

/-- The push phase drains the queue once, and then pushes at most once. -/
theorem push_performs {accepted : ℕ}
    (performs : (SyncEngine.push codec channel channelId).Performs calls (.ok accepted)) :
    ∃ pending, calls = [⟨.drain, .ok pending⟩] ∨
      ∃ clock envelopes data last, calls = ⟨.drain, .ok pending⟩ :: clock.map reading ++
          [⟨.push channel.topic Event.syncPush
              (packEnvelopes (envelopes.map codec.encodeEnvelope)), .ok data⟩,
            ⟨.ack last, .ok ()⟩] ∧
        clock.length = (pending.filter fun entry => entry.channelId = channelId).length ∧
        channel.Encodes (pending.filter fun entry => entry.channelId = channelId) clock
          envelopes := by
  rcases Performs.of_bind performs with ⟨draining, rest, pending, rfl, drains, continues⟩
  rw [Performs.of_perform drains]
  refine ⟨pending, ?_⟩
  dsimp only at continues
  split at continues
  · rw [continues.1]
    exact Or.inl rfl
  · next last _ =>
      rcases Performs.of_bind continues with ⟨pushing, rest, count, rfl, pushes, acks⟩
      rcases Performs.of_bind acks with ⟨acking, ending, _, rfl, acks, ends⟩
      rcases Performs.of_bind pushes with ⟨encoding, rest, encoded, rfl, encodes, pushes⟩
      rcases Performs.of_bind pushes with ⟨sending, counting, data, rfl, sends, counts⟩
      rcases encodeDeltas_performs encodes with ⟨clock, envelopes, rfl, length, encodesAll, rfl⟩
      refine Or.inr ⟨clock, envelopes, data, last.id, ?_, length, encodesAll⟩
      rw [Performs.of_perform sends, Performs.of_perform acks, ends.1, (orThrow_performs counts).1]
      simp

theorem pull_pulls {rounds since : ℕ} :
    (SyncEngine.pull codec channel channelId rounds since).Ensures (fun _ => True) Pulls
      fun _ => True := by
  have stores : ∀ deltas, (SyncEngine.store channelId deltas).Ensures (fun _ => True) Pulls
      fun _ => True := by
    intro deltas
    induction deltas with
    | nil => trivial
    | cons delta later ih => exact Ensures.seq (Ensures.ask trivial) fun _ => ih
  induction rounds generalizing since with
  | zero => trivial
  | succ rounds ih =>
      refine Ensures.seq ?_ fun result => Ensures.seq (stores _) fun _ => ?_
      · refine Ensures.seq (Ensures.ask rfl) fun reply => ?_
        rcases Channel.readSyncReply codec reply with _ | result <;> trivial
      · split
        · exact Ensures.seq ih fun later => trivial
        · trivial

/-- Outside its push phase, a cycle neither drains nor pushes, and does not read the clock. -/
theorem syncChannel_calls {rounds : ℕ} {count : SyncCount}
    (performs : (SyncEngine.syncChannel codec channel channelId rounds).Performs calls
      (.ok count)) :
    ∃ before pushing accepted,
      calls = before ++ pushing ++ [⟨.evictOldMessages channelId, .ok ()⟩] ∧
      (∀ taken ∈ before, Pulls taken.call ∨ taken.call = .getSyncState channelId ∨
        ∃ wall, taken.call = .setSyncState channelId wall) ∧
      (SyncEngine.push codec channel channelId).Performs pushing (.ok accepted) := by
  rcases syncChannel_performs performs with ⟨cursor, pulling, setting, pushing, outcome, accepted,
    rfl, pulls, settingEq, pushes⟩
  refine ⟨⟨.getSyncState channelId, .ok cursor⟩ :: pulling ++ setting, pushing, accepted, rfl, ?_,
    pushes⟩
  intro taken takenMem
  simp only [List.cons_append, List.mem_cons, List.mem_append] at takenMem
  rcases takenMem with rfl | pulled | set
  · exact Or.inr (Or.inl rfl)
  · exact Or.inl ((pull_pulls.of_performs pulls fun _ _ => trivial).1 taken pulled)
  · rw [settingEq] at set
    split at set
    · rw [List.mem_singleton] at set
      subst set
      exact Or.inr (Or.inr ⟨_, rfl⟩)
    · cases set

/-- A cycle encodes what it pushes from what it drains. -/
theorem syncChannel_pushes {rounds : ℕ} {count : SyncCount}
    {pending : List (QueuedMessage Record)} {batch data : Bytes}
    (performs : (SyncEngine.syncChannel codec channel channelId rounds).Performs calls
      (.ok count))
    (drains : ⟨.drain, .ok pending⟩ ∈ calls)
    (pushes : ⟨.push channel.topic Event.syncPush batch, .ok data⟩ ∈ calls) :
    (readings calls).length =
        (pending.filter fun entry => entry.channelId = channelId).length ∧
      ∃ envelopes, batch = packEnvelopes (envelopes.map codec.encodeEnvelope) ∧
        channel.Encodes (pending.filter fun entry => entry.channelId = channelId)
          (readings calls) envelopes := by
  rcases syncChannel_calls performs with ⟨before, pushing, accepted, rfl, quiet, performs⟩
  have within : ∀ taken : Performed device Thrown, taken.call = .drain ∨
      (∃ payload, taken.call = .push channel.topic Event.syncPush payload) →
        taken ∈ before ++ pushing ++ [⟨.evictOldMessages channelId, .ok ()⟩] →
          taken ∈ pushing := by
    intro taken isPush takenMem
    simp only [List.mem_append, List.mem_singleton] at takenMem
    rcases takenMem with (pulled | pushed) | rfl
    · have calm := quiet taken pulled
      rcases isPush with same | ⟨payload, same⟩ <;> rw [same] at calm <;>
        simp [Pulls, Event.syncPush, Event.syncRequest] at calm
    · exact pushed
    · simp at isPush
  have noReading : readings before = [] := by
    apply List.filterMap_eq_nil_iff.mpr
    intro taken takenMem
    have calm := quiet taken takenMem
    rcases taken with ⟨asked, answer⟩
    cases asked with
    | now => simp [Pulls] at calm
    | _ => rfl
  have readingsEq : readings (before ++ pushing ++ [⟨.evictOldMessages channelId, .ok ()⟩]) =
      readings pushing := by
    rw [readings_append, readings_append, noReading, List.nil_append]
    exact List.append_nil _
  have drained := within _ (Or.inl rfl) drains
  have pushed := within _ (Or.inr ⟨batch, rfl⟩) pushes
  rw [readingsEq]
  rcases push_performs performs with ⟨found, rfl | ⟨clock, envelopes, reply, last, rfl, length,
    encodes⟩⟩
  · simp at pushed
  · have clockReadings : readings (⟨.drain, .ok found⟩ :: clock.map reading ++
        [⟨.push channel.topic Event.syncPush
            (packEnvelopes (envelopes.map codec.encodeEnvelope)), .ok reply⟩,
          ⟨.ack last, .ok ()⟩]) = clock := by
      rw [readings_append]
      change readings (clock.map reading) ++ [] = clock
      rw [readings_map_reading, List.append_nil]
    rw [clockReadings]
    have sameDrain : pending = found := by
      simpa [reading] using drained
    have sameBatch : batch = packEnvelopes (envelopes.map codec.encodeEnvelope) ∧
        data = reply := by
      simpa [reading] using pushed
    subst sameDrain
    exact ⟨length, envelopes, sameBatch.1, encodes⟩

/-- What a send puts into the queue. -/
theorem send_queues {content msgId : Bytes} {contentType : ℕ} {queueId event : String}
    {payload : Record}
    (performs : (channel.send codec content contentType).Performs calls (.ok msgId))
    (queues : ⟨.queueOffline queueId event payload, .ok ()⟩ ∈ calls) :
    queueId = channel.channelId ∧
      ∃ random now, msgId = bytesToHex random ∧
        payload = Channel.offlinePayload content contentType msgId now := by
  have online : ∀ made, (channel.sendOnline codec content).Performs made (.ok msgId) →
      ⟨.queueOffline queueId event payload, .ok ()⟩ ∉ made := by
    intro made sends queued
    have ensured : (channel.sendOnline codec content).Ensures (fun _ => True)
        (fun asked : Device.Call => asked ≠ .queueOffline queueId event payload)
        fun _ => True := by
      apply Ensures.seq (Ensures.ask (by simp))
      intro ts
      apply Ensures.seq (Ensures.ask (by simp))
      intro random
      apply Ensures.seq (Ensures.ask (by simp))
      intro encrypted
      exact Ensures.seq (Ensures.ask (by simp)) fun reply => trivial
    exact (ensured.of_performs sends fun _ _ => trivial).1 _ queued rfl
  unfold Channel.send at performs
  split at performs
  · split at performs
    · rcases Performs.of_bind performs with ⟨asking, rest, connected, rfl, asks, sends⟩
      rw [Performs.of_perform asks, List.singleton_append, List.mem_cons] at queues
      have later := queues.resolve_left (by simp)
      split at sends
      · exact absurd later (online _ sends)
      · rcases Performs.of_bind sends with ⟨first, rest, random, rfl, randoms, continues⟩
        rcases Performs.of_bind continues with ⟨second, rest, now, rfl, reads, continues⟩
        rcases Performs.of_bind continues with ⟨third, ending, _, rfl, queuing, ends⟩
        rcases ends with ⟨rfl, same⟩
        cases same
        rw [Performs.of_perform randoms, Performs.of_perform reads,
          Performs.of_perform queuing] at later
        simp only [List.singleton_append, List.append_nil, List.mem_cons, List.not_mem_nil,
          or_false] at later
        rcases later with same | same | same
        · cases same
        · cases same
        · simp only [Performed.mk.injEq, Device.Call.queueOffline.injEq] at same
          exact ⟨same.1.1, random, now, rfl, same.1.2.2⟩
    · exact absurd queues (online _ performs)
  · cases performs.2

end Calls

/-! ## A send and the cycle that pushes it -/

/-- The gateway reads the envelope that the SDK writes. -/
structure Codec.Writes (codec : Codec) (native : Native) (envelope : Envelope) : Prop where
  size : (codec.encodeEnvelope envelope).length < 256 ^ 4
  decoded : native.envelopeDecode (codec.encodeEnvelope envelope) = .ok (.ok envelope)

/-- The key of the row of a pushed envelope. -/
def envelopeKey (tenantId channelId : Bytes) (envelope : Envelope) : MessageKey where
  tenantId := tenantId
  channelId := channelId
  bucketId := TimeBucket.ofMs envelope.timestamp
  messageId := envelope.messageId

/-- A `send` while the transport is disconnected, and a later cycle of the channel that
resolves and has pushed the queued entry. -/
structure OfflineDelivery (codec : Codec) (native : Native) (channel : Channel)
    (tenantId : Id16) (channelId content : Bytes) (contentType : ℕ) where
  sendCalls : List (Performed device Thrown)
  msgId : Bytes
  sends : (channel.send codec content contentType).Performs sendCalls (.ok msgId)
  disconnected : ⟨.isConnected, .ok false⟩ ∈ sendCalls
  /-- The queue when the message comes. -/
  prior : QueueStore Record
  event : String
  payload : Record
  queuedAt : ℕ
  queues : ⟨.queueOffline channel.channelId event payload, .ok ()⟩ ∈ sendCalls
  /-- All calls from then on, of any channel, until the cycle drains the queue. -/
  meanwhile : List (Performed device Thrown)
  store : QueueStore Record
  follows : Run QueueStep (OfflineQueue.enqueue prior channel.channelId event payload queuedAt)
    meanwhile store
  rounds : ℕ
  count : SyncCount
  cycleCalls : List (Performed device Thrown)
  cycle : (SyncEngine.syncChannel codec channel channel.channelId rounds).Performs cycleCalls
    (.ok count)
  drains : ⟨.drain, .ok (OfflineQueue.drain store)⟩ ∈ cycleCalls
  /-- The entry keeps the key that it was queued under. -/
  drainsEntry : ∃ entry ∈ OfflineQueue.drain store, entry.id = prior.nextId
  /-- The message store when the batch arrives. -/
  table : MessageTable
  batch : Bytes
  reply : Bytes
  made : List (Performed node Raise)
  pushes : ⟨.push channel.topic Event.syncPush batch, .ok reply⟩ ∈ cycleCalls
  replied : Replied native tenantId channelId channel.topic Event.syncPush batch made reply
  carriedOut : ∀ row answer, ⟨.inl (.insertMessage row), answer⟩ ∈ made → answer = .ok (.ok ())

namespace OfflineDelivery

variable {codec : Codec} {native : Native} {channel : Channel} {tenantId : Id16}
  {channelId content : Bytes} {contentType : ℕ} {aead : Aead}
  (delivery : OfflineDelivery codec native channel tenantId channelId content contentType)

/-- The entries that the cycle pushes. -/
def entries : List (QueuedMessage Record) :=
  channelDeltas delivery.store channel.channelId

/-- The envelopes that the cycle pushes. -/
def Encodes (envelopes : List Envelope) : Prop :=
  channel.Encodes delivery.entries (readings delivery.cycleCalls) envelopes

/-- Cap'n Proto gives back what is pushed. -/
def RoundTrips : Prop :=
  ∀ envelopes, delivery.Encodes envelopes → ∀ envelope ∈ envelopes, codec.Writes native envelope

/-- What the id that `send` returned and the content of the message look like in a row. -/
def Carries (aead : Aead) (messageId encryptedContent : Bytes) : Prop :=
  bytesToHex messageId = delivery.msgId ∧
    MlsClient.decrypt aead encryptedContent = some content

/-- The message is in the store after the cycle. -/
def Delivered (aead : Aead) : Prop :=
  ∃ row ∈ tableAfter delivery.table delivery.made,
    delivery.Carries aead row.message.messageId row.message.encryptedContent

/-- The message was in the store before and is not overwritten, or another one of the pushed
entries carries it, and none after that overwrites it. -/
def Elsewhere (aead : Aead) : Prop :=
  ∃ envelopes, delivery.Encodes envelopes ∧
    ((∃ row ∈ delivery.table,
        delivery.Carries aead row.message.messageId row.message.encryptedContent ∧
          ∀ envelope ∈ envelopes, envelopeKey tenantId.val channelId envelope ≠ row.key) ∨
      ∃ earlier other envelope later,
        delivery.entries.zip envelopes = earlier ++ (other, envelope) :: later ∧
          other.id ≠ delivery.prior.nextId ∧
            delivery.Carries aead envelope.messageId envelope.payload ∧
              ∀ next ∈ later, envelopeKey tenantId.val channelId next.2 ≠
                envelopeKey tenantId.val channelId envelope)

end OfflineDelivery

/-- The queued payload has no encrypted content. -/
theorem payload_of_offlinePayload {channel : Channel} {content msgId : Bytes}
    {contentType sentAt now : ℕ} {envelope : Envelope}
    (encodes : channel.deltaEnvelope
      (Channel.offlinePayload content contentType msgId sentAt) now = some envelope) :
    envelope.payload = [] := by
  cases encodes
  rfl

/-- An entry is pushed as an envelope of its own payload. -/
theorem Channel.Encodes.of_mem {channel : Channel} {entries : List (QueuedMessage Record)}
    {clock : List ℕ} {envelopes : List Envelope} (encodes : channel.Encodes entries clock envelopes)
    {entry : QueuedMessage Record} {envelope : Envelope}
    (pairMem : (entry, envelope) ∈ entries.zip envelopes) :
    ∃ now, channel.deltaEnvelope entry.payload now = some envelope := by
  induction entries generalizing clock envelopes with
  | nil => simp at pairMem
  | cons first later ih =>
      rcases clock with _ | ⟨now, clock⟩
      · cases encodes
        simp at pairMem
      · rcases encodes with _ | ⟨isFirst, encodesLater⟩
        rw [List.zip_cons_cons, List.mem_cons] at pairMem
        rcases pairMem with same | pairMem
        · cases same
          exact ⟨now, isFirst⟩
        · exact ih encodesLater pairMem

/-- Lists that are related part by part split at the same place. -/
theorem exists_split_of_forall₂ {Left Right : Type} {related : Left → Right → Prop}
    {lefts : List Left} {earlier later : List Right} {right : Right}
    (all : List.Forall₂ related lefts (earlier ++ right :: later)) :
    ∃ before left after, lefts = before ++ left :: after ∧ related left right ∧
      List.Forall₂ related after later := by
  have rest := List.forall₂_drop_append lefts earlier (right :: later) all
  rcases List.forall₂_cons_right_iff.mp rest with ⟨left, after, isRelated, afterAll, dropped⟩
  exact ⟨lefts.take earlier.length, left, after, dropped ▸ (List.take_append_drop _ _).symm,
    isRelated, afterAll⟩

theorem exists_related_of_mem {Left Right : Type} {related : Left → Right → Prop}
    {lefts : List Left} {rights : List Right} (all : List.Forall₂ related lefts rights)
    {right : Right} (rightMem : right ∈ rights) : ∃ left ∈ lefts, related left right := by
  rcases List.append_of_mem rightMem with ⟨earlier, later, rfl⟩
  rcases exists_split_of_forall₂ all with ⟨before, left, after, rfl, isRelated, -⟩
  exact ⟨left, by simp, isRelated⟩

theorem key_of_storedAs {tenantId channelId : Bytes} {envelope : Envelope} {row : MessageRow}
    (stored : StoredAs tenantId channelId envelope row) :
    envelopeKey tenantId channelId envelope = row.key := by
  have bucket := (TimeBucket.compute_eq_ok.mp stored.bucket).1
  simp only [envelopeKey, MessageRow.key, stored.tenant, stored.channel, bucket, stored.message,
    pushedMessage]

namespace OfflineDelivery

variable {codec : Codec} {native : Native} {channel : Channel} {tenantId : Id16}
  {channelId content : Bytes} {contentType : ℕ} {aead : Aead}
  {delivery : OfflineDelivery codec native channel tenantId channelId content contentType}

/-- The entry that the send queued is pushed without content. -/
theorem not_carries_own {envelopes : List Envelope} (encodes : delivery.Encodes envelopes)
    {entry : QueuedMessage Record} {envelope : Envelope}
    (pairMem : (entry, envelope) ∈ delivery.entries.zip envelopes)
    (own : entry.id = delivery.prior.nextId) :
    ¬delivery.Carries aead envelope.messageId envelope.payload := by
  have known : delivery.store.Knows (delivery.prior.newEntry channel.channelId delivery.event
      delivery.payload delivery.queuedAt) :=
    delivery.follows.invariant (fun knows step => QueueStore.Knows.step knows step)
      (delivery.prior.knows_newEntry _ _ _ _)
  have held := (QueueHistory.mem_of_mem_channelDeltas (List.of_mem_zip pairMem).1).1
  rcases send_queues delivery.sends delivery.queues with ⟨-, random, sentAt, -, payloadEq⟩
  rcases encodes.of_mem pairMem with ⟨now, encoded⟩
  rw [known.only entry held own] at encoded
  change channel.deltaEnvelope delivery.payload now = some envelope at encoded
  rw [payloadEq] at encoded
  rintro ⟨-, decrypts⟩
  rw [payload_of_offlinePayload encoded, MlsClient.decrypt_nil] at decrypts
  cases decrypts

/-- What the cycle pushes, and what the gateway makes of it. -/
theorem exists_envelopes (roundTrips : delivery.RoundTrips) :
    ∃ envelopes, delivery.Encodes envelopes ∧
      List.Forall₂ (fun (pair : QueuedMessage Record × Envelope) row =>
          StoredAs tenantId.val channelId pair.2 row)
        (delivery.entries.zip envelopes) (insertedRows delivery.made) ∧
        (delivery.entries.zip envelopes).map Prod.snd = envelopes := by
  rcases syncChannel_pushes delivery.cycle delivery.drains delivery.pushes with
    ⟨length, envelopes, batchEq, encodes⟩
  rcases delivery.replied with @⟨socket, ref, topicId, info, reaction, tenant, refFits, topicFits,
    entry, joined, names, performs, pushed⟩
  rcases syncPush_inserts refFits topicFits entry names performs pushed with
    ⟨read, decodes, stored⟩
  have writes := roundTrips envelopes encodes
  have sameLength : delivery.entries.length = envelopes.length := by
    rw [← encodes.length_eq, List.length_zip, length]
    exact (Nat.min_self _).symm
  have few : envelopes.length ≤ 100 := by
    rw [← sameLength]
    exact (List.length_filter_le _ _).trans (List.length_take_le _ _)
  have decoded : decodedEnvelopes native (Gateway.unpackEnvelopes delivery.batch) =
      some envelopes := by
    have sizes : ∀ env ∈ envelopes.map codec.encodeEnvelope, env.length < 256 ^ 4 := by
      intro env envMem
      rcases List.mem_map.mp envMem with ⟨envelope, envelopeMem, rfl⟩
      exact (writes envelope envelopeMem).size
    rw [batchEq, unpackEnvelopes_packEnvelopes (by simp only [List.length_map]; omega) sizes]
    exact decodedEnvelopes_map fun envelope envelopeMem => (writes envelope envelopeMem).decoded
  have snds : (delivery.entries.zip envelopes).map Prod.snd = envelopes :=
    List.map_snd_zip (Nat.le_of_eq sameLength.symm)
  refine ⟨envelopes, encodes, ?_, snds⟩
  obtain rfl := Option.some.inj (decodes.symm.trans decoded)
  rw [tenant, ← snds] at stored
  exact List.forall₂_map_left_iff.mp stored

/-- A message that is sent offline is on the server after the cycle that pushes it exactly
when it is there apart from that. -/
theorem delivered_iff_elsewhere (aead : Aead)
    (delivery : OfflineDelivery codec native channel tenantId channelId content contentType)
    (roundTrips : delivery.RoundTrips) :
    delivery.Delivered aead ↔ delivery.Elsewhere aead := by
  rcases exists_envelopes roundTrips with ⟨envelopes, encodes, stored, snds⟩
  have rows : List.Forall₂ (StoredAs tenantId.val channelId) envelopes
      (insertedRows delivery.made) := by
    rw [← snds]
    exact List.forall₂_map_left_iff.mpr stored
  constructor
  · rintro ⟨row, held, carries⟩
    rw [tableAfter_eq, KeyedTable.mem_upsertAll] at held
    refine ⟨envelopes, encodes, ?_⟩
    rcases held with ⟨held, none_⟩ | ⟨earlier, later, split, none_⟩
    · refine Or.inl ⟨row, held, carries, fun envelope envelopeMem same => ?_⟩
      rcases exists_related_of_mem (List.Forall₂.flip rows) envelopeMem with
        ⟨inserted, insertedMem, isStored⟩
      exact none_ inserted insertedMem ((key_of_storedAs isStored).symm.trans same)
    · rw [split] at stored
      rcases exists_split_of_forall₂ stored with ⟨before, ⟨other, envelope⟩, after, zipEq,
        isStored, rest⟩
      have carried : delivery.Carries aead envelope.messageId envelope.payload := by
        rw [isStored.message] at carries
        exact carries
      refine Or.inr ⟨before, other, envelope, after, zipEq, fun own => ?_, carried, ?_⟩
      · exact not_carries_own encodes (by rw [zipEq]; simp) own carried
      · intro next nextMem same
        rcases exists_related_of_mem (List.Forall₂.flip rest) nextMem with
          ⟨inserted, insertedMem, nextStored⟩
        apply none_ inserted insertedMem
        exact (key_of_storedAs nextStored).symm.trans (same.trans (key_of_storedAs isStored))
  · rintro ⟨others, encodesOthers, elsewhere⟩
    have sameEnvelopes : others = envelopes :=
      List.right_unique_forall₂' (fun _ _ _ left right => Option.some.inj (left.symm.trans right))
        encodesOthers encodes
    subst sameEnvelopes
    rcases elsewhere with ⟨row, held, carries, none_⟩ | ⟨earlier, other, envelope, later, zipEq, -,
      carries, none_⟩
    · refine ⟨row, ?_, carries⟩
      rw [tableAfter_eq, KeyedTable.mem_upsertAll]
      refine Or.inl ⟨held, fun inserted insertedMem same => ?_⟩
      rcases exists_related_of_mem rows insertedMem with ⟨envelope, envelopeMem, isStored⟩
      exact none_ envelope envelopeMem ((key_of_storedAs isStored).trans same)
    · rw [zipEq] at stored
      rcases exists_split_of_forall₂ (List.Forall₂.flip stored) with ⟨before, row, after, split,
        isStored, rest⟩
      have isMessage : row.message = pushedMessage envelope := isStored.message
      refine ⟨row, ?_, by rw [isMessage]; exact carries⟩
      rw [tableAfter_eq, KeyedTable.mem_upsertAll]
      refine Or.inr ⟨before, after, split, fun inserted insertedMem same => ?_⟩
      rcases exists_related_of_mem (List.Forall₂.flip rest) insertedMem with
        ⟨next, nextMem, nextStored⟩
      apply none_ next nextMem
      exact (key_of_storedAs nextStored).trans (same.trans (key_of_storedAs isStored).symm)

end OfflineDelivery

/-! ## A message with nothing before it in the queue -/

/-- A cipher that hides nothing. -/
def plainAead : Aead where
  sealed _ plaintext := plaintext ++ List.replicate 16 0
  opened _ ciphertext :=
    if ciphertext.drop (ciphertext.length - 16) = List.replicate 16 0 then
      some (ciphertext.take (ciphertext.length - 16))
    else none
  length_sealed := by simp
  opened_sealed := by simp

def sampleContent : Bytes := ascii "hi"

def sampleId : Bytes := List.replicate 16 9

def samplePayload : Record :=
  Channel.offlinePayload sampleContent 0 (bytesToHex sampleId) 5

def sampleEnvelope : Envelope where
  tenantId := numberedChannel.tenantId
  channelId := numberedChannel.channelIdBytes
  senderId := numberedChannel.userId
  messageId := hexToBytes (bytesToHex sampleId)
  timestamp := 5
  payload := []

def sampleCodec : Codec :=
  capnpCodec [sampleEnvelope]

def sampleNative : Native :=
  Capnp.native [sampleEnvelope] []

theorem readable_sample : Readable sampleNative sampleEnvelope :=
  ⟨by decide +kernel, by decide +kernel, rfl⟩

def sampleStore : QueueStore Record :=
  OfflineQueue.enqueue QueueStore.empty numberedChannel.channelId "msg:send" samplePayload 5

def sampleSends : List (Performed device Thrown) :=
  [⟨.isConnected, .ok false⟩, ⟨.randomBytes 16, .ok sampleId⟩, ⟨.now, .ok 5⟩,
    ⟨.queueOffline numberedChannel.channelId "msg:send" samplePayload, .ok ()⟩]

theorem performs_sampleSends :
    (numberedChannel.send sampleCodec sampleContent 0).Performs sampleSends
      (.ok (bytesToHex sampleId)) :=
  ⟨.ok false, _, rfl, .ok sampleId, _, rfl, .ok 5, _, rfl, .ok (), _, rfl, rfl, rfl⟩

/-- The reply to a sync request on a channel without messages. -/
def emptyReply : Bytes :=
  littleEndian 8 0 ++ 0 :: packEnvelopes []

def samplePush : Performed device Thrown :=
  ⟨.push numberedChannel.topic Event.syncPush (packEnvelopes [Capnp.envelope sampleEnvelope]),
    .ok (littleEndian 4 1 ++ littleEndian 8 6)⟩

def sampleCycle : List (Performed device Thrown) :=
  [⟨.getSyncState numberedChannel.channelId, .ok none⟩,
    ⟨.push numberedChannel.topic Event.syncRequest (Channel.syncPayload 0 100), .ok emptyReply⟩,
    ⟨.drain, .ok (OfflineQueue.drain sampleStore)⟩, reading 6, samplePush, ⟨.ack 1, .ok ()⟩,
    ⟨.evictOldMessages numberedChannel.channelId, .ok ()⟩]

theorem performs_samplePush :
    (SyncEngine.push sampleCodec numberedChannel numberedChannel.channelId).Performs
      [⟨.drain, .ok (OfflineQueue.drain sampleStore)⟩, reading 6, samplePush, ⟨.ack 1, .ok ()⟩]
      (.ok 1) := by
  refine ⟨.ok (OfflineQueue.drain sampleStore), _, rfl, ?_⟩
  exact ⟨.ok 6, _, rfl, .ok (littleEndian 4 1 ++ littleEndian 8 6), _, rfl, .ok (), _, rfl, rfl,
    rfl⟩

theorem performs_sampleCycle :
    (SyncEngine.syncChannel sampleCodec numberedChannel numberedChannel.channelId 1).Performs
      sampleCycle (.ok ⟨0, 1⟩) := by
  have pulls := @performs_pull_last sampleCodec numberedChannel 0 0 numberedChannel.channelId
    emptyReply ⟨[], 0, false⟩ rfl rfl
  apply Performs.bind (@performs_request (.getSyncState numberedChannel.channelId) none)
  apply Performs.bind pulls
  apply Performs.bind performs_samplePush
  exact Performs.bind (@performs_request (.evictOldMessages numberedChannel.channelId) ())
    ⟨rfl, rfl⟩

/-- The gateway answers the push of one envelope. -/
theorem replied_push {native : Native} {channel : Channel} {channelId : Bytes} {socket : Socket}
    {topicId : ℕ} {info : TopicInfo} {envelope : Envelope} (now : ℕ)
    (connected : Connected channel channelId socket topicId info)
    (readable : Readable native envelope) :
    Replied native socket.tenantId channelId channel.topic Event.syncPush
      (packEnvelopes [Capnp.envelope envelope]) (pushCalls socket channelId 0 envelope now)
      (littleEndian 4 1 ++ littleEndian 8 now) := by
  have frameEq := @parse_pushFrame 2 topicId Event.syncPush
    (packEnvelopes [Capnp.envelope envelope]) (by decide) connected.topicFits
  have performs := performs_push now frameEq connected.entry connected.names readable.decoded
    readable.bucket
  exact .reply rfl (by decide) connected.topicFits connected.entry connected.joined
    connected.names performs rfl

/-- The first message of a device, sent offline, and the cycle after it. -/
def sampleDelivery (table : MessageTable) :
    OfflineDelivery sampleCodec sampleNative numberedChannel (.replicate 1)
      (Id16.replicate 7).val sampleContent 0 where
  sendCalls := sampleSends
  msgId := bytesToHex sampleId
  sends := performs_sampleSends
  disconnected := List.mem_cons_self
  prior := QueueStore.empty
  event := "msg:send"
  payload := samplePayload
  queuedAt := 5
  queues := by simp [sampleSends]
  meanwhile := []
  store := sampleStore
  follows := Run.refl
  rounds := 1
  count := ⟨0, 1⟩
  cycleCalls := sampleCycle
  cycle := performs_sampleCycle
  drains := by simp [sampleCycle]
  drainsEntry := ⟨_, List.mem_cons_self, rfl⟩
  table := table
  batch := packEnvelopes [Capnp.envelope sampleEnvelope]
  reply := littleEndian 4 1 ++ littleEndian 8 6
  made := pushCalls (memberSocket 2) (Id16.replicate 7).val 0 sampleEnvelope 6
  pushes := by simp [sampleCycle, samplePush]
  replied := replied_push 6 connected_numbered readable_sample
  carriedOut row answer insertMem := by
    simp only [pushCalls, List.mem_cons, List.not_mem_nil, or_false] at insertMem
    rcases insertMem with same | same | same | same | same
    · cases same
    · cases same
      rfl
    all_goals cases same

theorem encodes_sampleDelivery {table : MessageTable} {envelopes : List Envelope}
    (encodes : (sampleDelivery table).Encodes envelopes) : envelopes = [sampleEnvelope] :=
  List.right_unique_forall₂' (fun _ _ _ left right => Option.some.inj (left.symm.trans right))
    encodes (List.Forall₂.cons rfl List.Forall₂.nil)

theorem roundTrips_sampleDelivery (table : MessageTable) :
    (sampleDelivery table).RoundTrips := by
  intro envelopes encodes envelope envelopeMem
  rw [encodes_sampleDelivery encodes, List.mem_singleton] at envelopeMem
  subst envelopeMem
  exact ⟨readable_sample.size, readable_sample.decodes⟩

/-- The message as another device could have stored it, in another bucket. -/
def sampleRow : MessageRow where
  tenantId := (Id16.replicate 1).val
  channelId := (Id16.replicate 7).val
  bucketId := 1
  message :=
    { messageId := sampleId
      senderId := (Id16.replicate 5).val
      encryptedContent := MlsClient.encrypt plainAead (List.replicate 12 0) sampleContent
      contentType := 0
      replyTo := none
      createdAt := 864000000 }
  serverReceivedAt := 5

/-- The message is on the server where it was before. -/
theorem delivered_of_held :
    (sampleDelivery (KeyedTable.empty.upsert sampleRow)).Delivered plainAead := by
  refine (OfflineDelivery.delivered_iff_elsewhere plainAead _ (roundTrips_sampleDelivery _)).mpr ?_
  refine ⟨[sampleEnvelope], List.Forall₂.cons rfl List.Forall₂.nil, Or.inl ?_⟩
  refine ⟨sampleRow, KeyedTable.mem_upsert_self _ _, ⟨rfl, by decide⟩, ?_⟩
  intro envelope envelopeMem same
  rw [List.mem_singleton] at envelopeMem
  subst envelopeMem
  have buckets := congrArg MessageKey.bucketId same
  exact absurd buckets (by decide)

/-- A message that is sent offline never gets to the server. -/
theorem offline_message_lost :
    ¬∀ (codec : Codec) (native : Native) (channel : Channel) (tenantId : Id16)
        (channelId content : Bytes) (contentType : ℕ) (aead : Aead)
        (delivery : OfflineDelivery codec native channel tenantId channelId content contentType),
      delivery.RoundTrips → delivery.Delivered aead := by
  intro delivered
  rcases delivered _ _ _ _ _ _ _ plainAead (sampleDelivery KeyedTable.empty)
    (roundTrips_sampleDelivery _) with ⟨row, held, -, decrypts⟩
  have only : tableAfter (sampleDelivery KeyedTable.empty).table
      (sampleDelivery KeyedTable.empty).made =
        KeyedTable.empty.upsert (pushedRow (memberSocket 2) (Id16.replicate 7).val 0
          sampleEnvelope 6) := rfl
  rw [only, KeyedTable.mem_upsert] at held
  rcases held with ⟨none_, -⟩ | rfl
  · cases none_
  · rw [pushedRow, pushedMessage, sampleEnvelope, MlsClient.decrypt_nil] at decrypts
    cases decrypts

end Mercury.Sdk
