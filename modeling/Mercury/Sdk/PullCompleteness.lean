import Mercury.Gateway.Executions
import Mercury.Sdk.Pulls

/-!
# When a sync cycle pulls everything

A cycle on an unchanged channel resolves after at most two rounds, and has then
written every message newer than its cursor exactly when the first page held all of
them.
-/

namespace Mercury.Sdk

open Gateway Foundations Foundations.Program Persistence

/-! ## Executions -/

/-- The socket has joined the channel. -/
structure Connected (channel : Channel) (channelId : Bytes) (socket : Socket) (topicId : ℕ)
    (info : TopicInfo) : Prop where
  topicFits : topicId < 256 ^ 2
  entry : socket.topicIds.lookup topicId = some info
  joined : info.topic = channel.topic
  names : info.Names channelId

/-- A gateway that can be asked at the time `now` for what is newer than `since`, and a
device that can read its reply. -/
structure Answering (codec : Codec) (native : Native) (tenantId : Id16) (channelId : Bytes)
    (table : MessageTable) (since now : ℕ) : Prop where
  sinceFits : since < 256 ^ 8 ∧ TimeBucket.ofMs since < 2 ^ 32
  nowFits : now < 256 ^ 8 ∧ TimeBucket.ofMs now < 2 ^ 32
  reached : ∀ row ∈ messagesOf table tenantId.val channelId, row.message.createdAt ≤ now
  legible : ∀ row ∈ messagesOf table tenantId.val channelId,
    codec.Reads native (messageEnvelope tenantId.val channelId row.message)

section Execution

variable {codec : Codec} {native : Native} {channel : Channel} {channelId : Bytes}
  {socket : Socket} {topicId : ℕ} {info : TopicInfo} {table : MessageTable} {since now : ℕ}
  {cursor : Option ℕ}

theorem heldAnswers_readsFrom
    (answering : Answering codec native socket.tenantId channelId table since now) :
    (heldAnswers table socket.tenantId.val channelId).ReadsFrom since 101 now
      (bucketReads (table.select socket.tenantId.val channelId · 101) since now) where
  clock := ⟨answering.nowFits.1, answering.reached⟩
  fits := ⟨answering.sinceFits.2, answering.nowFits.2⟩
  buckets := by simp [bucketReads, Function.comp_def]
  rows := by
    intro read readMem
    rcases List.mem_map.mp readMem with ⟨bucketId, -, rfl⟩
    rfl

theorem syncCalls_admitted
    (answering : Answering codec native socket.tenantId channelId table since now) :
    ∀ taken ∈ syncCalls (table.select socket.tenantId.val channelId · 101)
        socket.tenantId.val channelId since now,
      (heldAnswers table socket.tenantId.val channelId).AdmitsNode socket.tenantId.val channelId
        taken := by
  have clock : (heldAnswers table socket.tenantId.val channelId).clock now :=
    ⟨answering.nowFits.1, answering.reached⟩
  intro taken takenMem
  rcases List.mem_append.mp takenMem with backed | clocked
  · rcases List.mem_map.mp backed with ⟨asked, askedMem, rfl⟩
    rcases List.mem_cons.mp askedMem with rfl | readMem
    · exact clock
    · rcases List.mem_map.mp readMem with ⟨read, inReads, rfl⟩
      rcases List.mem_map.mp inReads with ⟨bucketId, -, rfl⟩
      intro _ _
      exact ⟨_, rfl, rfl⟩
  · simp only [List.mem_cons, List.not_mem_nil, or_false] at clocked
    rcases clocked with rfl | rfl
    · intro _
      exact clock
    · intro _
      exact clock

/-- The gateway answers a sync request, and the device reads a page. -/
theorem exists_served (connected : Connected channel channelId socket topicId info)
    (answering : Answering codec native socket.tenantId channelId table since now) :
    ∃ data, Served native table socket.tenantId channelId cursor
        ⟨.push channel.topic Event.syncRequest (Channel.syncPayload since 100), .ok data⟩ ∧
      Channel.readSyncReply codec data = some (pageResult socket.tenantId.val channelId
        (pageOf since 100
          (bucketReads (table.select socket.tenantId.val channelId · 101) since now))
        (max now since) (decide (100 < (newerOf since
          (bucketReads (table.select socket.tenantId.val channelId · 101) since
            now)).length))) := by
  rcases syncPayload_reads since with ⟨full, sinceRead, limitRead, counterRead⟩
  rw [Nat.mod_eq_of_lt answering.sinceFits.1] at sinceRead
  have performs := @performs_syncRequest native socket channelId since now
    (table.select socket.tenantId.val channelId · 101) 0 topicId _ info (by decide)
    connected.topicFits connected.entry connected.names full sinceRead limitRead counterRead
    answering.sinceFits.2 answering.nowFits.2
  refine ⟨_, fun _ => ⟨_, Replied.reply rfl (by decide) connected.topicFits connected.entry
    connected.joined connected.names performs rfl, syncCalls_admitted answering⟩, ?_⟩
  have wallFits : max now since < 256 ^ 8 := max_lt answering.nowFits.1 answering.sinceFits.1
  refine readSyncReply_page rfl wallFits (List.length_take_le _ _) ?_ rfl
  intro msg msgMem
  rcases exists_of_mem_newerOf (heldAnswers_readsFrom answering) (mem_pageOf msgMem) with
    ⟨row, rowMem, rfl, -⟩
  exact answering.legible row (mem_newerMessages.mp rowMem).1

theorem performs_request {asked : Device.Call} (answer : Device.Answer asked) :
    (request asked).Performs [⟨asked, .ok answer⟩] (.ok answer) :=
  ⟨.ok answer, [], rfl, rfl, rfl⟩

theorem performs_store {channelId : String} (deltas : List SyncDelta) :
    (SyncEngine.store channelId deltas).Performs
      (deltas.map fun delta => written (SyncEngine.received channelId delta)) (.ok ()) := by
  induction deltas with
  | nil => exact ⟨rfl, rfl⟩
  | cons delta later ih => exact ⟨_, _, rfl, ih⟩

theorem performs_sync {data : Bytes} {result : SyncResult}
    (readEq : Channel.readSyncReply codec data = some result) :
    (channel.sync codec since 100).Performs
      [⟨.push channel.topic Event.syncRequest (Channel.syncPayload since 100), .ok data⟩]
      (.ok result) := by
  refine ⟨.ok data, [], rfl, ?_⟩
  simp only [Program.resume, orThrow, readEq]
  exact ⟨rfl, rfl⟩

/-- A round with which the pull loop ends. -/
theorem performs_pull_last {rounds : ℕ} {channelId : String} {data : Bytes} {result : SyncResult}
    (readEq : Channel.readSyncReply codec data = some result) (last : result.hasMore = false) :
    (SyncEngine.pull codec channel channelId (rounds + 1) since).Performs
      (⟨.push channel.topic Event.syncRequest (Channel.syncPayload since 100), .ok data⟩ ::
        (result.deltas.map fun delta => written (SyncEngine.received channelId delta)))
      (.ok (result.deltas.length, result.serverHlc)) := by
  apply Performs.bind (performs_sync readEq)
  rw [← List.append_nil (List.map _ _)]
  apply Performs.bind (performs_store result.deltas)
  rw [last]
  exact ⟨rfl, rfl⟩

/-- A round with another one after it. -/
theorem performs_pull_more {rounds : ℕ} {channelId : String} {data : Bytes} {result : SyncResult}
    {later : List (Performed device Thrown)} {rest : ℕ × ℕ}
    (readEq : Channel.readSyncReply codec data = some result) (more : result.hasMore = true)
    (pulls : (SyncEngine.pull codec channel channelId rounds result.serverHlc).Performs later
      (.ok rest)) :
    (SyncEngine.pull codec channel channelId (rounds + 1) since).Performs
      (⟨.push channel.topic Event.syncRequest (Channel.syncPayload since 100), .ok data⟩ ::
        ((result.deltas.map fun delta => written (SyncEngine.received channelId delta)) ++ later))
      (.ok (result.deltas.length + rest.1, rest.2)) := by
  refine Performs.bind (performs_sync readEq) (Performs.bind (performs_store result.deltas) ?_)
  rw [more, if_pos rfl, ← List.append_nil later]
  exact Performs.bind pulls ⟨rfl, rfl⟩

/-- The pull loop ends after two rounds. -/
theorem exists_pull (connected : Connected channel channelId socket topicId info)
    (answering : Answering codec native socket.tenantId channelId table since now) :
    ∃ calls outcome,
      (SyncEngine.pull codec channel channel.channelId 2 since).Performs calls (.ok outcome) ∧
        ∀ taken ∈ calls, Served native table socket.tenantId channelId cursor taken := by
  have writes : ∀ (result : SyncResult), ∀ taken ∈ result.deltas.map fun delta =>
      written (SyncEngine.received channel.channelId delta),
        Served native table socket.tenantId channelId cursor taken := by
    intro result taken takenMem
    rcases List.mem_map.mp takenMem with ⟨delta, -, rfl⟩
    trivial
  rcases @exists_served codec native channel channelId socket topicId info table since now cursor
    connected answering with ⟨data, served, readEq⟩
  by_cases more : 100 < (newerOf since
    (bucketReads (table.select socket.tenantId.val channelId · 101) since now)).length
  · have again : Answering codec native socket.tenantId channelId table (max now since) now :=
      { sinceFits := ⟨max_lt answering.nowFits.1 answering.sinceFits.1, by
          rcases max_choice now since with same | same <;> rw [same]
          · exact answering.nowFits.2
          · exact answering.sinceFits.2⟩
        nowFits := answering.nowFits
        reached := answering.reached
        legible := answering.legible }
    rcases @exists_served codec native channel channelId socket topicId info table (max now since)
      now cursor connected again with ⟨second, secondServed, secondEq⟩
    have none := newerOf_eq_nil (heldAnswers_readsFrom again) fun row rowMem =>
      (answering.reached row rowMem).trans (le_max_left now since)
    have ends := @performs_pull_last codec channel (max now since) 0 channel.channelId _ _ secondEq
      (by simp [pageResult, none])
    refine ⟨_, _, performs_pull_more readEq (by simp [pageResult, more]) ends, ?_⟩
    intro taken takenMem
    rcases List.mem_cons.mp takenMem with rfl | takenMem
    · exact served
    rcases List.mem_append.mp takenMem with firstPage | takenMem
    · exact writes _ taken firstPage
    rcases List.mem_cons.mp takenMem with rfl | secondPage
    · exact secondServed
    · exact writes _ taken secondPage
  · refine ⟨_, _, performs_pull_last readEq (by simpa [pageResult] using more), ?_⟩
    intro taken takenMem
    rcases List.mem_cons.mp takenMem with rfl | firstPage
    · exact served
    · exact writes _ taken firstPage

/-- A cycle with nothing to push resolves. -/
theorem exists_syncChannel (connected : Connected channel channelId socket topicId info)
    (answering : Answering codec native socket.tenantId channelId table (cursor.getD 0) now) :
    ∃ calls count,
      (SyncEngine.syncChannel codec channel channel.channelId 2).Performs calls (.ok count) ∧
        ∀ taken ∈ calls, Served native table socket.tenantId channelId cursor taken := by
  rcases @exists_pull codec native channel channelId socket topicId info table _ now cursor
    connected answering with ⟨pulling, outcome, pulls, served⟩
  have sets : ∃ setting, (SyncEngine.updateSyncState channel.channelId (cursor.getD 0)
      outcome.2).Performs setting (.ok ()) ∧
        ∀ taken ∈ setting, Served native table socket.tenantId channelId cursor taken := by
    unfold SyncEngine.updateSyncState
    split
    · exact ⟨_, ⟨.ok (), [], rfl, rfl, rfl⟩, by simp [Served]⟩
    · exact ⟨[], ⟨rfl, rfl⟩, by simp⟩
  rcases sets with ⟨setting, sets, settingServed⟩
  have pushes : (SyncEngine.push codec channel channel.channelId).Performs [⟨.drain, .ok []⟩]
      (.ok 0) := ⟨_, _, rfl, rfl, rfl⟩
  refine ⟨[⟨.getSyncState channel.channelId, .ok cursor⟩] ++ (pulling ++ (setting ++
    ([⟨.drain, .ok []⟩] ++ [⟨.evictOldMessages channel.channelId, .ok ()⟩]))),
    ⟨outcome.1, 0⟩, ?_, ?_⟩
  · apply Performs.bind (@performs_request (.getSyncState channel.channelId) cursor)
    refine Performs.bind pulls (Performs.bind sets ?_)
    exact Performs.bind pushes ⟨_, _, rfl, rfl, rfl⟩
  intro taken takenMem
  simp only [List.mem_cons, List.mem_append, List.not_mem_nil, or_false] at takenMem
  rcases takenMem with rfl | pulled | set | rfl | rfl
  · rfl
  · exact served taken pulled
  · exact settingServed taken set
  · trivial
  · trivial

end Execution

/-! ## A channel with numbered messages -/

/-- The library of the SDK, with a decoder for the messages of `envelopes`. -/
def capnpCodec (envelopes : List Envelope) : Codec where
  encodeEnvelope := Capnp.envelope
  decodeEnvelope bytes := envelopes.find? fun fields => Capnp.envelope fields = bytes

theorem take_envelope (fields : Envelope) :
    ((Capnp.envelope fields).drop 16).take 8 = littleEndian 8 fields.timestamp := by
  have short : ∀ width value size, width ≤ size → (littleEndian width value).drop size = [] :=
    fun width value size fits => List.drop_of_length_le (by simpa using fits)
  simp [Capnp.envelope, Capnp.message, List.drop_append, short]

/-- Envelopes of different times are told apart. -/
theorem capnpCodec_reads {envelopes : List Envelope} {envelope : Envelope} {native : Native}
    (encodes : native.envelopeEncode = Capnp.envelope) (present : envelope ∈ envelopes)
    (size : (Capnp.envelope envelope).length < 256 ^ 4)
    (times : ∀ other ∈ envelopes, other.timestamp < 256 ^ 8 ∧
      (other.timestamp = envelope.timestamp → other = envelope)) :
    (capnpCodec envelopes).Reads native envelope where
  size := by rw [encodes]; exact size
  decoded := by
    rw [encodes]
    have found : (envelopes.find? fun fields =>
        Capnp.envelope fields = Capnp.envelope envelope).isSome := by
      rw [List.find?_isSome]
      exact ⟨envelope, present, by simp⟩
    rcases Option.isSome_iff_exists.mp found with ⟨other, otherFound⟩
    have same := List.find?_some otherFound
    rw [decide_eq_true_eq] at same
    have otherMem := List.mem_of_find?_eq_some otherFound
    have numbers := congrArg (fun bytes => fromLittleEndian ((bytes.drop 16).take 8)) same
    simp only [take_envelope, fromLittleEndian_littleEndian (times other otherMem).1,
      fromLittleEndian_littleEndian (times envelope present).1] at numbers
    rw [(times other otherMem).2 numbers] at otherFound
    exact otherFound

/-- A message whose id and time are a number. -/
def numberedMessage (number : ℕ) : Message where
  messageId := littleEndian 16 number
  senderId := (Id16.replicate 2).val
  encryptedContent := []
  contentType := 0
  replyTo := none
  createdAt := number + 1

def numberedRow (number : ℕ) : MessageRow where
  tenantId := (Id16.replicate 1).val
  channelId := (Id16.replicate 7).val
  bucketId := 0
  message := numberedMessage number
  serverReceivedAt := number + 1

def numberedEnvelope (number : ℕ) : Envelope :=
  messageEnvelope (Id16.replicate 1).val (Id16.replicate 7).val (numberedMessage number)

/-- A channel with so many messages, all of them in the first bucket. -/
def numberedTable (count : Fin 1000) : MessageTable where
  rows := (List.range count).map numberedRow
  unique := by
    rw [List.map_map]
    refine List.Nodup.map_on ?_ List.nodup_range
    intro left leftMem right rightMem same
    have ids := congrArg (fun key => fromLittleEndian key.messageId) same
    have fits : ∀ number ∈ List.range count, number < 256 ^ 16 := by
      intro number numberMem
      have below := List.mem_range.mp numberMem
      omega
    simp only [Function.comp_apply, MessageRow.key, numberedRow, numberedMessage] at ids
    rwa [fromLittleEndian_littleEndian (fits left leftMem),
      fromLittleEndian_littleEndian (fits right rightMem)] at ids

theorem mem_numbered {count : Fin 1000} {row : MessageRow} :
    row ∈ messagesOf (numberedTable count) (Id16.replicate 1).val (Id16.replicate 7).val ↔
      ∃ number < count.val, numberedRow number = row := by
  rw [mem_messagesOf, KeyedTable.mem_def, numberedTable, List.mem_map]
  simp only [List.mem_range]
  constructor
  · intro held
    exact held.1
  · rintro ⟨number, below, rfl⟩
    exact ⟨⟨number, below, rfl⟩, rfl, rfl⟩

theorem bucketed_numbered (count : Fin 1000) :
    Bucketed (numberedTable count) (Id16.replicate 1).val (Id16.replicate 7).val := by
  intro row rowMem
  rcases mem_numbered.mp rowMem with ⟨number, below, rfl⟩
  have bucket : TimeBucket.ofMs (number + 1) = 0 := by
    rw [TimeBucket.ofMs, Nat.div_eq_of_lt]
    have := count.isLt
    simp only [TimeBucket.msPerDay, TimeBucket.daysPerBucket]
    omega
  refine TimeBucket.compute_eq_ok.mpr ⟨bucket.symm, ?_⟩
  exact bucket.symm ▸ Nat.two_pow_pos 32

def numberedCodec (count : Fin 1000) : Codec :=
  capnpCodec ((List.range count).map numberedEnvelope)

theorem legible_numbered (count : Fin 1000) :
    ∀ row ∈ messagesOf (numberedTable count) (Id16.replicate 1).val (Id16.replicate 7).val,
      (numberedCodec count).Reads (Capnp.native [] [])
        (messageEnvelope (Id16.replicate 1).val (Id16.replicate 7).val row.message) := by
  intro row rowMem
  rcases mem_numbered.mp rowMem with ⟨number, below, rfl⟩
  have length : (Capnp.envelope (numberedEnvelope number)).length = 128 := by
    simp [Capnp.envelope, Capnp.message, numberedEnvelope, messageEnvelope, numberedMessage,
      Capnp.padToWord, Capnp.words, Id16.replicate, Capnp.dataPointers]
  refine @capnpCodec_reads _ (numberedEnvelope number) _ rfl
    (List.mem_map_of_mem (List.mem_range.mpr below)) (by rw [length]; decide) ?_
  intro other otherMem
  rcases List.mem_map.mp otherMem with ⟨another, anotherMem, rfl⟩
  have anotherBelow := List.mem_range.mp anotherMem
  simp only [numberedEnvelope, messageEnvelope, numberedMessage]
  exact ⟨by omega, fun same => by rw [Nat.succ.inj same]⟩

/-- A device of user 2. -/
def numberedChannel : Channel where
  channelId := "07070707070707070707070707070707"
  tenantId := (Id16.replicate 1).val
  userId := (Id16.replicate 2).val
  mlsReady := true
  hasSyncEngine := true

theorem connected_numbered : Connected numberedChannel (Id16.replicate 7).val (memberSocket 2) 1
    (channelEntry (.replicate 1) (.replicate 7)) where
  topicFits := by decide
  entry := entry_memberSocket 2
  joined := by decide
  names := channelEntry_names _ _

/-- A device with no cursor asks for the messages, at the time of the thousandth. -/
theorem exists_numbered (count : Fin 1000) :
    ∃ calls total, (SyncEngine.syncChannel (numberedCodec count) numberedChannel
        numberedChannel.channelId 2).Performs calls (.ok total) ∧
      ∀ taken ∈ calls, Served (Capnp.native [] []) (numberedTable count) (.replicate 1)
        (Id16.replicate 7).val none taken := by
  refine @exists_syncChannel (numberedCodec count) (Capnp.native [] []) numberedChannel _
    (memberSocket 2) 1 _ (numberedTable count) 1000 none connected_numbered ?_
  refine ⟨by decide, by decide, ?_, legible_numbered count⟩
  intro row rowMem
  rcases mem_numbered.mp rowMem with ⟨number, below, rfl⟩
  have := count.isLt
  simp only [numberedRow, numberedMessage]
  omega

theorem newerMessages_numbered (count : Fin 1000) :
    newerMessages (numberedTable count) (Id16.replicate 1).val (Id16.replicate 7).val 0 =
      (numberedTable count).rows := by
  rw [newerMessages, messagesOf, List.filter_filter]
  apply List.filter_eq_self.mpr
  intro row rowMem
  rcases List.mem_map.mp rowMem with ⟨number, -, rfl⟩
  simp [numberedRow, numberedMessage]

/-- A cycle pulls every message newer than its cursor exactly when there are at most a
hundred of them, each among the 101 rows that are read of its bucket. -/
theorem syncChannel_complete_iff (codec : Codec) (native : Native) (channel : Channel)
    (tenantId : Id16) (channelId : Bytes) (table : MessageTable) (cursor : Option ℕ)
    (rounds : ℕ) (bucketed : Bucketed table tenantId.val channelId)
    (legible : ∀ row ∈ messagesOf table tenantId.val channelId,
      codec.Reads native (messageEnvelope tenantId.val channelId row.message))
    {calls : List (Performed device Thrown)} {count : SyncCount}
    (performs : (SyncEngine.syncChannel codec channel channel.channelId rounds).Performs calls
      (.ok count))
    (served : ∀ taken ∈ calls, Served native table tenantId channelId cursor taken) :
    (∀ row ∈ newerMessages table tenantId.val channelId (cursor.getD 0),
        written (pulledMessage channel.channelId row.message) ∈ calls) ↔
      (newerMessages table tenantId.val channelId (cursor.getD 0)).length ≤ 100 ∧
        ∀ row ∈ newerMessages table tenantId.val channelId (cursor.getD 0),
          row ∈ table.select tenantId.val channelId row.bucketId 101 := by
  rcases syncChannel_writes legible performs served with ⟨now, reads, readsFrom, writes⟩
  simp only [writes]
  by_cases sinceFits : cursor.getD 0 < 256 ^ 8
  · rw [Nat.mod_eq_of_lt sinceFits] at readsFrom ⊢
    rw [← page_complete_iff bucketed readsFrom]
    exact forall₂_congr fun row rowMem => mem_pulled_page bucketed readsFrom rowMem
  · have none : newerMessages table tenantId.val channelId (cursor.getD 0) = [] := by
      apply List.eq_nil_iff_forall_not_mem.mpr
      intro row rowMem
      rcases mem_newerMessages.mp rowMem with ⟨held, newer⟩
      have reached := readsFrom.clock.2 row held
      have clockFits := readsFrom.clock.1
      omega
    simp [none]

/-- A cycle that pulls a full page, all the messages of a channel. -/
theorem syncChannel_complete_of_hundred :
    ∃ calls total, (SyncEngine.syncChannel (numberedCodec 100) numberedChannel
        numberedChannel.channelId 2).Performs calls (.ok total) ∧
      ∀ number < 100,
        written (pulledMessage numberedChannel.channelId (numberedMessage number)) ∈ calls := by
  rcases exists_numbered 100 with ⟨calls, total, performs, served⟩
  refine ⟨calls, total, performs, ?_⟩
  have complete := (syncChannel_complete_iff (numberedCodec 100) (Capnp.native [] [])
    numberedChannel (.replicate 1) (Id16.replicate 7).val (numberedTable 100) none 2
      (bucketed_numbered 100) (legible_numbered 100) performs served).mpr
  have length : (numberedTable 100).rows.length = 100 := by
    rw [numberedTable, List.length_map, List.length_range]
    rfl
  have selected : ∀ row ∈ (numberedTable 100).rows, row ∈ (numberedTable 100).select
      (Id16.replicate 1).val (Id16.replicate 7).val row.bucketId 101 := by
    intro row rowMem
    rw [← newerMessages_numbered] at rowMem
    exact mem_select_of_length_le (mem_newerMessages.mp rowMem).1 (by omega)
  rw [Option.getD_none, newerMessages_numbered] at complete
  intro number below
  exact complete ⟨by omega, selected⟩ (numberedRow number)
    (List.mem_map_of_mem (List.mem_range.mpr below))

/-- A cycle on a channel with 101 new messages leaves one of them out. -/
theorem many_messages_missed :
    ¬∀ (codec : Codec) (native : Native) (channel : Channel) (tenantId : Id16)
        (channelId : Bytes) (table : MessageTable) (cursor : Option ℕ) (rounds : ℕ)
        (calls : List (Performed device Thrown)) (count : SyncCount),
      Bucketed table tenantId.val channelId →
      (∀ row ∈ messagesOf table tenantId.val channelId,
        codec.Reads native (messageEnvelope tenantId.val channelId row.message)) →
      (SyncEngine.syncChannel codec channel channel.channelId rounds).Performs calls
        (.ok count) →
      (∀ taken ∈ calls, Served native table tenantId channelId cursor taken) →
      ∀ row ∈ newerMessages table tenantId.val channelId (cursor.getD 0),
        written (pulledMessage channel.channelId row.message) ∈ calls := by
  intro complete
  rcases exists_numbered 101 with ⟨calls, total, performs, served⟩
  have all := complete _ _ _ _ _ _ _ _ _ _ (bucketed_numbered 101) (legible_numbered 101)
    performs served
  rcases syncChannel_writes (legible_numbered 101) performs served with
    ⟨now, reads, readsFrom, writes⟩
  have inPage : ∀ row ∈ newerMessages (numberedTable 101) (Id16.replicate 1).val
      (Id16.replicate 7).val 0, row.message ∈ pageOf 0 100 reads := by
    intro row rowMem
    exact (mem_pulled_page (bucketed_numbered 101) readsFrom rowMem).mp
      ((writes _).mp (all row rowMem))
  have few := ((page_complete_iff (bucketed_numbered 101) readsFrom).mp inPage).1
  rw [Option.getD_none, Nat.zero_mod, newerMessages_numbered] at few
  exact absurd few (by decide)

end Mercury.Sdk
