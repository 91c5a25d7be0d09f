import Mercury.Gateway.HeldMessages
import Mercury.Sdk.SyncEngine

/-!
# What a sync cycle pulls

The calls of a `syncChannel` that resolves, with the gateway's replies to its sync
requests. The cursor of the second request is the clock of the server, so nothing
after the first page is ever pulled (`pull_writes`).
-/

namespace Mercury.Sdk

open Gateway Foundations Foundations.Program Persistence

/-- The gateway performs `made` for a push on a topic of the channel, on a socket that
has joined it, and replies with `data`. -/
inductive Replied (native : Native) (tenantId : Id16) (channelId topic : Bytes) (event : Byte)
    (payload : Bytes) (made : List (Performed node Raise)) (data : Bytes) : Prop where
  | reply {socket : Socket} {ref topicId : ℕ} {info : TopicInfo} {reaction : Reaction}
      (tenant : socket.tenantId = tenantId) (refFits : ref < 256 ^ 4)
      (topicFits : topicId < 256 ^ 2) (entry : socket.topicIds.lookup topicId = some info)
      (joined : info.topic = topic) (names : info.Names channelId)
      (performs : (nodeHandleIn native (pushFrame ref topicId event payload) socket).Performs
        made (.ok reaction))
      (pushed : reaction.pushed = [replyFrame ref topicId statusOk data])

/-- The library reads the envelope that the gateway writes. -/
structure Codec.Reads (codec : Codec) (native : Native) (envelope : Envelope) : Prop where
  size : (native.envelopeEncode envelope).length < 256 ^ 4
  decoded : codec.decodeEnvelope (native.envelopeEncode envelope) = some envelope

/-- The envelope in which the gateway sends a stored message. -/
def messageEnvelope (tenantId channelId : Bytes) (msg : Message) : Envelope where
  tenantId := tenantId
  channelId := channelId
  senderId := msg.senderId
  messageId := msg.messageId
  timestamp := msg.createdAt
  payload := msg.encryptedContent

/-- What `syncChannel` stores of a pulled message. -/
def pulledMessage (channelId : String) (msg : Message) : StoredMessage where
  channelId := channelId
  messageId := bytesToHex msg.messageId
  sender := bytesToHex msg.senderId
  content := msg.encryptedContent
  contentType := 0
  timestamp := msg.createdAt

/-- A message that is written to the local store. -/
def written (stored : StoredMessage) : Performed device Thrown :=
  ⟨.writeMessage stored, .ok ()⟩

theorem written_injective : Function.Injective written := by
  intro left right same
  simpa [written] using same

section Calls

variable {codec : Codec} {channel : Channel} {channelId : String}
  {calls : List (Performed device Thrown)}

theorem orThrow_performs {Result : Type} {found : Option Result} {result : Result}
    (performs : (orThrow found).Performs calls (.ok result)) :
    calls = [] ∧ found = some result := by
  rcases found with _ | value
  · cases performs.2
  · rcases performs with ⟨rfl, same⟩
    cases same
    exact ⟨rfl, rfl⟩

theorem sync_performs {since limit : ℕ} {result : SyncResult}
    (performs : (channel.sync codec since limit).Performs calls (.ok result)) :
    ∃ data, Channel.readSyncReply codec data = some result ∧
      calls = [⟨.push channel.topic Event.syncRequest (Channel.syncPayload since limit),
        .ok data⟩] := by
  rcases Performs.of_bind performs with ⟨first, later, data, rfl, pushes, reads⟩
  rcases orThrow_performs reads with ⟨rfl, readEq⟩
  refine ⟨data, readEq, ?_⟩
  rw [Performs.of_perform pushes, List.append_nil]

theorem store_performs {deltas : List SyncDelta}
    (performs : (SyncEngine.store channelId deltas).Performs calls (.ok ())) :
    calls = deltas.map fun delta => written (SyncEngine.received channelId delta) := by
  induction deltas generalizing calls with
  | nil => exact performs.1
  | cons delta later ih =>
      rcases Performs.of_bind performs with ⟨first, rest, done, rfl, writes, stores⟩
      rw [Performs.of_perform writes, ih stores]
      rfl

/-- The calls of one round of the pull loop. -/
theorem pull_performs {rounds since : ℕ} {outcome : ℕ × ℕ}
    (performs : (SyncEngine.pull codec channel channelId (rounds + 1) since).Performs calls
      (.ok outcome)) :
    ∃ data result later, Channel.readSyncReply codec data = some result ∧
      calls = ⟨.push channel.topic Event.syncRequest (Channel.syncPayload since 100), .ok data⟩ ::
        (result.deltas.map fun delta => written (SyncEngine.received channelId delta)) ++ later ∧
      (if result.hasMore then ∃ rest, (SyncEngine.pull codec channel channelId rounds
        result.serverHlc).Performs later (.ok rest)
      else later = [] ∧ outcome = (result.deltas.length, result.serverHlc)) := by
  rcases Performs.of_bind performs with ⟨first, rest, result, rfl, syncs, rest_performs⟩
  rcases Performs.of_bind rest_performs with ⟨second, later, done, rfl, stores, continues⟩
  rcases sync_performs syncs with ⟨data, readEq, rfl⟩
  refine ⟨data, result, later, readEq, by rw [store_performs stores]; rfl, ?_⟩
  split at continues
  · next more =>
      rcases Performs.of_bind continues with ⟨third, last, found, rfl, pulls, ends⟩
      rw [ends.1, List.append_nil, if_pos more]
      exact ⟨found, pulls⟩
  · next noMore =>
      rw [if_neg noMore]
      exact ⟨continues.1, Except.ok.inj continues.2⟩

/-- The calls of a cycle that resolves: its pull, the new cursor, and its push. -/
theorem syncChannel_performs {rounds : ℕ} {count : SyncCount}
    (performs : (SyncEngine.syncChannel codec channel channelId rounds).Performs calls
      (.ok count)) :
    ∃ cursor pulling setting pushing outcome accepted,
      calls = ⟨.getSyncState channelId, .ok cursor⟩ :: pulling ++ setting ++ pushing ++
        [⟨.evictOldMessages channelId, .ok ()⟩] ∧
      (SyncEngine.pull codec channel channelId rounds (cursor.getD 0)).Performs pulling
        (.ok outcome) ∧
      setting = (if cursor.getD 0 < outcome.2 then
        [⟨.setSyncState channelId outcome.2, .ok ()⟩] else []) ∧
      (SyncEngine.push codec channel channelId).Performs pushing (.ok accepted) := by
  rcases Performs.of_bind performs with ⟨first, rest, cursor, rfl, reads, afterRead⟩
  rcases Performs.of_bind afterRead with ⟨pulling, rest, outcome, rfl, pulls, afterPull⟩
  rcases Performs.of_bind afterPull with ⟨setting, rest, done, rfl, sets, afterSet⟩
  rcases Performs.of_bind afterSet with ⟨pushing, rest, accepted, rfl, pushes, afterPush⟩
  rcases Performs.of_bind afterPush with ⟨evicting, rest, evicted, rfl, evicts, ends⟩
  refine ⟨cursor, pulling, setting, pushing, outcome, accepted, ?_, pulls, ?_, pushes⟩
  · rw [Performs.of_perform reads, Performs.of_perform evicts, ends.1]
    simp
  · unfold SyncEngine.updateSyncState at sets
    split at sets
    · next advanced => rw [if_pos advanced, Performs.of_perform sets]
    · next still => rw [if_neg still, sets.1]

/-- The calls of the push phase. -/
def Uploads : Device.Call → Prop
  | .drain | .now | .ack _ => True
  | .push _ event _ => event = Event.syncPush
  | _ => False

theorem push_uploads :
    (SyncEngine.push codec channel channelId).Ensures (fun _ => True) Uploads fun _ => True := by
  have encodes : ∀ deltas, (channel.encodeDeltas codec deltas).Ensures (fun _ => True) Uploads
      fun _ => True := by
    intro deltas
    induction deltas with
    | nil => trivial
    | cons delta later ih =>
        apply Ensures.seq (Ensures.ask trivial)
        intro now
        rcases encoded : channel.deltaEnvelope delta now with _ | envelope
        · trivial
        · exact Ensures.seq trivial fun _ => Ensures.seq ih fun _ => trivial
  apply Ensures.seq (Ensures.ask trivial)
  intro pending
  dsimp only
  split
  · trivial
  · refine Ensures.seq ?_ fun accepted => Ensures.seq (Ensures.ask trivial) fun _ => trivial
    apply Ensures.seq (encodes _)
    intro envelopes
    refine Ensures.seq (Ensures.ask rfl) fun reply => ?_
    rcases Channel.readAccepted reply with _ | count <;> trivial

/-- A push writes no message to the local store. -/
theorem push_writes_nil {accepted : ℕ}
    (performs : (SyncEngine.push codec channel channelId).Performs calls (.ok accepted))
    (stored : StoredMessage) : written stored ∉ calls :=
  fun writtenMem => (push_uploads.of_performs performs fun _ _ => trivial).1 _ writtenMem

end Calls

/-! ## The reply to a sync request -/

section Replies

variable {codec : Codec} {native : Native} {tenantId : Id16} {channelId : Bytes}

/-- The values of a reply are read back, unless an envelope does not decode. -/
theorem readSyncReply_eq {reply : SyncReply}
    (wall : reply.mergedWall < 256 ^ 8) (count : reply.envelopes.length < 256 ^ 4)
    (sizes : ∀ env ∈ reply.envelopes, env.length < 256 ^ 4) :
    Channel.readSyncReply codec reply.encode =
      (reply.envelopes.mapM codec.decodeEnvelope).map fun envelopes =>
        ⟨envelopes.map Channel.toSyncDelta, reply.mergedWall, reply.hasMore⟩ := by
  have clock : reply.encode.take 8 = littleEndian 8 reply.mergedWall :=
    List.take_left' (by simp)
  have flag : (reply.encode[8]? = some 1) ↔ reply.hasMore = true := by
    rw [SyncReply.encode, List.getElem?_append_right (by simp)]
    cases reply.hasMore <;> simp
  have packed : reply.encode.drop 9 = packEnvelopes reply.envelopes := by
    simp [SyncReply.encode, List.drop_append]
  have filled : ¬reply.encode.length < 8 := by
    simp [SyncReply.encode]
  rw [Channel.readSyncReply, if_neg filled, packed, unpackEnvelopes_pack count sizes, clock,
    fromLittleEndian_littleEndian wall]
  simp only [Option.bind_eq_bind, Option.bind_some]
  rcases reply.envelopes.mapM codec.decodeEnvelope with _ | envelopes
  · rfl
  · simp [flag]

theorem readSyncReply_encode {reply : SyncReply} {envelopes : List Envelope}
    (wall : reply.mergedWall < 256 ^ 8) (count : reply.envelopes.length < 256 ^ 4)
    (sizes : ∀ env ∈ reply.envelopes, env.length < 256 ^ 4)
    (decoded : reply.envelopes.mapM codec.decodeEnvelope = some envelopes) :
    Channel.readSyncReply codec reply.encode =
      some ⟨envelopes.map Channel.toSyncDelta, reply.mergedWall, reply.hasMore⟩ := by
  rw [readSyncReply_eq wall count sizes, decoded]
  rfl

theorem mapM_decodeEnvelope {messages : List Message}
    (legible : ∀ msg ∈ messages, codec.Reads native (messageEnvelope tenantId.val channelId msg)) :
    (messages.map fun msg => native.envelopeEncode
      (messageEnvelope tenantId.val channelId msg)).mapM codec.decodeEnvelope =
        some (messages.map (messageEnvelope tenantId.val channelId)) := by
  induction messages with
  | nil => rfl
  | cons msg later ih =>
      have first := (legible msg List.mem_cons_self).decoded
      have rest := ih fun other otherMem => legible other (List.mem_cons_of_mem _ otherMem)
      simp only [List.map_cons, List.mapM_cons, first, rest]
      rfl

/-- A page of messages, as the SDK reads it. -/
def pageResult (tenantId channelId : Bytes) (messages : List Message) (wall : ℕ)
    (hasMore : Bool) : SyncResult where
  deltas := messages.map fun msg => Channel.toSyncDelta (messageEnvelope tenantId channelId msg)
  serverHlc := wall
  hasMore := hasMore

/-- The SDK reads a page as the gateway sends it. -/
theorem readSyncReply_page {socket : Socket} (tenant : socket.tenantId = tenantId)
    {messages : List Message} {reply : SyncReply} (wall : reply.mergedWall < 256 ^ 8)
    (few : messages.length ≤ 100)
    (legible : ∀ msg ∈ messages, codec.Reads native (messageEnvelope tenantId.val channelId msg))
    (envelopes : reply.envelopes = messages.map (encodeMessage native socket channelId)) :
    Channel.readSyncReply codec reply.encode =
      some (pageResult tenantId.val channelId messages reply.mergedWall reply.hasMore) := by
  subst tenant
  have same : reply.envelopes = messages.map fun msg =>
      native.envelopeEncode (messageEnvelope socket.tenantId.val channelId msg) := envelopes
  have decoded := mapM_decodeEnvelope legible
  rw [← same] at decoded
  rw [readSyncReply_encode wall ?_ ?_ decoded]
  · simp [pageResult]
  · rw [same, List.length_map]
    omega
  · intro env envMem
    rw [same] at envMem
    rcases List.mem_map.mp envMem with ⟨msg, msgMem, rfl⟩
    exact (legible msg msgMem).size

theorem syncPayload_reads (since : ℕ) :
    16 ≤ (Channel.syncPayload since 100).length ∧
      fromLittleEndian ((Channel.syncPayload since 100).take 8) = since % 256 ^ 8 ∧
        fromLittleEndian (((Channel.syncPayload since 100).drop 8).take 4) = 100 ∧
          fromLittleEndian (((Channel.syncPayload since 100).drop 12).take 4) = 0 := by
  refine ⟨by simp [Channel.syncPayload], ?_, ?_, ?_⟩
  · rw [Channel.syncPayload, List.append_assoc, List.take_left' (by simp),
      fromLittleEndian_littleEndian_mod]
  · rw [Channel.syncPayload, List.append_assoc, List.drop_left' (by simp),
      List.take_left' (by simp), fromLittleEndian_littleEndian (by decide)]
  · rw [Channel.syncPayload, List.drop_left' (by simp), List.take_of_length_le (by simp),
      fromLittleEndian_littleEndian (by decide)]

/-- What a device reads in the reply to its sync request, from how the commands of the
gateway were answered. -/
theorem readSyncReply_of_replied {answers : SyncAnswers} {topic data : Bytes} {since : ℕ}
    {made : List (Performed node Raise)} (clocks : ∀ now, answers.clock now → now < 256 ^ 8)
    (replied : Replied native tenantId channelId topic Event.syncRequest
      (Channel.syncPayload since 100) made data)
    (granted : ∀ taken ∈ made, answers.AdmitsNode tenantId.val channelId taken) :
    ∃ system reading now reads, answers.clock system ∧ answers.clock reading ∧
      answers.ReadsFrom (since % 256 ^ 8) 101 now reads ∧
        ((∀ msg ∈ newerOf (since % 256 ^ 8) reads,
            codec.Reads native (messageEnvelope tenantId.val channelId msg)) →
          Channel.readSyncReply codec data = some (pageResult tenantId.val channelId
            (pageOf (since % 256 ^ 8) 100 reads) (max (max reading system) (since % 256 ^ 8))
              (decide (100 < (newerOf (since % 256 ^ 8) reads).length)))) := by
  rcases replied with @⟨socket, ref, topicId, info, reaction, rfl, refFits, topicFits, entry,
    joined, names, performs, pushed⟩
  rcases syncPayload_reads since with ⟨full, sinceRead, limitRead, -⟩
  have ensured := @syncRequest_ensures native socket channelId answers ref topicId
    (Channel.syncPayload since 100) info refFits topicFits entry names full
  rcases (ensured.of_performs performs granted).2 reaction data rfl pushed with
    ⟨reply, rfl, replies⟩
  rw [sinceRead, limitRead, Nat.min_self] at replies
  rcases replies.wall with ⟨system, reading, systemClock, readingClock, wallEq⟩
  rcases replies.page with ⟨now, reads, readsFrom, moreEq, envelopes⟩
  refine ⟨system, reading, now, reads, systemClock, readingClock, readsFrom, fun legible => ?_⟩
  have wallFits : reply.mergedWall < 256 ^ 8 := by
    have systemFits := clocks system systemClock
    have readingFits := clocks reading readingClock
    have sinceFits : since % 256 ^ 8 < 256 ^ 8 := Nat.mod_lt _ (by decide)
    omega
  rw [← wallEq, ← moreEq]
  exact readSyncReply_page rfl wallFits (List.length_take_le _ _)
    (fun msg msgMem => legible msg (mem_pageOf msgMem)) envelopes

end Replies

/-! ## A pull from an unchanged channel -/

/-- How the device is answered while the channel stays as it is in `table`, and its own
cursor is `cursor`. -/
def Served (native : Native) (table : MessageTable) (tenantId : Id16) (channelId : Bytes)
    (cursor : Option ℕ) : Performed device Thrown → Prop
  | ⟨.getSyncState _, answer⟩ => answer = .ok cursor
  | ⟨.push topic event payload, .ok data⟩ => event = Event.syncRequest →
      ∃ made, Replied native tenantId channelId topic event payload made data ∧
        ∀ taken ∈ made,
          (heldAnswers table tenantId.val channelId).AdmitsNode tenantId.val channelId taken
  | _ => True

section Held

variable {codec : Codec} {native : Native} {channel : Channel} {tenantId : Id16}
  {channelId : Bytes} {table : MessageTable} {cursor : Option ℕ}
  {calls : List (Performed device Thrown)}

/-- The reply to a sync request in an unchanged channel: its clock is not before any message. -/
theorem readSyncReply_of_served {since : ℕ} {data : Bytes}
    (legible : ∀ row ∈ messagesOf table tenantId.val channelId,
      codec.Reads native (messageEnvelope tenantId.val channelId row.message))
    (served : Served native table tenantId channelId cursor
      ⟨.push channel.topic Event.syncRequest (Channel.syncPayload since 100), .ok data⟩) :
    ∃ now reads wall,
      (heldAnswers table tenantId.val channelId).ReadsFrom (since % 256 ^ 8) 101 now reads ∧
        (∀ row ∈ messagesOf table tenantId.val channelId, row.message.createdAt ≤ wall) ∧
          wall < 256 ^ 8 ∧ Channel.readSyncReply codec data =
            some (pageResult tenantId.val channelId (pageOf (since % 256 ^ 8) 100 reads) wall
              (decide (100 < (newerOf (since % 256 ^ 8) reads).length))) := by
  rcases served rfl with ⟨made, replied, granted⟩
  rcases @readSyncReply_of_replied codec native tenantId channelId
    (heldAnswers table tenantId.val channelId) _ _ _ _ (fun now clock => clock.1) replied
      granted with
    ⟨system, reading, now, reads, systemClock, readingClock, readsFrom, readEq⟩
  refine ⟨now, reads, _, readsFrom, ?_, ?_, readEq ?_⟩
  · intro row rowMem
    have reached := readingClock.2 row rowMem
    omega
  · have systemFits := systemClock.1
    have readingFits := readingClock.1
    have sinceFits : since % 256 ^ 8 < 256 ^ 8 := Nat.mod_lt _ (by decide)
    omega
  · intro msg msgMem
    rcases exists_of_mem_newerOf readsFrom msgMem with ⟨row, rowMem, rfl, -⟩
    exact legible row (mem_newerMessages.mp rowMem).1

/-- A round from a cursor that no message is later than pulls nothing. -/
theorem pull_writes_nil {rounds since : ℕ} {outcome : ℕ × ℕ}
    (legible : ∀ row ∈ messagesOf table tenantId.val channelId,
      codec.Reads native (messageEnvelope tenantId.val channelId row.message))
    (sinceFits : since < 256 ^ 8)
    (latest : ∀ row ∈ messagesOf table tenantId.val channelId, row.message.createdAt ≤ since)
    (performs : (SyncEngine.pull codec channel channel.channelId rounds since).Performs calls
      (.ok outcome))
    (served : ∀ taken ∈ calls, Served native table tenantId channelId cursor taken)
    (stored : StoredMessage) : written stored ∉ calls := by
  cases rounds with
  | zero => cases performs.2
  | succ rounds =>
      rcases pull_performs performs with ⟨data, result, later, readEq, rfl, continues⟩
      rcases @readSyncReply_of_served codec native channel tenantId channelId
        table cursor since data legible (served _ List.mem_cons_self) with
        ⟨now, reads, wall, readsFrom, reached, wallFits, pageEq⟩
      rw [Nat.mod_eq_of_lt sinceFits] at readsFrom pageEq
      rw [pageEq] at readEq
      cases readEq
      have none := newerOf_eq_nil readsFrom latest
      simp only [pageResult, pageOf, none, List.length_nil, Nat.not_lt_zero, decide_false,
        Bool.false_eq_true, if_false] at continues
      rw [continues.1]
      simp [written, pageResult, pageOf, none, Sync.sortByCreatedAt]

/-- Only the first page is ever pulled. -/
theorem pull_writes {rounds since : ℕ} {outcome : ℕ × ℕ}
    (legible : ∀ row ∈ messagesOf table tenantId.val channelId,
      codec.Reads native (messageEnvelope tenantId.val channelId row.message))
    (performs : (SyncEngine.pull codec channel channel.channelId rounds since).Performs calls
      (.ok outcome))
    (served : ∀ taken ∈ calls, Served native table tenantId channelId cursor taken) :
    ∃ now reads,
      (heldAnswers table tenantId.val channelId).ReadsFrom (since % 256 ^ 8) 101 now reads ∧
        ∀ stored, written stored ∈ calls ↔
          stored ∈ (pageOf (since % 256 ^ 8) 100 reads).map (pulledMessage channel.channelId) := by
  cases rounds with
  | zero => cases performs.2
  | succ rounds =>
      rcases pull_performs performs with ⟨data, result, later, readEq, rfl, continues⟩
      rcases @readSyncReply_of_served codec native channel tenantId channelId
        table cursor since data legible (served _ List.mem_cons_self) with
        ⟨now, reads, wall, readsFrom, reached, wallFits, pageEq⟩
      rw [pageEq] at readEq
      cases readEq
      refine ⟨now, reads, readsFrom, fun stored => ?_⟩
      have nothing : written stored ∉ later := by
        split at continues
        · rcases continues with ⟨rest, pulls⟩
          exact pull_writes_nil legible wallFits reached pulls
            (fun taken takenMem => served taken (by simp [takenMem])) stored
        · simp [continues.1]
      have page : ∀ messages more,
          ((pageResult tenantId.val channelId messages wall more).deltas.map fun delta =>
            written (SyncEngine.received channel.channelId delta)) =
            (messages.map (pulledMessage channel.channelId)).map written := by
        intro messages more
        rw [pageResult, List.map_map, List.map_map]
        rfl
      rw [page, List.cons_append, List.mem_cons, List.mem_append, or_iff_left nothing,
        List.mem_map_of_injective written_injective]
      exact or_iff_right (by simp [written])

/-- What is stored of a message tells which message of the channel it is. -/
theorem mem_pulled_page {since now : ℕ} {reads : List BucketRead} {row : MessageRow}
    (bucketed : Bucketed table tenantId.val channelId)
    (readsFrom : (heldAnswers table tenantId.val channelId).ReadsFrom since 101 now reads)
    (rowMem : row ∈ newerMessages table tenantId.val channelId since) :
    pulledMessage channel.channelId row.message ∈
        (pageOf since 100 reads).map (pulledMessage channel.channelId) ↔
      row.message ∈ pageOf since 100 reads := by
  refine ⟨fun pulled => ?_, List.mem_map_of_mem⟩
  rcases List.mem_map.mp pulled with ⟨msg, msgMem, same⟩
  rcases exists_of_mem_newerOf readsFrom (mem_pageOf msgMem) with ⟨other, otherMem, rfl, -⟩
  have held := (mem_newerMessages.mp rowMem).1
  have otherHeld := (mem_newerMessages.mp otherMem).1
  have ids : other.message.messageId = row.message.messageId :=
    bytesToHex_injective (congrArg StoredMessage.messageId same)
  have times : other.message.createdAt = row.message.createdAt :=
    congrArg StoredMessage.timestamp same
  have buckets := bucketed other otherHeld
  rw [times, bucketed row held] at buckets
  rw [mem_messagesOf] at held otherHeld
  have rows : other = row := by
    apply KeyedTable.eq_of_key_eq otherHeld.1 held.1
    simp [MessageRow.key, held.2, otherHeld.2, ids, Except.ok.inj buckets]
  exact rows ▸ msgMem

end Held

/-- The messages that a cycle writes are those of its first page. -/
theorem syncChannel_writes {codec : Codec} {native : Native} {channel : Channel}
    {tenantId : Id16} {channelId : Bytes} {table : MessageTable} {cursor : Option ℕ} {rounds : ℕ}
    (legible : ∀ row ∈ messagesOf table tenantId.val channelId,
      codec.Reads native (messageEnvelope tenantId.val channelId row.message))
    {calls : List (Performed device Thrown)} {count : SyncCount}
    (performs : (SyncEngine.syncChannel codec channel channel.channelId rounds).Performs calls
      (.ok count))
    (served : ∀ taken ∈ calls, Served native table tenantId channelId cursor taken) :
    ∃ now reads, (heldAnswers table tenantId.val channelId).ReadsFrom
        (cursor.getD 0 % 256 ^ 8) 101 now reads ∧
      ∀ stored, written stored ∈ calls ↔ stored ∈
        (pageOf (cursor.getD 0 % 256 ^ 8) 100 reads).map (pulledMessage channel.channelId) := by
  rcases syncChannel_performs performs with
    ⟨read, pulling, setting, pushing, outcome, accepted, rfl, pulls, settingEq, pushes⟩
  have readEq : read = cursor := by
    have answered := served ⟨.getSyncState channel.channelId, .ok read⟩ (by simp)
    exact Except.ok.inj answered
  subst readEq
  rcases pull_writes legible pulls (fun taken takenMem => served taken (by simp [takenMem])) with
    ⟨now, reads, readsFrom, writes⟩
  refine ⟨now, reads, readsFrom, fun stored => ?_⟩
  rw [← writes]
  have notPushing := push_writes_nil pushes stored
  have notSetting : written stored ∉ setting := by
    rw [settingEq]
    split <;> simp [written]
  simp only [List.mem_append, List.mem_cons, notPushing, notSetting, or_false, List.not_mem_nil]
  simp [written]

end Mercury.Sdk
