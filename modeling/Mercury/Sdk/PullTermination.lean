import Mercury.Gateway.DeltaPages
import Mercury.Sdk.PullCompleteness

/-!
# Whether the pull loop ends

The pull loop on an unchanged channel, against any readings of the server's clock. The cursor
moves to the clock, not to the last message of the page, so a page with messages later than the
clock is pulled again, and for as long as there are more than a page of them the loop goes on.
-/

namespace Mercury.Sdk

open Gateway Foundations Foundations.Program Persistence

/-- The readings of the server's clock in one sync request, in the order they are taken. -/
structure Readings where
  now : ℕ
  system : ℕ
  reading : ℕ
  fits : system < 256 ^ 8 ∧ reading < 256 ^ 8

/-- The clock of the server does not go back. -/
structure InOrder (clocks : ℕ → Readings) : Prop where
  within : ∀ round, (clocks round).now ≤ (clocks round).system ∧
    (clocks round).system ≤ (clocks round).reading
  between : ∀ round, (clocks round).reading ≤ (clocks (round + 1)).now

/-- The commands of a request are answered by the table and these readings. -/
def Readings.Admits (readings : Readings) (table : MessageTable) : Performed node Raise → Prop
  | ⟨.inl .systemTime, answer⟩ => answer = .ok readings.now
  | ⟨.inl (.selectMessages tenantId channelId bucketId limit), answer⟩ =>
      answer = .ok (.ok (table.select tenantId channelId bucketId limit))
  | ⟨.inr .systemTime, answer⟩ => answer = .ok readings.system
  | ⟨.inr .nativeTime, answer⟩ => answer = .ok readings.reading
  | _ => True

/-! ## One request -/

section Request

variable {codec : Codec} {native : Native} {channel : Channel} {tenantId : Id16}
  {channelId topic data : Bytes} {table : MessageTable} {since : ℕ} {readings : Readings}
  {made : List (Performed node Raise)}

/-- What a request finds that is newer than its cursor. -/
def found (table : MessageTable) (tenantId channelId : Bytes) (since : ℕ) (readings : Readings) :
    List MessageRow :=
  readMessages table tenantId channelId since 101 readings.now

/-- The page it is answered with. -/
def pageRows (table : MessageTable) (tenantId channelId : Bytes) (since : ℕ)
    (readings : Readings) : List MessageRow :=
  ((found table tenantId channelId since readings).insertionSort Older).take 100

/-- The reply to it. -/
def pulledReply (native : Native) (socket : Socket) (channelId : Bytes) (table : MessageTable)
    (since : ℕ) (readings : Readings) : SyncReply where
  mergedWall := max (max readings.reading readings.system) since
  hasMore := 100 < (found table socket.tenantId.val channelId since readings).length
  envelopes := ((pageRows table socket.tenantId.val channelId since readings).map
    MessageRow.message).map (encodeMessage native socket channelId)

/-- The frame of a sync request for a page of a hundred. -/
theorem exists_pullRequest {socket : Socket} {ref topicId : ℕ} {info : TopicInfo} (since : ℕ)
    (refFits : ref < 256 ^ 4) (topicFits : topicId < 256 ^ 2)
    (entry : socket.topicIds.lookup topicId = some info) (names : info.Names channelId) :
    ∃ request : SyncRequest socket channelId (since % 256 ^ 8)
        (pushFrame ref topicId Event.syncRequest (Channel.syncPayload since 100)),
      request.ref = ref ∧ request.topicId = topicId ∧ request.limit = 100 ∧
        request.lastCounter = 0 := by
  rcases syncPayload_reads since with ⟨full, sinceRead, limitRead, counterRead⟩
  exact ⟨⟨ref, topicId, Channel.syncPayload since 100, info,
      parse_pushFrame _ _ refFits topicFits, entry, names, (if_pos full).trans sinceRead⟩,
    rfl, rfl, (if_pos full).trans limitRead, (if_pos full).trans counterRead⟩

/-- Bucket queries that are answered from the table, read from it. -/
theorem readsFrom_of_admits {tenantId : Bytes} {answers : List BucketAnswer}
    (fits : FitBuckets since readings.now)
    (buckets : answers.map Prod.fst =
      Sync.bucketRange (TimeBucket.ofMs since) (TimeBucket.ofMs readings.now))
    (admits : ∀ answer ∈ answers,
      readings.Admits table (onNode (answer.query tenantId channelId 101))) :
    (tableAnswers table tenantId channelId).ReadsFrom since 101 readings.now
      (answers.map BucketAnswer.read) := by
  refine ⟨trivial, fits, ?_, ?_⟩
  · rw [← buckets, List.map_map]
    rfl
  · intro read readMem
    rcases List.mem_map.mp readMem with ⟨answer, answerMem, rfl⟩
    have answered : answer.2 = .ok (table.select tenantId channelId answer.1 101) :=
      Except.ok.inj (admits answer answerMem)
    change answer.2.toOption.getD [] = table.select tenantId channelId answer.1 101
    rw [answered]
    rfl

/-- A request that is answered from the table has the reply that the readings give. -/
theorem reply_of_performs {socket : Socket} {reply : SyncReply}
    (performs : ((syncReply native socket channelId since 100 0).through persistence).Performs
      made (.ok reply))
    (admits : ∀ taken ∈ made, readings.Admits table taken) :
    FitBuckets since readings.now ∧
      reply = pulledReply native socket channelId table since readings := by
  rcases syncReply_performs_iff.mp performs with
    ⟨commands, page, system, reading, merged, finds, merging, rfl, rfl⟩
  rcases getDeltas_performs_iff.mp finds with ⟨now, answers, fits, buckets, rfl, rfl⟩
  have nowEq : now = readings.now :=
    Except.ok.inj (admits (onNode ⟨.systemTime, .ok now⟩) (by simp))
  have systemEq : system = readings.system :=
    Except.ok.inj (admits ⟨.inr .systemTime, .ok system⟩ (by simp))
  have readingEq : reading = readings.reading :=
    Except.ok.inj (admits ⟨.inr .nativeTime, .ok reading⟩ (by simp))
  subst nowEq systemEq readingEq
  have reads_from := @readsFrom_of_admits _ _ _ _ socket.tenantId.val _ fits buckets
    fun answer answerMem => admits _ (by
      simp only [List.map_cons, List.map_map, List.cons_append, List.mem_cons,
        List.mem_append, List.mem_map]
      exact Or.inr (Or.inl ⟨answer, answerMem, rfl⟩))
  rcases @Hlc.merge_of_lt native.build readings.reading ⟨readings.system, 0, socket.userId⟩
    ⟨since, 0, socket.userId⟩ (by simp) (by simp) with ⟨counter, mergedEq⟩
  rw [mergedEq] at merging
  cases merging
  have pageEq := deltaPage_of_readsFrom reads_from
  refine ⟨fits, ?_⟩
  change SyncReply.mk _ (deltaPage since 100 readings.now _).hasMore
    ((deltaPage since 100 readings.now _).deltas.filterMap _) = _
  rw [pageEq]
  simp only [tablePage, pulledReply, pageRows, found, sortedMessages, Hlc.maxWall,
    List.filterMap_map, List.map_map]
  congr 1
  rw [← List.filterMap_eq_map]
  congr 1
  funext row
  exact encodeDelta_toDelta row.message

/-- Every request whose buckets fit is answered so. -/
theorem performs_reply (native : Native) (socket : Socket) (channelId : Bytes)
    (table : MessageTable) (fits : FitBuckets since readings.now) :
    ∃ made, ((syncReply native socket channelId since 100 0).through persistence).Performs made
        (.ok (pulledReply native socket channelId table since readings)) ∧
      ∀ taken ∈ made, readings.Admits table taken := by
  let answers : List BucketAnswer :=
    (Sync.bucketRange (TimeBucket.ofMs since) (TimeBucket.ofMs readings.now)).map fun bucketId =>
      (bucketId, .ok (table.select socket.tenantId.val channelId bucketId 101))
  have buckets : answers.map Prod.fst =
      Sync.bucketRange (TimeBucket.ofMs since) (TimeBucket.ofMs readings.now) := by
    simp [answers, Function.comp_def]
  have finds : (Sync.getDeltas socket.tenantId.val channelId since (min 100 100)).Performs _ _ :=
    getDeltas_performs_iff.mpr ⟨readings.now, answers, fits, buckets, rfl, rfl⟩
  rcases @Hlc.merge_of_lt native.build readings.reading ⟨readings.system, 0, socket.userId⟩
    ⟨since, 0, socket.userId⟩ (by simp) (by simp) with ⟨counter, merging⟩
  have performs := syncReply_performs_iff.mpr ⟨_, _, _, _, _, finds, merging, rfl, rfl⟩
  have admits : ∀ taken ∈ (⟨.systemTime, .ok readings.now⟩ ::
      answers.map (BucketAnswer.query socket.tenantId.val channelId 101)).map onNode ++
        [⟨.inr .systemTime, .ok readings.system⟩, ⟨.inr .nativeTime, .ok readings.reading⟩],
      readings.Admits table taken := by
    intro taken takenMem
    rcases List.mem_append.mp takenMem with command | clock
    · rcases List.mem_map.mp command with ⟨query, queryMem, rfl⟩
      rcases List.mem_cons.mp queryMem with rfl | queryMem
      · rfl
      · rcases List.mem_map.mp queryMem with ⟨answer, answerMem, rfl⟩
        rcases List.mem_map.mp answerMem with ⟨bucketId, -, rfl⟩
        rfl
    · simp only [List.mem_cons, List.not_mem_nil, or_false] at clock
      rcases clock with rfl | rfl
      · rfl
      · rfl
  rw [(reply_of_performs performs admits).2] at performs
  exact ⟨_, performs, admits⟩

/-- What the SDK reads in the reply. -/
def pulledPage (tenantId channelId : Bytes) (table : MessageTable) (since : ℕ)
    (readings : Readings) : SyncResult :=
  pageResult tenantId channelId
    ((pageRows table tenantId channelId since readings).map MessageRow.message)
    (max (max readings.reading readings.system) since)
    (decide (100 < (found table tenantId channelId since readings).length))

theorem mem_messagesOf_of_page {row : MessageRow}
    (rowMem : row ∈ pageRows table tenantId.val channelId since readings) :
    row ∈ messagesOf table tenantId.val channelId := by
  have inFound := (List.perm_insertionSort _ _).subset (List.mem_of_mem_take rowMem)
  exact (mem_newerMessages.mp (mem_readMessages.mp inFound).1).1

theorem readSyncReply_of_replied_at
    (legible : ∀ row ∈ messagesOf table tenantId.val channelId,
      codec.Reads native (messageEnvelope tenantId.val channelId row.message))
    (replied : Replied native tenantId channelId topic Event.syncRequest
      (Channel.syncPayload since 100) made data)
    (admits : ∀ taken ∈ made, readings.Admits table taken) :
    FitBuckets (since % 256 ^ 8) readings.now ∧
      Channel.readSyncReply codec data =
        some (pulledPage tenantId.val channelId table (since % 256 ^ 8) readings) := by
  rcases replied with @⟨socket, ref, topicId, info, reaction, rfl, refFits, topicFits, entry,
    joined, names, performs, pushed⟩
  rcases exists_pullRequest since refFits topicFits entry names with
    ⟨request, refEq, topicEq, limitEq, counterEq⟩
  rcases request.performs_iff.mp performs with ⟨result, replies, same⟩
  cases Except.ok.inj same
  rw [limitEq, counterEq] at replies
  have answered : (request.reaction result).pushed =
      [replyFrame request.ref request.topicId statusOk data] := by
    rw [pushed, refEq, topicEq]
  rcases result with raised | reply
  · exact absurd answered replyError_ne_ok
  rcases reply_of_performs replies admits with ⟨fits, rfl⟩
  cases (replyFrame_inj (List.singleton_inj.mp answered)).2
  refine ⟨fits, readSyncReply_page rfl ?_ ?_ ?_ rfl⟩
  · have := readings.fits
    have := Nat.mod_lt since (show 0 < 256 ^ 8 by decide)
    simp only [pulledReply]
    omega
  · rw [List.length_map]
    exact List.length_take_le _ _
  · intro msg msgMem
    rcases List.mem_map.mp msgMem with ⟨row, rowMem, rfl⟩
    exact legible row (mem_messagesOf_of_page rowMem)

/-- A request whose buckets fit can be answered. -/
theorem exists_replied_at {socket : Socket} {topicId : ℕ} {info : TopicInfo} (native : Native)
    (table : MessageTable) (connected : Connected channel channelId socket topicId info)
    (fits : FitBuckets (since % 256 ^ 8) readings.now) :
    ∃ made data, Replied native socket.tenantId channelId channel.topic Event.syncRequest
        (Channel.syncPayload since 100) made data ∧
      ∀ taken ∈ made, readings.Admits table taken := by
  rcases performs_reply native socket channelId table fits with ⟨made, replies, admits⟩
  rcases exists_pullRequest since (show 0 < 256 ^ 4 by decide) connected.topicFits
    connected.entry connected.names with ⟨request, refEq, topicEq, limitEq, counterEq⟩
  have asked : ((syncReply native socket channelId (since % 256 ^ 8) request.limit
      request.lastCounter).through persistence).Performs made
        (.ok (pulledReply native socket channelId table (since % 256 ^ 8) readings)) := by
    rw [limitEq, counterEq]
    exact replies
  have performs := request.performs_iff.mpr ⟨_, asked, rfl⟩
  have pushed : (request.reaction (.ok (pulledReply native socket channelId table
      (since % 256 ^ 8) readings))).pushed = [replyFrame 0 topicId statusOk
        (pulledReply native socket channelId table (since % 256 ^ 8) readings).encode] := by
    rw [SyncRequest.reaction, refEq, topicEq]
    rfl
  exact ⟨made, _, Replied.reply rfl (by decide) connected.topicFits connected.entry
    connected.joined connected.names performs pushed, admits⟩

end Request

/-! ## The loop -/

/-- A pull of an unchanged channel, from a cursor and against the readings of each request. -/
structure Pulling where
  tenantId : Id16
  channelId : Bytes
  table : MessageTable
  clocks : ℕ → Readings
  cursor : ℕ

namespace Pulling

variable (pulling : Pulling)

/-- The cursor that each request sends. -/
def wall : ℕ → ℕ
  | 0 => pulling.cursor % 256 ^ 8
  | round + 1 => max (max (pulling.clocks round).reading (pulling.clocks round).system)
      (wall round)

/-- The request can be answered: neither of its buckets is beyond 32 bits. -/
def Answered (round : ℕ) : Prop :=
  FitBuckets (pulling.wall round) (pulling.clocks round).now

/-- What the request finds. -/
def newer (round : ℕ) : List MessageRow :=
  found pulling.table pulling.tenantId.val pulling.channelId (pulling.wall round)
    (pulling.clocks round)

/-- The page it is answered with. -/
def page (round : ℕ) : List MessageRow :=
  ((pulling.newer round).insertionSort Older).take 100

/-- The answer says that there are more. -/
def HasMore (round : ℕ) : Prop :=
  100 < (pulling.newer round).length

instance (round : ℕ) : Decidable (pulling.HasMore round) :=
  inferInstanceAs (Decidable (100 < _))

/-- The request is made. -/
def Requested (round : ℕ) : Prop :=
  ∀ earlier < round, pulling.Answered earlier ∧ pulling.HasMore earlier

/-- What is stored of a page. -/
def stored (channelId : String) (round : ℕ) : List StoredMessage :=
  (pulling.page round).map fun row => pulledMessage channelId row.message

/-- The requests are answered in turn, from the table and their readings, and what is pulled
can be stored. -/
def Served (native : Native) : ℕ → List (Performed device Thrown) → Prop
  | _, [] => True
  | round, ⟨.push topic event payload, answer⟩ :: later =>
      (∃ made data, answer = .ok data ∧
        Replied native pulling.tenantId pulling.channelId topic event payload made data ∧
          ∀ taken ∈ made, (pulling.clocks round).Admits pulling.table taken) ∧
        Served native (round + 1) later
  | round, ⟨.writeMessage _, answer⟩ :: later => answer = .ok () ∧ Served native round later
  | round, _ :: later => Served native round later

end Pulling

/-- The sync requests among the calls. -/
def requestsIn (calls : List (Performed device Thrown)) : ℕ :=
  calls.countP fun taken =>
    match taken.call with
    | .push _ event _ => decide (event = Event.syncRequest)
    | _ => false

/-- The messages that are written to the local store, in order. -/
def writesIn (calls : List (Performed device Thrown)) : List StoredMessage :=
  calls.filterMap fun taken =>
    match taken.call with
    | .writeMessage stored => some stored
    | _ => none

theorem requestsIn_append (first later : List (Performed device Thrown)) :
    requestsIn (first ++ later) = requestsIn first + requestsIn later :=
  List.countP_append

theorem writesIn_append (first later : List (Performed device Thrown)) :
    writesIn (first ++ later) = writesIn first ++ writesIn later :=
  List.filterMap_append

theorem requestsIn_written (messages : List StoredMessage) :
    requestsIn (messages.map written) = 0 := by
  simp [requestsIn, written]

theorem writesIn_written (messages : List StoredMessage) :
    writesIn (messages.map written) = messages := by
  simp [writesIn, written, List.filterMap_map, Function.comp_def]

section Loop

variable {codec : Codec} {native : Native} {channel : Channel} {pulling : Pulling}
  {calls : List (Performed device Thrown)}

theorem served_written {round : ℕ} (messages : List StoredMessage)
    (later : List (Performed device Thrown)) :
    pulling.Served native round (messages.map written ++ later) ↔
      pulling.Served native round later := by
  induction messages with
  | nil => rfl
  | cons message rest ih =>
      rw [← ih]
      exact and_iff_right rfl

theorem wall_lt (pulling : Pulling) (round : ℕ) : pulling.wall round < 256 ^ 8 := by
  induction round with
  | zero => exact Nat.mod_lt _ (by decide)
  | succ round ih =>
      have := (pulling.clocks round).fits
      simp only [Pulling.wall]
      omega

/-- The writes of a page that can be stored. -/
theorem store_served {round : ℕ} {channelId : String} {deltas : List SyncDelta}
    {storing later : List (Performed device Thrown)} {outcome : Except Thrown Unit}
    (performs : (SyncEngine.store channelId deltas).Performs storing outcome)
    (served : pulling.Served native round (storing ++ later)) :
    storing = (deltas.map (SyncEngine.received channelId)).map written ∧ outcome = .ok () := by
  induction deltas generalizing storing with
  | nil => exact ⟨performs.1, performs.2⟩
  | cons delta rest ih =>
      rcases performs.of_resume with ⟨first, storing, done, rfl, writes, continues⟩
      rcases writes with ⟨answer, none, rfl, ends⟩
      rcases served with ⟨answerEq, served⟩
      subst answerEq
      rcases ends with ⟨rfl, rfl⟩
      rcases ih continues served with ⟨rfl, outcomeEq⟩
      exact ⟨rfl, outcomeEq⟩

theorem stored_pulledPage (channelId : String) (round : ℕ) :
    (pulledPage pulling.tenantId.val pulling.channelId pulling.table (pulling.wall round)
      (pulling.clocks round)).deltas.map (SyncEngine.received channelId) =
        pulling.stored channelId round := by
  simp only [pulledPage, pageResult, List.map_map]
  rfl

theorem hasMore_pulledPage (round : ℕ) :
    (pulledPage pulling.tenantId.val pulling.channelId pulling.table (pulling.wall round)
      (pulling.clocks round)).hasMore = decide (pulling.HasMore round) :=
  rfl

/-- The requests of a round and of those after it. -/
theorem requestsIn_round {asking : Performed device Thrown} (isRequest : requestsIn [asking] = 1)
    (messages : List StoredMessage) (later : List (Performed device Thrown)) :
    requestsIn (asking :: (messages.map written ++ later)) = requestsIn later + 1 := by
  rw [← List.singleton_append, requestsIn_append, requestsIn_append, requestsIn_written, isRequest]
  omega

/-- The writes of a round and of those after it. -/
theorem writesIn_round {asking : Performed device Thrown} (noWrite : writesIn [asking] = [])
    (messages : List StoredMessage) (later : List (Performed device Thrown)) :
    writesIn (asking :: (messages.map written ++ later)) = messages ++ writesIn later := by
  rw [← List.singleton_append, writesIn_append, writesIn_append, writesIn_written, noWrite]
  rfl

variable (legible : ∀ row ∈ messagesOf pulling.table pulling.tenantId.val pulling.channelId,
  codec.Reads native (messageEnvelope pulling.tenantId.val pulling.channelId row.message))

include legible

/-- One round of the loop. -/
theorem pull_round {rounds round cursor : ℕ} {outcome : Except Thrown (ℕ × ℕ)}
    (cursorEq : cursor % 256 ^ 8 = pulling.wall round)
    (performs : (SyncEngine.pull codec channel channel.channelId (rounds + 1) cursor).Performs
      calls outcome)
    (served : pulling.Served native round calls) :
    pulling.Answered round ∧ ∃ asking later, requestsIn [asking] = 1 ∧ writesIn [asking] = [] ∧
      calls = asking :: ((pulling.stored channel.channelId round).map written ++ later) ∧
      pulling.Served native (round + 1) later ∧
      if pulling.HasMore round then ∃ result, (SyncEngine.pull codec channel channel.channelId
        rounds (pulling.wall (round + 1))).Performs later result else later = [] := by
  rcases performs.of_resume with ⟨syncing, rest, result, rfl, syncs, continues⟩
  rcases syncs.of_resume with ⟨asking, reading, answer, rfl, asks, reads⟩
  rcases asks with ⟨answered, none, rfl, ends⟩
  rcases served with ⟨⟨made, data, rfl, replied, admits⟩, served⟩
  rcases ends with ⟨rfl, rfl⟩
  rcases readSyncReply_of_replied_at legible replied admits with ⟨fits, readEq⟩
  rw [cursorEq] at fits readEq
  simp only [orThrow, readEq] at reads
  rcases reads with ⟨rfl, rfl⟩
  refine ⟨fits, ?_⟩
  rcases continues.of_resume with ⟨storing, later, done, rfl, stores, continues⟩
  rcases store_served stores served with ⟨rfl, rfl⟩
  rw [stored_pulledPage] at served ⊢
  refine ⟨_, later, by simp [requestsIn], rfl, rfl, (served_written _ _).mp served, ?_⟩
  dsimp only at continues
  rw [hasMore_pulledPage] at continues
  by_cases more : pulling.HasMore round
  · rw [if_pos (decide_eq_true more)] at continues
    rw [if_pos more]
    rcases continues.of_resume with ⟨repeating, ending, result, rfl, repeats, ends⟩
    have none : ending = [] := by
      rcases result with raised | result
      · exact ends.1
      · exact ends.1
    rw [none, List.append_nil]
    exact ⟨result, repeats⟩
  · rw [if_neg (by simpa using more)] at continues
    rw [if_neg more]
    exact continues.1

/-- The rounds of a loop: each but the last has more, and their pages are what is written. -/
theorem pull_rounds {rounds round cursor : ℕ} {outcome : Except Thrown (ℕ × ℕ)}
    (cursorEq : cursor % 256 ^ 8 = pulling.wall round)
    (performs : (SyncEngine.pull codec channel channel.channelId rounds cursor).Performs
      calls outcome)
    (served : pulling.Served native round calls) :
    writesIn calls = (List.range' round (requestsIn calls)).flatMap
        (pulling.stored channel.channelId) ∧
      (∀ made, round ≤ made → made < round + requestsIn calls → pulling.Answered made) ∧
      ∀ made, round ≤ made → made + 1 < round + requestsIn calls → pulling.HasMore made := by
  induction rounds generalizing round cursor calls outcome with
  | zero =>
      rw [performs.1]
      refine ⟨rfl, ?_, ?_⟩
      · intro made low high
        have : requestsIn [] = 0 := rfl
        omega
      · intro made low high
        have : requestsIn [] = 0 := rfl
        omega
  | succ rounds ih =>
      rcases pull_round legible cursorEq performs served with
        ⟨answered, asking, later, isRequest, noWrite, rfl, served, continues⟩
      rw [requestsIn_round isRequest, writesIn_round noWrite, List.range'_succ, List.flatMap_cons]
      split at continues
      · next more =>
          rcases continues with ⟨result, repeats⟩
          rcases ih (Nat.mod_eq_of_lt (wall_lt pulling _)) repeats served with
            ⟨laterWrites, laterAnswered, laterMore⟩
          refine ⟨by rw [laterWrites], ?_, ?_⟩
          · intro made low high
            rcases Nat.eq_or_lt_of_le low with rfl | above
            · exact answered
            · exact laterAnswered made above (by omega)
          · intro made low high
            rcases Nat.eq_or_lt_of_le low with rfl | above
            · exact more
            · exact laterMore made above (by omega)
      · next noMore =>
          subst continues
          refine ⟨rfl, ?_, ?_⟩
          · intro made low high
            have : requestsIn [] = 0 := rfl
            have same : made = round := by omega
            exact same ▸ answered
          · intro made low high
            have : requestsIn [] = 0 := rfl
            omega

/-- The loop goes on for as long as there is more. -/
theorem le_requestsIn {rounds round cursor : ℕ} {outcome : Except Thrown (ℕ × ℕ)}
    (cursorEq : cursor % 256 ^ 8 = pulling.wall round)
    (performs : (SyncEngine.pull codec channel channel.channelId (rounds + 1) cursor).Performs
      calls outcome)
    (served : pulling.Served native round calls)
    (more : ∀ made, round ≤ made → made < round + rounds → pulling.HasMore made) :
    rounds < requestsIn calls := by
  induction rounds generalizing round cursor calls outcome with
  | zero =>
      rcases pull_round legible cursorEq performs served with
        ⟨-, asking, later, isRequest, -, rfl, -, -⟩
      rw [requestsIn_round isRequest]
      omega
  | succ rounds ih =>
      rcases pull_round legible cursorEq performs served with
        ⟨-, asking, later, isRequest, -, rfl, served, continues⟩
      rw [if_pos (more round (Nat.le_refl _) (by omega))] at continues
      rcases continues with ⟨result, repeats⟩
      have requests := ih (Nat.mod_eq_of_lt (wall_lt pulling _)) repeats served
        fun made low high => more made (by omega) (by omega)
      rw [requestsIn_round isRequest]
      omega

end Loop

section Execution

variable {codec : Codec} {native : Native} {channel : Channel} {pulling : Pulling}
  {socket : Socket} {topicId : ℕ} {info : TopicInfo}
  (connected : Connected channel pulling.channelId socket topicId info)
  (tenant : socket.tenantId = pulling.tenantId)
  (legible : ∀ row ∈ messagesOf pulling.table pulling.tenantId.val pulling.channelId,
    codec.Reads native (messageEnvelope pulling.tenantId.val pulling.channelId row.message))

include connected tenant legible

/-- A request whose buckets fit has an answer that the SDK reads. -/
theorem exists_answer {round cursor : ℕ}
    (cursorEq : cursor % 256 ^ 8 = pulling.wall round) (answered : pulling.Answered round) :
    ∃ made data result, Replied native pulling.tenantId pulling.channelId channel.topic
        Event.syncRequest (Channel.syncPayload cursor 100) made data ∧
      (∀ taken ∈ made, (pulling.clocks round).Admits pulling.table taken) ∧
      Channel.readSyncReply codec data = some result ∧
      (result.hasMore = true → pulling.HasMore round) ∧
      result.serverHlc = pulling.wall (round + 1) := by
  rw [← tenant] at legible ⊢
  have fits : FitBuckets (cursor % 256 ^ 8) (pulling.clocks round).now := by
    rw [cursorEq]
    exact answered
  rcases exists_replied_at native pulling.table connected fits with ⟨made, data, replied, admits⟩
  have readEq := (readSyncReply_of_replied_at legible replied admits).2
  rw [cursorEq, tenant] at readEq
  exact ⟨made, data, _, replied, admits, readEq, of_decide_eq_true, rfl⟩

/-- A request of the loop is answered, and the rest of the loop follows. -/
theorem exists_pull_round {rounds round cursor : ℕ}
    (cursorEq : cursor % 256 ^ 8 = pulling.wall round) (answered : pulling.Answered round)
    (continues : pulling.HasMore round → ∃ later outcome, (SyncEngine.pull codec channel
      channel.channelId rounds (pulling.wall (round + 1))).Performs later outcome ∧
        pulling.Served native (round + 1) later) :
    ∃ calls outcome, (SyncEngine.pull codec channel channel.channelId (rounds + 1)
      cursor).Performs calls outcome ∧ pulling.Served native round calls := by
  rcases exists_answer connected tenant legible cursorEq answered with
    ⟨made, data, result, replied, admits, readEq, moreEq, wallEq⟩
  have ends : ∃ later outcome, (if result.hasMore then
        SyncEngine.pull codec channel channel.channelId rounds result.serverHlc >>= fun later =>
          pure (result.deltas.length + later.1, later.2)
      else pure (result.deltas.length, result.serverHlc)).Performs later outcome ∧
        pulling.Served native (round + 1) later := by
    split
    · next more =>
        rcases continues (moreEq more) with ⟨later, outcome, repeats, served⟩
        rw [← wallEq] at repeats
        exact ⟨later, _, repeats.map, served⟩
    · exact ⟨[], _, ⟨rfl, rfl⟩, trivial⟩
  rcases ends with ⟨later, outcome, ends, served⟩
  refine ⟨_, outcome, Performs.bind (performs_sync readEq)
    (Performs.bind (performs_store result.deltas) ends), ⟨made, data, rfl, replied, admits⟩, ?_⟩
  have stored := (served_written (result.deltas.map (SyncEngine.received channel.channelId))
    later).mpr served
  rwa [List.map_map] at stored

/-- Requests that can be answered follow each other. -/
theorem exists_pull_rounds {rounds round cursor : ℕ}
    (cursorEq : cursor % 256 ^ 8 = pulling.wall round)
    (answered : ∀ made, round ≤ made → made < round + rounds → pulling.Answered made) :
    ∃ calls outcome, (SyncEngine.pull codec channel channel.channelId rounds
      cursor).Performs calls outcome ∧ pulling.Served native round calls := by
  induction rounds generalizing round cursor with
  | zero => exact ⟨[], _, ⟨rfl, rfl⟩, trivial⟩
  | succ rounds ih =>
      refine exists_pull_round connected tenant legible cursorEq
        (answered round (Nat.le_refl _) (by omega)) fun _ => ?_
      exact ih (Nat.mod_eq_of_lt (wall_lt pulling _))
        fun made low high => answered made (by omega) (by omega)

end Execution

/-! ## Pages that are pulled again -/

namespace Pulling

variable {pulling : Pulling}

theorem wall_le_succ (round : ℕ) : pulling.wall round ≤ pulling.wall (round + 1) :=
  le_max_right _ _

theorem wall_mono : Monotone pulling.wall :=
  monotone_nat_of_le_succ wall_le_succ

theorem mem_newer {round : ℕ} {row : MessageRow} :
    row ∈ pulling.newer round ↔
      row ∈ newerMessages pulling.table pulling.tenantId.val pulling.channelId
        (pulling.wall round) ∧
      row.bucketId ∈ Sync.bucketRange (TimeBucket.ofMs (pulling.wall round))
        (TimeBucket.ofMs (pulling.clocks round).now) ∧
      row ∈ pulling.table.select pulling.tenantId.val pulling.channelId row.bucketId 101 :=
  mem_readMessages

theorem mem_newer_of_page {round : ℕ} {row : MessageRow} (rowMem : row ∈ pulling.page round) :
    row ∈ pulling.newer round :=
  (List.perm_insertionSort _ _).subset (List.mem_of_mem_take rowMem)

theorem nodup_page (round : ℕ) : (pulling.page round).Nodup :=
  ((List.perm_insertionSort _ _).nodup_iff.mpr nodup_readMessages).sublist
    (List.take_sublist _ _)

theorem length_page {round : ℕ} (more : pulling.HasMore round) :
    (pulling.page round).length = 100 := by
  have more : 100 < (pulling.newer round).length := more
  rw [page, List.length_take, List.length_insertionSort]
  omega

/-- What a row of the found ones is, by the times. -/
theorem newer_spec (bucketed : Bucketed pulling.table pulling.tenantId.val pulling.channelId)
    {round : ℕ} {row : MessageRow} (rowMem : row ∈ pulling.newer round) :
    pulling.wall round < row.message.createdAt ∧
      row.bucketId = TimeBucket.ofMs row.message.createdAt := by
  rcases mem_newerMessages.mp (mem_newer.mp rowMem).1 with ⟨held, newer⟩
  exact ⟨newer, (TimeBucket.compute_eq_ok.mp (bucketed row held)).1⟩

end Pulling

theorem mem_bucketRange_iff {bucketId first last : ℕ} :
    bucketId ∈ Sync.bucketRange first last ↔
      min first last ≤ bucketId ∧ bucketId ≤ max first last := by
  unfold Sync.bucketRange
  split
  · rw [List.mem_range'_1]
    omega
  · rw [List.mem_reverse, List.mem_range'_1]
    omega

section Overlap

variable {pulling : Pulling} {round : ℕ}
  (bucketed : Bucketed pulling.table pulling.tenantId.val pulling.channelId)
  (ordered : InOrder pulling.clocks)

/-- Two messages of a bucket stand in what is found as they stand in the bucket. -/
theorem pair_sublist_newer {first second : MessageRow} (firstMem : first ∈ pulling.newer round)
    (secondMem : second ∈ pulling.newer round)
    (inBucket : [first, second].Sublist
      (pulling.table.select pulling.tenantId.val pulling.channelId first.bucketId 101)) :
    [first, second].Sublist (pulling.newer round) := by
  have newer : ∀ row ∈ [first, second], decide (pulling.wall round < row.message.createdAt) := by
    intro row rowMem
    simp only [List.mem_cons, List.not_mem_nil, or_false] at rowMem
    rcases rowMem with rfl | rfl
    · simpa using (mem_newerMessages.mp (Pulling.mem_newer.mp firstMem).1).2
    · simpa using (mem_newerMessages.mp (Pulling.mem_newer.mp secondMem).1).2
  have kept := inBucket.filter fun row => decide (pulling.wall round < row.message.createdAt)
  rw [List.filter_eq_self.mpr newer] at kept
  apply kept.trans
  rw [Pulling.newer, found, readMessages, List.flatMap_def]
  exact List.sublist_flatten_of_mem
    (List.mem_map_of_mem (Pulling.mem_newer.mp firstMem).2.1)

include bucketed ordered

/-- A page that reaches beyond the next cursor shares a message with the next page. -/
theorem exists_shared {row : MessageRow} (rowMem : row ∈ pulling.page round)
    (beyond : pulling.wall (round + 1) < row.message.createdAt) :
    ∃ shared ∈ pulling.page round, shared ∈ pulling.page (round + 1) := by
  have inNewer := Pulling.mem_newer_of_page rowMem
  rcases Pulling.mem_newer.mp inNewer with ⟨newer, inRange, selected⟩
  have rowBucket := (Pulling.newer_spec bucketed inNewer).2
  have held := (mem_newerMessages.mp newer).1
  rw [mem_bucketRange_iff] at inRange
  -- how the cursors and the clocks of the two rounds lie
  have cursors := TimeBucket.ofMs_mono (pulling.wall_le_succ round)
  have clocks : TimeBucket.ofMs (pulling.clocks round).now ≤
      TimeBucket.ofMs (pulling.clocks (round + 1)).now := by
    have within := ordered.within round
    have between := ordered.between round
    exact TimeBucket.ofMs_mono (by omega)
  have reaches := TimeBucket.ofMs_mono beyond.le
  have kept : row ∈ pulling.newer (round + 1) := by
    refine Pulling.mem_newer.mpr ⟨mem_newerMessages.mpr ⟨held, beyond⟩, ?_, selected⟩
    rw [mem_bucketRange_iff]
    omega
  have known : ∀ other ∈ pulling.newer (round + 1), Older other row →
      other ∈ pulling.newer round := by
    intro other otherMem older
    rcases Pulling.mem_newer.mp otherMem with ⟨otherNewer, otherRange, otherSelected⟩
    rcases Pulling.newer_spec bucketed otherMem with ⟨otherBeyond, otherBucket⟩
    have low := TimeBucket.ofMs_mono otherBeyond.le
    have high := TimeBucket.ofMs_mono older
    have cursor := pulling.wall_le_succ round
    rw [mem_bucketRange_iff] at otherRange
    refine Pulling.mem_newer.mpr ⟨mem_newerMessages.mpr
      ⟨(mem_newerMessages.mp otherNewer).1, by omega⟩, ?_, otherSelected⟩
    rw [mem_bucketRange_iff]
    omega
  refine exists_mem_both_prefixes (by decide) nodup_readMessages nodup_readMessages rowMem kept
    known ?_
  intro other otherMem older younger apart
  have otherSelected := (Pulling.mem_newer.mp otherMem).2.2
  have times : other.message.createdAt = row.message.createdAt := le_antisymm older younger
  have buckets : other.bucketId = row.bucketId := by
    rw [(Pulling.newer_spec bucketed otherMem).2, rowBucket, times]
  rw [buckets] at otherSelected
  rcases pair_sublist_or selected otherSelected apart.symm with forward | backward
  · exact Or.inl (pair_sublist_newer kept otherMem forward)
  · right
    apply pair_sublist_newer (known other otherMem older) inNewer
    rw [buckets]
    exact backward

end Overlap

/-! ## When it ends -/

/-- Where a request tells of more and the next one is answered, there is a page of messages it
finds that are not later than the next cursor. -/
def Pulling.PagesPassed (pulling : Pulling) : Prop :=
  ∀ round, pulling.Requested round → pulling.Answered round → pulling.HasMore round →
    pulling.Answered (round + 1) → 100 ≤ (pulling.newer round).countP fun row =>
      row.message.createdAt ≤ pulling.wall (round + 1)

/-- The loop makes finitely many requests, and stores no message twice, however many rounds
of it are run. -/
def Pulling.Ends (pulling : Pulling) (codec : Codec) (native : Native) (channel : Channel) : Prop :=
  (∃ bound, ∀ rounds calls outcome,
    (SyncEngine.pull codec channel channel.channelId rounds pulling.cursor).Performs calls
      outcome → pulling.Served native 0 calls → requestsIn calls ≤ bound) ∧
  ∀ rounds calls outcome,
    (SyncEngine.pull codec channel channel.channelId rounds pulling.cursor).Performs calls
      outcome → pulling.Served native 0 calls → (writesIn calls).Nodup

section Ends

variable {codec : Codec} {native : Native} {channel : Channel} {pulling : Pulling}

/-- What is pulled of two messages of the channel tells them apart. -/
theorem eq_of_pulled_eq (bucketed : Bucketed pulling.table pulling.tenantId.val pulling.channelId)
    {channelId : String} {left right : MessageRow}
    (leftMem : left ∈ messagesOf pulling.table pulling.tenantId.val pulling.channelId)
    (rightMem : right ∈ messagesOf pulling.table pulling.tenantId.val pulling.channelId)
    (same : pulledMessage channelId left.message = pulledMessage channelId right.message) :
    left = right := by
  have ids : left.message.messageId = right.message.messageId :=
    bytesToHex_injective (congrArg StoredMessage.messageId same)
  have times : left.message.createdAt = right.message.createdAt :=
    congrArg StoredMessage.timestamp same
  have buckets := bucketed left leftMem
  rw [times, bucketed right rightMem] at buckets
  rw [mem_messagesOf] at leftMem rightMem
  apply KeyedTable.eq_of_key_eq leftMem.1 rightMem.1
  simp [MessageRow.key, leftMem.2, rightMem.2, ids, Except.ok.inj buckets]

theorem held_of_page {round : ℕ} {row : MessageRow} (rowMem : row ∈ pulling.page round) :
    row ∈ messagesOf pulling.table pulling.tenantId.val pulling.channelId ∧
      pulling.wall round < row.message.createdAt :=
  mem_newerMessages.mp (Pulling.mem_newer.mp (Pulling.mem_newer_of_page rowMem)).1

/-- Rounds whose pages are passed by the next cursor. -/
def Pulling.Passed (pulling : Pulling) (round : ℕ) : Prop :=
  ∀ row ∈ pulling.page round, row.message.createdAt ≤ pulling.wall (round + 1)

theorem disjoint_pages {first second : ℕ} (passed : pulling.Passed first)
    (before : first < second) : List.Disjoint (pulling.page first) (pulling.page second) := by
  intro row inFirst inSecond
  have reached := passed row inFirst
  have later := (held_of_page inSecond).2
  have cursors : pulling.wall (first + 1) ≤ pulling.wall second := pulling.wall_mono before
  omega

/-- The pages of rounds that are passed but for the last repeat nothing. -/
theorem nodup_pages {rounds : ℕ} (passed : ∀ round, round + 1 < rounds → pulling.Passed round) :
    ((List.range' 0 rounds).flatMap pulling.page).Nodup := by
  refine List.nodup_flatMap.mpr ⟨fun round _ => pulling.nodup_page round, ?_⟩
  have increasing : (List.range' 0 rounds).Pairwise (· < ·) := List.pairwise_lt_range'
  apply increasing.imp_of_mem
  intro first second _ secondMem before
  rw [List.mem_range'_1] at secondMem
  exact disjoint_pages (passed first (by omega)) before

theorem stored_flatMap (channelId : String) (rounds : List ℕ) :
    rounds.flatMap (pulling.stored channelId) =
      (rounds.flatMap pulling.page).map fun row => pulledMessage channelId row.message := by
  rw [List.map_flatMap]
  rfl

theorem held_of_pages {rounds : List ℕ} {row : MessageRow}
    (rowMem : row ∈ rounds.flatMap pulling.page) :
    row ∈ messagesOf pulling.table pulling.tenantId.val pulling.channelId := by
  rcases List.mem_flatMap.mp rowMem with ⟨round, -, inPage⟩
  exact (held_of_page inPage).1

/-- Rounds with a full page each, that are passed, are at most as many as the messages. -/
theorem rounds_le {rounds : ℕ} (passed : ∀ round, round + 1 < rounds → pulling.Passed round)
    (more : ∀ round < rounds, pulling.HasMore round) :
    rounds ≤ (messagesOf pulling.table pulling.tenantId.val pulling.channelId).length := by
  have within : (List.range' 0 rounds).flatMap pulling.page ⊆
      messagesOf pulling.table pulling.tenantId.val pulling.channelId :=
    fun row rowMem => held_of_pages rowMem
  have counted := (List.subperm_of_subset (nodup_pages passed) within).length_le
  have full : ∀ round ∈ List.range' 0 rounds, (pulling.page round).length = 100 := by
    intro round roundMem
    rw [List.mem_range'_1] at roundMem
    exact Pulling.length_page (more round (by omega))
  rw [List.length_flatMap, List.map_congr_left full, List.map_const', List.sum_replicate,
    List.length_range'] at counted
  have total : rounds • 100 = rounds * 100 := rfl
  omega

/-- The pages of a run whose pages are passed. -/
theorem ends_of_pagesPassed
    (bucketed : Bucketed pulling.table pulling.tenantId.val pulling.channelId)
    (legible : ∀ row ∈ messagesOf pulling.table pulling.tenantId.val pulling.channelId,
      codec.Reads native (messageEnvelope pulling.tenantId.val pulling.channelId row.message))
    (passes : pulling.PagesPassed) : pulling.Ends codec native channel := by
  have passed : ∀ {rounds calls outcome}, (SyncEngine.pull codec channel channel.channelId rounds
      pulling.cursor).Performs calls outcome → pulling.Served native 0 calls →
        ∀ round, round + 1 < requestsIn calls → pulling.Passed round := by
    intro rounds calls outcome performs served round before
    rcases pull_rounds legible rfl performs served with ⟨-, answered, more⟩
    have requested : pulling.Requested round := fun earlier earlierLt =>
      ⟨answered earlier (Nat.zero_le _) (by omega), more earlier (Nat.zero_le _) (by omega)⟩
    have enough := passes round requested (answered round (Nat.zero_le _) (by omega))
      (more round (Nat.zero_le _) (by omega)) (answered (round + 1) (Nat.zero_le _) (by omega))
    rw [← (List.perm_insertionSort Older _).countP_eq] at enough
    exact forall_take_of_le_countP (fun _ _ older reached => le_trans older reached)
      (List.pairwise_insertionSort Older _) enough
  constructor
  · refine ⟨(messagesOf pulling.table pulling.tenantId.val pulling.channelId).length + 1, ?_⟩
    intro rounds calls outcome performs served
    rcases pull_rounds legible rfl performs served with ⟨-, -, more⟩
    have bound := @rounds_le pulling (requestsIn calls - 1)
      (fun round before => passed performs served round (by omega))
      (fun round before => more round (Nat.zero_le _) (by omega))
    omega
  · intro rounds calls outcome performs served
    rcases pull_rounds legible rfl performs served with ⟨writes, -, -⟩
    rw [writes, stored_flatMap]
    refine (nodup_pages (passed performs served)).map_on ?_
    intro left leftMem right rightMem same
    exact eq_of_pulled_eq bucketed (held_of_pages leftMem) (held_of_pages rightMem) same

/-- Where a page reaches beyond the next cursor, some run stores one of its messages twice. -/
theorem pagesPassed_of_ends {socket : Socket} {topicId : ℕ} {info : TopicInfo}
    (connected : Connected channel pulling.channelId socket topicId info)
    (tenant : socket.tenantId = pulling.tenantId)
    (bucketed : Bucketed pulling.table pulling.tenantId.val pulling.channelId)
    (legible : ∀ row ∈ messagesOf pulling.table pulling.tenantId.val pulling.channelId,
      codec.Reads native (messageEnvelope pulling.tenantId.val pulling.channelId row.message))
    (ordered : InOrder pulling.clocks) (ends : pulling.Ends codec native channel) :
    pulling.PagesPassed := by
  intro round requested answered more answeredNext
  rw [← (List.perm_insertionSort Older _).countP_eq]
  have more' : 100 < (pulling.newer round).length := more
  apply le_countP_of_forall_take (by rw [List.length_insertionSort]; omega)
  intro row rowMem
  by_contra beyond
  rcases exists_shared bucketed ordered rowMem (not_le.mp beyond) with
    ⟨shared, inPage, inNext⟩
  have allAnswered : ∀ made, 0 ≤ made → made < 0 + (round + 2) → pulling.Answered made := by
    intro made _ high
    rcases Nat.lt_trichotomy made round with before | rfl | after
    · exact (requested made before).1
    · exact answered
    · have last : made = round + 1 := by omega
      exact last ▸ answeredNext
  rcases exists_pull_rounds connected tenant legible rfl allAnswered with
    ⟨calls, outcome, performs, served⟩
  have requests := le_requestsIn legible rfl performs served (by
    intro made _ high
    rcases Nat.lt_or_ge made round with before | after
    · exact (requested made before).2
    · have last : made = round := by omega
      exact last ▸ more)
  have distinct := ends.2 _ _ _ performs served
  rw [(pull_rounds legible rfl performs served).1] at distinct
  have apart := (List.nodup_flatMap.mp distinct).2
  have inRounds : ∀ made, made < requestsIn calls → made ∈ List.range' 0 (requestsIn calls) :=
    fun made high => List.mem_range'_1.mpr ⟨Nat.zero_le _, by omega⟩
  have symmetric : Std.Symm (Function.onFun List.Disjoint (pulling.stored channel.channelId)) :=
    ⟨fun _ _ disjoint => disjoint.symm⟩
  have disjoint := apart.forall (inRounds round (by omega)) (inRounds (round + 1) (by omega))
    (by omega)
  exact disjoint (List.mem_map_of_mem inPage) (List.mem_map_of_mem inNext)

end Ends

/-- The pull loop makes finitely many requests and stores no message twice exactly when
wherever a request tells of more there is a page of messages not later than the next cursor. -/
theorem pull_ends_iff (codec : Codec) (native : Native) (channel : Channel) (pulling : Pulling)
    (socket : Socket) (topicId : ℕ) (info : TopicInfo)
    (connected : Connected channel pulling.channelId socket topicId info)
    (tenant : socket.tenantId = pulling.tenantId)
    (bucketed : Bucketed pulling.table pulling.tenantId.val pulling.channelId)
    (legible : ∀ row ∈ messagesOf pulling.table pulling.tenantId.val pulling.channelId,
      codec.Reads native (messageEnvelope pulling.tenantId.val pulling.channelId row.message))
    (ordered : InOrder pulling.clocks) :
    pulling.Ends codec native channel ↔ pulling.PagesPassed :=
  ⟨pagesPassed_of_ends connected tenant bucketed legible ordered,
    ends_of_pagesPassed bucketed legible⟩

/-! ### A clock that stands behind the messages -/

/-- The clock stands at 0. -/
def standingClock : Readings where
  now := 0
  system := 0
  reading := 0
  fits := by decide

/-- The clock stands at 1000. -/
def lateClock : Readings where
  now := 1000
  system := 1000
  reading := 1000
  fits := by decide

/-- A pull of numbered messages. -/
def numberedPull (count : Fin 1000) (clock : Readings) : Pulling where
  tenantId := .replicate 1
  channelId := (Id16.replicate 7).val
  table := numberedTable count
  clocks := fun _ => clock
  cursor := 0

/-- All messages are later than the clock. -/
def earlyPull (count : Fin 1000) : Pulling :=
  numberedPull count standingClock

/-- No message is later than the clock. -/
def latePull (count : Fin 1000) : Pulling :=
  numberedPull count lateClock

theorem inOrder_standing : InOrder fun _ => standingClock where
  within _ := ⟨Nat.le_refl 0, Nat.le_refl 0⟩
  between _ := Nat.le_refl 0

theorem inOrder_late : InOrder fun _ => lateClock where
  within _ := ⟨Nat.le_refl 1000, Nat.le_refl 1000⟩
  between _ := Nat.le_refl 1000

/-- The first request finds the messages, when they are no more than are read of a bucket. -/
theorem le_length_newer (count : Fin 1000) (clock : Readings) (few : count.val ≤ 101) :
    count.val ≤ ((numberedPull count clock).newer 0).length := by
  have length : (numberedTable count).rows.length = count := by simp [numberedTable]
  have newer : newerMessages (numberedTable count) (Id16.replicate 1).val (Id16.replicate 7).val
      0 = (numberedTable count).rows := newerMessages_numbered count
  have found : (numberedTable count).rows ⊆ (numberedPull count clock).newer 0 := by
    intro row rowMem
    rw [← newer] at rowMem
    have held := (mem_newerMessages.mp rowMem).1
    have selected := mem_select_of_length_le held (length.trans_le few)
    refine Pulling.mem_newer.mpr ⟨rowMem, ?_, selected⟩
    rcases mem_numbered.mp held with ⟨number, -, rfl⟩
    have first : (numberedPull count clock).wall 0 = 0 := rfl
    exact mem_bucketRange_iff.mpr ⟨by simp [first, TimeBucket.ofMs], Nat.zero_le _⟩
  have distinct : (numberedTable count).rows.Nodup := (numberedTable count).unique.of_map _
  have counted := (List.subperm_of_subset distinct found).length_le
  omega

/-- Of 101 messages that are not later than the clock a second page is asked for, and the pull
ends. -/
theorem pull_ends_of_late :
    (latePull 101).HasMore 0 ∧
      (latePull 101).Ends (numberedCodec 101) (Capnp.native [] []) numberedChannel := by
  refine ⟨le_length_newer 101 lateClock (by decide), ?_⟩
  refine (pull_ends_iff _ _ _ (latePull 101) (memberSocket 2) 1 _ connected_numbered rfl
    (bucketed_numbered 101) (legible_numbered 101) inOrder_late).mpr ?_
  intro round _ _ more _
  have more : 100 < ((latePull 101).newer round).length := more
  have passed : ∀ row ∈ (latePull 101).newer round,
      row.message.createdAt ≤ (latePull 101).wall (round + 1) := by
    intro row rowMem
    have held := (mem_newerMessages.mp (Pulling.mem_newer.mp rowMem).1).1
    rcases mem_numbered.mp held with ⟨number, below, rfl⟩
    have reached : 1000 ≤ (latePull 101).wall (round + 1) :=
      (le_max_left 1000 1000).trans (le_max_left _ _)
    have early : number + 1 ≤ 1000 := below.trans (by decide)
    exact early.trans reached
  rw [List.countP_eq_length.mpr fun row rowMem => decide_eq_true (passed row rowMem)]
  exact more.le

/-- A pull of 101 messages that are later than the clock is not at an end. -/
theorem early_messages_pulled_again :
    ¬∀ (codec : Codec) (native : Native) (channel : Channel) (pulling : Pulling)
        (socket : Socket) (topicId : ℕ) (info : TopicInfo),
      Connected channel pulling.channelId socket topicId info →
      socket.tenantId = pulling.tenantId →
      Bucketed pulling.table pulling.tenantId.val pulling.channelId →
      (∀ row ∈ messagesOf pulling.table pulling.tenantId.val pulling.channelId,
        codec.Reads native (messageEnvelope pulling.tenantId.val pulling.channelId row.message)) →
      InOrder pulling.clocks → pulling.Ends codec native channel := by
  intro ends
  have ended := ends _ _ _ (earlyPull 101) _ _ _ connected_numbered rfl (bucketed_numbered 101)
    (legible_numbered 101) inOrder_standing
  have passes := (pagesPassed_of_ends connected_numbered rfl (bucketed_numbered 101)
    (legible_numbered 101) inOrder_standing ended) 0
      (fun _ before => absurd before (Nat.not_lt_zero _)) ⟨by decide, by decide⟩
      (le_length_newer 101 standingClock (by decide)) ⟨by decide, by decide⟩
  have none : ((earlyPull 101).newer 0).countP
      (fun row => row.message.createdAt ≤ (earlyPull 101).wall (0 + 1)) = 0 := by
    apply List.countP_eq_zero.mpr
    intro row rowMem
    have held := (mem_newerMessages.mp (Pulling.mem_newer.mp rowMem).1).1
    rcases mem_numbered.mp held with ⟨number, -, rfl⟩
    exact of_decide_eq_false rfl
  omega

end Mercury.Sdk
