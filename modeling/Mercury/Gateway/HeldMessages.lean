import Mathlib.Data.List.Nodup
import Mercury.Gateway.SyncReplies

/-!
# What a sync request finds of an unchanged channel

Where the messages of a channel do not change and every bucket read succeeds, a
page holds every message newer than the cursor exactly when there are at most as
many as fit a page, and each is among the rows that are read of its bucket.
-/

namespace Mercury.Gateway

open Foundations Foundations.Program Persistence

/-- The messages of a channel. -/
def messagesOf (table : MessageTable) (tenantId channelId : Bytes) : List MessageRow :=
  table.rows.filter fun row => row.tenantId = tenantId ∧ row.channelId = channelId

/-- Those newer than `since`. -/
def newerMessages (table : MessageTable) (tenantId channelId : Bytes) (since : ℕ) :
    List MessageRow :=
  (messagesOf table tenantId channelId).filter fun row => since < row.message.createdAt

/-- Every message of the channel is in the bucket of its time. -/
def Bucketed (table : MessageTable) (tenantId channelId : Bytes) : Prop :=
  ∀ row ∈ messagesOf table tenantId channelId,
    TimeBucket.compute row.message.createdAt = .ok row.bucketId

/-- The answers where the table stays as it is and no message is later than the clock. -/
def heldAnswers (table : MessageTable) (tenantId channelId : Bytes) : SyncAnswers where
  clock now := now < 256 ^ 8 ∧
    ∀ row ∈ messagesOf table tenantId channelId, row.message.createdAt ≤ now
  bucket bucketId limit rows := rows = table.select tenantId channelId bucketId limit

section

variable {table : MessageTable} {tenantId channelId : Bytes} {since limit now : ℕ}
  {reads : List BucketRead}

theorem mem_messagesOf {row : MessageRow} : row ∈ messagesOf table tenantId channelId ↔
    row ∈ table ∧ row.tenantId = tenantId ∧ row.channelId = channelId := by
  simp [messagesOf, KeyedTable.mem_def]

theorem mem_newerMessages {row : MessageRow} :
    row ∈ newerMessages table tenantId channelId since ↔
      row ∈ messagesOf table tenantId channelId ∧ since < row.message.createdAt := by
  simp [newerMessages]

theorem mem_newerOf {msg : Message} : msg ∈ newerOf since reads ↔
    ∃ read ∈ reads, ∃ row ∈ read.2, row.message = msg ∧ since < msg.createdAt := by
  simp only [newerOf, List.mem_flatMap, List.mem_filter, List.mem_map, decide_eq_true_eq]
  constructor
  · rintro ⟨read, readMem, ⟨row, rowMem, same⟩, newer⟩
    exact ⟨read, readMem, row, rowMem, same, newer⟩
  · rintro ⟨read, readMem, row, rowMem, same, newer⟩
    exact ⟨read, readMem, ⟨row, rowMem, same⟩, newer⟩

theorem mem_of_mem_select {bucketId : ℕ} {row : MessageRow}
    (rowMem : row ∈ table.select tenantId channelId bucketId limit) :
    row ∈ messagesOf table tenantId channelId ∧ row.bucketId = bucketId := by
  have inPartition : row ∈ table.partition tenantId channelId bucketId :=
    (List.perm_insertionSort _ _).subset (List.mem_of_mem_take rowMem)
  simp only [MessageTable.partition, List.mem_filter, decide_eq_true_eq] at inPartition
  exact ⟨mem_messagesOf.mpr ⟨inPartition.1, inPartition.2.1, inPartition.2.2.1⟩,
    inPartition.2.2.2⟩

/-- A read of as many rows as there are finds each message of its bucket. -/
theorem mem_select_of_length_le {row : MessageRow}
    (rowMem : row ∈ messagesOf table tenantId channelId) (few : table.rows.length ≤ limit) :
    row ∈ table.select tenantId channelId row.bucketId limit := by
  rw [mem_messagesOf] at rowMem
  have inPartition : row ∈ table.partition tenantId channelId row.bucketId := by
    simp only [MessageTable.partition, List.mem_filter, decide_eq_true_eq]
    exact ⟨rowMem.1, rowMem.2.1, rowMem.2.2, trivial⟩
  have all : (table.partition tenantId channelId row.bucketId).length ≤ limit :=
    (List.length_filter_le _ _).trans few
  rw [MessageTable.select, List.take_of_length_le (by rwa [List.length_insertionSort])]
  exact (List.perm_insertionSort _ _).mem_iff.mpr inPartition

theorem nodup_select {bucketId : ℕ} :
    (table.select tenantId channelId bucketId limit).Nodup := by
  have rows : table.rows.Nodup := List.Nodup.of_map _ table.unique
  exact ((List.perm_insertionSort _ _).nodup_iff.mpr (rows.filter _)).sublist
    (List.take_sublist _ _)

/-- A message of the channel is held once. -/
theorem eq_of_message_eq (bucketed : Bucketed table tenantId channelId) {left right : MessageRow}
    (leftMem : left ∈ messagesOf table tenantId channelId)
    (rightMem : right ∈ messagesOf table tenantId channelId)
    (same : left.message = right.message) : left = right := by
  have leftBucket := bucketed left leftMem
  rw [same, bucketed right rightMem] at leftBucket
  have buckets : right.bucketId = left.bucketId := Except.ok.inj leftBucket
  rw [mem_messagesOf] at leftMem rightMem
  apply KeyedTable.eq_of_key_eq leftMem.1 rightMem.1
  simp [MessageRow.key, leftMem.2, rightMem.2, buckets, same]

theorem nodup_bucketRange (first last : ℕ) : (Sync.bucketRange first last).Nodup := by
  unfold Sync.bucketRange
  split
  · exact List.nodup_range'
  · exact List.nodup_reverse.mpr List.nodup_range'

/-- A message that is newer than the cursor and not later than the clock is in the range. -/
theorem mem_bucketRange {createdAt bucketId : ℕ}
    (bucketEq : TimeBucket.compute createdAt = .ok bucketId) (newer : since < createdAt)
    (reached : createdAt ≤ now) :
    bucketId ∈ Sync.bucketRange (TimeBucket.ofMs since) (TimeBucket.ofMs now) := by
  rw [(TimeBucket.compute_eq_ok.mp bucketEq).1]
  have low := TimeBucket.ofMs_mono (Nat.le_of_lt newer)
  have high := TimeBucket.ofMs_mono reached
  rw [Sync.bucketRange, if_pos (low.trans high), List.mem_range'_1]
  omega

variable (reads_from : (heldAnswers table tenantId channelId).ReadsFrom since limit now reads)

include reads_from

theorem exists_of_mem_newerOf {msg : Message} (msgMem : msg ∈ newerOf since reads) :
    ∃ row ∈ newerMessages table tenantId channelId since, row.message = msg ∧
      row ∈ table.select tenantId channelId row.bucketId limit := by
  rcases mem_newerOf.mp msgMem with ⟨read, readMem, row, rowMem, rfl, newer⟩
  rw [reads_from.rows read readMem] at rowMem
  rcases mem_of_mem_select rowMem with ⟨held, bucketEq⟩
  exact ⟨row, mem_newerMessages.mpr ⟨held, newer⟩, rfl, bucketEq ▸ rowMem⟩

theorem mem_newerOf_of_select (bucketed : Bucketed table tenantId channelId) {row : MessageRow}
    (rowMem : row ∈ newerMessages table tenantId channelId since)
    (selected : row ∈ table.select tenantId channelId row.bucketId limit) :
    row.message ∈ newerOf since reads := by
  rcases mem_newerMessages.mp rowMem with ⟨held, newer⟩
  have inRange := mem_bucketRange (bucketed row held) newer (reads_from.clock.2 row held)
  rw [← reads_from.buckets] at inRange
  rcases List.mem_map.mp inRange with ⟨read, readMem, bucketEq⟩
  refine mem_newerOf.mpr ⟨read, readMem, row, ?_, rfl, newer⟩
  rw [reads_from.rows read readMem, bucketEq]
  exact selected

theorem nodup_newerOf (bucketed : Bucketed table tenantId channelId) :
    (newerOf since reads).Nodup := by
  refine List.nodup_flatMap.mpr ⟨fun read readMem => ?_, ?_⟩
  · refine (List.Nodup.map_on ?_ ?_).filter _
    · rw [reads_from.rows read readMem]
      intro left leftMem right rightMem same
      exact eq_of_message_eq bucketed (mem_of_mem_select leftMem).1
        (mem_of_mem_select rightMem).1 same
    · rw [reads_from.rows read readMem]
      exact nodup_select
  · have distinct : (reads.map Prod.fst).Nodup := reads_from.buckets ▸ nodup_bucketRange _ _
    apply (List.pairwise_map.mp distinct).imp_of_mem
    intro left right leftMem rightMem apart msg inLeft inRight
    rcases List.mem_map.mp (List.mem_filter.mp inLeft).1 with ⟨first, firstMem, rfl⟩
    rcases List.mem_map.mp (List.mem_filter.mp inRight).1 with ⟨second, secondMem, same⟩
    rw [reads_from.rows left leftMem] at firstMem
    rw [reads_from.rows right rightMem] at secondMem
    rcases mem_of_mem_select firstMem with ⟨firstHeld, firstBucket⟩
    rcases mem_of_mem_select secondMem with ⟨secondHeld, secondBucket⟩
    cases eq_of_message_eq bucketed secondHeld firstHeld same
    exact apart (firstBucket.symm.trans secondBucket)

theorem length_newerOf_le (bucketed : Bucketed table tenantId channelId) :
    (newerOf since reads).length ≤ (newerMessages table tenantId channelId since).length := by
  have within : newerOf since reads ⊆
      (newerMessages table tenantId channelId since).map MessageRow.message := by
    intro msg msgMem
    rcases exists_of_mem_newerOf reads_from msgMem with ⟨row, rowMem, rfl, -⟩
    exact List.mem_map_of_mem rowMem
  simpa using (List.subperm_of_subset (nodup_newerOf reads_from bucketed) within).length_le

end

theorem mem_pageOf {since limit : ℕ} {reads : List BucketRead} {msg : Message}
    (msgMem : msg ∈ pageOf since limit reads) : msg ∈ newerOf since reads :=
  (List.perm_insertionSort _ _).subset (List.mem_of_mem_take msgMem)

/-- What fits a page is in it. -/
theorem mem_pageOf_of_le {since limit : ℕ} {reads : List BucketRead} {msg : Message}
    (fits : (newerOf since reads).length ≤ limit) (msgMem : msg ∈ newerOf since reads) :
    msg ∈ pageOf since limit reads := by
  rw [pageOf, List.take_of_length_le]
  · exact (List.perm_insertionSort _ _).mem_iff.mpr msgMem
  · rwa [Sync.sortByCreatedAt, List.length_insertionSort]

/-- When a page holds everything that is newer than the cursor. -/
theorem page_complete_iff {table : MessageTable} {tenantId channelId : Bytes}
    {since limit now : ℕ} {reads : List BucketRead} (bucketed : Bucketed table tenantId channelId)
    (reads_from : (heldAnswers table tenantId channelId).ReadsFrom since (limit + 1) now reads) :
    (∀ row ∈ newerMessages table tenantId channelId since,
        row.message ∈ pageOf since limit reads) ↔
      (newerMessages table tenantId channelId since).length ≤ limit ∧
        ∀ row ∈ newerMessages table tenantId channelId since,
          row ∈ table.select tenantId channelId row.bucketId (limit + 1) := by
  constructor
  · intro complete
    constructor
    · have distinct :
          ((newerMessages table tenantId channelId since).map MessageRow.message).Nodup := by
        refine List.Nodup.map_on ?_ (((List.Nodup.of_map _ table.unique).filter _).filter _)
        intro left leftMem right rightMem same
        exact eq_of_message_eq bucketed (mem_newerMessages.mp leftMem).1
          (mem_newerMessages.mp rightMem).1 same
      have within : (newerMessages table tenantId channelId since).map MessageRow.message ⊆
          pageOf since limit reads := by
        intro msg msgMem
        rcases List.mem_map.mp msgMem with ⟨row, rowMem, rfl⟩
        exact complete row rowMem
      have counted := (List.subperm_of_subset distinct within).length_le
      rw [List.length_map] at counted
      exact counted.trans (List.length_take_le _ _)
    · intro row rowMem
      rcases exists_of_mem_newerOf reads_from (mem_pageOf (complete row rowMem)) with
        ⟨other, otherMem, same, selected⟩
      cases eq_of_message_eq bucketed (mem_newerMessages.mp otherMem).1
        (mem_newerMessages.mp rowMem).1 same
      exact selected
  · rintro ⟨few, selected⟩ row rowMem
    exact mem_pageOf_of_le ((length_newerOf_le reads_from bucketed).trans few)
      (mem_newerOf_of_select reads_from bucketed rowMem (selected row rowMem))

/-- Nothing is newer than a clock that no message is later than. -/
theorem newerOf_eq_nil {table : MessageTable} {tenantId channelId : Bytes}
    {since limit now : ℕ} {reads : List BucketRead}
    (reads_from : (heldAnswers table tenantId channelId).ReadsFrom since limit now reads)
    (latest : ∀ row ∈ messagesOf table tenantId channelId, row.message.createdAt ≤ since) :
    newerOf since reads = [] := by
  apply List.eq_nil_iff_forall_not_mem.mpr
  intro msg msgMem
  rcases exists_of_mem_newerOf reads_from msgMem with ⟨row, rowMem, -, -⟩
  rcases mem_newerMessages.mp rowMem with ⟨held, newer⟩
  exact absurd (latest row held) (Nat.not_le.mpr newer)

/-! ## An execution -/

section Execution

variable {native : Native} {socket : Socket} {channelId : Bytes} {since now : ℕ}
  (select : ℕ → List MessageRow)

/-- The reads of a sync request whose buckets are as `select` says. -/
def bucketReads (since now : ℕ) : List BucketRead :=
  (Sync.bucketRange (TimeBucket.ofMs since) (TimeBucket.ofMs now)).map fun bucketId =>
    (bucketId, select bucketId)

/-- The calls of a sync request for a page of a hundred, all at one time. -/
def syncCalls (tenantId channelId : Bytes) (since now : ℕ) : List (Performed node Raise) :=
  (⟨.systemTime, .ok now⟩ :: (bucketReads select since now).map fun read =>
      (⟨.selectMessages tenantId channelId read.1 101, .ok (.ok read.2)⟩ :
        Performed backend Raise)).map (fun taken => ⟨.inl taken.call, taken.answer⟩) ++
    [⟨.inr .systemTime, .ok now⟩, ⟨.inr .nativeTime, .ok now⟩]

theorem performs_fetchBuckets {tenantId : Bytes} (buckets : List ℕ) :
    (Sync.fetchBuckets tenantId channelId since 101 buckets).Performs
      ((buckets.map fun bucketId => (bucketId, select bucketId)).map fun read =>
        ⟨.selectMessages tenantId channelId read.1 101, .ok (.ok read.2)⟩)
      (.ok (newerOf since (buckets.map fun bucketId => (bucketId, select bucketId)))) := by
  induction buckets with
  | nil => exact ⟨rfl, rfl⟩
  | cons bucketId later ih =>
      refine ⟨_, _, rfl, ?_⟩
      rw [← List.append_nil (List.map _ _)]
      exact ih.resume ⟨rfl, rfl⟩

theorem performs_getDeltas {tenantId : Bytes} (sinceFits : TimeBucket.ofMs since < 2 ^ 32)
    (nowFits : TimeBucket.ofMs now < 2 ^ 32) :
    (Sync.getDeltas tenantId channelId since 100).Performs
      (⟨.systemTime, .ok now⟩ :: (bucketReads select since now).map fun read =>
        ⟨.selectMessages tenantId channelId read.1 101, .ok (.ok read.2)⟩)
      (.ok (deltaPage since 100 now (bucketReads select since now))) := by
  refine ⟨_, _, rfl, ?_⟩
  have nowBucket := TimeBucket.compute_eq_ok.mpr ⟨rfl, nowFits⟩
  have sinceBucket := TimeBucket.compute_eq_ok.mpr ⟨rfl, sinceFits⟩
  simp only [Program.resume, nowBucket, sinceBucket, Program.ofExcept, bind]
  rw [← List.append_nil (List.map _ _)]
  refine (performs_fetchBuckets select _).resume ⟨rfl, ?_⟩
  simp only [deltaPage, pageOf, length_newerOf_lt, Sync.maxDeltas, List.take_take, bucketReads,
    Nat.min_self]
  rfl

/-- The reply with a page of a hundred. -/
def pageReply (native : Native) (socket : Socket) (channelId : Bytes) (since now : ℕ)
    (reads : List BucketRead) : SyncReply where
  mergedWall := max now since
  hasMore := 100 < (newerOf since reads).length
  envelopes := (pageOf since 100 reads).map (encodeMessage native socket channelId)

theorem performs_syncReply (sinceFits : TimeBucket.ofMs since < 2 ^ 32)
    (nowFits : TimeBucket.ofMs now < 2 ^ 32) :
    ((syncReply native socket channelId since 100 0).through persistence).Performs
      (syncCalls select socket.tenantId.val channelId since now)
      (.ok (pageReply native socket channelId since now (bucketReads select since now))) := by
  rw [syncReply, through_bind, call, through_perform]
  refine (performs_inner (performs_getDeltas select sinceFits nowFits)).bind
    ⟨_, _, rfl, _, _, rfl, ?_⟩
  rcases @Hlc.merge_of_lt native.build now ⟨now, 0, socket.userId⟩ ⟨since, 0, socket.userId⟩
    (by simp) (by simp) with ⟨counter, merged⟩
  simp only [Program.resume, merged]
  refine ⟨rfl, ?_⟩
  simp [pageReply, Hlc.maxWall, deltaPage, List.filterMap_map, encodeDelta_toDelta]

/-- A sync request for a page of a hundred, all of whose commands succeed. -/
theorem performs_syncRequest {ref topicId : ℕ} {payload : Bytes} {info : TopicInfo}
    (refFits : ref < 256 ^ 4) (topicFits : topicId < 256 ^ 2)
    (entry : socket.topicIds.lookup topicId = some info) (names : info.Names channelId)
    (full : 16 ≤ payload.length) (sinceRead : fromLittleEndian (payload.take 8) = since)
    (limitRead : fromLittleEndian ((payload.drop 8).take 4) = 100)
    (counterRead : fromLittleEndian ((payload.drop 12).take 4) = 0)
    (sinceFits : TimeBucket.ofMs since < 2 ^ 32) (nowFits : TimeBucket.ofMs now < 2 ^ 32) :
    (nodeHandleIn native (Sdk.pushFrame ref topicId Event.syncRequest payload) socket).Performs
      (syncCalls select socket.tenantId.val channelId since now)
      (.ok (replyOk socket ref topicId
        (pageReply native socket channelId since now (bucketReads select since now)).encode)) := by
  rw [nodeHandleIn, handleIn, Sdk.parse_pushFrame _ _ refFits topicFits, handleFrame,
    handlePush_of_names entry names, dispatch_syncRequest]
  rcases names with ⟨hex, named, decoded⟩
  rw [dispatchSyncRequest, named, fetch_bind]
  generalize channelIdToBin hex = found at decoded ⊢
  subst decoded
  simp only [full, if_true, sinceRead, limitRead, counterRead]
  rw [rescue, through_resume, through_bind, ← List.append_nil (syncCalls ..)]
  refine Performs.resume (?_ : Performs _ _ (.ok (replyOk socket ref topicId _))) ⟨rfl, rfl⟩
  rw [← List.append_nil (syncCalls ..)]
  exact (performs_syncReply select sinceFits nowFits).bind ⟨rfl, rfl⟩

end Execution

end Mercury.Gateway
