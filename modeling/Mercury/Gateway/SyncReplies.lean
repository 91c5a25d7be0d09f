import Mercury.Gateway.Authenticity

/-!
# The reply to a sync request

What `get_deltas` returns, from what its clock reading and its bucket reads are
answered, and the reply that `sync:request` makes of it.
-/

namespace Mercury.Gateway

open Foundations Foundations.Program Persistence

/-- A bucket, with the rows that were read of it. -/
abbrev BucketRead := ℕ × List MessageRow

/-- The messages of the reads that are newer than `since`. -/
def newerOf (since : ℕ) (reads : List BucketRead) : List Message :=
  reads.flatMap fun read =>
    (read.2.map MessageRow.message).filter fun msg => since < msg.createdAt

/-- The oldest of them, as many as a page holds. -/
def pageOf (since limit : ℕ) (reads : List BucketRead) : List Message :=
  (Sync.sortByCreatedAt (newerOf since reads)).take limit

/-- How the environment of a sync request answers: no bucket read fails. -/
structure SyncAnswers where
  clock : ℕ → Prop
  /-- The rows of a bucket, in a read of at most so many. -/
  bucket : ℕ → ℕ → List MessageRow → Prop

section Deltas

variable {tenantId channelId : Bytes} {answers : SyncAnswers} {since limit : ℕ}

def SyncAnswers.Admits (answers : SyncAnswers) (tenantId channelId : Bytes) :
    Performed backend Raise → Prop
  | ⟨.systemTime, .ok now⟩ => answers.clock now
  | ⟨.selectMessages tid cid bucket limit, answer⟩ =>
      tid = tenantId → cid = channelId →
        ∃ rows, answer = .ok (.ok rows) ∧ answers.bucket bucket limit rows
  | _ => True

/-- The reads of the buckets from that of `since` to that of a clock reading. -/
structure SyncAnswers.ReadsFrom (answers : SyncAnswers) (since limit now : ℕ)
    (reads : List BucketRead) : Prop where
  clock : answers.clock now
  fits : TimeBucket.ofMs since < 2 ^ 32 ∧ TimeBucket.ofMs now < 2 ^ 32
  buckets : reads.map Prod.fst =
    Sync.bucketRange (TimeBucket.ofMs since) (TimeBucket.ofMs now)
  rows : ∀ read ∈ reads, answers.bucket read.1 limit read.2

theorem fetchBuckets_ensures (buckets : List ℕ) :
    (Sync.fetchBuckets tenantId channelId since limit buckets).Ensures
      (answers.Admits tenantId channelId) (fun _ => True) fun outcome =>
        ∃ reads, reads.map Prod.fst = buckets ∧
          (∀ read ∈ reads, answers.bucket read.1 limit read.2) ∧
            outcome = .ok (newerOf since reads) := by
  induction buckets with
  | nil => exact ⟨[], rfl, by simp, rfl⟩
  | cons bucket later ih =>
      have first : (Sync.fetchMessagesAfter tenantId channelId bucket since limit).Ensures
          (answers.Admits tenantId channelId) (fun _ => True) fun outcome =>
            ∃ rows, answers.bucket bucket limit rows ∧
              outcome = .ok (newerOf since [(bucket, rows)]) := by
        refine Ensures.bind.mpr (Ensures.perform.mpr ⟨trivial, ?_⟩)
        intro answer granted
        rcases granted rfl rfl with ⟨rows, rfl, isRead⟩
        refine ⟨rows, isRead, ?_⟩
        simp [newerOf]
      refine Ensures.bind.mpr (first.post_mono ?_)
      rintro outcome ⟨rows, isRead, rfl⟩
      refine Ensures.bind.mpr (ih.post_mono ?_)
      rintro outcome ⟨reads, buckets, allRead, rfl⟩
      refine ⟨(bucket, rows) :: reads, by simp [buckets], ?_, ?_⟩
      · intro read readMem
        rcases List.mem_cons.mp readMem with rfl | readMem
        · exact isRead
        · exact allRead read readMem
      · simp [newerOf]

theorem length_newerOf_lt {reads : List BucketRead} :
    limit < ((Sync.sortByCreatedAt (newerOf since reads)).take (limit + 1)).length ↔
      limit < (newerOf since reads).length := by
  rw [List.length_take, Sync.sortByCreatedAt, List.length_insertionSort]
  omega

/-- The page that `get_deltas` returns. -/
def deltaPage (since limit now : ℕ) (reads : List BucketRead) : Sync.DeltaPage where
  deltas := (pageOf since limit reads).map Sync.toDelta
  serverHlc := now
  hasMore := limit < (newerOf since reads).length

theorem getDeltas_ensures :
    (Sync.getDeltas tenantId channelId since limit).Ensures
      (answers.Admits tenantId channelId) (fun _ => True) fun outcome =>
        ∀ page, outcome = .ok page → ∃ now reads,
          answers.ReadsFrom since (min limit 100 + 1) now reads ∧
            page = deltaPage since (min limit 100) now reads := by
  refine Ensures.bind.mpr (Ensures.perform.mpr ⟨trivial, ?_⟩)
  rintro (raised | now) clock
  · simp
  refine Ensures.bind.mpr (Ensures.ofExcept.mpr ?_)
  rcases nowBucket : TimeBucket.compute now with raised | current
  · simp
  refine Ensures.bind.mpr (Ensures.ofExcept.mpr ?_)
  rcases sinceBucket : TimeBucket.compute since with raised | first
  · simp
  rcases TimeBucket.compute_eq_ok.mp nowBucket with ⟨rfl, nowFits⟩
  rcases TimeBucket.compute_eq_ok.mp sinceBucket with ⟨rfl, sinceFits⟩
  refine Ensures.bind.mpr ((fetchBuckets_ensures _).post_mono ?_)
  rintro outcome ⟨reads, buckets, allRead, rfl⟩ page isPage
  cases isPage
  refine ⟨now, reads, ⟨clock, ⟨sinceFits, nowFits⟩, buckets, allRead⟩, ?_⟩
  simp only [deltaPage, pageOf, length_newerOf_lt, Sync.maxDeltas, List.take_take]
  rw [Nat.min_eq_left (Nat.le_succ _)]

end Deltas

/-! ## The reply -/

section Reply

variable {native : Native} {socket : Socket} {channelId : Bytes} {answers : SyncAnswers}
  {since limit : ℕ}

/-- The answers to the calls of the socket. -/
def SyncAnswers.AdmitsCalls (answers : SyncAnswers) (tenantId channelId : Bytes) :
    Performed calls Raise → Prop
  | ⟨.systemTime, .ok now⟩ => answers.clock now
  | ⟨.nativeTime, .ok now⟩ => answers.clock now
  | ⟨.getDeltas tid cid since limit, .ok page⟩ =>
      tid = tenantId → cid = channelId → ∃ now reads,
        answers.ReadsFrom since (min limit 100 + 1) now reads ∧
          page = deltaPage since (min limit 100) now reads
  | _ => True

/-- The answers to the commands of the node. -/
def SyncAnswers.AdmitsNode (answers : SyncAnswers) (tenantId channelId : Bytes) :
    Performed node Raise → Prop
  | ⟨.inl asked, answer⟩ => answers.Admits tenantId channelId ⟨asked, answer⟩
  | ⟨.inr asked, answer⟩ =>
      (asked = .systemTime ∨ asked = .nativeTime) →
        answers.AdmitsCalls tenantId channelId ⟨asked, answer⟩

/-- The reply to a sync request that was answered so. -/
structure SyncAnswers.Replies (answers : SyncAnswers) (native : Native) (socket : Socket)
    (channelId : Bytes) (since limit : ℕ) (reply : SyncReply) : Prop where
  wall : ∃ system reading, answers.clock system ∧ answers.clock reading ∧
    reply.mergedWall = max (max reading system) since
  page : ∃ now reads, answers.ReadsFrom since (limit + 1) now reads ∧
    reply.hasMore = decide (limit < (newerOf since reads).length) ∧
      reply.envelopes = (pageOf since limit reads).map (encodeMessage native socket channelId)

theorem encodeDelta_toDelta (msg : Message) :
    encodeDelta native socket channelId (Sync.toDelta msg) =
      some (encodeMessage native socket channelId msg) := by
  simp [encodeDelta, Sync.toDelta, encodeMessage]

theorem syncReply_ensures {lastCounter : ℕ} :
    (syncReply native socket channelId since limit lastCounter).Ensures
      (answers.AdmitsCalls socket.tenantId.val channelId) (fun _ => True) fun outcome =>
        ∀ reply, outcome = .ok reply →
          answers.Replies native socket channelId since (min limit 100) reply := by
  refine Ensures.bind.mpr (Ensures.perform.mpr ⟨trivial, ?_⟩)
  rintro (raised | page) isPage
  · simp
  rcases isPage rfl rfl with ⟨now, reads, readsFrom, rfl⟩
  rw [Nat.min_assoc, Nat.min_self] at readsFrom ⊢
  refine Ensures.bind.mpr (Ensures.perform.mpr ⟨trivial, ?_⟩)
  rintro (raised | system) systemClock
  · simp
  refine Ensures.bind.mpr (Ensures.perform.mpr ⟨trivial, ?_⟩)
  rintro (raised | reading) readingClock
  · simp
  dsimp only
  rcases merging : Hlc.merge native.build reading ⟨system, 0, socket.userId⟩
    ⟨since, lastCounter, socket.userId⟩ with _ | merged
  · simp
  intro reply isReply
  cases isReply
  rcases Option.map_eq_some_iff.mp merging with ⟨counter, -, rfl⟩
  refine ⟨⟨system, reading, systemClock, readingClock, rfl⟩, now, reads, readsFrom, rfl, ?_⟩
  · simp [deltaPage, List.filterMap_map, encodeDelta_toDelta]

theorem persistence_answers {tenantId : Bytes} {asked : Call} :
    (persistence asked).Ensures (answers.AdmitsNode tenantId channelId) (fun _ => True)
      fun answer => answers.AdmitsCalls tenantId channelId ⟨asked, answer⟩ := by
  cases asked with
  | getDeltas tid cid since limit =>
      by_cases same : tid = tenantId ∧ cid = channelId
      · rcases same with ⟨rfl, rfl⟩
        refine (ensures_inner getDeltas_ensures).post_mono ?_
        rintro (raised | page) pages
        · trivial
        · intro _ _
          exact pages page rfl
      · apply Ensures.any.post_mono
        rintro (raised | page) -
        · trivial
        · intro tenant channel
          exact absurd ⟨tenant, channel⟩ same
  | systemTime =>
      exact Ensures.perform.mpr ⟨trivial, fun answer granted => granted (Or.inl rfl)⟩
  | nativeTime =>
      exact Ensures.perform.mpr ⟨trivial, fun answer granted => granted (Or.inr rfl)⟩
  | _ =>
      apply Ensures.any.post_mono
      rintro (raised | answer) - <;> trivial

theorem dispatch_syncRequest {ref topicId : ℕ} {payload : Bytes} {info : TopicInfo} :
    dispatch native ref topicId payload info socket Event.syncRequest =
      dispatchSyncRequest native ref topicId payload info socket := by
  simp [dispatch, Event.syncRequest, Event.msgSend, Event.msgHistory, Event.msgTyping,
    Event.msgRead, Event.mlsKeyPackage, Event.mlsFetchKp, Event.mlsCommit, Event.mlsWelcome,
    Event.mlsRemove]

/-- The specification of a sync request on a node. -/
theorem syncRequest_ensures {ref topicId : ℕ} {payload : Bytes} {info : TopicInfo}
    (refFits : ref < 256 ^ 4) (topicFits : topicId < 256 ^ 2)
    (entry : socket.topicIds.lookup topicId = some info) (names : info.Names channelId)
    (full : 16 ≤ payload.length) :
    (nodeHandleIn native (Sdk.pushFrame ref topicId Event.syncRequest payload) socket).Ensures
      (answers.AdmitsNode socket.tenantId.val channelId) (fun _ => True) fun outcome =>
        ∀ reaction data, outcome = .ok reaction →
          reaction.pushed = [replyFrame ref topicId statusOk data] →
            ∃ reply, data = reply.encode ∧
              answers.Replies native socket channelId (fromLittleEndian (payload.take 8))
                (min (fromLittleEndian ((payload.drop 8).take 4)) 100) reply := by
  refine Ensures.through (?_ : Ensures _ (fun _ => True) _ _) fun asked _ => persistence_answers
  rw [handleIn, Sdk.parse_pushFrame _ _ refFits topicFits, handleFrame,
    handlePush_of_names entry names, dispatch_syncRequest]
  apply Ensures.rescue.mpr
  rcases names with ⟨hex, named, decoded⟩
  rw [dispatchSyncRequest, named, fetch_bind]
  generalize channelIdToBin hex = found at decoded ⊢
  subst decoded
  simp only [full, if_true]
  refine Ensures.bind.mpr (syncReply_ensures.post_mono ?_)
  rintro (raised | reply) replies
  · intro reaction data isReaction isPushed
    cases isReaction
    exact absurd isPushed replyError_ne_ok
  · intro reaction data isReaction isPushed
    cases isReaction
    exact ⟨reply, (replyFrame_inj (List.singleton_inj.mp isPushed)).2.symm, replies reply rfl⟩

end Reply

end Mercury.Gateway
