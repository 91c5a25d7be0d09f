import Mercury.Gateway.BucketQueries

/-!
# Bucket queries that fail

`fetch_messages_after` makes an empty list of a query that fails, so `get_deltas` returns a
page of what the other buckets hold, and the merged clock of the reply passes the messages that
could not be read.
-/

namespace Mercury.Gateway

open Foundations Foundations.Program Persistence

/-- Which bucket queries fail, and with what. -/
abbrev FailurePattern := ℕ → Option Bytes

/-- The answer to the query of a bucket of the table. -/
def FailurePattern.answer (failing : FailurePattern) (table : MessageTable)
    (tenantId channelId : Bytes) (bucketId limit : ℕ) : Except Bytes (List MessageRow) :=
  match failing bucketId with
  | some reason => .error reason
  | none => .ok (table.select tenantId channelId bucketId limit)

/-- The bucket queries are answered by the table, or fail by the pattern. -/
def FailurePattern.Admits (failing : FailurePattern) (table : MessageTable) :
    Performed backend Raise → Prop
  | ⟨.selectMessages tenantId channelId bucketId limit, answer⟩ =>
      answer = .ok (failing.answer table tenantId channelId bucketId limit)
  | _ => True

/-- The same for the commands of a node. -/
def FailurePattern.AdmitsNode (failing : FailurePattern) (table : MessageTable) :
    Performed node Raise → Prop
  | ⟨.inl asked, answer⟩ => failing.Admits table ⟨asked, answer⟩
  | _ => True

/-- A bucket query that did not return rows. -/
def FailedQuery : Performed backend Raise → Prop
  | ⟨.selectMessages _ _ _ _, answer⟩ => ∀ rows, answer ≠ .ok (.ok rows)
  | _ => False

/-- The query of a bucket, and that it failed. -/
def FailedQueryOf (bucketId : ℕ) : Performed node Raise → Prop
  | ⟨.inl (.selectMessages tenantId channelId bucket limit), answer⟩ =>
      bucket = bucketId ∧ FailedQuery ⟨.selectMessages tenantId channelId bucket limit, answer⟩
  | _ => False

section Deltas

variable {table : MessageTable} {tenantId channelId : Bytes} {since limit now : ℕ}
  {failing : FailurePattern}

/-- With the clock at `now`, `get_deltas` returns a page only if every bucket query succeeds. -/
def PagesAreRead (table : MessageTable) (tenantId channelId : Bytes) (since limit now : ℕ)
    (failing : FailurePattern) : Prop :=
  ∀ calls page,
    (Sync.getDeltas tenantId channelId since limit).Performs
      (⟨.systemTime, .ok now⟩ :: calls) (.ok page) →
    (∀ taken ∈ calls, failing.Admits table taken) → ∀ taken ∈ calls, ¬FailedQuery taken

/-- No bucket from that of the cursor to that of the clock fails. -/
def NoneFails (since now : ℕ) (failing : FailurePattern) : Prop :=
  ∀ bucketId ∈ Sync.bucketRange (TimeBucket.ofMs since) (TimeBucket.ofMs now),
    failing bucketId = none

/-- A query that the pattern answers fails exactly if its bucket does. -/
theorem failedQuery_query {answer : BucketAnswer}
    (answered : failing.Admits table (answer.query tenantId channelId limit)) :
    FailedQuery (answer.query tenantId channelId limit) ↔ failing answer.1 ≠ none := by
  have answerEq := Except.ok.inj answered
  rcases answer with ⟨bucketId, answer⟩
  dsimp only at answerEq
  subst answerEq
  simp only [BucketAnswer.query, FailedQuery, FailurePattern.answer]
  rcases failing bucketId with _ | reason
  · simp
  · simp

/-- The queries of an execution that returns a page, as the pattern answers them. -/
theorem failedQuery_iff {calls : List (Performed backend Raise)} {page : Sync.DeltaPage}
    (performs : (Sync.getDeltas tenantId channelId since limit).Performs
      (⟨.systemTime, .ok now⟩ :: calls) (.ok page))
    (answered : ∀ taken ∈ calls, failing.Admits table taken) :
    FitBuckets since now ∧
      ((∃ taken ∈ calls, FailedQuery taken) ↔ ¬NoneFails since now failing) := by
  rcases getDeltas_performs_iff.mp performs with ⟨clock, answers, fits, buckets, same, -⟩
  rw [List.cons.injEq] at same
  rcases same with ⟨clockEq, rfl⟩
  cases clockEq
  refine ⟨fits, ?_⟩
  rw [NoneFails, ← buckets]
  have failedOf : ∀ answer ∈ answers,
      FailedQuery (answer.query tenantId channelId (min limit 100 + 1)) ↔
        failing answer.1 ≠ none :=
    fun answer answerMem => failedQuery_query (answered _ (List.mem_map_of_mem answerMem))
  simp only [List.mem_map, exists_exists_and_eq_and, not_forall, exists_prop]
  constructor
  · rintro ⟨answer, answerMem, failed⟩
    exact ⟨answer, answerMem, (failedOf answer answerMem).mp failed⟩
  · rintro ⟨answer, answerMem, fails⟩
    exact ⟨answer, answerMem, (failedOf answer answerMem).mpr fails⟩

/-- Some execution returns a page, whatever fails. -/
theorem exists_patternRead (table : MessageTable) (tenantId channelId : Bytes) (limit : ℕ)
    (failing : FailurePattern) (fits : FitBuckets since now) :
    ∃ calls page, (Sync.getDeltas tenantId channelId since limit).Performs
        (⟨.systemTime, .ok now⟩ :: calls) (.ok page) ∧
      ∀ taken ∈ calls, failing.Admits table taken := by
  let answers : List BucketAnswer :=
    (Sync.bucketRange (TimeBucket.ofMs since) (TimeBucket.ofMs now)).map fun bucketId =>
      (bucketId, failing.answer table tenantId channelId bucketId (min limit 100 + 1))
  have buckets : answers.map Prod.fst =
      Sync.bucketRange (TimeBucket.ofMs since) (TimeBucket.ofMs now) := by
    simp [answers, Function.comp_def]
  refine ⟨_, _, getDeltas_performs_iff.mpr ⟨now, answers, fits, buckets, rfl, rfl⟩, ?_⟩
  intro taken takenMem
  rcases List.mem_map.mp takenMem with ⟨answer, answerMem, rfl⟩
  rcases List.mem_map.mp answerMem with ⟨bucketId, -, rfl⟩
  rfl

theorem pagesAreRead_iff :
    PagesAreRead table tenantId channelId since limit now failing ↔
      ¬FitBuckets since now ∨ NoneFails since now failing := by
  constructor
  · intro reads
    by_cases fits : FitBuckets since now
    · right
      rcases exists_patternRead table tenantId channelId limit failing fits with
        ⟨calls, page, performs, answered⟩
      by_contra fails
      rcases (failedQuery_iff performs answered).2.mpr fails with ⟨taken, takenMem, failed⟩
      exact reads calls page performs answered taken takenMem failed
    · exact Or.inl fits
  · intro noneFails calls page performs answered taken takenMem failed
    rcases failedQuery_iff performs answered with ⟨fits, failures⟩
    rcases noneFails with unfit | noneFails
    · exact unfit fits
    · exact failures.mp ⟨taken, takenMem, failed⟩ noneFails

end Deltas

/-! ## The cursor of the reply -/

section Request

variable {native : Native} {socket : Socket} {channelId data : Bytes} {since : ℕ}

/-- The clock of an ok reply does not pass a newer message the query of whose bucket failed. -/
def CursorKeepsBehind (native : Native) (table : MessageTable)
    (request : SyncRequest socket channelId since data) (now : ℕ)
    (failing : FailurePattern) : Prop :=
  ∀ made (reply : SyncReply),
    (nodeHandleIn native data socket).Performs (readClock now made)
      (.ok (replyOk socket request.ref request.topicId reply.encode)) →
    (∀ taken ∈ made, failing.AdmitsNode table taken) →
    ∀ row ∈ newerMessages table socket.tenantId.val channelId since,
      (∃ taken ∈ made, FailedQueryOf row.bucketId taken) →
        reply.mergedWall < row.message.createdAt

/-- What a failed query of a request is at the persistence application. -/
theorem failedQuery_of_made {request : SyncRequest socket channelId since data} {now : ℕ}
    {made : List (Performed node Raise)} {reply : SyncReply} {table : MessageTable}
    {failing : FailurePattern}
    (performs : (nodeHandleIn native data socket).Performs (readClock now made)
      (.ok (replyOk socket request.ref request.topicId reply.encode)))
    (answered : ∀ taken ∈ made, failing.AdmitsNode table taken) {bucketId : ℕ}
    (failed : ∃ taken ∈ made, FailedQueryOf bucketId taken) :
    FitBuckets since now ∧ ¬NoneFails since now failing := by
  rcases request.performs_iff.mp performs with ⟨raised | found, replies, same⟩
  · exact absurd (congrArg Reaction.pushed (Except.ok.inj same)).symm replyError_ne_ok
  rcases syncReply_performs_iff.mp replies with
    ⟨commands, page, system, reading, merged, finds, -, split, -⟩
  have started := finds
  rcases started with ⟨answer, queries, rfl, -⟩
  rw [readClock, List.map_cons, List.cons_append, List.cons.injEq] at split
  rcases split with ⟨same, rfl⟩
  cases same
  have admitted : ∀ taken ∈ queries, failing.Admits table taken := by
    intro taken takenMem
    exact answered (onNode taken) (List.mem_append_left _ (List.mem_map_of_mem takenMem))
  rcases failedQuery_iff finds admitted with ⟨fits, failures⟩
  refine ⟨fits, failures.mp ?_⟩
  rcases failed with ⟨taken, takenMem, failed⟩
  rcases List.mem_append.mp takenMem with queried | reading
  · rcases List.mem_map.mp queried with ⟨query, queryMem, rfl⟩
    refine ⟨query, queryMem, ?_⟩
    rcases query with ⟨asked, answer⟩
    cases asked with
    | selectMessages => exact failed.2
    | _ => exact failed.elim
  · simp only [List.mem_cons, List.not_mem_nil, or_false] at reading
    rcases reading with rfl | rfl
    · exact failed.elim
    · exact failed.elim

/-- A newer message of a bucket that fails is passed by the clock of some reply. -/
theorem not_cursorKeepsBehind {table : MessageTable} {now : ℕ} {failing : FailurePattern}
    (request : SyncRequest socket channelId since data) (fits : FitBuckets since now)
    {row : MessageRow} (rowMem : row ∈ newerMessages table socket.tenantId.val channelId since)
    (inRange : row.bucketId ∈
      Sync.bucketRange (TimeBucket.ofMs since) (TimeBucket.ofMs now))
    (fails : failing row.bucketId ≠ none) :
    ¬CursorKeepsBehind native table request now failing := by
  intro behind
  rcases exists_patternRead table socket.tenantId.val channelId (min request.limit 100) failing
    fits with ⟨calls, page, finds, answered⟩
  -- a clock that is later than the cursor and than the message
  have merging := @merge_of_later native.build (since + row.message.createdAt + 1) since
    request.lastCounter socket.userId (by omega)
  have replies := syncReply_performs_iff.mpr ⟨_, _, 0, _, _, finds, merging, rfl, rfl⟩
  have performs := request.performs_iff.mpr ⟨_, replies, rfl⟩
  have queried : ∃ query ∈ calls, FailedQueryOf row.bucketId (onNode query) := by
    rcases getDeltas_performs_iff.mp finds with ⟨clock, answers, -, buckets, same, -⟩
    rw [List.cons.injEq] at same
    rcases same with ⟨clockEq, rfl⟩
    cases clockEq
    rw [← buckets] at inRange
    rcases List.mem_map.mp inRange with ⟨answer, answerMem, bucketEq⟩
    have queryMem := List.mem_map_of_mem
      (f := BucketAnswer.query socket.tenantId.val channelId
        (min (min request.limit 100) 100 + 1)) answerMem
    refine ⟨_, queryMem, bucketEq, ?_⟩
    rw [← bucketEq] at fails
    exact (failedQuery_query (answered _ queryMem)).mpr fails
  rcases queried with ⟨query, queryMem, failed⟩
  have passes := behind _ _ performs ?_ row rowMem
    ⟨onNode query, List.mem_append_left _ (List.mem_map_of_mem queryMem), failed⟩
  · dsimp only at passes
    omega
  · intro taken takenMem
    rcases List.mem_append.mp takenMem with command | reading
    · rcases List.mem_map.mp command with ⟨made, madeMem, rfl⟩
      exact answered made madeMem
    · simp only [List.mem_cons, List.not_mem_nil, or_false] at reading
      rcases reading with rfl | rfl
      · trivial
      · trivial

/-- A failed read does not look like an empty one exactly where no bucket from that of the
cursor to that of the clock fails, or one of these two is beyond 32 bits. -/
theorem failedReads_iff (native : Native) (table : MessageTable)
    (request : SyncRequest socket channelId since data) (limit now : ℕ)
    (failing : FailurePattern) :
    (PagesAreRead table socket.tenantId.val channelId since limit now failing ∧
        CursorKeepsBehind native table request now failing) ↔
      ¬FitBuckets since now ∨ NoneFails since now failing := by
  constructor
  · rintro ⟨reads, -⟩
    exact pagesAreRead_iff.mp reads
  · intro noneFails
    refine ⟨pagesAreRead_iff.mpr noneFails, ?_⟩
    intro made reply performs answered row _ failed
    rcases failedQuery_of_made performs answered failed with ⟨fits, fails⟩
    rcases noneFails with unfit | noneFails
    · exact absurd fits unfit
    · exact absurd noneFails fails

end Request

/-- A client asks for everything. -/
def emptyPayload : Bytes := []

theorem parse_wholeRequest : Frame.parse (Sdk.pushFrame 1 1 Event.syncRequest emptyPayload) =
    .push 1 1 Event.syncRequest emptyPayload :=
  Sdk.parse_pushFrame _ _ (by decide) (by decide)

theorem sinceRead_emptyPayload :
    (if 16 ≤ emptyPayload.length then fromLittleEndian (emptyPayload.take 8) else 0) = 0 := by
  decide

def wholeRequest : SyncRequest (memberSocket 5) (Id16.replicate 7).val 0
    (Sdk.pushFrame 1 1 Event.syncRequest emptyPayload) where
  ref := 1
  topicId := 1
  payload := emptyPayload
  info := channelEntry (.replicate 1) (.replicate 7)
  parsed := parse_wholeRequest
  entry := entry_memberFive
  names := names_channelSeven
  sinceRead := sinceRead_emptyPayload

def unreadRow : MessageRow where
  tenantId := (Id16.replicate 1).val
  channelId := (Id16.replicate 7).val
  bucketId := 0
  message := ⟨(Id16.replicate 9).val, (Id16.replicate 5).val, [], 0, none, 10⟩
  serverReceivedAt := 10

def unreadTable : MessageTable where
  rows := [unreadRow]
  unique := List.nodup_singleton _

/-- The only bucket fails: a page is returned, and the reply passes the message in it. -/
theorem failed_read_looks_empty :
    (¬∀ (table : MessageTable) (tenantId channelId : Bytes) (since limit now : ℕ)
        (failing : FailurePattern),
      PagesAreRead table tenantId channelId since limit now failing) ∧
    ¬∀ (native : Native) (table : MessageTable) (socket : Socket) (channelId data : Bytes)
        (since : ℕ) (request : SyncRequest socket channelId since data) (now : ℕ)
        (failing : FailurePattern),
      CursorKeepsBehind native table request now failing := by
  have fits : FitBuckets 0 40 := ⟨by decide, by decide⟩
  have inRange : 0 ∈ Sync.bucketRange (TimeBucket.ofMs 0) (TimeBucket.ofMs 40) := by decide
  constructor
  · intro allRead
    rcases pagesAreRead_iff.mp (allRead unreadTable [] [] 0 100 40 fun _ => some []) with
      unfit | noneFails
    · exact unfit fits
    · exact absurd (noneFails 0 inRange) (by simp)
  · intro keepsBehind
    have rowMem : unreadRow ∈ newerMessages unreadTable (memberSocket 5).tenantId.val
        (Id16.replicate 7).val 0 := by
      decide
    exact not_cursorKeepsBehind wholeRequest fits rowMem inRange (by simp)
      (keepsBehind (Capnp.native [] []) unreadTable _ _ _ _ wholeRequest 40 fun _ => some [])

end Mercury.Gateway
