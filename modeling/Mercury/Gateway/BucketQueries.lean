import Mercury.Gateway.HeldMessages
import Mercury.Gateway.PushedBatches

/-!
# The queries of a sync request

Every execution of `get_deltas` and of `sync:request`, whatever the bucket queries are
answered. A range whose first bucket is after its last counts down, so a cursor from a later
bucket than the clock's makes the handler query the buckets in between.
-/

namespace Mercury.Gateway

open Foundations Foundations.Program Persistence

/-- A bucket, with the answer to its query. -/
abbrev BucketAnswer := ℕ × Except Bytes (List MessageRow)

namespace BucketAnswer

/-- The call of the query. -/
def query (tenantId channelId : Bytes) (limit : ℕ) (answer : BucketAnswer) :
    Performed backend Raise :=
  ⟨.selectMessages tenantId channelId answer.1 limit, .ok answer.2⟩

/-- What `fetch_messages_after` makes of the answer: a failed query is an empty page. -/
def read (answer : BucketAnswer) : BucketRead :=
  (answer.1, answer.2.toOption.getD [])

end BucketAnswer

section Persistence

variable {tenantId channelId : Bytes} {since limit : ℕ} {calls : List (Performed backend Raise)}

theorem fetchMessagesAfter_performs {bucket : ℕ} {outcome : Except Raise (List Message)}
    (performs : (Sync.fetchMessagesAfter tenantId channelId bucket since limit).Performs
      calls outcome) :
    (∃ raised, calls = [⟨.selectMessages tenantId channelId bucket limit, .error raised⟩] ∧
      outcome = .error raised) ∨
    ∃ answer : BucketAnswer, answer.1 = bucket ∧ calls = [answer.query tenantId channelId limit] ∧
      outcome = .ok (newerOf since [answer.read]) := by
  rcases performs with ⟨raised | rows, later, rfl, rest⟩
  · rcases rest with ⟨rfl, rfl⟩
    exact Or.inl ⟨raised, rfl, rfl⟩
  · right
    refine ⟨(bucket, rows), rfl, ?_⟩
    rcases rows with failed | rows
    · rcases rest with ⟨rfl, rfl⟩
      exact ⟨rfl, by simp [newerOf, BucketAnswer.read, Except.toOption]⟩
    · rcases rest with ⟨rfl, rfl⟩
      exact ⟨rfl, by simp [newerOf, BucketAnswer.read, Except.toOption]⟩

/-- The queries of a flat map over buckets go through them in order. -/
theorem fetchBuckets_queries {buckets : List ℕ} {outcome : Except Raise (List Message)}
    (performs : (Sync.fetchBuckets tenantId channelId since limit buckets).Performs
      calls outcome) :
    calls.map Performed.call <+:
      buckets.map fun bucket => .selectMessages tenantId channelId bucket limit := by
  induction buckets generalizing calls outcome with
  | nil =>
      rw [performs.1]
      exact List.nil_prefix
  | cons bucket later ih =>
      rcases performs.of_resume with ⟨first, rest, result, rfl, fetches, continues⟩
      rcases fetchMessagesAfter_performs fetches with
        ⟨raised, rfl, rfl⟩ | ⟨answer, rfl, rfl, rfl⟩
      · rcases continues with ⟨rfl, -⟩
        exact List.prefix_append _ _
      · rcases continues.of_resume with ⟨middle, ending, rows, rfl, fetchesLater, ends⟩
        have none : ending = [] := by
          rcases rows with raised | rows
          · exact ends.1
          · exact ends.1
        rw [none, List.append_nil]
        exact (List.prefix_cons_inj _).mpr (ih fetchesLater)

/-- The executions of a flat map over buckets in which no query raises. -/
theorem fetchBuckets_performs_iff {buckets : List ℕ} {rows : List Message} :
    (Sync.fetchBuckets tenantId channelId since limit buckets).Performs calls (.ok rows) ↔
      ∃ answers : List BucketAnswer, answers.map Prod.fst = buckets ∧
        calls = answers.map (BucketAnswer.query tenantId channelId limit) ∧
          rows = newerOf since (answers.map BucketAnswer.read) := by
  induction buckets generalizing calls rows with
  | nil =>
      constructor
      · rintro ⟨rfl, same⟩
        cases same
        exact ⟨[], rfl, rfl, rfl⟩
      · rintro ⟨answers, none, rfl, rfl⟩
        rw [List.map_eq_nil_iff.mp none]
        exact ⟨rfl, rfl⟩
  | cons bucket later ih =>
      constructor
      · intro performs
        rcases Performs.of_bind performs with ⟨first, rest, found, rfl, fetches, continues⟩
        rcases fetchMessagesAfter_performs fetches with ⟨_, _, raised⟩ | ⟨answer, rfl, rfl, same⟩
        · cases raised
        cases same
        rcases Performs.of_bind continues with ⟨middle, ending, others, rfl, fetchesLater, ends⟩
        rcases ends with ⟨rfl, same⟩
        cases same
        rcases ih.mp fetchesLater with ⟨answers, rfl, rfl, rfl⟩
        refine ⟨answer :: answers, rfl, by simp, ?_⟩
        simp [newerOf]
      · rintro ⟨answers, bucketsEq, rfl, rfl⟩
        rcases answers with _ | ⟨answer, answers⟩
        · cases bucketsEq
        simp only [List.map_cons, List.cons.injEq] at bucketsEq
        rcases bucketsEq with ⟨rfl, rfl⟩
        have fetchesLater := ih.mpr ⟨answers, rfl, rfl, rfl⟩
        have fetches : (Sync.fetchMessagesAfter tenantId channelId answer.1 since limit).Performs
            [answer.query tenantId channelId limit] (.ok (newerOf since [answer.read])) := by
          rcases answer with ⟨bucket, failed | found⟩
          · exact ⟨_, [], rfl, rfl, by simp [newerOf, BucketAnswer.read, Except.toOption]⟩
          · exact ⟨_, [], rfl, rfl, by simp [newerOf, BucketAnswer.read, Except.toOption]⟩
        have joined : newerOf since ((answer :: answers).map BucketAnswer.read) =
            newerOf since [answer.read] ++ newerOf since (answers.map BucketAnswer.read) := by
          simp [newerOf]
        rw [joined, List.map_cons]
        apply Performs.bind fetches
        rw [← List.append_nil (answers.map (BucketAnswer.query tenantId channelId limit))]
        exact fetchesLater.resume ⟨rfl, rfl⟩

/-- The bucket of the cursor and the bucket of the clock are both a `u32`. -/
def FitBuckets (since now : ℕ) : Prop :=
  TimeBucket.ofMs since < 2 ^ 32 ∧ TimeBucket.ofMs now < 2 ^ 32

/-- The page that is cut from the rows of all buckets. -/
def cutPage (limit now : ℕ) (rows : List Message) : Sync.DeltaPage where
  deltas := (((Sync.sortByCreatedAt rows).take (limit + 1)).take limit).map Sync.toDelta
  serverHlc := now
  hasMore := limit < ((Sync.sortByCreatedAt rows).take (limit + 1)).length

theorem cutPage_newerOf (now : ℕ) (reads : List BucketRead) :
    cutPage limit now (newerOf since reads) = deltaPage since limit now reads := by
  simp only [cutPage, deltaPage, pageOf, length_newerOf_lt, List.take_take]
  rw [Nat.min_eq_left (Nat.le_succ _)]

/-- `get_deltas` from its clock reading on. -/
theorem getDeltas_performs_now {now : ℕ} {outcome : Except Raise Sync.DeltaPage}
    (performs : (Sync.getDeltas tenantId channelId since limit).Performs
      (⟨.systemTime, .ok now⟩ :: calls) outcome) :
    (¬FitBuckets since now ∧ calls = [] ∧ ∃ raised, outcome = .error raised) ∨
    FitBuckets since now ∧ ∃ result, (Sync.fetchBuckets tenantId channelId since
        (min limit 100 + 1)
        (Sync.bucketRange (TimeBucket.ofMs since) (TimeBucket.ofMs now))).Performs calls result ∧
      outcome = result.map (cutPage (min limit 100) now) := by
  rcases performs with ⟨answer, later, same, continues⟩
  rw [List.cons.injEq] at same
  rcases same with ⟨same, rfl⟩
  cases same
  rcases nowBucket : TimeBucket.compute now with raised | last
  · have unfit : ¬TimeBucket.ofMs now < 2 ^ 32 := fun fits => by
      rw [TimeBucket.compute_eq_ok.mpr ⟨rfl, fits⟩] at nowBucket
      cases nowBucket
    simp only [Program.resume, nowBucket, Program.ofExcept, bind] at continues
    exact Or.inl ⟨fun fits => unfit fits.2, continues.1, raised, continues.2⟩
  rcases sinceBucket : TimeBucket.compute since with raised | first
  · have unfit : ¬TimeBucket.ofMs since < 2 ^ 32 := fun fits => by
      rw [TimeBucket.compute_eq_ok.mpr ⟨rfl, fits⟩] at sinceBucket
      cases sinceBucket
    simp only [Program.resume, nowBucket, sinceBucket, Program.ofExcept, bind] at continues
    exact Or.inl ⟨fun fits => unfit fits.1, continues.1, raised, continues.2⟩
  right
  simp only [Program.resume, nowBucket, sinceBucket, Program.ofExcept, bind] at continues
  rcases TimeBucket.compute_eq_ok.mp nowBucket with ⟨rfl, nowFits⟩
  rcases TimeBucket.compute_eq_ok.mp sinceBucket with ⟨rfl, sinceFits⟩
  refine ⟨⟨sinceFits, nowFits⟩, ?_⟩
  rcases continues.of_resume with ⟨fetching, ending, result, rfl, fetches, ends⟩
  refine ⟨result, ?_, ?_⟩
  · have none : ending = [] := by
      rcases result with raised | rows
      · exact ends.1
      · exact ends.1
    rw [none, List.append_nil]
    exact fetches
  · rcases result with raised | rows
    · exact ends.2
    · exact ends.2

/-- The executions of `get_deltas` that return a page. -/
theorem getDeltas_performs_iff {page : Sync.DeltaPage} :
    (Sync.getDeltas tenantId channelId since limit).Performs calls (.ok page) ↔
      ∃ now, ∃ answers : List BucketAnswer, FitBuckets since now ∧
        answers.map Prod.fst =
          Sync.bucketRange (TimeBucket.ofMs since) (TimeBucket.ofMs now) ∧
        calls = ⟨.systemTime, .ok now⟩ ::
          answers.map (BucketAnswer.query tenantId channelId (min limit 100 + 1)) ∧
        page = deltaPage since (min limit 100) now (answers.map BucketAnswer.read) := by
  constructor
  · intro performs
    have made := performs
    rcases performs with ⟨raised | now, later, rfl, continues⟩
    · cases continues.2
    rcases getDeltas_performs_now made with ⟨-, -, raised, same⟩ | ⟨fits, result, fetches, same⟩
    · cases same
    rcases result with raised | rows
    · cases same
    rcases fetchBuckets_performs_iff.mp fetches with ⟨answers, buckets, rfl, rfl⟩
    refine ⟨now, answers, fits, buckets, rfl, ?_⟩
    rw [← cutPage_newerOf]
    exact Except.ok.inj same
  · rintro ⟨now, answers, ⟨sinceFits, nowFits⟩, buckets, rfl, rfl⟩
    refine ⟨_, _, rfl, ?_⟩
    have nowBucket := TimeBucket.compute_eq_ok.mpr ⟨rfl, nowFits⟩
    have sinceBucket := TimeBucket.compute_eq_ok.mpr ⟨rfl, sinceFits⟩
    simp only [Program.resume, nowBucket, sinceBucket, Program.ofExcept, bind]
    have fetches : (Sync.fetchBuckets tenantId channelId since (min limit 100 + 1)
        (Sync.bucketRange (TimeBucket.ofMs since) (TimeBucket.ofMs now))).Performs _ _ :=
      fetchBuckets_performs_iff.mpr ⟨answers, buckets, rfl, rfl⟩
    rw [← List.append_nil (answers.map _), ← cutPage_newerOf]
    exact fetches.resume ⟨rfl, rfl⟩

end Persistence

/-- A reading that is later than the cursor is the merged clock. -/
theorem merge_of_later {build : Build} {reading since lastCounter : ℕ} {nodeId : Id16}
    (later : since < reading) :
    Hlc.merge build reading ⟨0, 0, nodeId⟩ ⟨since, lastCounter, nodeId⟩ =
      some ⟨reading, 0, nodeId⟩ := by
  have wall : max reading since = reading := max_eq_left later.le
  have notNull : reading ≠ 0 := by omega
  have notCursor : reading ≠ since := by omega
  simp [Hlc.merge, Hlc.mergedCounter, Hlc.maxWall, wall, notNull, notCursor]

section Request

variable {native : Native} {socket : Socket} {channelId : Bytes} {since limit lastCounter : ℕ}
  {made : List (Performed node Raise)}

/-- The executions of a sync request that make a reply: the page, and then the two readings
that are merged with the cursor. -/
theorem syncReply_performs_iff {reply : SyncReply} :
    ((syncReply native socket channelId since limit lastCounter).through persistence).Performs
        made (.ok reply) ↔
      ∃ commands page system reading merged,
        (Sync.getDeltas socket.tenantId.val channelId since (min limit 100)).Performs commands
          (.ok page) ∧
        Hlc.merge native.build reading ⟨system, 0, socket.userId⟩
          ⟨since, lastCounter, socket.userId⟩ = some merged ∧
        made = commands.map onNode ++
          [⟨.inr .systemTime, .ok system⟩, ⟨.inr .nativeTime, .ok reading⟩] ∧
        reply =
          { mergedWall := merged.wallClockMs
            hasMore := page.hasMore
            envelopes := page.deltas.filterMap (encodeDelta native socket channelId) } := by
  rw [syncReply, through_bind, call, through_perform]
  constructor
  · intro performs
    rcases Performs.of_bind performs with ⟨first, rest, page, rfl, finds, continues⟩
    rcases performs_of_inner finds with ⟨commands, found, rfl⟩
    rcases continues with ⟨raised | system, later, rfl, continues⟩
    · cases continues.2
    rcases continues with ⟨raised | reading, last, rfl, continues⟩
    · cases continues.2
    simp only [Program.resume] at continues
    rcases merging : Hlc.merge native.build reading ⟨system, 0, socket.userId⟩
      ⟨since, lastCounter, socket.userId⟩ with _ | merged
    · rw [merging] at continues
      cases continues.2
    rw [merging] at continues
    rcases continues with ⟨rfl, same⟩
    exact ⟨commands, page, system, reading, merged, found, merging, rfl, Except.ok.inj same⟩
  · rintro ⟨commands, page, system, reading, merged, found, merging, rfl, rfl⟩
    refine Performs.bind (performs_inner found) ⟨_, _, rfl, _, _, rfl, ?_⟩
    simp only [Program.resume, merging]
    exact ⟨rfl, rfl⟩

end Request

/-! ## The frame -/

/-- A frame that is a sync request on a joined channel, with the cursor it carries. -/
structure SyncRequest (socket : Socket) (channelId : Bytes) (since : ℕ) (data : Bytes) where
  ref : ℕ
  topicId : ℕ
  payload : Bytes
  info : TopicInfo
  parsed : Frame.parse data = .push ref topicId Event.syncRequest payload
  entry : socket.topicIds.lookup topicId = some info
  names : info.Names channelId
  sinceRead : (if 16 ≤ payload.length then fromLittleEndian (payload.take 8) else 0) = since

namespace SyncRequest

variable {native : Native} {socket : Socket} {channelId data : Bytes} {since : ℕ}
  (request : SyncRequest socket channelId since data)

def limit : ℕ :=
  if 16 ≤ request.payload.length then fromLittleEndian ((request.payload.drop 8).take 4) else 100

def lastCounter : ℕ :=
  if 16 ≤ request.payload.length then fromLittleEndian ((request.payload.drop 12).take 4) else 0

/-- What the frame is answered with. -/
def reaction : Except Raise SyncReply → Reaction
  | .ok reply => replyOk socket request.ref request.topicId reply.encode
  | .error _ => replyError socket request.ref request.topicId (ascii "internal_error")

theorem nodeHandleIn_eq : nodeHandleIn native data socket =
    ((syncReply native socket channelId since request.limit request.lastCounter).through
      persistence).resume fun result => .done (request.reaction result) := by
  rw [nodeHandleIn, handleIn, request.parsed, handleFrame,
    handlePush_of_names request.entry request.names, dispatch_syncRequest, rescue, through_resume]
  rcases request.names with ⟨hex, named, decoded⟩
  rw [dispatchSyncRequest, named, fetch_bind]
  generalize channelIdToBin hex = found at decoded ⊢
  subst decoded
  simp only [request.sinceRead]
  rw [through_bind]
  refine (resume_resume _ _ _).trans (congrArg _ (funext ?_))
  rintro (raised | reply) <;> rfl

/-- The executions of the frame are those of its reply. -/
theorem performs_iff {made : List (Performed node Raise)} {outcome : Except Raise Reaction} :
    (nodeHandleIn native data socket).Performs made outcome ↔
      ∃ result, ((syncReply native socket channelId since request.limit
          request.lastCounter).through persistence).Performs made result ∧
        outcome = .ok (request.reaction result) := by
  rw [request.nodeHandleIn_eq]
  constructor
  · intro performs
    rcases performs.of_resume with ⟨first, later, result, rfl, replies, rfl, rfl⟩
    rw [List.append_nil]
    exact ⟨result, replies, rfl⟩
  · rintro ⟨result, replies, rfl⟩
    rw [← List.append_nil made]
    exact replies.resume ⟨rfl, rfl⟩

end SyncRequest

/-! ## The buckets that are queried -/

/-- The channel and the bucket of a query. -/
def queryOf : node.Call → Option (Bytes × Bytes × ℕ)
  | .inl (.selectMessages tenantId channelId bucket _) => some (tenantId, channelId, bucket)
  | _ => none

/-- The buckets that were queried, in order. -/
def queried (made : List (Performed node Raise)) : List (Bytes × Bytes × ℕ) :=
  (made.map Performed.call).filterMap queryOf

theorem queried_append (first later : List (Performed node Raise)) :
    queried (first ++ later) = queried first ++ queried later := by
  simp [queried]

section Queried

variable {native : Native} {socket : Socket} {channelId : Bytes}
  {since limit lastCounter now : ℕ} {made : List (Performed node Raise)}

/-- The queries of `get_deltas` for the buckets from `first` to `last`. -/
def queriesOf (tenantId channelId : Bytes) (buckets : List ℕ) : List (Bytes × Bytes × ℕ) :=
  buckets.map fun bucket => (tenantId, channelId, bucket)

theorem queried_prefix {tenantId : Bytes} {buckets : List ℕ}
    {commands : List (Performed backend Raise)}
    (queries : commands.map Performed.call <+:
      buckets.map fun bucket => .selectMessages tenantId channelId bucket limit) :
    queried (commands.map onNode) <+: queriesOf tenantId channelId buckets := by
  have nodeQueries := (queries.map Sum.inl).filterMap queryOf
  simpa [queried, queriesOf, onNode, List.filterMap_map, Function.comp_def, queryOf]
    using nodeQueries

/-- A program whose calls are passed on queries nothing. -/
theorem queried_through {Result : Type} {program : Handler Result} {outcome : Except Raise Result}
    (passedOn : program.Ensures (fun _ => True)
      (fun asked => persistence asked = @perform node Raise (.inr asked)) fun _ => True)
    (performs : (program.through persistence).Performs made outcome) : queried made = [] := by
  have quiet : (program.through persistence).Ensures (fun _ => True)
      (fun asked => queryOf asked = none) fun _ => True := by
    apply passedOn.through
    intro asked same
    rw [same]
    exact Ensures.perform.mpr ⟨rfl, fun _ _ => trivial⟩
  apply List.filterMap_eq_nil_iff.mpr
  intro asked askedMem
  rcases List.mem_map.mp askedMem with ⟨taken, takenMem, rfl⟩
  exact (quiet.of_performs performs fun _ _ => trivial).1 taken takenMem

/-- The calls of a request, the first of which reads the clock. -/
abbrev readClock (now : ℕ) (made : List (Performed node Raise)) : List (Performed node Raise) :=
  ⟨.inl .systemTime, .ok now⟩ :: made

/-- What a sync request queries whose clock says `now`. -/
theorem syncReply_queries {result : Except Raise SyncReply}
    (performs : ((syncReply native socket channelId since limit lastCounter).through
      persistence).Performs (readClock now made) result) :
    (¬FitBuckets since now ∧ queried made = [] ∧ ∃ raised, result = .error raised) ∨
    FitBuckets since now ∧
      queried made <+: queriesOf socket.tenantId.val channelId
        (Sync.bucketRange (TimeBucket.ofMs since) (TimeBucket.ofMs now)) ∧
      ∀ reply, result = .ok reply → queried made = queriesOf socket.tenantId.val channelId
        (Sync.bucketRange (TimeBucket.ofMs since) (TimeBucket.ofMs now)) := by
  rw [syncReply, through_bind, call, through_perform] at performs
  rcases performs.of_resume with ⟨first, later, page, split, finds, continues⟩
  rcases performs_of_inner finds with ⟨commands, found, rfl⟩
  have started := found
  rcases started with ⟨answer, queries, rfl, -⟩
  rw [List.map_cons, List.cons_append, List.cons.injEq] at split
  rcases split with ⟨same, rfl⟩
  cases same
  have quiet : queried later = [] := by
    rcases page with raised | page
    · rw [continues.1]
      rfl
    · refine queried_through ?_ continues
      refine Ensures.seq (Ensures.ask rfl) fun systemTime => ?_
      refine Ensures.seq (Ensures.ask rfl) fun reading => ?_
      split <;> trivial
  rw [queried_append, quiet, List.append_nil]
  rcases getDeltas_performs_now found with ⟨unfit, rfl, raised, rfl⟩ | ⟨fits, rows, fetches, rfl⟩
  · exact Or.inl ⟨unfit, rfl, raised, continues.2⟩
  refine Or.inr ⟨fits, queried_prefix (fetchBuckets_queries fetches), ?_⟩
  rintro reply rfl
  rcases rows with raised | rows
  · cases continues.2
  rcases fetchBuckets_performs_iff.mp fetches with ⟨answers, buckets, rfl, rfl⟩
  rw [← buckets]
  simp [queried, queriesOf, onNode, BucketAnswer.query, queryOf, Function.comp_def,
    List.filterMap_map]

end Queried

/-! ## The range -/

/-- The buckets from `first` to `last` in ascending order. -/
def ascending (first last : ℕ) : List ℕ :=
  List.range' first (last + 1 - first)

theorem bucketRange_of_le {first last : ℕ} (le : first ≤ last) :
    Sync.bucketRange first last = ascending first last :=
  if_pos le

theorem bucketRange_ne_nil (first last : ℕ) : Sync.bucketRange first last ≠ [] := by
  unfold Sync.bucketRange
  split
  · simp
    omega
  · simp
    omega

section Range

variable {native : Native} {socket : Socket} {channelId data : Bytes} {since : ℕ}

/-- A request whose clock says `now` is answered with an error or queries the buckets from that
of the cursor to that of the clock, which are none where the cursor's is the later one. -/
structure KeepsRange (request : SyncRequest socket channelId since data) (now : ℕ)
    (made : List (Performed node Raise)) (outcome : Except Raise Reaction) : Prop where
  ascends : (∃ reason, outcome = .ok (replyError socket request.ref request.topicId reason)) ∨
    queried made = queriesOf socket.tenantId.val channelId
      (ascending (TimeBucket.ofMs since) (TimeBucket.ofMs now))
  few : (queried made).length ≤ TimeBucket.ofMs now + 1
  later : TimeBucket.ofMs now < TimeBucket.ofMs since → queried made = []

variable {request : SyncRequest socket channelId since data} {now : ℕ}

theorem keepsRange_of_unfit (unfit : ¬FitBuckets since now) {made : List (Performed node Raise)}
    {outcome : Except Raise Reaction}
    (performs : (nodeHandleIn native data socket).Performs (readClock now made) outcome) :
    KeepsRange request now made outcome := by
  rcases request.performs_iff.mp performs with ⟨result, replies, rfl⟩
  rcases syncReply_queries replies with ⟨-, none, raised, rfl⟩ | ⟨fits, -⟩
  · exact ⟨Or.inl ⟨_, rfl⟩, by simp [none], fun _ => none⟩
  · exact absurd fits unfit

theorem keepsRange_of_le (earlier : TimeBucket.ofMs since ≤ TimeBucket.ofMs now)
    {made : List (Performed node Raise)} {outcome : Except Raise Reaction}
    (performs : (nodeHandleIn native data socket).Performs (readClock now made) outcome) :
    KeepsRange request now made outcome := by
  by_cases fits : FitBuckets since now
  · rcases request.performs_iff.mp performs with ⟨result, replies, rfl⟩
    rcases syncReply_queries replies with ⟨unfit, -⟩ | ⟨-, within, whole⟩
    · exact absurd fits unfit
    rw [bucketRange_of_le earlier] at within whole
    refine ⟨?_, ?_, ?_⟩
    · rcases result with raised | reply
      · exact Or.inl ⟨_, rfl⟩
      · exact Or.inr (whole reply rfl)
    · have length := within.length_le
      simp only [queriesOf, ascending, List.length_map, List.length_range'] at length
      omega
    · intro after
      omega
  · exact keepsRange_of_unfit fits performs

/-- A cursor from a later bucket makes the handler count down to the clock's. -/
theorem exists_countdown (fits : FitBuckets since now)
    (after : TimeBucket.ofMs now < TimeBucket.ofMs since) :
    ∃ made outcome, (nodeHandleIn native data socket).Performs (readClock now made) outcome ∧
      ¬KeepsRange request now made outcome := by
  let buckets := Sync.bucketRange (TimeBucket.ofMs since) (TimeBucket.ofMs now)
  let answers : List BucketAnswer := buckets.map fun bucket => (bucket, .ok [])
  have bucketsEq : answers.map Prod.fst = buckets := by
    simp [answers, Function.comp_def]
  have found : (Sync.getDeltas socket.tenantId.val channelId since (min request.limit 100)).Performs
      _ _ := getDeltas_performs_iff.mpr ⟨now, answers, fits, bucketsEq, rfl, rfl⟩
  have merging := @merge_of_later native.build (since + 1) since request.lastCounter
    socket.userId (Nat.lt_succ_self since)
  have replies := syncReply_performs_iff.mpr ⟨_, _, 0, since + 1, _, found, merging, rfl, rfl⟩
  have performs := request.performs_iff.mpr ⟨_, replies, rfl⟩
  refine ⟨_, _, performs, fun keeps => ?_⟩
  rcases syncReply_queries replies with ⟨unfit, -⟩ | ⟨-, -, whole⟩
  · exact unfit fits
  · have none := (whole _ rfl).symm.trans (keeps.later after)
    exact bucketRange_ne_nil _ _ (List.map_eq_nil_iff.mp none)

/-- The range is kept exactly where the bucket of the cursor is not after the clock's, or one
of the two is beyond 32 bits. -/
theorem keepsRange_iff (native : Native) (request : SyncRequest socket channelId since data)
    (now : ℕ) :
    (∀ made outcome,
      (nodeHandleIn native data socket).Performs (readClock now made) outcome →
        KeepsRange request now made outcome) ↔
      TimeBucket.ofMs since ≤ TimeBucket.ofMs now ∨ ¬FitBuckets since now := by
  constructor
  · intro keeps
    by_contra neither
    rw [not_or, Nat.not_le, not_not] at neither
    rcases @exists_countdown native _ _ _ _ request now neither.2 neither.1 with
      ⟨made, outcome, performs, breaks⟩
    exact breaks (keeps made outcome performs)
  · rintro (earlier | unfit) made outcome performs
    · exact keepsRange_of_le earlier performs
    · exact keepsRange_of_unfit unfit performs

end Range

/-- A client asks for what is newer than a time eleven days ahead of the clock. -/
def aheadPayload : Bytes :=
  littleEndian 8 950400000 ++ littleEndian 4 100 ++ littleEndian 4 0

theorem parse_aheadRequest :
    Frame.parse (Sdk.pushFrame 1 1 Event.syncRequest aheadPayload) =
      .push 1 1 Event.syncRequest aheadPayload :=
  Sdk.parse_pushFrame _ _ (by decide) (by decide)

theorem sinceRead_aheadPayload :
    (if 16 ≤ aheadPayload.length then fromLittleEndian (aheadPayload.take 8) else 0) =
      950400000 := by
  decide

def aheadRequest : SyncRequest (memberSocket 5) (Id16.replicate 7).val 950400000
    (Sdk.pushFrame 1 1 Event.syncRequest aheadPayload) where
  ref := 1
  topicId := 1
  payload := aheadPayload
  info := channelEntry (.replicate 1) (.replicate 7)
  parsed := parse_aheadRequest
  entry := entry_memberFive
  names := names_channelSeven
  sinceRead := sinceRead_aheadPayload

/-- At the clock 1000 the handler queries the buckets 1 and 0. -/
theorem range_counts_down :
    ¬∀ (native : Native) (socket : Socket) (channelId data : Bytes) (since : ℕ)
        (request : SyncRequest socket channelId since data) (now : ℕ)
        (made : List (Performed node Raise)) (outcome : Except Raise Reaction),
      (nodeHandleIn native data socket).Performs (readClock now made) outcome →
        KeepsRange request now made outcome := by
  intro keepsRange
  have fits : FitBuckets 950400000 1000 := ⟨by decide, by decide⟩
  rcases @exists_countdown (Capnp.native [] []) _ _ _ _ aheadRequest 1000 fits (by decide) with
    ⟨made, outcome, performs, breaks⟩
  exact breaks (keepsRange _ _ _ _ _ aheadRequest 1000 made outcome performs)

end Mercury.Gateway
