import Mercury.Foundations.Selection
import Mercury.Gateway.BucketQueries

/-!
# One page of deltas

What `get_deltas` returns of an unchanged channel whose bucket queries succeed. A query is cut
in the order of the message ids before its rows are filtered and sorted by time, so the page is
the oldest newer messages only where the rows that were cut off are not among them.
-/

namespace Mercury.Gateway

open Foundations Foundations.Program Persistence

/-- The answers where the table stays as it is, whatever the clock says. -/
def tableAnswers (table : MessageTable) (tenantId channelId : Bytes) : SyncAnswers where
  clock _ := True
  bucket bucketId limit rows := rows = table.select tenantId channelId bucketId limit

/-- The order of the times of two messages. -/
def Older (left right : MessageRow) : Prop :=
  left.message.createdAt ≤ right.message.createdAt

instance : DecidableRel Older :=
  fun left right => inferInstanceAs (Decidable (left.message.createdAt ≤ right.message.createdAt))

instance : Std.Total Older :=
  ⟨fun left right => Nat.le_total left.message.createdAt right.message.createdAt⟩

instance : IsTrans MessageRow Older :=
  ⟨fun _ _ _ => Nat.le_trans⟩

/-- The messages newer than `since` whose bucket is not after the clock's. -/
def reachedMessages (table : MessageTable) (tenantId channelId : Bytes) (since now : ℕ) :
    List MessageRow :=
  (newerMessages table tenantId channelId since).filter fun row =>
    TimeBucket.ofMs row.message.createdAt ≤ TimeBucket.ofMs now

/-- Those of them that the bucket queries read. -/
def readMessages (table : MessageTable) (tenantId channelId : Bytes) (since limit now : ℕ) :
    List MessageRow :=
  (Sync.bucketRange (TimeBucket.ofMs since) (TimeBucket.ofMs now)).flatMap fun bucketId =>
    (table.select tenantId channelId bucketId limit).filter fun row =>
      since < row.message.createdAt

section Rows

variable {table : MessageTable} {tenantId channelId : Bytes} {since limit now : ℕ}

theorem mem_reachedMessages {row : MessageRow} :
    row ∈ reachedMessages table tenantId channelId since now ↔
      row ∈ messagesOf table tenantId channelId ∧ since < row.message.createdAt ∧
        TimeBucket.ofMs row.message.createdAt ≤ TimeBucket.ofMs now := by
  simp [reachedMessages, mem_newerMessages, and_assoc]

theorem nodup_reachedMessages : (reachedMessages table tenantId channelId since now).Nodup :=
  (((List.Nodup.of_map _ table.unique).filter _).filter _).filter _

theorem mem_readMessages {row : MessageRow} :
    row ∈ readMessages table tenantId channelId since limit now ↔
      row ∈ newerMessages table tenantId channelId since ∧
        row.bucketId ∈ Sync.bucketRange (TimeBucket.ofMs since) (TimeBucket.ofMs now) ∧
          row ∈ table.select tenantId channelId row.bucketId limit := by
  simp only [readMessages, List.mem_flatMap, List.mem_filter, decide_eq_true_eq,
    mem_newerMessages]
  constructor
  · rintro ⟨bucketId, inRange, selected, newer⟩
    rcases mem_of_mem_select selected with ⟨held, rfl⟩
    exact ⟨⟨held, newer⟩, inRange, selected⟩
  · rintro ⟨⟨-, newer⟩, inRange, selected⟩
    exact ⟨row.bucketId, inRange, selected, newer⟩

/-- With a clock that is not before the cursor every bucket up to the clock's is read. -/
theorem mem_readMessages_of_le (bucketed : Bucketed table tenantId channelId)
    (reached : since ≤ now) {row : MessageRow} :
    row ∈ readMessages table tenantId channelId since limit now ↔
      row ∈ reachedMessages table tenantId channelId since now ∧
        row ∈ table.select tenantId channelId row.bucketId limit := by
  have range := bucketRange_of_le (TimeBucket.ofMs_mono reached)
  rw [mem_readMessages, range, ascending, List.mem_range'_1, mem_newerMessages,
    mem_reachedMessages]
  constructor
  · rintro ⟨⟨held, newer⟩, inRange, selected⟩
    have bucketEq := (TimeBucket.compute_eq_ok.mp (bucketed row held)).1
    refine ⟨⟨held, newer, ?_⟩, selected⟩
    omega
  · rintro ⟨⟨held, newer, bounded⟩, selected⟩
    have bucketEq := (TimeBucket.compute_eq_ok.mp (bucketed row held)).1
    have low := TimeBucket.ofMs_mono (Nat.le_of_lt newer)
    refine ⟨⟨held, newer⟩, ?_, selected⟩
    omega

theorem nodup_readMessages : (readMessages table tenantId channelId since limit now).Nodup := by
  refine List.nodup_flatMap.mpr ⟨fun bucketId _ => nodup_select.filter _, ?_⟩
  apply (nodup_bucketRange _ _).imp
  intro first second apart row inFirst inSecond
  have firstBucket := (mem_of_mem_select (List.mem_filter.mp inFirst).1).2
  have secondBucket := (mem_of_mem_select (List.mem_filter.mp inSecond).1).2
  exact apart (firstBucket.symm.trans secondBucket)

/-- The messages of reads that are answered from the table. -/
theorem newerOf_of_readsFrom {reads : List BucketRead}
    (reads_from : (tableAnswers table tenantId channelId).ReadsFrom since limit now reads) :
    newerOf since reads =
      (readMessages table tenantId channelId since limit now).map MessageRow.message := by
  have readsEq : reads = (reads.map Prod.fst).map fun bucketId =>
      (bucketId, table.select tenantId channelId bucketId limit) := by
    rw [List.map_map]
    refine (List.map_id reads).symm.trans (List.map_congr_left fun read readMem => ?_)
    exact Prod.ext rfl (reads_from.rows read readMem)
  rw [readsEq, reads_from.buckets]
  simp [newerOf, readMessages, List.flatMap_map, List.map_flatMap, List.filter_map,
    Function.comp_def]

/-- What is read, by the time of the messages. -/
def sortedMessages (table : MessageTable) (tenantId channelId : Bytes) (since limit now : ℕ) :
    List MessageRow :=
  (readMessages table tenantId channelId since limit now).insertionSort Older

theorem sortByCreatedAt_newerOf {reads : List BucketRead}
    (reads_from : (tableAnswers table tenantId channelId).ReadsFrom since limit now reads) :
    Sync.sortByCreatedAt (newerOf since reads) =
      (sortedMessages table tenantId channelId since limit now).map MessageRow.message := by
  rw [newerOf_of_readsFrom reads_from, Sync.sortByCreatedAt, sortedMessages]
  exact (List.map_insertionSort Older
    (fun first second : Message => first.createdAt ≤ second.createdAt) MessageRow.message _
    fun _ _ _ _ => Iff.rfl).symm

/-- The delta of a message tells its row. -/
theorem eq_of_toDelta_eq (bucketed : Bucketed table tenantId channelId) {left right : MessageRow}
    (leftMem : left ∈ messagesOf table tenantId channelId)
    (rightMem : right ∈ messagesOf table tenantId channelId)
    (same : Sync.toDelta left.message = Sync.toDelta right.message) : left = right := by
  simp only [Sync.toDelta, Sync.MessageDelta.mk.injEq] at same
  have ids : left.message.messageId = right.message.messageId := by
    have decoded := congrArg Base.decode16 same.1
    simpa using decoded
  have leftBucket := (TimeBucket.compute_eq_ok.mp (bucketed left leftMem)).1
  have rightBucket := (TimeBucket.compute_eq_ok.mp (bucketed right rightMem)).1
  have buckets : left.bucketId = right.bucketId := by
    rw [leftBucket, rightBucket, same.2.2.2.2]
  rw [mem_messagesOf] at leftMem rightMem
  apply KeyedTable.eq_of_key_eq leftMem.1 rightMem.1
  simp [MessageRow.key, leftMem.2, rightMem.2, buckets, ids]

/-- The page that is cut from what is read. -/
def tablePage (table : MessageTable) (tenantId channelId : Bytes) (since limit now : ℕ) :
    Sync.DeltaPage where
  deltas := ((sortedMessages table tenantId channelId since (limit + 1) now).take limit).map
    fun row => Sync.toDelta row.message
  serverHlc := now
  hasMore := limit < (readMessages table tenantId channelId since (limit + 1) now).length

theorem deltaPage_of_readsFrom {reads : List BucketRead}
    (reads_from :
      (tableAnswers table tenantId channelId).ReadsFrom since (limit + 1) now reads) :
    deltaPage since limit now reads = tablePage table tenantId channelId since limit now := by
  rw [deltaPage, pageOf, sortByCreatedAt_newerOf reads_from, newerOf_of_readsFrom reads_from]
  simp only [tablePage, ← List.map_take, List.map_map, List.length_map]
  rfl

end Rows

/-! ## What a page should be -/

/-- The page holds the oldest of the newer messages, and tells whether there are more. -/
structure OnePage (table : MessageTable) (tenantId channelId : Bytes) (since limit now : ℕ)
    (page : Sync.DeltaPage) : Prop where
  deltas : ∃ chosen,
    FirstBy Older limit (reachedMessages table tenantId channelId since now) chosen ∧
      page.deltas = chosen.map fun row => Sync.toDelta row.message
  more : page.hasMore = true ↔
    limit < (reachedMessages table tenantId channelId since now).length

/-- With the clock at `now` and the bucket queries answered from the table, `get_deltas` returns
such a page. -/
def ReturnsOnePage (table : MessageTable) (tenantId channelId : Bytes)
    (since limit now : ℕ) : Prop :=
  ∀ calls outcome,
    (Sync.getDeltas tenantId channelId since limit).Performs
      (⟨.systemTime, .ok now⟩ :: calls) outcome →
    (∀ taken ∈ calls, (tableAnswers table tenantId channelId).Admits tenantId channelId taken) →
      ∃ page, outcome = .ok page ∧ OnePage table tenantId channelId since limit now page

/-- Where the query of its bucket cuts off a newer message, more than a page is read, and a page
of what is read is not later than the message. -/
def CutOffLater (table : MessageTable) (tenantId channelId : Bytes)
    (since limit now : ℕ) : Prop :=
  ∀ row ∈ reachedMessages table tenantId channelId since now,
    row ∉ table.select tenantId channelId row.bucketId (limit + 1) →
      limit < (readMessages table tenantId channelId since (limit + 1) now).length ∧
        limit ≤ (readMessages table tenantId channelId since (limit + 1) now).countP (Older · row)

section Page

variable {table : MessageTable} {tenantId channelId : Bytes} {since limit now : ℕ}

theorem sortedMessages_perm : (sortedMessages table tenantId channelId since limit now).Perm
    (readMessages table tenantId channelId since limit now) :=
  List.perm_insertionSort _ _

theorem nodup_sortedMessages : (sortedMessages table tenantId channelId since limit now).Nodup :=
  sortedMessages_perm.nodup_iff.mpr nodup_readMessages

section Reached

variable (bucketed : Bucketed table tenantId channelId) (reached : since ≤ now)

include bucketed reached

theorem mem_sortedMessages {row : MessageRow} :
    row ∈ sortedMessages table tenantId channelId since (limit + 1) now ↔
      row ∈ reachedMessages table tenantId channelId since now ∧
        row ∈ table.select tenantId channelId row.bucketId (limit + 1) :=
  sortedMessages_perm.mem_iff.trans (mem_readMessages_of_le bucketed reached)

theorem sortedMessages_subset :
    sortedMessages table tenantId channelId since (limit + 1) now ⊆
      reachedMessages table tenantId channelId since now :=
  fun _ rowMem => ((mem_sortedMessages bucketed reached).mp rowMem).1

/-- The page is the oldest of the newer messages exactly if as many are read as it needs, and
those that are not read have a page of what is read before them. -/
theorem firstBy_page_iff :
    FirstBy Older limit (reachedMessages table tenantId channelId since now)
        ((sortedMessages table tenantId channelId since (limit + 1) now).take limit) ↔
      min limit (readMessages table tenantId channelId since (limit + 1) now).length =
          min limit (reachedMessages table tenantId channelId since now).length ∧
        ∀ row ∈ reachedMessages table tenantId channelId since now,
          row ∉ table.select tenantId channelId row.bucketId (limit + 1) →
            limit ≤ (readMessages table tenantId channelId since (limit + 1) now).countP
              (Older · row) := by
  have isSorted : (sortedMessages table tenantId channelId since (limit + 1) now).Pairwise Older :=
    List.pairwise_insertionSort _ _
  have selection := @firstBy_take_iff _ Older limit _ _ (fun _ _ _ => Nat.le_trans) _ isSorted
    nodup_sortedMessages (sortedMessages_subset bucketed reached)
  rw [selection, sortedMessages_perm.length_eq]
  apply and_congr_right
  intro _
  apply forall₂_congr
  intro row rowMem
  rw [sortedMessages_perm.countP_eq, mem_sortedMessages bucketed reached]
  exact imp_congr_left (by simp [rowMem])

theorem cutOffLater_of_onePage
    (isPage : OnePage table tenantId channelId since limit now
      (tablePage table tenantId channelId since limit now)) :
    CutOffLater table tenantId channelId since limit now := by
  rcases isPage with ⟨⟨chosen, isFirst, same⟩, more⟩
  have chosenEq : (sortedMessages table tenantId channelId since (limit + 1) now).take limit =
      chosen := by
    refine eq_of_map_eq (fun left leftMem right rightMem sameDelta => ?_) same
    have leftReached := sortedMessages_subset bucketed reached (List.mem_of_mem_take leftMem)
    exact eq_of_toDelta_eq bucketed (mem_reachedMessages.mp leftReached).1
      (mem_reachedMessages.mp (isFirst.within rightMem)).1 sameDelta
  rw [← chosenEq, firstBy_page_iff bucketed reached] at isFirst
  intro row rowMem cutOff
  have outside : row ∉ sortedMessages table tenantId channelId since (limit + 1) now :=
    fun inside => cutOff ((mem_sortedMessages bucketed reached).mp inside).2
  have longer := length_lt_of_not_mem nodup_sortedMessages
    (sortedMessages_subset bucketed reached) rowMem outside
  rw [sortedMessages_perm.length_eq] at longer
  have moreRead : limit < (readMessages table tenantId channelId since (limit + 1) now).length ↔
      limit < (reachedMessages table tenantId channelId since now).length := by
    simpa [tablePage] using more
  have lengths := isFirst.1
  exact ⟨by omega, isFirst.2 row rowMem cutOff⟩

theorem onePage_of_cutOffLater (later : CutOffLater table tenantId channelId since limit now) :
    OnePage table tenantId channelId since limit now
      (tablePage table tenantId channelId since limit now) := by
  -- either all newer messages are read, or more than the page needs
  have enough : (readMessages table tenantId channelId since (limit + 1) now).length =
        (reachedMessages table tenantId channelId since now).length ∨
      limit < (readMessages table tenantId channelId since (limit + 1) now).length := by
    by_cases all : reachedMessages table tenantId channelId since now ⊆
        sortedMessages table tenantId channelId since (limit + 1) now
    · left
      rw [← sortedMessages_perm.length_eq]
      exact (length_eq_iff nodup_sortedMessages (sortedMessages_subset bucketed reached)
        nodup_reachedMessages).mpr all
    · right
      simp only [List.subset_def, not_forall] at all
      rcases all with ⟨row, rowMem, outside⟩
      refine (later row rowMem fun selected => outside ?_).1
      exact (mem_sortedMessages bucketed reached).mpr ⟨rowMem, selected⟩
  have within := @sortedMessages_subset table tenantId channelId since limit now bucketed reached
  have shorter := (List.subperm_of_subset nodup_sortedMessages within).length_le
  rw [sortedMessages_perm.length_eq] at shorter
  refine ⟨⟨_, (firstBy_page_iff bucketed reached).mpr ⟨?_, ?_⟩, rfl⟩, ?_⟩
  · rcases enough with same | more <;> omega
  · intro row rowMem cutOff
    exact (later row rowMem cutOff).2
  · simp only [tablePage, decide_eq_true_eq]
    rcases enough with same | more <;> omega

theorem onePage_tablePage_iff :
    OnePage table tenantId channelId since limit now
        (tablePage table tenantId channelId since limit now) ↔
      CutOffLater table tenantId channelId since limit now :=
  ⟨cutOffLater_of_onePage bucketed reached, onePage_of_cutOffLater bucketed reached⟩

end Reached

/-- An answer to the calls of `get_deltas`, with the clock at `now` and the rows of the table. -/
def tableAnswer (table : MessageTable) (now : ℕ) :
    (asked : Backend.Call) → Except Raise (Backend.Answer asked)
  | .systemTime => .ok now
  | .selectMessages tenantId channelId bucketId limit =>
      .ok (.ok (table.select tenantId channelId bucketId limit))
  | _ => .error .panicked

/-- Some execution reads the table at `now`. -/
theorem exists_tableRead (table : MessageTable) (tenantId channelId : Bytes)
    (since limit now : ℕ) :
    ∃ calls outcome, (Sync.getDeltas tenantId channelId since limit).Performs
        (⟨.systemTime, .ok now⟩ :: calls) outcome ∧
      ∀ taken ∈ calls, (tableAnswers table tenantId channelId).Admits tenantId channelId taken := by
  have performs := @performs_runWith backend Raise _ (tableAnswer table now)
    (Sync.getDeltas tenantId channelId since limit)
  refine ⟨_, _, performs, fun taken takenMem => ?_⟩
  have answered := @answer_of_mem_runWith backend Raise _ (tableAnswer table now)
    (Sync.getDeltas tenantId channelId since limit) taken (List.mem_cons_of_mem _ takenMem)
  rcases taken with ⟨asked, answer⟩
  dsimp only at answered
  subst answered
  cases asked with
  | selectMessages =>
      rintro rfl rfl
      exact ⟨_, rfl, rfl⟩
  | _ => trivial

/-- What such an execution returns. -/
theorem outcome_of_tableRead (few : limit ≤ 100) {calls : List (Performed backend Raise)}
    {outcome : Except Raise Sync.DeltaPage}
    (performs : (Sync.getDeltas tenantId channelId since limit).Performs
      (⟨.systemTime, .ok now⟩ :: calls) outcome)
    (reads : ∀ taken ∈ calls, (tableAnswers table tenantId channelId).Admits tenantId channelId
      taken) :
    FitBuckets since now ∧ outcome = .ok (tablePage table tenantId channelId since limit now) ∨
      ¬FitBuckets since now ∧ ∃ raised, outcome = .error raised := by
  rcases getDeltas_performs_now performs with ⟨unfit, -, raised⟩ | ⟨fits, result, fetches, rfl⟩
  · exact Or.inr ⟨unfit, raised⟩
  left
  rw [Nat.min_eq_left few] at fetches ⊢
  rcases ((fetchBuckets_ensures _).of_performs fetches reads).2 with ⟨found, buckets, rows, rfl⟩
  refine ⟨fits, ?_⟩
  have reads_from :
      (tableAnswers table tenantId channelId).ReadsFrom since (limit + 1) now found :=
    ⟨trivial, fits, buckets, rows⟩
  change Except.ok (cutPage limit now (newerOf since found)) = _
  rw [cutPage_newerOf, deltaPage_of_readsFrom reads_from]

/-- `get_deltas` returns the oldest newer messages exactly where the bucket of the clock fits
32 bits and no query cuts off a message that belongs on the page. -/
theorem returnsOnePage_iff (bucketed : Bucketed table tenantId channelId) (reached : since ≤ now)
    (few : limit ≤ 100) :
    ReturnsOnePage table tenantId channelId since limit now ↔
      TimeBucket.ofMs now < 2 ^ 32 ∧ CutOffLater table tenantId channelId since limit now := by
  have sinceFits : TimeBucket.ofMs now < 2 ^ 32 → FitBuckets since now :=
    fun fits => ⟨(TimeBucket.ofMs_mono reached).trans_lt fits, fits⟩
  constructor
  · intro returns
    rcases exists_tableRead table tenantId channelId since limit now with
      ⟨calls, outcome, performs, reads⟩
    rcases returns calls outcome performs reads with ⟨page, rfl, isPage⟩
    rcases outcome_of_tableRead few performs reads with ⟨fits, same⟩ | ⟨-, raised, same⟩
    · cases same
      exact ⟨fits.2, (onePage_tablePage_iff bucketed reached).mp isPage⟩
    · cases same
  · rintro ⟨nowFits, later⟩ calls outcome performs reads
    rcases outcome_of_tableRead few performs reads with ⟨-, same⟩ | ⟨unfit, -⟩
    · exact ⟨_, same, (onePage_tablePage_iff bucketed reached).mpr later⟩
    · exact absurd (sinceFits nowFits) unfit

end Page

def sampleTenant : Bytes := List.replicate 16 1

def sampleChannel : Bytes := List.replicate 16 7

/-- A message of the first bucket, with its id and its time. -/
def timedRow (id : Byte) (createdAt : ℕ) : MessageRow where
  tenantId := sampleTenant
  channelId := sampleChannel
  bucketId := 0
  message := ⟨List.replicate 16 id, List.replicate 16 5, [], 0, none, createdAt⟩
  serverReceivedAt := 0

/-- Three messages of one bucket, the oldest of which has the least id. -/
def timedTable : MessageTable where
  rows := [timedRow 3 20, timedRow 2 30, timedRow 1 10]
  unique := by decide

theorem bucketed_timedTable : Bucketed timedTable sampleTenant sampleChannel := by
  unfold Bucketed
  decide

/-- A page that holds all three. -/
theorem returnsOnePage_three : ReturnsOnePage timedTable sampleTenant sampleChannel 0 3 40 := by
  refine (returnsOnePage_iff bucketed_timedTable (by decide) (by decide)).mpr ⟨by decide, ?_⟩
  unfold CutOffLater
  decide

/-- A page of one is not the oldest message, whose id is not among the two greatest. -/
theorem page_not_oldest :
    ¬∀ (table : MessageTable) (tenantId channelId : Bytes) (since limit now : ℕ),
      Bucketed table tenantId channelId → since ≤ now → 1 ≤ limit → limit ≤ 100 →
        ReturnsOnePage table tenantId channelId since limit now := by
  intro returnsOnePage
  rcases exists_tableRead timedTable sampleTenant sampleChannel 0 1 40 with
    ⟨calls, outcome, performs, reads⟩
  rcases returnsOnePage timedTable sampleTenant sampleChannel 0 1 40 bucketed_timedTable (by decide)
    (by decide) (by decide) calls outcome performs reads with ⟨page, rfl, isPage⟩
  rcases outcome_of_tableRead (by decide) performs reads with ⟨-, same⟩ | ⟨-, raised, same⟩
  · cases same
    have later := (onePage_tablePage_iff bucketed_timedTable (by decide)).mp isPage
    exact absurd later (by unfold CutOffLater; decide)
  · cases same

end Mercury.Gateway
