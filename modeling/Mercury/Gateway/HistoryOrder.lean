import Mercury.Gateway.DeltaPages
import Mercury.Gateway.RecentCache

/-!
# The order of a history

`read_recent` reads two buckets in the order of the message ids. What it returns are the newest
messages of the channel exactly when the two buckets hold enough of them, and no message that
is returned is older than one of its bucket whose id is smaller.
-/

namespace Mercury.Gateway

open Foundations Foundations.Program Persistence

/-- The reads are answered from the table at the time `now`, and no list is cached. -/
def Recalls (table : MessageTable) (now : ℕ) : Performed commands Raise → Prop
  | ⟨.get _, answer⟩ => answer = .ok (.ok none)
  | ⟨.time, answer⟩ => answer = .ok now
  | ⟨.selectMessages tenantId channelId bucketId limit, answer⟩ =>
      if limit = 0 then ∃ reason, answer = .ok (.error reason)
      else answer = .ok (.ok (table.select tenantId channelId bucketId limit))
  | ⟨command, answer⟩ => ¬MayRaise command → ∃ reply, answer = .ok reply

/-- The order of the times of two messages, newest first. -/
def Newer (first second : Message) : Prop :=
  second.createdAt ≤ first.createdAt

/-- The order in which the rows are read. -/
def Precedes (first second : MessageRow) : Prop :=
  second.bucketId < first.bucketId ∨
    first.bucketId = second.bucketId ∧ second.message.messageId < first.message.messageId

instance : DecidableRel Precedes :=
  fun first second => inferInstanceAs (Decidable (second.bucketId < first.bucketId ∨
    first.bucketId = second.bucketId ∧ second.message.messageId < first.message.messageId))

/-- The rows of a bucket, as they are read. -/
def bucketRows (table : MessageTable) (tenantId channelId : Bytes) (bucket : ℕ) :
    List MessageRow :=
  (table.partition tenantId channelId bucket).insertionSort fun first second =>
    second.message.messageId ≤ first.message.messageId

/-- The rows of the bucket and of the one before it, as they are read. -/
def recentRows (table : MessageTable) (tenantId channelId : Bytes) (bucket : ℕ) :
    List MessageRow :=
  bucketRows table tenantId channelId bucket ++
    match bucket with
    | 0 => []
    | older + 1 => bucketRows table tenantId channelId older

/-- The row is in the bucket or the one before it, where there are no later ones. -/
def Recent (bucket : ℕ) (row : MessageRow) : Prop :=
  bucket ≤ row.bucketId + 1

instance (bucket : ℕ) : DecidablePred (Recent bucket) :=
  fun row => inferInstanceAs (Decidable (bucket ≤ row.bucketId + 1))

/-- How many messages of the channel are read before the row. -/
def place (table : MessageTable) (tenantId channelId : Bytes) (row : MessageRow) : ℕ :=
  (messagesOf table tenantId channelId).countP fun other => Precedes other row

/-- The two buckets hold as many messages as are asked for, if there are so many, and none that
is read among the first is older than one of its bucket with a smaller id. -/
structure ShowsNewest (table : MessageTable) (tenantId channelId : Bytes) (limit bucket : ℕ) :
    Prop where
  enough : min limit (messagesOf table tenantId channelId).length ≤
    (messagesOf table tenantId channelId).countP fun row => Recent bucket row
  ordered : ∀ row ∈ messagesOf table tenantId channelId, Recent bucket row →
    place table tenantId channelId row < limit →
      ∀ other ∈ messagesOf table tenantId channelId, other.bucketId = row.bucketId →
        other.message.messageId < row.message.messageId →
          other.message.createdAt ≤ row.message.createdAt

section Rows

variable {table : MessageTable} {tenantId channelId : Bytes} {bucket now limit : ℕ}

theorem Recalls.recentAnswer {json : Json} {taken : Performed commands Raise}
    (current : TimeBucket.compute now = .ok bucket) (recalls : Recalls table now taken) :
    RecentAnswer True json table tenantId channelId bucket taken where
  replied _ surely := by
    rcases taken with ⟨command, answer⟩
    cases command with
    | selectMessages tenantId channelId bucketId limit =>
        simp only [Recalls] at recalls
        split at recalls
        · rcases recalls with ⟨reason, rfl⟩
          exact ⟨_, rfl⟩
        · exact ⟨_, recalls⟩
    | get => exact ⟨_, recalls⟩
    | time => exact ⟨_, recalls⟩
    | _ => exact recalls surely
  timed time same := by
    subst same
    cases Except.ok.inj recalls
    exact current
  read asked limit page same := by
    subst same
    simp only [Recalls] at recalls
    split at recalls
    · next none =>
        rcases recalls with ⟨reason, same⟩
        exact Or.inl ⟨none, reason, Except.ok.inj same⟩
    · next positive => exact Or.inr ⟨by omega, Except.ok.inj recalls⟩
  cached text msgs same := by
    subst same
    cases recalls

theorem newestMessages_eq : newestMessages table tenantId channelId bucket =
    (recentRows table tenantId channelId bucket).map MessageRow.message := by
  cases bucket with
  | zero => simp only [newestMessages, recentRows, List.append_nil]; rfl
  | succ older => exact (List.map_append).symm

/-- A history that is answered from the table. -/
theorem readRecent_recalled {json : Json} {made : List (Performed commands Raise)}
    {outcome : Except Raise (List Message)} (current : TimeBucket.compute now = .ok bucket)
    (performs : (Messages.readRecent json tenantId channelId limit).Performs made outcome)
    (recalls : ∀ taken ∈ made, Recalls table now taken) :
    outcome = .ok (((recentRows table tenantId channelId bucket).take limit).map
      MessageRow.message) := by
  have returned := (readRecent_newest.of_performs performs fun taken takenMem =>
    (recalls taken takenMem).recentAnswer current).2
  rcases outcome with raised | msgs
  · exact absurd trivial returned
  · rw [List.map_take, ← newestMessages_eq]
    exact congrArg Except.ok returned

theorem mem_bucketRows {row : MessageRow} : row ∈ bucketRows table tenantId channelId bucket ↔
    row ∈ messagesOf table tenantId channelId ∧ row.bucketId = bucket := by
  rw [bucketRows, (List.perm_insertionSort _ _).mem_iff, MessageTable.partition, List.mem_filter,
    mem_messagesOf, decide_eq_true_eq, KeyedTable.mem_def]
  simp only [and_assoc]

theorem pairwise_bucketRows :
    (bucketRows table tenantId channelId bucket).Pairwise Precedes := by
  have total : Std.Total fun first second : MessageRow =>
      second.message.messageId ≤ first.message.messageId :=
    ⟨fun first second => le_total second.message.messageId first.message.messageId⟩
  have trans : IsTrans MessageRow fun first second =>
      second.message.messageId ≤ first.message.messageId :=
    ⟨fun _ _ _ first second => le_trans second first⟩
  have sorted : (bucketRows table tenantId channelId bucket).Pairwise fun first second =>
      second.message.messageId ≤ first.message.messageId := List.pairwise_insertionSort _ _
  have distinct : (bucketRows table tenantId channelId bucket).Nodup :=
    (List.perm_insertionSort _ _).nodup_iff.mpr ((List.Nodup.of_map _ table.unique).filter _)
  apply (sorted.and distinct).imp_of_mem
  intro first second firstMem secondMem ordered
  rcases mem_bucketRows.mp firstMem with ⟨firstHeld, firstBucket⟩
  rcases mem_bucketRows.mp secondMem with ⟨secondHeld, secondBucket⟩
  rw [mem_messagesOf] at firstHeld secondHeld
  refine Or.inr ⟨firstBucket.trans secondBucket.symm, lt_of_le_of_ne ordered.1 fun same => ?_⟩
  refine ordered.2 (KeyedTable.eq_of_key_eq firstHeld.1 secondHeld.1 ?_)
  simp [MessageRow.key, firstHeld.2, secondHeld.2, firstBucket, secondBucket, same]

theorem pairwise_recentRows :
    (recentRows table tenantId channelId bucket).Pairwise Precedes := by
  cases bucket with
  | zero => exact List.pairwise_append.mpr ⟨pairwise_bucketRows, List.Pairwise.nil, by simp⟩
  | succ older =>
      refine List.pairwise_append.mpr ⟨pairwise_bucketRows, pairwise_bucketRows, ?_⟩
      intro first firstMem second secondMem
      have firstBucket := (mem_bucketRows.mp firstMem).2
      have secondBucket := (mem_bucketRows.mp secondMem).2
      exact Or.inl (by omega)

theorem precedes_asymm (first second : MessageRow) (before : Precedes first second) :
    ¬Precedes second first := by
  rintro (later | ⟨sameBucket, laterId⟩)
  · rcases before with earlier | ⟨same, -⟩ <;> omega
  · rcases before with earlier | ⟨-, earlierId⟩
    · omega
    · exact lt_asymm earlierId laterId

theorem nodup_recentRows : (recentRows table tenantId channelId bucket).Nodup := by
  apply pairwise_recentRows.imp
  intro first second before
  rintro rfl
  exact precedes_asymm _ _ before before

variable (reached : ∀ row ∈ messagesOf table tenantId channelId, row.bucketId ≤ bucket)

include reached

theorem mem_recentRows {row : MessageRow} :
    row ∈ recentRows table tenantId channelId bucket ↔
      row ∈ messagesOf table tenantId channelId ∧ Recent bucket row := by
  cases bucket with
  | zero =>
      simp only [recentRows, List.append_nil, mem_bucketRows, Recent, Nat.zero_le, and_true]
      exact ⟨And.left, fun held => ⟨held, Nat.le_zero.mp (reached row held)⟩⟩
  | succ older =>
      simp only [recentRows, List.mem_append, mem_bucketRows, Recent]
      constructor
      · rintro (⟨held, inBucket⟩ | ⟨held, inBucket⟩)
        · exact ⟨held, by omega⟩
        · exact ⟨held, by omega⟩
      · rintro ⟨held, recent⟩
        have := reached row held
        rcases Nat.lt_or_ge older row.bucketId with later | before
        · exact Or.inl ⟨held, by omega⟩
        · exact Or.inr ⟨held, by omega⟩

/-- The rows that are read are the recent ones of the channel. -/
theorem perm_recentRows : (recentRows table tenantId channelId bucket).Perm
    ((messagesOf table tenantId channelId).filter fun row => Recent bucket row) := by
  have distinct : (messagesOf table tenantId channelId).Nodup :=
    (List.Nodup.of_map _ table.unique).filter _
  apply (List.perm_ext_iff_of_nodup nodup_recentRows (distinct.filter _)).mpr
  intro row
  rw [mem_recentRows reached, List.mem_filter, decide_eq_true_eq]

theorem length_recentRows : (recentRows table tenantId channelId bucket).length =
    (messagesOf table tenantId channelId).countP fun row => Recent bucket row := by
  rw [(perm_recentRows reached).length_eq, List.countP_eq_length_filter]

/-- A row is among the first exactly by its place. -/
theorem mem_take_recentRows {row : MessageRow}
    (rowMem : row ∈ recentRows table tenantId channelId bucket) :
    row ∈ (recentRows table tenantId channelId bucket).take limit ↔
      place table tenantId channelId row < limit := by
  have recent := ((mem_recentRows reached).mp rowMem).2
  rw [mem_take_iff_countP precedes_asymm pairwise_recentRows rowMem,
    (perm_recentRows reached).countP_eq, List.countP_filter, place]
  refine iff_of_eq (congrArg (· < limit) (List.countP_congr fun other _ => ?_))
  simp only [Bool.and_eq_true, decide_eq_true_eq, and_iff_left_iff_imp]
  -- what precedes a recent row is recent
  rintro (later | ⟨same, -⟩)
  · unfold Recent at *
    omega
  · unfold Recent at *
    omega

end Rows

section Order

variable {table : MessageTable} {tenantId channelId : Bytes} {bucket now limit : ℕ}
  (bucketed : Bucketed table tenantId channelId)

include bucketed

/-- A message of a later bucket is newer. -/
theorem newer_of_bucket_lt {first second : MessageRow}
    (firstMem : first ∈ messagesOf table tenantId channelId)
    (secondMem : second ∈ messagesOf table tenantId channelId)
    (later : second.bucketId < first.bucketId) : Newer first.message second.message := by
  by_contra older
  have times := TimeBucket.ofMs_mono (not_le.mp older).le
  have firstBucket := (TimeBucket.compute_eq_ok.mp (bucketed first firstMem)).1
  have secondBucket := (TimeBucket.compute_eq_ok.mp (bucketed second secondMem)).1
  omega

theorem bucket_le_of_reached (current : TimeBucket.compute now = .ok bucket)
    (past : ∀ row ∈ messagesOf table tenantId channelId, row.message.createdAt ≤ now) :
    ∀ row ∈ messagesOf table tenantId channelId, row.bucketId ≤ bucket := by
  intro row rowMem
  rw [(TimeBucket.compute_eq_ok.mp (bucketed row rowMem)).1,
    (TimeBucket.compute_eq_ok.mp current).1]
  exact TimeBucket.ofMs_mono (past row rowMem)

/-- The first rows that are read are the newest messages of the channel exactly when there are
enough of them and their ids go with their times. -/
theorem firstBy_recentRows_iff
    (reached : ∀ row ∈ messagesOf table tenantId channelId, row.bucketId ≤ bucket) :
    FirstBy Newer limit ((messagesOf table tenantId channelId).map MessageRow.message)
        (((recentRows table tenantId channelId bucket).take limit).map MessageRow.message) ↔
      ShowsNewest table tenantId channelId limit bucket := by
  have within : recentRows table tenantId channelId bucket ⊆ messagesOf table tenantId channelId :=
    fun row rowMem => ((mem_recentRows reached).mp rowMem).1
  rw [firstBy_map_iff (fun left leftMem right rightMem =>
      eq_of_message_eq bucketed leftMem rightMem)
    (fun row rowMem => within (List.mem_of_mem_take rowMem)),
    firstBy_prefix_iff nodup_recentRows within, length_recentRows reached]
  have most : ((messagesOf table tenantId channelId).countP fun row => Recent bucket row) ≤
      (messagesOf table tenantId channelId).length := List.countP_le_length
  constructor
  · rintro ⟨lengths, inside, -⟩
    refine ⟨by omega, fun row held recent early other otherHeld sameBucket smaller => ?_⟩
    have rowMem := (mem_recentRows reached).mpr ⟨held, recent⟩
    have otherMem := (mem_recentRows reached).mpr
      ⟨otherHeld, show bucket ≤ other.bucketId + 1 from sameBucket ▸ recent⟩
    have before : Precedes row other := Or.inr ⟨sameBucket.symm, smaller⟩
    have apart : row ≠ other := by
      rintro rfl
      exact precedes_asymm _ _ before before
    apply inside row ((mem_take_recentRows reached rowMem).mpr early) other
    apply (pair_sublist_or rowMem otherMem apart).resolve_right
    intro behind
    exact precedes_asymm _ _ before (pairwise_recentRows.forall_sublist behind)
  · rintro ⟨enough, ordered⟩
    refine ⟨by omega, fun row taken other behind => ?_, fun row taken other held outside => ?_⟩
    · have rowMem := List.mem_of_mem_take taken
      have otherMem : other ∈ recentRows table tenantId channelId bucket :=
        behind.subset (by simp)
      rcases (mem_recentRows reached).mp rowMem with ⟨held, recent⟩
      rcases pairwise_recentRows.forall_sublist behind with later | ⟨sameBucket, smaller⟩
      · exact newer_of_bucket_lt bucketed held (within otherMem) later
      · exact ordered row held recent ((mem_take_recentRows reached rowMem).mp taken) other
          (within otherMem) sameBucket.symm smaller
    · -- what is not read is in an earlier bucket
      rcases (mem_recentRows reached).mp (List.mem_of_mem_take taken) with ⟨rowHeld, recent⟩
      have old : ¬Recent bucket other := fun recent =>
        outside ((mem_recentRows reached).mpr ⟨held, recent⟩)
      apply newer_of_bucket_lt bucketed rowHeld held
      unfold Recent at recent old
      omega

end Order

/-- `read_recent` returns the newest messages of the channel, newest first. -/
def ReturnsHistory (json : Json) (table : MessageTable) (tenantId channelId : Bytes)
    (limit now : ℕ) : Prop :=
  ∀ (made : List (Performed commands Raise)) (outcome : Except Raise (List Message)),
    (Messages.readRecent json tenantId channelId limit).Performs made outcome →
      (∀ taken ∈ made, Recalls table now taken) →
        ∃ msgs, outcome = .ok msgs ∧
          FirstBy Newer limit ((messagesOf table tenantId channelId).map MessageRow.message) msgs

/-- Some execution reads the table at `now`. -/
theorem exists_recalled (json : Json) (table : MessageTable) (tenantId channelId : Bytes)
    (limit now : ℕ) :
    ∃ made outcome, (Messages.readRecent json tenantId channelId limit).Performs made outcome ∧
      ∀ taken ∈ made, Recalls table now taken := by
  let stores : Stores := { onlyCursors .empty with messages := table }
  let moment : Moment := { carriedOut with time := now }
  let answers (asked : Command) : Except Raise asked.Answer := (stores.perform moment asked).1
  refine ⟨_, _, @performs_runWith commands Raise _ answers _, fun taken takenMem => ?_⟩
  have answered := answer_of_mem_runWith takenMem
  rcases taken with ⟨asked, answer⟩
  dsimp only at answered
  subst answered
  cases asked with
  | get => rfl
  | time => rfl
  | selectMessages tenantId channelId bucketId asked =>
      simp only [Recalls, answers, Stores.perform, Fate.answer, Stores.execute]
      split
      · exact ⟨[], rfl⟩
      · rfl
  | _ => exact Stores.perform_replies rfl

/-- With a list cached for no channel and no message later than the clock, `read_recent` returns
the newest messages exactly when the two buckets it reads hold enough of them, and their ids go
with their times. -/
theorem returnsHistory_iff (json : Json) (table : MessageTable) (tenantId channelId : Bytes)
    (limit now bucket : ℕ) (bucketed : Bucketed table tenantId channelId)
    (past : ∀ row ∈ messagesOf table tenantId channelId, row.message.createdAt ≤ now)
    (current : TimeBucket.compute now = .ok bucket) :
    ReturnsHistory json table tenantId channelId limit now ↔
      ShowsNewest table tenantId channelId limit bucket := by
  have order := @firstBy_recentRows_iff table tenantId channelId bucket limit bucketed
    (bucket_le_of_reached bucketed current past)
  constructor
  · intro returns
    rcases exists_recalled json table tenantId channelId limit now with
      ⟨made, outcome, performs, recalls⟩
    rcases returns made outcome performs recalls with ⟨msgs, rfl, isFirst⟩
    cases readRecent_recalled current performs recalls
    exact order.mp isFirst
  · intro shows made outcome performs recalls
    exact ⟨_, readRecent_recalled current performs recalls, order.mpr shows⟩

/-- Two messages whose ids go with their times. -/
def risingTable : MessageTable where
  rows := [timedRow 1 10, timedRow 2 30]
  unique := by decide

/-- A history of both. -/
theorem returnsHistory_two :
    ReturnsHistory unusedJson risingTable sampleTenant sampleChannel 2 40 := by
  refine (returnsHistory_iff unusedJson risingTable sampleTenant sampleChannel 2 40 0 ?_
    (by decide) rfl).mpr ⟨by decide, ?_⟩
  · unfold Bucketed
    decide
  · decide

/-- A history of one message is not the newest, whose id is not the greatest. -/
theorem history_not_newest :
    ¬∀ (json : Json) (table : MessageTable) (tenantId channelId : Bytes) (limit now bucket : ℕ),
      Bucketed table tenantId channelId →
      (∀ row ∈ messagesOf table tenantId channelId, row.message.createdAt ≤ now) →
      TimeBucket.compute now = .ok bucket → 1 ≤ limit → limit ≤ 100 →
        ReturnsHistory json table tenantId channelId limit now := by
  intro returnsHistory
  rcases exists_recalled unusedJson timedTable sampleTenant sampleChannel 1 40 with
    ⟨made, outcome, performs, recalls⟩
  rcases returnsHistory unusedJson timedTable sampleTenant sampleChannel 1 40 0 bucketed_timedTable
    (by decide) rfl (by decide) (by decide) made outcome performs recalls with
      ⟨msgs, rfl, isFirst⟩
  cases readRecent_recalled rfl performs recalls
  have shows := (firstBy_recentRows_iff bucketed_timedTable (by decide)).mp isFirst
  have order := shows.ordered (timedRow 3 20) (by decide) (by decide) (by decide)
    (timedRow 2 30) (by decide) rfl (by decide)
  exact absurd order (by decide)

end Mercury.Gateway
