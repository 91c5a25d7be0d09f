import Mercury.Gateway.BucketedWrites
import Mercury.Sdk.CycleProgress
import Mercury.Sdk.Fleet
import Mercury.Sdk.Unpackers

/-!
# What a sync cycle finds

What is known of the channel, of a sync request that the gateway handles, and of the calls of a
cycle, and that it stays true while the channel and the local stores grow.
-/

namespace Mercury.Sdk

open Gateway Foundations Foundations.Program Persistence

/-! ## The channel -/

section Channel

variable {fleet : Fleet} {table stored : MessageTable} {taken : Performed node Raise}

theorem mem_rows {row : MessageRow} : row ∈ fleet.rows table ↔ row ∈ table ∧ fleet.Owns row :=
  mem_messagesOf

theorem mem_messages {msg : Message} :
    msg ∈ fleet.messages table ↔ ∃ row ∈ table, fleet.Owns row ∧ row.message = msg := by
  simp only [Fleet.messages, List.mem_map, mem_rows, and_assoc]

/-- The messages of the channel are told apart by their ids, in the bucket of their time, and
legible, and those that were accepted are among them. -/
structure ChannelHolds (fleet : Fleet) (table : MessageTable) (accepted : List Message) :
    Prop where
  bucketed : Bucketed table fleet.tenantId.val fleet.channelId
  distinct : ∀ left ∈ fleet.messages table, ∀ right ∈ fleet.messages table,
    left.messageId = right.messageId → left = right
  legible : ∀ msg ∈ fleet.messages table, fleet.codec.Reads fleet.native (fleet.envelope msg)
  accepted : ∀ msg ∈ accepted, msg ∈ fleet.messages table

theorem mem_messages_upsert {row : MessageRow} {msg : Message}
    (msgMem : msg ∈ fleet.messages (table.upsert row)) :
    msg ∈ fleet.messages table ∨ fleet.Owns row ∧ msg = row.message := by
  rcases mem_messages.mp msgMem with ⟨other, otherMem, owned, rfl⟩
  rcases KeyedTable.mem_upsert.mp otherMem with ⟨held, -⟩ | rfl
  · exact Or.inl (mem_messages.mpr ⟨other, held, owned, rfl⟩)
  · exact Or.inr ⟨owned, rfl⟩

/-- A command on the channel, which writes its messages one after the other: what was there
stays, and what comes new is `fresh`. -/
theorem ChannelHolds.answered {accepted : List Message} {fresh : Message → Prop}
    (holds : ChannelHolds fleet table accepted) (answers : AnswersFrom table taken stored)
    (inBucket : WritesWithin InBucket taken.call)
    (legible : ∀ row answer, taken = ⟨.inl (.insertMessage row), answer⟩ → fleet.Owns row →
      fleet.codec.Reads fleet.native (fleet.envelope row.message))
    (inserts : ∀ row answer, taken = ⟨.inl (.insertMessage row), answer⟩ → fleet.Owns row →
      row.message ∈ fleet.messages table ∨
        (∀ other ∈ fleet.messages table, other.messageId ≠ row.message.messageId) ∧
          fresh row.message) :
    ChannelHolds fleet stored (fleet.accepts taken ++ accepted) ∧
      (∀ msg ∈ fleet.messages table, msg ∈ fleet.messages stored) ∧
        ∀ msg ∈ fleet.messages stored, msg ∈ fleet.messages table ∨ fresh msg := by
  have unchanged : fleet.accepts taken = [] → stored = table →
      ChannelHolds fleet stored (fleet.accepts taken ++ accepted) ∧
        (∀ msg ∈ fleet.messages table, msg ∈ fleet.messages stored) ∧
          ∀ msg ∈ fleet.messages stored, msg ∈ fleet.messages table ∨ fresh msg := by
    rintro none rfl
    rw [none]
    exact ⟨holds, fun _ msgMem => msgMem, fun _ msgMem => Or.inl msgMem⟩
  rcases answers.step with @⟨row, answer⟩ | @⟨row, answer, failed⟩ | noInsert
  · -- what the row replaces has its message, or its id would not be new
    have keeps : ∀ msg ∈ fleet.messages table, msg ∈ fleet.messages (table.upsert row) := by
      intro msg msgMem
      rcases mem_messages.mp msgMem with ⟨other, otherMem, owned, rfl⟩
      by_cases replaced : other.key = row.key
      · simp only [MessageRow.key, MessageKey.mk.injEq] at replaced
        rcases replaced with ⟨tenant, channel, -, ids⟩
        have ownedRow : fleet.Owns row := ⟨tenant ▸ owned.1, channel ▸ owned.2⟩
        rcases inserts row answer rfl ownedRow with known | ⟨new, -⟩
        · rw [holds.distinct _ msgMem _ known ids]
          exact mem_messages.mpr ⟨row, KeyedTable.mem_upsert_self _ _, ownedRow, rfl⟩
        · exact absurd ids (new _ msgMem)
      · exact mem_messages.mpr
          ⟨other, KeyedTable.mem_upsert.mpr (Or.inl ⟨otherMem, replaced⟩), owned, rfl⟩
    have comes : ∀ msg ∈ fleet.messages (table.upsert row), msg ∈ fleet.messages table ∨
        (∀ other ∈ fleet.messages table, other.messageId ≠ msg.messageId) ∧ fresh msg ∧
          msg = row.message := by
      intro msg msgMem
      rcases mem_messages_upsert msgMem with old | ⟨owned, rfl⟩
      · exact Or.inl old
      · exact (inserts row answer rfl owned).imp_right fun new => ⟨new.1, new.2, rfl⟩
    refine ⟨⟨?_, ?_, ?_, ?_⟩, keeps, fun msg msgMem => (comes msg msgMem).imp_right fun new =>
      new.2.1⟩
    · intro other otherMem
      rcases mem_messagesOf.mp otherMem with ⟨inTable, owned⟩
      rcases KeyedTable.mem_upsert.mp inTable with ⟨held, -⟩ | rfl
      · exact holds.bucketed other (mem_messagesOf.mpr ⟨held, owned⟩)
      · exact inBucket
    · intro left leftMem right rightMem same
      rcases comes left leftMem with oldLeft | ⟨newLeft, -, leftEq⟩
      · rcases comes right rightMem with oldRight | ⟨newRight, -, rightEq⟩
        · exact holds.distinct left oldLeft right oldRight same
        · exact absurd same (newRight left oldLeft)
      · rcases comes right rightMem with oldRight | ⟨newRight, -, rightEq⟩
        · exact absurd same.symm (newLeft right oldRight)
        · rw [leftEq, rightEq]
    · intro msg msgMem
      rcases mem_messages_upsert msgMem with old | ⟨owned, rfl⟩
      · exact holds.legible msg old
      · exact legible row answer rfl owned
    · intro msg msgMem
      rcases List.mem_append.mp msgMem with now | earlier
      · unfold Fleet.accepts at now
        split at now
        · next accepted same =>
            cases same
            split at now
            · next owned =>
                rw [List.mem_singleton.mp now]
                exact mem_messages.mpr ⟨_, KeyedTable.mem_upsert_self _ _, owned, rfl⟩
            · cases now
        · cases now
      · exact keeps msg (holds.accepted msg earlier)
  · refine unchanged ?_ rfl
    rcases answer with raised | refused | done
    · rfl
    · rfl
    · exact absurd rfl failed
  · refine unchanged ?_ rfl
    unfold Fleet.accepts
    split
    · exact absurd rfl (noInsert _)
    · rfl

end Channel

/-! ## Requests and cycles -/

section Cycles

variable {fleet : Fleet} {state target : FleetState} {cycle : SyncCycle} {frame : PushedFrame}

/-- The device has every message of the channel up to this time. -/
def FleetState.Covers (fleet : Fleet) (state : FleetState) (device time : ℕ) : Prop :=
  ∀ msg ∈ fleet.messages state.table, msg.createdAt ≤ time →
    (state.devices device).Holds fleet.name msg

/-- A reading of a clock that the cursor is merged with. -/
def Reads (taken : Performed node Raise) (now : ℕ) : Prop :=
  taken = ⟨.inr .systemTime, .ok now⟩ ∨ taken = ⟨.inr .nativeTime, .ok now⟩

/-- What the gateway has performed so far for a sync request: no query has failed or cut off a
message that is due, and a message up to one of the clocks is due or has been read. -/
structure RequestFound (fleet : Fleet) (state : FleetState) (cycle : SyncCycle)
    (frame : PushedFrame) : Prop where
  starts : ∀ now, ⟨.inl .systemTime, .ok now⟩ ∈ frame.made → ∀ msg ∈ cycle.due,
    frame.since < msg.createdAt →
      TimeBucket.ofMs msg.createdAt ≤ max (TimeBucket.ofMs now) (TimeBucket.ofMs frame.since)
  reads : ∀ bucketId limit rows,
    ⟨.inl (.selectMessages fleet.tenantId.val fleet.channelId bucketId limit), .ok (.ok rows)⟩ ∈
      frame.made → (rows.map MessageRow.message).Nodup ∧
        ∀ row ∈ rows, row.message ∈ fleet.messages state.table ∧
          TimeBucket.ofMs row.message.createdAt = bucketId
  complete : ∀ bucketId limit answer,
    ⟨.inl (.selectMessages fleet.tenantId.val fleet.channelId bucketId limit), .ok answer⟩ ∈
      frame.made → ∀ msg ∈ cycle.due, frame.since < msg.createdAt →
        TimeBucket.ofMs msg.createdAt = bucketId →
          ∃ rows, answer = .ok rows ∧ msg ∈ rows.map MessageRow.message
  few : ∃ newer : List Message, newer.length ≤ 100 ∧
    ∀ msg ∈ fleet.readIn frame.made, frame.since < msg.createdAt → msg ∈ newer
  merges : ∀ taken ∈ frame.made, ∀ now, Reads taken now → now < 256 ^ 8 ∧ now ≤ cycle.reached ∧
    ∀ msg ∈ fleet.messages state.table, frame.since < msg.createdAt → msg.createdAt ≤ now →
      msg ∈ cycle.due ∨ msg ∈ fleet.readIn frame.made

/-- A page that a cycle has pulled from `since` on, with the clock of the reply. -/
structure PageFound (fleet : Fleet) (state : FleetState) (cycle : SyncCycle) (since : ℕ)
    (page : List Message) (wall : ℕ) : Prop where
  fits : wall < 256 ^ 8
  reached : wall ≤ max cycle.reached since
  held : ∀ msg ∈ page, msg ∈ fleet.messages state.table
  due : ∀ msg ∈ cycle.due, since < msg.createdAt → msg ∈ page
  passed : ∀ msg ∈ fleet.messages state.table, since < msg.createdAt → msg.createdAt ≤ wall →
    msg ∈ page

/-- What is known of the calls of a cycle. -/
structure CycleFound (fleet : Fleet) (state : FleetState) (cycle : SyncCycle) : Prop where
  cursor : ∀ channelId cursor, ⟨.getSyncState channelId, .ok cursor⟩ ∈ cycle.past →
    cursor.getD 0 < 256 ^ 8 ∧ cursor.getD 0 ≤ cycle.reached ∧
      state.Covers fleet cycle.owner (cursor.getD 0)
  pulled : ∀ topic since data,
    ⟨.push topic Event.syncRequest (Channel.syncPayload since 100), .ok data⟩ ∈ cycle.past →
      ∃ page wall, Channel.readSyncReply fleet.codec data =
          some (pageResult fleet.tenantId.val fleet.channelId page wall false) ∧
        PageFound fleet state cycle (since % 256 ^ 8) page wall
  writes : ∀ stored, written stored ∈ cycle.past →
    localMessage stored ∈ (state.devices cycle.owner).messages
  request : ∀ frame, cycle.frame = some frame → frame.event = Event.syncRequest →
    RequestFound fleet state cycle frame

/-- A page stays one while the cycle goes on. -/
theorem PageFound.later {later : SyncCycle} {since wall : ℕ} {page : List Message}
    (found : PageFound fleet state cycle since page wall) (dueEq : later.due = cycle.due)
    (further : cycle.reached ≤ later.reached) : PageFound fleet state later since page wall where
  fits := found.fits
  reached := found.reached.trans (max_le_max_right _ further)
  held := found.held
  due := dueEq ▸ found.due
  passed := found.passed

theorem PushedFrame.since_lt (frame : PushedFrame) : frame.since < 256 ^ 8 :=
  (fromLittleEndian_lt _).trans_le (Nat.pow_le_pow_right (by decide) (List.length_take_le _ _))

theorem mem_readIn {made : List (Performed node Raise)} {msg : Message} :
    msg ∈ fleet.readIn made ↔ ∃ bucketId limit rows,
      ⟨.inl (.selectMessages fleet.tenantId.val fleet.channelId bucketId limit),
        .ok (.ok rows)⟩ ∈ made ∧ msg ∈ rows.map MessageRow.message := by
  rw [Fleet.readIn, List.mem_flatMap]
  constructor
  · rintro ⟨taken, takenMem, msgMem⟩
    split at msgMem
    · next tenantId channelId bucketId limit rows =>
        split at msgMem
        · next owned =>
            rcases owned with ⟨rfl, rfl⟩
            exact ⟨bucketId, limit, rows, takenMem, msgMem⟩
        · cases msgMem
    · cases msgMem
  · rintro ⟨bucketId, limit, rows, takenMem, msgMem⟩
    exact ⟨_, takenMem, by simpa using msgMem⟩

theorem readIn_append (first later : List (Performed node Raise)) :
    fleet.readIn (first ++ later) = fleet.readIn first ++ fleet.readIn later :=
  List.flatMap_append

theorem nodup_messages_select {table : MessageTable} {bucketId limit : ℕ}
    (bucketed : Bucketed table fleet.tenantId.val fleet.channelId) :
    ((table.select fleet.tenantId.val fleet.channelId bucketId limit).map
      MessageRow.message).Nodup :=
  List.Nodup.map_on (fun _ leftMem _ rightMem same => eq_of_message_eq bucketed
    (mem_of_mem_select leftMem).1 (mem_of_mem_select rightMem).1 same) nodup_select

section Page

variable (found : RequestFound fleet state cycle frame)
  (run : RequestRun fleet.tenantId.val fleet.channelId frame.since frame.made)

include found

/-- What a query of the request has read. -/
theorem RequestFound.answered {answer : BucketAnswer} (answerMem : answer ∈ run.answers) :
    (answer.read.2.map MessageRow.message).Nodup ∧
      (∀ row ∈ answer.read.2, row.message ∈ fleet.messages state.table ∧
        TimeBucket.ofMs row.message.createdAt = answer.1) ∧
      ∀ msg ∈ cycle.due, frame.since < msg.createdAt → TimeBucket.ofMs msg.createdAt = answer.1 →
        msg ∈ answer.read.2.map MessageRow.message := by
  have performed : onNode (answer.query fleet.tenantId.val fleet.channelId 101) ∈ frame.made :=
    run.mem_made.mpr (Or.inr (Or.inl ⟨answer, answerMem, rfl⟩))
  rcases answer with ⟨bucketId, failed | rows⟩
  · refine ⟨List.nodup_nil, by rintro row ⟨⟩, fun msg due newer inBucket => ?_⟩
    rcases found.complete bucketId 101 _ performed msg due newer inBucket with ⟨rows, same, -⟩
    cases same
  · rcases found.reads bucketId 101 rows performed with ⟨distinct, held⟩
    refine ⟨distinct, held, fun msg due newer inBucket => ?_⟩
    rcases found.complete bucketId 101 _ performed msg due newer inBucket with ⟨_, same, msgMem⟩
    cases same
    exact msgMem

theorem RequestFound.mem_newerOf_read {msg : Message}
    (msgMem : msg ∈ newerOf frame.since run.reads) :
    msg ∈ fleet.messages state.table ∧ msg ∈ fleet.readIn frame.made ∧
      frame.since < msg.createdAt := by
  rcases mem_newerOf.mp msgMem with ⟨read, readMem, row, rowMem, rfl, newer⟩
  rcases List.mem_map.mp readMem with ⟨answer, answerMem, rfl⟩
  refine ⟨((found.answered run answerMem).2.1 row rowMem).1, ?_, newer⟩
  rcases answer with ⟨bucketId, failed | rows⟩
  · cases rowMem
  · exact mem_readIn.mpr ⟨bucketId, 101, rows,
      run.mem_made.mpr (Or.inr (Or.inl ⟨_, answerMem, rfl⟩)), List.mem_map_of_mem rowMem⟩

theorem RequestFound.nodup_newerOf : (newerOf frame.since run.reads).Nodup := by
  refine List.nodup_flatMap.mpr ⟨?_, ?_⟩
  · intro read readMem
    rcases List.mem_map.mp readMem with ⟨answer, answerMem, rfl⟩
    exact (found.answered run answerMem).1.filter _
  · have buckets : (run.reads.map Prod.fst).Nodup := by
      have same : run.reads.map Prod.fst = run.answers.map Prod.fst := by
        rw [RequestRun.reads, List.map_map]
        rfl
      rw [same, run.buckets]
      exact nodup_bucketRange _ _
    apply (List.Pairwise.of_map _ (fun _ _ apart => apart) buckets).imp_of_mem
    intro left right leftMem rightMem apart msg inLeft inRight
    rcases List.mem_map.mp leftMem with ⟨first, firstMem, rfl⟩
    rcases List.mem_map.mp rightMem with ⟨second, secondMem, rfl⟩
    rcases List.mem_map.mp (List.mem_filter.mp inLeft).1 with ⟨row, rowMem, rfl⟩
    rcases List.mem_map.mp (List.mem_filter.mp inRight).1 with ⟨other, otherMem, same⟩
    have firstBucket := ((found.answered run firstMem).2.1 row rowMem).2
    have secondBucket := ((found.answered run secondMem).2.1 other otherMem).2
    rw [same] at secondBucket
    exact apart (firstBucket.symm.trans secondBucket)

theorem RequestFound.length_newerOf_le : (newerOf frame.since run.reads).length ≤ 100 := by
  rcases found.few with ⟨newer, few, covers⟩
  refine le_trans (List.Subperm.length_le (List.subperm_of_subset (found.nodup_newerOf run) ?_)) few
  intro msg msgMem
  rcases found.mem_newerOf_read run msgMem with ⟨-, read, later⟩
  exact covers msg read later

/-- A message that is due is on the page. -/
theorem RequestFound.due_newer {msg : Message} (due : msg ∈ cycle.due)
    (newer : frame.since < msg.createdAt) : msg ∈ newerOf frame.since run.reads := by
  have bounded := found.starts run.now (run.mem_made.mpr (Or.inl rfl)) msg due newer
  have low := TimeBucket.ofMs_mono newer.le
  have inRange : TimeBucket.ofMs msg.createdAt ∈ run.answers.map Prod.fst := by
    rw [run.buckets, mem_bucketRange_iff]
    omega
  rcases List.mem_map.mp inRange with ⟨answer, answerMem, bucketEq⟩
  rcases List.mem_map.mp ((found.answered run answerMem).2.2 msg due newer bucketEq.symm) with
    ⟨row, rowMem, rfl⟩
  exact mem_newerOf.mpr ⟨BucketAnswer.read answer, List.mem_map_of_mem answerMem, row, rowMem, rfl,
    newer⟩

theorem RequestFound.page :
    PageFound fleet state cycle frame.since (pageOf frame.since 100 run.reads) run.wall := by
  have system := found.merges ⟨.inr .systemTime, .ok run.system⟩
    (run.mem_made.mpr (Or.inr (Or.inr (Or.inl rfl)))) _ (Or.inl rfl)
  have reading := found.merges ⟨.inr .nativeTime, .ok run.reading⟩
    (run.mem_made.mpr (Or.inr (Or.inr (Or.inr rfl)))) _ (Or.inr rfl)
  have inPage : ∀ msg ∈ newerOf frame.since run.reads, msg ∈ pageOf frame.since 100 run.reads :=
    fun msg msgMem => mem_pageOf_of_le (found.length_newerOf_le run) msgMem
  have sinceFits := frame.since_lt
  refine ⟨?_, ?_, ?_, ?_, ?_⟩
  · have := system.1
    have := reading.1
    simp only [RequestRun.wall]
    omega
  · have := system.2.1
    have := reading.2.1
    simp only [RequestRun.wall]
    omega
  · intro msg msgMem
    exact (found.mem_newerOf_read run (mem_pageOf msgMem)).1
  · intro msg due newer
    exact inPage msg (found.due_newer run due newer)
  · intro msg msgMem newer before
    have seen : msg ∈ cycle.due ∨ msg ∈ fleet.readIn frame.made := by
      by_cases early : msg.createdAt ≤ run.system
      · exact system.2.2 msg msgMem newer early
      · refine reading.2.2 msg msgMem newer ?_
        simp only [RequestRun.wall] at before
        omega
    rcases seen with due | read
    · exact inPage msg (found.due_newer run due newer)
    · rcases mem_readIn.mp read with ⟨bucketId, limit, rows, performed, inRows⟩
      rcases List.mem_map.mp inRows with ⟨row, rowMem, rfl⟩
      exact inPage _ (mem_newerOf.mpr ⟨_, List.mem_map_of_mem (run.mem_answers performed), row,
        rowMem, rfl, newer⟩)

end Page

/-- The gateway's reply to a sync request is a page. -/
theorem RequestFound.pulled {topic data : Bytes} {since : ℕ} {reaction : Reaction}
    (found : RequestFound fleet state cycle frame) (joined : frame.Joined fleet topic)
    (legible : ∀ msg ∈ fleet.messages state.table,
      fleet.codec.Reads fleet.native (fleet.envelope msg))
    (isRequest : frame.event = Event.syncRequest)
    (payload : frame.payload = Channel.syncPayload since 100)
    (performs : (nodeHandleIn fleet.native frame.data frame.socket).Performs frame.made
      (.ok reaction))
    (pushed : reaction.pushed = [replyFrame frame.ref frame.topicId statusOk data]) :
    ∃ page wall, Channel.readSyncReply fleet.codec data =
        some (pageResult fleet.tenantId.val fleet.channelId page wall false) ∧
      PageFound fleet state cycle (since % 256 ^ 8) page wall := by
  have sinceEq : frame.since = since % 256 ^ 8 := by
    rw [PushedFrame.since, payload]
    exact (syncPayload_reads since).2.1
  rcases joined.entry with ⟨info, entry, -, names⟩
  rw [PushedFrame.data, isRequest, payload] at performs
  have replied := @readSyncReply_of_performs fleet.codec _ _ _ _ _ _ _ _ _ _ _ joined.tenant
    joined.refFits joined.topicFits entry names performs pushed
  rw [← sinceEq] at replied ⊢
  rcases replied with ⟨run, readEq⟩
  have isPage := found.page run
  refine ⟨_, run.wall, ?_, isPage⟩
  rw [readEq isPage.fits fun msg msgMem => legible msg (found.mem_newerOf_read run msgMem).1,
    decide_eq_false (Nat.not_lt.mpr (found.length_newerOf_le run))]

section Found

variable (found : CycleFound fleet state cycle)

include found

/-- The page of a pull that has ended is in the local store. -/
theorem CycleFound.page {rounds received wall : ℕ} {cursor : Option ℕ}
    {pulling later : List (Performed device Thrown)}
    (pastEq : cycle.past = ⟨.getSyncState fleet.name, .ok cursor⟩ :: (pulling ++ later))
    (pulls : (SyncEngine.pull fleet.codec (fleet.channel cycle.owner) fleet.name rounds
      (cursor.getD 0)).Performs pulling (.ok (received, wall))) :
    ∃ page, PageFound fleet state cycle (cursor.getD 0) page wall ∧
      ∀ msg ∈ page, (state.devices cycle.owner).Holds fleet.name msg := by
  rcases rounds with _ | rounds
  · cases pulls.2
  rcases pull_performs pulls with ⟨data, result, rest, readEq, rfl, continues⟩
  have fits : cursor.getD 0 < 256 ^ 8 := (found.cursor fleet.name cursor (by simp [pastEq])).1
  rcases found.pulled (fleet.channel cycle.owner).topic (cursor.getD 0) data (by simp [pastEq]) with
    ⟨page, reached, pageEq, isPage⟩
  rw [readEq] at pageEq
  cases pageEq
  rw [if_neg (by simp [pageResult])] at continues
  rcases continues with ⟨rfl, same⟩
  cases same
  rw [Nat.mod_eq_of_lt fits] at isPage
  refine ⟨page, isPage, fun msg msgMem => ?_⟩
  apply found.writes (pulledMessage fleet.name msg)
  rw [pastEq]
  have stored : written (pulledMessage fleet.name msg) ∈
      (pageResult fleet.tenantId.val fleet.channelId page reached false).deltas.map fun delta =>
        written (SyncEngine.received fleet.name delta) := by
    rw [pageResult, List.map_map]
    exact List.mem_map.mpr ⟨msg, msgMem, rfl⟩
  simp [stored]

theorem CycleFound.covers_since {cursor : Option ℕ}
    (read : ⟨.getSyncState fleet.name, .ok cursor⟩ ∈ cycle.past) :
    state.Covers fleet cycle.owner (cursor.getD 0) :=
  (found.cursor _ _ read).2.2

/-- When a cycle moves the cursor, the device has every message up to it. -/
theorem CycleFound.covers_wall {rounds wall : ℕ} {moved : String}
    (asks : (fleet.syncChannel cycle.owner rounds).Asks cycle.past (.setSyncState moved wall)) :
    wall < 256 ^ 8 ∧ state.Covers fleet cycle.owner wall := by
  rcases asks_setSyncState asks with ⟨cursor, pulling, received, pastEq, pulls⟩
  rcases found.page (by rw [pastEq, List.append_nil]) pulls with ⟨page, isPage, stored⟩
  refine ⟨isPage.fits, fun msg msgMem before => ?_⟩
  by_cases old : msg.createdAt ≤ cursor.getD 0
  · exact found.covers_since (by simp [pastEq]) msg msgMem old
  · exact stored msg (isPage.passed msg msgMem (Nat.lt_of_not_le old) before)

/-- A cycle that is done has delivered what was due. -/
theorem CycleFound.delivers {rounds : ℕ} {count : SyncCount}
    (performs : (fleet.syncChannel cycle.owner rounds).Performs cycle.past (.ok count))
    (held : ∀ msg ∈ cycle.due, msg ∈ fleet.messages state.table) :
    ∀ msg ∈ cycle.due, (state.devices cycle.owner).Holds fleet.name msg := by
  rcases syncChannel_performs performs with
    ⟨cursor, pulling, setting, pushing, ⟨received, wall⟩, accepted, pastEq, pulls, -, -⟩
  have split : cycle.past = ⟨.getSyncState fleet.name, .ok cursor⟩ :: (pulling ++ (setting ++
      pushing ++ [⟨.evictOldMessages fleet.name, .ok ()⟩])) := by simp [pastEq]
  rcases found.page split pulls with ⟨page, isPage, stored⟩
  intro msg due
  by_cases old : msg.createdAt ≤ cursor.getD 0
  · exact found.covers_since (by simp [pastEq]) msg (held msg due) old
  · exact stored msg (isPage.due msg due (Nat.lt_of_not_le old))

end Found

/-! ### What other steps change -/

/-- From `state` to `target` the channel and the stores only grow, and what comes new to the
channel is `fresh`. -/
structure Grows (fleet : Fleet) (fresh : Message → Prop) (state target : FleetState) : Prop where
  messages : ∀ msg ∈ fleet.messages state.table, msg ∈ fleet.messages target.table
  stores : ∀ device, ∀ held ∈ (state.devices device).messages,
    held ∈ (target.devices device).messages
  comes : ∀ msg ∈ fleet.messages target.table, msg ∈ fleet.messages state.table ∨ fresh msg

section Growth

variable {fresh : Message → Prop} (grows : Grows fleet fresh state target)

include grows

theorem Grows.covers {device time : ℕ} (covers : state.Covers fleet device time)
    (later : ∀ msg, fresh msg → time < msg.createdAt) :
    target.Covers fleet device time := by
  intro msg msgMem before
  rcases grows.comes msg msgMem with old | new
  · exact grows.stores device _ (covers msg old before)
  · exact absurd before (Nat.not_le.mpr (later msg new))

variable (later : ∀ msg, fresh msg → cycle.reached < msg.createdAt)

include later

theorem Grows.request (found : RequestFound fleet state cycle frame) :
    RequestFound fleet target cycle frame where
  starts := found.starts
  reads bucketId limit rows performed := by
    rcases found.reads bucketId limit rows performed with ⟨distinct, held⟩
    exact ⟨distinct,
      fun row rowMem => ⟨grows.messages _ (held row rowMem).1, (held row rowMem).2⟩⟩
  complete := found.complete
  few := found.few
  merges taken performed now reads := by
    rcases found.merges taken performed now reads with ⟨fits, reached, seen⟩
    refine ⟨fits, reached, fun msg msgMem newer before => ?_⟩
    rcases grows.comes msg msgMem with old | new
    · exact seen msg old newer before
    · have := later msg new
      omega

theorem Grows.page {since wall : ℕ} {page : List Message}
    (found : PageFound fleet state cycle since page wall) :
    PageFound fleet target cycle since page wall where
  fits := found.fits
  reached := found.reached
  held msg msgMem := grows.messages _ (found.held msg msgMem)
  due := found.due
  passed msg msgMem newer before := by
    rcases grows.comes msg msgMem with old | new
    · exact found.passed msg old newer before
    · have := later msg new
      have := found.reached
      omega

/-- What is known of a cycle stays true as long as it is running. -/
theorem Grows.found (found : CycleFound fleet state cycle) : CycleFound fleet target cycle where
  cursor channelId cursor read := by
    rcases found.cursor channelId cursor read with ⟨fits, reached, covers⟩
    exact ⟨fits, reached, grows.covers covers fun msg new => reached.trans_lt (later msg new)⟩
  pulled topic since data pushed := by
    rcases found.pulled topic since data pushed with ⟨page, wall, readEq, isPage⟩
    exact ⟨page, wall, readEq, grows.page later isPage⟩
  writes stored wrote := grows.stores _ _ (found.writes stored wrote)
  request frame handling isRequest := grows.request later (found.request frame handling isRequest)

end Growth

/-! ### What a cycle does itself -/

/-- A call of the cycle, with what has to be known of its answer. -/
theorem CycleFound.after {taken : Performed device Thrown} {rest : Script SyncCount}
    (found : CycleFound fleet state cycle)
    (cursor : ∀ channelId cursor, taken = ⟨.getSyncState channelId, .ok cursor⟩ →
      cursor.getD 0 < 256 ^ 8 ∧ state.Covers fleet cycle.owner (cursor.getD 0))
    (pulled : ∀ topic since data,
      taken = ⟨.push topic Event.syncRequest (Channel.syncPayload since 100), .ok data⟩ →
        ∃ page wall, Channel.readSyncReply fleet.codec data =
            some (pageResult fleet.tenantId.val fleet.channelId page wall false) ∧
          PageFound fleet state cycle (since % 256 ^ 8) page wall)
    (writes : ∀ stored, taken = written stored →
      localMessage stored ∈ (state.devices cycle.owner).messages) :
    CycleFound fleet state (cycle.after taken rest) where
  cursor channelId read readMem := by
    rcases List.mem_append.mp readMem with earlier | now
    · rcases found.cursor channelId read earlier with ⟨fits, reached, covers⟩
      exact ⟨fits, reached.trans (le_max_left _ _), covers⟩
    · rcases List.mem_singleton.mp now with rfl
      rcases cursor channelId read rfl with ⟨fits, covers⟩
      exact ⟨fits, le_max_right _ _, covers⟩
  pulled topic since data pushed := by
    have known : ∃ page wall, Channel.readSyncReply fleet.codec data =
        some (pageResult fleet.tenantId.val fleet.channelId page wall false) ∧
          PageFound fleet state cycle (since % 256 ^ 8) page wall := by
      rcases List.mem_append.mp pushed with earlier | now
      · exact found.pulled topic since data earlier
      · exact pulled topic since data (List.mem_singleton.mp now).symm
    rcases known with ⟨page, wall, readEq, isPage⟩
    exact ⟨page, wall, readEq, isPage.later rfl (le_max_left _ _)⟩
  writes stored wrote := by
    rcases List.mem_append.mp wrote with earlier | now
    · exact found.writes stored earlier
    · exact writes stored (List.mem_singleton.mp now).symm
  request frame handling := by cases handling

/-- A command for a sync request, with what has to be known of its answer. -/
theorem RequestFound.handle {taken : Performed node Raise} {rest : Program node Raise Reaction}
    (found : RequestFound fleet state cycle frame)
    (isRequest : frame.event = Event.syncRequest)
    (bucketed : Bucketed state.table fleet.tenantId.val fleet.channelId)
    (starts : ∀ now, taken = ⟨.inl .systemTime, .ok now⟩ → ∀ msg ∈ cycle.due,
      frame.since < msg.createdAt →
        TimeBucket.ofMs msg.createdAt ≤ max (TimeBucket.ofMs now) (TimeBucket.ofMs frame.since))
    (selects : ∀ bucketId limit rows,
      taken = ⟨.inl (.selectMessages fleet.tenantId.val fleet.channelId bucketId limit),
        .ok (.ok rows)⟩ →
      rows = state.table.select fleet.tenantId.val fleet.channelId bucketId limit)
    (reads : ∀ bucketId limit answer,
      taken = ⟨.inl (.selectMessages fleet.tenantId.val fleet.channelId bucketId limit),
        .ok answer⟩ →
      (newerMessages state.table fleet.tenantId.val fleet.channelId frame.since).length ≤ 100 ∧
        ∀ row ∈ newerMessages state.table fleet.tenantId.val fleet.channelId frame.since,
          row.message ∈ cycle.due → row.bucketId = bucketId →
            ∃ rows, answer = .ok rows ∧ row ∈ rows)
    (held : ∀ msg ∈ cycle.due, msg ∈ fleet.messages state.table)
    (merges : ∀ now, Reads taken now → now < 256 ^ 8 ∧
      ∀ msg ∈ fleet.messages state.table, frame.since < msg.createdAt → msg.createdAt ≤ now →
        msg ∈ cycle.due ∨ msg ∈ fleet.readIn frame.made) :
    RequestFound fleet state (cycle.handle frame taken rest)
      { frame with made := frame.made ++ [taken], rest := rest } where
  starts now performed := by
    rcases List.mem_append.mp performed with earlier | last
    · exact found.starts now earlier
    · exact starts now (List.mem_singleton.mp last).symm
  reads bucketId limit rows performed := by
    rcases List.mem_append.mp performed with earlier | last
    · exact found.reads bucketId limit rows earlier
    rcases selects bucketId limit rows (List.mem_singleton.mp last).symm with rfl
    refine ⟨nodup_messages_select bucketed, fun row rowMem => ?_⟩
    rcases mem_of_mem_select rowMem with ⟨inChannel, rfl⟩
    exact ⟨List.mem_map_of_mem inChannel,
      (TimeBucket.compute_eq_ok.mp (bucketed row inChannel)).1.symm⟩
  complete bucketId limit answer performed := by
    rcases List.mem_append.mp performed with earlier | last
    · exact found.complete bucketId limit answer earlier
    intro msg due newer inBucket
    rcases List.mem_map.mp (held msg due) with ⟨row, rowMem, rfl⟩
    have bucketEq := (TimeBucket.compute_eq_ok.mp (bucketed row rowMem)).1.trans inBucket
    rcases (reads bucketId limit answer (List.mem_singleton.mp last).symm).2 row
      (mem_newerMessages.mpr ⟨rowMem, newer⟩) due bucketEq with ⟨rows, same, inRows⟩
    exact ⟨rows, same, List.mem_map_of_mem inRows⟩
  few := by
    by_cases none : fleet.readIn [taken] = []
    · rcases found.few with ⟨newer, few, covers⟩
      refine ⟨newer, few, fun msg msgMem => covers msg ?_⟩
      rwa [readIn_append, none, List.append_nil] at msgMem
    · -- all that has been read is still in the channel
      rcases List.exists_mem_of_ne_nil _ none with ⟨some, someMem⟩
      rcases mem_readIn.mp someMem with ⟨bucketId, limit, rows, last, -⟩
      rcases reads bucketId limit _ (List.mem_singleton.mp last).symm with ⟨few, -⟩
      refine ⟨_, (List.length_map MessageRow.message).trans_le few, fun msg msgMem newer => ?_⟩
      have inChannel : msg ∈ fleet.messages state.table := by
        rcases mem_readIn.mp msgMem with ⟨bucketId, limit, rows, performed, inRows⟩
        rcases List.mem_map.mp inRows with ⟨row, rowMem, rfl⟩
        rcases List.mem_append.mp performed with earlier | last
        · exact ((found.reads _ _ _ earlier).2 row rowMem).1
        · rcases selects _ _ _ (List.mem_singleton.mp last).symm with rfl
          exact List.mem_map_of_mem (mem_of_mem_select rowMem).1
      rcases List.mem_map.mp inChannel with ⟨row, rowMem, rfl⟩
      exact List.mem_map_of_mem (mem_newerMessages.mpr ⟨rowMem, newer⟩)
  merges other performed now isClock := by
    have reachedEq : (cycle.handle frame taken rest).reached =
        max cycle.reached (mergedClock taken) := if_pos isRequest
    have more : ∀ msg ∈ fleet.readIn frame.made, msg ∈ fleet.readIn (frame.made ++ [taken]) := by
      intro msg msgMem
      rw [readIn_append]
      exact List.mem_append_left _ msgMem
    rw [reachedEq]
    rcases List.mem_append.mp performed with earlier | last
    · rcases found.merges other earlier now isClock with ⟨fits, reached, seen⟩
      exact ⟨fits, reached.trans (le_max_left _ _), fun msg msgMem newer before =>
        (seen msg msgMem newer before).imp_right (more msg)⟩
    · rcases List.mem_singleton.mp last with rfl
      rcases merges now isClock with ⟨fits, seen⟩
      refine ⟨fits, ?_, fun msg msgMem newer before =>
        (seen msg msgMem newer before).imp_right (more msg)⟩
      rcases isClock with rfl | rfl
      · exact le_max_right _ _
      · exact le_max_right _ _

end Cycles

end Mercury.Sdk
