import Mercury.Foundations.Progress
import Mercury.Sdk.OfflineDelivery
import Mercury.Sdk.PullTermination

/-!
# What a cycle has done on its way

The calls of a cycle before it writes a message and before it moves its cursor, and the reply
to a sync request, from the commands that the gateway has performed for it.
-/

namespace Mercury.Sdk

open Gateway Foundations Foundations.Program Persistence

section Calls

variable {codec : Codec} {channel : Channel} {channelId : String} {rounds : ℕ}
  {past : List (Performed device Thrown)}

/-- A cycle moves its cursor after its pull, to the clock that the pull ended with. -/
theorem asks_setSyncState {moved : String} {wall : ℕ}
    (asks : (SyncEngine.syncChannel codec channel channelId rounds).Asks past
      (.setSyncState moved wall)) :
    ∃ cursor pulling received, past = ⟨.getSyncState channelId, .ok cursor⟩ :: pulling ∧
      (SyncEngine.pull codec channel channelId rounds (cursor.getD 0)).Performs pulling
        (.ok (received, wall)) := by
  rcases asks.bind with reading | ⟨first, later, cursor, rfl, reads, asks⟩
  · cases reading.perform.2
  rw [Performs.of_perform reads]
  rcases asks.bind with pulling | ⟨pulling, later, ⟨received, reached⟩, rfl, pulls, asks⟩
  · exact (pulling.allowed pull_pulls).elim
  rcases asks.bind with setting | ⟨setting, later, done, rfl, sets, asks⟩
  · unfold SyncEngine.updateSyncState at setting
    split at setting
    · rcases setting.perform with ⟨rfl, same⟩
      cases same
      exact ⟨cursor, pulling, received, by simp, pulls⟩
    · rcases setting with ⟨after, comes⟩
      cases comes.2
  rcases asks.bind with pushing | ⟨pushing, later, accepted, rfl, pushes, asks⟩
  · exact (pushing.allowed push_uploads).elim
  rcases asks.bind with evicting | ⟨evicting, later, evicted, rfl, evicts, asks⟩
  · cases evicting.perform.2
  · rcases asks with ⟨after, comes⟩
    cases comes.2

theorem store_asks {deltas : List SyncDelta} {asked : Device.Call}
    (asks : (SyncEngine.store channelId deltas).Asks past asked) :
    ∃ delta ∈ deltas, asked = .writeMessage (SyncEngine.received channelId delta) := by
  induction deltas generalizing past with
  | nil =>
      rcases asks with ⟨after, comes⟩
      cases comes.2
  | cons delta later ih =>
      rcases asks.bind with writing | ⟨first, rest, done, rfl, writes, asks⟩
      · exact ⟨delta, List.mem_cons_self, writing.perform.2⟩
      · rcases ih asks with ⟨other, otherMem, same⟩
        exact ⟨other, List.mem_cons_of_mem _ otherMem, same⟩

/-- The message was in the reply to a sync request among the calls. -/
def PulledIn (codec : Codec) (channelId : String) (calls : List (Performed device Thrown))
    (stored : StoredMessage) : Prop :=
  ∃ topic since data result delta,
    ⟨.push topic Event.syncRequest (Channel.syncPayload since 100), .ok data⟩ ∈ calls ∧
      Channel.readSyncReply codec data = some result ∧ delta ∈ result.deltas ∧
        stored = SyncEngine.received channelId delta

theorem PulledIn.mono {calls more : List (Performed device Thrown)} {stored : StoredMessage}
    (pulled : PulledIn codec channelId calls stored) (within : calls ⊆ more) :
    PulledIn codec channelId more stored := by
  rcases pulled with ⟨topic, since, data, result, delta, pushMem, rest⟩
  exact ⟨topic, since, data, result, delta, within pushMem, rest⟩

theorem pull_asks_writeMessage {since : ℕ} {stored : StoredMessage}
    (asks : (SyncEngine.pull codec channel channelId rounds since).Asks past
      (.writeMessage stored)) : PulledIn codec channelId past stored := by
  induction rounds generalizing since past with
  | zero =>
      rcases asks with ⟨after, comes⟩
      cases comes.2
  | succ rounds ih =>
      rcases asks.bind with syncing | ⟨first, later, result, rfl, syncs, continues⟩
      · rcases syncing.bind with pushing | ⟨pushing, rest, reply, rfl, pushes, reading⟩
        · cases pushing.perform.2
        · rcases reading with ⟨after, comes⟩
          unfold orThrow at comes
          split at comes
          · cases comes.2
          · cases comes.2
      rcases sync_performs syncs with ⟨data, readEq, rfl⟩
      rcases continues.bind with storing | ⟨second, later, done, rfl, stores, continues⟩
      · rcases store_asks storing with ⟨delta, deltaMem, same⟩
        exact ⟨_, since, data, result, delta, List.mem_cons_self, readEq, deltaMem,
          Device.Call.writeMessage.inj same⟩
      split at continues
      · rcases continues.bind with pulling | ⟨third, last, found, rfl, pulls, ends⟩
        · exact (ih pulling).mono fun taken takenMem => by simp [takenMem]
        · rcases ends with ⟨after, comes⟩
          cases comes.2
      · rcases continues with ⟨after, comes⟩
        cases comes.2

/-- A cycle writes what it has pulled. -/
theorem asks_writeMessage {stored : StoredMessage}
    (asks : (SyncEngine.syncChannel codec channel channelId rounds).Asks past
      (.writeMessage stored)) : PulledIn codec channelId past stored := by
  rcases asks.bind with reading | ⟨first, later, cursor, rfl, reads, asks⟩
  · cases reading.perform.2
  rcases asks.bind with pulling | ⟨pulling, later, outcome, rfl, pulls, asks⟩
  · exact (pull_asks_writeMessage pulling).mono fun taken takenMem => by simp [takenMem]
  rcases asks.bind with setting | ⟨setting, later, done, rfl, sets, asks⟩
  · unfold SyncEngine.updateSyncState at setting
    split at setting
    · cases setting.perform.2
    · rcases setting with ⟨after, comes⟩
      cases comes.2
  rcases asks.bind with pushing | ⟨pushing, later, accepted, rfl, pushes, asks⟩
  · exact (pushing.allowed push_uploads).elim
  rcases asks.bind with evicting | ⟨evicting, later, evicted, rfl, evicts, asks⟩
  · cases evicting.perform.2
  · rcases asks with ⟨after, comes⟩
    cases comes.2

end Calls

/-! ## The reply to a request -/

/-- How the gateway has handled a sync request for a page of a hundred. -/
structure RequestRun (tenantId channelId : Bytes) (since : ℕ) (made : List (Performed node Raise))
    where
  now : ℕ
  system : ℕ
  reading : ℕ
  answers : List BucketAnswer
  buckets : answers.map Prod.fst =
    Sync.bucketRange (TimeBucket.ofMs since) (TimeBucket.ofMs now)
  commands : made =
    (⟨.systemTime, .ok now⟩ :: answers.map (BucketAnswer.query tenantId channelId 101)).map
        onNode ++
      [⟨.inr .systemTime, .ok system⟩, ⟨.inr .nativeTime, .ok reading⟩]

namespace RequestRun

variable {tenantId channelId : Bytes} {since : ℕ} {made : List (Performed node Raise)}
  (run : RequestRun tenantId channelId since made)

/-- What the queries have read, where a failed one reads nothing. -/
def reads : List BucketRead :=
  run.answers.map BucketAnswer.read

/-- The clock of the reply. -/
def wall : ℕ :=
  max (max run.reading run.system) since

theorem mem_made {taken : Performed node Raise} : taken ∈ made ↔
    taken = onNode ⟨.systemTime, .ok run.now⟩ ∨
      (∃ answer ∈ run.answers, onNode (answer.query tenantId channelId 101) = taken) ∨
        taken = ⟨.inr .systemTime, .ok run.system⟩ ∨
          taken = ⟨.inr .nativeTime, .ok run.reading⟩ := by
  have same : taken ∈ made ↔ taken ∈ _ := Iff.of_eq (congrArg (taken ∈ ·) run.commands)
  rw [same]
  simp only [List.map_cons, List.cons_append, List.mem_cons, List.mem_append, List.mem_map,
    List.not_mem_nil, or_false, exists_exists_and_eq_and]

/-- The query of a bucket among the commands is the one that was answered so. -/
theorem mem_answers {bucketId limit : ℕ} {answer : Except Bytes (List MessageRow)}
    (performed : ⟨.inl (.selectMessages tenantId channelId bucketId limit), .ok answer⟩ ∈ made) :
    (bucketId, answer) ∈ run.answers := by
  rcases run.mem_made.mp performed with same | ⟨other, otherMem, same⟩ | same | same
  · cases same
  · cases same
    exact otherMem
  · cases same
  · cases same

end RequestRun

/-- What a device reads in the reply to a sync request, whatever the commands of the gateway
were answered. -/
theorem readSyncReply_of_performs {codec : Codec} {native : Native} {tenantId : Id16}
    {socket : Socket} {channelId data : Bytes} {ref topicId since : ℕ} {info : TopicInfo}
    {made : List (Performed node Raise)} {reaction : Reaction}
    (tenant : socket.tenantId = tenantId) (refFits : ref < 256 ^ 4)
    (topicFits : topicId < 256 ^ 2) (entry : socket.topicIds.lookup topicId = some info)
    (names : info.Names channelId)
    (performs : (nodeHandleIn native (pushFrame ref topicId Event.syncRequest
      (Channel.syncPayload since 100)) socket).Performs made (.ok reaction))
    (pushed : reaction.pushed = [replyFrame ref topicId statusOk data]) :
    ∃ run : RequestRun tenantId.val channelId (since % 256 ^ 8) made,
      (run.wall < 256 ^ 8 → (∀ msg ∈ newerOf (since % 256 ^ 8) run.reads,
          codec.Reads native (messageEnvelope tenantId.val channelId msg)) →
        Channel.readSyncReply codec data = some (pageResult tenantId.val channelId
          (pageOf (since % 256 ^ 8) 100 run.reads) run.wall
            (decide (100 < (newerOf (since % 256 ^ 8) run.reads).length)))) := by
  subst tenant
  rcases exists_pullRequest since refFits topicFits entry names with
    ⟨request, refEq, topicEq, limitEq, counterEq⟩
  rcases request.performs_iff.mp performs with ⟨result, replies, same⟩
  cases Except.ok.inj same
  rw [limitEq, counterEq] at replies
  have answered : (request.reaction result).pushed =
      [replyFrame request.ref request.topicId statusOk data] := by
    rw [pushed, refEq, topicEq]
  rcases result with raised | reply
  · exact absurd answered replyError_ne_ok
  cases (replyFrame_inj (List.singleton_inj.mp answered)).2
  rcases syncReply_performs_iff.mp replies with
    ⟨commands, page, system, reading, merged, finds, merging, rfl, rfl⟩
  rcases getDeltas_performs_iff.mp finds with ⟨now, answers, fits, buckets, rfl, rfl⟩
  rcases @Hlc.merge_of_lt native.build reading ⟨system, 0, socket.userId⟩
    ⟨since % 256 ^ 8, 0, socket.userId⟩ (by simp) (by simp) with ⟨counter, mergedEq⟩
  rw [mergedEq] at merging
  cases merging
  refine ⟨⟨now, system, reading, answers, buckets, rfl⟩, fun wallFits legible => ?_⟩
  refine readSyncReply_page rfl wallFits (List.length_take_le _ _)
    (fun msg msgMem => legible msg (mem_pageOf msgMem)) ?_
  simp [deltaPage, List.filterMap_map, encodeDelta_toDelta, RequestRun.reads]

end Mercury.Sdk
