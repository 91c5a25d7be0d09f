import Mercury.Sdk.PullCompleteness
import Mercury.Sdk.Unpackers

/-!
# Payloads packed by hand

The layouts that are written once in Rust or Elixir and once in TypeScript: the commit and
the welcome of `add_member`, the replies to `mls:members` and to `sync:request`. The gateway
sends at most 100 envelopes in a reply, each of one message.
-/

namespace Mercury

/-- The `width` bytes of an integer, the most significant first. -/
def bigEndian : ℕ → ℕ → Bytes
  | 0, _ => []
  | width + 1, value => Fin.ofNat 256 (value / 256 ^ width) :: bigEndian width value

@[simp]
theorem length_bigEndian (width value : ℕ) : (bigEndian width value).length = width := by
  induction width with
  | zero => rfl
  | succ width ih => simp [bigEndian, ih]

theorem fromBigEndian_bigEndian {width value : ℕ} (fits : value < 256 ^ width) :
    fromBigEndian (bigEndian width value) = value := by
  have cut : fromBigEndian (bigEndian width value) = value % 256 ^ width := by
    clear fits
    induction width with
    | zero => simp [bigEndian, fromBigEndian, Nat.mod_one]
    | succ width ih =>
        simp only [bigEndian, fromBigEndian, length_bigEndian, ih, Fin.ofNat]
        rw [pow_succ, Nat.mod_mul, Nat.add_comm, Nat.mul_comm]
  rw [cut, Nat.mod_eq_of_lt fits]

end Mercury

namespace Mercury.Sdk

open Foundations Foundations.Program Gateway

variable {codec : Codec} {channel : Channel} {calls : List (Performed device Thrown)}

/-! ## Added members -/

/-- What the manager returns for a member that it adds. -/
structure AddMemberResult where
  commit : Bytes
  welcome : Bytes
deriving DecidableEq

/-- The bytes that `add_member` of mercury-sdk-core returns for what it made; it panics on a
commit whose length is no `u32`. -/
def MlsManager.packAddMember (made : AddMemberResult) : Option Bytes :=
  if made.commit.length < 2 ^ 32 then
    some (bigEndian 4 made.commit.length ++ made.commit ++ made.welcome)
  else none

/-- `unpackAddMember` of `mls.ts`; `getUint32` throws past the end, and `slice` stops there. -/
def unpackAddMember (packed : Bytes) : Option AddMemberResult :=
  if packed.length < 4 then none
  else
    let commitLen := fromBigEndian (packed.take 4)
    some
      { commit := (packed.take (4 + commitLen)).drop 4
        welcome := packed.drop (4 + commitLen) }

theorem exists_packAddMember {made : AddMemberResult} (fits : made.commit.length < 2 ^ 32) :
    ∃ packed, MlsManager.packAddMember made = some packed :=
  ⟨_, if_pos fits⟩

theorem unpackAddMember_packAddMember {made : AddMemberResult} {packed : Bytes}
    (packs : MlsManager.packAddMember made = some packed) :
    unpackAddMember packed = some made := by
  rcases Option.ite_none_right_eq_some.mp packs with ⟨fits, packedEq⟩
  cases packedEq
  have headerLength := length_bigEndian 4 made.commit.length
  have front : (bigEndian 4 made.commit.length ++ made.commit).length =
      4 + made.commit.length := by
    rw [List.length_append, headerLength]
  have enough : ¬(bigEndian 4 made.commit.length ++ made.commit ++ made.welcome).length < 4 := by
    rw [List.length_append, front]
    omega
  have commitLen : fromBigEndian
      ((bigEndian 4 made.commit.length ++ made.commit ++ made.welcome).take 4) =
        made.commit.length := by
    rw [List.append_assoc, List.take_left' headerLength]
    exact fromBigEndian_bigEndian fits
  rw [unpackAddMember, if_neg enough]
  simp only [commitLen]
  rw [List.take_left' front, List.drop_left' front, List.drop_left' headerLength]

/-! ## Lists of members -/

def segment : Format Byte Bytes where
  write id := id
  read text := if 16 ≤ text.length then some (text.take 16, text.drop 16) else none

theorem reads_segment : segment.Reads (·.length = 16) fun _ => True := by
  intro id rest sixteen _
  have enough : 16 ≤ (segment.write id ++ rest).length := by
    rw [List.length_append]
    exact Nat.le_add_right_of_le sixteen.ge
  simp only [segment] at enough ⊢
  rw [if_pos enough, List.take_left' sixteen, List.drop_left' sixteen]

namespace Channel

/-- The loop of `fetchMembers`, from `i` on, with `left` members to come. -/
def membersLoop (reply : Bytes) (i : ℕ) : ℕ → List Bytes
  | 0 => []
  | left + 1 =>
      if 2 + (i + 1) * 16 ≤ reply.length then
        (reply.take (2 + (i + 1) * 16)).drop (2 + i * 16) :: membersLoop reply (i + 1) left
      else []

def readMembers (reply : Bytes) : List Bytes :=
  if reply.length < 2 then []
  else membersLoop reply 0 (fromLittleEndian (reply.take 2))

def fetchMembers (channel : Channel) : Script (List Bytes) := do
  let reply ← request (.push channel.topic Event.mlsMembers [])
  pure (readMembers reply)

/-- The loop reads segments behind those that it has read. -/
theorem membersLoop_eq (reply : Bytes) (i left : ℕ) :
    membersLoop reply i left = (segment.readUpTo left (reply.drop (2 + i * 16))).1 := by
  induction left generalizing i with
  | zero => rfl
  | succ left ih =>
      have next : 2 + (i + 1) * 16 = 2 + i * 16 + 16 := by ring
      rw [membersLoop, Format.readUpTo, next]
      have left : (reply.drop (2 + i * 16)).length = reply.length - (2 + i * 16) :=
        List.length_drop
      by_cases whole : 2 + i * 16 + 16 ≤ reply.length
      · have enough : 16 ≤ (reply.drop (2 + i * 16)).length := by omega
        have read : segment.read (reply.drop (2 + i * 16)) =
            some ((reply.drop (2 + i * 16)).take 16, reply.drop (2 + i * 16 + 16)) := by
          rw [← @List.drop_drop _ 16 (2 + i * 16)]
          exact if_pos enough
        have window : (reply.take (2 + i * 16 + 16)).drop (2 + i * 16) =
            (reply.drop (2 + i * 16)).take 16 := by
          rw [List.drop_take, Nat.add_sub_cancel_left]
        rw [if_pos whole, read, window, ih, next]
      · have short : ¬16 ≤ (reply.drop (2 + i * 16)).length := by omega
        have unread : segment.read (reply.drop (2 + i * 16)) = none := if_neg short
        rw [if_neg whole, unread]

/-- The SDK reads the members behind their count. -/
theorem readMembers_packed {ids : List Bytes} (few : ids.length < 256 ^ 2)
    (sixteen : ∀ id ∈ ids, id.length = 16) :
    readMembers (littleEndian 2 ids.length ++ ids.flatten) = ids := by
  have counted : (littleEndian 2 ids.length ++ ids.flatten).take 2 =
      littleEndian 2 ids.length := List.take_left' (length_littleEndian ..)
  have body : (littleEndian 2 ids.length ++ ids.flatten).drop 2 = ids.flatten :=
    List.drop_left' (length_littleEndian ..)
  have enough : ¬(littleEndian 2 ids.length ++ ids.flatten).length < 2 := by
    rw [List.length_append, length_littleEndian]
    omega
  rw [readMembers, if_neg enough, membersLoop_eq, counted, fromLittleEndian_littleEndian few,
    Nat.zero_mul, Nat.add_zero, body]
  have written : ids.flatMap segment.write = ids.flatten := List.flatMap_id'
  have read := reads_segment.readUpTo_written sixteen []
  rw [List.append_nil, written] at read
  rw [read]

theorem fetchMembers_performs {data : Bytes} :
    (channel.fetchMembers).Performs [⟨.push channel.topic Event.mlsMembers [], .ok data⟩]
      (.ok (readMembers data)) :=
  ⟨_, _, rfl, rfl, rfl⟩

end Channel

theorem packMembers_eq {ids : List Bytes} (sixteen : ∀ id ∈ ids, id.length = 16) :
    packMembers ids = pure ids.flatten := by
  induction ids with
  | nil => rfl
  | cons id later ih =>
      rcases List.forall_mem_cons.mp sixteen with ⟨idSixteen, laterSixteen⟩
      rw [packMembers, segment16, if_pos idSixteen.ge, ih laterSixteen,
        List.take_of_length_le idSixteen.le]
      rfl

/-- The bytes of the reply to `mls:members`. -/
def membersReply (ids : List Bytes) : Bytes :=
  littleEndian 2 (min ids.length 1000) ++ (ids.take 1000).flatten

/-- The gateway replies with the members that it is told of. -/
theorem dispatchMlsMembers_performs {ref topicId : ℕ} {info : TopicInfo} {socket : Socket}
    {outcome : Except Raise Reaction} {tenantId channelId : Bytes} {ids : List Bytes}
    (performs : (dispatchMlsMembers ref topicId info socket).Performs
      [⟨.listMembers tenantId channelId, .ok (.ids ids)⟩] outcome)
    (sixteen : ∀ id ∈ ids, id.length = 16) :
    outcome = .ok (replyOk socket ref topicId (membersReply ids)) := by
  unfold dispatchMlsMembers at performs
  rcases isChannel : info.channelId with _ | text
  · rw [isChannel] at performs
    cases performs.1
  · rw [isChannel, fetch_bind] at performs
    split at performs
    · cases performs.1
    · rcases performs with ⟨answer, later, callsEq, packs⟩
      cases callsEq
      have firstSixteen : ∀ id ∈ ids.take (min ids.length 1000), id.length = 16 := by
        intro id idMem
        exact sixteen id (List.mem_of_mem_take idMem)
      have firsts : ids.take (min ids.length 1000) = ids.take 1000 := by
        rw [Nat.min_comm, ← List.take_take, List.take_length]
      change (packMembers (ids.take (min ids.length 1000)) >>= fun packed =>
        pure (replyOk socket ref topicId
          (littleEndian 2 (min ids.length 1000) ++ packed))).Performs [] outcome at packs
      rw [packMembers_eq firstSixteen, firsts] at packs
      exact packs.2

/-- In a channel the members are asked for. -/
theorem exists_dispatchMlsMembers {ref topicId : ℕ} {info : TopicInfo} {socket : Socket}
    {channelId : Bytes} (names : info.Names channelId) (ids : List Bytes)
    (sixteen : ∀ id ∈ ids, id.length = 16) :
    ∃ outcome, (dispatchMlsMembers ref topicId info socket).Performs
      [⟨.listMembers socket.tenantId.val channelId, .ok (.ids ids)⟩] outcome := by
  rcases names with ⟨hex, isChannel, decoded⟩
  have firstSixteen : ∀ id ∈ ids.take (min ids.length 1000), id.length = 16 :=
    fun id idMem => sixteen id (List.mem_of_mem_take idMem)
  rw [dispatchMlsMembers, isChannel, fetch_bind]
  simp only [decoded]
  refine ⟨.ok (replyOk socket ref topicId (littleEndian 2 (min ids.length 1000) ++
    (ids.take (min ids.length 1000)).flatten)), .ok (.ids ids), [], rfl, ?_⟩
  change (packMembers (ids.take (min ids.length 1000)) >>= fun packed =>
    pure (replyOk socket ref topicId (littleEndian 2 (min ids.length 1000) ++ packed))).Performs
      [] _
  rw [packMembers_eq firstSixteen]
  exact ⟨rfl, rfl⟩

/-- The SDK reads the first thousand members. -/
theorem readMembers_membersReply {ids : List Bytes} (sixteen : ∀ id ∈ ids, id.length = 16) :
    Channel.readMembers (membersReply ids) = ids.take 1000 := by
  have count : min ids.length 1000 = (ids.take 1000).length := by
    rw [List.length_take, Nat.min_comm]
  have few : (ids.take 1000).length < 256 ^ 2 := by
    rw [List.length_take]
    omega
  rw [membersReply, count]
  apply Channel.readMembers_packed few
  intro id idMem
  exact sixteen id (List.mem_of_mem_take idMem)

/-! ## Replies to `sync:request` -/

/-- What `sync` makes of the three values of a reply; an envelope that does not decode throws. -/
def syncResult (codec : Codec) (reply : SyncReply) : Except Thrown SyncResult :=
  match reply.envelopes.mapM codec.decodeEnvelope with
  | some decoded =>
      .ok
        { deltas := decoded.map Channel.toSyncDelta
          serverHlc := reply.mergedWall
          hasMore := reply.hasMore }
  | none => .error .invalid

theorem sync_performs_reply {since limit : ℕ} {reply : SyncReply}
    (wall : reply.mergedWall < 2 ^ 53) (count : reply.envelopes.length < 2 ^ 32)
    (sizes : ∀ env ∈ reply.envelopes, env.length < 2 ^ 32) :
    (channel.sync codec since limit).Performs
      [⟨.push channel.topic Event.syncRequest (Channel.syncPayload since limit),
        .ok reply.encode⟩] (syncResult codec reply) := by
  have read := @readSyncReply_eq codec reply (wall.trans (by decide)) count sizes
  refine ⟨.ok reply.encode, [], rfl, ?_⟩
  change (orThrow (Channel.readSyncReply codec reply.encode)).Performs [] _
  rw [read, syncResult]
  cases reply.envelopes.mapM codec.decodeEnvelope <;> exact ⟨rfl, rfl⟩

/-! ## All three -/

/-- The SDK reads what is packed for it. -/
theorem hand_packed_payloads_agree :
    (∀ made : AddMemberResult,
      (made.commit.length < 2 ^ 32 → ∃ packed, MlsManager.packAddMember made = some packed) ∧
      ∀ packed, MlsManager.packAddMember made = some packed →
        unpackAddMember packed = some made) ∧
    (∀ (ref topicId : ℕ) (info : TopicInfo) (socket : Socket) (ids : List Bytes),
      (∀ id ∈ ids, id.length = 16) →
        (∀ channelId, info.Names channelId →
          ∃ outcome, (dispatchMlsMembers ref topicId info socket).Performs
            [⟨.listMembers socket.tenantId.val channelId, .ok (.ids ids)⟩] outcome) ∧
        ∀ tenantId channelId outcome, (dispatchMlsMembers ref topicId info socket).Performs
            [⟨.listMembers tenantId channelId, .ok (.ids ids)⟩] outcome →
          ∃ data, outcome = .ok (replyOk socket ref topicId data) ∧
            ∀ channel : Channel, channel.fetchMembers.Performs
              [⟨.push channel.topic Event.mlsMembers [], .ok data⟩] (.ok (ids.take 1000))) ∧
    ∀ (codec : Codec) (channel : Channel) (since limit : ℕ) (reply : SyncReply),
      reply.mergedWall < 2 ^ 53 → reply.envelopes.length < 2 ^ 32 →
      (∀ env ∈ reply.envelopes, env.length < 2 ^ 32) →
        unpackEnvelopes (reply.encode.drop 9) = some reply.envelopes ∧
        (channel.sync codec since limit).Performs
          [⟨.push channel.topic Event.syncRequest (Channel.syncPayload since limit),
            .ok reply.encode⟩] (syncResult codec reply) := by
  refine ⟨fun made => ⟨exists_packAddMember, fun _ => unpackAddMember_packAddMember⟩, ?_, ?_⟩
  · intro ref topicId info socket ids sixteen
    refine ⟨fun channelId names => exists_dispatchMlsMembers names ids sixteen, ?_⟩
    intro tenantId channelId outcome performs
    refine ⟨_, dispatchMlsMembers_performs performs sixteen, ?_⟩
    intro channel
    rw [← readMembers_membersReply sixteen]
    exact Channel.fetchMembers_performs
  · intro codec channel since limit reply wall count sizes
    refine ⟨?_, sync_performs_reply wall count sizes⟩
    have packed : reply.encode.drop 9 = packEnvelopes reply.envelopes := by
      simp [SyncReply.encode, List.drop_append]
    rw [packed]
    exact unpackEnvelopes_pack count sizes

/-- A page of two messages of which there are more. -/
def pairReply : SyncReply where
  mergedWall := 1000
  hasMore := true
  envelopes := [Capnp.envelope (numberedEnvelope 0), Capnp.envelope (numberedEnvelope 1)]

/-- A commit and its welcome, the members of a channel, and a page of two messages. -/
theorem hand_packed_payloads_agree_sample :
    (∃ packed, MlsManager.packAddMember ⟨[1, 2, 3], [4]⟩ = some packed ∧
      unpackAddMember packed = some ⟨[1, 2, 3], [4]⟩) ∧
    (∃ data, (dispatchMlsMembers 5 1 (channelEntry (.replicate 1) (.replicate 7))
          (memberSocket 2)).Performs
        [⟨.listMembers (Id16.replicate 1).val (Id16.replicate 7).val,
          .ok (.ids [(Id16.replicate 2).val, (Id16.replicate 3).val])⟩]
        (.ok (replyOk (memberSocket 2) 5 1 data)) ∧
      numberedChannel.fetchMembers.Performs
        [⟨.push numberedChannel.topic Event.mlsMembers [], .ok data⟩]
        (.ok [(Id16.replicate 2).val, (Id16.replicate 3).val])) ∧
    (numberedChannel.sync (numberedCodec 2) 0 100).Performs
      [⟨.push numberedChannel.topic Event.syncRequest (Channel.syncPayload 0 100),
        .ok pairReply.encode⟩]
      (.ok ⟨[Channel.toSyncDelta (numberedEnvelope 0), Channel.toSyncDelta (numberedEnvelope 1)],
        1000, true⟩) := by
  rcases hand_packed_payloads_agree with ⟨added, members, synced⟩
  refine ⟨?_, ?_, ?_⟩
  · rcases (added ⟨[1, 2, 3], [4]⟩).1 (by decide) with ⟨packed, packs⟩
    exact ⟨packed, packs, (added _).2 packed packs⟩
  · have two := members 5 1 (channelEntry (.replicate 1) (.replicate 7)) (memberSocket 2)
      [(Id16.replicate 2).val, (Id16.replicate 3).val] (by decide)
    rcases two.1 _ (channelEntry_names _ _) with ⟨outcome, performs⟩
    rcases two.2 _ _ _ performs with ⟨data, rfl, fetched⟩
    exact ⟨data, performs, fetched numberedChannel⟩
  · exact (synced (numberedCodec 2) numberedChannel 0 100 pairReply (by decide) (by decide)
      (by decide +kernel)).2

end Mercury.Sdk
