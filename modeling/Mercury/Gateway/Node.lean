import Mercury.Gateway.Issued

/-!
# A gateway node with its persistence application

The calls of a socket to `Members`, `Messages` and `Sync` carried out by these
modules, so that what remains are the commands to the stores and the calls that
leave the model. The message rows that a frame asks for are read off the frame
(`NodeIssues`).
-/

namespace Mercury.Gateway

open Foundations Foundations.Program Persistence

/-- The commands of a node: those of its persistence application, and those of its
sockets to the rest of the system. -/
abbrev node : Interface :=
  backend.sum calls

def inner {Result : Type} (program : Backed Result) : Program node Raise Result :=
  program.through fun asked => @perform node Raise (.inl asked)

/-- Which function of the persistence application carries out a call. -/
def persistence : (asked : Call) → Program node Raise asked.Answer
  | .isMember tenantId channelId userId => inner (Members.isMember tenantId channelId userId)
  | .listMembers tenantId channelId => inner (Members.listMembers tenantId channelId)
  | .addMember tenantId channelId userId => inner (Members.addMember tenantId channelId userId 0)
  | .getRole tenantId channelId userId => inner (Members.getRole tenantId channelId userId)
  | .removeMember tenantId channelId userId =>
      inner (Members.removeMember tenantId channelId userId)
  | .writeMessage tenantId channelId bucket msg =>
      inner (Messages.write tenantId channelId bucket msg)
  | .getDeltas tenantId channelId sinceHlcWall limit =>
      inner (Sync.getDeltas tenantId channelId sinceHlcWall limit)
  | .applyDeltas tenantId channelId deltas => inner (Sync.applyDeltas tenantId channelId deltas)
  | asked => @perform node Raise (.inr asked)

/-- `handle_in` on a node. -/
def nodeHandleIn (native : Native) (data : Bytes) (socket : Socket) :
    Program node Raise Reaction :=
  (handleIn native data socket).through persistence

/-- A background task on a node. -/
def nodeRunTask (task : BackgroundTask) : Program node Raise Unit :=
  (runTask task).through persistence

/-! ## The messages of a push -/

/-- The envelopes of a batch of which no decoding fails. -/
def decodedEnvelopes (native : Native) : List Bytes → Option (List Envelope)
  | [] => some []
  | envelope :: later =>
      match native.envelopeDecode envelope with
      | .ok (.ok decoded) => (decodedEnvelopes native later).map (decoded :: ·)
      | .ok (.error _) => none
      | .error _ => decodedEnvelopes native later

/-- The message that `sync:push` stores for a decoded envelope. -/
def pushedMessage (envelope : Envelope) : Message where
  messageId := envelope.messageId
  senderId := envelope.senderId
  encryptedContent := envelope.payload
  contentType := 0
  replyTo := none
  createdAt := envelope.timestamp

/-- The delta that `sync:push` builds for a decoded envelope. -/
def envelopeDelta (envelope : Envelope) : Sync.Delta :=
  .messageAppend (some (Base.encode16 envelope.messageId))
    (some (Base.encode16 envelope.senderId)) (some (Base.encode64 envelope.payload)) (some 0)
    (some envelope.timestamp)

/-- The timestamp has a time bucket. -/
def Envelope.Fits (envelope : Envelope) : Prop :=
  ∃ bucket, TimeBucket.compute envelope.timestamp = .ok bucket

/-- A batch of envelopes that the library reads back. -/
theorem decodedEnvelopes_map {native : Native} {encode : Envelope → Bytes}
    {envelopes : List Envelope}
    (reads : ∀ envelope ∈ envelopes, native.envelopeDecode (encode envelope) = .ok (.ok envelope)) :
    decodedEnvelopes native (envelopes.map encode) = some envelopes := by
  induction envelopes with
  | nil => rfl
  | cons envelope later ih =>
      simp only [List.map_cons, decodedEnvelopes, reads envelope List.mem_cons_self,
        ih fun other otherMem => reads other (List.mem_cons_of_mem _ otherMem), Option.map_some]

theorem pushedDeltas_ok {native : Native} {batch : List Bytes} {deltas : List Sync.Delta} :
    pushedDeltas native batch = .ok deltas ↔
      ∃ envelopes, decodedEnvelopes native batch = some envelopes ∧
        deltas = envelopes.map envelopeDelta := by
  induction batch generalizing deltas with
  | nil => simp [pushedDeltas, decodedEnvelopes, eq_comm]
  | cons envelope later ih =>
      rcases answered : native.envelopeDecode envelope with reason | failure | decoded
      · simp only [pushedDeltas, decodedEnvelopes, answered]
        exact ih
      · simp [pushedDeltas, decodedEnvelopes, answered]
      · simp only [pushedDeltas, decodedEnvelopes, answered]
        constructor
        · intro built
          rcases rest : pushedDeltas native later with raised | tail
          · rw [rest] at built
            cases built
          · rw [rest] at built
            cases built
            rcases ih.mp rest with ⟨envelopes, decodes, rfl⟩
            exact ⟨decoded :: envelopes, by simp [decodes], rfl⟩
        · rintro ⟨envelopes, decodes, rfl⟩
          rcases Option.map_eq_some_iff.mp decodes with ⟨tail, tailEq, rfl⟩
          rw [ih.mpr ⟨tail, tailEq, rfl⟩]
          rfl

theorem pushedDeltas_of_decoded {native : Native} {batch : List Bytes}
    {envelopes : List Envelope} (decodes : decodedEnvelopes native batch = some envelopes) :
    pushedDeltas native batch = .ok (envelopes.map envelopeDelta) :=
  pushedDeltas_ok.mpr ⟨envelopes, decodes, rfl⟩

theorem applySingleDelta_envelopeDelta (tenantId channelId : Bytes) (envelope : Envelope) :
    Sync.applySingleDelta tenantId channelId (envelopeDelta envelope) =
      ofExcept (TimeBucket.compute envelope.timestamp) >>= fun bucket =>
        Messages.write tenantId channelId bucket (pushedMessage envelope) := by
  simp only [envelopeDelta, Sync.applySingleDelta, Sync.decodeHexOrGenerate,
    Sync.decodeHexOrDefault, Sync.decodeB64OrRaw, Base.decode16_encode16,
    Base.decode64_encode64, Option.getD_some]
  rfl

/-- A batch inserts the rows of its envelopes, up to one without a time bucket. -/
theorem countApplied_ensures {tenantId channelId : Bytes} {envelopes : List Envelope}
    {admitted : Performed backend Raise → Prop} {allowed : Backend.Call → Prop}
    (clock : allowed .systemTime)
    (inserts : ∀ earlier envelope later bucket now, envelopes = earlier ++ envelope :: later →
      (∀ other ∈ earlier, other.Fits) → TimeBucket.compute envelope.timestamp = .ok bucket →
        allowed (.insertMessage ⟨tenantId, channelId, bucket, pushedMessage envelope, now⟩)) :
    (Sync.countApplied tenantId channelId (envelopes.map envelopeDelta)).Ensures admitted allowed
      fun _ => True := by
  induction envelopes with
  | nil => trivial
  | cons envelope later ih =>
      have first : (Sync.applySingleDelta tenantId channelId (envelopeDelta envelope)).Ensures
          admitted allowed fun
            | .ok _ => envelope.Fits
            | .error _ => True := by
        rw [applySingleDelta_envelopeDelta]
        refine Ensures.bind.mpr (Ensures.ofExcept.mpr ?_)
        rcases bucketEq : TimeBucket.compute envelope.timestamp with raised | bucket
        · trivial
        · refine Ensures.bind.mpr (Ensures.perform.mpr ⟨clock, ?_⟩)
          rintro (raised | now) -
          · trivial
          refine Ensures.perform.mpr
            ⟨inserts [] envelope later bucket now rfl (by simp) bucketEq, ?_⟩
          rintro (raised | stored) -
          · trivial
          · exact ⟨bucket, bucketEq⟩
      refine Ensures.bind.mpr (first.post_mono ?_)
      rintro (raised | result) fits
      · trivial
      refine Ensures.bind.mpr (Ensures.post_mono (ih ?_) ?_)
      · intro earlier other rest bucket now split earlierFit bucketEq
        refine inserts (envelope :: earlier) other rest bucket now (by simp [split]) ?_ bucketEq
        rintro candidate candidateMem
        rcases List.mem_cons.mp candidateMem with rfl | candidateMem
        · exact fits
        · exact earlierFit candidate candidateMem
      · rintro (raised | count) - <;> trivial

/-- The row is the one that the push of `payload` inserts for one of its envelopes. -/
def PushesRow (native : Native) (socket : Socket) (payload : Bytes) (row : MessageRow) : Prop :=
  row.tenantId = socket.tenantId.val ∧
    ∃ earlier envelope later,
      decodedEnvelopes native (unpackEnvelopes payload) = some (earlier ++ envelope :: later) ∧
        (earlier ++ envelope :: later).length ≤ 1000 ∧ (∀ other ∈ earlier, other.Fits) ∧
          TimeBucket.compute envelope.timestamp = .ok row.bucketId ∧
            row.message = pushedMessage envelope

/-- What a frame makes its node do. -/
def NodeIssues (native : Native) (socket : Socket) (frame : Frame) : node.Call → Prop
  | .inl (.insertMessage row) =>
      ∃ ref topicId payload info, frame = .push ref topicId Event.syncPush payload ∧
        socket.topicIds.lookup topicId = some info ∧ info.Names row.channelId ∧
          PushesRow native socket payload row
  | .inl _ => True
  | .inr asked => FrameIssues native socket frame asked

/-! ## The commands of a call -/

/-- The commands of `list_members`. -/
def ListsMembers : Backend.Call → Prop
  | .smembers _ | .selectMemberIds .. | .replaceSet .. => True
  | _ => False

/-- The commands of `add_member`, `get_role` and `remove_member`. -/
def ChangesMembers : Backend.Call → Prop
  | .insertMember .. | .selectRole .. | .deleteMember .. | .del _ => True
  | _ => False

/-- The commands of `get_deltas` on a channel. -/
def ReadsMessages (tenantId channelId : Bytes) : Backend.Call → Prop
  | .systemTime => True
  | .selectMessages tid cid _ _ => tid = tenantId ∧ cid = channelId
  | _ => False

/-- The commands of `write` and `apply_deltas` on a channel. -/
def WritesMessages (tenantId channelId : Bytes) : Backend.Call → Prop
  | .systemTime | .generateMessageId | .updateReadPosition .. => True
  | .insertMessage row => row.tenantId = tenantId ∧ row.channelId = channelId
  | .insertReaction tid cid .. => tid = tenantId ∧ cid = channelId
  | _ => False

section

variable {admitted : Performed backend Raise → Prop} {tenantId channelId userId : Bytes}

theorem listMembers_commands :
    (Members.listMembers tenantId channelId).Ensures admitted ListsMembers fun _ => True := by
  have load : (Members.loadFromDb tenantId channelId).Ensures admitted ListsMembers
      fun _ => True := by
    refine Ensures.rescue.mpr (Ensures.post_mono (?_ : Ensures _ _ _ fun _ => True) ?_)
    · split
      · apply Ensures.seq (Ensures.ask trivial)
        intro uuids
        split
        · trivial
        · refine Ensures.seq ?_ fun _ => trivial
          unfold Cache.putChannelMembers
          split
          · exact Ensures.seq (Ensures.ask trivial) fun _ => trivial
          · trivial
      · trivial
    · rintro (raised | listing) - <;> trivial
  have cached : (Cache.getChannelMembers tenantId channelId).Ensures admitted ListsMembers
      fun _ => True := by
    apply Ensures.seq (Ensures.ask trivial)
    intro found
    split <;> trivial
  apply Ensures.seq cached
  intro members
  split
  · trivial
  · exact load

theorem isMember_commands :
    (Members.isMember tenantId channelId userId).Ensures admitted ListsMembers
      fun _ => True := by
  apply Ensures.seq listMembers_commands
  intro listing
  split <;> trivial

theorem invalidateChannelMembers_commands :
    (Cache.invalidateChannelMembers tenantId channelId).Ensures admitted ChangesMembers
      fun _ => True :=
  Ensures.seq (Ensures.ask trivial) fun _ => trivial

theorem addMember_commands {role : ℕ} :
    (Members.addMember tenantId channelId userId role).Ensures admitted ChangesMembers
      fun _ => True := by
  unfold Members.addMember
  split
  · apply Ensures.seq (Ensures.ask trivial)
    intro inserted
    split
    · exact Ensures.seq invalidateChannelMembers_commands fun _ => trivial
    · trivial
  · trivial

theorem getRole_commands :
    (Members.getRole tenantId channelId userId).Ensures admitted ChangesMembers
      fun _ => True := by
  refine Ensures.rescue.mpr (Ensures.post_mono (?_ : Ensures _ _ _ fun _ => True) ?_)
  · split
    · apply Ensures.seq (Ensures.ask trivial)
      intro role
      split <;> trivial
    · trivial
  · rintro (raised | role) - <;> trivial

theorem removeMember_commands :
    (Members.removeMember tenantId channelId userId).Ensures admitted ChangesMembers
      fun _ => True := by
  refine Ensures.rescue.mpr (Ensures.post_mono (?_ : Ensures _ _ _ fun _ => True) ?_)
  · split
    · apply Ensures.seq (Ensures.ask trivial)
      intro count
      apply Ensures.seq invalidateChannelMembers_commands
      intro _
      split <;> trivial
    · trivial
  · rintro (raised | removed) - <;> trivial

theorem getDeltas_commands {sinceHlcWall limit : ℕ} :
    (Sync.getDeltas tenantId channelId sinceHlcWall limit).Ensures admitted
      (ReadsMessages tenantId channelId) fun _ => True := by
  have buckets : ∀ buckets, (Sync.fetchBuckets tenantId channelId sinceHlcWall
      (min limit Sync.maxDeltas + 1) buckets).Ensures admitted
        (ReadsMessages tenantId channelId) fun _ => True := by
    intro buckets
    induction buckets with
    | nil => trivial
    | cons bucket later ih =>
        refine Ensures.seq ?_ fun _ => Ensures.seq ih fun _ => trivial
        apply Ensures.seq (Ensures.ask ⟨rfl, rfl⟩)
        intro page
        split <;> trivial
  apply Ensures.seq (Ensures.ask trivial)
  intro now
  apply Ensures.seq (Ensures.ofExcept.mpr trivial)
  intro current
  apply Ensures.seq (Ensures.ofExcept.mpr trivial)
  intro since
  exact Ensures.seq (buckets _) fun _ => trivial

theorem write_commands {bucket : ℕ} {msg : Message} :
    (Messages.write tenantId channelId bucket msg).Ensures admitted
      (WritesMessages tenantId channelId) fun _ => True :=
  Ensures.seq (Ensures.ask trivial) fun _ => Ensures.ask ⟨rfl, rfl⟩

theorem applySingleDelta_commands {delta : Sync.Delta} :
    (Sync.applySingleDelta tenantId channelId delta).Ensures admitted
      (WritesMessages tenantId channelId) fun _ => True := by
  cases delta with
  | unknown => trivial
  | reactionAdd messageId userId emoji =>
      rw [Sync.applySingleDelta]
      split
      · exact Ensures.seq (Ensures.ask ⟨rfl, rfl⟩) fun _ => trivial
      · trivial
  | readPositionUpdate userId readChannelId lastReadMessageId =>
      rw [Sync.applySingleDelta]
      split
      · exact Ensures.ask trivial
      · trivial
  | messageAppend messageId senderId encryptedContent contentType hlcWall =>
      have id : (Sync.decodeHexOrGenerate messageId).Ensures admitted
          (WritesMessages tenantId channelId) fun _ => True := by
        unfold Sync.decodeHexOrGenerate
        split
        · exact Ensures.ask trivial
        · split
          · trivial
          · exact Ensures.ask trivial
      apply Ensures.seq id
      intro msgId
      rcases hlcWall with _ | wall
      · exact Ensures.seq (Ensures.ask trivial) fun now =>
          Ensures.seq (Ensures.ofExcept.mpr trivial) fun bucket => write_commands
      · exact Ensures.seq (trivial : Ensures _ _ (Pure.pure wall) fun _ => True) fun ts =>
          Ensures.seq (Ensures.ofExcept.mpr trivial) fun bucket => write_commands

theorem applyDeltas_commands {deltas : List Sync.Delta} :
    (Sync.applyDeltas tenantId channelId deltas).Ensures admitted
      (WritesMessages tenantId channelId) fun _ => True := by
  have applied : ∀ deltas, (Sync.countApplied tenantId channelId deltas).Ensures admitted
      (WritesMessages tenantId channelId) fun _ => True := by
    intro deltas
    induction deltas with
    | nil => trivial
    | cons delta later ih =>
        exact Ensures.seq applySingleDelta_commands fun _ => Ensures.seq ih fun _ => trivial
  unfold Sync.applyDeltas
  split
  · trivial
  · exact Ensures.seq (applied deltas) fun _ => trivial

end

/-- What the persistence application may do for a call. -/
def CommandsOf : Call → node.Call → Prop
  | .isMember .., .inl command | .listMembers .., .inl command => ListsMembers command
  | .addMember .., .inl command | .getRole .., .inl command
  | .removeMember .., .inl command => ChangesMembers command
  | .getDeltas tenantId channelId _ _, .inl command => ReadsMessages tenantId channelId command
  | .writeMessage tenantId channelId _ _, .inl command
  | .applyDeltas tenantId channelId _, .inl command => WritesMessages tenantId channelId command
  | asked, .inr passed => passed = asked
  | _, _ => False

section

variable {native : Native} {socket : Socket} {frame : Frame}
  {admitted : Performed node Raise → Prop}

theorem ensures_inner {Result : Type} {program : Backed Result} {allowed : node.Call → Prop}
    {post : Except Raise Result → Prop}
    (ensured : program.Ensures (fun taken => admitted ⟨.inl taken.call, taken.answer⟩)
      (fun asked => allowed (.inl asked)) post) :
    (inner program).Ensures admitted allowed post :=
  Ensures.through ensured fun _ permitted =>
    Ensures.perform.mpr ⟨permitted, fun _ granted => granted⟩

theorem persistence_commands {asked : Call} :
    (persistence asked).Ensures admitted (CommandsOf asked) fun _ => True := by
  cases asked with
  | isMember => exact ensures_inner isMember_commands
  | listMembers => exact ensures_inner listMembers_commands
  | addMember => exact ensures_inner addMember_commands
  | getRole => exact ensures_inner getRole_commands
  | removeMember => exact ensures_inner removeMember_commands
  | getDeltas => exact ensures_inner getDeltas_commands
  | writeMessage => exact ensures_inner write_commands
  | applyDeltas => exact ensures_inner applyDeltas_commands
  | _ => exact Ensures.ask rfl

/-- Only `write` and `apply_deltas` insert messages. -/
theorem nodeIssues_of_commandsOf {asked : Call} {command : node.Call}
    (issued : FrameIssues native socket frame asked) (commands : CommandsOf asked command)
    (noWrite : ∀ tenantId channelId bucket msg, asked ≠ .writeMessage tenantId channelId bucket msg)
    (noApply : ∀ tenantId channelId deltas, asked ≠ .applyDeltas tenantId channelId deltas) :
    NodeIssues native socket frame command := by
  rcases command with command | passed
  · cases command with
    | insertMessage row =>
        cases asked with
        | writeMessage => exact absurd rfl (noWrite _ _ _ _)
        | applyDeltas => exact absurd rfl (noApply _ _ _)
        | _ => exact commands.elim
    | _ => trivial
  · have passedEq : passed = asked := by cases asked <;> exact commands
    exact passedEq ▸ issued

/-- The specification of every call of a frame on a node. -/
theorem persistence_ensures {asked : Call} (issued : FrameIssues native socket frame asked) :
    (persistence asked).Ensures admitted (NodeIssues native socket frame) fun _ => True := by
  cases asked with
  | writeMessage =>
      cases frame with
      | push => exact issued.elim fun _ issued => issued.2.elim
      | _ => exact issued.elim
  | applyDeltas tenantId channelId deltas =>
      cases frame with
      | push ref topicId event payload =>
          rcases issued with ⟨info, entry, rfl, rfl, names, decode⟩
          rcases pushedDeltas_ok.mp decode with ⟨envelopes, decodes, rfl⟩
          apply ensures_inner
          unfold Sync.applyDeltas
          split
          · trivial
          next small =>
          refine Ensures.seq (countApplied_ensures trivial ?_) fun _ => trivial
          rintro earlier envelope later bucket now rfl fits bucketEq
          exact ⟨ref, topicId, payload, info, rfl, entry, names, rfl, earlier, envelope, later,
            decodes, by simpa using small, fits, bucketEq, rfl⟩
      | _ => exact issued.elim
  | _ =>
      exact persistence_commands.mono
        (fun command commands => nodeIssues_of_commandsOf issued commands (by simp) (by simp))
        fun _ holds => holds

/-- What a frame makes its node do, however its commands are answered. -/
theorem nodeHandleIn_ensures {data : Bytes} :
    (nodeHandleIn native data socket).Ensures admitted
      (NodeIssues native socket (Frame.parse data)) fun _ => True := by
  have issued : (handleIn native data socket).Ensures (fun _ => True)
      (FrameIssues native socket (Frame.parse data)) fun _ => True :=
    Ensures.post_mono within_handleFrame fun _ _ => trivial
  exact Ensures.through issued fun _ permitted =>
    (persistence_ensures permitted).post_mono fun _ _ => trivial

/-- A task inserts the row of the message it was given, and no other. -/
theorem nodeRunTask_ensures {task : BackgroundTask} :
    (nodeRunTask task).Ensures admitted
      (fun
        | .inl (.insertMessage row) =>
            task = .persistMessage row.tenantId row.channelId row.bucketId row.message
        | .inl command => command = .systemTime
        | .inr (.startTask _) => False
        | _ => True)
      fun _ => True := by
  cases task with
  | updateReadPosition tenantId userId channelId messageId =>
      rw [nodeRunTask, runTask, through_bind]
      exact Ensures.seq ((through_perform _).symm ▸ Ensures.ask trivial) fun _ => trivial
  | persistMessage tenantId channelId bucket msg =>
      rw [nodeRunTask, runTask, through_bind, call, through_perform]
      refine Ensures.seq (ensures_inner ?_) fun written => ?_
      · exact Ensures.seq (Ensures.ask rfl) fun now => Ensures.ask rfl
      · split
        · rw [through_bind, call, through_perform]
          apply Ensures.seq (Ensures.ask trivial)
          intro _
          rw [publishCacheInvalidation, through_bind, call, through_perform]
          apply Ensures.seq (Ensures.ask trivial)
          intro running
          split
          · rw [through_bind, call, through_perform]
            exact Ensures.seq (Ensures.ask trivial) fun _ => trivial
          · trivial
        · trivial

end

end Mercury.Gateway
