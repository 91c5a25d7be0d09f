import Mercury.Gateway.ReadPositionRuns
import Mercury.Gateway.Sessions

/-!
# What a batch of deltas does to the stores

`apply_deltas` on the stores: each delta asks for one effect, on a message, a reaction or a read
position, and its write may fail, with or without taking effect. Its count is the length of the
batch.
-/

namespace Mercury.Gateway

open Foundations Foundations.Program Persistence

/-- What the stores hold of messages, reactions and read positions, but for the times of the
writes. -/
structure Content where
  messages : MessageKey → Option Message
  reactions : Bytes × Bytes × Bytes × Bytes × Bytes → Bool
  positions : Bytes × Bytes × Bytes → WithBot Bytes

def Stores.content (stores : Stores) : Content where
  messages key := (stores.messages.rows.find? fun row => row.key = key).map MessageRow.message
  reactions key := key ∈ stores.reactions.rows.map ReactionRow.key
  positions key := stores.position key.1 key.2.1 key.2.2

/-- What a delta asks for. -/
inductive Effect where
  | message (key : MessageKey) (msg : Message)
  | reaction (key : Bytes × Bytes × Bytes × Bytes × Bytes)
  | position (key : Bytes × Bytes × Bytes) (messageId : Bytes)
  | skipped
deriving DecidableEq

namespace Effect

def on (content : Content) : Effect → Content
  | .message key msg =>
      { content with messages := Function.update content.messages key (some msg) }
  | .reaction key =>
      { content with reactions := Function.update content.reactions key true }
  | .position key messageId =>
      { content with
        positions := Function.update content.positions key
          (max (content.positions key) messageId) }
  | .skipped => content

/-- The effect is there. -/
def Present (content : Content) : Effect → Prop
  | .message key msg => content.messages key = some msg
  | .reaction key => content.reactions key = true
  | .position key messageId => messageId ≤ content.positions key
  | .skipped => False

variable {content : Content} {effect : Effect}

/-- An effect that is there changes nothing. -/
theorem on_eq_self (present : effect.Present content) : effect.on content = content := by
  cases effect with
  | message key msg =>
      have same : Function.update content.messages key (some msg) = content.messages := by
        rw [← present]
        exact Function.update_eq_self _ _
      exact congrArg (Content.mk · _ _) same
  | reaction key =>
      have same : Function.update content.reactions key true = content.reactions := by
        rw [← present]
        exact Function.update_eq_self _ _
      exact congrArg (Content.mk _ · _) same
  | position key messageId =>
      have same : Function.update content.positions key
          (max (content.positions key) messageId) = content.positions := by
        rw [max_eq_left present]
        exact Function.update_eq_self _ _
      exact congrArg (Content.mk _ _ ·) same
  | skipped => rfl

theorem present_on (asked : effect ≠ .skipped) : effect.Present (effect.on content) := by
  cases effect with
  | message key msg => exact Function.update_self _ _ _
  | reaction key => exact Function.update_self _ _ _
  | position key messageId =>
      simp only [Present, on, Function.update_self]
      exact le_max_right _ _
  | skipped => exact absurd rfl asked

end Effect

/-- A message that is written to the bucket of its time, if that has one. -/
def appendEffect (tenantId channelId : Bytes) (msg : Message) : Effect :=
  match TimeBucket.compute msg.createdAt with
  | .error _ => .skipped
  | .ok bucket => .message ⟨tenantId, channelId, bucket, msg.messageId⟩ msg

/-- What the delta asks for when its turn comes. -/
def effectOf (tenantId channelId : Bytes) (moments : ℕ → Moment) : Sync.Delta → Effect
  | .messageAppend messageId senderId encryptedContent contentType hlcWall =>
      let named := messageId.bind Base.decode16
      let later := if named.isSome then moments else dropInputs 1 moments
      appendEffect tenantId channelId
        { messageId := named.getD (moments 0).id
          senderId := Sync.decodeHexOrDefault senderId
          encryptedContent := Sync.decodeB64OrRaw encryptedContent
          contentType := contentType.getD 0
          replyTo := none
          createdAt := hlcWall.getD (later 0).time }
  | .reactionAdd messageId userId emoji =>
      match Base.decode16 (messageId.getD []), Base.decode16 (userId.getD []), emoji with
      | some msgId, some userId, some emoji => .reaction (tenantId, channelId, msgId, userId, emoji)
      | _, _, _ => .skipped
  | .readPositionUpdate userId readChannelId lastReadMessageId =>
      match Base.decode16 (userId.getD []), Base.decode16 (readChannelId.getD []),
        Base.decode16 (lastReadMessageId.getD []) with
      | some userId, some readChannelId, some msgId =>
          .position (tenantId, userId, readChannelId) msgId
      | _, _, _ => .skipped
  | .unknown => .skipped

/-- The moment of the write of the delta. -/
def writeMoment (moments : ℕ → Moment) : Sync.Delta → Moment
  | .messageAppend messageId _ _ _ hlcWall =>
      let later := if (messageId.bind Base.decode16).isSome then moments else dropInputs 1 moments
      let last := if hlcWall.isSome then later else dropInputs 1 later
      -- `write` reads the clock first
      last 1
  | .reactionAdd .. => moments 0
  -- `update` reads the position first
  | .readPositionUpdate .. => moments 1
  | .unknown => moments 0

/-- The effect, as far as the write takes effect. -/
def Effect.onIf (content : Content) (written : Effect × Bool) : Content :=
  if written.2 then written.1.on content else content

/-- One delta on the stores. -/
def applySingle (tenantId channelId : Bytes) (delta : Sync.Delta) :
    Stored (Except Bytes Unit) :=
  (Sync.applySingleDelta tenantId channelId delta).through storedBackend

/-- `apply_deltas` on the stores. -/
def applyBatch (tenantId channelId : Bytes) (deltas : List Sync.Delta) :
    Stored (Except Unit ℕ) :=
  (Sync.applyDeltas tenantId channelId deltas).through storedBackend

/-- The effects that a batch asks for, each with whether its write takes effect. -/
def effectsOf (tenantId channelId : Bytes) :
    List Sync.Delta → Stores → (ℕ → Moment) → List (Effect × Bool)
  | [], _, _ => []
  | delta :: later, stores, moments =>
      let run := stores.run (applySingle tenantId channelId delta) moments
      (effectOf tenantId channelId moments delta, (writeMoment moments delta).fate.applies) ::
        effectsOf tenantId channelId later run.world (dropInputs run.made.length moments)

/-- The read of a position is answered. -/
def PositionAnswered : Performed commands Raise → Prop
  | ⟨.selectReadPosition .., answer⟩ => ∃ position, answer = .ok (.ok position)
  | _ => True

/-! ## The content after a write -/

section Writes

variable {stores : Stores}

theorem position_eq (key : Bytes × Bytes × Bytes) :
    stores.position key.1 key.2.1 key.2.2 = (stores.readPositions.rows.find? fun row =>
      row.key = key).map ReadPositionRow.lastReadMessageId := by
  refine congrArg (Option.map _) (congrArg (List.find? · _) (funext fun row => ?_))
  simp only [ReadPositionRow.key, Prod.ext_iff]

theorem content_upsert_message (row : MessageRow) :
    Stores.content { stores with messages := stores.messages.upsert row } =
      (Effect.message row.key row.message).on stores.content := by
  have messages : (Stores.content { stores with messages := stores.messages.upsert row }).messages =
      Function.update stores.content.messages row.key (some row.message) := by
    funext key
    simp only [Stores.content, KeyedTable.find?_key_upsert, Function.update_apply]
    split <;> rfl
  exact congrArg (Content.mk · _ _) messages

theorem content_upsert_reaction (row : ReactionRow) :
    Stores.content { stores with reactions := stores.reactions.upsert row } =
      (Effect.reaction row.key).on stores.content := by
  have reactions : (Stores.content
      { stores with reactions := stores.reactions.upsert row }).reactions =
        Function.update stores.content.reactions row.key true := by
    funext key
    simp only [Stores.content, KeyedTable.mem_keys_upsert, Function.update_apply]
    split
    · next same => exact decide_eq_true (Or.inl same)
    · next different => exact decide_eq_decide.mpr (or_iff_right different)
  exact congrArg (Content.mk _ · _) reactions

theorem content_upsert_position (row : ReadPositionRow)
    (forward : stores.position row.tenantId row.userId row.channelId ≤ row.lastReadMessageId) :
    Stores.content { stores with readPositions := stores.readPositions.upsert row } =
      (Effect.position row.key row.lastReadMessageId).on stores.content := by
  have positions : (Stores.content
      { stores with readPositions := stores.readPositions.upsert row }).positions =
        Function.update stores.content.positions row.key
          (max (stores.content.positions row.key) row.lastReadMessageId) := by
    have greatest : max (stores.content.positions row.key) (row.lastReadMessageId : WithBot Bytes) =
        row.lastReadMessageId := max_eq_right forward
    rw [greatest]
    funext key
    change Stores.position _ key.1 key.2.1 key.2.2 = _
    rw [position_eq, KeyedTable.find?_key_upsert, Function.update_apply]
    split
    · rfl
    · exact (position_eq key).symm
  exact congrArg (Content.mk _ _ ·) positions

end Writes

/-! ## One delta -/

section Single

variable {stores after : Stores} {moments : ℕ → Moment} {tenantId channelId : Bytes}
  {made : List (Performed commands Raise)} {result : Except Bytes Unit}

/-- A sequence that succeeds, succeeds in both parts. -/
theorem run_bind_ok {First Other : Type} {program : Stored First} {next : First → Stored Other}
    {final : Other} (ran : stores.run (program >>= next) moments = ⟨made, .ok final, after⟩) :
    ∃ early first middle later, stores.run program moments = ⟨early, .ok first, middle⟩ ∧
      middle.run (next first) (dropInputs early.length moments) = ⟨later, .ok final, after⟩ ∧
        made = early ++ later := by
  rcases firstEq : stores.run program moments with ⟨early, raised | first, middle⟩
  · rw [Stores.run_bind_error next firstEq] at ran
    cases ran
  · rw [Stores.run_bind next firstEq] at ran
    rcases laterEq : middle.run (next first) (dropInputs early.length moments) with
      ⟨later, outcome, last⟩
    rw [laterEq] at ran
    cases ran
    exact ⟨early, first, middle, later, rfl, laterEq, rfl⟩

theorem run_decode (messageId : Option Bytes) :
    ∃ made, stores.run ((Sync.decodeHexOrGenerate messageId).through storedBackend) moments =
        ⟨made, .ok ((messageId.bind Base.decode16).getD (moments 0).id), stores⟩ ∧
      dropInputs made.length moments =
        if (messageId.bind Base.decode16).isSome then moments else dropInputs 1 moments := by
  rcases messageId with _ | hex
  · exact ⟨_, rfl, rfl⟩
  rcases named : Base.decode16 hex with _ | msgId
  · simp only [Sync.decodeHexOrGenerate, Option.bind_some, named]
    exact ⟨_, rfl, rfl⟩
  · simp only [Sync.decodeHexOrGenerate, Option.bind_some, named]
    exact ⟨[], rfl, rfl⟩

theorem run_write {bucket : ℕ} {msg : Message}
    (ran : stores.run ((Messages.write tenantId channelId bucket msg).through storedBackend)
      moments = ⟨made, .ok result, after⟩) :
    after.content = Effect.onIf stores.content
      (.message ⟨tenantId, channelId, bucket, msg.messageId⟩ msg,
        (moments 1).fate.applies) := by
  have unfolded : (Messages.write tenantId channelId bucket msg).through storedBackend =
      send .time >>= fun now =>
        send (.insertMessage ⟨tenantId, channelId, bucket, msg, now⟩) := by
    rw [Messages.write, through_bind, ask, through_perform]
    refine congrArg (_ >>= ·) (funext fun now => ?_)
    rw [ask, through_perform]
    rfl
  rw [unfolded, Stores.run_send_bind _ rfl, Stores.run_send rfl] at ran
  have performed : (Stores.perform (moments 1) stores (.insertMessage
      ⟨tenantId, channelId, bucket, msg, (moments 0).time⟩)).2 = after :=
    congrArg Execution.world ran
  rw [← performed]
  simp only [Effect.onIf, Stores.perform]
  split
  · exact content_upsert_message _
  · rfl

/-- The part of a `MessageAppend` that follows its id and its time. -/
theorem run_append {msg : Message}
    (ran : stores.run ((Program.ofExcept (TimeBucket.compute msg.createdAt) >>= fun bucket =>
      Messages.write tenantId channelId bucket msg).through storedBackend) moments =
        ⟨made, .ok result, after⟩) :
    after.content = Effect.onIf stores.content
      (appendEffect tenantId channelId msg, (moments 1).fate.applies) := by
  unfold appendEffect
  rcases bucketEq : TimeBucket.compute msg.createdAt with raised | bucket
  · rw [bucketEq] at ran
    cases congrArg Execution.outcome ran
  · rw [bucketEq] at ran
    exact run_write ran

theorem content_messageAppend {messageId senderId encryptedContent : Option Bytes}
    {contentType hlcWall : Option ℕ}
    (ran : stores.run (applySingle tenantId channelId
      (.messageAppend messageId senderId encryptedContent contentType hlcWall)) moments =
        ⟨made, .ok result, after⟩) :
    after.content = Effect.onIf stores.content
      (effectOf tenantId channelId moments
        (.messageAppend messageId senderId encryptedContent contentType hlcWall),
        (writeMoment moments
          (.messageAppend messageId senderId encryptedContent contentType
            hlcWall)).fate.applies) := by
  rw [applySingle, Sync.applySingleDelta, through_bind] at ran
  rcases run_bind_ok ran with ⟨early, msgId, middle, later, decodes, rest, -⟩
  rcases @run_decode stores moments messageId with ⟨decoding, decoded, dropped⟩
  cases decoded.symm.trans decodes
  rw [dropped] at rest
  rcases hlcWall with _ | wall
  · dsimp only at rest
    rw [through_bind] at rest
    rcases run_bind_ok rest with ⟨reading, ts, middle, last, clock, writes, -⟩
    cases clock
    exact run_append writes
  · exact run_append rest

theorem perform_selectReadPosition {moment : Moment} {userId : Bytes} :
    stores.perform moment (.selectReadPosition tenantId userId channelId) =
      (moment.fate.answer (.selectReadPosition tenantId userId channelId)
        (.ok (.ok (stores.position tenantId userId channelId))), stores) := by
  simp only [Stores.perform, execute_select, ite_self]

/-- The write of a position that is not behind the stored one. -/
theorem run_insertReadPosition {userId messageId : Bytes}
    (forward : stores.position tenantId userId channelId ≤ messageId)
    (ran : stores.run (send (.insertReadPosition tenantId userId channelId messageId)) moments =
      ⟨made, .ok result, after⟩) :
    after.content = Effect.onIf stores.content
      (.position (tenantId, userId, channelId) messageId, (moments 0).fate.applies) := by
  have performed : (Stores.perform (moments 0) stores
      (.insertReadPosition tenantId userId channelId messageId)).2 = after :=
    congrArg Execution.world ((Stores.run_send rfl).symm.trans ran)
  rw [← performed]
  simp only [Effect.onIf, Stores.perform]
  split
  · exact content_upsert_position ⟨tenantId, userId, channelId, messageId, (moments 0).time⟩ forward
  · rfl

/-- An update of a read position whose read is answered. -/
theorem run_update {userId messageId : Bytes}
    (ran : stores.run (ReadPositions.update tenantId userId channelId messageId) moments =
      ⟨made, .ok result, after⟩) (reads : ∀ taken ∈ made, PositionAnswered taken) :
    after.content = Effect.onIf stores.content
      (.position (tenantId, userId, channelId) messageId, (moments 1).fate.applies) := by
  rw [update_eq] at ran
  simp only [Stores.run, Program.execute, perform_selectReadPosition, Execution.mk.injEq] at ran
  rcases ran with ⟨madeEq, outcomeEq, worldEq⟩
  rcases reads _ (madeEq ▸ List.mem_cons_self) with ⟨position, answered⟩
  have current : position = stores.position tenantId userId channelId := by
    cases fateEq : (moments 0).fate with
    | carried =>
        rw [fateEq] at answered
        exact (Except.ok.inj (Except.ok.inj answered)).symm
    | refused => simp [fateEq, Fate.answer, refusal] at answered
    | raised => simp [fateEq, Fate.answer] at answered
  rw [answered] at outcomeEq worldEq
  have later : stores.run (afterGet tenantId userId channelId messageId (.ok (.ok position)))
      (dropInputs 1 moments) = ⟨(stores.run (afterGet tenantId userId channelId messageId
        (.ok (.ok position))) (dropInputs 1 moments)).made, .ok result, after⟩ := by
    rw [← outcomeEq, ← worldEq]
    rfl
  rcases position with _ | position
  · exact run_insertReadPosition (current ▸ bot_le) later
  · simp only [afterGet] at later
    split at later
    · next ahead =>
        cases later
        have present : (Effect.position (tenantId, userId, channelId) messageId).Present
            stores.content := by
          change (messageId : WithBot Bytes) ≤ stores.position tenantId userId channelId
          rw [← current]
          exact WithBot.coe_le_coe.mpr ahead
        simp only [Effect.onIf, Effect.on_eq_self present, ite_self]
    · next behind =>
        refine run_insertReadPosition ?_ later
        rw [← current]
        exact WithBot.coe_le_coe.mpr (le_of_not_ge behind)

theorem run_skipped
    (ran : stores.run ((pure (.ok ()) : Backed (Except Bytes Unit)).through storedBackend) moments =
      ⟨made, .ok result, after⟩) (written : Bool) :
    after.content = Effect.onIf stores.content (.skipped, written) := by
  cases ran
  simp [Effect.onIf, Effect.on]

theorem content_reactionAdd {messageId userId emoji : Option Bytes}
    (ran : stores.run (applySingle tenantId channelId (.reactionAdd messageId userId emoji))
      moments = ⟨made, .ok result, after⟩) :
    after.content = Effect.onIf stores.content
      (effectOf tenantId channelId moments (.reactionAdd messageId userId emoji),
        (writeMoment moments (.reactionAdd messageId userId emoji)).fate.applies) := by
  rw [applySingle, Sync.applySingleDelta] at ran
  rcases messageEq : Base.decode16 (messageId.getD []) with _ | msgId
  · simp only [messageEq] at ran
    simpa [effectOf, messageEq] using run_skipped ran _
  rcases userEq : Base.decode16 (userId.getD []) with _ | user
  · simp only [messageEq, userEq] at ran
    simpa [effectOf, messageEq, userEq] using run_skipped ran _
  simp only [messageEq, userEq] at ran
  rw [through_bind, ask, through_perform] at ran
  rcases run_bind_ok ran with ⟨early, reply, middle, later, writes, ends, -⟩
  have performed : (Stores.perform (moments 0) stores
      (.insertReaction tenantId channelId msgId user emoji)).2 = middle :=
    congrArg Execution.world ((Stores.run_send rfl).symm.trans writes)
  cases ends
  rw [← performed]
  rcases emoji with _ | emoji
  · simp [effectOf, messageEq, userEq, Effect.onIf, Effect.on, Stores.perform, Stores.execute]
  · simp only [effectOf, messageEq, userEq, Effect.onIf, Stores.perform, writeMoment]
    split
    · exact content_upsert_reaction _
    · rfl

theorem content_readPositionUpdate {userId readChannelId messageId : Option Bytes}
    (ran : stores.run (applySingle tenantId channelId
      (.readPositionUpdate userId readChannelId messageId)) moments = ⟨made, .ok result, after⟩)
    (reads : ∀ taken ∈ made, PositionAnswered taken) :
    after.content = Effect.onIf stores.content
      (effectOf tenantId channelId moments (.readPositionUpdate userId readChannelId messageId),
        (writeMoment moments
          (.readPositionUpdate userId readChannelId messageId)).fate.applies) := by
  rw [applySingle, Sync.applySingleDelta] at ran
  rcases userEq : Base.decode16 (userId.getD []) with _ | user
  · simp only [userEq] at ran
    simpa [effectOf, userEq] using run_skipped ran _
  rcases channelEq : Base.decode16 (readChannelId.getD []) with _ | channel
  · simp only [userEq, channelEq] at ran
    simpa [effectOf, userEq, channelEq] using run_skipped ran _
  rcases messageEq : Base.decode16 (messageId.getD []) with _ | msgId
  · simp only [userEq, channelEq, messageEq] at ran
    simpa [effectOf, userEq, channelEq, messageEq] using run_skipped ran _
  simp only [userEq, channelEq, messageEq] at ran
  rw [ask, through_perform] at ran
  simp only [effectOf, userEq, channelEq, messageEq, writeMoment]
  exact run_update ran reads

/-- A delta that is applied has its effect, if its write takes effect. -/
theorem content_applySingle {delta : Sync.Delta}
    (ran : stores.run (applySingle tenantId channelId delta) moments = ⟨made, .ok result, after⟩)
    (reads : ∀ taken ∈ made, PositionAnswered taken) :
    after.content = Effect.onIf stores.content
      (effectOf tenantId channelId moments delta, (writeMoment moments delta).fate.applies) := by
  cases delta with
  | messageAppend => exact content_messageAppend ran
  | reactionAdd => exact content_reactionAdd ran
  | readPositionUpdate => exact content_readPositionUpdate ran reads
  | unknown => exact run_skipped ran _

end Single

/-! ## The batch -/

section Batch

variable {stores after : Stores} {moments : ℕ → Moment} {tenantId channelId : Bytes}
  {deltas : List Sync.Delta} {made : List (Performed commands Raise)} {count : ℕ}

theorem run_countApplied
    (ran : stores.run ((Sync.countApplied tenantId channelId deltas).through storedBackend)
      moments = ⟨made, .ok count, after⟩) (reads : ∀ taken ∈ made, PositionAnswered taken) :
    count = deltas.length ∧ after.content =
      (effectsOf tenantId channelId deltas stores moments).foldl Effect.onIf stores.content := by
  induction deltas generalizing stores moments made count with
  | nil =>
      cases ran
      exact ⟨rfl, rfl⟩
  | cons delta later ih =>
      rw [Sync.countApplied, through_bind] at ran
      rcases run_bind_ok ran with ⟨first, result, middle, rest, applies, continues, rfl⟩
      rw [through_bind] at continues
      rcases run_bind_ok continues with ⟨counting, others, last, ending, counts, ends, rfl⟩
      cases ends
      rw [List.append_nil] at reads
      rcases ih counts fun taken takenMem => reads taken (List.mem_append_right _ takenMem) with
        ⟨countEq, contentEq⟩
      have effect := content_applySingle applies fun taken takenMem =>
        reads taken (List.mem_append_left _ takenMem)
      have world : (stores.run (applySingle tenantId channelId delta) moments).world = middle :=
        congrArg Execution.world applies
      have length : (stores.run (applySingle tenantId channelId delta) moments).made = first :=
        congrArg Execution.made applies
      refine ⟨?_, ?_⟩
      · rw [countEq]
        rcases result with reason | done
        · rfl
        · rfl
      · rw [effectsOf, List.foldl_cons, world, length, ← effect]
        exact contentEq

/-- A batch that is accepted counts all its deltas, and has the effects of those whose writes
took effect. -/
theorem run_applyBatch
    (ran : stores.run (applyBatch tenantId channelId deltas) moments =
      ⟨made, .ok (.ok count), after⟩) (reads : ∀ taken ∈ made, PositionAnswered taken) :
    count = deltas.length ∧ after.content =
      (effectsOf tenantId channelId deltas stores moments).foldl Effect.onIf stores.content := by
  rw [applyBatch, Sync.applyDeltas] at ran
  split at ran
  · cases congrArg Execution.outcome ran
  · rw [through_bind] at ran
    rcases run_bind_ok ran with ⟨counting, others, last, ending, counts, ends, rfl⟩
    cases ends
    rw [List.append_nil] at reads
    exact run_countApplied counts reads

/-- Commands that are carried out are answered. -/
theorem positionAnswered_of_carried {Result : Type} {program : Stored Result}
    (carried : ∀ index, (moments index).fate = .carried) :
    ∀ taken ∈ (stores.run program moments).made, PositionAnswered taken := by
  intro taken takenMem
  rcases answer_of_mem_execute (fun moment : Moment => moment.fate = .carried) carried takenMem with
    ⟨moment, source, isCarried, answered⟩
  rcases taken with ⟨command, answer⟩
  cases command with
  | selectReadPosition tid uid cid =>
      refine ⟨source.position tid uid cid, answered.trans ?_⟩
      rw [perform_selectReadPosition, isCarried]
      rfl
  | _ => trivial

end Batch

end Mercury.Gateway
