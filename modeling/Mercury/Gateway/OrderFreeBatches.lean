import Mercury.Foundations.Replay
import Mercury.Gateway.AcceptedBatches

/-!
# Deltas in another order, or again

Batches whose writes all succeed. Reactions are a set and read positions a maximum, so their
deltas can be applied in any order and any number of times. A `MessageAppend` overwrites the
message of its key, so two of them must agree.
-/

namespace Mercury.Gateway

open Foundations Foundations.Program Persistence

/-- The ids and the content of a delta can be read, and the time of a message has a bucket. -/
def WellFormed : Sync.Delta → Prop
  | .messageAppend messageId senderId encryptedContent _ hlcWall =>
      (messageId.bind Base.decode16).isSome ∧ (senderId.bind Base.decode16).isSome ∧
        (encryptedContent.bind Base.decode64).isSome ∧
          ∃ wall bucket, hlcWall = some wall ∧ TimeBucket.compute wall = .ok bucket
  | .reactionAdd messageId userId _ =>
      (messageId.bind Base.decode16).isSome ∧ (userId.bind Base.decode16).isSome
  | .readPositionUpdate userId channelId lastReadMessageId =>
      (userId.bind Base.decode16).isSome ∧ (channelId.bind Base.decode16).isSome ∧
        (lastReadMessageId.bind Base.decode16).isSome
  | .unknown => True

/-- Every command is carried out. -/
def AllCarried (moments : ℕ → Moment) : Prop :=
  ∀ index, (moments index).fate = .carried

/-- What the delta asks for, whenever its turn comes. -/
def asked (tenantId channelId : Bytes) (delta : Sync.Delta) : Effect :=
  effectOf tenantId channelId (fun _ => carriedOut) delta

/-! ## Effects that commute -/

namespace Effect

variable {content : Content} {first second : Effect}

theorem on_on_comm (agree : ¬first.Clashes second) :
    second.on (first.on content) = first.on (second.on content) := by
  cases first with
  | message key msg =>
      cases second with
      | message otherKey otherMsg =>
          by_cases same : key = otherKey
          · have msgEq : msg = otherMsg := by
              by_contra apart
              exact agree ⟨same, apart⟩
            rw [same, msgEq]
          · exact congrArg (Content.mk · _ _) (Function.update_comm same _ _ _)
      | _ => rfl
  | reaction key =>
      cases second with
      | reaction otherKey =>
          by_cases same : key = otherKey
          · rw [same]
          · exact congrArg (Content.mk _ · _) (Function.update_comm same _ _ _)
      | _ => rfl
  | position key messageId =>
      cases second with
      | position otherKey otherId =>
          by_cases same : key = otherKey
          · subst same
            simp only [on, Function.update_self, Function.update_idem]
            rw [max_right_comm]
          · simp only [on, Function.update_of_ne same, Function.update_of_ne (Ne.symm same)]
            exact congrArg (Content.mk _ _ ·) (Function.update_comm same _ _ _)
      | _ => rfl
  | skipped => rfl

theorem on_on_self : first.on (first.on content) = first.on content := by
  by_cases asked : first = .skipped
  · rw [asked]
    rfl
  · exact on_eq_self (present_on asked)

theorem asked_of_clashes (clash : first.Clashes second) :
    first ≠ .skipped ∧ second ≠ .skipped := by
  constructor
  · rintro rfl
    exact clash
  · rintro rfl
    cases first <;> exact clash

end Effect

/-! ## Batches that are carried out -/

section Batch

variable {tenantId channelId : Bytes} {stores : Stores} {moments : ℕ → Moment}
  {deltas : List Sync.Delta}

theorem effectOf_eq_asked {delta : Sync.Delta} (wellFormed : WellFormed delta) :
    effectOf tenantId channelId moments delta = asked tenantId channelId delta := by
  cases delta with
  | messageAppend messageId senderId encryptedContent contentType hlcWall =>
      rcases wellFormed with ⟨named, -, -, wall, bucket, rfl, -⟩
      rcases Option.isSome_iff_exists.mp named with ⟨msgId, named⟩
      simp only [asked, effectOf, named, Option.getD_some]
  | _ => rfl

theorem AllCarried.drop (carried : AllCarried moments) (count : ℕ) :
    AllCarried (dropInputs count moments) :=
  fun index => carried (index + count)

theorem AllCarried.applies_writeMoment (carried : AllCarried moments) (delta : Sync.Delta) :
    (writeMoment moments delta).fate.applies = true := by
  have applies : ∀ {source : ℕ → Moment}, AllCarried source → ∀ index,
      (source index).fate.applies = true := fun isCarried index => by
    rw [isCarried index]
    rfl
  cases delta with
  | messageAppend messageId senderId encryptedContent contentType hlcWall =>
      simp only [writeMoment]
      split
      · split
        · exact applies carried 1
        · exact applies (carried.drop 1) 1
      · split
        · exact applies (carried.drop 1) 1
        · exact applies ((carried.drop 1).drop 1) 1
  | reactionAdd => exact applies carried 0
  | readPositionUpdate => exact applies carried 1
  | unknown => exact applies carried 0

theorem effectsOf_carried (wellFormed : ∀ delta ∈ deltas, WellFormed delta)
    (carried : AllCarried moments) :
    effectsOf tenantId channelId deltas stores moments =
      deltas.map fun delta => (asked tenantId channelId delta, true) := by
  induction deltas generalizing stores moments with
  | nil => rfl
  | cons delta later ih =>
      rw [effectsOf, List.map_cons, effectOf_eq_asked (wellFormed delta List.mem_cons_self),
        carried.applies_writeMoment delta]
      exact congrArg (_ :: ·) (ih (fun other otherMem => wellFormed other
        (List.mem_cons_of_mem _ otherMem)) (carried.drop _))

/-- The calls of `apply_deltas`. -/
def AppliesDeltas : Backend.Call → Prop
  | .systemTime | .generateMessageId | .insertMessage _ | .insertReaction ..
  | .updateReadPosition .. => True
  | _ => False

theorem completes_update {userId messageId : Bytes} :
    (ReadPositions.update tenantId userId channelId messageId).Completes
      fun command => ¬MayRaise command := by
  have writes : (send (.insertReadPosition tenantId userId channelId messageId)).Completes
      fun command => ¬MayRaise command := Completes.perform id
  refine Completes.bind (Completes.bind (Completes.perform id) fun reply => ?_) fun current => ?_
  · rcases reply with reason | position
    · exact Completes.pure _
    · exact Completes.pure _
  · rcases current with _ | current
    · exact writes
    · dsimp only
      split
      · exact Completes.pure _
      · exact writes

theorem completes_storedBackend {asked : Backend.Call} (applies : AppliesDeltas asked) :
    (storedBackend asked).Completes fun command => ¬MayRaise command := by
  cases asked with
  | systemTime | generateMessageId | insertMessage | insertReaction => exact Completes.perform id
  | updateReadPosition => exact completes_update
  | _ => exact applies.elim

theorem completes_applySingleDelta {delta : Sync.Delta} (wellFormed : WellFormed delta) :
    (Sync.applySingleDelta tenantId channelId delta).Completes AppliesDeltas := by
  cases delta with
  | messageAppend messageId senderId encryptedContent contentType hlcWall =>
      rcases wellFormed with ⟨named, -, -, wall, bucket, rfl, bucketEq⟩
      refine Completes.bind ?_ fun msgId => ?_
      · rcases messageId with _ | hex
        · exact Completes.perform trivial
        · rw [Sync.decodeHexOrGenerate]
          split
          · exact Completes.pure _
          · exact Completes.perform trivial
      · change ((Program.ofExcept (TimeBucket.compute wall) : Backed ℕ) >>= _).Completes
          AppliesDeltas
        rw [bucketEq]
        exact Completes.bind (Completes.pure bucket) fun known =>
          Completes.bind (Completes.perform trivial) fun now => Completes.perform trivial
  | reactionAdd messageId userId emoji =>
      rw [Sync.applySingleDelta]
      split
      · exact Completes.bind (Completes.perform trivial) fun _ => Completes.pure _
      · exact Completes.pure _
  | readPositionUpdate userId readChannelId messageId =>
      rw [Sync.applySingleDelta]
      split
      · exact Completes.perform trivial
      · exact Completes.pure _
  | unknown => exact Completes.pure _

theorem completes_countApplied (wellFormed : ∀ delta ∈ deltas, WellFormed delta) :
    (Sync.countApplied tenantId channelId deltas).Completes AppliesDeltas := by
  induction deltas with
  | nil => exact Completes.pure _
  | cons delta later ih =>
      refine Completes.bind (completes_applySingleDelta (wellFormed delta List.mem_cons_self))
        fun result => Completes.bind ?_ fun count => Completes.pure _
      exact ih fun other otherMem => wellFormed other (List.mem_cons_of_mem _ otherMem)

/-- A batch whose commands are carried out is accepted. -/
theorem exists_accepted (few : deltas.length ≤ 1000)
    (wellFormed : ∀ delta ∈ deltas, WellFormed delta)
    (carried : AllCarried moments) :
    ∃ count, (stores.run (applyBatch tenantId channelId deltas) moments).outcome =
      .ok (.ok count) := by
  have counts : ((Sync.countApplied tenantId channelId deltas).through storedBackend).Completes
      fun command => ¬MayRaise command :=
    (completes_countApplied wellFormed).through fun _ => completes_storedBackend
  have accepts : (applyBatch tenantId channelId deltas).Ensures
      (fun taken => ¬MayRaise taken.call → ∃ reply, taken.answer = .ok reply)
      (fun command => ¬MayRaise command) fun outcome => ∃ count, outcome = .ok (.ok count) := by
    rw [applyBatch, Sync.applyDeltas, if_neg (by omega), through_bind]
    refine Ensures.bind.mpr (Ensures.post_mono counts ?_)
    rintro _ ⟨count, rfl⟩
    exact ⟨count, rfl⟩
  exact (@Stores.run_ensures stores moments (Except Unit ℕ) (fun moment => moment.fate = .carried)
    (fun _ => True) (fun _ => True) _ _ _ _ accepts
    (fun isCarried _ _ => Stores.perform_replies isCarried) (fun _ _ _ _ => trivial) carried
    trivial fun _ _ => trivial).1

/-- A batch whose commands are carried out has all its effects. -/
theorem content_carried (few : deltas.length ≤ 1000)
    (wellFormed : ∀ delta ∈ deltas, WellFormed delta)
    (carried : AllCarried moments) :
    (stores.run (applyBatch tenantId channelId deltas) moments).world.content =
      (deltas.map (asked tenantId channelId)).foldl (fun content effect => effect.on content)
        stores.content := by
  rcases @exists_accepted tenantId channelId stores moments deltas few wellFormed carried with
    ⟨count, accepted⟩
  have ran : stores.run (applyBatch tenantId channelId deltas) moments =
      ⟨(stores.run (applyBatch tenantId channelId deltas) moments).made, .ok (.ok count),
        (stores.run (applyBatch tenantId channelId deltas) moments).world⟩ := by
    rw [← accepted]
  rw [(run_applyBatch ran (positionAnswered_of_carried carried)).2,
    effectsOf_carried wellFormed carried, List.foldl_map, List.foldl_map]
  rfl

end Batch

/-! ## Permutations and repetitions -/

/-- The deltas leave the same content in every order, and when they are applied again. -/
structure OrderFree (tenantId channelId : Bytes) (stores : Stores) (deltas : List Sync.Delta) :
    Prop where
  permuted : ∀ other : List Sync.Delta, other.Perm deltas → ∀ moments otherMoments : ℕ → Moment,
    AllCarried moments → AllCarried otherMoments →
      (stores.run (applyBatch tenantId channelId other) otherMoments).world.content =
        (stores.run (applyBatch tenantId channelId deltas) moments).world.content
  repeated : ∀ moments again : ℕ → Moment, AllCarried moments → AllCarried again →
    ((stores.run (applyBatch tenantId channelId deltas) moments).world.run
        (applyBatch tenantId channelId deltas) again).world.content =
      (stores.run (applyBatch tenantId channelId deltas) moments).world.content

/-- A delta that is applied last has its effect. -/
theorem present_of_last {tenantId channelId : Bytes} {stores : Stores} {deltas : List Sync.Delta}
    (few : deltas.length ≤ 1000) (wellFormed : ∀ delta ∈ deltas, WellFormed delta)
    (orderFree : OrderFree tenantId channelId stores deltas) {delta : Sync.Delta}
    (deltaMem : delta ∈ deltas) (notSkipped : asked tenantId channelId delta ≠ .skipped) :
    (asked tenantId channelId delta).Present
      (stores.run (applyBatch tenantId channelId deltas) fun _ => carriedOut).world.content := by
  have last : (deltas.erase delta ++ [delta]).Perm deltas :=
    (List.perm_append_singleton delta _).trans (List.perm_cons_erase deltaMem).symm
  rw [← orderFree.permuted _ last (fun _ => carriedOut) (fun _ => carriedOut) (fun _ => rfl)
    fun _ => rfl, content_carried (last.length_eq.trans_le few)
    (fun other otherMem => wellFormed other (last.mem_iff.mp otherMem)) fun _ => rfl,
    List.map_append, List.foldl_append]
  exact Effect.present_on notSkipped

/-- A batch whose writes succeed can be reordered and repeated exactly when no two messages of it
have one key. -/
theorem orderFree_iff (tenantId channelId : Bytes) (stores : Stores) (deltas : List Sync.Delta)
    (few : deltas.length ≤ 1000) (wellFormed : ∀ delta ∈ deltas, WellFormed delta) :
    OrderFree tenantId channelId stores deltas ↔
      ∀ left ∈ deltas, ∀ right ∈ deltas,
        ¬(asked tenantId channelId left).Clashes (asked tenantId channelId right) := by
  constructor
  · intro orderFree left leftMem right rightMem clash
    have skipped := Effect.asked_of_clashes clash
    exact Effect.not_clashes_of_present
      (present_of_last few wellFormed orderFree leftMem skipped.1)
      (present_of_last few wellFormed orderFree rightMem skipped.2) clash
  · intro agree
    have commute : ∀ first ∈ deltas.map (asked tenantId channelId),
        ∀ second ∈ deltas.map (asked tenantId channelId), ∀ content : Content,
          second.on (first.on content) = first.on (second.on content) := by
      intro first firstMem second secondMem content
      rcases List.mem_map.mp firstMem with ⟨left, leftMem, rfl⟩
      rcases List.mem_map.mp secondMem with ⟨right, rightMem, rfl⟩
      exact Effect.on_on_comm (agree left leftMem right rightMem)
    constructor
    · intro other perm moments otherMoments carried otherCarried
      rw [content_carried few wellFormed carried, content_carried (perm.length_eq.trans_le few)
        (fun delta deltaMem => wellFormed delta (perm.mem_iff.mp deltaMem)) otherCarried]
      exact ((perm.map _).symm.foldl_eq' commute stores.content).symm
    · intro moments again carried againCarried
      rw [content_carried few wellFormed againCarried, content_carried few wellFormed carried]
      exact foldl_foldl commute (fun _ _ _ => Effect.on_on_self) stores.content

theorem wellFormed_sample (content : Byte) : WellFormed (sampleDelta content) := by
  refine ⟨?_, ?_, ?_, 500, 0, rfl, rfl⟩
  · simp [Base.decode16_encode16]
  · simp [Base.decode16_encode16]
  · simp [Base.decode64_encode64]

theorem wellFormed_mixedBatch : ∀ delta ∈ mixedBatch, WellFormed delta := by
  simp only [mixedBatch, List.forall_mem_cons]
  exact ⟨wellFormed_sample 41, wellFormed_sample 41, ⟨rfl, rfl⟩, ⟨rfl, rfl, rfl, 500, 0, rfl, rfl⟩,
    ⟨rfl, rfl, rfl⟩, ⟨rfl, rfl, rfl⟩, nofun⟩

theorem asked_mixedBatch :
    mixedBatch.map (asked (List.replicate 16 1) (List.replicate 16 7)) = mixedEffects :=
  rfl

/-- Two messages, one of them twice, a reaction, and two positions of one user. -/
theorem orderFree_mixed :
    mixedBatch.map (asked (List.replicate 16 1) (List.replicate 16 7)) = mixedEffects ∧
      OrderFree (List.replicate 16 1) (List.replicate 16 7) (onlyCursors .empty) mixedBatch := by
  have agree : ∀ first ∈ mixedEffects, ∀ second ∈ mixedEffects, ¬first.Clashes second := by
    decide
  refine ⟨asked_mixedBatch, (orderFree_iff _ _ _ _ (by decide) wellFormed_mixedBatch).mpr ?_⟩
  intro left leftMem right rightMem
  rw [← asked_mixedBatch] at agree
  exact agree _ (List.mem_map_of_mem leftMem) _ (List.mem_map_of_mem rightMem)

/-- Two messages with one id cannot be reordered. -/
theorem appends_not_order_free :
    ¬∀ (tenantId channelId : Bytes) (stores : Stores) (deltas : List Sync.Delta),
      deltas.length ≤ 1000 → (∀ delta ∈ deltas, WellFormed delta) →
        OrderFree tenantId channelId stores deltas := by
  intro allOrderFree
  have wellFormed : ∀ delta ∈ [sampleDelta 41, sampleDelta 42], WellFormed delta := by
    simpa using ⟨wellFormed_sample 41, wellFormed_sample 42⟩
  have orderFree := allOrderFree (List.replicate 16 1) (List.replicate 16 7) (onlyCursors .empty)
    [sampleDelta 41, sampleDelta 42] (by simp) wellFormed
  have clash : (asked (List.replicate 16 1) (List.replicate 16 7) (sampleDelta 41)).Clashes
      (asked (List.replicate 16 1) (List.replicate 16 7) (sampleDelta 42)) := by
    rw [asked, asked, effectOf_sample, effectOf_sample]
    exact ⟨rfl, by decide⟩
  have skipped := Effect.asked_of_clashes clash
  exact Effect.not_clashes_of_present
    (present_of_last (by simp) wellFormed orderFree (by simp) skipped.1)
    (present_of_last (by simp) wellFormed orderFree (by simp) skipped.2) clash

end Mercury.Gateway
