import Mercury.Gateway.BatchEffects

/-!
# What an accepted batch has stored

`apply_deltas` counts every delta, for `:ok` and `{:error, _}` are both truthy. Its count is that
of the deltas whose effects are there at the end exactly when none of them is lost: each was
there before or written by the batch, and no two messages of it clash.
-/

namespace Mercury.Gateway

open Foundations Foundations.Program Persistence

namespace Effect

/-- Where the first effect is there, so is the second. -/
def Gives : Effect → Effect → Prop
  | .message key msg, other => other = .message key msg
  | .reaction key, other => other = .reaction key
  | .position key messageId, .position otherKey otherId =>
      otherKey = key ∧ otherId ≤ messageId
  | _, _ => False

/-- Two messages of one key. -/
def Clashes : Effect → Effect → Prop
  | .message key msg, .message otherKey otherMsg => key = otherKey ∧ msg ≠ otherMsg
  | _, _ => False

instance (first second : Effect) : Decidable (first.Gives second) :=
  match first, second with
  | .message key msg, other => inferInstanceAs (Decidable (other = .message key msg))
  | .reaction key, other => inferInstanceAs (Decidable (other = .reaction key))
  | .position key messageId, .position otherKey otherId =>
      inferInstanceAs (Decidable (otherKey = key ∧ otherId ≤ messageId))
  | .position .., .message .. | .position .., .reaction .. | .position .., .skipped
  | .skipped, _ => isFalse id

instance (first second : Effect) : Decidable (first.Clashes second) :=
  match first, second with
  | .message key msg, .message otherKey otherMsg =>
      inferInstanceAs (Decidable (key = otherKey ∧ msg ≠ otherMsg))
  | .message .., .reaction .. | .message .., .position .. | .message .., .skipped
  | .reaction _, _ | .position .., _ | .skipped, _ => isFalse id

instance (content : Content) (effect : Effect) : Decidable (effect.Present content) :=
  match effect with
  | .message key msg => inferInstanceAs (Decidable (content.messages key = some msg))
  | .reaction key => inferInstanceAs (Decidable (content.reactions key = true))
  | .position key messageId =>
      inferInstanceAs (Decidable ((messageId : WithBot Bytes) ≤ content.positions key))
  | .skipped => isFalse id

variable {content : Content} {first second : Effect}

theorem present_on_of_gives (gives : first.Gives second) : second.Present (first.on content) := by
  cases first with
  | message key msg =>
      obtain rfl : second = .message key msg := gives
      exact present_on (by simp)
  | reaction key =>
      obtain rfl : second = .reaction key := gives
      exact present_on (by simp)
  | position key messageId =>
      cases second with
      | position otherKey otherId =>
          rcases gives with ⟨rfl, before⟩
          have reached := @present_on content (.position otherKey messageId) (by simp)
          exact le_trans (WithBot.coe_le_coe.mpr before) reached
      | _ => exact gives.elim
  | skipped => exact gives.elim

/-- What is there stays there, unless another message of its key is written. -/
theorem present_on_of_present (present : second.Present content)
    (agree : ¬first.Clashes second) : second.Present (first.on content) := by
  cases first with
  | message key msg =>
      cases second with
      | message otherKey otherMsg =>
          by_cases same : otherKey = key
          · subst same
            have msgEq : msg = otherMsg := by
              by_contra apart
              exact agree ⟨rfl, apart⟩
            exact msgEq ▸ present_on (by simp)
          · exact (Function.update_of_ne same _ _).trans present
      | _ => exact present
  | reaction key =>
      cases second with
      | reaction otherKey =>
          by_cases same : otherKey = key
          · exact same ▸ present_on (by simp)
          · exact (Function.update_of_ne same _ _).trans present
      | _ => exact present
  | position key messageId =>
      cases second with
      | position otherKey otherId =>
          apply le_trans present
          simp only [on, Function.update_apply]
          split
          · next same => exact same ▸ le_max_left _ _
          · exact le_rfl
      | _ => exact present
  | skipped => exact present

/-- What is there after a write was there before, or was written. -/
theorem present_of_on (present : second.Present (first.on content)) :
    second.Present content ∨ first.Gives second := by
  cases first with
  | message key msg =>
      cases second with
      | message otherKey otherMsg =>
          by_cases same : otherKey = key
          · subst same
            have msgEq : Function.update content.messages otherKey (some msg) otherKey =
              some otherMsg := present
            rw [Function.update_self] at msgEq
            cases msgEq
            exact Or.inr rfl
          · exact Or.inl ((Function.update_of_ne same _ _).symm.trans present)
      | _ => exact Or.inl present
  | reaction key =>
      cases second with
      | reaction otherKey =>
          by_cases same : otherKey = key
          · exact Or.inr (congrArg Effect.reaction same)
          · exact Or.inl ((Function.update_of_ne same _ _).symm.trans present)
      | _ => exact Or.inl present
  | position key messageId =>
      cases second with
      | position otherKey otherId =>
          by_cases same : otherKey = key
          · subst same
            simp only [Present, on, Function.update_self, le_max_iff] at present
            exact present.imp id fun before => ⟨rfl, WithBot.coe_le_coe.mp before⟩
          · simp only [Present, on, Function.update_of_ne same] at present
            exact Or.inl present
      | _ => exact Or.inl present
  | skipped => exact Or.inl present

theorem not_clashes_of_present (firstPresent : first.Present content)
    (secondPresent : second.Present content) : ¬first.Clashes second := by
  intro clash
  cases first with
  | message key msg =>
      cases second with
      | message otherKey otherMsg =>
          rcases clash with ⟨rfl, apart⟩
          exact apart (Option.some.inj (firstPresent.symm.trans secondPresent))
      | _ => exact clash
  | _ => exact clash

end Effect

/-! ## The effects of a batch -/

/-- Each effect was there before or is written by the batch, and no two messages clash. -/
structure AllStored (content : Content) (effects : List (Effect × Bool)) : Prop where
  written : ∀ asked ∈ effects, asked.1.Present content ∨
    ∃ other ∈ effects, other.2 = true ∧ other.1.Gives asked.1
  agree : ∀ first ∈ effects, ∀ second ∈ effects, ¬first.1.Clashes second.1

section Fold

variable {content : Content} {effects : List (Effect × Bool)} {effect : Effect}

theorem present_foldl (agree : ∀ asked ∈ effects, ¬asked.1.Clashes effect)
    (stored : effect.Present content ∨
      ∃ other ∈ effects, other.2 = true ∧ other.1.Gives effect) :
    effect.Present (effects.foldl Effect.onIf content) := by
  induction effects generalizing content with
  | nil =>
      rcases stored with present | ⟨other, otherMem, -⟩
      · exact present
      · cases otherMem
  | cons first later ih =>
      refine ih (fun asked askedMem => agree asked (List.mem_cons_of_mem _ askedMem)) ?_
      rcases stored with present | ⟨other, otherMem, applied, gives⟩
      · left
        unfold Effect.onIf
        split
        · exact Effect.present_on_of_present present (agree first List.mem_cons_self)
        · exact present
      · rcases List.mem_cons.mp otherMem with rfl | inLater
        · left
          rw [Effect.onIf, if_pos applied]
          exact Effect.present_on_of_gives gives
        · exact Or.inr ⟨other, inLater, applied, gives⟩

theorem stored_of_present_foldl (present : effect.Present (effects.foldl Effect.onIf content)) :
    effect.Present content ∨ ∃ other ∈ effects, other.2 = true ∧ other.1.Gives effect := by
  induction effects generalizing content with
  | nil => exact Or.inl present
  | cons first later ih =>
      rcases ih present with present | ⟨other, otherMem, stored⟩
      · unfold Effect.onIf at present
        split at present
        · next applied =>
            rcases Effect.present_of_on present with before | gives
            · exact Or.inl before
            · exact Or.inr ⟨first, List.mem_cons_self, applied, gives⟩
        · exact Or.inl present
      · exact Or.inr ⟨other, List.mem_cons_of_mem _ otherMem, stored⟩

/-- All effects of a batch are there at its end exactly when none is lost. -/
theorem forall_present_foldl_iff :
    (∀ asked ∈ effects, asked.1.Present (effects.foldl Effect.onIf content)) ↔
      AllStored content effects := by
  constructor
  · intro present
    refine ⟨fun asked askedMem => stored_of_present_foldl (present asked askedMem), ?_⟩
    intro first firstMem second secondMem
    exact Effect.not_clashes_of_present (present first firstMem) (present second secondMem)
  · intro stored asked askedMem
    exact present_foldl (fun other otherMem => stored.agree other otherMem asked askedMem)
      (stored.written asked askedMem)

end Fold

/-- The count that a batch is answered with is that of its deltas whose effects are there when it
returns, and every delta of an accepted batch is. -/
def CountsStored (tenantId channelId : Bytes) (stores : Stores) (deltas : List Sync.Delta)
    (moments : ℕ → Moment) (count : ℕ) : Prop :=
  let after := (stores.run (applyBatch tenantId channelId deltas) moments).world.content
  let effects := effectsOf tenantId channelId deltas stores moments
  count = effects.countP (fun asked => asked.1.Present after) ∧
    ∀ asked ∈ effects, asked.1.Present after

theorem length_effectsOf {tenantId channelId : Bytes} {deltas : List Sync.Delta} {stores : Stores}
    {moments : ℕ → Moment} :
    (effectsOf tenantId channelId deltas stores moments).length = deltas.length := by
  induction deltas generalizing stores moments with
  | nil => rfl
  | cons delta later ih => exact congrArg (· + 1) ih

/-- An accepted batch counts what it has stored exactly when every delta of it asks for something
that was there before or that it writes, and no two messages of it have one key. -/
theorem countsStored_iff (tenantId channelId : Bytes) (stores : Stores)
    (deltas : List Sync.Delta) (moments : ℕ → Moment) (count : ℕ)
    (returned : (stores.run (applyBatch tenantId channelId deltas) moments).outcome =
      .ok (.ok count))
    (reads : ∀ taken ∈ (stores.run (applyBatch tenantId channelId deltas) moments).made,
      PositionAnswered taken) :
    CountsStored tenantId channelId stores deltas moments count ↔
      AllStored stores.content (effectsOf tenantId channelId deltas stores moments) := by
  have ran : stores.run (applyBatch tenantId channelId deltas) moments =
      ⟨(stores.run (applyBatch tenantId channelId deltas) moments).made, .ok (.ok count),
        (stores.run (applyBatch tenantId channelId deltas) moments).world⟩ := by
    rw [← returned]
  rcases run_applyBatch ran reads with ⟨countEq, contentEq⟩
  rw [CountsStored, contentEq, ← forall_present_foldl_iff, countEq, ← length_effectsOf]
  apply and_iff_right_of_imp
  intro present
  exact (List.countP_eq_length.mpr fun asked askedMem =>
    decide_eq_true (present asked askedMem)).symm

/-- A message with id 4. -/
def sampleDelta (content : Byte) : Sync.Delta :=
  .messageAppend (some (Base.encode16 (List.replicate 16 4)))
    (some (Base.encode16 (List.replicate 16 5))) (some (Base.encode64 [content])) (some 0)
    (some 500)

def sampleMessage (content : Byte) : Message where
  messageId := List.replicate 16 4
  senderId := List.replicate 16 5
  encryptedContent := [content]
  contentType := 0
  replyTo := none
  createdAt := 500

theorem effectOf_sample (tenantId channelId : Bytes) (moments : ℕ → Moment) (content : Byte) :
    effectOf tenantId channelId moments (sampleDelta content) =
      .message ⟨tenantId, channelId, 0, List.replicate 16 4⟩ (sampleMessage content) := by
  have bucket : TimeBucket.compute 500 = .ok 0 := rfl
  simp only [effectOf, sampleDelta, Option.bind_some, Base.decode16_encode16, Option.getD_some,
    Sync.decodeHexOrDefault, Sync.decodeB64OrRaw, Base.decode64_encode64, appendEffect, bucket]
  rfl

/-- A message, the same message again, a reaction to it, another message, and two positions of
its sender. -/
def mixedBatch : List Sync.Delta :=
  [sampleDelta 41, sampleDelta 41,
    .reactionAdd (some (Base.encode16 (List.replicate 16 4)))
      (some (Base.encode16 (List.replicate 16 5))) (some [9]),
    .messageAppend (some (Base.encode16 (List.replicate 16 6)))
      (some (Base.encode16 (List.replicate 16 5))) (some (Base.encode64 [42])) (some 0) (some 500),
    .readPositionUpdate (some (Base.encode16 (List.replicate 16 5)))
      (some (Base.encode16 (List.replicate 16 7))) (some (Base.encode16 (List.replicate 16 6))),
    .readPositionUpdate (some (Base.encode16 (List.replicate 16 5)))
      (some (Base.encode16 (List.replicate 16 7))) (some (Base.encode16 (List.replicate 16 4)))]

/-- What the deltas of the batch ask for. -/
def mixedEffects : List Effect :=
  [.message ⟨List.replicate 16 1, List.replicate 16 7, 0, List.replicate 16 4⟩ (sampleMessage 41),
    .message ⟨List.replicate 16 1, List.replicate 16 7, 0, List.replicate 16 4⟩
      (sampleMessage 41),
    .reaction (List.replicate 16 1, List.replicate 16 7, List.replicate 16 4, List.replicate 16 5,
      [9]),
    .message ⟨List.replicate 16 1, List.replicate 16 7, 0, List.replicate 16 6⟩
      { sampleMessage 42 with messageId := List.replicate 16 6 },
    .position (List.replicate 16 1, List.replicate 16 5, List.replicate 16 7)
      (List.replicate 16 6),
    .position (List.replicate 16 1, List.replicate 16 5, List.replicate 16 7)
      (List.replicate 16 4)]

/-- A command that the database refuses. -/
def refused : Moment :=
  { carriedOut with fate := .refused [] false }

/-- Only the first write is refused. -/
def refusedFirst (index : ℕ) : Moment :=
  if index = 1 then refused else carriedOut

/-- The first write of the message is refused, its repetition is not. -/
theorem countsStored_repeated :
    ((onlyCursors .empty).run (applyBatch (List.replicate 16 1) (List.replicate 16 7) mixedBatch)
        refusedFirst).outcome = .ok (.ok 6) ∧
      effectsOf (List.replicate 16 1) (List.replicate 16 7) mixedBatch (onlyCursors .empty)
        refusedFirst = mixedEffects.zip [false, true, true, true, true, true] ∧
      CountsStored (List.replicate 16 1) (List.replicate 16 7) (onlyCursors .empty) mixedBatch
        refusedFirst 6 := by
  have effects : effectsOf (List.replicate 16 1) (List.replicate 16 7) mixedBatch
      (onlyCursors .empty) refusedFirst =
        mixedEffects.zip [false, true, true, true, true, true] := rfl
  refine ⟨rfl, effects, (countsStored_iff _ _ _ _ _ _ rfl ?_).mpr ?_⟩
  · rintro ⟨command, answer⟩ takenMem
    repeat
      rcases List.mem_cons.mp takenMem with same | takenMem
      · cases same
        first | trivial | exact ⟨_, rfl⟩
    cases takenMem
  · rw [effects]
    exact ⟨by decide, by decide⟩

/-- A batch whose write is refused is accepted, and has stored nothing. -/
theorem refused_write_counted :
    ¬∀ (tenantId channelId : Bytes) (stores : Stores) (deltas : List Sync.Delta)
        (moments : ℕ → Moment) (count : ℕ),
      (stores.run (applyBatch tenantId channelId deltas) moments).outcome = .ok (.ok count) →
      (∀ taken ∈ (stores.run (applyBatch tenantId channelId deltas) moments).made,
        PositionAnswered taken) →
      CountsStored tenantId channelId stores deltas moments count := by
  intro countStored
  have made : ((onlyCursors .empty).run (applyBatch (List.replicate 16 1) (List.replicate 16 7)
      [sampleDelta 41]) fun _ => refused).made.map Performed.call =
        [.time, .insertMessage ⟨List.replicate 16 1, List.replicate 16 7, 0, sampleMessage 41,
          1⟩] := by
    rfl
  have reads : ∀ taken ∈ ((onlyCursors .empty).run (applyBatch (List.replicate 16 1)
      (List.replicate 16 7) [sampleDelta 41]) fun _ => refused).made, PositionAnswered taken := by
    rintro ⟨command, answer⟩ takenMem
    have among := List.mem_map_of_mem (f := Performed.call) takenMem
    rw [made] at among
    simp only [List.mem_cons, List.not_mem_nil, or_false] at among
    rcases among with rfl | rfl
    · trivial
    · trivial
  have counts := countStored (List.replicate 16 1) (List.replicate 16 7) (onlyCursors .empty)
    [sampleDelta 41] (fun _ => refused) 1 rfl reads
  have present := counts.2 _ (List.mem_singleton_self _)
  rw [effectOf_sample] at present
  cases present

end Mercury.Gateway
