import Mathlib.Data.List.Forall2
import Mercury.Gateway.History
import Mercury.Gateway.SyncReplies

/-!
# The rows of a pushed batch

What `sync:push` inserts when it is answered ok: one row for each envelope that
decodes, in the order of the batch.
-/

namespace Mercury.Gateway

open Foundations Foundations.Program Persistence

/-- The rows that were inserted, in order. -/
def insertedRows (made : List (Performed node Raise)) : List MessageRow :=
  made.filterMap fun taken =>
    match taken.call with
    | .inl (.insertMessage row) => some row
    | _ => none

theorem insertedRows_append (first later : List (Performed node Raise)) :
    insertedRows (first ++ later) = insertedRows first ++ insertedRows later :=
  List.filterMap_append

theorem tableAfter_eq (table : MessageTable) (made : List (Performed node Raise)) :
    tableAfter table made = table.upsertAll (insertedRows made) := by
  induction made generalizing table with
  | nil => rfl
  | cons taken later ih =>
      rcases taken with ⟨command | asked, answer⟩
      · cases command <;> exact ih _
      · exact ih _

/-- The call is no `INSERT` into the message table. -/
def InsertsNothing : node.Call → Prop
  | .inl (.insertMessage _) => False
  | _ => True

theorem insertedRows_eq_nil {made : List (Performed node Raise)}
    (nothing : ∀ taken ∈ made, InsertsNothing taken.call) : insertedRows made = [] := by
  apply List.filterMap_eq_nil_iff.mpr
  intro taken takenMem
  have inserts := nothing taken takenMem
  rcases taken with ⟨command | asked, answer⟩
  · cases command with
    | insertMessage => exact inserts.elim
    | _ => rfl
  · rfl

/-- The row that an envelope is stored as. -/
structure StoredAs (tenantId channelId : Bytes) (envelope : Envelope) (row : MessageRow) :
    Prop where
  tenant : row.tenantId = tenantId
  channel : row.channelId = channelId
  bucket : TimeBucket.compute envelope.timestamp = .ok row.bucketId
  message : row.message = pushedMessage envelope

/-- A command of the persistence application, as the node performs it. -/
def onNode (taken : Performed backend Raise) : Performed node Raise :=
  ⟨.inl taken.call, taken.answer⟩

/-- The node performs for the persistence application what that performs. -/
theorem performs_of_inner {Result : Type} {program : Backed Result}
    {made : List (Performed node Raise)} {outcome : Except Raise Result}
    (performs : (inner program).Performs made outcome) :
    ∃ commands, program.Performs commands outcome ∧ made = commands.map onNode := by
  induction program generalizing made with
  | done result => exact ⟨[], ⟨rfl, performs.2⟩, performs.1⟩
  | fail error => exact ⟨[], ⟨rfl, performs.2⟩, performs.1⟩
  | call asked next ih =>
      rcases performs with ⟨answer, later, rfl, performs⟩
      have continues : ((inner (next answer)).Performs later outcome) := by
        rcases answer with raised | answer <;> exact performs
      rcases ih answer continues with ⟨commands, performed, rfl⟩
      exact ⟨⟨asked, answer⟩ :: commands, ⟨answer, commands, rfl, performed⟩, rfl⟩

section Batch

variable {native : Native} {tenantId channelId : Bytes} {envelopes : List Envelope}

/-- The write of one envelope. -/
theorem applySingleDelta_performs {envelope : Envelope} {result : Except Bytes Unit}
    {commands : List (Performed backend Raise)}
    (performs : (Sync.applySingleDelta tenantId channelId (envelopeDelta envelope)).Performs
      commands (.ok result)) :
    ∃ row, insertedRows (commands.map onNode) = [row] ∧
      StoredAs tenantId channelId envelope row := by
  rw [applySingleDelta_envelopeDelta] at performs
  rcases performs.of_bind with ⟨bucketed, writing, bucket, rfl, fits, writes⟩
  rcases bucketEq : TimeBucket.compute envelope.timestamp with raised | found
  · rw [bucketEq] at fits
    cases fits.2
  rw [bucketEq] at fits
  rcases fits with ⟨rfl, same⟩
  cases same
  rcases writes.of_bind with ⟨reading, inserting, now, rfl, reads, inserts⟩
  rw [reads.of_perform, inserts.of_perform]
  exact ⟨_, rfl, rfl, rfl, bucketEq, rfl⟩

/-- What a batch inserts that is applied as a whole. -/
theorem countApplied_performs {count : ℕ} {commands : List (Performed backend Raise)}
    (performs : (Sync.countApplied tenantId channelId (envelopes.map envelopeDelta)).Performs
      commands (.ok count)) :
    List.Forall₂ (StoredAs tenantId channelId) envelopes
      (insertedRows (commands.map onNode)) := by
  induction envelopes generalizing count commands with
  | nil =>
      rw [performs.1]
      exact List.Forall₂.nil
  | cons envelope later ih =>
      rcases Performs.of_bind performs with ⟨applying, rest, result, rfl, applies, counts⟩
      rcases Performs.of_bind counts with ⟨counting, ending, others, rfl, countsLater, ends⟩
      rcases applySingleDelta_performs applies with ⟨row, insertedEq, stored⟩
      rw [ends.1, List.append_nil, List.map_append, insertedRows_append, insertedEq]
      exact List.Forall₂.cons stored (ih countsLater)

/-- A program whose calls are passed on inserts nothing. -/
theorem insertedRows_through {Result : Type} {program : Handler Result}
    {made : List (Performed node Raise)} {outcome : Except Raise Result}
    (passedOn : program.Ensures (fun _ => True)
      (fun asked => persistence asked = @perform node Raise (.inr asked)) fun _ => True)
    (performs : (program.through persistence).Performs made outcome) :
    insertedRows made = [] := by
  have quiet : (program.through persistence).Ensures (fun _ => True) InsertsNothing
      fun _ => True := by
    apply passedOn.through
    intro asked same
    rw [same]
    exact Ensures.perform.mpr ⟨trivial, fun _ _ => trivial⟩
  exact insertedRows_eq_nil (quiet.of_performs performs fun _ _ => trivial).1

/-- What a batch inserts of which the gateway tells the count. -/
theorem syncPushed_performs {socket : Socket} {envelopes : List Envelope} {result : ℕ × ℕ}
    {made : List (Performed node Raise)}
    (performs : ((syncPushed socket channelId (envelopes.map envelopeDelta)).through
      persistence).Performs made (.ok (some result))) :
    List.Forall₂ (StoredAs socket.tenantId.val channelId) envelopes (insertedRows made) := by
  rw [syncPushed, through_bind, call, through_perform] at performs
  rcases performs.of_bind with ⟨applying, rest, applied, rfl, applies, continues⟩
  rcases performs_of_inner applies with ⟨commands, appliedAll, rfl⟩
  unfold Sync.applyDeltas at appliedAll
  split at appliedAll
  · cases appliedAll.2
    cases Except.ok.inj continues.2
  rcases Performs.of_bind appliedAll with ⟨counting, ending, count, rfl, counts, ends⟩
  rcases ends with ⟨rfl, same⟩
  cases same
  have quiet : insertedRows rest = [] := by
    refine insertedRows_through ?_ continues
    refine Ensures.seq (Ensures.seq (Ensures.ask rfl) fun running => ?_) fun _ => ?_
    · split
      · exact Ensures.seq (Ensures.ask rfl) fun _ => trivial
      · trivial
    · refine Ensures.seq (Ensures.ask rfl) fun systemTime => ?_
      refine Ensures.seq (Ensures.ask rfl) fun reading => ?_
      split <;> trivial
  rw [List.append_nil, insertedRows_append, quiet, List.append_nil]
  exact countApplied_performs counts

/-- What a push inserts that is answered ok: its batch decodes. -/
theorem syncPush_inserts {socket : Socket} {ref topicId : ℕ} {payload data : Bytes}
    {info : TopicInfo} {reaction : Reaction} {made : List (Performed node Raise)}
    (refFits : ref < 256 ^ 4) (topicFits : topicId < 256 ^ 2)
    (entry : socket.topicIds.lookup topicId = some info) (names : info.Names channelId)
    (performs : (nodeHandleIn native (Sdk.pushFrame ref topicId Event.syncPush payload)
      socket).Performs made (.ok reaction))
    (pushed : reaction.pushed = [replyFrame ref topicId statusOk data]) :
    ∃ envelopes, decodedEnvelopes native (unpackEnvelopes payload) = some envelopes ∧
      List.Forall₂ (StoredAs socket.tenantId.val channelId) envelopes (insertedRows made) := by
  have refused : ∀ reason, reaction ≠ replyError socket ref topicId reason := by
    rintro reason rfl
    exact replyError_ne_ok pushed
  rw [nodeHandleIn, handleIn, Sdk.parse_pushFrame _ _ refFits topicFits, handleFrame,
    handlePush_syncPush entry names, rescue, through_resume] at performs
  rcases performs.of_resume with ⟨first, later, outcome, rfl, handles, ends⟩
  rcases outcome with raised | handled
  · exact absurd (Except.ok.inj ends.2) (refused _)
  rcases ends with ⟨rfl, same⟩
  cases same
  rcases decode : pushedDeltas native (unpackEnvelopes payload) with raised | deltas
  · rw [decode] at handles
    cases handles.2
  rcases pushedDeltas_ok.mp decode with ⟨envelopes, decodes, rfl⟩
  rw [decode, through_bind] at handles
  rcases handles.of_bind with ⟨unpacking, answering, unpacked, rfl, unpacks, answers⟩
  rcases unpacks with ⟨rfl, unpacks⟩
  cases unpacks
  rw [through_bind] at answers
  rcases answers.of_bind with ⟨pushing, replying, result, rfl, pushes, replies⟩
  rcases result with _ | ⟨count, wall⟩
  · exact absurd (Except.ok.inj replies.2) (refused _)
  refine ⟨envelopes, decodes, ?_⟩
  rw [replies.1, List.nil_append, List.append_nil, List.append_nil]
  exact syncPushed_performs pushes

end Batch

end Mercury.Gateway
