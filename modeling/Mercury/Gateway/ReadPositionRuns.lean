import Mathlib.Order.WithBot
import Mathlib.Order.Bounds.Basic
import Mercury.Gateway.Stores

/-!
# Concurrent updates of a read position

`ReadPositions.update` reads the position, compares, and writes in a second
command. Any number of calls for one position interleave, as the tasks of
`msg:read` and the deltas of `sync:push` start them. The position never goes
backward, and ends at the greatest id, as long as no call writes after another
has written a greater id behind its back.
-/

namespace Mercury.Gateway

open Foundations Foundations.Program Persistence

/-- The stored position; `⊥` where there is none. -/
def Stores.position (stores : Stores) (tenantId userId channelId : Bytes) : WithBot Bytes :=
  (stores.readPositions.rows.find? fun row =>
    row.tenantId = tenantId ∧ row.userId = userId ∧ row.channelId = channelId).map
      ReadPositionRow.lastReadMessageId

/-- A call of `update`, with what it has still to do and the ids that were inserted since
its last command. -/
structure UpdateCall where
  messageId : Bytes
  rest : Stored (Except Bytes Unit)
  since : List Bytes

structure PositionWorld where
  stores : Stores
  calls : ℕ → Option UpdateCall

inductive PositionLabel where
  | called (call : ℕ) (messageId : Bytes)
  | performed (call : ℕ) (moment : Moment)

/-- The id that the command inserts. -/
def insertedId (moment : Moment) : Command → List Bytes
  | .insertReadPosition _ _ _ messageId => if moment.fate.applies then [messageId] else []
  | _ => []

def UpdateCall.sees (inserted : List Bytes) (current : UpdateCall) : UpdateCall :=
  { current with since := inserted ++ current.since }

/-- The world after a call performed its next command. -/
def PositionWorld.perform (world : PositionWorld) (call : ℕ) (current : UpdateCall)
    (moment : Moment) (command : Command)
    (next : Except Raise command.Answer → Stored (Except Bytes Unit)) : PositionWorld :=
  let executed := world.stores.execute moment command
  { stores := if moment.fate.applies then executed.2 else world.stores
    calls := Function.update
      (fun other => (world.calls other).map (UpdateCall.sees (insertedId moment command))) call
      (some
        { messageId := current.messageId
          rest := next (moment.fate.answer command executed.1)
          since := [] }) }

/-- The world after a call of `update`. -/
def PositionWorld.begin (world : PositionWorld) (tenantId userId channelId : Bytes) (call : ℕ)
    (messageId : Bytes) : PositionWorld :=
  { world with
    calls := Function.update world.calls call
      (some ⟨messageId, ReadPositions.update tenantId userId channelId messageId, []⟩) }

/-- The calls for one position. A command that fails has no effect. -/
inductive PositionStep (tenantId userId channelId : Bytes) :
    PositionWorld → PositionLabel → PositionWorld → Prop where
  | called {world : PositionWorld} {call : ℕ} {messageId : Bytes}
      (free : world.calls call = none) :
      PositionStep tenantId userId channelId world (.called call messageId)
        (world.begin tenantId userId channelId call messageId)
  | performed {world : PositionWorld} {call : ℕ} {current : UpdateCall} {moment : Moment}
      {command : Command} {next : Except Raise command.Answer → Stored (Except Bytes Unit)}
      (present : world.calls call = some current) (waits : current.rest = .call command next)
      (atomic : moment.fate.applies = true → moment.fate = .carried) :
      PositionStep tenantId userId channelId world (.performed call moment)
        (world.perform call current moment command next)

/-- The command is the one that the call performs next. -/
def UpdateCall.Next (current : UpdateCall) (command : Command) : Prop :=
  ∃ next, current.rest = .call command next

/-- A read fails only where the position is not beyond the call's id, and a write is
carried out only where no greater id was inserted since the call's read. -/
structure InOrder (tenantId userId channelId : Bytes) (world : PositionWorld)
    (label : PositionLabel) : Prop where
  get : ∀ call moment current reason applied, label = .performed call moment →
    world.calls call = some current →
      current.Next (.selectReadPosition tenantId userId channelId) →
        moment.fate = .refused reason applied →
          world.stores.position tenantId userId channelId ≤ current.messageId
  insert : ∀ call moment current, label = .performed call moment →
    world.calls call = some current →
      current.Next (.insertReadPosition tenantId userId channelId current.messageId) →
        moment.fate.applies = true → ∀ other ∈ current.since, other ≤ current.messageId

section

variable {tenantId userId channelId messageId : Bytes} {stores : Stores} {moment : Moment}

theorem position_execute_insert :
    (stores.execute moment
      (.insertReadPosition tenantId userId channelId messageId)).2.position tenantId userId
        channelId = messageId := by
  rw [Stores.position, Stores.execute, KeyedTable.find?_upsert]
  · rfl
  · simp
  · intro other asked
    simpa [ReadPositionRow.key] using asked

theorem execute_select :
    stores.execute moment (.selectReadPosition tenantId userId channelId) =
      (.ok (.ok (stores.position tenantId userId channelId)), stores) :=
  rfl

/-- What `update` does with the answer to its read. -/
def afterGet (tenantId userId channelId messageId : Bytes) :
    Except Raise (Except Bytes (Option Bytes)) → Stored (Except Bytes Unit)
  | .ok (.ok (some current)) =>
      if messageId ≤ current then pure (.ok ())
      else send (.insertReadPosition tenantId userId channelId messageId)
  | .ok _ => send (.insertReadPosition tenantId userId channelId messageId)
  | .error raised => fail raised

theorem update_eq :
    ReadPositions.update tenantId userId channelId messageId =
      .call (.selectReadPosition tenantId userId channelId)
        (afterGet tenantId userId channelId messageId) := by
  refine congrArg (@Program.call commands Raise (Except Bytes Unit) _) (funext ?_)
  rintro (raised | reason | _ | current) <;> rfl

/-- Where a call stands, with what its part of the run has established. -/
inductive Phase (tenantId userId channelId : Bytes) (position : WithBot Bytes) :
    UpdateCall → Prop where
  | reading {messageId : Bytes} {since : List Bytes} :
      Phase tenantId userId channelId position
        ⟨messageId, ReadPositions.update tenantId userId channelId messageId, since⟩
  | inserting {messageId : Bytes} {since : List Bytes}
      (safe : position ≤ messageId ∨ ∃ other ∈ since, messageId < other) :
      Phase tenantId userId channelId position
        ⟨messageId, send (.insertReadPosition tenantId userId channelId messageId), since⟩
  | returned {messageId : Bytes} {since : List Bytes} (covered : ↑messageId ≤ position) :
      Phase tenantId userId channelId position ⟨messageId, .done (.ok ()), since⟩
  | refused {messageId reason : Bytes} {since : List Bytes} :
      Phase tenantId userId channelId position ⟨messageId, .done (.error reason), since⟩
  | raised {messageId : Bytes} {since : List Bytes} {error : Raise} :
      Phase tenantId userId channelId position ⟨messageId, .fail error, since⟩

end

/-- The ids of the calls that returned `:ok`. -/
def PositionWorld.returned (world : PositionWorld) : Set (WithBot Bytes) :=
  { position | ∃ call current, world.calls call = some current ∧
    current.rest = .done (.ok ()) ∧ position = current.messageId }

/-- What every run of ordered steps keeps. -/
structure Tracked (tenantId userId channelId : Bytes) (initial : WithBot Bytes)
    (world : PositionWorld) : Prop where
  phases : ∀ call current, world.calls call = some current →
    Phase tenantId userId channelId (world.stores.position tenantId userId channelId) current
  started : initial ≤ world.stores.position tenantId userId channelId
  reached : world.stores.position tenantId userId channelId = initial ∨
    world.stores.position tenantId userId channelId ∈ world.returned

section

variable {tenantId userId channelId : Bytes} {position initial : WithBot Bytes}
  {world next : PositionWorld} {current : UpdateCall}

/-- A call copes with an insert that does not go backward. -/
theorem Phase.sees_insert (phase : Phase tenantId userId channelId position current)
    {inserted : Bytes} (forward : position ≤ inserted) :
    Phase tenantId userId channelId inserted (current.sees [inserted]) := by
  cases phase with
  | reading => exact Phase.reading
  | refused => exact Phase.refused
  | raised => exact Phase.raised
  | returned covered => exact Phase.returned (covered.trans forward)
  | @inserting messageId since safe =>
      apply Phase.inserting
      rcases le_or_gt inserted messageId with before | behind
      · exact Or.inl (WithBot.coe_le_coe.mpr before)
      · exact Or.inr ⟨inserted, by simp, behind⟩

theorem calls_perform_self {call : ℕ} {moment : Moment} {command : Command}
    {rest : Except Raise command.Answer → Stored (Except Bytes Unit)} :
    (world.perform call current moment command rest).calls call =
      some ⟨current.messageId,
        rest (moment.fate.answer command (world.stores.execute moment command).1), []⟩ := by
  simp only [PositionWorld.perform, Function.update_self]

theorem returned_perform {call : ℕ} {moment : Moment} {command : Command}
    {rest : Except Raise command.Answer → Stored (Except Bytes Unit)}
    (present : world.calls call = some current) (waits : current.rest = .call command rest) :
    world.returned ⊆ (world.perform call current moment command rest).returned := by
  rintro position ⟨other, finished, otherAt, returned, rfl⟩
  have different : other ≠ call := by
    rintro rfl
    cases present.symm.trans otherAt
    rw [waits] at returned
    cases returned
  refine ⟨other, finished.sees (insertedId moment command), ?_, returned, rfl⟩
  simp [PositionWorld.perform, Function.update_of_ne different, otherAt]

/-- The phases after a command, from those of the others and of the call itself. -/
theorem phases_perform {call : ℕ} {moment : Moment} {command : Command}
    {rest : Except Raise command.Answer → Stored (Except Bytes Unit)}
    (others : ∀ other present, world.calls other = some present →
      Phase tenantId userId channelId position (present.sees (insertedId moment command)))
    (own : Phase tenantId userId channelId position
      ⟨current.messageId,
        rest (moment.fate.answer command (world.stores.execute moment command).1), []⟩) :
    ∀ other present, (world.perform call current moment command rest).calls other =
      some present → Phase tenantId userId channelId position present := by
  intro other present presentAt
  by_cases same : other = call
  · subst other
    simp only [PositionWorld.perform, Function.update_self, Option.some.injEq] at presentAt
    exact presentAt ▸ own
  · simp only [PositionWorld.perform, Function.update_of_ne same, Option.map_eq_some_iff]
      at presentAt
    rcases presentAt with ⟨before, beforeAt, rfl⟩
    exact others other before beforeAt

theorem phase_afterGet {stores : Stores} {moment : Moment} {messageId : Bytes}
    (failsBehind : ∀ reason applied, moment.fate = .refused reason applied →
      stores.position tenantId userId channelId ≤ messageId) :
    Phase tenantId userId channelId (stores.position tenantId userId channelId)
      ⟨messageId, afterGet tenantId userId channelId messageId
        (moment.fate.answer (.selectReadPosition tenantId userId channelId)
          (stores.execute moment (.selectReadPosition tenantId userId channelId)).1), []⟩ := by
  rw [execute_select]
  cases fateEq : moment.fate with
  | raised => exact Phase.raised
  | refused reason applied => exact Phase.inserting (Or.inl (failsBehind reason applied fateEq))
  | carried =>
      generalize stores.position tenantId userId channelId = position
      rcases position with _ | stored
      · exact Phase.inserting (Or.inl bot_le)
      simp only [Fate.answer, afterGet]
      split
      · next ahead => exact Phase.returned (WithBot.coe_le_coe.mpr ahead)
      · next behind =>
          exact Phase.inserting (Or.inl (WithBot.coe_le_coe.mpr (le_of_not_ge behind)))

/-- The run goes on as tracked, and the position has not gone backward. -/
structure Advances (tenantId userId channelId : Bytes) (initial : WithBot Bytes)
    (world next : PositionWorld) : Prop where
  tracked : Tracked tenantId userId channelId initial next
  forward : world.stores.position tenantId userId channelId ≤
    next.stores.position tenantId userId channelId

/-- A read leaves the position alone. -/
theorem Tracked.get (tracked : Tracked tenantId userId channelId initial world) {call : ℕ}
    {moment : Moment} (present : world.calls call = some current)
    (reads : current.rest = .call (.selectReadPosition tenantId userId channelId)
      (afterGet tenantId userId channelId current.messageId))
    (failsBehind : ∀ reason applied, moment.fate = .refused reason applied →
      world.stores.position tenantId userId channelId ≤ current.messageId) :
    Advances tenantId userId channelId initial world
      (world.perform call current moment (.selectReadPosition tenantId userId channelId)
        (afterGet tenantId userId channelId current.messageId)) := by
  have stores : (world.perform call current moment (.selectReadPosition tenantId userId channelId)
      (afterGet tenantId userId channelId current.messageId)).stores = world.stores := by
    simp [PositionWorld.perform, execute_select]
  refine ⟨⟨?_, ?_, ?_⟩, ?_⟩
  · rw [stores]
    exact phases_perform (fun other present presentAt => tracked.phases other present presentAt)
      (phase_afterGet failsBehind)
  · rw [stores]
    exact tracked.started
  · rw [stores]
    exact tracked.reached.imp id fun among => returned_perform present reads among
  · rw [stores]

/-- What a write returns. -/
def insertReply : Except Raise (Except Bytes Unit) → Stored (Except Bytes Unit)
  | .ok reply => .done reply
  | .error raised => .fail raised

theorem send_insert_eq {messageId : Bytes} :
    send (.insertReadPosition tenantId userId channelId messageId) =
      .call (.insertReadPosition tenantId userId channelId messageId) insertReply := by
  refine congrArg (@Program.call commands Raise (Except Bytes Unit) _) (funext ?_)
  rintro (raised | reply) <;> rfl

/-- A write that no greater id has overtaken moves the position forward. -/
theorem Tracked.insert (tracked : Tracked tenantId userId channelId initial world) {call : ℕ}
    {moment : Moment} (present : world.calls call = some current)
    (writes : current.rest = .call
      (.insertReadPosition tenantId userId channelId current.messageId) insertReply)
    (atomic : moment.fate.applies = true → moment.fate = .carried)
    (forward : moment.fate.applies = true →
      world.stores.position tenantId userId channelId ≤ current.messageId) :
    Advances tenantId userId channelId initial world
      (world.perform call current moment
        (.insertReadPosition tenantId userId channelId current.messageId) insertReply) := by
  cases applies : moment.fate.applies with
  | true =>
      have carried := atomic applies
      have stores : (world.perform call current moment
          (.insertReadPosition tenantId userId channelId current.messageId)
            insertReply).stores.position tenantId userId channelId = current.messageId := by
        simp only [PositionWorld.perform, applies, if_true]
        exact position_execute_insert
      have inserted : insertedId moment
          (.insertReadPosition tenantId userId channelId current.messageId) =
            [current.messageId] :=
        if_pos applies
      have own : insertReply (moment.fate.answer
          (.insertReadPosition tenantId userId channelId current.messageId)
          (world.stores.execute moment
            (.insertReadPosition tenantId userId channelId current.messageId)).1) =
              .done (.ok ()) := by
        rw [carried]
        rfl
      refine ⟨⟨?_, ?_, Or.inr ⟨call, _, calls_perform_self, own, stores⟩⟩, ?_⟩
      · rw [stores]
        refine phases_perform (fun other present presentAt => ?_) ?_
        · rw [inserted]
          exact (tracked.phases other present presentAt).sees_insert (forward applies)
        · rw [own]
          exact Phase.returned le_rfl
      · rw [stores]
        exact tracked.started.trans (forward applies)
      · rw [stores]
        exact forward applies
  | false =>
      have stores : (world.perform call current moment
          (.insertReadPosition tenantId userId channelId current.messageId)
            insertReply).stores = world.stores := by
        simp [PositionWorld.perform, applies]
      have inserted : insertedId moment
          (.insertReadPosition tenantId userId channelId current.messageId) = [] := by
        simp [insertedId, applies]
      refine ⟨⟨?_, ?_, ?_⟩, ?_⟩
      · rw [stores]
        refine phases_perform (fun other present presentAt => ?_) ?_
        · rw [inserted]
          exact tracked.phases other present presentAt
        · cases fateEq : moment.fate with
          | carried => simp [fateEq, Fate.applies] at applies
          | refused => exact Phase.refused
          | raised => exact Phase.raised
      · rw [stores]
        exact tracked.started
      · rw [stores]
        exact tracked.reached.imp id fun among => returned_perform present writes among
      · rw [stores]

theorem Tracked.step {label : PositionLabel}
    (tracked : Tracked tenantId userId channelId initial world)
    (step : Guarded (InOrder tenantId userId channelId)
      (PositionStep tenantId userId channelId) world label next) :
    Advances tenantId userId channelId initial world next := by
  rcases step with ⟨inOrder, step⟩
  cases step with
  | @called call messageId free =>
      refine ⟨⟨?_, tracked.started, tracked.reached.imp id ?_⟩, le_rfl⟩
      · intro other present presentAt
        by_cases same : other = call
        · subst other
          simp only [PositionWorld.begin, Function.update_self, Option.some.injEq] at presentAt
          exact presentAt ▸ Phase.reading
        · simp only [PositionWorld.begin, Function.update_of_ne same] at presentAt
          exact tracked.phases other present presentAt
      · rintro ⟨other, finished, otherAt, returned⟩
        have different : other ≠ call := by
          rintro rfl
          simp [free] at otherAt
        refine ⟨other, finished, ?_, returned⟩
        simp [PositionWorld.begin, Function.update_of_ne different, otherAt]
  | @performed call current moment command rest present waits atomic =>
      have phase := tracked.phases call current present
      cases phase with
      | reading =>
          cases waits.symm.trans update_eq
          exact tracked.get present update_eq fun reason applied fateEq =>
            inOrder.get call moment _ reason applied rfl present ⟨_, update_eq⟩ fateEq
      | inserting safe =>
          cases waits.symm.trans send_insert_eq
          apply tracked.insert present send_insert_eq atomic
          intro applies
          rcases safe with behind | ⟨other, seen, beyond⟩
          · exact behind
          · have notBeyond := inOrder.insert call moment _ rfl present ⟨_, send_insert_eq⟩ applies
              other seen
            exact absurd beyond (not_lt_of_ge notBeyond)
      | returned => cases waits
      | refused => cases waits
      | raised => cases waits

end

/-- No call has been made yet. -/
def PositionWorld.start (stores : Stores) : PositionWorld where
  stores := stores
  calls _ := none

/-- In every run of ordered steps, the position never goes backward, and it is the
greatest of the initial one and the ids of the calls that returned `:ok`. -/
theorem position_greatest (tenantId userId channelId : Bytes) (stores : Stores)
    {labels : List PositionLabel} {world : PositionWorld}
    (run : Run (Guarded (InOrder tenantId userId channelId)
      (PositionStep tenantId userId channelId)) (PositionWorld.start stores) labels world) :
    (∀ label next, Guarded (InOrder tenantId userId channelId)
        (PositionStep tenantId userId channelId) world label next →
          world.stores.position tenantId userId channelId ≤
            next.stores.position tenantId userId channelId) ∧
      IsGreatest (insert (stores.position tenantId userId channelId) world.returned)
        (world.stores.position tenantId userId channelId) := by
  have initially : Tracked tenantId userId channelId
      (stores.position tenantId userId channelId) (PositionWorld.start stores) :=
    ⟨fun call current present => (Option.some_ne_none current present.symm).elim, le_rfl,
      Or.inl rfl⟩
  have tracked : Tracked tenantId userId channelId
      (stores.position tenantId userId channelId) world :=
    @Run.invariant _ _ _ (Tracked tenantId userId channelId _)
      (fun tracked step => (Tracked.step tracked step).tracked) _ _ _ run initially
  refine ⟨fun label next step => (tracked.step step).forward, tracked.reached, ?_⟩
  rintro position (rfl | ⟨call, current, present, returned, rfl⟩)
  · exact tracked.started
  · have phase := tracked.phases call current present
    cases phase with
    | returned covered => exact covered
    | reading => cases update_eq.symm.trans returned
    | inserting => cases send_insert_eq.symm.trans returned
    | refused => cases returned
    | raised => cases returned

/-! ### Two devices of one user -/

/-- An update of the position of user 2 in channel 7. -/
def updateTo (byte : Byte) (since : List Bytes) : UpdateCall where
  messageId := List.replicate 16 byte
  rest := ReadPositions.update (List.replicate 16 1) (List.replicate 16 2)
    (List.replicate 16 7) (List.replicate 16 byte)
  since := since

/-- The same call after it has read that there is no position. -/
def writingTo (byte : Byte) (since : List Bytes) : UpdateCall where
  messageId := List.replicate 16 byte
  rest := send (.insertReadPosition (List.replicate 16 1) (List.replicate 16 2)
    (List.replicate 16 7) (List.replicate 16 byte))
  since := since

/-- The steps of the calls for this position. -/
abbrev UpdateStep : PositionWorld → PositionLabel → PositionWorld → Prop :=
  PositionStep (List.replicate 16 1) (List.replicate 16 2) (List.replicate 16 7)

/-- Those of them that are in order. -/
abbrev OrderedStep : PositionWorld → PositionLabel → PositionWorld → Prop :=
  Guarded (InOrder (List.replicate 16 1) (List.replicate 16 2) (List.replicate 16 7)) UpdateStep

/-- A call for this position. -/
def PositionWorld.updates (world : PositionWorld) (call : ℕ) (byte : Byte) : PositionWorld :=
  world.begin (List.replicate 16 1) (List.replicate 16 2) (List.replicate 16 7) call
    (List.replicate 16 byte)

/-- The call reads the position. -/
def PositionWorld.reads (world : PositionWorld) (call : ℕ) (byte : Byte) : PositionWorld :=
  world.perform call (updateTo byte []) carriedOut
    (.selectReadPosition (List.replicate 16 1) (List.replicate 16 2) (List.replicate 16 7))
    (afterGet (List.replicate 16 1) (List.replicate 16 2) (List.replicate 16 7)
      (List.replicate 16 byte))

/-- The call writes the position. -/
def PositionWorld.writes (world : PositionWorld) (call : ℕ) (byte : Byte)
    (since : List Bytes) : PositionWorld :=
  world.perform call (writingTo byte since) carriedOut
    (.insertReadPosition (List.replicate 16 1) (List.replicate 16 2) (List.replicate 16 7)
      (List.replicate 16 byte))
    insertReply

section

variable {world : PositionWorld} {call : ℕ} {byte : Byte} {since : List Bytes}

theorem updateStep_updates (free : world.calls call = none) :
    UpdateStep world (.called call (List.replicate 16 byte)) (world.updates call byte) :=
  PositionStep.called free

theorem updateStep_reads (present : world.calls call = some (updateTo byte [])) :
    UpdateStep world (.performed call carriedOut) (world.reads call byte) :=
  PositionStep.performed present update_eq fun _ => rfl

theorem updateStep_writes (present : world.calls call = some (writingTo byte since)) :
    UpdateStep world (.performed call carriedOut) (world.writes call byte since) :=
  PositionStep.performed present send_insert_eq fun _ => rfl

end

/-- No position is stored. -/
def noPosition : PositionWorld :=
  PositionWorld.start (onlyCursors .empty)

/-- Two calls that have both read before either writes. -/
def overlapping : PositionWorld :=
  (((noPosition.updates 0 1).updates 1 2).reads 0 1).reads 1 2

theorem inOrder_called {tenantId userId channelId messageId : Bytes} {world : PositionWorld}
    {call : ℕ} : InOrder tenantId userId channelId world (.called call messageId) where
  get _ _ _ _ _ isPerformed := by cases isPerformed
  insert _ _ _ isPerformed := by cases isPerformed

/-- A command that is carried out before another call writes a greater id is in order. -/
theorem inOrder_carriedOut {tenantId userId channelId : Bytes} {world : PositionWorld}
    {call : ℕ} {current : UpdateCall} (present : world.calls call = some current)
    (ahead : ∀ other ∈ current.since, other ≤ current.messageId) :
    InOrder tenantId userId channelId world (.performed call carriedOut) where
  get _ _ _ _ _ isPerformed _ _ isRefused := by
    cases isPerformed
    cases isRefused
  insert _ _ same isPerformed sameAt _ _ := by
    cases isPerformed
    cases present.symm.trans sameAt
    exact ahead

theorem run_overlapping : ∃ labels, Run OrderedStep noPosition labels overlapping := by
  have first := @updateStep_updates noPosition 0 1 rfl
  have second := @updateStep_updates (noPosition.updates 0 1) 1 2 rfl
  have firstReads := @updateStep_reads ((noPosition.updates 0 1).updates 1 2) 0 1 rfl
  have secondReads := @updateStep_reads
    (((noPosition.updates 0 1).updates 1 2).reads 0 1) 1 2 rfl
  have called : Run OrderedStep noPosition _ _ :=
    (Run.refl.snoc ⟨inOrder_called, first⟩).snoc ⟨inOrder_called, second⟩
  exact ⟨_, (called.snoc
    ⟨@inOrder_carriedOut _ _ _ _ 0 (updateTo 1 []) rfl nofun, firstReads⟩).snoc
      ⟨@inOrder_carriedOut _ _ _ _ 1 (updateTo 2 []) rfl nofun, secondReads⟩⟩

/-- The call with the greater id writes first. -/
theorem position_backward_of_overlap :
    ¬∀ (tenantId userId channelId : Bytes) (stores : Stores) (labels : List PositionLabel)
        (world : PositionWorld),
      Run (PositionStep tenantId userId channelId) (PositionWorld.start stores) labels world →
        ∀ label next, PositionStep tenantId userId channelId world label next →
          world.stores.position tenantId userId channelId ≤
            next.stores.position tenantId userId channelId := by
  intro neverBack
  rcases run_overlapping with ⟨labels, run⟩
  have ahead := @updateStep_writes overlapping 1 2 [] rfl
  have behind := @updateStep_writes (overlapping.writes 1 2 []) 0 1 [List.replicate 16 2] rfl
  have forward := neverBack _ _ _ _ _ _ (run.of_guarded.snoc ahead) _ _ behind
  change ((List.replicate 16 2 : Bytes) : WithBot Bytes) ≤ (List.replicate 16 1 : Bytes)
    at forward
  exact absurd (WithBot.coe_le_coe.mp forward) (by decide)

/-- Both calls have read before either writes, and the smaller id is written first. -/
theorem position_greatest_of_two : ∃ before after world,
    Run OrderedStep noPosition before overlapping ∧ Run OrderedStep overlapping after world ∧
      ↑(List.replicate 16 1 : Bytes) ∈ world.returned ∧
      world.stores.position (List.replicate 16 1) (List.replicate 16 2) (List.replicate 16 7) =
        (List.replicate 16 2 : Bytes) ∧
      IsGreatest (insert ⊥ world.returned) (List.replicate 16 2 : Bytes) := by
  rcases run_overlapping with ⟨before, run⟩
  have smaller := @updateStep_writes overlapping 0 1 [] rfl
  have greater := @updateStep_writes (overlapping.writes 0 1 []) 1 2 [List.replicate 16 1] rfl
  have first : Run OrderedStep overlapping _ _ := Run.refl.snoc
    ⟨@inOrder_carriedOut _ _ _ overlapping 0 (writingTo 1 []) rfl nofun, smaller⟩
  have writes := first.snoc ⟨@inOrder_carriedOut _ _ _ (overlapping.writes 0 1 []) 1
    (writingTo 2 [List.replicate 16 1]) rfl (by decide), greater⟩
  refine ⟨before, _, _, run, writes, ⟨0, _, rfl, rfl, rfl⟩, rfl, ?_⟩
  exact (position_greatest _ _ _ _ (run.append writes)).2

end Mercury.Gateway
