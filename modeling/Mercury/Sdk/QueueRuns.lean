import Mathlib.Data.List.Induction
import Mercury.Sdk.OfflineQueue

/-!
# What becomes of queued messages

`SyncEngine.queueOffline` and the push phase of `SyncEngine.syncChannel`, run in
any sequence over a queue of entries of any channels. The push phase drains the
first entries of the queue, pushes those of its own channel and acknowledges by
a range of keys, so it also drops the entries of other channels in that range.
No entry is lost exactly in the runs where no such entry exists
(`accounted_iff_acksOwnOnly`).
-/

namespace Mercury.Sdk

variable {Payload : Type} [DecidableEq Payload]

/-- The queue, with what happened to it so far. -/
structure QueueHistory (Payload : Type) where
  store : QueueStore Payload
  /-- Every entry that was ever in the queue. -/
  queued : List (QueuedMessage Payload)
  evicted : List (QueuedMessage Payload)
  /-- The successful `pushDeltas` calls, each with its channel and its entries. -/
  pushes : List (String × List (QueuedMessage Payload))

/-- An awaited call of the sync engine. -/
inductive QueueCall (Payload : Type) where
  | queueOffline (channelId event : String) (payload : Payload) (now : ℕ)
  /-- `pulled` says whether the pull phase completed, `accepted` what `pushDeltas`
  resolved to, if it did. -/
  | syncChannel (channelId : String) (pulled : Bool) (accepted : Option ℕ)

/-- The drained entries that `syncChannel` pushes. -/
def channelDeltas (store : QueueStore Payload) (channelId : String) :
    List (QueuedMessage Payload) :=
  (OfflineQueue.drain store).filter fun entry => entry.channelId = channelId

namespace QueueHistory

/-- A queue with any content, before any call. -/
def start (store : QueueStore Payload) : QueueHistory Payload where
  store := store
  queued := store.entries
  evicted := []
  pushes := []

/-- The push phase once `pushDeltas` has resolved. -/
def acknowledge (history : QueueHistory Payload) (channelId : String) : QueueHistory Payload :=
  match (channelDeltas history.store channelId).getLast? with
  | none => history
  | some last =>
      { history with
        store := OfflineQueue.ack history.store last.id
        pushes := history.pushes ++ [(channelId, channelDeltas history.store channelId)] }

def call (history : QueueHistory Payload) : QueueCall Payload → QueueHistory Payload
  | .queueOffline channelId event payload now =>
      { history with
        store := OfflineQueue.enqueue history.store channelId event payload now
        queued := history.queued ++ [history.store.newEntry channelId event payload now]
        evicted := history.evicted ++ OfflineQueue.evicts history.store }
  | .syncChannel _ false _ => history
  | .syncChannel _ true none => history
  | .syncChannel channelId true (some _) => history.acknowledge channelId

def run (history : QueueHistory Payload) (calls : List (QueueCall Payload)) :
    QueueHistory Payload :=
  calls.foldl call history

/-- The channels of the successful pushes that `entry` was part of. -/
def pushesOf (history : QueueHistory Payload) (entry : QueuedMessage Payload) : List String :=
  (history.pushes.filter fun push => entry ∈ push.2).map Prod.fst

/-- Every entry ever queued and not evicted is still queued or was part of exactly
one successful push, one of its own channel. -/
def Accounted (history : QueueHistory Payload) : Prop :=
  ∀ entry ∈ history.queued, entry ∉ history.evicted →
    entry ∈ history.store.entries ∨ history.pushesOf entry = [entry.channelId]

/-- If the call gets to acknowledge, every queued entry up to the last pushed one
belongs to the channel of the call. -/
def AcksOwnOnly (history : QueueHistory Payload) : QueueCall Payload → Prop
  | .syncChannel channelId true (some _) =>
      ∀ last, (channelDeltas history.store channelId).getLast? = some last →
        ∀ entry ∈ history.store.entries, entry.id ≤ last.id → entry.channelId = channelId
  | _ => True

/-- What holds of every history, whatever is lost. -/
structure Coherent (history : QueueHistory Payload) : Prop where
  stored : ∀ entry ∈ history.store.entries, entry ∈ history.queued
  notEvicted : ∀ entry ∈ history.store.entries, entry ∉ history.evicted
  unpushed : ∀ entry ∈ history.store.entries, history.pushesOf entry = []
  generated : ∀ entry ∈ history.queued, entry.id < history.store.nextId
  evictedQueued : ∀ entry ∈ history.evicted, entry ∈ history.queued
  pushedQueued : ∀ push ∈ history.pushes, ∀ entry ∈ push.2, entry ∈ history.queued

theorem coherent_start (store : QueueStore Payload) : (start store).Coherent where
  stored _ entryMem := entryMem
  notEvicted _ _ := by simp [start]
  unpushed _ _ := by simp [start, pushesOf]
  generated := store.generated
  evictedQueued := by simp [start]
  pushedQueued := by simp [start]

omit [DecidableEq Payload] in
theorem mem_of_mem_channelDeltas {store : QueueStore Payload} {channelId : String}
    {entry : QueuedMessage Payload} (pushed : entry ∈ channelDeltas store channelId) :
    entry ∈ store.entries ∧ entry.channelId = channelId := by
  simp only [channelDeltas, List.mem_filter, decide_eq_true_eq] at pushed
  exact ⟨List.mem_of_mem_take pushed.1, pushed.2⟩

omit [DecidableEq Payload] in
/-- An entry of the channel that precedes the last pushed one was pushed with it. -/
theorem mem_channelDeltas_of_id_le {store : QueueStore Payload} {channelId : String}
    {entry last : QueuedMessage Payload}
    (lastEq : (channelDeltas store channelId).getLast? = some last)
    (entryMem : entry ∈ store.entries) (before : entry.id ≤ last.id)
    (own : entry.channelId = channelId) : entry ∈ channelDeltas store channelId := by
  have lastMem := List.mem_of_getLast? lastEq
  simp only [channelDeltas, List.mem_filter, decide_eq_true_eq] at lastMem ⊢
  exact ⟨QueueStore.mem_dequeue_of_id_le lastMem.1 entryMem before, own⟩

omit [DecidableEq Payload] in
/-- A pushed entry is not beyond the last one. -/
theorem id_le_of_mem_channelDeltas {store : QueueStore Payload} {channelId : String}
    {entry last : QueuedMessage Payload}
    (lastEq : (channelDeltas store channelId).getLast? = some last)
    (pushed : entry ∈ channelDeltas store channelId) : entry.id ≤ last.id := by
  rcases List.getLast?_eq_some_iff.mp lastEq with ⟨earlier, split⟩
  have ordered : (channelDeltas store channelId).Pairwise fun left right => left.id < right.id :=
    (store.ascending.sublist (List.take_sublist _ _)).filter _
  rw [split, List.pairwise_append] at ordered
  rw [split, List.mem_append, List.mem_singleton] at pushed
  rcases pushed with before | rfl
  · exact Nat.le_of_lt (ordered.2.2 entry before last (by simp))
  · exact Nat.le_refl _

theorem pushesOf_push (history : QueueHistory Payload) (store : QueueStore Payload)
    (channelId : String) (batch : List (QueuedMessage Payload)) (entry : QueuedMessage Payload) :
    pushesOf { history with store := store, pushes := history.pushes ++ [(channelId, batch)] }
        entry =
      history.pushesOf entry ++ if entry ∈ batch then [channelId] else [] := by
  by_cases pushed : entry ∈ batch <;> simp [pushesOf, List.filter_append, pushed]

theorem Coherent.acknowledge {history : QueueHistory Payload} (coherent : history.Coherent)
    (channelId : String) : (history.acknowledge channelId).Coherent := by
  unfold QueueHistory.acknowledge
  split
  · exact coherent
  · next last lastEq =>
      have kept : ∀ entry, entry ∈ (OfflineQueue.ack history.store last.id).entries →
          entry ∈ history.store.entries ∧ last.id < entry.id :=
        fun entry entryMem => QueueStore.mem_clearQueue.mp entryMem
      refine ⟨?_, ?_, ?_, coherent.generated, coherent.evictedQueued, ?_⟩
      · intro entry entryMem
        exact coherent.stored entry (kept entry entryMem).1
      · intro entry entryMem
        exact coherent.notEvicted entry (kept entry entryMem).1
      · intro entry entryMem
        rcases kept entry entryMem with ⟨entryStored, beyond⟩
        rw [pushesOf_push, coherent.unpushed entry entryStored, if_neg]
        · rfl
        · intro pushed
          have := id_le_of_mem_channelDeltas lastEq pushed
          omega
      · intro push pushMem entry entryMem
        rcases List.mem_append.mp pushMem with earlier | now
        · exact coherent.pushedQueued push earlier entry entryMem
        · rw [List.mem_singleton] at now
          subst push
          exact coherent.stored entry (mem_of_mem_channelDeltas entryMem).1

theorem Coherent.pushesOf_newEntry {history : QueueHistory Payload} (coherent : history.Coherent)
    (channelId event : String) (payload : Payload) (now : ℕ) :
    history.pushesOf (history.store.newEntry channelId event payload now) = [] := by
  simp only [pushesOf, List.map_eq_nil_iff, List.filter_eq_nil_iff, decide_eq_true_eq]
  intro push pushMem entryMem
  have := coherent.generated _ (coherent.pushedQueued push pushMem _ entryMem)
  simp [QueueStore.newEntry] at this

omit [DecidableEq Payload] in
theorem mem_of_mem_evicts {store : QueueStore Payload} {entry : QueuedMessage Payload}
    (evicted : entry ∈ OfflineQueue.evicts store) : entry ∈ store.entries := by
  unfold OfflineQueue.evicts at evicted
  split at evicted
  · exact List.mem_of_mem_take evicted
  · simp at evicted

theorem Coherent.call {history : QueueHistory Payload} (coherent : history.Coherent)
    (next : QueueCall Payload) : (history.call next).Coherent := by
  cases next with
  | syncChannel channelId pulled accepted =>
      rcases pulled with _ | _
      · exact coherent
      · rcases accepted with _ | accepted
        · exact coherent
        · exact coherent.acknowledge channelId
  | queueOffline channelId event payload now =>
      refine ⟨?_, ?_, ?_, ?_, ?_, ?_⟩
      · intro entry entryMem
        simp only [QueueHistory.call, OfflineQueue.mem_enqueue, List.mem_append,
          List.mem_singleton] at entryMem ⊢
        exact entryMem.imp_left fun old => coherent.stored entry old.1
      · intro entry entryMem
        simp only [QueueHistory.call, OfflineQueue.mem_enqueue, List.mem_append,
          not_or] at entryMem ⊢
        rcases entryMem with ⟨old, kept⟩ | rfl
        · exact ⟨coherent.notEvicted entry old, kept⟩
        · -- the new key is beyond every key that was ever evicted
          constructor
          · intro evicted
            have := coherent.generated _ (coherent.evictedQueued _ evicted)
            simp [QueueStore.newEntry] at this
          · intro evicted
            have := history.store.generated _ (mem_of_mem_evicts evicted)
            simp [QueueStore.newEntry] at this
      · intro entry entryMem
        simp only [QueueHistory.call, OfflineQueue.mem_enqueue] at entryMem
        rcases entryMem with ⟨old, _⟩ | rfl
        · exact coherent.unpushed entry old
        · exact coherent.pushesOf_newEntry channelId event payload now
      · intro entry entryMem
        simp only [QueueHistory.call, List.mem_append, List.mem_singleton,
          OfflineQueue.nextId_enqueue] at entryMem ⊢
        rcases entryMem with old | rfl
        · have := coherent.generated entry old
          omega
        · simp [QueueStore.newEntry]
      · intro entry entryMem
        simp only [QueueHistory.call, List.mem_append, List.mem_singleton] at entryMem ⊢
        rcases entryMem with old | now
        · exact Or.inl (coherent.evictedQueued entry old)
        · exact Or.inl (coherent.stored entry (mem_of_mem_evicts now))
      · intro push pushMem entry entryMem
        simp only [QueueHistory.call, List.mem_append]
        exact Or.inl (coherent.pushedQueued push pushMem entry entryMem)

theorem Coherent.run {history : QueueHistory Payload} (coherent : history.Coherent)
    (calls : List (QueueCall Payload)) : (history.run calls).Coherent := by
  induction calls generalizing history with
  | nil => exact coherent
  | cons next rest ih => exact ih (coherent.call next)

theorem Accounted.acknowledge {history : QueueHistory Payload} (coherent : history.Coherent)
    (accounted : history.Accounted) {channelId : String}
    (ownOnly : ∀ last, (channelDeltas history.store channelId).getLast? = some last →
      ∀ entry ∈ history.store.entries, entry.id ≤ last.id → entry.channelId = channelId) :
    (history.acknowledge channelId).Accounted := by
  unfold QueueHistory.acknowledge
  split
  · exact accounted
  · next last lastEq =>
      intro entry entryMem kept
      rw [pushesOf_push]
      rcases accounted entry entryMem kept with stored | pushed
      · by_cases beyond : last.id < entry.id
        · exact Or.inl (QueueStore.mem_clearQueue.mpr ⟨stored, beyond⟩)
        · have own := ownOnly last lastEq entry stored (by omega)
          have batched := mem_channelDeltas_of_id_le lastEq stored (by omega) own
          right
          rw [coherent.unpushed entry stored, if_pos batched, own, List.nil_append]
      · right
        rw [pushed, if_neg, List.append_nil]
        intro batched
        have := coherent.unpushed entry (mem_of_mem_channelDeltas batched).1
        simp [pushed] at this

/-- An accounted history stays accounted through a call that acknowledges no entry
of another channel. -/
theorem Accounted.call {history : QueueHistory Payload} (coherent : history.Coherent)
    (accounted : history.Accounted) {next : QueueCall Payload}
    (ownOnly : history.AcksOwnOnly next) : (history.call next).Accounted := by
  cases next with
  | syncChannel channelId pulled accepted =>
      rcases pulled with _ | _
      · exact accounted
      · rcases accepted with _ | accepted
        · exact accounted
        · exact accounted.acknowledge coherent ownOnly
  | queueOffline channelId event payload now =>
      intro entry entryMem kept
      simp only [QueueHistory.call, List.mem_append, List.mem_singleton, not_or,
        OfflineQueue.mem_enqueue] at entryMem kept ⊢
      rcases entryMem with old | rfl
      · rcases accounted entry old kept.1 with stored | pushed
        · exact Or.inl (Or.inl ⟨stored, kept.2⟩)
        · exact Or.inr pushed
      · exact Or.inl (Or.inr rfl)

/-- A call that acknowledges an entry of another channel loses it. -/
theorem acksOwnOnly_of_accounted {history : QueueHistory Payload} (coherent : history.Coherent)
    {next : QueueCall Payload} (accounted : (history.call next).Accounted) :
    history.AcksOwnOnly next := by
  cases next with
  | queueOffline => trivial
  | syncChannel channelId pulled accepted =>
      rcases pulled with _ | _
      · trivial
      · rcases accepted with _ | accepted
        · trivial
        · intro last lastEq entry stored before
          by_contra foreign
          simp only [QueueHistory.call, QueueHistory.acknowledge, lastEq] at accounted
          have lost := accounted entry (coherent.stored entry stored)
            (coherent.notEvicted entry stored)
          rw [pushesOf_push, coherent.unpushed entry stored, if_neg] at lost
          · rcases lost with kept | pushed
            · have := (QueueStore.mem_clearQueue.mp kept).2
              omega
            · simp at pushed
          · intro batched
            exact foreign (mem_of_mem_channelDeltas batched).2

omit [DecidableEq Payload] in
theorem run_append (history : QueueHistory Payload) (earlier later : List (QueueCall Payload)) :
    history.run (earlier ++ later) = (history.run earlier).run later :=
  List.foldl_append

end QueueHistory

open QueueHistory

/-- Every point of a run of calls is accounted exactly when no call of the run
acknowledges an entry of another channel. -/
theorem accounted_iff_acksOwnOnly (store : QueueStore Payload)
    (calls : List (QueueCall Payload)) :
    (∀ earlier later, calls = earlier ++ later → ((start store).run earlier).Accounted) ↔
      ∀ earlier next later, calls = earlier ++ next :: later →
        ((start store).run earlier).AcksOwnOnly next := by
  have coherent : ∀ earlier, ((start store).run earlier).Coherent :=
    fun earlier => (coherent_start store).run earlier
  constructor
  · intro accounted earlier next later split
    apply acksOwnOnly_of_accounted (coherent earlier)
    have after := accounted (earlier ++ [next]) later (by simp [split])
    rwa [run_append] at after
  · intro ownOnly earlier
    -- the calls made so far, from the last one back
    induction earlier using List.reverseRecOn with
    | nil =>
        intro later _ entry entryMem _
        exact Or.inl entryMem
    | append_singleton earlier next ih =>
        intro later split
        have split' : calls = earlier ++ next :: later := by simp [split]
        rw [run_append]
        exact (ih (next :: later) split').call (coherent earlier)
          (ownOnly earlier next later split')

/-- One push of channel "b" drops the entry that channel "a" queued before. -/
theorem queued_entry_lost :
    ¬∀ (store : QueueStore Unit) (calls earlier later : List (QueueCall Unit)),
      calls = earlier ++ later → ((start store).run earlier).Accounted := by
  intro accounted
  have lost := accounted .empty
    [.queueOffline "a" "msg:send" () 1, .queueOffline "b" "msg:send" () 2,
      .syncChannel "b" true (some 1)] _ [] (List.append_nil _).symm
  have entryLost := lost ⟨1, "a", "msg:send", (), 1⟩ (by decide) (by decide)
  revert entryLost
  decide

end Mercury.Sdk
