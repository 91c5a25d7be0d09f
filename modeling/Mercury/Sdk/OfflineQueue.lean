import Mathlib.Data.List.Basic
import Mathlib.Order.Basic

/-!
# The offline queue

The `offlineQueue` object store of `LocalStore` and the `OfflineQueue` on top of
it. The object store has an auto-increment key, so its entries lie in the order
they were added and a cursor visits them in that order.
-/

namespace Mercury.Sdk

/-- A queued outbound message; the payload is whatever was queued. -/
structure QueuedMessage (Payload : Type) where
  id : ℕ
  channelId : String
  event : String
  payload : Payload
  createdAt : ℕ
deriving DecidableEq

/-- The `offlineQueue` object store: entries by ascending key, and the key generator. -/
structure QueueStore (Payload : Type) where
  entries : List (QueuedMessage Payload)
  nextId : ℕ
  ascending : entries.Pairwise fun left right => left.id < right.id
  generated : ∀ entry ∈ entries, entry.id < nextId

variable {Payload : Type}

namespace QueueStore

def empty : QueueStore Payload where
  entries := []
  nextId := 1
  ascending := List.Pairwise.nil
  generated := by simp

/-- The entry that `enqueue` adds: the key generator fills in the `id`. -/
def newEntry (store : QueueStore Payload) (channelId event : String) (payload : Payload)
    (createdAt : ℕ) : QueuedMessage Payload where
  id := store.nextId
  channelId := channelId
  event := event
  payload := payload
  createdAt := createdAt

def enqueue (store : QueueStore Payload) (channelId event : String) (payload : Payload)
    (createdAt : ℕ) : QueueStore Payload where
  entries := store.entries ++ [store.newEntry channelId event payload createdAt]
  nextId := store.nextId + 1
  ascending := by
    rw [List.pairwise_append]
    refine ⟨store.ascending, List.pairwise_singleton _ _, ?_⟩
    intro entry entryMem new newMem
    rw [List.mem_singleton] at newMem
    subst new
    exact store.generated entry entryMem
  generated := by
    intro entry entryMem
    rw [List.mem_append, List.mem_singleton] at entryMem
    rcases entryMem with old | rfl
    · exact Nat.lt_succ_of_lt (store.generated entry old)
    · exact Nat.lt_succ_self _

def dequeue (store : QueueStore Payload) (count : ℕ) : List (QueuedMessage Payload) :=
  store.entries.take count

def clearQueue (store : QueueStore Payload) (upToId : ℕ) : QueueStore Payload where
  entries := store.entries.filter fun entry => upToId < entry.id
  nextId := store.nextId
  ascending := store.ascending.filter _
  generated := fun entry entryMem => store.generated entry (List.mem_of_mem_filter entryMem)

def queueSize (store : QueueStore Payload) : ℕ :=
  store.entries.length

theorem mem_clearQueue {store : QueueStore Payload} {upToId : ℕ} {entry : QueuedMessage Payload} :
    entry ∈ (store.clearQueue upToId).entries ↔ entry ∈ store.entries ∧ upToId < entry.id := by
  simp [clearQueue]

theorem mem_enqueue {store : QueueStore Payload} {channelId event : String} {payload : Payload}
    {createdAt : ℕ} {entry : QueuedMessage Payload} :
    entry ∈ (store.enqueue channelId event payload createdAt).entries ↔
      entry ∈ store.entries ∨ entry = store.newEntry channelId event payload createdAt := by
  simp [enqueue]

/-- Clearing up to the oldest entry takes out that one. -/
theorem entries_clearQueue_oldest {store : QueueStore Payload} {oldest : QueuedMessage Payload}
    {rest : List (QueuedMessage Payload)} (split : store.entries = oldest :: rest) :
    (store.clearQueue oldest.id).entries = rest := by
  have ordered := store.ascending
  rw [split, List.pairwise_cons] at ordered
  simp only [clearQueue, split]
  rw [List.filter_cons_of_neg (by simp), List.filter_eq_self]
  intro entry entryMem
  exact decide_eq_true (ordered.1 entry entryMem)

/-- What precedes a dequeued entry is dequeued with it. -/
theorem mem_dequeue_of_id_le {store : QueueStore Payload} {count : ℕ}
    {entry last : QueuedMessage Payload} (lastMem : last ∈ store.dequeue count)
    (entryMem : entry ∈ store.entries) (before : entry.id ≤ last.id) :
    entry ∈ store.dequeue count := by
  have ordered := store.ascending
  rw [← List.take_append_drop count store.entries] at ordered entryMem
  rcases List.mem_append.mp entryMem with taken | dropped
  · exact taken
  · have := (List.pairwise_append.mp ordered).2.2 last lastMem entry dropped
    omega

end QueueStore

namespace OfflineQueue

def maxQueueSize : ℕ := 10000

def drainBatchSize : ℕ := 100

/-- The entries `enqueue` evicts to make room: the oldest one, at capacity. -/
def evicts (store : QueueStore Payload) : List (QueuedMessage Payload) :=
  if maxQueueSize ≤ store.queueSize then store.dequeue 1 else []

def enqueue (store : QueueStore Payload) (channelId event : String) (payload : Payload)
    (now : ℕ) : QueueStore Payload :=
  let store := match evicts store with
    | [] => store
    | oldest :: _ => store.clearQueue oldest.id
  store.enqueue channelId event payload now

def drain (store : QueueStore Payload) : List (QueuedMessage Payload) :=
  store.dequeue drainBatchSize

def ack (store : QueueStore Payload) (upToId : ℕ) : QueueStore Payload :=
  store.clearQueue upToId

def size (store : QueueStore Payload) : ℕ :=
  store.queueSize

theorem evicts_of_full {store : QueueStore Payload} (full : maxQueueSize ≤ store.queueSize)
    {oldest : QueuedMessage Payload} {rest : List (QueuedMessage Payload)}
    (split : store.entries = oldest :: rest) : evicts store = [oldest] := by
  rw [evicts, if_pos full, QueueStore.dequeue, split]
  rfl

theorem entries_enqueue (store : QueueStore Payload) (channelId event : String)
    (payload : Payload) (now : ℕ) :
    (enqueue store channelId event payload now).entries =
      (if maxQueueSize ≤ store.entries.length then store.entries.tail else store.entries) ++
        [store.newEntry channelId event payload now] := by
  by_cases full : maxQueueSize ≤ store.entries.length
  · rcases split : store.entries with _ | ⟨oldest, rest⟩
    · rw [split] at full
      exact absurd full (by simp [maxQueueSize])
    · have cleared := QueueStore.entries_clearQueue_oldest split
      rw [← split, if_pos full, split, enqueue, evicts_of_full full split]
      simp only [QueueStore.enqueue, cleared, List.tail_cons]
      rfl
  · have kept : evicts store = [] := if_neg full
    rw [enqueue, kept, if_neg full]
    rfl

theorem nextId_enqueue (store : QueueStore Payload) (channelId event : String)
    (payload : Payload) (now : ℕ) :
    (enqueue store channelId event payload now).nextId = store.nextId + 1 := by
  unfold enqueue
  rcases evicts store with _ | ⟨oldest, rest⟩ <;> rfl

/-- Eviction takes out exactly the evicted entries. -/
theorem mem_enqueue {store : QueueStore Payload} {channelId event : String} {payload : Payload}
    {now : ℕ} {entry : QueuedMessage Payload} :
    entry ∈ (enqueue store channelId event payload now).entries ↔
      (entry ∈ store.entries ∧ entry ∉ evicts store) ∨
        entry = store.newEntry channelId event payload now := by
  rw [entries_enqueue, List.mem_append, List.mem_singleton]
  apply or_congr_left
  by_cases full : maxQueueSize ≤ store.entries.length
  · rw [if_pos full]
    rcases split : store.entries with _ | ⟨oldest, rest⟩
    · simp
    · have ordered := store.ascending
      rw [split, List.pairwise_cons] at ordered
      rw [evicts_of_full full split, List.tail_cons, List.mem_cons, List.mem_singleton]
      constructor
      · intro entryMem
        refine ⟨.inr entryMem, ?_⟩
        rintro rfl
        exact Nat.lt_irrefl _ (ordered.1 entry entryMem)
      · rintro ⟨first | later, different⟩
        · exact absurd first different
        · exact later
  · have kept : evicts store = [] := if_neg full
    simp [kept, full]

end OfflineQueue

end Mercury.Sdk
