import Mathlib.Data.List.Forall2
import Mercury.Foundations.BoundedFifo
import Mercury.Foundations.Machine
import Mercury.Sdk.OfflineQueue

/-!
# The offline queue as a bounded queue

`OfflineQueue` over its object store answers every sequence of calls as a bounded
queue of the queued contents does (`offlineQueue_refines`). A call of `ack` names an
entry that an earlier `drain` returned: the object store knows it by its id, the
bounded queue by its place.
-/

namespace Mercury.Sdk

open Foundations

/-- What is queued, without the id. -/
structure Outgoing (Payload : Type) where
  channelId : String
  event : String
  payload : Payload
  createdAt : ℕ
deriving DecidableEq

variable {Payload : Type}

def QueuedMessage.outgoing (entry : QueuedMessage Payload) : Outgoing Payload where
  channelId := entry.channelId
  event := entry.event
  payload := entry.payload
  createdAt := entry.createdAt

/-- A call that is awaited before the next one. -/
inductive QueueRequest (Payload : Type) where
  | enqueue (outgoing : Outgoing Payload)
  | drain
  /-- Of the entries returned so far by `drain`, counted from 0, this one is acknowledged. -/
  | ack (number : ℕ)
  | size

inductive QueueReply (Payload : Type) where
  | done
  | drained (batch : List (Outgoing Payload))
  | counted (size : ℕ)
deriving DecidableEq

open OfflineQueue (maxQueueSize drainBatchSize)

/-- The offline queue, with the entries that `drain` has returned. -/
def offlineQueue (Payload : Type) : Machine (QueueRequest Payload) (QueueReply Payload) where
  State := QueueStore Payload × List (QueuedMessage Payload)
  start := (QueueStore.empty, [])
  step
    | (store, returned), .enqueue outgoing =>
        ((OfflineQueue.enqueue store outgoing.channelId outgoing.event outgoing.payload
          outgoing.createdAt, returned), .done)
    | (store, returned), .drain =>
        ((store, returned ++ OfflineQueue.drain store),
          .drained ((OfflineQueue.drain store).map QueuedMessage.outgoing))
    | (store, returned), .ack number =>
        match returned[number]? with
        | some entry => ((OfflineQueue.ack store entry.id, returned), .done)
        | none => ((store, returned), .done)
    | (store, returned), .size => ((store, returned), .counted (OfflineQueue.size store))

/-- The bounded queue, with the places of the items that `drain` has returned. -/
def boundedQueue (Payload : Type) : Machine (QueueRequest Payload) (QueueReply Payload) where
  State := BoundedFifo (Outgoing Payload) × List ℕ
  start := (BoundedFifo.empty, [])
  step
    | (fifo, returned), .enqueue outgoing =>
        ((fifo.enqueue maxQueueSize outgoing, returned), .done)
    | (fifo, returned), .drain =>
        ((fifo, returned ++ fifo.places drainBatchSize),
          .drained (fifo.queue.take drainBatchSize))
    | (fifo, returned), .ack number =>
        match returned[number]? with
        | some place =>
            if known : place < fifo.enqueued.length then ((fifo.ack place known, returned), .done)
            else ((fifo, returned), .done)
        | none => ((fifo, returned), .done)
    | (fifo, returned), .size => ((fifo, returned), .counted fifo.size)

/-- `history` lists every entry that was ever in the store: the store has those of the
queue, and what was returned is at the places that were returned. -/
structure Represents (history : List (QueuedMessage Payload)) (state : (offlineQueue Payload).State)
    (other : (boundedQueue Payload).State) : Prop where
  contents : other.1.enqueued = history.map QueuedMessage.outgoing
  entries : state.1.entries = history.drop other.1.removed
  ascending : history.Pairwise fun left right => left.id < right.id
  generated : ∀ entry ∈ history, entry.id < state.1.nextId
  returned : List.Forall₂ (fun entry place => history[place]? = some entry) state.2 other.2

namespace Represents

variable {history : List (QueuedMessage Payload)} {store : QueueStore Payload}
  {fifo : BoundedFifo (Outgoing Payload)} {returned : List (QueuedMessage Payload)}
  {places : List ℕ}

theorem queue_eq (represents : Represents history (store, returned) (fifo, places)) :
    fifo.queue = store.entries.map QueuedMessage.outgoing := by
  rw [BoundedFifo.queue, represents.contents, represents.entries, List.map_drop]

theorem size_eq (represents : Represents history (store, returned) (fifo, places)) :
    fifo.size = store.entries.length := by
  rw [BoundedFifo.size, represents.queue_eq, List.length_map]

theorem enqueue (represents : Represents history (store, returned) (fifo, places))
    (outgoing : Outgoing Payload) :
    Represents
      (history ++ [store.newEntry outgoing.channelId outgoing.event outgoing.payload
        outgoing.createdAt])
      ((offlineQueue Payload).step (store, returned) (.enqueue outgoing)).1
      ((boundedQueue Payload).step (fifo, places) (.enqueue outgoing)).1 := by
  have contentsEq : fifo.enqueued = history.map QueuedMessage.outgoing := represents.contents
  have entriesEq : store.entries = history.drop fifo.removed := represents.entries
  have sizeEq := represents.size_eq
  have removed_le := fifo.removed_le
  rw [contentsEq, List.length_map] at removed_le
  refine ⟨?_, ?_, ?_, ?_, ?_⟩
  · simp only [boundedQueue, BoundedFifo.enqueue, contentsEq, List.map_append]
    rfl
  · simp only [offlineQueue, boundedQueue, BoundedFifo.enqueue, OfflineQueue.entries_enqueue,
      sizeEq]
    split
    · next full =>
        have longer : fifo.removed + 1 ≤ history.length := by
          have lengths := congrArg List.length entriesEq
          rw [List.length_drop] at lengths
          have : 0 < maxQueueSize := by decide
          omega
        rw [List.drop_append_of_le_length longer, entriesEq, List.tail_drop]
    · rw [List.drop_append_of_le_length removed_le, entriesEq]
  · rw [List.pairwise_append]
    refine ⟨represents.ascending, List.pairwise_singleton _ _, ?_⟩
    intro entry entryMem new newMem
    rw [List.mem_singleton.mp newMem]
    exact represents.generated entry entryMem
  · intro entry entryMem
    simp only [offlineQueue, OfflineQueue.nextId_enqueue]
    rcases List.mem_append.mp entryMem with earlier | new
    · exact Nat.lt_succ_of_lt (represents.generated entry earlier)
    · rw [List.mem_singleton.mp new]
      exact Nat.lt_succ_self _
  · apply represents.returned.imp
    intro entry place entryAt
    rw [List.getElem?_append_left]
    · exact entryAt
    · exact (List.getElem?_eq_some_iff.mp entryAt).1

/-- The entries that `drain` returns are those at the first places of the queue. -/
theorem drain (represents : Represents history (store, returned) (fifo, places)) :
    Represents history ((offlineQueue Payload).step (store, returned) .drain).1
      ((boundedQueue Payload).step (fifo, places) .drain).1 := by
  refine ⟨represents.contents, represents.entries, represents.ascending, represents.generated, ?_⟩
  apply List.rel_append represents.returned
  have entriesEq : store.entries = history.drop fifo.removed := represents.entries
  have lengths : (fifo.queue.take drainBatchSize).length =
      ((history.drop fifo.removed).take drainBatchSize).length := by
    rw [represents.queue_eq, entriesEq, List.length_take, List.length_take, List.length_map]
  rw [BoundedFifo.places, lengths, OfflineQueue.drain, QueueStore.dequeue, entriesEq]
  apply List.forall₂_iff_get.mpr
  constructor
  · rw [List.length_range']
  · intro index entryLt placeLt
    simp

theorem ack (represents : Represents history (store, returned) (fifo, places)) (number : ℕ) :
    Represents history ((offlineQueue Payload).step (store, returned) (.ack number)).1
      ((boundedQueue Payload).step (fifo, places) (.ack number)).1 := by
  rcases List.forall₂_iff_get.mp represents.returned with ⟨lengths, related⟩
  rcases Nat.lt_or_ge number returned.length with known | unknown
  · have placeKnown : number < places.length := lengths ▸ known
    have entryAt := related number known placeKnown
    simp only [List.get_eq_getElem] at entryAt
    have enqueued : places[number] < fifo.enqueued.length := by
      rw [show fifo.enqueued = history.map QueuedMessage.outgoing from represents.contents,
        List.length_map]
      exact (List.getElem?_eq_some_iff.mp entryAt).1
    simp only [offlineQueue, boundedQueue, List.getElem?_eq_getElem known,
      List.getElem?_eq_getElem placeKnown, dif_pos enqueued]
    refine ⟨represents.contents, ?_, represents.ascending, represents.generated,
      represents.returned⟩
    have entriesEq : store.entries = history.drop fifo.removed := represents.entries
    simp only [OfflineQueue.ack, QueueStore.clearQueue, BoundedFifo.ack, entriesEq]
    exact BoundedFifo.filter_drop_of_ascending represents.ascending entryAt fifo.removed
  · have placeUnknown : places.length ≤ number := lengths ▸ unknown
    simp only [offlineQueue, boundedQueue, List.getElem?_eq_none unknown,
      List.getElem?_eq_none placeUnknown]
    exact represents

end Represents

theorem simulation : Machine.Simulation (offlineQueue Payload) (boundedQueue Payload)
    fun state other => ∃ history, Represents history state other where
  start := ⟨[], rfl, rfl, List.Pairwise.nil, by simp, List.Forall₂.nil⟩
  step := by
    rintro ⟨store, returned⟩ ⟨fifo, places⟩ call ⟨history, represents⟩
    cases call with
    | enqueue outgoing => exact ⟨⟨_, represents.enqueue outgoing⟩, rfl⟩
    | drain =>
        refine ⟨⟨history, represents.drain⟩, ?_⟩
        simp only [offlineQueue, boundedQueue, OfflineQueue.drain, QueueStore.dequeue,
          represents.queue_eq, List.map_take]
    | ack number =>
        refine ⟨⟨history, represents.ack number⟩, ?_⟩
        simp only [offlineQueue, boundedQueue]
        split <;> split
        · split <;> rfl
        · rfl
        · split <;> rfl
        · rfl
    | size =>
        refine ⟨⟨history, represents⟩, ?_⟩
        simp only [offlineQueue, boundedQueue, OfflineQueue.size, QueueStore.queueSize,
          represents.size_eq]

def FitsQueue (other : (boundedQueue Payload).State) : Prop :=
  other.1.size ≤ maxQueueSize

theorem FitsQueue.step {other : (boundedQueue Payload).State} (call : QueueRequest Payload)
    (bounded : FitsQueue other) : FitsQueue ((boundedQueue Payload).step other call).1 := by
  rcases other with ⟨fifo, places⟩
  cases call with
  | enqueue outgoing => exact BoundedFifo.size_enqueue_le (by decide) bounded outgoing
  | drain => exact bounded
  | ack number =>
      simp only [boundedQueue]
      split
      · split
        · next known => exact Nat.le_trans (BoundedFifo.size_ack_le known) bounded
        · exact bounded
      · exact bounded
  | size => exact bounded

/-- The offline queue gives the answers of a bounded queue and holds its contents, which
are never more than fit. -/
theorem offlineQueue_refines (calls : List (QueueRequest Payload)) :
    (offlineQueue Payload).outputs calls = (boundedQueue Payload).outputs calls ∧
      ((offlineQueue Payload).after calls).1.entries.map QueuedMessage.outgoing =
        ((boundedQueue Payload).after calls).1.queue ∧
      OfflineQueue.size ((offlineQueue Payload).after calls).1 ≤ maxQueueSize := by
  rcases simulation.after calls with ⟨history, represents⟩
  have started : FitsQueue (boundedQueue Payload).start := Nat.zero_le _
  have bounded : ((boundedQueue Payload).after calls).1.size ≤ maxQueueSize :=
    Machine.afterFrom_invariant FitsQueue.step started calls
  have sameSize := represents.size_eq
  refine ⟨simulation.outputs calls, represents.queue_eq.symm, ?_⟩
  exact Nat.le_trans (Nat.le_of_eq sameSize.symm) bounded

end Mercury.Sdk
