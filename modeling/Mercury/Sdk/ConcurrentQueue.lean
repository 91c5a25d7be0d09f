import Mathlib.Logic.Function.Iterate
import Mercury.Foundations.Interleaving
import Mercury.Sdk.OfflineQueue

/-!
# Concurrent calls of the offline queue

`OfflineQueue.enqueue` awaits up to four transactions of `LocalStore`: it reads the size
and, at capacity, the oldest entry, clears up to that one, and adds the new entry. Calls
that are made without awaiting each other take turns at these transactions. They keep
to the bound of the queue if there is only one of them, or room for all of them
(`keepsBound_iff`).
-/

namespace Mercury.Sdk

open Foundations Foundations.Program
open OfflineQueue (maxQueueSize)

variable {Payload : Type}

inductive Transaction (Payload : Type) where
  | queueSize
  | dequeue (count : ℕ)
  | clearQueue (upToId : ℕ)
  | enqueue (channelId event : String) (payload : Payload)

abbrev transactions (Payload : Type) : Interface where
  Call := Transaction Payload
  Answer
    | .queueSize => ℕ
    | .dequeue _ => List (QueuedMessage Payload)
    | .clearQueue _ => Unit
    | .enqueue .. => Unit

/-- A function of the offline queue, down to its transactions. -/
abbrev Transacted (Payload Result : Type) : Type :=
  Program (transactions Payload) String Result

def transact (asked : Transaction Payload) :
    Transacted Payload ((transactions Payload).Answer asked) :=
  @perform (transactions Payload) String asked

/-- How a transaction goes: it fails without an effect, or is carried out at a time. -/
structure Turn where
  failure : Option String
  now : ℕ

def carryOut (now : ℕ) (store : QueueStore Payload) :
    (asked : Transaction Payload) → (transactions Payload).Answer asked × QueueStore Payload
  | .queueSize => (store.queueSize, store)
  | .dequeue count => (store.dequeue count, store)
  | .clearQueue upToId => ((), store.clearQueue upToId)
  | .enqueue channelId event payload => ((), store.enqueue channelId event payload now)

def localStore : Environment (transactions Payload) String (QueueStore Payload) Turn :=
  fun turn store asked =>
    match turn.failure with
    | some reason => (.error reason, store)
    | none => (.ok (carryOut turn.now store asked).1, (carryOut turn.now store asked).2)

structure EnqueueCall (Payload : Type) where
  channelId : String
  event : String
  payload : Payload

namespace EnqueueCall

def evictOldest : Transacted Payload Unit := do
  let oldest ← transact (.dequeue 1)
  match oldest with
  | [] => pure ()
  | first :: _ => transact (.clearQueue first.id)

def makeRoom (size : ℕ) : Transacted Payload Unit :=
  if maxQueueSize ≤ size then evictOldest else pure ()

variable (request : EnqueueCall Payload)

def addEntry : Transacted Payload Unit :=
  transact (.enqueue request.channelId request.event request.payload)

/-- `OfflineQueue.enqueue`. -/
def enqueue : Transacted Payload Unit := do
  let size ← transact .queueSize
  makeRoom size
  request.addEntry

/-- The rest of a call at capacity, from the lookup of the oldest entry. -/
def evicting : Transacted Payload Unit := do
  evictOldest
  request.addEntry

/-- The rest of a call, from the deletion of the entries up to the one it has looked up. -/
def clearing (oldestId : ℕ) : Transacted Payload Unit := do
  transact (.clearQueue oldestId)
  request.addEntry

def afterSize : Except String ℕ → Transacted Payload Unit
  | .ok size => if maxQueueSize ≤ size then request.evicting else request.addEntry
  | .error reason => .fail reason

def afterOldest : Except String (List (QueuedMessage Payload)) → Transacted Payload Unit
  | .ok [] => request.addEntry
  | .ok (first :: _) => request.clearing first.id
  | .error reason => .fail reason

def afterClear : Except String Unit → Transacted Payload Unit
  | .ok _ => request.addEntry
  | .error reason => .fail reason

theorem enqueue_eq : request.enqueue = .call .queueSize request.afterSize := by
  refine congrArg (@Program.call (transactions Payload) String Unit _) (funext ?_)
  rintro (reason | size)
  · rfl
  · change (makeRoom size >>= fun _ => request.addEntry) = request.afterSize (.ok size)
    rw [makeRoom, afterSize]
    split <;> rfl

theorem evicting_eq : request.evicting = .call (.dequeue 1) request.afterOldest := by
  refine congrArg (@Program.call (transactions Payload) String Unit _) (funext ?_)
  rintro (reason | _ | ⟨first, rest⟩) <;> rfl

theorem clearing_eq (oldestId : ℕ) :
    request.clearing oldestId = .call (.clearQueue oldestId) request.afterClear := by
  refine congrArg (@Program.call (transactions Payload) String Unit _) (funext ?_)
  rintro (reason | _) <;> rfl

theorem addEntry_eq :
    request.addEntry = .call (.enqueue request.channelId request.event request.payload)
      .ofExcept := by
  refine congrArg (@Program.call (transactions Payload) String Unit _) (funext ?_)
  rintro (reason | _) <;> rfl

/-- A call that no other call interrupts is the one of the sequential queue. -/
theorem execute_enqueue (store : QueueStore Payload) (now : ℕ) :
    (request.enqueue.execute localStore (fun _ => ⟨none, now⟩) store).outcome = .ok () ∧
      (request.enqueue.execute localStore (fun _ => ⟨none, now⟩) store).world =
        OfflineQueue.enqueue store request.channelId request.event request.payload now := by
  rw [enqueue_eq, OfflineQueue.enqueue]
  by_cases full : maxQueueSize ≤ store.queueSize
  · have evicts : OfflineQueue.evicts store = store.dequeue 1 := if_pos full
    rcases oldest : store.dequeue 1 with _ | ⟨first, rest⟩
    · simp [execute, localStore, carryOut, afterSize, full, evicting_eq, afterOldest, oldest,
        addEntry_eq, evicts, Program.ofExcept, dropInputs]
    · simp [execute, localStore, carryOut, afterSize, full, evicting_eq, afterOldest, oldest,
        clearing_eq, afterClear, addEntry_eq, evicts, Program.ofExcept, dropInputs]
  · have evicts : OfflineQueue.evicts store = [] := if_neg full
    simp [execute, localStore, carryOut, afterSize, full, addEntry_eq, evicts, Program.ofExcept,
      dropInputs]

end EnqueueCall

abbrev QueuePool (Payload : Type) : Type :=
  Pool (transactions Payload) String Unit (QueueStore Payload)

/-- Calls none of which has read the size yet. -/
def calling (store : QueueStore Payload) (requests : List (EnqueueCall Payload)) :
    QueuePool Payload where
  world := store
  programs := requests.map EnqueueCall.enqueue

def EvictsWhenFull (source target : QueuePool Payload) : Prop :=
  (∃ entry ∈ source.world.entries, entry ∉ target.world.entries) →
    maxQueueSize ≤ source.world.queueSize

/-- However the calls take turns, the queue has never more entries than fit, and none of
them is taken out while there is room. -/
def KeepsBound (store : QueueStore Payload) (requests : List (EnqueueCall Payload)) : Prop :=
  ∀ labels reached, Run (Pool.Step localStore) (calling store requests) labels reached →
    reached.world.queueSize ≤ maxQueueSize ∧
      ∀ label target, Pool.Step localStore reached label target → EvictsWhenFull reached target

theorem KeepsBound.of_invariant {Invariant : QueuePool Payload → Prop}
    (preserved : ∀ {source label target}, Invariant source →
      Pool.Step localStore source label target →
        Invariant target ∧ EvictsWhenFull source target)
    (bounded : ∀ {pool}, Invariant pool → pool.world.queueSize ≤ maxQueueSize)
    {store : QueueStore Payload} {requests : List (EnqueueCall Payload)}
    (initially : Invariant (calling store requests)) : KeepsBound store requests := by
  intro labels reached run
  have kept : ∀ {source label target}, Invariant source →
      Pool.Step localStore source label target → Invariant target := by
    intro source label target inv step
    exact (preserved inv step).1
  have holds := @Run.invariant _ _ _ Invariant kept _ _ _ run initially
  exact ⟨bounded holds, fun label target step => (preserved holds step).2⟩

theorem EvictsWhenFull.of_subset {source target : QueuePool Payload}
    (kept : source.world.entries ⊆ target.world.entries) : EvictsWhenFull source target := by
  rintro ⟨entry, entryMem, gone⟩
  exact absurd (kept entryMem) gone

section RoomForAll

/-- A call that does not evict. -/
def AddsOnly (program : Transacted Payload Unit) : Prop :=
  program.ended = true ∨ ∃ request : EnqueueCall Payload,
    program = request.enqueue ∨ program = request.addEntry

structure RoomForAll (pool : QueuePool Payload) : Prop where
  programs : ∀ program ∈ pool.programs, AddsOnly program
  room : pool.world.queueSize + pool.unfinished ≤ maxQueueSize

variable {store grown : QueueStore Payload} {before after : List (Transacted Payload Unit)}
  {program rest : Transacted Payload Unit}

theorem RoomForAll.replace (inv : RoomForAll ⟨store, before ++ program :: after⟩)
    (unfinished : program.ended = false) (addsOnly : AddsOnly rest)
    (growth : grown.queueSize + (if rest.ended then 0 else 1) ≤ store.queueSize + 1) :
    RoomForAll ⟨grown, before ++ rest :: after⟩ := by
  rcases inv with ⟨programs, room⟩
  rw [List.forall_mem_append, List.forall_mem_cons] at programs
  rw [Pool.unfinished_split, unfinished] at room
  simp only [Bool.false_eq_true, if_false] at room
  constructor
  · rw [List.forall_mem_append, List.forall_mem_cons]
    exact ⟨programs.1, addsOnly, programs.2.2⟩
  · rw [Pool.unfinished_split]
    simp only
    omega

theorem RoomForAll.step {source target : QueuePool Payload} {label : ℕ × Turn}
    (inv : RoomForAll source) (step : Pool.Step localStore source label target) :
    RoomForAll target ∧ EvictsWhenFull source target := by
  rcases step with @⟨store, before, after, ⟨failure, now⟩, asked, next⟩
  rcases inv.programs (.call asked next) (by simp) with finished | ⟨request, sizing | adding⟩
  · simp [ended] at finished
  · rw [EnqueueCall.enqueue_eq] at sizing
    cases sizing
    have notFull : ¬maxQueueSize ≤ store.queueSize := by
      have room := inv.room
      rw [Pool.unfinished_split] at room
      simp only [ended, Bool.false_eq_true, if_false] at room
      omega
    rcases failure with _ | reason
    · refine ⟨inv.replace rfl (.inr ⟨request, .inr ?_⟩) ?_, .of_subset (List.Subset.refl _)⟩
      · exact if_neg notFull
      · split <;> simp [localStore, carryOut]
    · exact ⟨inv.replace rfl (.inl rfl) (Nat.le_succ _), .of_subset (List.Subset.refl _)⟩
  · rw [EnqueueCall.addEntry_eq] at adding
    cases adding
    rcases failure with _ | reason
    · refine ⟨inv.replace rfl (.inl rfl) ?_, .of_subset (List.subset_append_left _ _)⟩
      simp [localStore, carryOut, QueueStore.enqueue, QueueStore.queueSize]
    · exact ⟨inv.replace rfl (.inl rfl) (Nat.le_succ _), .of_subset (List.Subset.refl _)⟩

end RoomForAll

theorem keepsBound_of_room {store : QueueStore Payload} {requests : List (EnqueueCall Payload)}
    (room : store.queueSize + requests.length ≤ maxQueueSize) : KeepsBound store requests := by
  apply KeepsBound.of_invariant RoomForAll.step
  · intro pool inv
    exact Nat.le_trans (Nat.le_add_right _ _) inv.room
  · constructor
    · intro program programMem
      rcases List.mem_map.mp programMem with ⟨request, -, rfl⟩
      exact .inr ⟨request, .inl rfl⟩
    · refine Nat.le_trans (Nat.add_le_add_left ?_ _) room
      have counted := @List.countP_le_length _ (fun program => !program.ended)
        (requests.map EnqueueCall.enqueue)
      rw [List.length_map] at counted
      exact counted

section SingleCall

/-- What the only call in progress may rely on in the store. -/
inductive Alone (store : QueueStore Payload) : Transacted Payload Unit → Prop where
  | sizing (request : EnqueueCall Payload) (bounded : store.queueSize ≤ maxQueueSize) :
      Alone store request.enqueue
  | evicting (request : EnqueueCall Payload) (full : store.queueSize = maxQueueSize) :
      Alone store request.evicting
  | clearing (request : EnqueueCall Payload) {oldest : QueuedMessage Payload}
      {others : List (QueuedMessage Payload)} (split : store.entries = oldest :: others)
      (full : store.queueSize = maxQueueSize) : Alone store (request.clearing oldest.id)
  | adding (request : EnqueueCall Payload) (room : store.queueSize < maxQueueSize) :
      Alone store request.addEntry
  | finished {program : Transacted Payload Unit} (ended : program.ended = true)
      (bounded : store.queueSize ≤ maxQueueSize) : Alone store program

variable {store : QueueStore Payload} {program : Transacted Payload Unit}

theorem Alone.bounded (alone : Alone store program) : store.queueSize ≤ maxQueueSize := by
  cases alone with
  | sizing _ bounded => exact bounded
  | evicting _ full => exact Nat.le_of_eq full
  | clearing _ _ full => exact Nat.le_of_eq full
  | adding _ room => exact Nat.le_of_lt room
  | finished _ bounded => exact bounded

/-- A call that fails leaves the store as it was. -/
theorem Alone.failed (alone : Alone store program) (reason : String) :
    Alone store (.fail reason) :=
  .finished rfl alone.bounded

theorem Alone.after_size (request : EnqueueCall Payload)
    (bounded : store.queueSize ≤ maxQueueSize) :
    Alone store (request.afterSize (.ok store.queueSize)) := by
  rw [EnqueueCall.afterSize]
  split
  · next full => exact .evicting request (Nat.le_antisymm bounded full)
  · next room => exact .adding request (Nat.lt_of_not_le room)

theorem Alone.after_oldest (request : EnqueueCall Payload)
    (full : store.queueSize = maxQueueSize) :
    Alone store (request.afterOldest (.ok (store.dequeue 1))) := by
  rcases split : store.entries with _ | ⟨oldest, others⟩
  · rw [QueueStore.queueSize, split] at full
    cases full
  · rw [QueueStore.dequeue, split]
    exact .clearing request split full

theorem Alone.after_clear (request : EnqueueCall Payload) {oldest : QueuedMessage Payload}
    {others : List (QueuedMessage Payload)} (split : store.entries = oldest :: others)
    (full : store.queueSize = maxQueueSize) :
    Alone (store.clearQueue oldest.id) request.addEntry := by
  apply Alone.adding
  rw [QueueStore.queueSize, QueueStore.entries_clearQueue_oldest split]
  rw [QueueStore.queueSize, split, List.length_cons] at full
  omega

theorem Alone.step {asked : Transaction Payload}
    {next : Except String ((transactions Payload).Answer asked) → Transacted Payload Unit}
    (alone : Alone store (.call asked next)) (turn : Turn) :
    Alone (localStore turn store asked).2 (next (localStore turn store asked).1) ∧
      ((∃ entry ∈ store.entries, entry ∉ (localStore turn store asked).2.entries) →
        maxQueueSize ≤ store.queueSize) := by
  have failed := alone.failed
  have unchanged : (∃ entry ∈ store.entries, entry ∉ store.entries) →
      maxQueueSize ≤ store.queueSize := by
    rintro ⟨entry, entryMem, gone⟩
    exact absurd entryMem gone
  generalize current : @Program.call (transactions Payload) String Unit asked next = program
    at alone
  cases alone with
  | sizing request bounded =>
      rw [EnqueueCall.enqueue_eq] at current
      cases current
      rcases turn with ⟨_ | reason, now⟩
      · exact ⟨Alone.after_size request bounded, unchanged⟩
      · exact ⟨failed reason, unchanged⟩
  | evicting request full =>
      rw [EnqueueCall.evicting_eq] at current
      cases current
      rcases turn with ⟨_ | reason, now⟩
      · exact ⟨Alone.after_oldest request full, unchanged⟩
      · exact ⟨failed reason, unchanged⟩
  | clearing request split full =>
      rw [EnqueueCall.clearing_eq] at current
      cases current
      rcases turn with ⟨_ | reason, now⟩
      · exact ⟨Alone.after_clear request split full, fun _ => Nat.le_of_eq full.symm⟩
      · exact ⟨failed reason, unchanged⟩
  | adding request room =>
      rw [EnqueueCall.addEntry_eq] at current
      cases current
      rcases turn with ⟨_ | reason, now⟩
      · constructor
        · apply Alone.finished rfl
          simp only [localStore, carryOut, QueueStore.enqueue, QueueStore.queueSize,
            List.length_append, List.length_singleton]
          exact room
        · rintro ⟨entry, entryMem, gone⟩
          exact absurd (List.mem_append_left _ entryMem) gone
      · exact ⟨failed reason, unchanged⟩
  | finished ended _ =>
      subst current
      cases ended

structure SingleCall (pool : QueuePool Payload) : Prop where
  bounded : pool.world.queueSize ≤ maxQueueSize
  single : pool.programs = [] ∨ ∃ program, pool.programs = [program] ∧ Alone pool.world program

theorem SingleCall.step {source target : QueuePool Payload} {label : ℕ × Turn}
    (inv : SingleCall source) (step : Pool.Step localStore source label target) :
    SingleCall target ∧ EvictsWhenFull source target := by
  rcases step with @⟨store, before, after, turn, asked, next⟩
  rcases inv.single with none | ⟨program, only, alone⟩
  · simp at none
  · rcases List.append_eq_singleton_iff.mp only with ⟨rfl, tailEq⟩ | ⟨-, absurdity⟩
    · simp only [List.cons.injEq] at tailEq
      rcases tailEq with ⟨rfl, rfl⟩
      rcases alone.step turn with ⟨later, evicts⟩
      exact ⟨⟨later.bounded, .inr ⟨_, rfl, later⟩⟩, evicts⟩
    · cases absurdity

end SingleCall

theorem keepsBound_of_single {store : QueueStore Payload} {requests : List (EnqueueCall Payload)}
    (bounded : store.queueSize ≤ maxQueueSize) (single : requests.length ≤ 1) :
    KeepsBound store requests := by
  apply KeepsBound.of_invariant SingleCall.step
  · intro pool inv
    exact inv.bounded
  · refine ⟨bounded, ?_⟩
    rcases requests with _ | ⟨request, _ | ⟨other, more⟩⟩
    · exact .inl rfl
    · exact .inr ⟨_, rfl, .sizing request bounded⟩
    · simp at single

section TwoCalls

variable {store grown : QueueStore Payload} {before after : List (Transacted Payload Unit)}
  {program rest : Transacted Payload Unit}

/-- A program that, on its turn, has this transaction carried out and goes on with `rest`. -/
abbrev Turns (store : QueueStore Payload) (program : Transacted Payload Unit)
    (grown : QueueStore Payload) (rest : Transacted Payload Unit) : Prop :=
  ∃ asked next, program = .call asked next ∧
    (carryOut 0 store asked).2 = grown ∧ next (.ok (carryOut 0 store asked).1) = rest

theorem Turns.step (turns : Turns store program grown rest) :
    Pool.Step localStore ⟨store, before ++ program :: after⟩ (before.length, ⟨none, 0⟩)
      ⟨grown, before ++ rest :: after⟩ := by
  rcases turns with ⟨asked, next, rfl, rfl, rfl⟩
  exact Pool.Step.performed

theorem Turns.step_second (turns : Turns store program grown rest)
    {other : Transacted Payload Unit} :
    Pool.Step localStore ⟨store, before ++ other :: program :: after⟩
      (before.length + 1, ⟨none, 0⟩) ⟨grown, before ++ other :: rest :: after⟩ := by
  have step := @Turns.step _ _ _ (before ++ [other]) after _ _ turns
  simpa using step

variable (request : EnqueueCall Payload)

theorem turns_sizing_room (room : store.queueSize < maxQueueSize) :
    Turns store request.enqueue store request.addEntry :=
  ⟨_, _, request.enqueue_eq, rfl, if_neg (Nat.not_le_of_lt room)⟩

theorem turns_sizing_full (full : maxQueueSize ≤ store.queueSize) :
    Turns store request.enqueue store request.evicting :=
  ⟨_, _, request.enqueue_eq, rfl, if_pos full⟩

theorem turns_evicting {oldest : QueuedMessage Payload} {others : List (QueuedMessage Payload)}
    (split : store.entries = oldest :: others) :
    Turns store request.evicting store (request.clearing oldest.id) := by
  refine ⟨_, _, request.evicting_eq, rfl, ?_⟩
  simp [carryOut, QueueStore.dequeue, split, EnqueueCall.afterOldest]

theorem turns_clearing (oldestId : ℕ) :
    Turns store (request.clearing oldestId) (store.clearQueue oldestId) request.addEntry :=
  ⟨_, _, request.clearing_eq oldestId, rfl, rfl⟩

theorem turns_adding :
    Turns store request.addEntry
      (store.enqueue request.channelId request.event request.payload 0) (.done ()) :=
  ⟨_, _, request.addEntry_eq, rfl, rfl⟩

/-- Two calls that both read the size before the last free place is taken. -/
theorem overflows (room : store.queueSize + 1 = maxQueueSize)
    (first second : EnqueueCall Payload) :
    ∃ labels reached,
      Run (Pool.Step localStore)
        ⟨store, before ++ first.enqueue :: second.enqueue :: after⟩ labels reached ∧
      reached.world.queueSize = maxQueueSize + 1 := by
  have free : store.queueSize < maxQueueSize := by omega
  apply Run.exists_cons (turns_sizing_room first free).step
  apply Run.exists_cons (turns_sizing_room second free).step_second
  apply Run.exists_cons (turns_adding first).step
  apply Run.exists_cons (turns_adding second).step_second
  refine ⟨[], _, Run.refl, ?_⟩
  rw [← room]
  simp [QueueStore.enqueue, QueueStore.queueSize]

/-- Two calls at capacity that both evict: the second one does so below capacity. -/
theorem evicts_early (full : store.queueSize = maxQueueSize)
    (first second : EnqueueCall Payload) :
    ∃ labels reached,
      Run (Pool.Step localStore)
        ⟨store, before ++ first.enqueue :: second.enqueue :: after⟩ labels reached ∧
      ∃ label target, Pool.Step localStore reached label target ∧
        ¬EvictsWhenFull reached target := by
  rcases split : store.entries with _ | ⟨oldest, _ | ⟨next, others⟩⟩
  · rw [QueueStore.queueSize, split] at full
    cases full
  · rw [QueueStore.queueSize, split] at full
    cases full
  have cleared : (store.clearQueue oldest.id).entries = next :: others :=
    QueueStore.entries_clearQueue_oldest split
  apply Run.exists_cons (turns_sizing_full first (Nat.le_of_eq full.symm)).step
  apply Run.exists_cons (turns_sizing_full second (Nat.le_of_eq full.symm)).step_second
  apply Run.exists_cons (turns_evicting first split).step
  apply Run.exists_cons (turns_clearing first oldest.id).step
  apply Run.exists_cons (turns_evicting second cleared).step_second
  refine ⟨[], _, Run.refl, _, _, (turns_clearing second next.id).step_second, ?_⟩
  intro evicts
  have early := evicts ⟨next, by simp [cleared], by simp [QueueStore.mem_clearQueue]⟩
  simp only [QueueStore.queueSize, cleared] at early
  rw [QueueStore.queueSize, split, List.length_cons] at full
  omega

theorem queueSize_enqueue_of_room (room : store.queueSize < maxQueueSize) (now : ℕ) :
    (OfflineQueue.enqueue store request.channelId request.event request.payload now).queueSize =
      store.queueSize + 1 := by
  have notFull : ¬maxQueueSize ≤ store.entries.length := Nat.not_le_of_lt room
  rw [QueueStore.queueSize, OfflineQueue.entries_enqueue, if_neg notFull, List.length_append]
  rfl

/-- Calls made one after the other, for which there is room, each add their entry. -/
theorem calls_in_turn (requests : List (EnqueueCall Payload))
    (room : store.queueSize + requests.length ≤ maxQueueSize) :
    ∃ labels grown finished,
      Run (Pool.Step localStore)
        ⟨store, before ++ (requests.map EnqueueCall.enqueue ++ after)⟩ labels
        ⟨grown, finished ++ after⟩ ∧
      grown.queueSize = store.queueSize + requests.length := by
  induction requests generalizing store before with
  | nil => exact ⟨[], store, before, Run.refl, rfl⟩
  | cons request rest ih =>
      rw [List.length_cons] at room
      have sizeEq := queueSize_enqueue_of_room request (show store.queueSize < _ by omega) 0
      rcases request.execute_enqueue store 0 with ⟨outcomeEq, worldEq⟩
      rcases @Pool.run_alone _ _ _ _ _ localStore request.enqueue (fun _ => ⟨none, 0⟩) store
        before (rest.map EnqueueCall.enqueue ++ after) with ⟨labels, first⟩
      rw [outcomeEq, worldEq] at first
      have roomLeft : (OfflineQueue.enqueue store request.channelId request.event request.payload
          0).queueSize + rest.length ≤ maxQueueSize := by omega
      rcases @ih _ (before ++ [.ofExcept (.ok ())]) roomLeft with
        ⟨later, grown, finished, run, grownEq⟩
      rw [← List.append_cons] at run
      refine ⟨labels ++ later, grown, finished, first.append run, ?_⟩
      rw [grownEq, sizeEq, List.length_cons]
      omega

/-- Without room for all of them, two calls compete for the last place. -/
theorem not_keepsBound_of_overflow {requests : List (EnqueueCall Payload)}
    (free : store.queueSize < maxQueueSize)
    (tooMany : maxQueueSize < store.queueSize + requests.length) :
    ¬KeepsBound store requests := by
  intro keeps
  let alone := maxQueueSize - 1 - store.queueSize
  have remainingLength : (requests.drop alone).length = requests.length - alone :=
    List.length_drop
  have takenLength : (requests.take alone).length = alone := by
    rw [List.length_take]
    omega
  rcases remaining : requests.drop alone with _ | ⟨first, _ | ⟨second, more⟩⟩
  · rw [remaining, List.length_nil] at remainingLength
    omega
  · rw [remaining, List.length_singleton] at remainingLength
    omega
  rcases @calls_in_turn _ store []
    (first.enqueue :: second.enqueue :: more.map EnqueueCall.enqueue) (requests.take alone)
    (by omega) with ⟨labels, grown, finished, run, grownEq⟩
  rcases @overflows _ grown finished (more.map EnqueueCall.enqueue) (by omega) first second with
    ⟨later, reached, overflowing, reachedEq⟩
  have split := List.take_append_drop alone requests
  rw [remaining] at split
  have started : requests.map EnqueueCall.enqueue =
      (requests.take alone).map EnqueueCall.enqueue ++
        (first.enqueue :: second.enqueue :: more.map EnqueueCall.enqueue) := by
    rw [← List.map_cons, ← List.map_cons, ← List.map_append, split]
  rw [List.nil_append, ← started] at run
  have kept := (keeps _ reached (run.append overflowing)).1
  omega

theorem not_keepsBound_of_full {requests : List (EnqueueCall Payload)}
    (full : store.queueSize = maxQueueSize) (several : 1 < requests.length) :
    ¬KeepsBound store requests := by
  intro keeps
  rcases requests with _ | ⟨first, _ | ⟨second, more⟩⟩
  · cases several
  · simp at several
  rcases @evicts_early _ store [] (more.map EnqueueCall.enqueue) full first second with
    ⟨labels, reached, run, label, target, step, early⟩
  exact early ((keeps labels reached run).2 label target step)

end TwoCalls

/-- The calls keep to the bound of the queue just if there is one of them at most, or room
for all of them. -/
theorem keepsBound_iff {store : QueueStore Payload} (bounded : store.queueSize ≤ maxQueueSize)
    (requests : List (EnqueueCall Payload)) :
    KeepsBound store requests ↔
      requests.length ≤ 1 ∨ store.queueSize + requests.length ≤ maxQueueSize := by
  constructor
  · intro keeps
    by_contra neither
    rw [not_or, Nat.not_le, Nat.not_le] at neither
    rcases neither with ⟨several, tooMany⟩
    rcases Nat.lt_or_eq_of_le bounded with free | full
    · exact not_keepsBound_of_overflow free tooMany keeps
    · exact not_keepsBound_of_full full several keeps
  · rintro (single | room)
    · exact keepsBound_of_single bounded single
    · exact keepsBound_of_room room

theorem keepsBound_iff_pair :
    KeepsBound QueueStore.empty
      [EnqueueCall.mk "general" "message" (), ⟨"general", "typing", ()⟩] :=
  (keepsBound_iff (Nat.zero_le _) _).mpr (.inr (by decide))

/-- The object store after so many calls of `enqueue`, made one after the other. -/
def filledQueue (count : ℕ) : QueueStore Unit :=
  (fun store => OfflineQueue.enqueue store "general" "message" () 0)^[count] QueueStore.empty

theorem queueSize_filledQueue {count : ℕ} (room : count ≤ maxQueueSize) :
    (filledQueue count).queueSize = count := by
  induction count with
  | zero => rfl
  | succ count ih =>
      have sizeEq := ih (Nat.le_of_succ_le room)
      have grown := @queueSize_enqueue_of_room _ (filledQueue count)
        ⟨"general", "message", ()⟩ (by omega) 0
      rw [filledQueue, Function.iterate_succ_apply']
      rw [sizeEq] at grown
      exact grown

/-- With 9999 entries in the queue, two calls leave 10001. -/
theorem enqueue_overflows : ∃ labels reached,
    Run (Pool.Step localStore)
      (calling (filledQueue 9999) [⟨"general", "message", ()⟩, ⟨"general", "typing", ()⟩]) labels
      reached ∧
    reached.world.queueSize = 10001 := by
  have sizeEq : (filledQueue 9999).queueSize = 9999 := queueSize_filledQueue (by decide)
  exact @overflows _ (filledQueue 9999) [] [] (by rw [sizeEq]; rfl) _ _

end Mercury.Sdk
