import Mathlib.Data.List.Induction
import Mathlib.Data.Rat.Defs
import Mathlib.Logic.Function.Basic
import Mercury.Core.Bytes

/-!
# The worker of the WASM core

`WasmBridge` sends commands to a worker and matches what the worker answers to the promises
by the ids of the commands; without a worker it runs the module itself. A promise settles
once, with the first answer to its own command, whatever else the worker sends.
-/

namespace Mercury.Sdk

/-- What a promise settles with. -/
abbrev WorkerResult (Value : Type) := Except String Value

inductive WorkerCommand where
  | generateMessageId
  /-- A number that is not finite is `none`. -/
  | computeTimeBucket (timestampMs : Option ℚ)
  | validateMessage (content : Bytes) (contentType : ℕ)
  | validateDelta (deltaJson : String)
  | validateDeltaBatch (count : ℕ)
  | generateKeyPackage (identity : Bytes)
deriving DecidableEq

section Bridge

variable {Seed Value : Type}

/-- The module that is compiled to WASM; a `Seed` is the time and the random bytes of a call. -/
structure WasmModule (Seed Value : Type) where
  generateMessageId : Seed → WorkerResult Value
  computeTimeBucket : ℤ → WorkerResult Value
  validateMessage : Bytes → ℕ → WorkerResult Value
  validateDelta : String → WorkerResult Value
  validateDeltaBatch : ℕ → WorkerResult Value
  generateKeyPackage : Bytes → Seed → WorkerResult Value

/-- `BigInt`, which throws on a number that is not an integer. -/
def toBigInt : Option ℚ → WorkerResult ℤ
  | none => .error "not an integer"
  | some number => if number.den = 1 then .ok number.num else .error "not an integer"

def WasmModule.execLocal (wasm : WasmModule Seed Value) (seed : Seed) :
    WorkerCommand → WorkerResult Value
  | .generateMessageId => wasm.generateMessageId seed
  | .computeTimeBucket timestampMs => (toBigInt timestampMs).bind wasm.computeTimeBucket
  | .validateMessage content contentType => wasm.validateMessage content contentType
  | .validateDelta deltaJson => wasm.validateDelta deltaJson
  | .validateDeltaBatch count => wasm.validateDeltaBatch count
  | .generateKeyPackage identity => wasm.generateKeyPackage identity seed

structure WasmBridge (Seed Value : Type) where
  /-- There is a worker. -/
  worker : Bool
  wasmModule : Option (WasmModule Seed Value)
  /-- The place of the promise that the id is pending for. -/
  pending : ℕ → Option ℕ
  nextId : ℕ
  /-- What the worker was sent. -/
  posted : List (ℕ × WorkerCommand)
  /-- The promises of `exec`, in the order of the calls. -/
  promises : List (Option (WorkerResult Value))

inductive BridgeEvent (Seed Value : Type) where
  /-- `exec`, once the bridge is ready. -/
  | exec (command : WorkerCommand) (seed : Seed)
  /-- A message of the worker. -/
  | message (id : ℕ) (response : WorkerResult Value)
  | setWasmModule (wasm : WasmModule Seed Value)
  | terminate

namespace WasmBridge

/-- The greatest integer that a number counts up to. -/
def maxCount : ℕ :=
  2 ^ 53

def start (worker : Bool) : WasmBridge Seed Value where
  worker := worker
  wasmModule := none
  pending := fun _ => none
  nextId := 0
  posted := []
  promises := []

def execWorker (command : WorkerCommand) (bridge : WasmBridge Seed Value) :
    WasmBridge Seed Value :=
  { bridge with
    pending := Function.update bridge.pending bridge.nextId (some bridge.promises.length)
    nextId := min (bridge.nextId + 1) maxCount
    posted := bridge.posted ++ [(bridge.nextId, command)]
    promises := bridge.promises ++ [none] }

def exec (command : WorkerCommand) (seed : Seed) (bridge : WasmBridge Seed Value) :
    WasmBridge Seed Value :=
  if bridge.worker then bridge.execWorker command
  else
    let result := match bridge.wasmModule with
      | some wasm => wasm.execLocal seed command
      | none => .error "WASM not loaded: call setWasmModule() or provide a worker URL"
    { bridge with promises := bridge.promises ++ [some result] }

/-- `onmessage`. -/
def onMessage (id : ℕ) (response : WorkerResult Value) (bridge : WasmBridge Seed Value) :
    WasmBridge Seed Value :=
  match bridge.pending id with
  | none => bridge
  | some index =>
      { bridge with
        pending := Function.update bridge.pending id none
        promises := bridge.promises.set index (some response) }

def next (bridge : WasmBridge Seed Value) : BridgeEvent Seed Value → WasmBridge Seed Value
  | .exec command seed => bridge.exec command seed
  | .message id response => bridge.onMessage id response
  | .setWasmModule wasm => { bridge with wasmModule := some wasm }
  | .terminate => { bridge with worker := false }

def after (bridge : WasmBridge Seed Value) (events : List (BridgeEvent Seed Value)) :
    WasmBridge Seed Value :=
  events.foldl next bridge

/-- What the worker first answers to the command with this id. -/
def firstResponse (id : ℕ) (events : List (BridgeEvent Seed Value)) : Option (WorkerResult Value) :=
  events.findSome? fun
    | .message other response => if other = id then some response else none
    | _ => none

/-! ## Pending promises -/

/-- Every id that is pending was given to a promise of its own, which is not settled. -/
structure Paired (bridge : WasmBridge Seed Value) : Prop where
  given : ∀ {id index}, bridge.pending id = some index → id < bridge.nextId
  unsettled : ∀ {id index}, bridge.pending id = some index → bridge.promises[index]? = some none
  apart : ∀ {id other index}, bridge.pending id = some index →
    bridge.pending other = some index → id = other
  counted : bridge.posted.map Prod.fst = List.range bridge.nextId

/-- The promise at the place waits for the id, or has settled with the response. -/
structure Awaits (bridge : WasmBridge Seed Value) (id index : ℕ)
    (response : Option (WorkerResult Value)) : Prop where
  promise : bridge.promises[index]? = some response
  pending : bridge.pending id = if response.isNone then some index else none
  given : id < bridge.nextId

variable {bridge : WasmBridge Seed Value} {event : BridgeEvent Seed Value}
  {events : List (BridgeEvent Seed Value)} {id index : ℕ} {response : Option (WorkerResult Value)}

theorem after_append_singleton :
    bridge.after (events ++ [event]) = (bridge.after events).next event := by
  simp [after]

theorem paired_start (worker : Bool) : (start worker : WasmBridge Seed Value).Paired where
  given pending := by cases pending
  unsettled pending := by cases pending
  apart pending := by cases pending
  counted := rfl

/-- The ids count the commands until numbers end. -/
theorem nextId_next (few : bridge.nextId + 1 < maxCount) :
    bridge.nextId ≤ (bridge.next event).nextId ∧
      (bridge.next event).nextId ≤ bridge.nextId + 1 := by
  cases event with
  | exec command seed =>
      simp only [next, exec]
      split
      · simp only [execWorker]
        omega
      · exact ⟨le_rfl, Nat.le_succ _⟩
  | message id response =>
      simp only [next, onMessage]
      split <;> exact ⟨le_rfl, Nat.le_succ _⟩
  | setWasmModule wasm => exact ⟨le_rfl, Nat.le_succ _⟩
  | terminate => exact ⟨le_rfl, Nat.le_succ _⟩

theorem Paired.execWorker (paired : bridge.Paired) (few : bridge.nextId + 1 < maxCount)
    (command : WorkerCommand) : (bridge.execWorker command).Paired := by
  have counted : (bridge.execWorker command).nextId = bridge.nextId + 1 :=
    Nat.min_eq_left few.le
  have pendingAt : ∀ id, (bridge.execWorker command).pending id =
      if id = bridge.nextId then some bridge.promises.length else bridge.pending id :=
    fun id => Function.update_apply ..
  have inside : ∀ {id index}, bridge.pending id = some index → index < bridge.promises.length :=
    fun pending => (List.getElem?_eq_some_iff.mp (paired.unsettled pending)).1
  constructor
  · intro id index pending
    rw [pendingAt] at pending
    rw [counted]
    split at pending
    · omega
    · exact (paired.given pending).trans (Nat.lt_succ_self _)
  · intro id index pending
    rw [pendingAt] at pending
    simp only [WasmBridge.execWorker]
    split at pending
    · cases pending
      simp
    · rw [List.getElem?_append_left (inside pending)]
      exact paired.unsettled pending
  · intro id other index pending otherPending
    rw [pendingAt] at pending otherPending
    split at pending <;> split at otherPending
    · omega
    · cases pending
      exact absurd (inside otherPending) (lt_irrefl _)
    · cases otherPending
      exact absurd (inside pending) (lt_irrefl _)
    · exact paired.apart pending otherPending
  · rw [counted, List.range_succ, ← paired.counted]
    simp [WasmBridge.execWorker]

theorem Paired.next (paired : bridge.Paired) (few : bridge.nextId + 1 < maxCount) :
    (bridge.next event).Paired := by
  cases event with
  | exec command seed =>
      simp only [WasmBridge.next, exec]
      split
      · exact paired.execWorker few command
      · refine ⟨paired.given, fun pending => ?_, paired.apart, paired.counted⟩
        have waits := paired.unsettled pending
        have inside := (List.getElem?_eq_some_iff.mp waits).1
        exact (List.getElem?_append_left inside).trans waits
  | message id response =>
      simp only [WasmBridge.next, onMessage]
      split
      · exact paired
      · next place found =>
          have pendingAt : ∀ other, Function.update bridge.pending id none other =
              if other = id then none else bridge.pending other :=
            fun other => Function.update_apply ..
          have kept : ∀ {other index}, Function.update bridge.pending id none other = some index →
              other ≠ id ∧ bridge.pending other = some index := by
            intro other index pending
            rw [pendingAt] at pending
            split at pending
            · cases pending
            · next different => exact ⟨different, pending⟩
          refine ⟨fun pending => paired.given (kept pending).2, fun pending => ?_,
            fun pending otherPending => paired.apart (kept pending).2 (kept otherPending).2,
            paired.counted⟩
          rcases kept pending with ⟨different, before⟩
          rw [List.getElem?_set_ne]
          · exact paired.unsettled before
          · rintro rfl
            exact different (paired.apart before found)
  | setWasmModule wasm => exact ⟨paired.given, paired.unsettled, paired.apart, paired.counted⟩
  | terminate => exact ⟨paired.given, paired.unsettled, paired.apart, paired.counted⟩

/-- The promise is settled by the first message for its id. -/
theorem Awaits.next (awaits : bridge.Awaits id index response) (paired : bridge.Paired)
    (few : bridge.nextId + 1 < maxCount) :
    (bridge.next event).Awaits id index (response.or (firstResponse id [event])) := by
  have given : id < (bridge.next event).nextId := awaits.given.trans_le (nextId_next few).1
  have inside := (List.getElem?_eq_some_iff.mp awaits.promise).1
  cases event with
  | exec command seed =>
      have none : firstResponse id [BridgeEvent.exec command seed] =
        (Option.none : Option (WorkerResult Value)) := rfl
      rw [none, Option.or_none]
      simp only [WasmBridge.next, exec] at given ⊢
      split
      · next alive =>
          refine ⟨(List.getElem?_append_left inside).trans awaits.promise, ?_, ?_⟩
          · exact (Function.update_of_ne awaits.given.ne _ _).trans awaits.pending
          · rwa [if_pos alive] at given
      · exact ⟨(List.getElem?_append_left inside).trans awaits.promise, awaits.pending,
          awaits.given⟩
  | message other answer =>
      simp only [WasmBridge.next, onMessage] at given ⊢
      by_cases same : other = id
      · subst same
        have answers : firstResponse other [(.message other answer : BridgeEvent Seed Value)] =
          some answer := by simp [firstResponse]
        rw [answers]
        cases response with
        | none =>
            have pending : bridge.pending other = some index := awaits.pending
            simp only [pending]
            exact ⟨List.getElem?_set_self inside, Function.update_self .., awaits.given⟩
        | some settled =>
            have pending : bridge.pending other = none := awaits.pending
            simp only [pending]
            exact awaits
      · have silent : firstResponse id [(.message other answer : BridgeEvent Seed Value)] =
          none := by simp [firstResponse, same]
        rw [silent, Option.or_none]
        split
        · exact awaits
        · next place found =>
            have elsewhere : place ≠ index := by
              rintro rfl
              cases response with
              | none => exact same (paired.apart found awaits.pending)
              | some settled => cases (paired.unsettled found).symm.trans awaits.promise
            exact ⟨(List.getElem?_set_ne elsewhere).trans awaits.promise,
              (Function.update_of_ne (Ne.symm same) _ _).trans awaits.pending, awaits.given⟩
  | setWasmModule wasm =>
      have none : firstResponse id [BridgeEvent.setWasmModule wasm] =
        (Option.none : Option (WorkerResult Value)) := rfl
      rw [none, Option.or_none]
      exact ⟨awaits.promise, awaits.pending, awaits.given⟩
  | terminate =>
      have none : firstResponse id [(BridgeEvent.terminate : BridgeEvent Seed Value)] =
        Option.none := rfl
      rw [none, Option.or_none]
      exact ⟨awaits.promise, awaits.pending, awaits.given⟩

theorem paired_after (paired : bridge.Paired)
    (few : bridge.nextId + events.length < maxCount) :
    (bridge.after events).Paired ∧
      (bridge.after events).nextId ≤ bridge.nextId + events.length := by
  induction events using List.reverseRecOn with
  | nil => exact ⟨paired, le_rfl⟩
  | append_singleton events event ih =>
      rw [List.length_append, List.length_singleton] at few ⊢
      rcases ih (by omega) with ⟨stays, counted⟩
      rw [after_append_singleton]
      have moved := @nextId_next _ _ (bridge.after events) event (by omega)
      exact ⟨stays.next (by omega), by omega⟩

theorem Awaits.after (awaits : bridge.Awaits id index none) (paired : bridge.Paired)
    (few : bridge.nextId + events.length < maxCount) :
    (bridge.after events).Awaits id index (firstResponse id events) := by
  induction events using List.reverseRecOn with
  | nil => exact awaits
  | append_singleton events event ih =>
      rw [List.length_append, List.length_singleton] at few
      rcases @paired_after _ _ bridge events paired (by omega) with ⟨stays, counted⟩
      rw [after_append_singleton, firstResponse, List.findSome?_append]
      exact (ih (by omega)).next stays (by omega)

theorem mem_posted_after {posted : ℕ × WorkerCommand} (isPosted : posted ∈ bridge.posted) :
    posted ∈ (bridge.after events).posted := by
  induction events using List.reverseRecOn with
  | nil => exact isPosted
  | append_singleton events event ih =>
      rw [after_append_singleton]
      cases event with
      | exec command seed =>
          simp only [WasmBridge.next, exec]
          split
          · exact List.mem_append_left _ ih
          · exact ih
      | message id response =>
          simp only [WasmBridge.next, onMessage]
          split <;> exact ih
      | setWasmModule wasm => exact ih
      | terminate => exact ih

end WasmBridge

/-- A command that goes to the worker settles with the first answer to its own id that comes
after it, and with nothing else; its id is no other command's. -/
theorem exec_answered {worker : Bool} {before later : List (BridgeEvent Seed Value)}
    {command : WorkerCommand} {seed : Seed} {bridge final : WasmBridge Seed Value}
    (few : before.length + 1 + later.length < WasmBridge.maxCount)
    (reached : (WasmBridge.start worker).after before = bridge) (alive : bridge.worker = true)
    (ends : bridge.after (.exec command seed :: later) = final) :
    final.promises[bridge.promises.length]? =
        some (WasmBridge.firstResponse bridge.nextId later) ∧
      (bridge.nextId, command) ∈ final.posted ∧ (final.posted.map Prod.fst).Nodup := by
  have start : (WasmBridge.start worker : WasmBridge Seed Value).nextId = 0 := rfl
  rcases @WasmBridge.paired_after _ _ _ before (WasmBridge.paired_start worker) (by omega) with
    ⟨paired, counted⟩
  rw [reached, start, Nat.zero_add] at counted
  rw [reached] at paired
  have asked : bridge.next (.exec command seed) = bridge.execWorker command := if_pos alive
  have nextId : (bridge.execWorker command).nextId = bridge.nextId + 1 :=
    Nat.min_eq_left (by omega)
  have askedPaired := paired.execWorker (by omega) command
  have awaits : (bridge.execWorker command).Awaits bridge.nextId bridge.promises.length none :=
    ⟨List.getElem?_concat_length, Function.update_self .., by omega⟩
  have isFinal : (bridge.execWorker command).after later = final := by
    rw [← ends, WasmBridge.after, WasmBridge.after, List.foldl_cons, asked]
  refine ⟨?_, ?_, ?_⟩
  · rw [← isFinal]
    exact (awaits.after askedPaired (by omega)).promise
  · rw [← isFinal]
    exact WasmBridge.mem_posted_after (List.mem_append_right _ (List.mem_singleton_self _))
  · rw [← isFinal, (WasmBridge.paired_after askedPaired (by omega)).1.counted]
    exact List.nodup_range

/-- The answers to two commands come in the other order, and one of them comes twice. -/
theorem exec_answered_crossed : ∃ bridge final : WasmBridge Unit ℕ,
    (WasmBridge.start true).after [.exec .generateMessageId ()] = bridge ∧
      bridge.after [.exec (.validateDeltaBatch 5) (), .message 1 (.ok 7), .message 0 (.ok 6),
        .message 1 (.ok 8), .terminate] = final ∧
      final.promises[1]? = some (some (.ok 7)) := by
  have answered := @exec_answered Unit ℕ true [.exec .generateMessageId ()]
    [.message 1 (.ok 7), .message 0 (.ok 6), .message 1 (.ok 8), .terminate]
    (.validateDeltaBatch 5) () _ _ (by decide) rfl rfl rfl
  exact ⟨_, _, rfl, rfl, answered.1⟩

end Bridge

end Mercury.Sdk
