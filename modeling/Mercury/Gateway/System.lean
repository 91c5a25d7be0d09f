import Mathlib.Logic.Function.Basic
import Mercury.Gateway.Node

/-!
# The node under all its sockets

Any number of socket processes and background tasks, whose calls interleave. A
socket takes its frames one at a time; what the stores hold, and how they answer,
is a parameter. A broadcast may reach any socket at any time, whether it has
subscribed or not.
-/

namespace Mercury.Gateway

open Foundations Foundations.Program Persistence

/-- A process, with what it has still to do. -/
inductive Process where
  | idle (socket : Socket)
  | handling (socket : Socket) (data : Bytes) (rest : Program node Raise Reaction)
  | running (task : BackgroundTask) (rest : Program node Raise Unit)

/-- A process performs its next call. -/
inductive Process.Performs : Process → Performed node Raise → Process → Prop where
  | handling {socket : Socket} {data : Bytes} {asked : node.Call}
      {next : Except Raise (node.Answer asked) → Program node Raise Reaction}
      {answer : Except Raise (node.Answer asked)} :
      Performs (.handling socket data (.call asked next)) ⟨asked, answer⟩
        (.handling socket data (next answer))
  | running {task : BackgroundTask} {asked : node.Call}
      {next : Except Raise (node.Answer asked) → Program node Raise Unit}
      {answer : Except Raise (node.Answer asked)} :
      Performs (.running task (.call asked next)) ⟨asked, answer⟩ (.running task (next answer))

/-- The task that a call starts. -/
def startedTasks (taken : Performed node Raise) : List BackgroundTask :=
  match taken.call with
  | .inr (.startTask task) => [task]
  | _ => []

/-- The processes, the tasks that have not run yet, and the stores. -/
structure System (Store : Type) where
  processes : ℕ → Option Process
  pending : List BackgroundTask
  store : Store

namespace System

variable {Store : Type}

/-- No process runs yet. -/
def start (store : Store) : System Store where
  processes _ := none
  pending := []
  store := store

def set (system : System Store) (pid : ℕ) (process : Option Process) : System Store :=
  { system with processes := Function.update system.processes pid process }

@[simp]
theorem set_processes_self (system : System Store) (pid : ℕ) (process : Option Process) :
    (system.set pid process).processes pid = process :=
  Function.update_self ..

theorem set_processes_of_ne (system : System Store) {pid other : ℕ} (process : Option Process)
    (different : other ≠ pid) :
    (system.set pid process).processes other = system.processes other :=
  Function.update_of_ne different ..

@[simp]
theorem set_pending (system : System Store) (pid : ℕ) (process : Option Process) :
    (system.set pid process).pending = system.pending :=
  rfl

@[simp]
theorem set_store (system : System Store) (pid : ℕ) (process : Option Process) :
    (system.set pid process).store = system.store :=
  rfl

@[simp]
theorem set_set (system : System Store) (pid : ℕ) (first second : Option Process) :
    (system.set pid first).set pid second = system.set pid second := by
  simp [set]

theorem set_eq_self {system : System Store} {pid : ℕ} {process : Option Process}
    (same : system.processes pid = process) : system.set pid process = system := by
  rw [set, ← same, Function.update_eq_self]

/-- The system after a process performed `taken`, which left `stored`. -/
def perform (system : System Store) (pid : ℕ) (next : Process) (taken : Performed node Raise)
    (stored : Store) : System Store where
  processes := Function.update system.processes pid (some next)
  pending := startedTasks taken ++ system.pending
  store := stored

@[simp]
theorem perform_processes_self (system : System Store) (pid : ℕ) (next : Process)
    (taken : Performed node Raise) (stored : Store) :
    (system.perform pid next taken stored).processes pid = some next :=
  Function.update_self ..

theorem perform_processes_of_ne (system : System Store) {pid other : ℕ} (next : Process)
    (taken : Performed node Raise) (stored : Store) (different : other ≠ pid) :
    (system.perform pid next taken stored).processes other = system.processes other :=
  Function.update_of_ne different ..

end System

inductive SystemLabel where
  | connected (pid : ℕ)
  | received (pid : ℕ) (socket : Socket) (data : Bytes)
  | performed (pid : ℕ) (process : Process) (taken : Performed node Raise)
  | answered (pid : ℕ) (pushed : List Bytes)
  | ended (pid : ℕ)
  | started (pid : ℕ) (task : BackgroundTask)
  | delivered (pid : ℕ) (socket : Socket) (topic : Bytes) (pushed : List Bytes)

/-- One step of one process. `answers` is how the stores answer a call. -/
inductive SystemStep {Store : Type} (native : Native)
    (answers : Store → Performed node Raise → Store → Prop) :
    System Store → SystemLabel → System Store → Prop where
  | connected {system : System Store} {pid : ℕ} (tenantId userId deviceId : Id16)
      (free : system.processes pid = none) :
      SystemStep native answers system (.connected pid)
        (system.set pid (some (.idle (Socket.init tenantId userId deviceId))))
  | received {system : System Store} {pid : ℕ} {socket : Socket} (data : Bytes)
      (idle : system.processes pid = some (.idle socket)) :
      SystemStep native answers system (.received pid socket data)
        (system.set pid (some (.handling socket data (nodeHandleIn native data socket))))
  | performed {system : System Store} {pid : ℕ} {process next : Process}
      {taken : Performed node Raise} {stored : Store}
      (present : system.processes pid = some process) (performs : process.Performs taken next)
      (answered : answers system.store taken stored) :
      SystemStep native answers system (.performed pid process taken)
        (system.perform pid next taken stored)
  | answered {system : System Store} {pid : ℕ} {socket : Socket} {data : Bytes}
      {reaction : Reaction}
      (present : system.processes pid = some (.handling socket data (.done reaction))) :
      SystemStep native answers system (.answered pid reaction.pushed)
        (system.set pid (some (.idle reaction.socket)))
  /-- A process returns, raises or is killed. -/
  | ended {system : System Store} {pid : ℕ} :
      SystemStep native answers system (.ended pid) (system.set pid none)
  | started {system : System Store} {pid : ℕ} {task : BackgroundTask}
      {before after : List BackgroundTask} (free : system.processes pid = none)
      (pending : system.pending = before ++ task :: after) :
      SystemStep native answers system (.started pid task)
        { system.set pid (some (.running task (nodeRunTask task))) with
          pending := before ++ after }
  | delivered {system : System Store} {pid : ℕ} {socket : Socket} {topic : Bytes}
      (event : Byte) (payload : Bytes) (idle : system.processes pid = some (.idle socket)) :
      SystemStep native answers system
        (.delivered pid socket topic (handleBroadcast topic event payload socket).pushed)
        (system.set pid (some (.idle (handleBroadcast topic event payload socket).socket)))

@[simp]
theorem handleBroadcast_socket (topic : Bytes) (event : Byte) (payload : Bytes)
    (socket : Socket) : (handleBroadcast topic event payload socket).socket = socket := by
  unfold handleBroadcast
  split <;> rfl

/-! ## Whole frames -/

namespace System

variable {Store : Type} {native : Native} {answers : Store → Performed node Raise → Store → Prop}
  {guard : System Store → SystemLabel → Prop}

/-- The tasks that wait after some calls. -/
def pendingAfter (pending : List BackgroundTask) (made : List (Performed node Raise)) :
    List BackgroundTask :=
  made.foldl (fun waiting taken => startedTasks taken ++ waiting) pending

/-- A process performs the calls of its frame, one after the other. -/
theorem run_calls {system : System Store} {pid : ℕ} {socket : Socket} {data : Bytes}
    {rest : Program node Raise Reaction} {made : List (Performed node Raise)}
    {reaction : Reaction} {stored : Store}
    (unguarded : ∀ system process, ∀ taken ∈ made, guard system (.performed pid process taken))
    (present : system.processes pid = some (.handling socket data rest))
    (performs : rest.Performs made (.ok reaction)) (stores : Run answers system.store made stored) :
    ∃ labels, Run (Guarded guard (SystemStep native answers)) system labels
        { system.set pid (some (.handling socket data (.done reaction))) with
          pending := pendingAfter system.pending made
          store := stored } ∧
      ∀ taken ∈ made, ∃ rest, .performed pid (.handling socket data rest) taken ∈ labels := by
  induction rest generalizing system made with
  | done result =>
      rcases performs with ⟨rfl, resultEq⟩
      cases resultEq
      cases stores.nil
      rw [set_eq_self present]
      exact ⟨[], Run.refl, by simp⟩
  | fail error => cases performs.2
  | call asked next ih =>
      rcases performs with ⟨answer, later, rfl, performs⟩
      rcases stores.uncons with ⟨middle, first, stores⟩
      have step : SystemStep native answers system
          (.performed pid (.handling socket data (.call asked next)) ⟨asked, answer⟩)
          (system.perform pid (.handling socket data (next answer)) ⟨asked, answer⟩ middle) :=
        SystemStep.performed present Process.Performs.handling first
      rcases ih answer (fun system process taken takenMem =>
          unguarded system process taken (List.mem_cons_of_mem _ takenMem))
        (perform_processes_self system pid _ ⟨asked, answer⟩ middle) performs stores with
        ⟨labels, run, performed⟩
      refine ⟨_, @Run.cons _ _ _ _ _ _ _ labels
        ⟨unguarded _ _ _ (List.mem_cons_self ..), step⟩ ?_, ?_⟩
      · simpa [set, perform, pendingAfter] using run
      · rintro taken takenMem
        rcases List.mem_cons.mp takenMem with rfl | laterMem
        · exact ⟨_, List.mem_cons_self ..⟩
        · rcases performed taken laterMem with ⟨rest, labelMem⟩
          exact ⟨rest, List.mem_cons_of_mem _ labelMem⟩

/-- A socket handles a frame while the other processes wait. -/
theorem run_frame {system : System Store} {pid : ℕ} {socket : Socket} {data : Bytes}
    {made : List (Performed node Raise)} {reaction : Reaction} {stored : Store}
    (receives : guard system (.received pid socket data))
    (unguarded : ∀ system process, ∀ taken ∈ made, guard system (.performed pid process taken))
    (answersFrame : ∀ system pushed, guard system (.answered pid pushed))
    (idle : system.processes pid = some (.idle socket))
    (performs : (nodeHandleIn native data socket).Performs made (.ok reaction))
    (stores : Run answers system.store made stored) :
    ∃ labels, Run (Guarded guard (SystemStep native answers)) system labels
        { system.set pid (some (.idle reaction.socket)) with
          pending := pendingAfter system.pending made
          store := stored } ∧
      ∀ taken ∈ made, ∃ rest, .performed pid (.handling socket data rest) taken ∈ labels := by
  have receive : SystemStep native answers system (.received pid socket data)
      (system.set pid (some (.handling socket data (nodeHandleIn native data socket)))) :=
    SystemStep.received data idle
  rcases @run_calls _ native answers guard _ pid _ _ _ _ _ _ unguarded
    (set_processes_self system pid _) performs stores with ⟨labels, run, performed⟩
  rw [set_set, set_pending] at run
  have answer := @SystemStep.answered _ native answers
    { system.set pid (some (.handling socket data (.done reaction))) with
      pending := pendingAfter system.pending made
      store := stored } pid socket data reaction (set_processes_self ..)
  have last := Run.snoc run ⟨answersFrame _ _, answer⟩
  refine ⟨_, @Run.cons _ _ _ _ _ _ _ (labels ++ [.answered pid reaction.pushed])
    ⟨receives, receive⟩ ?_, fun taken takenMem => ?_⟩
  · simpa [set] using last
  · rcases performed taken takenMem with ⟨rest, labelMem⟩
    exact ⟨rest, List.mem_cons_of_mem _ (List.mem_append_left _ labelMem)⟩

end System

end Mercury.Gateway
