import Mathlib.Data.List.Find
import Mathlib.Logic.Function.Basic
import Mercury.Gateway.Issued

/-!
# Connecting and disconnecting sockets

The socket processes of a node with the connection registry and the sync
consumer, which `init` and `terminate` tell about them. The registry knows a
connection by its key alone: a socket that terminates takes the entry of a newer
socket of its device with it. Where no socket terminates while another one has
its key, a lookup finds the newest (`lookup_newest`).
-/

namespace Mercury.Gateway

open Foundations

/-- The key of a connection. -/
structure ConnectionKey where
  tenantId : Id16
  userId : Id16
  deviceId : Id16
deriving DecidableEq

/-- The user of a connection, as the sync consumer knows it. -/
def ConnectionKey.user (key : ConnectionKey) : Id16 × Id16 :=
  (key.tenantId, key.userId)

/-! ## The registry -/

/-- The table of `ConnectionRegistry`. -/
abbrev ConnectionRegistry := ConnectionKey → Option ℕ

namespace ConnectionRegistry

def register (registry : ConnectionRegistry) (key : ConnectionKey) (pid : ℕ) :
    ConnectionRegistry :=
  Function.update registry key (some pid)

def unregister (registry : ConnectionRegistry) (key : ConnectionKey) : ConnectionRegistry :=
  Function.update registry key none

def lookup (registry : ConnectionRegistry) (key : ConnectionKey) : Option ℕ :=
  registry key

end ConnectionRegistry

/-! ## The sync consumer -/

inductive SyncCast where
  | subscribe (user : Id16 × Id16)
  | unsubscribe (user : Id16 × Id16)
deriving DecidableEq

/-- The subject of `SyncConsumer` for a user. -/
def userSubject (user : Id16 × Id16) : Bytes :=
  syncSubject user.1.val user.2.val

/-- The subscriptions of the consumer, and those that NATS holds for it, by their sids. -/
structure SyncConsumer where
  subscriptions : Id16 × Id16 → Option ℕ
  subjects : ℕ → Option Bytes
  nextSid : ℕ

namespace SyncConsumer

def start : SyncConsumer where
  subscriptions _ := none
  subjects _ := none
  nextSid := 1

/-- `handle_cast`, where NATS is up and every subscription succeeds. -/
def handleCast (consumer : SyncConsumer) : SyncCast → SyncConsumer
  | .subscribe user =>
      match consumer.subscriptions user with
      | some _ => consumer
      | none =>
          { subscriptions := Function.update consumer.subscriptions user (some consumer.nextSid)
            subjects := Function.update consumer.subjects consumer.nextSid
              (some (userSubject user))
            nextSid := consumer.nextSid + 1 }
  | .unsubscribe user =>
      match consumer.subscriptions user with
      | none => consumer
      | some sid =>
          { consumer with
            subscriptions := Function.update consumer.subscriptions user none
            subjects := Function.update consumer.subjects sid none }

end SyncConsumer

/-! ## The sockets -/

/-- How far a socket has come: `init` registers and subscribes, `terminate` unregisters
and unsubscribes. -/
inductive ConnectionPhase where
  | starting
  | connected
  | leaving
  | ended
deriving DecidableEq

structure Connections where
  sockets : ℕ → Option (ConnectionKey × ConnectionPhase)
  /-- The sockets that are registered and have not terminated, the newest first. -/
  live : List ℕ
  registry : ConnectionRegistry
  /-- The casts of each socket that the consumer has still to handle. -/
  casts : ℕ → List SyncCast
  consumer : SyncConsumer

namespace Connections

def start : Connections where
  sockets _ := none
  live := []
  registry _ := none
  casts _ := []
  consumer := .start

def enter (world : Connections) (pid : ℕ) (key : ConnectionKey) (phase : ConnectionPhase) :
    Connections :=
  { world with sockets := Function.update world.sockets pid (some (key, phase)) }

def setCasts (world : Connections) (pid : ℕ) (casts : List SyncCast) : Connections :=
  { world with casts := Function.update world.casts pid casts }

/-- `init` registers the socket. -/
def register (world : Connections) (pid : ℕ) (key : ConnectionKey) : Connections :=
  { world.enter pid key .starting with
    live := pid :: world.live
    registry := world.registry.register key pid }

/-- `init` tells the sync consumer about the user. -/
def subscribe (world : Connections) (pid : ℕ) (key : ConnectionKey) : Connections :=
  (world.enter pid key .connected).setCasts pid (world.casts pid ++ [.subscribe key.user])

/-- `terminate` unregisters the socket. -/
def unregister (world : Connections) (pid : ℕ) (key : ConnectionKey) : Connections :=
  { world.enter pid key .leaving with
    live := world.live.filter fun other => other ≠ pid
    registry := world.registry.unregister key }

/-- `terminate` tells the sync consumer about the user. -/
def unsubscribe (world : Connections) (pid : ℕ) (key : ConnectionKey) : Connections :=
  (world.enter pid key .ended).setCasts pid (world.casts pid ++ [.unsubscribe key.user])

/-- The consumer handles a cast of the socket, which leaves `later`. -/
def handle (world : Connections) (pid : ℕ) (cast : SyncCast) (later : List SyncCast) :
    Connections :=
  { world.setCasts pid later with consumer := world.consumer.handleCast cast }

end Connections

inductive ConnectionLabel where
  | registered (pid : ℕ) (key : ConnectionKey)
  | subscribed (pid : ℕ)
  | unregistered (pid : ℕ)
  | unsubscribed (pid : ℕ)
  /-- The consumer handles the next cast of a socket. -/
  | handled (pid : ℕ)

inductive ConnectionStep : Connections → ConnectionLabel → Connections → Prop where
  | registered {world : Connections} {pid : ℕ} {key : ConnectionKey}
      (free : world.sockets pid = none) :
      ConnectionStep world (.registered pid key) (world.register pid key)
  | subscribed {world : Connections} {pid : ℕ} {key : ConnectionKey}
      (present : world.sockets pid = some (key, .starting)) :
      ConnectionStep world (.subscribed pid) (world.subscribe pid key)
  | unregistered {world : Connections} {pid : ℕ} {key : ConnectionKey}
      (present : world.sockets pid = some (key, .connected)) :
      ConnectionStep world (.unregistered pid) (world.unregister pid key)
  | unsubscribed {world : Connections} {pid : ℕ} {key : ConnectionKey}
      (present : world.sockets pid = some (key, .leaving)) :
      ConnectionStep world (.unsubscribed pid) (world.unsubscribe pid key)
  | handled {world : Connections} {pid : ℕ} {cast : SyncCast} {later : List SyncCast}
      (waiting : world.casts pid = cast :: later) :
      ConnectionStep world (.handled pid) (world.handle pid cast later)

namespace Connections

variable {world next : Connections} {pid : ℕ} {key : ConnectionKey}

/-- The socket has the key. -/
def HasKey (world : Connections) (key : ConnectionKey) (pid : ℕ) : Prop :=
  (world.sockets pid).map Prod.fst = some key

instance (world : Connections) (key : ConnectionKey) (pid : ℕ) :
    Decidable (world.HasKey key pid) :=
  inferInstanceAs (Decidable (_ = _))

/-- The most recently registered of the live sockets with the key. -/
def newest (world : Connections) (key : ConnectionKey) : Option ℕ :=
  world.live.find? fun pid => world.HasKey key pid

/-- No live socket but the one that terminates has its key. -/
def LeavesAlone (world : Connections) : ConnectionLabel → Prop
  | .unregistered pid => ∀ key other, world.HasKey key pid → other ∈ world.live →
      world.HasKey key other → other = pid
  | _ => True

/-- What every run without a second socket of a key keeps. -/
structure Registered (world : Connections) : Prop where
  present : ∀ pid ∈ world.live, ∃ key, world.HasKey key pid
  lookup : ∀ key, world.registry.lookup key = world.newest key

theorem hasKey_of_sockets {phase : ConnectionPhase}
    (present : world.sockets pid = some (key, phase)) : world.HasKey key pid :=
  congrArg (Option.map Prod.fst) present

@[simp]
theorem hasKey_enter_self {phase : ConnectionPhase} {other : ConnectionKey} :
    (world.enter pid key phase).HasKey other pid ↔ key = other := by
  simp [HasKey, enter]

theorem hasKey_enter_of_ne {phase : ConnectionPhase} {other : ConnectionKey} {otherPid : ℕ}
    (different : otherPid ≠ pid) :
    (world.enter pid key phase).HasKey other otherPid ↔ world.HasKey other otherPid := by
  simp [HasKey, enter, Function.update_of_ne different]

/-- A socket that goes on keeps its key. -/
theorem hasKey_enter {phase : ConnectionPhase} {other : ConnectionKey} {otherPid : ℕ}
    (present : world.HasKey key pid) :
    (world.enter pid key phase).HasKey other otherPid ↔ world.HasKey other otherPid := by
  by_cases same : otherPid = pid
  · subst same
    rw [hasKey_enter_self, HasKey, present, Option.some.injEq]
  · exact hasKey_enter_of_ne same

/-- The live sockets are found by their keys. -/
theorem newest_congr (sameLive : next.live = world.live)
    (sameKeys : ∀ other ∈ world.live, next.HasKey key other ↔ world.HasKey key other) :
    next.newest key = world.newest key := by
  rw [newest, newest, sameLive]
  exact List.find?_congr fun other otherMem => decide_eq_decide.mpr (sameKeys other otherMem)

theorem Registered.register (registered : world.Registered) (free : world.sockets pid = none) :
    (world.register pid key).Registered := by
  have fresh : ∀ other ∈ world.live, other ≠ pid := by
    rintro other otherMem rfl
    rcases registered.present _ otherMem with ⟨other, hasOther⟩
    simp [HasKey, free] at hasOther
  constructor
  · intro other otherMem
    rcases List.mem_cons.mp otherMem with rfl | older
    · exact ⟨key, hasKey_enter_self.mpr rfl⟩
    · rcases registered.present other older with ⟨otherKey, hasOther⟩
      exact ⟨otherKey, (hasKey_enter_of_ne (fresh other older)).mpr hasOther⟩
  · intro other
    have older : world.live.find? (fun pid' => (world.enter pid key .starting).HasKey other pid') =
        world.newest other :=
      List.find?_congr fun live liveMem =>
        decide_eq_decide.mpr (hasKey_enter_of_ne (fresh live liveMem))
    change world.registry.register key pid other =
      (pid :: world.live).find? fun pid' => (world.enter pid key .starting).HasKey other pid'
    by_cases same : other = key
    · subst same
      rw [List.find?_cons_of_pos (by simp), ConnectionRegistry.register, Function.update_self]
    · rw [List.find?_cons_of_neg (by simpa using Ne.symm same), older,
        ConnectionRegistry.register, Function.update_of_ne same]
      exact registered.lookup other

theorem Registered.unregister (registered : world.Registered)
    (present : world.sockets pid = some (key, .connected))
    (alone : ∀ other ∈ world.live, world.HasKey key other → other = pid) :
    (world.unregister pid key).Registered := by
  have hasKey := hasKey_of_sockets present
  constructor
  · intro other otherMem
    rcases registered.present other (List.mem_filter.mp otherMem).1 with ⟨otherKey, hasOther⟩
    exact ⟨otherKey, (hasKey_enter hasKey).mpr hasOther⟩
  · intro other
    change world.registry.unregister key other = (world.live.filter fun pid' => pid' ≠ pid).find?
      fun pid' => (world.enter pid key .leaving).HasKey other pid'
    rw [List.find?_filter]
    by_cases same : other = key
    · subst same
      rw [ConnectionRegistry.unregister, Function.update_self, eq_comm, List.find?_eq_none]
      intro live liveMem both
      simp only [decide_eq_true_eq, hasKey_enter hasKey] at both
      exact both.1 (alone live liveMem both.2)
    · rw [ConnectionRegistry.unregister, Function.update_of_ne same]
      refine (registered.lookup other).trans (List.find?_congr fun live liveMem => ?_)
      have otherPid : world.HasKey other live → live ≠ pid := by
        rintro hasOther rfl
        exact same (Option.some.inj (hasOther.symm.trans hasKey))
      rw [decide_eq_decide, decide_eq_true_iff, decide_eq_true_iff, hasKey_enter hasKey]
      exact ⟨fun hasOther => ⟨otherPid hasOther, hasOther⟩, And.right⟩

/-- A step that leaves the live sockets, their keys and the registry alone. -/
theorem Registered.of_same (registered : world.Registered) (sameLive : next.live = world.live)
    (sameRegistry : next.registry = world.registry)
    (sameKeys : ∀ key pid, next.HasKey key pid ↔ world.HasKey key pid) : Registered next where
  present pid pidMem := by
    rcases registered.present pid (sameLive ▸ pidMem) with ⟨key, hasKey⟩
    exact ⟨key, (sameKeys key pid).mpr hasKey⟩
  lookup key := by
    rw [newest_congr sameLive fun pid _ => sameKeys key pid, sameRegistry]
    exact registered.lookup key

theorem Registered.step {label : ConnectionLabel} (registered : world.Registered)
    (step : Guarded LeavesAlone ConnectionStep world label next) : Registered next := by
  rcases step with ⟨alone, step⟩
  cases step with
  | registered free => exact registered.register free
  | subscribed present =>
      exact registered.of_same rfl rfl fun _ _ => hasKey_enter (hasKey_of_sockets present)
  | unregistered present =>
      exact registered.unregister present fun other otherMem hasKey =>
        alone _ other (hasKey_of_sockets present) otherMem hasKey
  | unsubscribed present =>
      exact registered.of_same rfl rfl fun _ _ => hasKey_enter (hasKey_of_sockets present)
  | handled waiting => exact registered.of_same rfl rfl fun _ _ => Iff.rfl

theorem registered_start : Registered start where
  present _ pidMem := by cases pidMem
  lookup _ := rfl

/-- In every run in which no socket terminates while another live one has its key, a
lookup finds the newest live socket of the key. -/
theorem lookup_newest {labels : List ConnectionLabel} {world : Connections}
    (run : Run (Guarded LeavesAlone ConnectionStep) start labels world) (key : ConnectionKey) :
    world.registry.lookup key = world.newest key := by
  have registered : Registered world :=
    run.invariant (fun registered step => Registered.step registered step) registered_start
  exact registered.lookup key

/-- A socket that terminates while another live one has its key takes the entry away. -/
theorem lookup_ne_newest {label : ConnectionLabel} (step : ConnectionStep world label next)
    (notAlone : ¬world.LeavesAlone label) :
    ∃ key, next.registry.lookup key ≠ next.newest key := by
  cases step with
  | @unregistered pid key present =>
      have hasKey := hasKey_of_sockets present
      simp only [LeavesAlone, not_forall] at notAlone
      rcases notAlone with ⟨otherKey, other, otherHas, otherMem, both, different⟩
      cases Option.some.inj (hasKey.symm.trans otherHas)
      refine ⟨key, fun found => ?_⟩
      change Function.update world.registry key none key =
        (world.live.filter fun other => other ≠ pid).find?
          fun other => (world.enter pid key .leaving).HasKey key other at found
      rw [Function.update_self, eq_comm, List.find?_eq_none] at found
      apply found other (List.mem_filter.mpr ⟨otherMem, by simpa using different⟩)
      exact decide_eq_true ((hasKey_enter hasKey).mpr both)
  | _ => exact absurd trivial notAlone

/-! ### A device that reconnects -/

def deviceKey (device : Byte) : ConnectionKey where
  tenantId := .replicate 1
  userId := .replicate 2
  deviceId := .replicate device

/-- The device has connected again before its first socket terminates. -/
def reconnected : Connections :=
  ((start.register 0 (deviceKey 3)).subscribe 0 (deviceKey 3)).register 1 (deviceKey 3)

theorem run_reconnected : ∃ labels, Run ConnectionStep start labels reconnected := by
  have registers := @ConnectionStep.registered start 0 (deviceKey 3) rfl
  have subscribes := @ConnectionStep.subscribed (start.register 0 (deviceKey 3)) 0 (deviceKey 3) rfl
  have reconnects := @ConnectionStep.registered
    ((start.register 0 (deviceKey 3)).subscribe 0 (deviceKey 3)) 1 (deviceKey 3) rfl
  exact ⟨_, ((Run.refl.snoc registers).snoc subscribes).snoc reconnects⟩

/-- The first socket of the device terminates, and the second is not found any more. -/
theorem lookup_lost_on_reconnect :
    ¬∀ (labels : List ConnectionLabel) (world : Connections) (key : ConnectionKey),
      Run ConnectionStep start labels world →
        world.registry.lookup key = world.newest key := by
  intro found
  rcases run_reconnected with ⟨labels, run⟩
  have unregisters := @ConnectionStep.unregistered reconnected 0 (deviceKey 3) rfl
  have notAlone : ¬reconnected.LeavesAlone (.unregistered 0) := by
    intro alone
    have same := alone (deviceKey 3) 1 rfl (List.mem_cons_self ..) rfl
    cases same
  rcases lookup_ne_newest unregisters notAlone with ⟨key, different⟩
  exact different (found _ _ key (run.snoc unregisters))

/-- A device connects again after its socket has terminated, and once more while the second
socket is live. -/
theorem lookup_newest_of_returned :
    ∃ labels world, Run (Guarded LeavesAlone ConnectionStep) start labels world ∧
      .unregistered 0 ∈ labels ∧ world.live = [2, 1] ∧
        world.newest (deviceKey 3) = some 2 ∧
          world.registry.lookup (deviceKey 3) = world.newest (deviceKey 3) := by
  have run : ∃ labels world, Run (Guarded LeavesAlone ConnectionStep) start labels world ∧
      .unregistered 0 ∈ labels ∧ world.live = [2, 1] ∧
        world.newest (deviceKey 3) = some 2 := by
    refine Run.exists_cons (.intro (@ConnectionStep.registered _ 0 (deviceKey 3) rfl) trivial) ?_
    refine Run.exists_cons (.intro (@ConnectionStep.subscribed _ 0 (deviceKey 3) rfl) trivial) ?_
    refine Run.exists_cons (.intro (@ConnectionStep.unregistered _ 0 (deviceKey 3) rfl) ?_) ?_
    · intro key other _ otherMem _
      exact List.mem_singleton.mp otherMem
    refine Run.exists_cons (.intro (@ConnectionStep.registered _ 1 (deviceKey 3) rfl) trivial) ?_
    refine Run.exists_cons (.intro (@ConnectionStep.registered _ 2 (deviceKey 3) rfl) trivial) ?_
    exact ⟨[], _, Run.refl, by simp, rfl, rfl⟩
  rcases run with ⟨labels, world, run, left, live, newest⟩
  exact ⟨labels, world, run, left, live, newest, lookup_newest run (deviceKey 3)⟩

end Connections

end Mercury.Gateway
