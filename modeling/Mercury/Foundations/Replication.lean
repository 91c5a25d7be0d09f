import Mathlib.Data.Finset.Basic
import Mathlib.Data.Finset.Card
import Mathlib.Data.Finset.Union
import Mathlib.Logic.Function.Basic
import Mercury.Foundations.Run

/-!
# Replicas that update locally and merge snapshots

A state-based replicated data type, run at any number of replicas. A replica
applies operations to its own state and merges any snapshot that any replica
has ever held, so snapshots may be stale, lost, reordered and repeated.

The cluster also records what no replica sees: the operations performed so far,
and for each copy of the state its causal history, the set of the operations
that went into it. An operation is known by its position in that record and
carries the history of the copy it was applied to.
-/

namespace Foundations

universe u

/-- A replicated data type. `update` fails where the code panics; its second
component is what the operation is remembered by (a tag, a timestamp). -/
structure Replicated (Replica Op Output State : Type u) where
  initial : State
  update : Replica → Op → State → Option (State × Output)
  merge : State → State → State

namespace Replicated

variable {Replica Op Output State : Type u}

/-- An operation as it was performed. -/
structure Event (Replica Op Output : Type u) where
  origin : Replica
  op : Op
  output : Output
  /-- The operations the performing replica had seen. -/
  past : Finset ℕ

/-- A state together with the operations that went into it. -/
structure Copy (State : Type u) where
  state : State
  history : Finset ℕ

/-- The replicas' copies, every copy held so far, and the record of operations. -/
structure Cluster (Replica Op Output State : Type u) where
  events : List (Event Replica Op Output)
  copy : Replica → Copy State
  snapshots : List (Copy State)

/-- The two things a replica does. -/
inductive Action (Replica Op State : Type u) where
  | update (replica : Replica) (op : Op)
  | merge (replica : Replica) (snapshot : Copy State)

/-- The operation recorded at a position. -/
def opAt (events : List (Event Replica Op Output)) (index : ℕ) : Option Op :=
  events[index]?.map Event.op

/-- What the operation at a position is remembered by. -/
def outputAt (events : List (Event Replica Op Output)) (index : ℕ) : Option Output :=
  events[index]?.map Event.output

/-- The operations seen by the replica that performed the operation at a position. -/
def pastAt (events : List (Event Replica Op Output)) (index : ℕ) : Finset ℕ :=
  (events[index]?.map Event.past).getD ∅

section Lookup

variable (events : List (Event Replica Op Output)) (event : Event Replica Op Output)

theorem opAt_append {index : ℕ} (known : index < events.length) :
    opAt (events ++ [event]) index = opAt events index := by
  simp [opAt, List.getElem?_append_left known]

theorem outputAt_append {index : ℕ} (known : index < events.length) :
    outputAt (events ++ [event]) index = outputAt events index := by
  simp [outputAt, List.getElem?_append_left known]

theorem pastAt_append {index : ℕ} (known : index < events.length) :
    pastAt (events ++ [event]) index = pastAt events index := by
  simp [pastAt, List.getElem?_append_left known]

@[simp]
theorem opAt_length : opAt (events ++ [event]) events.length = some event.op := by
  simp [opAt]

@[simp]
theorem outputAt_length : outputAt (events ++ [event]) events.length = some event.output := by
  simp [outputAt]

@[simp]
theorem pastAt_length : pastAt (events ++ [event]) events.length = event.past := by
  simp [pastAt]

end Lookup

variable (type : Replicated Replica Op Output State)

/-- The copy a replica holds after merging `other` into `copy`. -/
def mergeCopies (copy other : Copy State) : Copy State where
  state := type.merge copy.state other.state
  history := copy.history ∪ other.history

namespace Cluster

variable [DecidableEq Replica]

/-- Before any step: every replica holds the initial state. -/
def start : Cluster Replica Op Output State where
  events := []
  copy _ := ⟨type.initial, ∅⟩
  snapshots := [⟨type.initial, ∅⟩]

/-- Replica `replica` goes on to hold `copy`. -/
def hold (cluster : Cluster Replica Op Output State) (replica : Replica) (copy : Copy State) :
    Cluster Replica Op Output State :=
  { cluster with
    copy := Function.update cluster.copy replica copy
    snapshots := cluster.snapshots ++ [copy] }

/-- The operation `op` enters the record as the next event. -/
def record (cluster : Cluster Replica Op Output State) (replica : Replica) (op : Op)
    (output : Output) : Cluster Replica Op Output State :=
  { cluster with
    events := cluster.events ++ [⟨replica, op, output, (cluster.copy replica).history⟩] }

section Hold

variable {cluster : Cluster Replica Op Output State} {replica : Replica} {copy : Copy State}

/-- What is true of the copies of all replicas, after one of them changes its copy. -/
theorem forall_copy_hold (good : Replica → Copy State → Prop) (now : good replica copy)
    (others : ∀ other, other ≠ replica → good other (cluster.copy other)) (other : Replica) :
    good other ((cluster.hold replica copy).copy other) := by
  by_cases same : other = replica
  · subst other
    simpa [hold] using now
  · simpa [hold, Function.update_of_ne same] using others other same

/-- What is true of every copy ever held. -/
theorem forall_snapshots_hold {good : Copy State → Prop}
    (earlier : ∀ held ∈ cluster.snapshots, good held) (now : good copy) :
    ∀ held ∈ (cluster.hold replica copy).snapshots, good held := by
  intro held heldMem
  rcases List.mem_append.mp heldMem with before | new
  · exact earlier held before
  · exact List.mem_singleton.mp new ▸ now

/-- Every replica holds one of the copies that were ever held. -/
theorem current_hold (current : ∀ other, cluster.copy other ∈ cluster.snapshots)
    (other : Replica) :
    (cluster.hold replica copy).copy other ∈ (cluster.hold replica copy).snapshots :=
  forall_copy_hold (fun _ held => held ∈ cluster.snapshots ++ [copy]) (by simp)
    (fun other _ => List.mem_append_left _ (current other)) other

end Hold

end Cluster

variable [DecidableEq Replica]

/-- One step of the cluster. -/
inductive Step : Cluster Replica Op Output State → Action Replica Op State →
    Cluster Replica Op Output State → Prop where
  | update {cluster : Cluster Replica Op Output State} {replica : Replica} {op : Op}
      {state : State} {output : Output}
      (applied : type.update replica op (cluster.copy replica).state = some (state, output)) :
      Step cluster (.update replica op)
        ((cluster.record replica op output).hold replica
          ⟨state, insert cluster.events.length (cluster.copy replica).history⟩)
  | merge {cluster : Cluster Replica Op Output State} {replica : Replica} {snapshot : Copy State}
      (held : snapshot ∈ cluster.snapshots) :
      Step cluster (.merge replica snapshot)
        (cluster.hold replica (type.mergeCopies (cluster.copy replica) snapshot))

/-- A condition on the merges of a run: on the record, the copy held and the snapshot. -/
abbrev MergeGuard (Replica Op Output State : Type u) :=
  List (Event Replica Op Output) → Copy State → Copy State → Prop

/-- The guard of a step that is put on its merges only. -/
def MergeGuard.onStep (guard : MergeGuard Replica Op Output State)
    (cluster : Cluster Replica Op Output State) : Action Replica Op State → Prop
  | .update _ _ => True
  | .merge replica snapshot => guard cluster.events (cluster.copy replica) snapshot

/-- The runs from the start whose merges all meet `guard`. -/
def GuardedRun (guard : MergeGuard Replica Op Output State)
    (actions : List (Action Replica Op State))
    (cluster : Cluster Replica Op Output State) : Prop :=
  Run (Guarded guard.onStep type.Step) (Cluster.start type) actions cluster

/-- The runs from the start. -/
def ReachedBy (actions : List (Action Replica Op State))
    (cluster : Cluster Replica Op Output State) : Prop :=
  Run type.Step (Cluster.start type) actions cluster

/-- What the record and a copy always satisfy: operations have only seen earlier
ones, and a history is a set of recorded operations that is closed under having seen. -/
structure Grounded (events : List (Event Replica Op Output)) (copy : Copy State) : Prop where
  earlier : ∀ {later index}, index ∈ pastAt events later → index < later
  bounded : ∀ {index}, index ∈ copy.history → index < events.length
  closed : ∀ {later}, later ∈ copy.history → pastAt events later ⊆ copy.history

/-- A property of grounded copies that every step of a run keeps. -/
structure Inductive (guard : MergeGuard Replica Op Output State)
    (property : List (Event Replica Op Output) → Copy State → Prop) : Prop where
  initial : property [] ⟨type.initial, ∅⟩
  extend : ∀ {events copy} event, Grounded events copy →
    property events copy → property (events ++ [event]) copy
  update : ∀ {events copy replica op state output}, Grounded events copy →
    property events copy → type.update replica op copy.state = some (state, output) →
    property (events ++ [⟨replica, op, output, copy.history⟩])
      ⟨state, insert events.length copy.history⟩
  merge : ∀ {events copy other}, Grounded events copy → Grounded events other →
    property events copy → property events other → guard events copy other →
    property events (type.mergeCopies copy other)

namespace Grounded

variable {events : List (Event Replica Op Output)} {copy other : Copy State}

omit [DecidableEq Replica] in
theorem pastAt_append_cases (grounded : Grounded events copy) (event : Event Replica Op Output)
    (seen : event.past ⊆ copy.history) {later index : ℕ}
    (mem : index ∈ pastAt (events ++ [event]) later) : index < later := by
  rcases lt_trichotomy later events.length with recorded | rfl | beyond
  · rw [pastAt_append events event recorded] at mem
    exact grounded.earlier mem
  · rw [pastAt_length] at mem
    exact grounded.bounded (seen mem)
  · have missing : (events ++ [event])[later]? = none := by simp; omega
    simp [pastAt, missing] at mem

omit [DecidableEq Replica] in
theorem append (grounded : Grounded events copy) (event : Event Replica Op Output)
    (pasts : ∀ {later index}, index ∈ pastAt (events ++ [event]) later → index < later) :
    Grounded (events ++ [event]) copy where
  earlier := pasts
  bounded mem := by
    have := grounded.bounded mem
    simp only [List.length_append, List.length_singleton]
    omega
  closed mem := by
    rw [pastAt_append events event (grounded.bounded mem)]
    exact grounded.closed mem

omit [DecidableEq Replica] in
theorem performed (grounded : Grounded events copy) (replica : Replica) (op : Op)
    (output : Output) (state : State) :
    Grounded (events ++ [⟨replica, op, output, copy.history⟩])
      ⟨state, insert events.length copy.history⟩ where
  earlier := grounded.pastAt_append_cases _ (Finset.Subset.refl _)
  bounded mem := by
    simp only [List.length_append, List.length_singleton]
    rcases Finset.mem_insert.mp mem with rfl | earlier
    · omega
    · have := grounded.bounded earlier
      omega
  closed := by
    intro later mem
    rcases Finset.mem_insert.mp mem with rfl | earlier
    · rw [pastAt_length]
      exact Finset.subset_insert _ _
    · rw [pastAt_append events _ (grounded.bounded earlier)]
      exact (grounded.closed earlier).trans (Finset.subset_insert _ _)

omit [DecidableEq Replica] in
theorem merge (grounded : Grounded events copy) (otherGrounded : Grounded events other) :
    Grounded events (type.mergeCopies copy other) where
  earlier := grounded.earlier
  bounded mem := by
    rcases Finset.mem_union.mp mem with mine | theirs
    · exact grounded.bounded mine
    · exact otherGrounded.bounded theirs
  closed := by
    intro later mem
    rcases Finset.mem_union.mp mem with mine | theirs
    · exact (grounded.closed mine).trans Finset.subset_union_left
    · exact (otherGrounded.closed theirs).trans Finset.subset_union_right

end Grounded

namespace Cluster

/-- `property` holds of every copy ever held, and all of them are grounded. -/
structure Holds (property : List (Event Replica Op Output) → Copy State → Prop)
    (cluster : Cluster Replica Op Output State) : Prop where
  snapshots : ∀ copy ∈ cluster.snapshots,
    Grounded cluster.events copy ∧ property cluster.events copy
  current : ∀ replica, cluster.copy replica ∈ cluster.snapshots

variable {property : List (Event Replica Op Output) → Copy State → Prop}

theorem Holds.hold {cluster : Cluster Replica Op Output State} (holds : cluster.Holds property)
    {replica : Replica} {copy : Copy State} (grounded : Grounded cluster.events copy)
    (good : property cluster.events copy) : (cluster.hold replica copy).Holds property where
  snapshots := forall_snapshots_hold holds.snapshots ⟨grounded, good⟩
  current := current_hold holds.current

omit [DecidableEq Replica] in
theorem Holds.record {guard : MergeGuard Replica Op Output State}
    (rule : type.Inductive guard property) {cluster : Cluster Replica Op Output State}
    (holds : cluster.Holds property) (replica : Replica) (op : Op) (output : Output) :
    (cluster.record replica op output).Holds property where
  snapshots := by
    intro copy copyMem
    rcases holds.snapshots copy copyMem with ⟨grounded, good⟩
    have actor := (holds.snapshots _ (holds.current replica)).1
    exact ⟨grounded.append _ (actor.pastAt_append_cases _ (Finset.Subset.refl _)),
      rule.extend _ grounded good⟩
  current := holds.current

theorem Holds.step {guard : MergeGuard Replica Op Output State}
    (rule : type.Inductive guard property) {cluster next : Cluster Replica Op Output State}
    {action : Action Replica Op State} (holds : cluster.Holds property)
    (taken : Guarded guard.onStep type.Step cluster action next) : next.Holds property := by
  rcases taken with ⟨admitted, step⟩
  cases step with
  | @update replica op state output applied =>
      rcases holds.snapshots _ (holds.current replica) with ⟨grounded, good⟩
      exact (holds.record type rule replica op output).hold
        (grounded.performed replica op output state) (rule.update grounded good applied)
  | @merge replica snapshot held =>
      rcases holds.snapshots _ (holds.current replica) with ⟨grounded, good⟩
      rcases holds.snapshots snapshot held with ⟨otherGrounded, otherGood⟩
      exact holds.hold (grounded.merge type otherGrounded)
        (rule.merge grounded otherGrounded good otherGood admitted)

end Cluster

variable {type}

theorem Inductive.holds_cluster {guard : MergeGuard Replica Op Output State}
    {property : List (Event Replica Op Output) → Copy State → Prop}
    (rule : type.Inductive guard property) {actions : List (Action Replica Op State)}
    {cluster : Cluster Replica Op Output State} (run : type.GuardedRun guard actions cluster) :
    cluster.Holds property := by
  refine Run.invariant (fun holds taken => holds.step type rule taken) run ⟨?_, ?_⟩
  · intro copy copyMem
    simp only [Cluster.start, List.mem_singleton] at copyMem
    subst copy
    refine ⟨⟨?_, by simp, by simp⟩, rule.initial⟩
    intro later index mem
    simp [pastAt, Cluster.start] at mem
  · simp [Cluster.start]

/-- What is inductive holds of every copy any replica holds in a guarded run. -/
theorem Inductive.holds {guard : MergeGuard Replica Op Output State}
    {property : List (Event Replica Op Output) → Copy State → Prop}
    (rule : type.Inductive guard property) {actions : List (Action Replica Op State)}
    {cluster : Cluster Replica Op Output State} (run : type.GuardedRun guard actions cluster)
    (replica : Replica) : property cluster.events (cluster.copy replica) :=
  ((rule.holds_cluster run).snapshots _ ((rule.holds_cluster run).current replica)).2

/-- The histories of a guarded run are grounded in its record. -/
theorem GuardedRun.grounded {guard : MergeGuard Replica Op Output State}
    {actions : List (Action Replica Op State)} {cluster : Cluster Replica Op Output State}
    (run : type.GuardedRun guard actions cluster) (replica : Replica) :
    Grounded cluster.events (cluster.copy replica) := by
  have rule : type.Inductive guard fun _ _ => True :=
    ⟨trivial, fun _ _ _ => trivial, fun _ _ _ => trivial, fun _ _ _ _ _ => trivial⟩
  exact ((rule.holds_cluster run).snapshots _ ((rule.holds_cluster run).current replica)).1

/-- A run whose merges are not constrained is a guarded run with the trivial guard. -/
theorem ReachedBy.guarded {actions : List (Action Replica Op State)}
    {cluster : Cluster Replica Op Output State} (run : type.ReachedBy actions cluster) :
    type.GuardedRun (fun _ _ _ => True) actions cluster := by
  refine Run.mono (fun {source label target} taken => ⟨?_, taken⟩) run
  cases label <;> trivial

section Scripts

/-- A step of a script; a snapshot is named by its position among those held so far. -/
inductive Instruction (Replica Op : Type u) where
  | update (replica : Replica) (op : Op)
  | merge (replica : Replica) (snapshot : ℕ)

variable (type) (guard : MergeGuard Replica Op Output State)
  [∀ events copy other, Decidable (guard events copy other)]

/-- The step of an instruction, if it is possible and admitted by `guard`. -/
def Cluster.perform (cluster : Cluster Replica Op Output State) :
    Instruction Replica Op → Option (Cluster Replica Op Output State)
  | .update replica op =>
      (type.update replica op (cluster.copy replica).state).map fun result =>
        (cluster.record replica op result.2).hold replica
          ⟨result.1, insert cluster.events.length (cluster.copy replica).history⟩
  | .merge replica index =>
      (cluster.snapshots[index]?).bind fun snapshot =>
        if guard cluster.events (cluster.copy replica) snapshot then
          some (cluster.hold replica (type.mergeCopies (cluster.copy replica) snapshot))
        else none

/-- The cluster after a script. -/
def Cluster.play (cluster : Cluster Replica Op Output State) :
    List (Instruction Replica Op) → Option (Cluster Replica Op Output State)
  | [] => some cluster
  | instruction :: rest => (cluster.perform type guard instruction).bind fun next => next.play rest

variable {type guard}

theorem Cluster.exists_step_of_perform {cluster next : Cluster Replica Op Output State}
    {instruction : Instruction Replica Op}
    (performed : cluster.perform type guard instruction = some next) :
    ∃ action, Guarded guard.onStep type.Step cluster action next := by
  cases instruction with
  | update replica op =>
      simp only [Cluster.perform, Option.map_eq_some_iff] at performed
      rcases performed with ⟨⟨state, output⟩, applied, rfl⟩
      exact ⟨.update replica op, trivial, Step.update applied⟩
  | merge replica index =>
      simp only [Cluster.perform, Option.bind_eq_some_iff, Option.ite_none_right_eq_some,
        Option.some.injEq] at performed
      rcases performed with ⟨snapshot, found, admitted, rfl⟩
      exact ⟨.merge replica snapshot, admitted, Step.merge (List.mem_of_getElem? found)⟩

/-- A script that can be played is a guarded run. -/
theorem Cluster.exists_run_of_play {script : List (Instruction Replica Op)}
    {cluster next : Cluster Replica Op Output State}
    (played : cluster.play type guard script = some next) :
    ∃ actions, Run (Guarded guard.onStep type.Step) cluster actions next := by
  induction script generalizing cluster with
  | nil =>
      simp only [Cluster.play, Option.some.injEq] at played
      subst next
      exact ⟨[], Run.refl⟩
  | cons instruction rest ih =>
      simp only [Cluster.play, Option.bind_eq_some_iff] at played
      rcases played with ⟨middle, performed, played⟩
      rcases Cluster.exists_step_of_perform performed with ⟨action, step⟩
      rcases ih played with ⟨actions, run⟩
      exact ⟨action :: actions, Run.cons step run⟩

variable (type guard)

/-- The guarded run of a script that can be played from the start. -/
theorem guardedRun_play (script : List (Instruction Replica Op))
    (played : ((Cluster.start type).play type guard script).isSome) :
    ∃ actions, type.GuardedRun guard actions
      (((Cluster.start type).play type guard script).get played) :=
  Cluster.exists_run_of_play (Option.some_get played).symm

end Scripts

section Origins

/-- The replica that performed the operation at a position. -/
def originAt (events : List (Event Replica Op Output)) (index : ℕ) : Option Replica :=
  events[index]?.map Event.origin

/-- Every operation has seen the earlier ones of its own replica. -/
def SeesOwn (events : List (Event Replica Op Output)) : Prop :=
  ∀ {earlier later}, earlier < later → later < events.length →
    originAt events earlier = originAt events later → earlier ∈ pastAt events later

/-- Every replica holds its own operations. -/
structure Cluster.Owns (cluster : Cluster Replica Op Output State) : Prop where
  seesOwn : SeesOwn cluster.events
  holdsOwn : ∀ {index replica}, originAt cluster.events index = some replica →
    index ∈ (cluster.copy replica).history

omit [DecidableEq Replica] in
theorem originAt_append {events : List (Event Replica Op Output)} {index : ℕ}
    (known : index < events.length) (event : Event Replica Op Output) :
    originAt (events ++ [event]) index = originAt events index := by
  simp [originAt, List.getElem?_append_left known]

omit [DecidableEq Replica] in
@[simp]
theorem originAt_length (events : List (Event Replica Op Output))
    (event : Event Replica Op Output) :
    originAt (events ++ [event]) events.length = some event.origin := by
  simp [originAt]

omit [DecidableEq Replica] in
theorem lt_of_originAt {events : List (Event Replica Op Output)} {index : ℕ} {replica : Replica}
    (origin : originAt events index = some replica) : index < events.length := by
  rcases Option.map_eq_some_iff.mp origin with ⟨event, eventAt, _⟩
  exact (List.getElem?_eq_some_iff.mp eventAt).1

omit [DecidableEq Replica] in
/-- An operation of the longer record is an earlier one or the new one. -/
theorem originAt_append_cases {events : List (Event Replica Op Output)}
    {event : Event Replica Op Output} {index : ℕ} {replica : Replica}
    (origin : originAt (events ++ [event]) index = some replica) :
    originAt events index = some replica ∨ index = events.length ∧ event.origin = replica := by
  have known := lt_of_originAt origin
  rw [List.length_append, List.length_singleton] at known
  rcases Nat.lt_or_ge index events.length with old | new
  · exact Or.inl ((originAt_append old event).symm.trans origin)
  · obtain rfl : index = events.length := by omega
    rw [originAt_length, Option.some.injEq] at origin
    exact Or.inr ⟨rfl, origin⟩

/-- What a replica has seen, it goes on having seen. -/
theorem Step.history_subset {type : Replicated Replica Op Output State}
    {cluster next : Cluster Replica Op Output State} {action : Action Replica Op State}
    (step : type.Step cluster action next) (replica : Replica) :
    (cluster.copy replica).history ⊆ (next.copy replica).history := by
  cases step with
  | @update actor op state output applied =>
      exact Cluster.forall_copy_hold (fun other held => (cluster.copy other).history ⊆ held.history)
        (Finset.subset_insert _ _) (fun _ _ => Finset.Subset.refl _) replica
  | @merge actor snapshot held =>
      exact Cluster.forall_copy_hold (fun other held => (cluster.copy other).history ⊆ held.history)
        Finset.subset_union_left (fun _ _ => Finset.Subset.refl _) replica

/-- What a replica has seen, it has seen at the end of the run. -/
theorem history_subset_of_run {type : Replicated Replica Op Output State}
    {cluster next : Cluster Replica Op Output State} {actions : List (Action Replica Op State)}
    (run : Run type.Step cluster actions next) (replica : Replica) :
    (cluster.copy replica).history ⊆ (next.copy replica).history := by
  induction run with
  | refl => exact Finset.Subset.refl _
  | snoc _ last ih => exact ih.trans (last.history_subset replica)

/-- The record only grows. -/
theorem length_events_le_of_run {type : Replicated Replica Op Output State}
    {cluster next : Cluster Replica Op Output State} {actions : List (Action Replica Op State)}
    (run : Run type.Step cluster actions next) :
    cluster.events.length ≤ next.events.length := by
  induction run with
  | refl => exact Nat.le_refl _
  | snoc _ last ih =>
      apply ih.trans
      cases last with
      | update => simp [Cluster.hold, Cluster.record]
      | merge => exact Nat.le_refl _

theorem Cluster.Owns.step {type : Replicated Replica Op Output State}
    {cluster next : Cluster Replica Op Output State} {action : Action Replica Op State}
    (owns : cluster.Owns) (step : type.Step cluster action next) : next.Owns := by
  have grows := step.history_subset
  cases step with
  | merge held => exact ⟨owns.seesOwn, fun origin => grows _ (owns.holdsOwn origin)⟩
  | @update actor op state output applied =>
      constructor
      · intro earlier later before known sameOrigin
        simp only [Cluster.hold, Cluster.record, List.length_append, List.length_singleton]
          at known sameOrigin ⊢
        rcases Nat.lt_or_ge later cluster.events.length with old | new
        · rw [originAt_append old, originAt_append (before.trans old)] at sameOrigin
          rw [pastAt_append _ _ old]
          exact owns.seesOwn before old sameOrigin
        · obtain rfl : later = cluster.events.length := by omega
          rw [originAt_append before, originAt_length] at sameOrigin
          rw [pastAt_length]
          exact owns.holdsOwn sameOrigin
      · intro index replica origin
        rcases originAt_append_cases origin with old | ⟨rfl, rfl⟩
        · exact grows _ (owns.holdsOwn old)
        · simp [Cluster.hold]

omit [DecidableEq Replica] in
theorem Cluster.owns_start (type : Replicated Replica Op Output State) :
    (Cluster.start type).Owns where
  seesOwn _ known := by simp [Cluster.start] at known
  holdsOwn origin := by simp [Cluster.start, originAt] at origin

theorem ReachedBy.owns {type : Replicated Replica Op Output State}
    {actions : List (Action Replica Op State)} {cluster : Cluster Replica Op Output State}
    (run : type.ReachedBy actions cluster) : cluster.Owns :=
  Run.invariant (fun owns step => owns.step step) run (Cluster.owns_start type)

omit [DecidableEq Replica] in
/-- Of the operations of one replica, two copies have seen the same or one has seen more. -/
theorem history_comparable {events : List (Event Replica Op Output)} (seesOwn : SeesOwn events)
    {copy other : Copy State} (grounded : Grounded events copy)
    (otherGrounded : Grounded events other) (replica : Replica) :
    (∀ index ∈ copy.history, originAt events index = some replica → index ∈ other.history) ∨
      (∀ index ∈ other.history, originAt events index = some replica → index ∈ copy.history) := by
  by_contra neither
  push Not at neither
  rcases neither with ⟨⟨mine, mineMem, mineOrigin, notTheirs⟩,
    ⟨theirs, theirsMem, theirsOrigin, notMine⟩⟩
  rcases lt_trichotomy mine theirs with before | rfl | after
  · exact notTheirs (otherGrounded.closed theirsMem (seesOwn before
      (otherGrounded.bounded theirsMem) (mineOrigin.trans theirsOrigin.symm)))
  · exact notTheirs theirsMem
  · exact notMine (grounded.closed mineMem (seesOwn after (grounded.bounded mineMem)
      (theirsOrigin.trans mineOrigin.symm)))

/-- The operations of one replica in a history. -/
def performedBy (events : List (Event Replica Op Output)) (history : Finset ℕ)
    (replica : Replica) : Finset ℕ :=
  history.filter fun index => originAt events index = some replica

theorem performedBy_append {events : List (Event Replica Op Output)} {history : Finset ℕ}
    (bounded : ∀ {index}, index ∈ history → index < events.length)
    (event : Event Replica Op Output) (replica : Replica) :
    performedBy (events ++ [event]) history replica = performedBy events history replica :=
  Finset.filter_congr fun index indexMem => by rw [originAt_append (bounded indexMem)]

/-- A performed operation is one more of its replica. -/
theorem card_performedBy_insert {events : List (Event Replica Op Output)} {history : Finset ℕ}
    (bounded : ∀ {index}, index ∈ history → index < events.length)
    (event : Event Replica Op Output) (replica : Replica) :
    (performedBy (events ++ [event]) (insert events.length history) replica).card =
      (performedBy events history replica).card + if replica = event.origin then 1 else 0 := by
  rw [performedBy, Finset.filter_insert, originAt_length]
  have fresh : events.length ∉ history := fun mem => Nat.lt_irrefl _ (bounded mem)
  by_cases same : replica = event.origin
  · rw [if_pos (by rw [same]), if_pos same, Finset.card_insert_of_notMem]
    · rw [← performedBy, performedBy_append bounded]
    · intro mem
      exact fresh (Finset.mem_filter.mp mem).1
  · rw [if_neg fun equal => same (Option.some.inj equal).symm, if_neg same, ← performedBy,
      performedBy_append bounded, Nat.add_zero]

/-- Of the operations of one replica, a joint history has as many as the better
informed of the two. -/
theorem card_performedBy_union {events : List (Event Replica Op Output)}
    (seesOwn : SeesOwn events) {copy other : Copy State} (grounded : Grounded events copy)
    (otherGrounded : Grounded events other) (replica : Replica) :
    (performedBy events (copy.history ∪ other.history) replica).card =
      max (performedBy events copy.history replica).card
        (performedBy events other.history replica).card := by
  have joint : performedBy events (copy.history ∪ other.history) replica =
      performedBy events copy.history replica ∪ performedBy events other.history replica :=
    Finset.filter_union _ _ _
  rw [joint]
  have subset : ∀ left right : Finset ℕ,
      (∀ index ∈ left, originAt events index = some replica → index ∈ right) →
        performedBy events left replica ⊆ performedBy events right replica := by
    intro left right within index indexMem
    rcases Finset.mem_filter.mp indexMem with ⟨seen, origin⟩
    exact Finset.mem_filter.mpr ⟨within index seen origin, origin⟩
  rcases history_comparable seesOwn grounded otherGrounded replica with less | more
  · have included := subset _ _ less
    rw [Finset.union_eq_right.mpr included, max_eq_right (Finset.card_le_card included)]
  · have included := subset _ _ more
    rw [Finset.union_eq_left.mpr included, max_eq_left (Finset.card_le_card included)]

end Origins

section Simulation

variable {Concrete : Type u} (concrete : Replicated Replica Op Output Concrete)
  (abstract : Replicated Replica Op Output State)

/-- `view` is a simulation: it commutes with both operations of the data types. -/
structure Simulation (view : Concrete → State) : Prop where
  initial : view concrete.initial = abstract.initial
  update : ∀ {replica op state next output},
    concrete.update replica op state = some (next, output) →
    abstract.update replica op (view state) = some (view next, output)
  merge : ∀ left right,
    view (concrete.merge left right) = abstract.merge (view left) (view right)

/-- The copy seen through `view`. -/
def Copy.map (view : Concrete → State) (copy : Copy Concrete) : Copy State :=
  ⟨view copy.state, copy.history⟩

/-- The cluster seen through `view`. -/
def Cluster.map (view : Concrete → State) (cluster : Cluster Replica Op Output Concrete) :
    Cluster Replica Op Output State where
  events := cluster.events
  copy replica := (cluster.copy replica).map view
  snapshots := cluster.snapshots.map (Copy.map view)

/-- The step seen through `view`. -/
def Action.map (view : Concrete → State) :
    Action Replica Op Concrete → Action Replica Op State
  | .update replica op => .update replica op
  | .merge replica snapshot => .merge replica (snapshot.map view)

theorem Cluster.map_hold (view : Concrete → State)
    (cluster : Cluster Replica Op Output Concrete) (replica : Replica) (copy : Copy Concrete) :
    (cluster.hold replica copy).map view = (cluster.map view).hold replica (copy.map view) := by
  have copies : (fun other => (Function.update cluster.copy replica copy other).map view) =
      Function.update (fun other => (cluster.copy other).map view) replica (copy.map view) := by
    funext other
    by_cases same : other = replica
    · subst other
      simp
    · simp [Function.update_of_ne same]
  simp [Cluster.map, Cluster.hold, copies]

variable {concrete abstract} {view : Concrete → State}

theorem Simulation.step (simulates : Simulation concrete abstract view)
    {cluster next : Cluster Replica Op Output Concrete} {action : Action Replica Op Concrete}
    (step : concrete.Step cluster action next) :
    abstract.Step (cluster.map view) (action.map view) (next.map view) := by
  cases step with
  | @update replica op state output applied =>
      rw [Cluster.map_hold]
      exact @Step.update _ _ _ _ abstract _ (cluster.map view) replica op _ output
        (simulates.update applied)
  | @merge replica snapshot held =>
      rw [Cluster.map_hold]
      have copies : (concrete.mergeCopies (cluster.copy replica) snapshot).map view =
          abstract.mergeCopies ((cluster.copy replica).map view) (snapshot.map view) := by
        simp [mergeCopies, Copy.map, simulates.merge]
      rw [copies]
      exact @Step.merge _ _ _ _ abstract _ (cluster.map view) replica _
        (List.mem_map_of_mem held)

/-- A guarded run of the concrete type is, seen through `view`, one of the abstract type. -/
theorem Simulation.guardedRun (simulates : Simulation concrete abstract view)
    {guard : MergeGuard Replica Op Output State} {actions : List (Action Replica Op Concrete)}
    {cluster : Cluster Replica Op Output Concrete}
    (run : concrete.GuardedRun
      (fun events copy other => guard events (copy.map view) (other.map view)) actions cluster) :
    abstract.GuardedRun guard (actions.map (Action.map view)) (cluster.map view) := by
  induction run with
  | refl =>
      have started : (Cluster.start concrete).map view = Cluster.start abstract := by
        simp [Cluster.map, Cluster.start, Copy.map, simulates.initial]
      rw [started]
      exact Run.refl
  | @snoc middle target labels label _ last ih =>
      rw [List.map_append]
      refine Run.snoc ih ⟨?_, simulates.step last.2⟩
      have admitted := last.1
      cases label with
      | update => trivial
      | merge => exact admitted

end Simulation

end Replicated

end Foundations
