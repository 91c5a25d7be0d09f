import Mercury.Crdt.LwwRegister
import Mercury.Foundations.Replication

/-!
# The register over whole runs

Replicas of an `LwwRegister` write at the stamps of their own clocks and merge
snapshots of each other, stale or repeated. Stamps are unique over a run, and a
register holds the latest write of its history, the register that all replicas
start from counted as the first (`register_isLatest`).
-/

namespace Mercury.Crdt

open Foundations Foundations.Replicated

namespace LwwRegister

variable {Replica T : Type}

/-- A replica's register, and its clock once it has ticked. -/
structure Writer (T : Type) where
  register : LwwRegister T
  clock : Option Hlc

/-- A value, and the reading of the system clock at the write. -/
structure Write (T : Type) where
  value : T
  reading : ℕ

/-- The clock of a replica, which started as `clocks` says. -/
def Writer.clockOf (writer : Writer T) (clocks : Replica → Hlc) (replica : Replica) : Hlc :=
  writer.clock.getD (clocks replica)

/-- A write ticks the clock and sets the value at its stamp. -/
def Writer.write (clocks : Replica → Hlc) (replica : Replica) (write : Write T)
    (writer : Writer T) : Option (Writer T × Hlc) :=
  (Hlc.tick write.reading (writer.clockOf clocks replica)).map fun stamp =>
    (⟨writer.register.set write.value stamp, some stamp⟩, stamp)

/-- `LwwRegister` replicated: only registers are exchanged. -/
def replicated (initial : LwwRegister T) (clocks : Replica → Hlc) :
    Replicated Replica (Write T) Hlc (Writer T) where
  initial := ⟨initial, none⟩
  update := Writer.write clocks
  merge self other := { self with register := self.register.merge other.register }

/-- The register that the write at a position asked for. -/
def writeAt (events : List (Event Replica (Write T) Hlc)) (index : ℕ) : Option (LwwRegister T) :=
  events[index]?.map fun event => ⟨event.op.value, event.output⟩

/-- The writes of a history; the initial register is the first of every history. -/
def written (initial : LwwRegister T) (events : List (Event Replica (Write T) Hlc))
    (history : Finset ℕ) : Set (LwwRegister T) :=
  { register | register = initial ∨ ∃ index ∈ history, writeAt events index = some register }

/-- The register holds the latest write of its history. -/
structure HoldsLatest (initial : LwwRegister T) (events : List (Event Replica (Write T) Hlc))
    (copy : Copy (Writer T)) : Prop where
  held : copy.state.register ∈ written initial events copy.history
  latest : ∀ write ∈ written initial events copy.history,
    write.timestamp ≤ copy.state.register.timestamp
  newer : copy.state.register = initial ∨ initial.timestamp < copy.state.register.timestamp

section Written

variable {initial : LwwRegister T} {events : List (Event Replica (Write T) Hlc)}
  {history : Finset ℕ}

theorem writeAt_append {index : ℕ} (known : index < events.length)
    (event : Event Replica (Write T) Hlc) :
    writeAt (events ++ [event]) index = writeAt events index := by
  simp [writeAt, List.getElem?_append_left known]

theorem writeAt_length (event : Event Replica (Write T) Hlc) :
    writeAt (events ++ [event]) events.length = some ⟨event.op.value, event.output⟩ := by
  simp [writeAt]

theorem written_append (bounded : ∀ {index}, index ∈ history → index < events.length)
    (event : Event Replica (Write T) Hlc) :
    written initial (events ++ [event]) history = written initial events history := by
  ext register
  refine or_congr Iff.rfl (exists_congr fun index => and_congr_right fun seen => ?_)
  rw [writeAt_append (bounded seen)]

/-- A performed write is one more of its history. -/
theorem mem_written_insert (bounded : ∀ {index}, index ∈ history → index < events.length)
    (event : Event Replica (Write T) Hlc) (register : LwwRegister T) :
    register ∈ written initial (events ++ [event]) (insert events.length history) ↔
      register = ⟨event.op.value, event.output⟩ ∨ register ∈ written initial events history := by
  rw [← written_append bounded event]
  simp only [written, Set.mem_ofPred_eq, Finset.exists_mem_insert, writeAt_length,
    Option.some.injEq]
  tauto

theorem mem_written_union (other : Finset ℕ) (register : LwwRegister T) :
    register ∈ written initial events (history ∪ other) ↔
      register ∈ written initial events history ∨ register ∈ written initial events other := by
  simp only [written, Set.mem_ofPred_eq, Finset.mem_union, or_and_right, exists_or]
  exact or_or_distrib_left

end Written

theorem timestamp_le_set (register : LwwRegister T) (value : T) (timestamp : Hlc) :
    register.timestamp ≤ (register.set value timestamp).timestamp ∧
      timestamp ≤ (register.set value timestamp).timestamp := by
  unfold set
  split
  · next newer => exact ⟨newer.le, le_refl _⟩
  · next older => exact ⟨le_refl _, not_lt.mp older⟩

/-- A register keeps holding the latest write when another one is set or merged into it. -/
theorem HoldsLatest.set_cases {initial register : LwwRegister T} (value : T) (timestamp : Hlc)
    (newer : register = initial ∨ initial.timestamp < register.timestamp) :
    (register.set value timestamp = register ∨
        register.set value timestamp = ⟨value, timestamp⟩) ∧
      (register.set value timestamp = initial ∨
        initial.timestamp < (register.set value timestamp).timestamp) := by
  unfold set
  split
  · next later =>
      refine ⟨Or.inr rfl, Or.inr ?_⟩
      rcases newer with rfl | newer
      · exact later
      · exact newer.trans later
  · exact ⟨Or.inl rfl, newer⟩

variable {initial : LwwRegister T} {clocks : Replica → Hlc}

theorem holdsLatest_inductive :
    (replicated initial clocks).Inductive (fun _ _ _ => True) (HoldsLatest initial) where
  initial := by
    refine ⟨Or.inl rfl, ?_, Or.inl rfl⟩
    intro write writeMem
    rcases writeMem with rfl | ⟨index, seen, _⟩
    · exact le_refl _
    · simp at seen
  extend := by
    intro events copy event grounded holds
    refine ⟨?_, ?_, holds.newer⟩
    · rw [written_append grounded.bounded]
      exact holds.held
    · rw [written_append grounded.bounded]
      exact holds.latest
  update := by
    intro events copy replica op state output grounded holds applied
    rcases Option.map_eq_some_iff.mp applied with ⟨stamp, _, same⟩
    cases same
    have cases_ := HoldsLatest.set_cases op.value output holds.newer
    have above := timestamp_le_set copy.state.register op.value output
    refine ⟨?_, ?_, cases_.2⟩
    · rw [mem_written_insert grounded.bounded]
      rcases cases_.1 with kept | taken
      · exact Or.inr (by simpa only [kept] using holds.held)
      · exact Or.inl taken
    · intro write writeMem
      rcases (mem_written_insert grounded.bounded _ write).mp writeMem with rfl | earlier
      · exact above.2
      · exact (holds.latest write earlier).trans above.1
  merge := by
    intro events copy other _ _ holds otherHolds _
    have cases_ := HoldsLatest.set_cases other.state.register.value
      other.state.register.timestamp holds.newer
    have above := timestamp_le_set copy.state.register other.state.register.value
      other.state.register.timestamp
    refine ⟨?_, ?_, cases_.2⟩
    · refine (mem_written_union _ _).mpr ?_
      rcases cases_.1 with kept | taken
      · exact Or.inl (Eq.mpr (congrArg (· ∈ _) kept) holds.held)
      · exact Or.inr (Eq.mpr (congrArg (· ∈ _) taken) otherHolds.held)
    · intro write writeMem
      rcases (mem_written_union _ write).mp writeMem with mine | theirs
      · exact (holds.latest write mine).trans above.1
      · exact (otherHolds.latest write theirs).trans above.2

/-! ## Stamps are unique -/

/-- The stamps of each replica grow up to its clock, which carries its node id. -/
structure Stamped (clocks : Replica → Hlc) (cluster : Cluster Replica (Write T) Hlc (Writer T)) :
    Prop where
  nodeIds : ∀ event ∈ cluster.events, event.output.nodeId = (clocks event.origin).nodeId
  own : ∀ replica,
    ((cluster.copy replica).state.clockOf clocks replica).nodeId = (clocks replica).nodeId
  reached : ∀ event ∈ cluster.events,
    event.output ≤ (cluster.copy event.origin).state.clockOf clocks event.origin
  increasing : cluster.events.Pairwise fun earlier later =>
    earlier.origin = later.origin → earlier.output < later.output

theorem stamped_start : Stamped clocks (Cluster.start (replicated initial clocks)) where
  nodeIds := by simp [Cluster.start]
  own _ := rfl
  reached := by simp [Cluster.start]
  increasing := List.Pairwise.nil

variable [DecidableEq Replica]

theorem Stamped.step {cluster next : Cluster Replica (Write T) Hlc (Writer T)}
    {action : Action Replica (Write T) (Writer T)} (stamped : Stamped clocks cluster)
    (step : (replicated initial clocks).Step cluster action next) : Stamped clocks next := by
  cases step with
  | @update replica op state output applied =>
      rcases Option.map_eq_some_iff.mp applied with ⟨stamp, ticked, same⟩
      cases same
      rcases Hlc.advances_tick ticked with ⟨advances, sameNode⟩
      have later := advances.lt (List.mem_singleton.mpr rfl)
      refine ⟨?_, ?_, ?_, ?_⟩
      · intro event eventMem
        rcases List.mem_append.mp eventMem with old | new
        · exact stamped.nodeIds event old
        · cases List.mem_singleton.mp new
          exact sameNode.trans (stamped.own replica)
      · exact Cluster.forall_copy_hold (fun other (held : Copy (Writer T)) =>
          (held.state.clockOf clocks other).nodeId = (clocks other).nodeId)
          (sameNode.trans (stamped.own replica)) fun other _ => stamped.own other
      · intro event eventMem
        rcases List.mem_append.mp eventMem with old | new
        · have before := stamped.reached event old
          by_cases same : event.origin = replica
          · rw [same] at before ⊢
            simpa [Cluster.hold, Writer.clockOf] using before.trans later.le
          · simpa [Cluster.hold, Cluster.record, Function.update_of_ne same] using before
        · cases List.mem_singleton.mp new
          simp [Cluster.hold, Writer.clockOf]
      · refine List.pairwise_append.mpr ⟨stamped.increasing, List.pairwise_singleton _ _, ?_⟩
        intro earlier earlierMem event eventMem sameOrigin
        cases List.mem_singleton.mp eventMem
        have before := stamped.reached earlier earlierMem
        rw [sameOrigin] at before
        exact before.trans_lt later
  | @merge replica snapshot held =>
      have clockKept : ∀ other,
          ((cluster.hold replica ((replicated initial clocks).mergeCopies (cluster.copy replica)
            snapshot)).copy other).state.clock = (cluster.copy other).state.clock :=
        Cluster.forall_copy_hold (fun other (held : Copy (Writer T)) =>
          held.state.clock = (cluster.copy other).state.clock) rfl fun _ _ => rfl
      refine ⟨stamped.nodeIds, ?_, ?_, stamped.increasing⟩
      · intro other
        simpa only [Writer.clockOf, clockKept] using stamped.own other
      · intro event eventMem
        simpa only [Writer.clockOf, clockKept] using stamped.reached event eventMem

omit [DecidableEq Replica] in
/-- Two writes with one stamp are the same write. -/
theorem Stamped.writeAt_injective {cluster : Cluster Replica (Write T) Hlc (Writer T)}
    (stamped : Stamped clocks cluster)
    (distinct : Function.Injective fun replica => (clocks replica).nodeId)
    {first second : ℕ} {left right : LwwRegister T}
    (leftAt : writeAt cluster.events first = some left)
    (rightAt : writeAt cluster.events second = some right)
    (sameStamp : left.timestamp = right.timestamp) : left = right := by
  rcases Option.map_eq_some_iff.mp leftAt with ⟨leftEvent, leftEq, rfl⟩
  rcases Option.map_eq_some_iff.mp rightAt with ⟨rightEvent, rightEq, rfl⟩
  rcases List.getElem?_eq_some_iff.mp leftEq with ⟨leftBound, rfl⟩
  rcases List.getElem?_eq_some_iff.mp rightEq with ⟨rightBound, rfl⟩
  have sameOrigin : cluster.events[first].origin = cluster.events[second].origin := by
    apply distinct
    have leftNode := stamped.nodeIds _ (List.getElem_mem leftBound)
    have rightNode := stamped.nodeIds _ (List.getElem_mem rightBound)
    exact leftNode.symm.trans ((congrArg Hlc.nodeId sameStamp).trans rightNode)
  have ordered := List.pairwise_iff_getElem.mp stamped.increasing
  rcases lt_trichotomy first second with before | rfl | after
  · exact absurd sameStamp (ordered first second leftBound rightBound before sameOrigin).ne
  · rfl
  · exact absurd sameStamp (ordered second first rightBound leftBound after sameOrigin.symm).ne'

omit [DecidableEq Replica] in
/-- Two registers that hold the latest write of one history are equal. -/
theorem HoldsLatest.unique {cluster : Cluster Replica (Write T) Hlc (Writer T)}
    (stamped : Stamped clocks cluster)
    (distinct : Function.Injective fun replica => (clocks replica).nodeId)
    {left right : Copy (Writer T)} (sameHistory : left.history = right.history)
    (leftHolds : HoldsLatest initial cluster.events left)
    (rightHolds : HoldsLatest initial cluster.events right) :
    left.state.register = right.state.register := by
  have sameStamp : left.state.register.timestamp = right.state.register.timestamp := by
    apply le_antisymm
    · exact rightHolds.latest _ (sameHistory ▸ leftHolds.held)
    · exact leftHolds.latest _ (sameHistory ▸ rightHolds.held)
  rcases leftHolds.newer with leftInitial | leftNewer
  · rcases rightHolds.newer with rightInitial | rightNewer
    · exact leftInitial.trans rightInitial.symm
    · rw [← sameStamp, leftInitial] at rightNewer
      exact absurd rightNewer (lt_irrefl _)
  · rcases leftHolds.held with leftInitial | ⟨first, _, leftAt⟩
    · rw [leftInitial] at leftNewer
      exact absurd leftNewer (lt_irrefl _)
    · rcases rightHolds.held with rightInitial | ⟨second, _, rightAt⟩
      · rw [sameStamp, rightInitial] at leftNewer
        exact absurd leftNewer (lt_irrefl _)
      · exact stamped.writeAt_injective distinct leftAt rightAt sameStamp

/-- A register holds the latest write of its history, so equal histories give equal registers. -/
theorem register_isLatest (distinct : Function.Injective fun replica => (clocks replica).nodeId)
    {actions : List (Action Replica (Write T) (Writer T))}
    {cluster : Cluster Replica (Write T) Hlc (Writer T)}
    (run : (replicated initial clocks).ReachedBy actions cluster) :
    (∀ replica,
      (cluster.copy replica).state.register ∈
          written initial cluster.events (cluster.copy replica).history ∧
        ∀ write ∈ written initial cluster.events (cluster.copy replica).history,
          write.timestamp ≤ (cluster.copy replica).state.register.timestamp) ∧
      ∀ left right, (cluster.copy left).history = (cluster.copy right).history →
        (cluster.copy left).state.register = (cluster.copy right).state.register := by
  have holds := holdsLatest_inductive.holds run.guarded
  have stamped : Stamped clocks cluster :=
    Run.invariant (fun stamped step => stamped.step step) run stamped_start
  refine ⟨fun replica => ⟨(holds replica).held, (holds replica).latest⟩, ?_⟩
  intro left right sameHistory
  exact HoldsLatest.unique stamped distinct sameHistory (holds left) (holds right)

/-- The second replica's write at a reading of 10 loses to the merged one at 50. -/
theorem register_isLatest_ignored :
    ∃ (clocks : Bool → Hlc) (cluster : Cluster Bool (Write ℕ) Hlc (Writer ℕ)),
      (cluster.copy false).history = (cluster.copy true).history ∧
      (∀ replica,
        (cluster.copy replica).state.register ∈ written ⟨0, clocks false⟩ cluster.events
            (cluster.copy replica).history ∧
          ∀ write ∈ written ⟨0, clocks false⟩ cluster.events (cluster.copy replica).history,
            write.timestamp ≤ (cluster.copy replica).state.register.timestamp) ∧
        ∀ left right, (cluster.copy left).history = (cluster.copy right).history →
          (cluster.copy left).state.register = (cluster.copy right).state.register := by
  let clocks : Bool → Hlc := fun second => Hlc.now (if second then .replicate 1 else .replicate 0) 5
  let script : List (Instruction Bool (Write ℕ)) :=
    [.update false ⟨1, 50⟩, .merge true 1, .update true ⟨2, 10⟩, .merge false 3]
  have distinct : Function.Injective fun replica => (clocks replica).nodeId := by
    intro left right same
    cases left <;> cases right <;> first | rfl | exact absurd same (by decide)
  rcases guardedRun_play (replicated ⟨0, clocks false⟩ clocks) (fun _ _ _ => True) script
    (by decide) with ⟨actions, run⟩
  exact ⟨clocks, _, by decide, register_isLatest distinct run.of_guarded⟩

end LwwRegister

end Mercury.Crdt
