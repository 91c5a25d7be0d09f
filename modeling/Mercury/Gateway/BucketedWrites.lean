import Mercury.Gateway.History

/-!
# The buckets of the writes

Every message that a node writes goes to the bucket of its time, whichever frames it receives.
-/

namespace Mercury.Gateway

open Foundations Foundations.Program Persistence

/-- A planned write is in the bucket of its time. -/
def InBucket (write : MessageWrite) : Prop :=
  TimeBucket.compute write.message.createdAt = .ok write.bucketId

theorem inBucket_plannedBatch {tenantId channelId : Bytes} {envelopes : List Envelope}
    {write : MessageWrite} (planned : write ∈ plannedBatch tenantId channelId envelopes) :
    InBucket write := by
  induction envelopes with
  | nil => cases planned
  | cons envelope later ih =>
      unfold plannedBatch at planned
      split at planned
      · next bucket bucketEq =>
          rcases List.mem_cons.mp planned with rfl | planned
          · exact bucketEq
          · exact ih planned
      · cases planned

theorem inBucket_plannedWrites {native : Native} {socket : Socket} {frame : Frame}
    {write : MessageWrite} (planned : write ∈ plannedWrites native socket frame) :
    InBucket write := by
  unfold plannedWrites at planned
  split at planned
  · split at planned
    · cases planned
    split at planned
    · cases planned
    split at planned
    · unfold plannedSend at planned
      split at planned
      · split at planned
        · split at planned
          · next bucketEq =>
              rw [List.mem_singleton.mp planned]
              exact bucketEq
          · cases planned
        · cases planned
      · cases planned
    · split at planned
      · split at planned
        · split at planned
          · exact inBucket_plannedBatch planned
          · cases planned
        · cases planned
      · cases planned
  · cases planned

/-- The rest of a process writes to the bucket of the time only. -/
def KeepsBuckets : Process → Prop
  | .idle _ => True
  | .handling _ _ rest => rest.Ensures (fun _ => True) (WritesWithin InBucket) fun _ => True
  | .running _ rest => rest.Ensures (fun _ => True) (WritesWithin InBucket) fun _ => True

theorem keepsBuckets_idle {process : Process} {socket : Socket}
    (same : some (Process.idle socket) = some process) : KeepsBuckets process := by
  cases same
  exact True.intro

theorem writesWithin_mono {planned wider : MessageWrite → Prop} {asked : node.Call}
    (within : WritesWithin planned asked) (widen : ∀ write, planned write → wider write) :
    WritesWithin wider asked := by
  unfold WritesWithin at within ⊢
  split at within
  · exact widen _ within
  · exact widen _ within
  · trivial

theorem nodeHandleIn_keepsBuckets {native : Native} {data : Bytes} {socket : Socket} :
    (nodeHandleIn native data socket).Ensures (fun _ => True) (WritesWithin InBucket)
      fun _ => True :=
  Ensures.mono (writesPlanned_nodeHandleIn socket data)
    (fun _ within => writesWithin_mono within fun _ => inBucket_plannedWrites) fun _ holds => holds

/-- The processes and the tasks that wait keep to the buckets. -/
structure InBuckets {Store : Type} (gateway : System Store) : Prop where
  workers : ∀ pid process, gateway.processes pid = some process → KeepsBuckets process
  pending : ∀ write : MessageWrite, write.task ∈ gateway.pending → InBucket write

namespace InBuckets

variable {Store : Type} {native : Native} {gateway : System Store} {pid : ℕ}

theorem set {process : Option Process} (holds : InBuckets gateway)
    (keeps : ∀ set, process = some set → KeepsBuckets set) :
    InBuckets (gateway.set pid process) where
  workers other running present := by
    by_cases same : other = pid
    · subst other
      rw [System.set_processes_self] at present
      exact keeps running present
    · rw [System.set_processes_of_ne _ _ same] at present
      exact holds.workers other running present
  pending := holds.pending

theorem started (native : Native) {task : BackgroundTask} (holds : InBuckets gateway)
    (taskMem : task ∈ gateway.pending) : KeepsBuckets (.running task (nodeRunTask task)) := by
  have pending : ∀ write : MessageWrite, task = write.task → InBucket write := by
    rintro write rfl
    exact holds.pending write taskMem
  exact Ensures.mono (@writesPlanned_nodeRunTask native task)
    (fun _ within => writesWithin_mono within pending) fun _ holds => holds

theorem tasks {taken : Performed node Raise} (holds : InBuckets gateway)
    (within : WritesWithin InBucket taken.call) (write : MessageWrite)
    (taskMem : write.task ∈ startedTasks taken ++ gateway.pending) : InBucket write := by
  rcases List.mem_append.mp taskMem with now | earlier
  · exact mem_startedTasks within now
  · exact holds.pending write earlier

/-- A step of a socket or a task: it performs a command, or leaves the stores as they are. -/
theorem step {answers : Store → Performed node Raise → Store → Prop} {label : SystemLabel}
    {target : System Store} (holds : InBuckets gateway)
    (taken : SystemStep native answers gateway label target) :
    InBuckets target ∧
      ((∀ pid process command, label ≠ .performed pid process command) ∧
          target.store = gateway.store ∨
        ∃ pid process command, label = .performed pid process command ∧
          answers gateway.store command target.store ∧ WritesWithin InBucket command.call) := by
  cases taken with
  | connected tenantId userId deviceId free =>
      exact ⟨holds.set fun _ => keepsBuckets_idle,
        Or.inl ⟨fun _ _ _ => SystemLabel.noConfusion, rfl⟩⟩
  | received data idle =>
      refine ⟨holds.set fun set same => ?_, Or.inl ⟨fun _ _ _ => SystemLabel.noConfusion, rfl⟩⟩
      rw [← Option.some.inj same]
      exact nodeHandleIn_keepsBuckets
  | @performed pid process next command stored present performs answered =>
      have within : WritesWithin InBucket command.call ∧ KeepsBuckets next := by
        have keeps := holds.workers _ _ present
        cases performs with
        | handling => exact ⟨keeps.1, keeps.2 _ trivial⟩
        | running => exact ⟨keeps.1, keeps.2 _ trivial⟩
      refine ⟨⟨fun other running runs => ?_, holds.tasks within.1⟩,
        Or.inr ⟨pid, process, command, rfl, answered, within.1⟩⟩
      by_cases same : other = pid
      · subst other
        rw [System.perform_processes_self] at runs
        exact Option.some.inj runs ▸ within.2
      · rw [System.perform_processes_of_ne _ _ _ _ same] at runs
        exact holds.workers other running runs
  | answered present =>
      exact ⟨holds.set fun _ => keepsBuckets_idle,
        Or.inl ⟨fun _ _ _ => SystemLabel.noConfusion, rfl⟩⟩
  | ended => exact ⟨holds.set nofun, Or.inl ⟨fun _ _ _ => SystemLabel.noConfusion, rfl⟩⟩
  | @started pid task before after free pending =>
      have runs : InBuckets (gateway.set pid (some (.running task (nodeRunTask task)))) := by
        refine holds.set fun set same => ?_
        rw [← Option.some.inj same]
        exact holds.started native (by simp [pending])
      refine ⟨⟨runs.workers, fun write writeMem => holds.pending write ?_⟩,
        Or.inl ⟨fun _ _ _ => SystemLabel.noConfusion, rfl⟩⟩
      rw [pending]
      rcases List.mem_append.mp writeMem with first | last
      · exact List.mem_append_left _ first
      · exact List.mem_append_right _ (List.mem_cons_of_mem _ last)
  | delivered event payload idle =>
      exact ⟨holds.set fun _ => keepsBuckets_idle,
        Or.inl ⟨fun _ _ _ => SystemLabel.noConfusion, rfl⟩⟩

end InBuckets

end Mercury.Gateway
