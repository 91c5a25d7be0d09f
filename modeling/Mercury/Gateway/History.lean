import Mercury.Gateway.Executions

/-!
# The history of a channel

The message table under the frames of any sockets and the background tasks they
start. An `INSERT` is an upsert on the primary key, and message ids come from the
clients, so a frame that reuses the id and the bucket of a message overwrites it.
Where no frame plans a write that disagrees with a stored message of its key or
with another planned one, no row ever changes (`rows_never_change`).
-/

namespace Mercury.Gateway

open Foundations Foundations.Program Persistence

/-- A message on its way to the table, without the time of its arrival. -/
structure MessageWrite where
  tenantId : Bytes
  channelId : Bytes
  bucketId : ℕ
  message : Message
deriving DecidableEq

namespace MessageWrite

def key (write : MessageWrite) : MessageKey where
  tenantId := write.tenantId
  channelId := write.channelId
  bucketId := write.bucketId
  messageId := write.message.messageId

def task (write : MessageWrite) : BackgroundTask :=
  .persistMessage write.tenantId write.channelId write.bucketId write.message

end MessageWrite

def rowWrite (row : MessageRow) : MessageWrite where
  tenantId := row.tenantId
  channelId := row.channelId
  bucketId := row.bucketId
  message := row.message

/-- The messages agree on sender, content and time. -/
def SameContent (left right : Message) : Prop :=
  left.senderId = right.senderId ∧ left.encryptedContent = right.encryptedContent ∧
    left.createdAt = right.createdAt

/-- Two writes of one key agree on the message. -/
def Agree (left right : MessageWrite) : Prop :=
  left.key = right.key → SameContent left.message right.message

/-! ## What a frame plans to write -/

/-- The writes of a pushed batch, up to an envelope without a time bucket. -/
def plannedBatch (tenantId channelId : Bytes) : List Envelope → List MessageWrite
  | [] => []
  | envelope :: later =>
      match TimeBucket.compute envelope.timestamp with
      | .ok bucket =>
          ⟨tenantId, channelId, bucket, pushedMessage envelope⟩ ::
            plannedBatch tenantId channelId later
      | .error _ => []

def plannedSend (native : Native) (socket : Socket) (channelId payload : Bytes) :
    List MessageWrite :=
  match native.envelopeDecode payload with
  | .ok (.ok envelope) =>
      if envelope.payload ≠ [] ∧ envelope.payload.length ≤ Mercury.Message.maxContentSize then
        match TimeBucket.compute envelope.timestamp with
        | .ok bucket => [⟨socket.tenantId.val, channelId, bucket, sentMessage socket envelope⟩]
        | .error _ => []
      else []
  | _ => []

/-- The writes that a frame asks for, read off the frame and the socket. -/
def plannedWrites (native : Native) (socket : Socket) : Frame → List MessageWrite
  | .push _ topicId event payload =>
      match socket.topicIds.lookup topicId with
      | none => []
      | some info =>
          match info.channelId.bind channelIdToBin with
          | none => []
          | some channelId =>
              if event = Event.msgSend then plannedSend native socket channelId payload
              else if event = Event.syncPush then
                match decodedEnvelopes native (unpackEnvelopes payload) with
                | some envelopes =>
                    if envelopes.length ≤ 1000 then
                      plannedBatch socket.tenantId.val channelId envelopes
                    else []
                | none => []
              else []
  | _ => []

theorem mem_plannedBatch {tenantId channelId : Bytes} {earlier later : List Envelope}
    {envelope : Envelope} {bucket : ℕ} (fits : ∀ other ∈ earlier, other.Fits)
    (bucketEq : TimeBucket.compute envelope.timestamp = .ok bucket) :
    (⟨tenantId, channelId, bucket, pushedMessage envelope⟩ : MessageWrite) ∈
      plannedBatch tenantId channelId (earlier ++ envelope :: later) := by
  induction earlier with
  | nil => simp [plannedBatch, bucketEq]
  | cons first rest ih =>
      rcases fits first (by simp) with ⟨firstBucket, firstEq⟩
      simp only [List.cons_append, plannedBatch, firstEq, List.mem_cons]
      exact Or.inr (ih fun other otherMem => fits other (by simp [otherMem]))

theorem TopicInfo.Names.bind {info : TopicInfo} {channelId : Bytes}
    (names : info.Names channelId) : info.channelId.bind channelIdToBin = some channelId := by
  rcases names with ⟨hex, named, decoded⟩
  simp [named, decoded]

/-- The calls of a node whose writes lie in `Planned`. -/
def WritesWithin (Planned : MessageWrite → Prop) : node.Call → Prop
  | .inl (.insertMessage row) => Planned (rowWrite row)
  | .inr (.startTask (.persistMessage tenantId channelId bucket msg)) =>
      Planned ⟨tenantId, channelId, bucket, msg⟩
  | _ => True

theorem writesWithin_of_nodeIssues {native : Native} {socket : Socket} {frame : Frame}
    {asked : node.Call} (issued : NodeIssues native socket frame asked) :
    WritesWithin (· ∈ plannedWrites native socket frame) asked := by
  rcases asked with command | asked
  · cases command with
    | insertMessage row =>
        rcases issued with ⟨ref, topicId, payload, info, rfl, entry, names, tenant, earlier,
          envelope, later, decodes, small, fits, bucketEq, messageEq⟩
        have planned := @mem_plannedBatch socket.tenantId.val row.channelId earlier later envelope
          row.bucketId fits bucketEq
        have different : Event.syncPush ≠ Event.msgSend := by decide
        simp only [WritesWithin, plannedWrites, entry, names.bind, if_neg different, if_true,
          decodes, if_pos small]
        rw [rowWrite, messageEq, tenant]
        exact planned
    | _ => trivial
  · cases asked with
    | startTask task =>
        cases task with
        | updateReadPosition => trivial
        | persistMessage tenantId channelId bucket msg =>
            cases frame with
            | push ref topicId event payload =>
                rcases issued with ⟨info, entry, rfl, rfl, names, envelope,
                  ⟨decoded, filled, bounded, bucketEq⟩, rfl⟩
                simp [WritesWithin, plannedWrites, entry, names.bind, plannedSend, decoded,
                  filled, bounded, bucketEq]
            | _ => exact issued.elim
    | _ => trivial

/-! ## The message table under a run -/

/-- What a performed call does to the message table. A failed `INSERT` may or may not
have been carried out. -/
inductive MessageStep : MessageTable → Performed node Raise → MessageTable → Prop where
  | inserted {table : MessageTable} {row : MessageRow}
      {answer : Except Raise (Except Bytes Unit)} :
      MessageStep table ⟨.inl (.insertMessage row), answer⟩ (table.upsert row)
  | refused {table : MessageTable} {row : MessageRow}
      {answer : Except Raise (Except Bytes Unit)} (failed : answer ≠ .ok (.ok ())) :
      MessageStep table ⟨.inl (.insertMessage row), answer⟩ table
  | other {table : MessageTable} {taken : Performed node Raise}
      (noInsert : ∀ row, taken.call ≠ .inl (.insertMessage row)) :
      MessageStep table taken table

/-- The steps of a system with its message table. -/
abbrev HistoryStep (native : Native) :=
  SystemStep native MessageStep

/-- The writes that a process has planned. -/
def Process.Plans (native : Native) (write : MessageWrite) : Process → Prop
  | .idle _ => False
  | .handling socket data _ => write ∈ plannedWrites native socket (Frame.parse data)
  | .running task _ => task = write.task

/-- The rest of a process writes only what the process has planned. -/
def Process.WritesPlanned (native : Native) : Process → Prop
  | .idle _ => True
  | .handling socket data rest =>
      rest.Ensures (fun _ => True)
        (WritesWithin (· ∈ plannedWrites native socket (Frame.parse data))) fun _ => True
  | .running task rest =>
      rest.Ensures (fun _ => True) (WritesWithin (task = ·.task)) fun _ => True

/-- The write is stored, or planned by a task or by a process. -/
inductive System.Holds (native : Native) (system : System MessageTable) (write : MessageWrite) :
    Prop where
  | stored {row : MessageRow} (rowMem : row ∈ system.store) (writeEq : rowWrite row = write)
  | pending (taskMem : write.task ∈ system.pending)
  | planned {pid : ℕ} {process : Process} (present : system.processes pid = some process)
      (plans : process.Plans native write)

/-- Every row of `earlier` is still there, with the same sender, content and time. -/
def KeepsRows (earlier later : MessageTable) : Prop :=
  ∀ row ∈ earlier, ∃ kept ∈ later, kept.key = row.key ∧ SameContent kept.message row.message

/-- A received frame plans only writes that agree with each other and with everything
stored or planned before it. -/
def KeepsHistory (native : Native) (system : System MessageTable) : SystemLabel → Prop
  | .received _ socket data =>
      ∀ write ∈ plannedWrites native socket (Frame.parse data), ∀ other,
        system.Holds native other ∨ other ∈ plannedWrites native socket (Frame.parse data) →
          Agree write other
  | _ => True

/-- All stored and planned writes agree, and every process keeps to its plan. -/
structure Coherent (native : Native) (system : System MessageTable) : Prop where
  agree : ∀ left right, system.Holds native left → system.Holds native right → Agree left right
  sound : ∀ pid process, system.processes pid = some process → process.WritesPlanned native

theorem SameContent.refl (msg : Message) : SameContent msg msg :=
  ⟨rfl, rfl, rfl⟩

theorem SameContent.symm {left right : Message} (same : SameContent left right) :
    SameContent right left :=
  ⟨same.1.symm, same.2.1.symm, same.2.2.symm⟩

theorem SameContent.trans {first second third : Message} (left : SameContent first second)
    (right : SameContent second third) : SameContent first third :=
  ⟨left.1.trans right.1, left.2.1.trans right.2.1, left.2.2.trans right.2.2⟩

theorem Agree.symm {left right : MessageWrite} (agree : Agree left right) : Agree right left :=
  fun same => (agree same.symm).symm

theorem KeepsRows.refl (table : MessageTable) : KeepsRows table table :=
  fun row rowMem => ⟨row, rowMem, rfl, SameContent.refl _⟩

theorem KeepsRows.trans {first second third : MessageTable} (left : KeepsRows first second)
    (right : KeepsRows second third) : KeepsRows first third := by
  intro row rowMem
  rcases left row rowMem with ⟨middle, middleMem, middleKey, middleSame⟩
  rcases right middle middleMem with ⟨last, lastMem, lastKey, lastSame⟩
  exact ⟨last, lastMem, lastKey.trans middleKey, lastSame.trans middleSame⟩

section

variable {native : Native}

theorem writesPlanned_nodeHandleIn (socket : Socket) (data : Bytes) :
    (Process.handling socket data (nodeHandleIn native data socket)).WritesPlanned native :=
  nodeHandleIn_ensures.mono (fun _ issued => writesWithin_of_nodeIssues issued) fun _ holds => holds

theorem writesPlanned_nodeRunTask (task : BackgroundTask) :
    (Process.running task (nodeRunTask task)).WritesPlanned native := by
  refine (@nodeRunTask_ensures (fun _ => True) task).mono ?_ fun _ holds => holds
  intro asked issued
  unfold WritesWithin
  split
  · next row =>
      simp only at issued
      simp [MessageWrite.task, rowWrite, issued]
  · exact issued.elim
  · trivial

/-- A process plans the writes of its calls, and goes on keeping to its plan. -/
theorem Process.Performs.writesPlanned {process next : Process} {taken : Performed node Raise}
    (performs : process.Performs taken next) (sound : process.WritesPlanned native) :
    WritesWithin (process.Plans native) taken.call ∧ next.WritesPlanned native ∧
      ∀ write, next.Plans native write ↔ process.Plans native write := by
  cases performs with
  | handling => exact ⟨sound.1, sound.2 _ trivial, fun _ => Iff.rfl⟩
  | running => exact ⟨sound.1, sound.2 _ trivial, fun _ => Iff.rfl⟩

/-- A `set` adds no process but the one it sets. -/
theorem holds_of_set {system : System MessageTable} {pid : ℕ} {process : Option Process}
    {write : MessageWrite} (holds : (system.set pid process).Holds native write) :
    system.Holds native write ∨ ∃ set, process = some set ∧ set.Plans native write := by
  cases holds with
  | stored rowMem writeEq => exact Or.inl (System.Holds.stored rowMem writeEq)
  | pending taskMem => exact Or.inl (System.Holds.pending taskMem)
  | @planned other running present plans =>
      by_cases same : other = pid
      · subst other
        rw [System.set_processes_self] at present
        exact Or.inr ⟨running, present, plans⟩
      · rw [System.set_processes_of_ne _ _ same] at present
        exact Or.inl (System.Holds.planned present plans)

theorem mem_startedTasks {taken : Performed node Raise} {write : MessageWrite}
    {planned : MessageWrite → Prop} (permitted : WritesWithin planned taken.call)
    (taskMem : write.task ∈ startedTasks taken) : planned write := by
  rcases taken with ⟨command | asked, answer⟩
  · simp [startedTasks] at taskMem
  · cases asked with
    | startTask task =>
        have taskEq : write.task = task := by simpa [startedTasks] using taskMem
        subst taskEq
        exact permitted
    | _ => simp [startedTasks] at taskMem

/-- A performed call adds no write to those that were stored or planned. -/
theorem holds_of_perform {system : System MessageTable} {pid : ℕ} {process next : Process}
    {taken : Performed node Raise} {stored : MessageTable} {write : MessageWrite}
    (sound : process.WritesPlanned native) (present : system.processes pid = some process)
    (performs : process.Performs taken next) (step : MessageStep system.store taken stored)
    (holds : (system.perform pid next taken stored).Holds native write) :
    system.Holds native write := by
  rcases performs.writesPlanned sound with ⟨permitted, -, samePlan⟩
  cases holds with
  | @stored row rowMem writeEq =>
      cases step with
      | refused => exact System.Holds.stored rowMem writeEq
      | other => exact System.Holds.stored rowMem writeEq
      | inserted =>
          rcases KeyedTable.mem_upsert.mp rowMem with ⟨old, -⟩ | rfl
          · exact System.Holds.stored old writeEq
          · exact System.Holds.planned present (writeEq ▸ permitted)
  | pending taskMem =>
      rcases List.mem_append.mp taskMem with started | old
      · exact System.Holds.planned present (mem_startedTasks permitted started)
      · exact System.Holds.pending old
  | @planned other running present' plans =>
      by_cases same : other = pid
      · subst other
        rw [System.perform_processes_self] at present'
        obtain rfl := Option.some.inj present'
        exact System.Holds.planned present ((samePlan write).mp plans)
      · rw [System.perform_processes_of_ne _ _ _ _ same] at present'
        exact System.Holds.planned present' plans

/-- A performed call keeps the rows. -/
theorem keepsRows_of_perform {system : System MessageTable} {pid : ℕ} {process next : Process}
    {taken : Performed node Raise} {stored : MessageTable} (coherent : Coherent native system)
    (present : system.processes pid = some process) (performs : process.Performs taken next)
    (step : MessageStep system.store taken stored) : KeepsRows system.store stored := by
  cases step with
  | refused => exact KeepsRows.refl _
  | other => exact KeepsRows.refl _
  | @inserted row =>
      intro old oldMem
      by_cases overwritten : old.key = row.key
      · -- the row in its place was planned, so it agrees with the one it replaces
        have planned := (performs.writesPlanned (coherent.sound _ _ present)).1
        have agree := coherent.agree (rowWrite row) (rowWrite old)
          (System.Holds.planned present planned) (System.Holds.stored oldMem rfl)
        exact ⟨row, KeyedTable.mem_upsert_self _ _, overwritten.symm, agree overwritten.symm⟩
      · exact ⟨old, KeyedTable.mem_upsert.mpr (Or.inl ⟨oldMem, overwritten⟩), rfl,
          SameContent.refl _⟩

theorem writesPlanned_of_set {system : System MessageTable} {pid : ℕ} {process : Option Process}
    (coherent : Coherent native system)
    (new : ∀ set, process = some set → set.WritesPlanned native) (other : ℕ)
    (running : Process) (present : (system.set pid process).processes other = some running) :
    running.WritesPlanned native := by
  by_cases same : other = pid
  · subst other
    rw [System.set_processes_self] at present
    exact new running present
  · rw [System.set_processes_of_ne _ _ same] at present
    exact coherent.sound other running present

theorem Coherent.of_set {system : System MessageTable} {pid : ℕ} {process : Option Process}
    (coherent : Coherent native system)
    (new : ∀ set, process = some set → set.WritesPlanned native)
    (unplanned : ∀ set write, process = some set → set.Plans native write →
      system.Holds native write) : Coherent native (system.set pid process) where
  agree left right leftHeld rightHeld := by
    have held : ∀ {write}, (system.set pid process).Holds native write →
        system.Holds native write := by
      intro write holds
      rcases holds_of_set holds with old | ⟨set, setEq, plans⟩
      · exact old
      · exact unplanned set write setEq plans
    exact coherent.agree left right (held leftHeld) (held rightHeld)
  sound := writesPlanned_of_set coherent new

/-- A received frame whose planned writes agree. -/
theorem Coherent.received {system : System MessageTable} {pid : ℕ} {socket : Socket}
    {data : Bytes} (coherent : Coherent native system)
    (keeps : KeepsHistory native system (.received pid socket data)) :
    Coherent native
      (system.set pid (some (.handling socket data (nodeHandleIn native data socket)))) where
  agree left right leftHeld rightHeld := by
    rcases holds_of_set leftHeld with leftOld | ⟨leftSet, ⟨rfl⟩, leftPlanned⟩
    · rcases holds_of_set rightHeld with rightOld | ⟨rightSet, ⟨rfl⟩, rightPlanned⟩
      · exact coherent.agree left right leftOld rightOld
      · exact (keeps right rightPlanned left (Or.inl leftOld)).symm
    · apply keeps left leftPlanned right
      rcases holds_of_set rightHeld with rightOld | ⟨rightSet, ⟨rfl⟩, rightPlanned⟩
      · exact Or.inl rightOld
      · exact Or.inr rightPlanned
  sound := writesPlanned_of_set coherent
    (by rintro set ⟨rfl⟩; exact writesPlanned_nodeHandleIn socket data)

/-- One step of a coherent history. -/
theorem Coherent.step {source target : System MessageTable} {label : SystemLabel}
    (coherent : Coherent native source) (keeps : KeepsHistory native source label)
    (step : HistoryStep native source label target) :
    Coherent native target ∧ KeepsRows source.store target.store := by
  cases step with
  | connected =>
      exact ⟨coherent.of_set (by rintro set ⟨rfl⟩; trivial)
        (by rintro set write ⟨rfl⟩ plans; exact plans.elim), KeepsRows.refl _⟩
  | received => exact ⟨coherent.received keeps, KeepsRows.refl _⟩
  | @performed pid process next taken stored present performs answered =>
      refine ⟨⟨fun left right leftHeld rightHeld => ?_, fun other running present' => ?_⟩,
        keepsRows_of_perform coherent present performs answered⟩
      · have sound := coherent.sound pid process present
        exact coherent.agree left right
          (holds_of_perform sound present performs answered leftHeld)
          (holds_of_perform sound present performs answered rightHeld)
      · by_cases same : other = pid
        · subst other
          rw [System.perform_processes_self] at present'
          obtain rfl := Option.some.inj present'
          exact (performs.writesPlanned (coherent.sound _ process present)).2.1
        · rw [System.perform_processes_of_ne _ _ _ _ same] at present'
          exact coherent.sound other running present'
  | answered =>
      exact ⟨coherent.of_set (by rintro set ⟨rfl⟩; trivial)
        (by rintro set write ⟨rfl⟩ plans; exact plans.elim), KeepsRows.refl _⟩
  | ended =>
      exact ⟨coherent.of_set (by rintro set ⟨⟩) (by rintro set write ⟨⟩), KeepsRows.refl _⟩
  | delivered =>
      exact ⟨coherent.of_set (by rintro set ⟨rfl⟩; trivial)
        (by rintro set write ⟨rfl⟩ plans; exact plans.elim), KeepsRows.refl _⟩
  | @started pid task before after free pending =>
      have running : Coherent native
          (source.set pid (some (.running task (nodeRunTask task)))) := by
        refine coherent.of_set ?_ ?_
        · rintro set ⟨rfl⟩
          exact writesPlanned_nodeRunTask task
        · rintro set write ⟨rfl⟩ plans
          have taskEq : task = write.task := plans
          exact System.Holds.pending (by simp [pending, ← taskEq])
      have fewer : ∀ {write}, System.Holds native
          { source.set pid (some (.running task (nodeRunTask task))) with
            pending := before ++ after } write →
          (source.set pid (some (.running task (nodeRunTask task)))).Holds native write := by
        intro write holds
        cases holds with
        | stored rowMem writeEq => exact System.Holds.stored rowMem writeEq
        | planned present plans => exact System.Holds.planned present plans
        | pending taskMem =>
            apply System.Holds.pending
            simp only [System.set_pending, pending, List.mem_append, List.mem_cons] at taskMem ⊢
            tauto
      exact ⟨⟨fun left right leftHeld rightHeld =>
        running.agree left right (fewer leftHeld) (fewer rightHeld), running.sound⟩,
        KeepsRows.refl _⟩

theorem coherent_start (table : MessageTable) : Coherent native (System.start table) where
  agree := by
    rintro left right (⟨leftMem, rfl⟩ | leftMem | ⟨present, -⟩)
      (⟨rightMem, rfl⟩ | rightMem | ⟨present', -⟩)
    case stored.stored =>
      intro same
      rw [KeyedTable.eq_of_key_eq leftMem rightMem same]
      exact SameContent.refl _
    all_goals first | cases leftMem | cases rightMem | cases present | cases present'
  sound pid process present := by cases present

end

/-! ## The pushes of a member -/

/-- The table after some calls, when every `INSERT` was carried out. -/
def tableAfter (table : MessageTable) (made : List (Performed node Raise)) : MessageTable :=
  made.foldl (fun table taken =>
    match taken.call with
    | .inl (.insertMessage row) => table.upsert row
    | _ => table) table

theorem run_tableAfter (table : MessageTable) (made : List (Performed node Raise)) :
    Run MessageStep table made (tableAfter table made) := by
  induction made generalizing table with
  | nil => exact Run.refl
  | cons taken later ih =>
      refine Run.cons (?_ : MessageStep table taken _) (ih _)
      rcases taken with ⟨asked, answer⟩
      dsimp only
      split
      · next row => exact MessageStep.inserted
      · next other => exact MessageStep.other fun row same => other row same

/-- An envelope of `userId`, always with the same message id. -/
def reusedEnvelope (userId content : Byte) : Envelope where
  tenantId := (Id16.replicate 1).val
  channelId := (Id16.replicate 7).val
  senderId := (Id16.replicate userId).val
  messageId := (Id16.replicate 8).val
  timestamp := 1000
  payload := [content]

def pushOf (envelope : Envelope) : Bytes :=
  Sdk.pushFrame 2 1 Event.syncPush (packEnvelopes [Capnp.envelope envelope])

/-- The row that the push of an envelope stores at time 1. -/
def rowOf (userId : Byte) (envelope : Envelope) : MessageRow :=
  pushedRow (memberSocket userId) (Id16.replicate 7).val 0 envelope 1

theorem run_member (native : Native) {system : System MessageTable} {pid : ℕ} (userId : Byte)
    (free : system.processes pid = none) :
    ∃ labels, Run (Guarded (KeepsHistory native) (HistoryStep native)) system labels
      (system.set pid (some (.idle (memberSocket userId)))) := by
  refine run_join (fun write planned => ?_) trivial (fun _ _ _ _ => trivial)
    (fun _ _ => trivial) free (List.mem_singleton_self _) (run_tableAfter _ _)
  simp [parse_joinOf, plannedWrites] at planned

/-- The bytes of an envelope that the library reads back. -/
structure Readable (native : Native) (envelope : Envelope) : Prop where
  size : (Capnp.envelope envelope).length < 256 ^ 4
  decodes : native.envelopeDecode (Capnp.envelope envelope) = .ok (.ok envelope)
  bucket : TimeBucket.compute envelope.timestamp = .ok 0

theorem parse_pushOf (envelope : Envelope) : Frame.parse (pushOf envelope) =
    .push 2 1 Event.syncPush (packEnvelopes [Capnp.envelope envelope]) :=
  Sdk.parse_pushFrame _ _ (by decide) (by decide)

theorem Readable.decoded {native : Native} {envelope : Envelope}
    (readable : Readable native envelope) :
    decodedEnvelopes native (unpackEnvelopes (packEnvelopes [Capnp.envelope envelope])) =
      some [envelope] := by
  rw [Sdk.unpackEnvelopes_packEnvelopes (by simp) (by simpa using readable.size)]
  simp [decodedEnvelopes, readable.decodes]

theorem tableAfter_pushCalls (table : MessageTable) (socket : Socket) (channelId : Bytes)
    (bucket : ℕ) (envelope : Envelope) (now : ℕ) :
    tableAfter table (pushCalls socket channelId bucket envelope now) =
      table.upsert (pushedRow socket channelId bucket envelope now) :=
  rfl

theorem pendingAfter_pushCalls (pending : List BackgroundTask) (socket : Socket)
    (channelId : Bytes) (bucket : ℕ) (envelope : Envelope) (now : ℕ) :
    System.pendingAfter pending (pushCalls socket channelId bucket envelope now) = pending :=
  rfl

/-- A member pushes an envelope while the other processes wait. -/
theorem run_push {native : Native} {guard : System MessageTable → SystemLabel → Prop}
    {system : System MessageTable} {pid ref topicId : ℕ} {socket : Socket} {data payload : Bytes}
    {tenantId channelId : Id16} {envelope : Envelope} {bucket : ℕ}
    (receives : guard system (.received pid socket data))
    (unguarded : ∀ system process taken, guard system (.performed pid process taken))
    (answersFrame : ∀ system pushed, guard system (.answered pid pushed))
    (idle : system.processes pid = some (.idle socket))
    (frameEq : Frame.parse data = .push ref topicId Event.syncPush payload)
    (entry : socket.topicIds.lookup topicId = some (channelEntry tenantId channelId))
    (decoded : decodedEnvelopes native (unpackEnvelopes payload) = some [envelope])
    (bucketEq : TimeBucket.compute envelope.timestamp = .ok bucket) :
    ∃ labels, Run (Guarded guard (HistoryStep native)) system labels
      { system with
        store := system.store.upsert (pushedRow socket channelId.val bucket envelope 1) } := by
  have pushes := performs_push 1 frameEq entry (channelEntry_names _ _) decoded bucketEq
  rcases System.run_frame receives (fun system process taken _ => unguarded system process taken)
    answersFrame idle pushes (run_tableAfter _ _) with
    ⟨labels, run, -⟩
  rw [tableAfter_pushCalls, pendingAfter_pushCalls] at run
  simp only [replyOk, System.set_eq_self idle] at run
  exact ⟨labels, run⟩

theorem readable_reused {envelope : Envelope}
    (reused : envelope = reusedEnvelope 2 42 ∨ envelope = reusedEnvelope 5 43) :
    Readable (Capnp.native [reusedEnvelope 2 42, reusedEnvelope 5 43] []) envelope := by
  rcases reused with rfl | rfl <;>
    exact ⟨by decide +kernel, by decide +kernel, rfl⟩

/-- A user who has joined pushes an envelope. -/
theorem run_pushOf {native : Native} {guard : System MessageTable → SystemLabel → Prop}
    {system : System MessageTable} {pid : ℕ} {userId : Byte} {envelope : Envelope}
    (readable : Readable native envelope)
    (receives : guard system (.received pid (memberSocket userId) (pushOf envelope)))
    (unguarded : ∀ system process taken, guard system (.performed pid process taken))
    (answersFrame : ∀ system pushed, guard system (.answered pid pushed))
    (idle : system.processes pid = some (.idle (memberSocket userId))) :
    ∃ labels, Run (Guarded guard (HistoryStep native)) system labels
      { system with store := system.store.upsert (rowOf userId envelope) } :=
  run_push receives unguarded answersFrame idle (parse_pushOf envelope)
    (entry_memberSocket userId) readable.decoded readable.bucket

theorem plannedWrites_pushOf {native : Native} (userId : Byte) {envelope : Envelope}
    (readable : Readable native envelope) :
    plannedWrites native (memberSocket userId) (Frame.parse (pushOf envelope)) =
      [rowWrite (rowOf userId envelope)] := by
  have different : Event.syncPush ≠ Event.msgSend := by decide
  rw [parse_pushOf, plannedWrites, entry_memberSocket]
  dsimp only
  rw [(channelEntry_names _ _).bind]
  dsimp only
  rw [if_neg different, if_pos rfl, readable.decoded]
  dsimp only
  rw [if_pos (by simp), plannedBatch, readable.bucket]
  rfl

/-- Where every process waits for a frame and no task is left, only rows are held. -/
theorem exists_row_of_holds {native : Native} {system : System MessageTable}
    {write : MessageWrite} (finished : system.pending = [])
    (idle : ∀ pid process, system.processes pid = some process → ∃ socket, process = .idle socket)
    (holds : system.Holds native write) : ∃ row ∈ system.store, rowWrite row = write := by
  cases holds with
  | stored rowMem writeEq => exact ⟨_, rowMem, writeEq⟩
  | pending taskMem => simp [finished] at taskMem
  | planned present plans =>
      rcases idle _ _ present with ⟨socket, rfl⟩
      exact plans.elim

/-! ## Rows of every run -/

/-- Once a row is stored, its sender, its content and its time never change, in every run
whose frames plan no disagreeing write. -/
theorem rows_never_change (native : Native) (table : MessageTable)
    {before after : List SystemLabel} {now later : System MessageTable}
    (earlier : Run (Guarded (KeepsHistory native) (HistoryStep native)) (System.start table)
      before now)
    (run : Run (Guarded (KeepsHistory native) (HistoryStep native)) now after later) :
    KeepsRows now.store later.store := by
  have coherent : Coherent native now :=
    earlier.invariant (fun coherent taken => (coherent.step taken.1 taken.2).1)
      (coherent_start table)
  refine (@Run.invariant _ _ _
    (fun state => Coherent native state ∧ KeepsRows now.store state.store) ?_ _ _ _ run
    ⟨coherent, KeepsRows.refl _⟩).2
  rintro source label target ⟨coherent, keeps⟩ ⟨guard, step⟩
  rcases coherent.step guard step with ⟨after, kept⟩
  exact ⟨after, keeps.trans kept⟩

/-- A member pushes one envelope twice. -/
theorem rows_never_change_repeated :
    KeepsRows (KeyedTable.empty.upsert (rowOf 2 (reusedEnvelope 2 42)))
      ((KeyedTable.empty.upsert (rowOf 2 (reusedEnvelope 2 42))).upsert
        (rowOf 2 (reusedEnvelope 2 42))) := by
  let native := Capnp.native [reusedEnvelope 2 42, reusedEnvelope 5 43] []
  let row := rowOf 2 (reusedEnvelope 2 42)
  let table : MessageTable := KeyedTable.empty
  let member := (System.start table).set 0 (some (.idle (memberSocket 2)))
  have readable : Readable native (reusedEnvelope 2 42) := readable_reused (Or.inl rfl)
  have idle : ∀ pid process, member.processes pid = some process →
      ∃ socket, process = .idle socket := by
    intro pid process present
    by_cases first : pid = 0
    · subst first
      exact ⟨_, (Option.some.inj present).symm⟩
    · rw [show member.processes pid = none from Function.update_of_ne first ..] at present
      cases present
  have receives : ∀ stored : MessageTable, (∀ other ∈ stored, other = row) →
      KeepsHistory native { member with store := stored }
        (.received 0 (memberSocket 2) (pushOf (reusedEnvelope 2 42))) := by
    intro stored onlyRow write planned other holds same
    rw [plannedWrites_pushOf 2 readable, List.mem_singleton] at planned holds
    have otherEq : other = rowWrite row := by
      rcases holds with holds | planned
      · rcases @exists_row_of_holds native { member with store := stored } other rfl idle holds
          with ⟨held, heldMem, rfl⟩
        rw [onlyRow held heldMem]
      · exact planned
    rw [planned, otherEq]
    exact SameContent.refl _
  rcases @run_member native (System.start table) 0 2 rfl with ⟨joins, joined⟩
  rcases @run_pushOf native (KeepsHistory native) member 0 2 _ readable
    (receives table fun _ otherMem => by cases otherMem) (fun _ _ _ => trivial)
    (fun _ _ => trivial) rfl with ⟨firstPush, pushed₁⟩
  rcases @run_pushOf native (KeepsHistory native) { member with store := table.upsert row } 0 2 _
    readable (receives _ fun other otherMem => by
      rcases KeyedTable.mem_upsert.mp otherMem with ⟨old, -⟩ | rfl
      · cases old
      · rfl) (fun _ _ _ => trivial)
    (fun _ _ => trivial) rfl with ⟨secondPush, pushed₂⟩
  exact rows_never_change native table (joined.append pushed₁) pushed₂

/-- Two members push messages with one id: the second overwrites the first. -/
theorem pushed_row_overwritten :
    ¬∀ (native : Native) (table : MessageTable) (before after : List SystemLabel)
        (now later : System MessageTable),
      Run (HistoryStep native) (System.start table) before now →
        Run (HistoryStep native) now after later → KeepsRows now.store later.store := by
  intro keeps
  let native := Capnp.native [reusedEnvelope 2 42, reusedEnvelope 5 43] []
  let table : MessageTable := KeyedTable.empty
  let first := rowOf 2 (reusedEnvelope 2 42)
  let second := rowOf 5 (reusedEnvelope 5 43)
  rcases @run_member native (System.start table) 0 2 rfl with ⟨firstJoin, joined₁⟩
  rcases @run_member native ((System.start table).set 0 (some (.idle (memberSocket 2)))) 1 5
    (System.set_processes_of_ne _ _ (by decide)) with ⟨secondJoin, joined₂⟩
  rcases @run_pushOf native (fun _ _ => True)
    (((System.start table).set 0 (some (.idle (memberSocket 2)))).set 1
      (some (.idle (memberSocket 5)))) 0 2 _ (readable_reused (Or.inl rfl)) trivial
    (fun _ _ _ => trivial) (fun _ _ => trivial) rfl with ⟨firstPush, pushed₁⟩
  rcases @run_pushOf native (fun _ _ => True)
    { ((System.start table).set 0 (some (.idle (memberSocket 2)))).set 1
        (some (.idle (memberSocket 5))) with store := table.upsert first } 1 5 _
    (readable_reused (Or.inr rfl)) trivial (fun _ _ _ => trivial) (fun _ _ => trivial) rfl
    with ⟨secondPush, pushed₂⟩
  rcases keeps native table _ _ _ _
    ((joined₁.of_guarded.append joined₂.of_guarded).append pushed₁.of_guarded)
    pushed₂.of_guarded first (KeyedTable.mem_upsert_self _ _) with ⟨kept, keptMem, key, same⟩
  have sameKey : first.key = second.key := by decide
  rcases KeyedTable.mem_upsert.mp keptMem with ⟨-, different⟩ | rfl
  · exact different (key.trans sameKey)
  · exact absurd same.2.1 (by decide)

end Mercury.Gateway
