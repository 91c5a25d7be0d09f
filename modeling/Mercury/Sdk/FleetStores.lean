import Mercury.Sdk.FleetDelivery

/-!
# What the local stores hold

Late messages, pages that are cut off, queries that fail and pushes that are lost decide which
messages a device gets, but not what they are: in every run, whatever a local store holds was
written to the channel before, with the same id, sender, content and time.
-/

namespace Mercury.Sdk

open Gateway Foundations Foundations.Program Persistence

/-! ## What was written -/

/-- Some socket or task wrote the message to the channel. -/
def Fleet.Inserted (fleet : Fleet) (labels : List FleetLabel) (msg : Message) : Prop :=
  ∃ label ∈ labels, ∃ row answer, label.command = some ⟨.inl (.insertMessage row), answer⟩ ∧
    fleet.Owns row ∧ row.message = msg

/-- The delta is one of a message of the channel. -/
def Fleet.Genuine (fleet : Fleet) (labels : List FleetLabel) (delta : SyncDelta) : Prop :=
  ∃ msg, fleet.Inserted labels msg ∧
    SyncEngine.received fleet.name delta = pulledMessage fleet.name msg

/-- The record is the local copy of a message of the channel. -/
def Fleet.Copies (fleet : Fleet) (labels : List FleetLabel) (held : LocalMessage Bytes) : Prop :=
  ∃ msg, fleet.Inserted labels msg ∧ held = localMessage (pulledMessage fleet.name msg)

section Inserted

variable {fleet : Fleet} {labels : List FleetLabel} {label : FleetLabel} {msg : Message}

theorem Fleet.Inserted.append (inserted : fleet.Inserted labels msg) :
    fleet.Inserted (labels ++ [label]) msg := by
  rcases inserted with ⟨earlier, labelMem, writes⟩
  exact ⟨earlier, List.mem_append_left _ labelMem, writes⟩

theorem Fleet.inserted_last {row : MessageRow} {answer : Except Raise (Except Bytes Unit)}
    (command : label.command = some ⟨.inl (.insertMessage row), answer⟩) (owned : fleet.Owns row) :
    fleet.Inserted (labels ++ [label]) row.message :=
  ⟨label, by simp, row, answer, command, owned, rfl⟩

theorem Fleet.Inserted.legible (inserted : fleet.Inserted labels msg)
    (legible : ∀ label ∈ labels, fleet.Legible label) :
    fleet.codec.Reads fleet.native (fleet.envelope msg) := by
  rcases inserted with ⟨label, labelMem, row, answer, command, owned, rfl⟩
  exact (legible label labelMem row answer command owned).2

theorem Fleet.Genuine.append {delta : SyncDelta} (genuine : fleet.Genuine labels delta) :
    fleet.Genuine (labels ++ [label]) delta := by
  rcases genuine with ⟨msg, inserted, same⟩
  exact ⟨msg, inserted.append, same⟩

theorem Fleet.Copies.append {held : LocalMessage Bytes} (copies : fleet.Copies labels held) :
    fleet.Copies (labels ++ [label]) held := by
  rcases copies with ⟨msg, inserted, same⟩
  exact ⟨msg, inserted.append, same⟩

end Inserted

/-! ## The invariant -/

/-- What the gateway has read so far for a frame of a cycle. -/
structure RequestSound (fleet : Fleet) (labels : List FleetLabel) (frame : PushedFrame) :
    Prop where
  reads : ∀ bucketId limit rows,
    ⟨.inl (.selectMessages fleet.tenantId.val fleet.channelId bucketId limit), .ok (.ok rows)⟩ ∈
      frame.made → ∀ row ∈ rows, fleet.Inserted labels row.message
  clocks : ∀ taken ∈ frame.made, ∀ now, Reads taken now → now < 256 ^ 8

/-- What a cycle has pulled so far, and the frame that it waits for. -/
structure CycleSound (fleet : Fleet) (labels : List FleetLabel) (cycle : SyncCycle) : Prop where
  comes : ∃ rounds, (fleet.syncChannel cycle.owner rounds).Comes cycle.past cycle.rest
  pulled : ∀ topic since data result,
    ⟨.push topic Event.syncRequest (Channel.syncPayload since 100), .ok data⟩ ∈ cycle.past →
      Channel.readSyncReply fleet.codec data = some result →
        ∀ delta ∈ result.deltas, fleet.Genuine labels delta
  joined : ∀ frame, cycle.frame = some frame → ∃ topic, frame.Joined fleet topic
  handles : ∀ frame, cycle.frame = some frame →
    (nodeHandleIn fleet.native frame.data frame.socket).Comes frame.made frame.rest
  request : ∀ frame, cycle.frame = some frame → RequestSound fleet labels frame

/-- The table, the local stores and the cycles hold messages of the channel only. -/
structure FleetSound (fleet : Fleet) (labels : List FleetLabel) (state : FleetState) : Prop where
  table : ∀ msg ∈ fleet.messages state.table, fleet.Inserted labels msg
  stores : ∀ device, ∀ held ∈ (state.devices device).messages, fleet.Copies labels held
  cycles : ∀ pid cycle, state.cycles pid = some cycle → CycleSound fleet labels cycle

section Sound

variable {fleet : Fleet} {labels : List FleetLabel} {label : FleetLabel}
  {state target : FleetState} {cycle : SyncCycle} {frame : PushedFrame}

theorem RequestSound.append (sound : RequestSound fleet labels frame) :
    RequestSound fleet (labels ++ [label]) frame where
  reads bucketId limit rows performed row rowMem :=
    (sound.reads bucketId limit rows performed row rowMem).append
  clocks := sound.clocks

theorem CycleSound.append (sound : CycleSound fleet labels cycle) :
    CycleSound fleet (labels ++ [label]) cycle where
  comes := sound.comes
  pulled topic since data result pushed readEq delta deltaMem :=
    (sound.pulled topic since data result pushed readEq delta deltaMem).append
  joined := sound.joined
  handles := sound.handles
  request frame handling := (sound.request frame handling).append

/-- A step that changes only what it has to account for. -/
theorem FleetSound.next (sound : FleetSound fleet labels state)
    (table : ∀ msg ∈ fleet.messages target.table, msg ∈ fleet.messages state.table ∨
      fleet.Inserted (labels ++ [label]) msg)
    (stores : ∀ device, ∀ held ∈ (target.devices device).messages,
      held ∈ (state.devices device).messages ∨ fleet.Copies (labels ++ [label]) held)
    (cycles : ∀ pid cycle, target.cycles pid = some cycle →
      state.cycles pid = some cycle ∨ CycleSound fleet (labels ++ [label]) cycle) :
    FleetSound fleet (labels ++ [label]) target where
  table msg msgMem := by
    rcases table msg msgMem with old | new
    · exact (sound.table msg old).append
    · exact new
  stores device held heldMem := by
    rcases stores device held heldMem with old | new
    · exact (sound.stores device held old).append
    · exact new
  cycles pid cycle present := by
    rcases cycles pid cycle present with old | new
    · exact (sound.cycles pid cycle old).append
    · exact new

theorem FleetSound.start (fleet : Fleet) : FleetSound fleet [] .start where
  table := by
    rw [messages_start]
    rintro msg ⟨⟩
  stores := by
    rintro device held ⟨⟩
  cycles := by
    rintro pid cycle ⟨⟩

/-! ### Commands to the stores -/

/-- A command writes no other message than it names. -/
theorem inserted_of_answers {taken : Performed node Raise} {stored : MessageTable}
    (command : label.command = some taken) (answers : AnswersFrom state.table taken stored) :
    ∀ msg ∈ fleet.messages stored, msg ∈ fleet.messages state.table ∨
      fleet.Inserted (labels ++ [label]) msg := by
  intro msg msgMem
  rcases answers.step with _ | _ | _
  · rcases mem_messages_upsert msgMem with old | ⟨owned, rfl⟩
    · exact Or.inl old
    · exact Or.inr (Fleet.inserted_last command owned)
  · exact Or.inl msgMem
  · exact Or.inl msgMem

/-- What a query reads is in the table. -/
theorem RequestSound.handle {asked : node.Call} {answer : Except Raise (node.Answer asked)}
    {rest : Program node Raise Reaction} {stored : MessageTable}
    (sound : RequestSound fleet labels frame)
    (table : ∀ msg ∈ fleet.messages state.table, fleet.Inserted labels msg)
    (answers : AnswersFrom state.table ⟨asked, answer⟩ stored) :
    RequestSound fleet labels
      { frame with made := frame.made ++ [⟨asked, answer⟩], rest := rest } where
  reads bucketId limit rows performed row rowMem := by
    rcases List.mem_append.mp performed with earlier | now
    · exact sound.reads bucketId limit rows earlier row rowMem
    · have rowsEq := answers.selects _ _ _ _ _ (List.mem_singleton.mp now).symm
      rw [rowsEq] at rowMem
      exact table _ (List.mem_map_of_mem (mem_of_mem_select rowMem).1)
  clocks taken takenMem now reading := by
    rcases List.mem_append.mp takenMem with earlier | last
    · exact sound.clocks taken earlier now reading
    · cases List.mem_singleton.mp last
      exact fits_of_exact (answers.clock now reading)

/-! ### The reply to a sync request -/

/-- What the queries for a page have read was written before. -/
theorem RequestSound.inserted_of_newerOf {since : ℕ} {msg : Message}
    (sound : RequestSound fleet labels frame)
    (run : RequestRun fleet.tenantId.val fleet.channelId since frame.made)
    (msgMem : msg ∈ newerOf since run.reads) : fleet.Inserted labels msg := by
  rcases mem_newerOf.mp msgMem with ⟨read, readMem, row, rowMem, rfl, -⟩
  rcases List.mem_map.mp readMem with ⟨⟨bucketId, failed | rows⟩, answerMem, rfl⟩
  · cases rowMem
  · exact sound.reads bucketId 101 rows
      (run.mem_made.mpr (Or.inr (Or.inl ⟨_, answerMem, rfl⟩))) row rowMem

theorem RequestSound.wall_lt {since : ℕ} (sound : RequestSound fleet labels frame)
    (run : RequestRun fleet.tenantId.val fleet.channelId since frame.made)
    (fits : since < 256 ^ 8) : run.wall < 256 ^ 8 := by
  have system := sound.clocks ⟨.inr .systemTime, .ok run.system⟩
    (run.mem_made.mpr (Or.inr (Or.inr (Or.inl rfl)))) _ (Or.inl rfl)
  have reading := sound.clocks ⟨.inr .nativeTime, .ok run.reading⟩
    (run.mem_made.mpr (Or.inr (Or.inr (Or.inr rfl)))) _ (Or.inr rfl)
  exact max_lt (max_lt reading system) fits

/-- The deltas of a reply are messages of the channel. -/
theorem RequestSound.replied {topic data : Bytes} {since : ℕ} {reaction : Reaction}
    {result : SyncResult} (sound : RequestSound fleet labels frame)
    (legible : ∀ label ∈ labels, fleet.Legible label) (joined : frame.Joined fleet topic)
    (isRequest : frame.event = Event.syncRequest)
    (payload : frame.payload = Channel.syncPayload since 100)
    (performs : (nodeHandleIn fleet.native frame.data frame.socket).Performs frame.made
      (.ok reaction))
    (pushed : reaction.pushed = [replyFrame frame.ref frame.topicId statusOk data])
    (readEq : Channel.readSyncReply fleet.codec data = some result) :
    ∀ delta ∈ result.deltas, fleet.Genuine labels delta := by
  rcases joined.entry with ⟨info, entry, -, names⟩
  rw [PushedFrame.data, isRequest, payload] at performs
  rcases @readSyncReply_of_performs fleet.codec _ _ _ _ _ _ _ _ _ _ _ joined.tenant
    joined.refFits joined.topicFits entry names performs pushed with ⟨run, replies⟩
  have wallFits := sound.wall_lt run (Nat.mod_lt since (Nat.pow_pos (by decide)))
  have pageEq := replies wallFits fun msg msgMem =>
    (sound.inserted_of_newerOf run msgMem).legible legible
  rw [readEq] at pageEq
  cases pageEq
  intro delta deltaMem
  rcases List.mem_map.mp deltaMem with ⟨msg, msgMem, rfl⟩
  exact ⟨msg, sound.inserted_of_newerOf run (mem_pageOf msgMem), rfl⟩

/-! ### Calls of a cycle -/

/-- A cycle that has gone on after a call. -/
theorem CycleSound.after {asked : Device.Call} {answer : Except Thrown (Device.Answer asked)}
    {next : Except Thrown (Device.Answer asked) → Script SyncCount}
    (sound : CycleSound fleet labels cycle) (waits : cycle.rest = .call asked next)
    (pulled : ∀ topic since data result, (⟨asked, answer⟩ : Performed device Thrown) =
        ⟨.push topic Event.syncRequest (Channel.syncPayload since 100), .ok data⟩ →
      Channel.readSyncReply fleet.codec data = some result →
        ∀ delta ∈ result.deltas, fleet.Genuine labels delta) :
    CycleSound fleet labels (cycle.after ⟨asked, answer⟩ (next answer)) where
  comes := by
    rcases sound.comes with ⟨rounds, comes⟩
    rw [waits] at comes
    exact ⟨rounds, comes.snoc⟩
  pulled topic since data result pushed readEq := by
    rcases List.mem_append.mp pushed with earlier | now
    · exact sound.pulled topic since data result earlier readEq
    · exact pulled topic since data result (List.mem_singleton.mp now).symm readEq
  joined := nofun
  handles := nofun
  request := nofun

/-- What a cycle writes to the local store is a message of the channel. -/
theorem CycleSound.copies {asked : Device.Call} {device : DeviceState}
    (sound : CycleSound fleet labels cycle)
    (asks : ∃ rounds, (fleet.syncChannel cycle.owner rounds).Asks cycle.past asked)
    {held : LocalMessage Bytes} (heldMem : held ∈ (device.after asked).messages) :
    held ∈ device.messages ∨ fleet.Copies labels held := by
  rcases asks with ⟨rounds, asks⟩
  unfold DeviceState.after at heldMem
  split at heldMem
  · exact Or.inl heldMem
  · rcases LocalStore.mem_writeMessage.mp heldMem with ⟨old, -⟩ | rfl
    · exact Or.inl old
    · rcases asks_writeMessage asks with
        ⟨topic, since, data, result, delta, pushed, readEq, deltaMem, rfl⟩
      rcases sound.pulled topic since data result pushed readEq delta deltaMem with
        ⟨msg, inserted, same⟩
      exact Or.inr ⟨msg, inserted, congrArg localMessage same⟩
  · exact Or.inl ((LocalStore.evictOldMessages_spec.1 held).mp heldMem).1
  · exact Or.inl heldMem

/-! ### Steps -/

/-- A step of a cycle that leaves the channel and the devices as they are. -/
theorem FleetSound.setCycle {pid : ℕ} (sound : FleetSound fleet labels state)
    (soundCycle : CycleSound fleet (labels ++ [label]) cycle) :
    FleetSound fleet (labels ++ [label]) (state.setCycle pid cycle) := by
  apply sound.next
  · exact fun msg msgMem => Or.inl msgMem
  · exact fun device held heldMem => Or.inl heldMem
  · intro other current present
    rcases cycles_setCycle present with rfl | old
    · exact Or.inr soundCycle
    · exact Or.inl old

theorem FleetSound.gateway {systemLabel : SystemLabel} {system : Gateway.System MessageTable}
    {accepted : List Message} (sound : FleetSound fleet labels state)
    (step : SystemStep fleet.native AnswersFrom state.gateway systemLabel system) :
    FleetSound fleet (labels ++ [.gateway systemLabel])
      { state with gateway := system, accepted := accepted } := by
  apply sound.next
  · intro msg msgMem
    cases step with
    | performed present performs answers => exact inserted_of_answers rfl answers msg msgMem
    | _ => exact Or.inl msgMem
  · exact fun device held heldMem => Or.inl heldMem
  · exact fun pid current present => Or.inl present

theorem FleetSound.performed {pid : ℕ} {asked : Device.Call}
    {answer : Except Thrown (Device.Answer asked)}
    {next : Except Thrown (Device.Answer asked) → Script SyncCount} {after : DeviceState}
    (sound : FleetSound fleet labels state) (present : state.cycles pid = some cycle)
    (waits : cycle.rest = .call asked next)
    (carries : (state.devices cycle.owner).Carries ⟨asked, answer⟩ after) :
    FleetSound fleet (labels ++ [label]) ((state.setDevice cycle.owner after).setCycle pid
      (cycle.after ⟨asked, answer⟩ (next answer))) := by
  have soundCycle := sound.cycles pid cycle present
  apply sound.next
  · exact fun msg msgMem => Or.inl msgMem
  · intro device held heldMem
    have changed : held ∈ ((state.setDevice cycle.owner after).devices device).messages := heldMem
    rw [devices_setDevice] at changed
    split at changed
    · next same =>
        rw [same]
        rcases carries.effect with rfl | ⟨rfl, -⟩
        · have asks : ∃ rounds, (fleet.syncChannel cycle.owner rounds).Asks cycle.past asked := by
            rcases soundCycle.comes with ⟨rounds, comes⟩
            rw [waits] at comes
            exact ⟨rounds, next, comes⟩
          exact (soundCycle.copies asks changed).imp_right Fleet.Copies.append
        · exact Or.inl changed
    · exact Or.inl changed
  · intro other current found
    rcases cycles_setCycle found with rfl | old
    · refine Or.inr ((soundCycle.after waits ?_).append)
      rintro topic since data result ⟨⟩
      exact absurd rfl (carries.own _ _ _)
    · exact Or.inl old

theorem FleetSound.answered {pid : ℕ} {topic data : Bytes}
    {next : Except Thrown Bytes → Script SyncCount} {reaction : Reaction}
    (sound : FleetSound fleet labels state) (legible : ∀ label ∈ labels, fleet.Legible label)
    (present : state.cycles pid = some cycle)
    (waits : cycle.rest = .call (.push topic frame.event frame.payload) next)
    (handling : cycle.frame = some frame) (handled : frame.rest = .done reaction)
    (pushed : reaction.pushed = [replyFrame frame.ref frame.topicId statusOk data]) :
    FleetSound fleet (labels ++ [label]) (state.setCycle pid
      (cycle.after ⟨.push topic frame.event frame.payload, .ok data⟩ (next (.ok data)))) := by
  have soundCycle := sound.cycles pid cycle present
  rcases soundCycle.joined frame handling with ⟨joinedTopic, joined⟩
  have comes := soundCycle.handles frame handling
  rw [handled] at comes
  apply sound.setCycle
  refine (soundCycle.after waits ?_).append
  intro other since replied result same readEq
  have isRequest : frame.event = Event.syncRequest ∧
      frame.payload = Channel.syncPayload since 100 ∧ data = replied := by
    injection same with asked answer
    injection asked with topicEq eventEq payloadEq
    exact ⟨eventEq, payloadEq, by subst_vars; simpa using answer⟩
  rcases isRequest with ⟨isRequest, payload, rfl⟩
  exact (soundCycle.request frame handling).replied legible joined isRequest payload
    comes.performs_done pushed readEq

theorem FleetSound.rejected {pid : ℕ} {topic payload : Bytes} {event : Byte}
    {next : Except Thrown Bytes → Script SyncCount} {thrown : Thrown}
    (sound : FleetSound fleet labels state) (present : state.cycles pid = some cycle)
    (waits : cycle.rest = .call (.push topic event payload) next) :
    FleetSound fleet (labels ++ [label]) (state.setCycle pid
      (cycle.after ⟨.push topic event payload, .error thrown⟩ (next (.error thrown)))) := by
  apply sound.setCycle
  refine ((sound.cycles pid cycle present).after waits ?_).append
  rintro other since data result ⟨⟩

/-- Every step keeps the invariant. -/
theorem FleetSound.step (sound : FleetSound fleet labels state)
    (legible : ∀ label ∈ labels, fleet.Legible label)
    (taken : FleetStep fleet state label target) :
    FleetSound fleet (labels ++ [label]) target := by
  cases taken with
  | gateway step => exact sound.gateway step
  | began =>
      apply sound.setCycle
      exact ⟨⟨_, Comes.start _⟩, nofun, nofun, nofun, nofun⟩
  | performed present waits carries => exact sound.performed present waits carries
  | asked present waits silent joined =>
      have soundCycle := sound.cycles _ _ present
      apply sound.setCycle
      refine ⟨soundCycle.comes, soundCycle.append.pulled, ?_, ?_, ?_⟩
      · rintro frame ⟨⟩
        exact ⟨_, joined⟩
      · rintro frame ⟨⟩
        exact Comes.start _
      · rintro frame ⟨⟩
        exact ⟨nofun, nofun⟩
  | handled present waits handles answers =>
      have soundCycle := sound.cycles _ _ present
      apply sound.next
      · exact inserted_of_answers rfl answers
      · exact fun device held heldMem => Or.inl heldMem
      · intro other current found
        rcases cycles_setCycle found with rfl | old
        · refine Or.inr ⟨soundCycle.comes, soundCycle.append.pulled, ?_, ?_, ?_⟩
          · rintro frame ⟨⟩
            rcases soundCycle.joined _ waits with ⟨topic, joined⟩
            exact ⟨topic, joined.tenant, joined.refFits, joined.topicFits, joined.entry⟩
          · rintro frame ⟨⟩
            have comes := soundCycle.handles _ waits
            rw [handles] at comes
            exact comes.snoc
          · rintro frame ⟨⟩
            exact ((soundCycle.request _ waits).handle sound.table answers).append
        · exact Or.inl old
  | answered present waits handling handled pushed =>
      exact sound.answered legible present waits handling handled pushed
  | unsent present waits => exact sound.rejected present waits
  | @lost pid socketPid cycle frame topic payload event next thrown present waits handling =>
      have rejected := @FleetSound.rejected fleet labels (.lost pid) _ _ _ _ _ _ _ thrown sound
        present waits
      exact ⟨rejected.table, rejected.stores, rejected.cycles⟩

end Sound

/-! ## Runs -/

theorem fleetSound_run {fleet : Fleet} {labels : List FleetLabel} {state : FleetState}
    (legible : ∀ label ∈ labels, fleet.Legible label)
    (run : Run (FleetStep fleet) .start labels state) : FleetSound fleet labels state := by
  induction run with
  | refl => exact FleetSound.start fleet
  | snoc earlier last ih =>
      have before : ∀ label ∈ _, fleet.Legible label := fun label labelMem =>
        legible label (List.mem_append_left _ labelMem)
      exact (ih before).step before last

/-- In every run, what a local store holds was written to the channel before, as it is. -/
theorem stores_hold_written (fleet : Fleet) {labels : List FleetLabel} {state : FleetState}
    (legible : ∀ label ∈ labels, fleet.Legible label)
    (run : Run (FleetStep fleet) .start labels state) (device : ℕ) :
    ∀ held ∈ (state.devices device).messages, ∃ msg, fleet.Inserted labels msg ∧
      held = localMessage (pulledMessage fleet.name msg) :=
  (fleetSound_run legible run).stores device

/-- The message is pulled, and not evicted. -/
theorem store_synced (data : Bytes) : ((FleetState.start.devices 0).afterCalls
    (sampleFleet.quietCalls 0 sampleTable none 6 data)).messages.rows =
      [localMessage (pulledMessage sampleFleet.name pushedSample.message)] := by
  have pulled : ((FleetState.start.devices 0).afterCalls
      (sampleFleet.quietPulls 0 sampleTable none 6 data)).messages.rows =
        [localMessage (pulledMessage sampleFleet.name pushedSample.message)] := rfl
  have few : LocalStore.count ((FleetState.start.devices 0).afterCalls
      (sampleFleet.quietPulls 0 sampleTable none 6 data)).messages (ascii sampleFleet.name) ≤
        LocalStore.maxMessagesPerChannel := by
    refine LocalStore.count_le_length.trans ?_
    rw [pulled]
    decide
  rw [Fleet.quietCalls, DeviceState.afterCalls, List.foldl_append, List.foldl_cons,
    List.foldl_nil, DeviceState.after, LocalStore.evictOldMessages, ← DeviceState.afterCalls,
    if_pos few, pulled]

/-- The message of user 5 is pushed to an empty channel, and a device syncs. -/
theorem stores_hold_written_sample : ∃ labels state,
    Run (FleetStep sampleFleet) .start labels state ∧
      (state.devices 0).messages.rows =
        [localMessage (pulledMessage sampleFleet.name pushedSample.message)] ∧
      ∀ held ∈ (state.devices 0).messages, ∃ msg, sampleFleet.Inserted labels msg ∧
        held = localMessage (pulledMessage sampleFleet.name msg) := by
  rcases @exists_run_sample (fun _ => WritesOnly pushedSample.message) .start rfl rfl
    (fun _ _ _ _ only => only) with ⟨pushing, gateway, accepted, pushes, stored, -⟩
  have table : FleetState.table { FleetState.start with gateway := gateway, accepted := accepted } =
      sampleTable := stored
  have answering := @answering_sample sampleTable 0 6
    (by simp [messages_sampleTable]) (by decide) (by decide) (by decide)
  have few : (newerOf 0 (sampleFleet.quietReads sampleTable 0 6)).length ≤ 100 := by decide
  rw [← table] at answering few
  rcases @exists_quiet sampleFleet (fun _ => WritesOnly pushedSample.message)
    { FleetState.start with gateway := gateway, accepted := accepted } 0 0 1 6 (memberSocket 2)
    (channelEntry (.replicate 1) (.replicate 7)) none rfl rfl connected_numbered rfl answering
    (by decide) few (fun _ => admitsQuiet_writesOnly _) with ⟨data, syncing, reached, syncs⟩
  have run := pushes.append syncs
  have only := (run.labels (fun _ taken => ⟨trivial, taken.1⟩) trivial).2
  refine ⟨_, _, run.of_guarded, ?_, stores_hold_written sampleFleet
    (fun label labelMem => legible_sample (only label labelMem)) run.of_guarded 0⟩
  rw [Solo.state_devices, table]
  exact store_synced data

end Mercury.Sdk
