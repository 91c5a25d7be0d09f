import Mercury.Sdk.CycleTurns
import Mercury.Sdk.FleetRuns
import Mercury.Sdk.OfflineDelivery

/-!
# Messages that the cursors have passed

In every run without a late message a cycle that completes delivers what had been accepted
before it started. A message that is stored with a time that a cursor has passed is not
delivered, although the device is served every time.
-/

namespace Mercury.Sdk

open Gateway Foundations Foundations.Program Persistence

/-! ## Frames of other sockets -/

section Frames

variable {fleet : Fleet} {state : FleetState} {guard : FleetState → FleetLabel → Prop}
  {only : Gateway.System MessageTable → SystemLabel → Prop}

/-- The other sockets and the tasks go on while the cycles wait. -/
theorem exists_run_gateway {Kept : Gateway.System MessageTable → Prop}
    {source target : Gateway.System MessageTable} {labels : List SystemLabel}
    (run : Run (Guarded only (SystemStep fleet.native AnswersFrom)) source labels target)
    (kept : Kept source)
    (stays : ∀ {system label next}, Kept system → only system label →
      SystemStep fleet.native AnswersFrom system label next → Kept next)
    (admitted : ∀ system label accepted, Kept system → only system label →
      guard { state with gateway := system, accepted := accepted } (.gateway label)) :
    ∃ accepted, Run (Guarded guard (FleetStep fleet)) { state with gateway := source }
        (labels.map .gateway) { state with gateway := target, accepted := accepted } ∧
      (∀ msg, msg ∈ accepted ↔ msg ∈ state.accepted ∨
        ∃ label ∈ labels, msg ∈ fleet.acceptedIn (.gateway label)) ∧ Kept target := by
  induction run with
  | refl => exact ⟨state.accepted, Run.refl, by simp, kept⟩
  | @snoc middle target labels label _ last ih =>
      rcases ih with ⟨accepted, earlier, acceptedIff, keptMiddle⟩
      refine ⟨fleet.acceptedIn (.gateway label) ++ accepted, ?_, fun msg => ?_,
        stays keptMiddle last.1 last.2⟩
      · rw [List.map_append]
        exact Run.snoc earlier
          ⟨admitted middle label accepted keptMiddle last.1, FleetStep.gateway last.2⟩
      · have split : (∃ other ∈ labels ++ [label], msg ∈ fleet.acceptedIn (.gateway other)) ↔
            (∃ other ∈ labels, msg ∈ fleet.acceptedIn (.gateway other)) ∨
              msg ∈ fleet.acceptedIn (.gateway label) := by
          simp only [List.mem_append, List.mem_singleton, or_and_right, exists_or, exists_eq_left]
        rw [List.mem_append, acceptedIff, split, or_comm, or_assoc]

/-- The command is no query, and no clock that the devices cannot read. -/
structure Unqueried (taken : Performed node Raise) : Prop where
  noQuery : ∀ tenantId channelId bucketId limit,
    taken.call ≠ .inl (.selectMessages tenantId channelId bucketId limit)
  clock : mergedClock taken < exactBound

/-- Such commands are answered while the table takes up what they write. -/
theorem run_answersFrom {made : List (Performed node Raise)} (table : MessageTable)
    (unqueried : ∀ taken ∈ made, Unqueried taken) :
    Run AnswersFrom table made (tableAfter table made) := by
  have answered : ∀ {source : MessageTable} {taken : Performed node Raise}
      {target : MessageTable},
      Unqueried taken ∧ MessageStep source taken target → AnswersFrom source taken target := by
    rintro source taken target ⟨simple, step⟩
    refine ⟨step, ?_, ?_⟩
    · rintro tenantId channelId bucketId limit rows rfl
      exact absurd rfl (simple.noQuery _ _ _ _)
    · rintro now (rfl | rfl)
      · exact simple.clock
      · exact simple.clock
  exact ((run_tableAfter table made).guarded_of_labels unqueried).mono answered

/-- The step writes no other message. -/
def WritesOnly (msg : Message) (label : FleetLabel) : Prop :=
  match label.command with
  | some ⟨.inl (.insertMessage row), _⟩ => row.message = msg
  | _ => True

theorem WritesOnly.message_eq {msg : Message} {label : FleetLabel} (only : WritesOnly msg label)
    {row : MessageRow} {answer : Except Raise (Except Bytes Unit)}
    (command : label.command = some ⟨.inl (.insertMessage row), answer⟩) : row.message = msg := by
  rw [WritesOnly, command] at only
  exact only

theorem unqueried_joinCalls {socket : Socket} {channelId : Id16} {members : List Bytes} :
    ∀ taken ∈ joinCalls socket channelId members, Unqueried taken := by
  intro taken takenMem
  simp only [joinCalls, List.mem_cons, List.not_mem_nil, or_false] at takenMem
  have positive : 0 < exactBound := Nat.pow_pos (by decide)
  rcases takenMem with rfl | rfl | rfl | rfl
  all_goals
    refine ⟨?_, positive⟩
    rintro _ _ _ _ ⟨⟩

theorem unqueried_pushCalls {socket : Socket} {channelId : Bytes} {bucket now : ℕ}
    {envelope : Envelope} (nowFits : now < exactBound) :
    ∀ taken ∈ pushCalls socket channelId bucket envelope now, Unqueried taken := by
  intro taken takenMem
  simp only [pushCalls, List.mem_cons, List.not_mem_nil, or_false] at takenMem
  have positive : 0 < exactBound := Nat.pow_pos (by decide)
  refine ⟨?_, ?_⟩
  · rcases takenMem with rfl | rfl | rfl | rfl | rfl
    all_goals rintro _ _ _ _ ⟨⟩
  · rcases takenMem with rfl | rfl | rfl | rfl | rfl
    · exact positive
    · exact positive
    · exact positive
    · exact nowFits
    · exact nowFits

theorem writesOnly_joinCalls {socket : Socket} {channelId : Id16} {members : List Bytes}
    {msg : Message} {pid : ℕ} {process : Process} :
    ∀ taken ∈ joinCalls socket channelId members,
      WritesOnly msg (.gateway (.performed pid process taken)) := by
  intro taken takenMem
  simp only [joinCalls, List.mem_cons, List.not_mem_nil, or_false] at takenMem
  rcases takenMem with rfl | rfl | rfl | rfl
  all_goals trivial

theorem writesOnly_pushCalls {socket : Socket} {channelId : Bytes} {bucket now : ℕ}
    {envelope : Envelope} {pid : ℕ} {process : Process} :
    ∀ taken ∈ pushCalls socket channelId bucket envelope now,
      WritesOnly (pushedMessage envelope) (.gateway (.performed pid process taken)) := by
  intro taken takenMem
  simp only [pushCalls, List.mem_cons, List.not_mem_nil, or_false] at takenMem
  rcases takenMem with rfl | rfl | rfl | rfl | rfl
  · trivial
  · rfl
  · trivial
  · trivial
  · trivial

theorem WritesOnly.of_none {msg : Message} {label : FleetLabel} (none : label.command = .none) :
    WritesOnly msg label := by
  rw [WritesOnly, none]
  trivial

theorem WritesOnly.of_mem_acceptedIn {fleet : Fleet} {msg other : Message} {label : FleetLabel}
    (only : WritesOnly msg label) (accepted : other ∈ fleet.acceptedIn label) : other = msg := by
  unfold Fleet.acceptedIn at accepted
  rcases command : label.command with _ | taken
  · rw [command] at accepted
    cases accepted
  · rw [command, Option.elim_some] at accepted
    unfold Fleet.accepts at accepted
    split at accepted
    · split at accepted
      · rw [List.mem_singleton.mp accepted]
        exact only.message_eq command
      · cases accepted
    · cases accepted

theorem mem_acceptedIn {fleet : Fleet} {row : MessageRow} {label : FleetLabel}
    (command : label.command = some ⟨.inl (.insertMessage row), .ok (.ok ())⟩)
    (owned : fleet.Owns row) : row.message ∈ fleet.acceptedIn label := by
  rw [Fleet.acceptedIn, command, Option.elim_some, Fleet.accepts, if_pos owned]
  exact List.mem_singleton_self _

/-- A socket that has joined pushes an envelope. -/
theorem exists_run_push {native : Native} {system : Gateway.System MessageTable}
    {pid ref topicId bucket now : ℕ} {socket : Socket} {data payload channelId : Bytes}
    {info : TopicInfo} {envelope : Envelope} (nowFits : now < exactBound)
    (idle : system.processes pid = some (.idle socket))
    (frameEq : Frame.parse data = .push ref topicId Event.syncPush payload)
    (entry : socket.topicIds.lookup topicId = some info) (names : info.Names channelId)
    (decoded : decodedEnvelopes native (Gateway.unpackEnvelopes payload) = some [envelope])
    (bucketEq : TimeBucket.compute envelope.timestamp = .ok bucket) :
    ∃ labels target, Run (Guarded (fun _ label => WritesOnly (pushedMessage envelope)
        (.gateway label)) (SystemStep native AnswersFrom)) system labels target ∧
      target.store = system.store.upsert (pushedRow socket channelId bucket envelope now) ∧
      ∃ process, .performed pid process ⟨.inl (.insertMessage
        (pushedRow socket channelId bucket envelope now)), .ok (.ok ())⟩ ∈ labels := by
  have performs := performs_push now frameEq entry names decoded bucketEq
  rcases @Gateway.System.run_frame _ native AnswersFrom
    (fun _ label => WritesOnly (pushedMessage envelope) (.gateway label)) _ _ _ _ _ _ _
    (WritesOnly.of_none rfl) (fun _ _ => writesOnly_pushCalls)
    (fun _ _ => WritesOnly.of_none rfl) idle performs
    (run_answersFrom system.store (unqueried_pushCalls nowFits)) with ⟨labels, run, performed⟩
  rcases performed _ (List.mem_cons_of_mem _ List.mem_cons_self) with ⟨rest, inserted⟩
  exact ⟨labels, _, run, rfl, _, inserted⟩

/-- A user connects, joins the channel and pushes an envelope. -/
theorem exists_run_pushed {native : Native} {system : Gateway.System MessageTable} {pid now : ℕ}
    {userId : Byte} {envelope : Envelope} (free : system.processes pid = none)
    (nowFits : now < exactBound) (readable : Readable native envelope) :
    ∃ labels target, Run (Guarded (fun _ label => WritesOnly (pushedMessage envelope)
        (.gateway label)) (SystemStep native AnswersFrom)) system labels target ∧
      target.store = system.store.upsert
        (pushedRow (memberSocket userId) (Id16.replicate 7).val 0 envelope now) ∧
      ∃ process, .performed pid process ⟨.inl (.insertMessage (pushedRow (memberSocket userId)
        (Id16.replicate 7).val 0 envelope now)), .ok (.ok ())⟩ ∈ labels := by
  have joins : ∃ labels, Run (Guarded (fun _ label => WritesOnly (pushedMessage envelope)
      (.gateway label)) (SystemStep native AnswersFrom)) system labels
        (system.set pid (some (.idle (memberSocket userId)))) :=
    run_join (WritesOnly.of_none rfl) (WritesOnly.of_none rfl)
      (fun _ _ => writesOnly_joinCalls) (fun _ _ => WritesOnly.of_none rfl) free
      (List.mem_singleton_self _) (run_answersFrom system.store unqueried_joinCalls)
  rcases joins with ⟨joining, joins⟩
  rcases exists_run_push nowFits (Gateway.System.set_processes_self system pid _)
    (parse_pushOf envelope) (entry_memberSocket userId) names_channelSeven readable.decoded
    readable.bucket with ⟨pushing, target, pushes, stored, process, inserted⟩
  exact ⟨_, target, joins.append pushes, stored, process, List.mem_append_right _ inserted⟩

end Frames

/-! ## Timely cycles -/

section Timely

variable {fleet : Fleet} {state : FleetState} {label : FleetLabel}

theorem timely_of_silent (silent : label.command = none)
    (evicts : ∀ pid cycle channelId answer,
      label = .performed pid ⟨.evictOldMessages channelId, answer⟩ →
        state.cycles pid = some cycle →
          LocalStore.count (state.devices cycle.owner).messages (ascii channelId) ≤
            LocalStore.maxMessagesPerChannel) : fleet.Timely state label where
  inserts row answer command := by
    rw [silent] at command
    cases command
  starts cycle frame now requests := by
    rcases requests with ⟨pid, rfl, -⟩
    cases silent
  reads cycle frame bucketId limit answer requests := by
    rcases requests with ⟨pid, rfl, -⟩
    cases silent
  merges cycle frame taken now requests := by
    rcases requests with ⟨pid, rfl, -⟩
    cases silent
  evicts := evicts

theorem eq_now_of_mem {table : MessageTable} {since now start : ℕ}
    (performed : ⟨.inl .systemTime, .ok start⟩ ∈ fleet.quietCommands table since now) :
    start = now := by
  rcases mem_quietCommands performed with same | ⟨bucketId, same⟩ | same | same <;> cases same
  rfl

theorem eq_select_of_mem {table : MessageTable} {since now bucketId limit : ℕ}
    {answer : Except Bytes (List MessageRow)}
    (performed : ⟨.inl (.selectMessages fleet.tenantId.val fleet.channelId bucketId limit),
      .ok answer⟩ ∈ fleet.quietCommands table since now) :
    limit = 101 ∧
      answer = .ok (table.select fleet.tenantId.val fleet.channelId bucketId 101) := by
  rcases mem_quietCommands performed with same | ⟨queried, same⟩ | same | same <;> cases same
  exact ⟨rfl, rfl⟩

/-- A command of a quiet request, with every message of the channel due. -/
theorem timely_of_quiet {pid since now : ℕ} {cycle : SyncCycle} {frame : PushedFrame}
    {taken : Performed node Raise} (takenMem : taken ∈ fleet.quietCommands state.table since now)
    (present : state.cycles pid = some cycle) (handling : cycle.frame = some frame)
    (sinceEq : frame.since = since) (few : state.table.rows.length ≤ 100)
    (due : ∀ msg ∈ fleet.messages state.table, msg ∈ cycle.due)
    (reached : ∀ msg ∈ cycle.due, msg.createdAt ≤ now) :
    fleet.Timely state (.handled pid taken) := by
  subst sinceEq
  have requested : ∀ {other requested asked}, state.Requests other requested asked
      (.handled pid taken) → other = cycle ∧ requested = frame ∧ asked = taken := by
    rintro other requested asked ⟨otherPid, same, otherPresent, otherHandling, -⟩
    cases same
    rw [present] at otherPresent
    cases otherPresent
    rw [handling] at otherHandling
    cases otherHandling
    exact ⟨rfl, rfl, rfl⟩
  have noInsert : ∀ row answer, taken ≠ ⟨.inl (.insertMessage row), answer⟩ := by
    rintro row answer rfl
    rcases mem_quietCommands takenMem with same | ⟨bucketId, same⟩ | same | same <;> cases same
  refine ⟨fun row answer command => ?_, ?_, ?_, ?_, nofun⟩
  · exact absurd (Option.some.inj command) (noInsert row answer)
  · intro other asking start requests msg msgDue newer
    rcases requested requests with ⟨rfl, rfl, rfl⟩
    rw [eq_now_of_mem takenMem]
    exact (TimeBucket.ofMs_mono (reached msg msgDue)).trans (le_max_left _ _)
  · intro other asking bucketId limit answer requests
    rcases requested requests with ⟨rfl, rfl, rfl⟩
    rcases eq_select_of_mem takenMem with ⟨rfl, rfl⟩
    refine ⟨?_, fun row rowMem _ bucketEq => ⟨_, rfl, ?_⟩⟩
    · exact ((List.length_filter_le _ _).trans (List.length_filter_le _ _)).trans few
    · rw [← bucketEq]
      exact mem_select_of_length_le (mem_newerMessages.mp rowMem).1 (few.trans (by decide))
  · intro other asking command read requests isClock msg msgMem newer before
    rcases requested requests with ⟨rfl, rfl, same⟩
    exact Or.inl (due msg msgMem)

/-- A quiet cycle is timely where every message of the channel has been accepted. -/
theorem admitsQuiet_timely {pid owner since now : ℕ} {evicted : DeviceState}
    (few : state.table.rows.length ≤ 100)
    (accepted : ∀ msg, msg ∈ fleet.messages state.table ↔ msg ∈ state.accepted)
    (reached : ∀ msg ∈ state.accepted, msg.createdAt ≤ now)
    (small : evicted.messages.rows.length ≤ LocalStore.maxMessagesPerChannel) :
    AdmitsQuiet fleet fleet.Timely ⟨state, pid, owner, state.accepted⟩ since now evicted where
  silent current label silent noEvict :=
    timely_of_silent silent fun pid _ channelId answer same =>
      absurd same (noEvict pid channelId answer)
  handled taken takenMem current cycle frame sameTable present due handling sinceEq := by
    rw [← sameTable] at takenMem
    refine timely_of_quiet takenMem present handling sinceEq (sameTable ▸ few) ?_ ?_
    · rw [sameTable, due]
      exact fun msg => (accepted msg).mp
    · rw [due]
      exact reached
  evicts current cycle present own sameStore := by
    refine timely_of_silent rfl ?_
    rintro _ other _ _ ⟨⟩ otherPresent
    rw [present] at otherPresent
    cases otherPresent
    rw [own, sameStore]
    exact LocalStore.count_le_length.trans small

theorem admitsQuiet_writesOnly {solo : Solo} {since now : ℕ} {evicted : DeviceState}
    (msg : Message) :
    AdmitsQuiet fleet (fun _ => WritesOnly msg) solo since now evicted where
  silent _ _ silent _ := WritesOnly.of_none silent
  handled taken takenMem _ _ _ _ _ _ _ _ := by
    rcases mem_quietCommands takenMem with rfl | ⟨bucketId, rfl⟩ | rfl | rfl
    all_goals trivial
  evicts _ _ _ _ _ := WritesOnly.of_none rfl

theorem AdmitsQuiet.and {first second : FleetState → FleetLabel → Prop} {solo : Solo}
    {since now : ℕ} {evicted : DeviceState} (left : AdmitsQuiet fleet first solo since now evicted)
    (right : AdmitsQuiet fleet second solo since now evicted) :
    AdmitsQuiet fleet (fun state label => first state label ∧ second state label) solo since now
      evicted where
  silent state label silent noEvict :=
    ⟨left.silent state label silent noEvict, right.silent state label silent noEvict⟩
  handled taken takenMem state cycle frame sameTable present due handling sinceEq :=
    ⟨left.handled taken takenMem state cycle frame sameTable present due handling sinceEq,
      right.handled taken takenMem state cycle frame sameTable present due handling sinceEq⟩
  evicts state cycle present own sameStore :=
    ⟨left.evicts state cycle present own sameStore, right.evicts state cycle present own sameStore⟩

/-- While the other sockets write one message, the channel holds no other. -/
theorem messages_eq_of_step {msg : Message} {system target : Gateway.System MessageTable}
    {label : SystemLabel} (only : WritesOnly msg (.gateway label))
    (step : SystemStep fleet.native AnswersFrom system label target)
    (kept : ∀ other ∈ fleet.messages system.store, other = msg) :
    ∀ other ∈ fleet.messages target.store, other = msg := by
  cases step with
  | performed present performs answered =>
      intro other otherMem
      rcases answered.step with _ | _ | _
      · rcases mem_messages_upsert otherMem with old | ⟨-, rfl⟩
        · exact kept other old
        · exact only.message_eq rfl
      · exact kept other otherMem
      · exact kept other otherMem
  | _ => exact kept

/-- The first message of a channel is timely. -/
theorem timely_gateway {msg : Message} {label : SystemLabel} {gateway : Gateway.System MessageTable}
    {accepted : List Message} (only : WritesOnly msg (.gateway label))
    (kept : ∀ other ∈ fleet.messages gateway.store, other = msg) (late : 0 < msg.createdAt) :
    fleet.Timely { FleetState.start with gateway := gateway, accepted := accepted }
      (.gateway label) where
  inserts row answer command owned := by
    have same := only.message_eq command
    by_cases known : row.message ∈ fleet.messages gateway.store
    · exact Or.inl known
    · refine Or.inr ⟨fun other otherMem => ?_, fun device => ?_, ?_⟩
      · exact absurd otherMem (by rw [kept other otherMem, ← same]; exact known)
      · rw [same]
        exact late
      · rintro pid cycle ⟨⟩
  starts := by
    rintro cycle frame now ⟨pid, ⟨⟩, -⟩
  reads := by
    rintro cycle frame bucketId limit answer ⟨pid, ⟨⟩, -⟩
  merges := by
    rintro cycle frame taken now ⟨pid, ⟨⟩, -⟩
  evicts := nofun

end Timely

/-! ## Runs without late messages -/

theorem messages_start (fleet : Fleet) : fleet.messages FleetState.start.table = [] :=
  rfl

theorem fleetHolds_start (fleet : Fleet) : FleetHolds fleet .start where
  channel := by
    refine ⟨nofun, ?_, ?_, by simp [FleetState.start]⟩
    · simp [messages_start]
    · simp [messages_start]
  gateway := by
    refine ⟨?_, ?_⟩
    · rintro pid process ⟨⟩
    · rintro write ⟨⟩
  stores := by
    rintro device held ⟨⟩
  cursors device := by
    refine ⟨Nat.pow_pos (by decide), ?_⟩
    simp [FleetState.Covers, messages_start]
  cycles := by
    rintro pid cycle ⟨⟩

/-! ## One message -/

/-- Devices of user 2, with a library that reads one envelope. -/
def sampleFleet : Fleet where
  native := sampleNative
  codec := sampleCodec
  tenantId := .replicate 1
  channelId := (Id16.replicate 7).val
  name := numberedChannel.channelId
  userId _ := numberedChannel.userId

/-- The message that user 5 has sent at the time 5, as it is stored at the time 7. -/
def pushedSample : MessageRow :=
  pushedRow (memberSocket 5) (Id16.replicate 7).val 0 sampleEnvelope 7

theorem reads_sample :
    sampleCodec.Reads sampleNative (sampleFleet.envelope pushedSample.message) := by
  have same : sampleFleet.envelope pushedSample.message = sampleEnvelope := by
    decide
  rw [same]
  refine capnpCodec_reads rfl (List.mem_singleton_self _) readable_sample.size ?_
  intro other otherMem
  rw [List.mem_singleton.mp otherMem]
  exact ⟨by decide, fun _ => rfl⟩

theorem legible_sample {label : FleetLabel} (only : WritesOnly pushedSample.message label) :
    sampleFleet.Legible label := by
  intro row answer command _
  rw [only.message_eq command]
  exact ⟨by decide, reads_sample⟩

def sampleTable : MessageTable :=
  KeyedTable.empty.upsert pushedSample

theorem messages_sampleTable : sampleFleet.messages sampleTable = [pushedSample.message] := by
  decide

theorem answering_sample {table : MessageTable} {since now : ℕ}
    (rows : ∀ msg ∈ sampleFleet.messages table, msg = pushedSample.message) (sinceLe : since ≤ 7)
    (nowLe : now ≤ 7) (late : 5 ≤ now) :
    Answering sampleFleet.codec sampleFleet.native sampleFleet.tenantId sampleFleet.channelId
      table since now := by
  have fits : ∀ time ≤ 7, time < 256 ^ 8 ∧ TimeBucket.ofMs time < 2 ^ 32 := by
    intro time before
    exact ⟨before.trans_lt (by decide), (TimeBucket.ofMs_mono before).trans_lt (by decide)⟩
  refine ⟨fits since sinceLe, fits now nowLe, fun row rowMem => ?_, fun row rowMem => ?_⟩
  · rw [rows _ (List.mem_map_of_mem rowMem)]
    exact late
  · rw [rows _ (List.mem_map_of_mem rowMem)]
    exact reads_sample

theorem store_first (data : Bytes) : (FleetState.start.devices 0).afterCalls
    (sampleFleet.quietCalls 0 KeyedTable.empty none 6 data) = ⟨some 6, KeyedTable.empty⟩ :=
  rfl

theorem store_second (data : Bytes) : (⟨some 6, KeyedTable.empty⟩ : DeviceState).afterCalls
    (sampleFleet.quietCalls 0 sampleTable (some 6) 7 data) = ⟨some 7, KeyedTable.empty⟩ :=
  rfl

theorem length_store (data : Bytes) : ((FleetState.start.devices 0).afterCalls
    (sampleFleet.quietPulls 0 sampleTable none 6 data)).messages.rows.length = 1 :=
  rfl

/-- User 5 pushes the message, and nobody else does anything. -/
theorem exists_run_sample {guard : FleetState → FleetLabel → Prop} {state : FleetState}
    (free : state.gateway.processes 0 = none) (empty : state.table = KeyedTable.empty)
    (admitted : ∀ gateway label accepted,
      (∀ other ∈ sampleFleet.messages gateway.store, other = pushedSample.message) →
        WritesOnly pushedSample.message (.gateway label) →
          guard { state with gateway := gateway, accepted := accepted } (.gateway label)) :
    ∃ labels target accepted, Run (Guarded guard (FleetStep sampleFleet)) state labels
        { state with gateway := target, accepted := accepted } ∧
      target.store = sampleTable ∧ ∀ msg, msg ∈ accepted ↔
        msg ∈ state.accepted ∨ msg = pushedSample.message := by
  rcases @exists_run_pushed sampleNative state.gateway 0 7 5 sampleEnvelope free (by decide)
    readable_sample with ⟨labels, target, run, stored, process, inserted⟩
  have empty : state.gateway.store = KeyedTable.empty := empty
  have only := (run.labels (fun _ taken => ⟨trivial, taken.1⟩) trivial).2
  have kept : ∀ other ∈ sampleFleet.messages state.gateway.store,
      other = pushedSample.message := by
    rw [empty]
    rintro other ⟨⟩
  rcases @exists_run_gateway sampleFleet state guard _
    (fun system => ∀ other ∈ sampleFleet.messages system.store, other = pushedSample.message) _ _ _
    run kept (fun kept only step => messages_eq_of_step only step kept) admitted with
    ⟨accepted, fleetRun, acceptedIff, -⟩
  refine ⟨_, target, accepted, fleetRun, ?_, fun msg => (acceptedIff msg).trans ?_⟩
  · rw [stored, empty]
    rfl
  · refine or_congr_right ⟨?_, ?_⟩
    · rintro ⟨label, labelMem, msgMem⟩
      exact (only label labelMem).of_mem_acceptedIn msgMem
    · rintro rfl
      exact ⟨_, inserted, @mem_acceptedIn _ pushedSample _ rfl ⟨rfl, rfl⟩⟩

/-- In a run without a late message, a cycle that completes delivers what had been accepted
before it started. -/
theorem accepted_delivered {fleet : Fleet} {labels : List FleetLabel} {state : FleetState}
    (legible : ∀ label ∈ labels, fleet.Legible label)
    (run : Run (Guarded fleet.Timely (FleetStep fleet)) .start labels state) (pid : ℕ) :
    state.Delivers fleet pid := by
  have holds : FleetHolds fleet state :=
    (run.guarded_of_labels legible).invariant
      (fun holds taken => holds.step taken.2.1 taken.1 taken.2.2) (fleetHolds_start fleet)
  intro cycle count present done
  exact (holds.cycles pid cycle present).delivers count done

/-- The message is pushed to an empty channel, and a device syncs. -/
theorem accepted_delivered_of_one : ∃ labels state cycle count,
    Run (Guarded sampleFleet.Timely (FleetStep sampleFleet)) .start labels state ∧
      state.cycles 0 = some cycle ∧ cycle.rest = .done count ∧
        pushedSample.message ∈ cycle.due ∧ state.Delivers sampleFleet 0 := by
  rcases @exists_run_sample (fun state label => sampleFleet.Timely state label ∧
      WritesOnly pushedSample.message label) .start rfl rfl
    (fun gateway label accepted kept only => ⟨timely_gateway only kept (by decide), only⟩) with
    ⟨pushing, gateway, accepted, pushes, stored, acceptedIff⟩
  have table : FleetState.table { FleetState.start with gateway := gateway, accepted := accepted } =
      sampleTable := stored
  have messages : ∀ msg, msg ∈ sampleFleet.messages sampleTable ↔ msg ∈ accepted := by
    intro msg
    rw [messages_sampleTable, List.mem_singleton, acceptedIff]
    exact (or_iff_right nofun).symm
  have answering := @answering_sample sampleTable 0 6
    (by simp [messages_sampleTable]) (by decide) (by decide) (by decide)
  have few : (newerOf 0 (sampleFleet.quietReads sampleTable 0 6)).length ≤ 100 := by decide
  have reached : ∀ msg ∈ accepted, msg.createdAt ≤ 6 := by
    intro msg msgMem
    rcases (acceptedIff msg).mp msgMem with old | rfl
    · cases old
    · decide
  have small : ∀ data, ((FleetState.start.devices 0).afterCalls
      (sampleFleet.quietPulls 0 sampleTable none 6 data)).messages.rows.length ≤
        LocalStore.maxMessagesPerChannel := by
    intro data
    rw [length_store]
    decide
  rw [← table] at answering few small
  rcases @exists_quiet sampleFleet (fun state label => sampleFleet.Timely state label ∧
      WritesOnly pushedSample.message label)
    { FleetState.start with gateway := gateway, accepted := accepted } 0 0 1 6 (memberSocket 2)
    (channelEntry (.replicate 1) (.replicate 7)) none rfl rfl connected_numbered rfl answering
    (by decide) few (fun data => AdmitsQuiet.and
      (admitsQuiet_timely (table ▸ by decide) (table ▸ messages) reached (small data))
      (admitsQuiet_writesOnly _)) with ⟨data, syncing, reached, syncs⟩
  have run := pushes.append syncs
  have only := (run.labels (fun _ taken => ⟨trivial, taken.1.2⟩) trivial).2
  have timely : Run (Guarded sampleFleet.Timely (FleetStep sampleFleet)) .start _ _ :=
    run.mono fun taken => ⟨taken.1.1, taken.2⟩
  refine ⟨_, _, _, _, timely, Solo.state_cycles, rfl, ?_,
    accepted_delivered (fun label labelMem => legible_sample (only label labelMem)) timely 0⟩
  exact (acceptedIff _).mpr (Or.inr rfl)

/-- In a channel with one message, a message that was accepted before a cycle started is not in
the local store when the cycle has completed. -/
theorem accepted_message_missed :
    ¬∀ (fleet : Fleet) (labels : List FleetLabel) (state : FleetState),
      (∀ label ∈ labels, fleet.Legible label) → (fleet.messages state.table).length ≤ 100 →
        Run (FleetStep fleet) .start labels state → ∀ pid, state.Delivers fleet pid := by
  intro delivers
  -- the cursor moves to the time 6
  rcases @exists_quiet sampleFleet (fun _ => WritesOnly pushedSample.message) .start 0 0 1 6
    (memberSocket 2) (channelEntry (.replicate 1) (.replicate 7)) none rfl rfl connected_numbered
    rfl (answering_sample (by rintro msg ⟨⟩) (by decide) (by decide) (by decide)) (by decide)
    (by decide) (fun _ => admitsQuiet_writesOnly _) with ⟨data, first, reached, firstRun⟩
  generalize moved : Solo.state _ _ _ _ _ _ = middle at firstRun
  have store : middle.devices 0 = ⟨some 6, KeyedTable.empty⟩ := by
    rw [← moved]
    exact Solo.state_devices.trans (store_first data)
  have waiting : middle.gateway = Gateway.System.start KeyedTable.empty ∧
      middle.cycles 1 = none := by
    rw [← moved]
    exact ⟨rfl, rfl⟩
  -- user 5 stores a message of the time 5
  rcases @exists_run_sample (fun _ => WritesOnly pushedSample.message) middle
    (by rw [waiting.1]; rfl) (by rw [FleetState.table, waiting.1]; rfl) (fun _ _ _ _ only => only)
    with ⟨pushing, gateway, accepted, pushes, stored, acceptedIff⟩
  have table : FleetState.table { middle with gateway := gateway, accepted := accepted } =
      sampleTable := stored
  have answering := @answering_sample sampleTable 6 7
    (by simp [messages_sampleTable]) (by decide) (by decide) (by decide)
  have few : (newerOf 6 (sampleFleet.quietReads sampleTable 6 7)).length ≤ 100 := by decide
  rw [← table] at answering few
  rcases @exists_quiet sampleFleet (fun _ => WritesOnly pushedSample.message)
    { middle with gateway := gateway, accepted := accepted } 1 0 1 7 (memberSocket 2)
    (channelEntry (.replicate 1) (.replicate 7)) (some 6) waiting.2 (by rw [store])
    connected_numbered rfl answering (by decide) few (fun _ => admitsQuiet_writesOnly _) with
    ⟨data, second, reached, secondRun⟩
  have run := (firstRun.append pushes).append secondRun
  have only := (run.labels (fun _ taken => ⟨trivial, taken.1⟩) trivial).2
  have held := delivers sampleFleet _ _
    (fun label labelMem => legible_sample (only label labelMem))
    (by rw [Solo.state_table, table, messages_sampleTable]; decide) run.of_guarded 1 _ _
      Solo.state_cycles rfl _ ((acceptedIff _).mpr (Or.inr rfl))
  rw [Solo.state_devices, table, store, store_second] at held
  cases held

end Mercury.Sdk
