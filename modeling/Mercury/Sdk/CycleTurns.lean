import Mercury.Foundations.Run
import Mercury.Sdk.Fleet
import Mercury.Sdk.PullCompleteness

/-!
# A cycle that is left alone

While the others wait, a cycle performs its calls one after the other, and the gateway handles
its sync request.
-/

namespace Mercury.Sdk

open Gateway Foundations Foundations.Program Persistence

/-- A fleet whose others wait for one cycle. -/
structure Solo where
  base : FleetState
  pid : ℕ
  owner : ℕ
  due : List Message

namespace Solo

variable {fleet : Fleet} {guard : FleetState → FleetLabel → Prop} {solo : Solo}
  {source target : DeviceState}

/-- The state in which the device has `store`, and the cycle is where it is said to be. -/
def state (solo : Solo) (store : DeviceState) (reached : ℕ) (past : List (Performed device Thrown))
    (rest : Script SyncCount) (frame : Option PushedFrame) : FleetState :=
  (solo.base.setDevice solo.owner store).setCycle solo.pid
    ⟨solo.owner, solo.due, reached, past, rest, frame⟩

section State

variable {store : DeviceState} {reached : ℕ} {past : List (Performed device Thrown)}
  {rest : Script SyncCount} {frame : Option PushedFrame}

@[simp]
theorem state_cycles : (solo.state store reached past rest frame).cycles solo.pid =
    some ⟨solo.owner, solo.due, reached, past, rest, frame⟩ :=
  Function.update_self ..

@[simp]
theorem state_devices :
    (solo.state store reached past rest frame).devices solo.owner = store :=
  Function.update_self ..

@[simp]
theorem state_table :
    (solo.state store reached past rest frame).table = solo.base.table :=
  rfl

/-- The state after the cycle has gone on. -/
theorem state_next {next : DeviceState} {later : ℕ} {calls : List (Performed device Thrown)}
    {script : Script SyncCount} {pushed : Option PushedFrame} :
    ((solo.state store reached past rest frame).setDevice solo.owner next).setCycle solo.pid
        ⟨solo.owner, solo.due, later, calls, script, pushed⟩ =
      solo.state next later calls script pushed := by
  simp only [state, FleetState.setCycle, FleetState.setDevice, Function.update_idem]

theorem state_setCycle {later : ℕ} {calls : List (Performed device Thrown)}
    {script : Script SyncCount} {pushed : Option PushedFrame} :
    (solo.state store reached past rest frame).setCycle solo.pid
        ⟨solo.owner, solo.due, later, calls, script, pushed⟩ =
      solo.state store later calls script pushed := by
  simp only [state, FleetState.setCycle, FleetState.setDevice, Function.update_idem]

end State

/-- The cycle can perform the call, which makes `target` of the store of its device. -/
def Takes (fleet : Fleet) (guard : FleetState → FleetLabel → Prop) (solo : Solo)
    (source : DeviceState) (taken : Performed device Thrown) (target : DeviceState) : Prop :=
  ∀ reached past next, ∃ labels later, Run (Guarded guard (FleetStep fleet))
    (solo.state source reached past (.call taken.call next) none) labels
    (solo.state target later (past ++ [taken]) (next taken.answer) none)

/-- A cycle that can perform all of its calls comes to its end. -/
theorem exists_run {program : Script SyncCount} {calls past : List (Performed device Thrown)}
    {reached : ℕ} {count : SyncCount} (performs : program.Performs calls (.ok count))
    (takes : Run (Takes fleet guard solo) source calls target) :
    ∃ labels later, Run (Guarded guard (FleetStep fleet))
      (solo.state source reached past program none) labels
      (solo.state target later (past ++ calls) (.done count) none) := by
  induction program generalizing calls past reached source with
  | done result =>
      rcases performs with ⟨rfl, same⟩
      cases same
      cases takes.nil
      refine ⟨[], reached, ?_⟩
      rw [List.append_nil]
      exact Run.refl
  | fail error => cases performs.2
  | call asked next ih =>
      rcases performs with ⟨answer, later, rfl, performs⟩
      rcases takes.uncons with ⟨middle, first, takes⟩
      rcases first reached past next with ⟨before, between, firstRun⟩
      rcases @ih answer _ _ (past ++ [⟨asked, answer⟩]) between performs takes with
        ⟨after, last, laterRun⟩
      refine ⟨before ++ after, last, firstRun.append ?_⟩
      rwa [List.append_assoc] at laterRun

/-- A call that the device carries out itself. -/
theorem takes_own {taken : Performed device Thrown} (carries : source.Carries taken target)
    (admitted : ∀ reached past rest,
      guard (solo.state source reached past rest none) (.performed solo.pid taken)) :
    Takes fleet guard solo source taken target := by
  rcases taken with ⟨asked, answer⟩
  intro reached past next
  refine ⟨[.performed solo.pid ⟨asked, answer⟩], max reached (readCursor ⟨asked, answer⟩), ?_⟩
  have step := @FleetStep.performed fleet (solo.state source reached past (.call asked next) none)
    solo.pid _ asked answer next target state_cycles rfl (by simpa using carries)
  rw [SyncCycle.after, state_next] at step
  exact Run.cons ⟨admitted _ _ _, step⟩ Run.refl

/-! ## Frames -/

/-- A command that leaves the stores and the tasks of a node as they are. -/
structure Reading (fleet : Fleet) (table : MessageTable) (taken : Performed node Raise) :
    Prop where
  answered : AnswersFrom table taken table
  tasks : startedTasks taken = []
  accepts : fleet.accepts taken = []

/-- The gateway handles a frame that only reads. -/
theorem exists_handled {program : Program node Raise Reaction} {reaction : Reaction}
    {frame : PushedFrame} {made : List (Performed node Raise)} {reached : ℕ}
    {past : List (Performed device Thrown)} {rest : Script SyncCount}
    (handles : frame.rest = program) (performs : program.Performs made (.ok reaction))
    (reading : ∀ taken ∈ made, Reading fleet solo.base.table taken)
    (admitted : ∀ taken ∈ made, ∀ reached before program,
      guard (solo.state source reached past rest
        (some { frame with made := before, rest := program })) (.handled solo.pid taken)) :
    ∃ labels later, Run (Guarded guard (FleetStep fleet))
      (solo.state source reached past rest (some frame)) labels
      (solo.state source later past rest
        (some { frame with made := frame.made ++ made, rest := .done reaction })) := by
  induction program generalizing frame made reached with
  | done result =>
      rcases performs with ⟨rfl, same⟩
      cases same
      refine ⟨[], reached, ?_⟩
      rw [List.append_nil, ← handles]
      exact Run.refl
  | fail error => cases performs.2
  | call asked next ih =>
      rcases performs with ⟨answer, later, rfl, performs⟩
      rcases reading _ List.mem_cons_self with ⟨answered, tasks, accepts⟩
      have step := @FleetStep.handled fleet (solo.state source reached past rest (some frame))
        solo.pid _ frame asked answer next _ state_cycles rfl handles answered
      have accepted : fleet.acceptedIn (.handled solo.pid ⟨asked, answer⟩) = [] := accepts
      rw [tasks, accepted, SyncCycle.handle, state_setCycle] at step
      rcases @ih answer { frame with made := frame.made ++ [⟨asked, answer⟩], rest := next answer }
        _ _ rfl performs (fun taken takenMem => reading taken (List.mem_cons_of_mem _ takenMem))
        (fun taken takenMem => admitted taken (List.mem_cons_of_mem _ takenMem)) with
        ⟨labels, last, run⟩
      rw [List.append_assoc] at run
      exact ⟨_, last, Run.cons ⟨admitted _ List.mem_cons_self _ frame.made frame.rest, step⟩ run⟩

/-- A push whose frame only reads. -/
theorem takes_push {topic payload data : Bytes} {event : Byte} {socket : Socket} {ref topicId : ℕ}
    {made : List (Performed node Raise)} {reaction : Reaction}
    (joined : PushedFrame.Joined fleet topic ⟨socket, ref, topicId, event, payload, [],
      nodeHandleIn fleet.native (pushFrame ref topicId event payload) socket⟩)
    (performs : (nodeHandleIn fleet.native (pushFrame ref topicId event payload) socket).Performs
      made (.ok reaction))
    (pushed : reaction.pushed = [replyFrame ref topicId statusOk data])
    (reading : ∀ taken ∈ made, Reading fleet solo.base.table taken)
    (silent : ∀ state label, label = .asked solo.pid ∨ label = .answered solo.pid →
      guard state label)
    (admitted : ∀ taken ∈ made, ∀ reached past rest before program,
      guard (solo.state source reached past rest
        (some ⟨socket, ref, topicId, event, payload, before, program⟩))
          (.handled solo.pid taken)) :
    Takes fleet guard solo source ⟨.push topic event payload, .ok data⟩ source := by
  intro reached past next
  have asks := @FleetStep.asked fleet
    (solo.state source reached past (.call (.push topic event payload) next) none) solo.pid
    _ topic payload event next socket ref topicId state_cycles rfl rfl joined
  rw [state_setCycle] at asks
  rcases @exists_handled fleet guard solo source _ reaction ⟨socket, ref, topicId, event, payload,
      [], nodeHandleIn fleet.native (pushFrame ref topicId event payload) socket⟩ made reached past
    (.call (.push topic event payload) next) rfl performs reading
    (fun taken takenMem reached => admitted taken takenMem reached past _) with
    ⟨labels, later, handles⟩
  have answers := @FleetStep.answered fleet
    (solo.state source later past (.call (.push topic event payload) next)
      (some ⟨socket, ref, topicId, event, payload, [] ++ made, .done reaction⟩)) solo.pid
    _ ⟨socket, ref, topicId, event, payload, [] ++ made, .done reaction⟩ topic data next reaction
    state_cycles rfl rfl rfl pushed
  rw [SyncCycle.after, state_setCycle] at answers
  exact ⟨_, _, (Run.cons ⟨silent _ _ (Or.inl rfl), asks⟩ handles).append
    (Run.cons ⟨silent _ _ (Or.inr rfl), answers⟩ Run.refl)⟩

end Solo

/-! ## Quiet cycles -/

namespace Fleet

variable (fleet : Fleet)

/-- What the queries read for a sync request while the channel stays as it is. -/
def quietReads (table : MessageTable) (since now : ℕ) : List BucketRead :=
  bucketReads (table.select fleet.tenantId.val fleet.channelId · 101) since now

def quietPage (table : MessageTable) (since now : ℕ) : List Message :=
  pageOf since 100 (fleet.quietReads table since now)

/-- The commands of the gateway for the request. -/
def quietCommands (table : MessageTable) (since now : ℕ) : List (Performed node Raise) :=
  syncCalls (table.select fleet.tenantId.val fleet.channelId · 101) fleet.tenantId.val
    fleet.channelId since now

/-- What a cycle does with the page, when it has nothing to push. -/
def quietStores (table : MessageTable) (cursor : Option ℕ) (now : ℕ) :
    List (Performed device Thrown) :=
  ((fleet.quietPage table (cursor.getD 0) now).map fun msg =>
      written (pulledMessage fleet.name msg)) ++
    ((if cursor.getD 0 < max now (cursor.getD 0) then
        [⟨.setSyncState fleet.name (max now (cursor.getD 0)), .ok ()⟩]
      else []) ++ [⟨.drain, .ok []⟩])

/-- The calls of a quiet cycle up to its last one. -/
def quietPulls (owner : ℕ) (table : MessageTable) (cursor : Option ℕ) (now : ℕ) (data : Bytes) :
    List (Performed device Thrown) :=
  ⟨.getSyncState fleet.name, .ok cursor⟩ ::
    ⟨.push (fleet.channel owner).topic Event.syncRequest
      (Channel.syncPayload (cursor.getD 0) 100), .ok data⟩ ::
    fleet.quietStores table cursor now

def quietCalls (owner : ℕ) (table : MessageTable) (cursor : Option ℕ) (now : ℕ) (data : Bytes) :
    List (Performed device Thrown) :=
  fleet.quietPulls owner table cursor now data ++ [⟨.evictOldMessages fleet.name, .ok ()⟩]

end Fleet

section Quiet

variable {fleet : Fleet} {table : MessageTable} {since now owner : ℕ}

theorem mem_quietCommands {taken : Performed node Raise}
    (takenMem : taken ∈ fleet.quietCommands table since now) :
    taken = ⟨.inl .systemTime, .ok now⟩ ∨
      (∃ bucketId, taken =
        ⟨.inl (.selectMessages fleet.tenantId.val fleet.channelId bucketId 101),
          .ok (.ok (table.select fleet.tenantId.val fleet.channelId bucketId 101))⟩) ∨
        taken = ⟨.inr .systemTime, .ok now⟩ ∨ taken = ⟨.inr .nativeTime, .ok now⟩ := by
  rcases List.mem_append.mp takenMem with backed | clocked
  · rcases List.mem_map.mp backed with ⟨asked, askedMem, rfl⟩
    rcases List.mem_cons.mp askedMem with rfl | readMem
    · exact Or.inl rfl
    · rcases List.mem_map.mp readMem with ⟨read, inReads, rfl⟩
      rcases List.mem_map.mp inReads with ⟨bucketId, -, rfl⟩
      exact Or.inr (Or.inl ⟨bucketId, rfl⟩)
  · simp only [List.mem_cons, List.not_mem_nil, or_false] at clocked
    exact Or.inr (Or.inr clocked)

theorem reading_quietCommands (nowFits : now < exactBound) :
    ∀ taken ∈ fleet.quietCommands table since now, Solo.Reading fleet table taken := by
  intro taken takenMem
  have clock : ∀ read : ℕ, taken = ⟨.inr .systemTime, .ok read⟩ ∨
      taken = ⟨.inr .nativeTime, .ok read⟩ → read < exactBound := by
    rcases mem_quietCommands takenMem with rfl | ⟨bucketId, rfl⟩ | rfl | rfl
    · rintro read (⟨⟨⟩⟩ | ⟨⟨⟩⟩)
    · rintro read (⟨⟨⟩⟩ | ⟨⟨⟩⟩)
    · rintro read (⟨⟨⟩⟩ | ⟨⟨⟩⟩)
      exact nowFits
    · rintro read (⟨⟨⟩⟩ | ⟨⟨⟩⟩)
      exact nowFits
  have selects : ∀ tenantId channelId bucketId limit rows,
      taken = ⟨.inl (.selectMessages tenantId channelId bucketId limit), .ok (.ok rows)⟩ →
        rows = table.select tenantId channelId bucketId limit := by
    rintro _ _ _ _ _ rfl
    rcases mem_quietCommands takenMem with ⟨⟨⟩⟩ | ⟨queried, ⟨⟩⟩ | ⟨⟨⟩⟩ | ⟨⟨⟩⟩
    rfl
  rcases mem_quietCommands takenMem with rfl | ⟨bucketId, rfl⟩ | rfl | rfl
  all_goals exact ⟨⟨.other nofun, selects, clock⟩, rfl, rfl⟩

theorem performs_quietCalls {cursor : Option ℕ} {data : Bytes}
    (readEq : Channel.readSyncReply fleet.codec data =
      some (pageResult fleet.tenantId.val fleet.channelId
        (fleet.quietPage table (cursor.getD 0) now) (max now (cursor.getD 0)) false)) :
    (fleet.syncChannel owner 1).Performs (fleet.quietCalls owner table cursor now data)
      (.ok ⟨(fleet.quietPage table (cursor.getD 0) now).length, 0⟩) := by
  have pulls := @performs_pull_last fleet.codec (fleet.channel owner) (cursor.getD 0) 0 fleet.name
    data _ readEq rfl
  have sets : (SyncEngine.updateSyncState fleet.name (cursor.getD 0)
      (max now (cursor.getD 0))).Performs
        (if cursor.getD 0 < max now (cursor.getD 0) then
          [⟨.setSyncState fleet.name (max now (cursor.getD 0)), .ok ()⟩]
        else []) (.ok ()) := by
    unfold SyncEngine.updateSyncState
    split
    · exact ⟨.ok (), [], rfl, rfl, rfl⟩
    · exact ⟨rfl, rfl⟩
  have pushes : (SyncEngine.push fleet.codec (fleet.channel owner) fleet.name).Performs
      [⟨.drain, .ok []⟩] (.ok 0) := ⟨_, _, rfl, rfl, rfl⟩
  simp only [pageResult, List.map_map, List.length_map] at pulls
  rw [Fleet.quietCalls, Fleet.quietPulls, Fleet.quietStores, List.cons_append, List.cons_append,
    List.append_assoc, List.append_assoc]
  apply Performs.bind (@performs_request (.getSyncState fleet.name) cursor)
  refine Performs.bind pulls (Performs.bind sets (Performs.bind pushes ?_))
  exact ⟨_, _, rfl, rfl, rfl⟩

/-- The local store after some calls that are carried out. -/
def DeviceState.afterCalls (store : DeviceState) (calls : List (Performed device Thrown)) :
    DeviceState :=
  calls.foldl (fun current taken => current.after taken.call) store

theorem carries_after {store : DeviceState} {taken : Performed device Thrown}
    (own : ∀ topic event payload, taken.call ≠ .push topic event payload)
    (reads : ∀ channelId cursor, taken = ⟨.getSyncState channelId, .ok cursor⟩ →
      cursor = store.cursor) : store.Carries taken (store.after taken.call) :=
  ⟨own, reads, Or.inl rfl⟩

theorem run_takes {guard : FleetState → FleetLabel → Prop} {solo : Solo}
    {calls : List (Performed device Thrown)} {store : DeviceState}
    (takes : ∀ taken ∈ calls, ∀ current : DeviceState,
      solo.Takes fleet guard current taken (current.after taken.call)) :
    Run (solo.Takes fleet guard) store calls (store.afterCalls calls) := by
  induction calls generalizing store with
  | nil => exact Run.refl
  | cons taken later ih =>
      exact Run.cons (takes taken List.mem_cons_self store)
        (ih fun other otherMem => takes other (List.mem_cons_of_mem _ otherMem))

/-- The labels of a quiet cycle are admitted. -/
structure AdmitsQuiet (fleet : Fleet) (guard : FleetState → FleetLabel → Prop) (solo : Solo)
    (since now : ℕ) (evicted : DeviceState) : Prop where
  silent : ∀ state label, label.command = none →
    (∀ pid channelId answer, label ≠ .performed pid ⟨.evictOldMessages channelId, answer⟩) →
      guard state label
  handled : ∀ taken ∈ fleet.quietCommands solo.base.table since now,
    ∀ state cycle frame, state.table = solo.base.table → state.cycles solo.pid = some cycle →
      cycle.due = solo.due → cycle.frame = some frame → frame.since = since →
        guard state (.handled solo.pid taken)
  evicts : ∀ state cycle, state.cycles solo.pid = some cycle → cycle.owner = solo.owner →
    state.devices solo.owner = evicted →
      guard state (.performed solo.pid ⟨.evictOldMessages fleet.name, .ok ()⟩)

theorem mem_quietStores {cursor : Option ℕ} {taken : Performed device Thrown}
    (takenMem : taken ∈ fleet.quietStores table cursor now) :
    (∃ stored, taken = written stored) ∨
      (∃ channelId wall, taken = ⟨.setSyncState channelId wall, .ok ()⟩) ∨
        taken = ⟨.drain, .ok []⟩ := by
  rcases List.mem_append.mp takenMem with wrote | takenMem
  · rcases List.mem_map.mp wrote with ⟨msg, -, rfl⟩
    exact Or.inl ⟨_, rfl⟩
  rcases List.mem_append.mp takenMem with moved | drained
  · split at moved
    · exact Or.inr (Or.inl ⟨_, _, List.mem_singleton.mp moved⟩)
    · cases moved
  · exact Or.inr (Or.inr (List.mem_singleton.mp drained))

end Quiet

section Execution

variable {fleet : Fleet} {guard : FleetState → FleetLabel → Prop} {state : FleetState}
  {pid owner topicId now : ℕ} {socket : Socket} {info : TopicInfo} {cursor : Option ℕ}

/-- The gateway replies to a sync request with a page. -/
theorem takes_request {solo : Solo} {since : ℕ} {evicted : DeviceState}
    (connected : Connected (fleet.channel owner) fleet.channelId socket topicId info)
    (tenant : socket.tenantId = fleet.tenantId)
    (answering : Answering fleet.codec fleet.native fleet.tenantId fleet.channelId
      solo.base.table since now) (nowExact : now < exactBound)
    (few : (newerOf since (fleet.quietReads solo.base.table since now)).length ≤ 100)
    (admits : AdmitsQuiet fleet guard solo since now evicted) :
    ∃ data, Channel.readSyncReply fleet.codec data =
        some (pageResult fleet.tenantId.val fleet.channelId
          (fleet.quietPage solo.base.table since now) (max now since) false) ∧
      ∀ source, solo.Takes fleet guard source
        ⟨.push (fleet.channel owner).topic Event.syncRequest (Channel.syncPayload since 100),
          .ok data⟩ source := by
  rcases syncPayload_reads since with ⟨full, sinceRead, limitRead, counterRead⟩
  rw [Nat.mod_eq_of_lt answering.sinceFits.1] at sinceRead
  have performs := @performs_syncRequest fleet.native socket fleet.channelId since now
    (solo.base.table.select fleet.tenantId.val fleet.channelId · 101) 0 topicId _ info (by decide)
    connected.topicFits connected.entry connected.names full sinceRead limitRead counterRead
    answering.sinceFits.2 answering.nowFits.2
  rw [tenant] at performs
  refine ⟨(pageReply fleet.native socket fleet.channelId since now
    (fleet.quietReads solo.base.table since now)).encode, ?_, fun source => ?_⟩
  · have more : decide (100 < (newerOf since
        (fleet.quietReads solo.base.table since now)).length) = false :=
      decide_eq_false (Nat.not_lt.mpr few)
    rw [← more]
    refine readSyncReply_page tenant (max_lt answering.nowFits.1 answering.sinceFits.1)
      (List.length_take_le _ _) (fun msg msgMem => ?_) rfl
    have readsFrom := @heldAnswers_readsFrom fleet.codec fleet.native fleet.channelId socket
      solo.base.table since now (tenant ▸ answering)
    rw [tenant] at readsFrom
    rcases exists_of_mem_newerOf readsFrom (mem_pageOf msgMem) with ⟨row, rowMem, rfl, -⟩
    exact answering.legible row (mem_newerMessages.mp rowMem).1
  · have joined : PushedFrame.Joined fleet (fleet.channel owner).topic
        ⟨socket, 0, topicId, Event.syncRequest, Channel.syncPayload since 100, [],
          nodeHandleIn fleet.native (pushFrame 0 topicId Event.syncRequest
            (Channel.syncPayload since 100)) socket⟩ :=
      ⟨tenant, Nat.pow_pos (by decide), connected.topicFits, info, connected.entry,
        connected.joined, connected.names⟩
    refine Solo.takes_push joined performs rfl
      (reading_quietCommands nowExact) ?_ ?_
    · rintro state label (rfl | rfl)
      · exact admits.silent _ _ rfl nofun
      · exact admits.silent _ _ rfl nofun
    · intro taken takenMem reached past rest before program
      exact admits.handled taken takenMem _ _ _ rfl Solo.state_cycles rfl rfl sinceRead

/-- A device can sync with a channel that stays as it is. -/
theorem exists_quiet (free : state.cycles pid = none)
    (cursorEq : (state.devices owner).cursor = cursor)
    (connected : Connected (fleet.channel owner) fleet.channelId socket topicId info)
    (tenant : socket.tenantId = fleet.tenantId)
    (answering : Answering fleet.codec fleet.native fleet.tenantId fleet.channelId state.table
      (cursor.getD 0) now) (nowExact : now < exactBound)
    (few : (newerOf (cursor.getD 0)
      (fleet.quietReads state.table (cursor.getD 0) now)).length ≤ 100)
    (admits : ∀ data, AdmitsQuiet fleet guard ⟨state, pid, owner, state.accepted⟩
      (cursor.getD 0) now
        ((state.devices owner).afterCalls
          (fleet.quietPulls owner state.table cursor now data))) :
    ∃ data labels reached, Run (Guarded guard (FleetStep fleet)) state labels
      (Solo.state ⟨state, pid, owner, state.accepted⟩
        ((state.devices owner).afterCalls (fleet.quietCalls owner state.table cursor now data))
        reached (fleet.quietCalls owner state.table cursor now data)
        (.done ⟨(fleet.quietPage state.table (cursor.getD 0) now).length, 0⟩) none) := by
  rcases @takes_request fleet guard owner topicId now socket info
    ⟨state, pid, owner, state.accepted⟩ (cursor.getD 0) _ connected tenant answering
      nowExact few (admits []) with ⟨data, readEq, pushes⟩
  have silent := (admits data).silent
  have reads : Solo.Takes fleet guard ⟨state, pid, owner, state.accepted⟩ (state.devices owner)
      ⟨.getSyncState fleet.name, .ok cursor⟩ (state.devices owner) := by
    refine Solo.takes_own ⟨nofun, ?_, Or.inl rfl⟩ fun _ _ _ => silent _ _ rfl nofun
    rintro channelId read ⟨⟩
    exact cursorEq.symm
  have stores : ∀ taken ∈ fleet.quietStores state.table cursor now, ∀ current : DeviceState,
      Solo.Takes fleet guard ⟨state, pid, owner, state.accepted⟩ current taken
        (current.after taken.call) := by
    intro taken takenMem current
    rcases mem_quietStores takenMem with ⟨stored, rfl⟩ | ⟨channelId, wall, rfl⟩ | rfl
    · exact Solo.takes_own (carries_after nofun nofun) fun _ _ _ => silent _ _ rfl nofun
    · exact Solo.takes_own (carries_after nofun nofun) fun _ _ _ => silent _ _ rfl nofun
    · exact Solo.takes_own (carries_after nofun nofun) fun _ _ _ => silent _ _ rfl nofun
  have evicts := @Solo.takes_own fleet guard ⟨state, pid, owner, state.accepted⟩ _ _
    ⟨.evictOldMessages fleet.name, .ok ()⟩ (carries_after nofun nofun)
    fun reached past rest => (admits data).evicts _ _ Solo.state_cycles rfl Solo.state_devices
  have turns := Run.snoc (Run.cons reads (Run.cons (pushes _) (run_takes stores))) evicts
  have began := @FleetStep.began fleet state pid owner 1 free
  rcases @Solo.exists_run fleet guard ⟨state, pid, owner, state.accepted⟩ _ _ _ _ [] 0 _
    (performs_quietCalls readEq) turns with ⟨labels, later, run⟩
  have start : Solo.state ⟨state, pid, owner, state.accepted⟩ (state.devices owner) 0 []
      (fleet.syncChannel owner 1) none = state.setCycle pid
        ⟨owner, state.accepted, 0, [], fleet.syncChannel owner 1, none⟩ := by
    simp only [Solo.state, FleetState.setDevice, Function.update_eq_self]
  have ends : (state.devices owner).afterCalls
      (fleet.quietCalls owner state.table cursor now data) =
        ((state.devices owner).afterCalls
          (fleet.quietPulls owner state.table cursor now data)).after
            (.evictOldMessages fleet.name) := by
    rw [DeviceState.afterCalls, Fleet.quietCalls, List.foldl_append]
    rfl
  rw [start, ← ends] at run
  exact ⟨data, _, later, Run.cons ⟨silent _ _ rfl (fun _ _ _ => FleetLabel.noConfusion), began⟩ run⟩

end Execution

end Mercury.Sdk
