import Mercury.Gateway.Executions
import Mercury.Gateway.JsonText
import Mercury.Gateway.StoredCommands
import Mercury.Gateway.Tenancy

/-!
# Histories from the cache

The frames `msg:send`, `sync:push` and `msg:history` of one channel, one after the other,
each with the write that it starts. A history is what the table holds as long as what
was written since the list was cached leaves its messages the newest, or the list was
deleted after it. `persist_message` deletes the list; `apply_deltas` does not.
-/

namespace Mercury.Gateway

open Foundations Foundations.Program Persistence

/-! ## Frames on the channel -/

section Frames

variable {native : Native} {json : Json} {rate bucket : ℕ} {socket : Socket} {data : Bytes}
  {tenantId channelId : Id16} {stores : Stores} {moments : ℕ → Moment}

theorem written_run {Result : Type} {rows : MessageRow → Prop} {program : Stored Result}
    {tid cid : Bytes}
    (writes : PerformsOnly (fun _ => True) (WritesOnly tid cid rows) program) :
    Written tid cid rows stores (stores.run program moments).world := by
  refine (Stores.run_ensures (fun _ => True) (fun _ => True) writes (fun _ _ _ => trivial) ?_
    (fun _ => trivial) written_refl fun _ _ => trivial).2
  intro moment source command _ written allowed _
  rcases Stores.perform_after moment source command with same | executed
  · rwa [same]
  · rw [executed]
    exact written.execute allowed

/-- The rows that a push may insert for the envelopes in its payload. -/
def ChannelPush.Inserts (native : Native) (push : ChannelPush tenantId channelId socket data)
    (row : MessageRow) : Prop :=
  push.event = Event.syncPush ∧ row.channelId = channelId.val ∧
    PushesRow native socket push.payload row

theorem WritesOnly.of_onKey {rows : MessageRow → Prop} (kind : CacheKind) {tid id : Bytes}
    {command : Command} (onKey : OnKey (cacheKey kind tid id) command) (other : kind ≠ .recent) :
    WritesOnly tenantId.val channelId.val rows command := by
  have different : cacheKey kind tid id ≠ Cache.recentKey tenantId.val channelId.val := fun same =>
    other (@cacheKey_injective kind .recent _ _ _ _ same).1
  cases command with
  | setex | setNew | incr => exact onKey ▸ different
  | get | del => trivial
  | _ => exact onKey.elim

/-- What a backend command writes. -/
def BackendInserts (rows : MessageRow → Prop) : Backend.Call → Prop
  | .systemTime => True
  | .insertMessage row => rows row
  | _ => False

theorem applyDeltas_inserts {push : ChannelPush tenantId channelId socket data}
    {deltas : List Sync.Delta} (isPush : push.event = Event.syncPush)
    (decode : pushedDeltas native (unpackEnvelopes push.payload) = .ok deltas) :
    PerformsOnly (fun _ => True)
      (WritesOnly tenantId.val channelId.val (push.Inserts native))
      (stored json rate (.applyDeltas socket.tenantId.val channelId.val deltas)) := by
  rcases pushedDeltas_ok.mp decode with ⟨envelopes, decodes, rfl⟩
  have inserts : (Sync.applyDeltas socket.tenantId.val channelId.val
      (envelopes.map envelopeDelta)).Ensures (fun _ => True)
        (BackendInserts (push.Inserts native)) fun _ => True := by
    unfold Sync.applyDeltas
    split
    · trivial
    next small =>
    refine Ensures.seq (countApplied_ensures trivial ?_) fun _ => trivial
    rintro earlier envelope later bucket now rfl fits bucketEq
    exact ⟨isPush, rfl, rfl, earlier, envelope, later, decodes, by simpa using small, fits,
      bucketEq, rfl⟩
  apply performsOnly_through inserts
  intro asked writes
  cases asked with
  | systemTime => exact performsOnly_send trivial
  | insertMessage => exact performsOnly_send writes
  | _ => exact writes.elim

theorem stored_writesOnly {push : ChannelPush tenantId channelId socket data} {asked : Call}
    {event : Byte} (isPush : push.event = event)
    (writing : event = Event.msgSend ∨ event = Event.syncPush)
    (made : PushCalls native socket push.info push.payload event asked) :
    PerformsOnly (fun _ => True)
      (WritesOnly tenantId.val channelId.val (push.Inserts native)) (stored json rate asked) := by
  have issues : (∀ command, StoredCommands asked command →
      WritesOnly tenantId.val channelId.val (push.Inserts native) command) →
        PerformsOnly (fun _ => True)
          (WritesOnly tenantId.val channelId.val (push.Inserts native))
          (stored json rate asked) :=
    fun keeps => Ensures.mono (stored_commands asked) keeps fun _ _ => trivial
  cases made with
  | @applyDeltas cid deltas names decode =>
      obtain rfl := TopicInfo.Names.unique names push.names
      exact applyDeltas_inserts isPush decode
  | allow => exact issues fun command onKey => WritesOnly.of_onKey .rate onKey (by decide)
  | readRecent => exact absurd writing (by decide)
  | getDeltas => exact absurd writing (by decide)
  | listMembers => exact absurd writing (by decide)
  | removeMember => exact absurd writing (by decide)
  | addMember => exact absurd writing (by decide)
  | getMlsCreator => exact absurd writing (by decide)
  | setMlsCreator => exact absurd writing (by decide)
  | updateCursor | uploadKeyPackage | fetchKeyPackages =>
      apply issues
      intro command about
      cases command with
      | insertMessage => exact about.elim
      | setex | setNew | replaceSet | incr => exact about.elim
      | _ => trivial
  | getRole =>
      apply issues
      intro command changes
      cases command with
      | insertMessage => exact changes.elim
      | setex | setNew | replaceSet | incr => exact changes.elim
      | _ => trivial
  | _ =>
      apply issues
      intro command issued
      cases issued
      trivial

theorem ChannelPush.handled (push : ChannelPush tenantId channelId socket data) :
    (handleIn native data socket).Ensures (fun _ => True)
      (PushCalls native socket push.info push.payload push.event) fun _ => True := by
  rw [handleIn, push.parsed]
  refine Ensures.mono handleFrame_calls (fun asked made => ?_) fun _ _ => trivial
  rcases made with ⟨info, entry, made⟩
  obtain rfl := Option.some.inj (push.entry.symm.trans entry)
  exact made

/-- A `msg:send` or `sync:push` writes only the rows of a `sync:push`. -/
theorem written_of_push (push : ChannelPush tenantId channelId socket data)
    (writing : push.event = Event.msgSend ∨ push.event = Event.syncPush) :
    Written tenantId.val channelId.val (push.Inserts native) stores
      (stores.run (storedHandleIn native json rate data socket) moments).world :=
  written_run (Ensures.through push.handled fun _ made =>
    (stored_writesOnly rfl writing made).post_mono fun _ _ => trivial)

/-! ### The tasks of a frame -/

/-- The tasks that a command starts. -/
def tasksOf : Performed commands Raise → List BackgroundTask
  | ⟨.startTask task, _⟩ => [task]
  | _ => []

/-- A task that writes to no other channel. -/
def ChannelTask (tenantId channelId : Bytes) : BackgroundTask → Prop
  | .persistMessage tid cid _ _ => tid = tenantId ∧ cid = channelId
  | .updateReadPosition .. => True

/-- The command starts no task but of the channel. -/
def StartsOnly (tenantId channelId : Bytes) : Command → Prop
  | .startTask task => ChannelTask tenantId channelId task
  | _ => True

theorem storedCommands_startTask {asked : Call} {task : BackgroundTask}
    (issued : StoredCommands asked (.startTask task)) : asked = .startTask task := by
  cases asked with
  | startTask other =>
      cases issued
      rfl
  | _ => cases issued

theorem stored_startsOnly {push : ChannelPush tenantId channelId socket data} {asked : Call}
    (made : PushCalls native socket push.info push.payload push.event asked) :
    PerformsOnly (fun _ => True) (StartsOnly tenantId.val channelId.val)
      (stored json rate asked) := by
  refine Ensures.mono (stored_commands asked) (fun command issued => ?_) fun _ _ => trivial
  cases command with
  | startTask task =>
      cases storedCommands_startTask issued
      generalize push.event = event at made
      cases made with
      | startReadPosition => trivial
      | persistMessage names sends =>
          exact ⟨congrArg Subtype.val push.tenant, names.unique push.names⟩
  | _ => trivial

theorem tasks_of_push (push : ChannelPush tenantId channelId socket data) {task : BackgroundTask}
    (started : task ∈ (stores.run (storedHandleIn native json rate data socket)
      moments).made.flatMap tasksOf) : ChannelTask tenantId.val channelId.val task := by
  have starts : PerformsOnly (fun _ => True) (StartsOnly tenantId.val channelId.val)
      (storedHandleIn native json rate data socket) :=
    Ensures.through push.handled fun asked made =>
      (stored_startsOnly made).post_mono fun _ _ => trivial
  rcases List.mem_flatMap.mp started with ⟨⟨command, answer⟩, takenMem, taskMem⟩
  have only := (starts.of_performs (performs_execute _ moments stores) fun _ _ => trivial).1 _
    takenMem
  cases command with
  | startTask other =>
      obtain rfl := List.mem_singleton.mp taskMem
      exact only
  | _ => cases taskMem

/-! ### The history of the channel -/

/-- The limit that `msg:history` reads with. -/
def historyLimit (payload : Bytes) : ℕ :=
  min (if 4 ≤ payload.length then fromLittleEndian (payload.take 4) else 50) 100

theorem history_handled (push : ChannelPush tenantId channelId socket data)
    (isHistory : push.event = Event.msgHistory) :
    storedHandleIn native json rate data socket =
      rescue
        (Messages.readRecent json tenantId.val channelId.val (historyLimit push.payload) >>=
          fun msgs => pure (replyOk socket push.ref push.topicId
            (packEnvelopes (msgs.map (encodeMessage native socket channelId.val)))))
        fun _ => pure (replyError socket push.ref push.topicId (ascii "internal_error")) := by
  rcases push.names with ⟨hex, named, valid⟩
  have dispatched : dispatch native push.ref push.topicId push.payload push.info socket
      push.event = dispatchMsgHistory native push.ref push.topicId push.payload push.info
        socket := by
    rw [isHistory]
    simp [dispatch, Event.msgSend, Event.msgHistory]
  rw [storedHandleIn, handleIn, push.parsed, handleFrame,
    handlePush_of_names push.entry push.names, dispatched, through_rescue]
  apply congrArg (rescue · _)
  rw [dispatchMsgHistory, named, fetch_bind, valid]
  dsimp only
  rw [through_bind, call, through_perform, push.tenant]
  rfl

/-- The reply to a `msg:history` that reads `msgs`. -/
def ChannelPush.historyReply (native : Native) (push : ChannelPush tenantId channelId socket data)
    (msgs : List Message) : Reaction :=
  replyOk socket push.ref push.topicId
    (packEnvelopes (msgs.map (encodeMessage native socket channelId.val)))

/-- The command raised an exception. -/
def Raised (taken : Performed commands Raise) : Prop :=
  ∃ raised, taken.answer = .error raised

theorem replied_of_not_raised {command : Command} {answer : Except Raise command.Answer}
    (calm : ¬Raised ⟨command, answer⟩) : ∃ reply, answer = .ok reply := by
  rcases answer with raised | reply
  · exact absurd ⟨raised, rfl⟩ calm
  · exact ⟨reply, rfl⟩

/-- A history answers with the newest messages unless a command of it raises, and keeps the
cache right. -/
theorem history_run (roundTrips : json.RoundTrips)
    (push : ChannelPush tenantId channelId socket data)
    (isHistory : push.event = Event.msgHistory)
    (coherent : CacheCoherent json tenantId.val channelId.val bucket stores)
    (current : ∀ index, TimeBucket.compute (moments index).time = .ok bucket)
    (reads : ∀ taken ∈ (stores.run (storedHandleIn native json rate data socket) moments).made,
      ReadSucceeds taken) :
    ((stores.run (storedHandleIn native json rate data socket) moments).outcome =
        .ok (push.historyReply native ((newestMessages stores.messages tenantId.val channelId.val
          bucket).take (historyLimit push.payload))) ∨
      (stores.run (storedHandleIn native json rate data socket) moments).outcome =
          .ok (replyError socket push.ref push.topicId (ascii "internal_error")) ∧
        ∃ taken ∈ (stores.run (storedHandleIn native json rate data socket) moments).made,
          Raised taken) ∧
      CacheCoherent json tenantId.val channelId.val bucket
        (stores.run (storedHandleIn native json rate data socket) moments).world := by
  generalize runEq : stores.run (storedHandleIn native json rate data socket) moments = run at *
  let up := ∀ taken ∈ run.made, ¬Raised taken
  have answers : (storedHandleIn native json rate data socket).Ensures
      (RecentAnswer up json stores.messages tenantId.val channelId.val bucket)
      (RefreshesRecent json stores.messages tenantId.val channelId.val bucket) fun outcome =>
        outcome = .ok (push.historyReply native ((newestMessages stores.messages tenantId.val
          channelId.val bucket).take (historyLimit push.payload))) ∨
        outcome = .ok (replyError socket push.ref push.topicId (ascii "internal_error")) ∧
          ¬up := by
    rw [history_handled push isHistory]
    refine Ensures.rescue.mpr (Ensures.bind.mpr (Ensures.post_mono readRecent_newest ?_))
    rintro (raised | msgs) newest
    · exact Or.inr ⟨rfl, newest⟩
    · obtain rfl : msgs = _ := newest
      exact Or.inl rfl
  have kept := @Stores.run_ensures stores moments Reaction
    (fun moment => TimeBucket.compute moment.time = .ok bucket)
    (fun taken => ReadSucceeds taken ∧ (up → ¬Raised taken))
    (KeepsMessages json tenantId.val channelId.val bucket stores.messages) _ _ _ _ answers
    ?_ ?_ current ⟨rfl, coherent⟩ ?_
  · rw [runEq] at kept
    refine ⟨kept.1.imp id fun failed => ⟨failed.1, ?_⟩, kept.2.coherent⟩
    simpa [up] using failed.2
  · intro moment source command now holds permitted
    refine holds.messages ▸ CacheCoherent.answer ?_ holds.coherent now permitted.1
    intro isUp _
    exact replied_of_not_raised (permitted.2 isUp)
  · intro moment source command _ holds refreshes _
    rcases Stores.perform_after moment source command with same | executed
    · rwa [same]
    · rw [executed]
      exact holds.execute roundTrips refreshes
  · intro taken takenMem
    rw [runEq] at takenMem
    exact ⟨reads taken takenMem, fun isUp => isUp taken takenMem⟩

/-- A direct read, with its commands carried out in the bucket. -/
theorem run_readRecentFromScylla {limit : ℕ} (carried : ∀ index, (moments index).fate = .carried)
    (current : ∀ index, TimeBucket.compute (moments index).time = .ok bucket) :
    (stores.run (Messages.readRecentFromScylla tenantId.val channelId.val limit) moments).outcome =
      .ok ((newestMessages stores.messages tenantId.val channelId.val bucket).take limit) := by
  -- no list is cached as far as this JSON goes
  have uncached : ∀ source, CacheCoherent unusedJson tenantId.val channelId.val bucket source :=
    fun _ _ _ _ held => by cases held
  have answers : (Messages.readRecentFromScylla tenantId.val channelId.val limit).Ensures
      (RecentAnswer True unusedJson stores.messages tenantId.val channelId.val bucket)
      (RefreshesRecent unusedJson stores.messages tenantId.val channelId.val bucket)
      (ReturnsNewest True stores.messages tenantId.val channelId.val bucket limit) :=
    readRecentFromScylla_newest
  have returned := (@Stores.run_ensures stores moments (List Message)
    (fun moment => moment.fate = .carried ∧ TimeBucket.compute moment.time = .ok bucket)
    (fun _ => True) (fun source => source.messages = stores.messages) _ _ _ _ answers ?_ ?_
    (fun index => ⟨carried index, current index⟩) rfl fun _ _ => trivial).1
  · rcases outcomeEq : (stores.run (Messages.readRecentFromScylla tenantId.val channelId.val limit)
      moments).outcome with raised | msgs
    · rw [outcomeEq] at returned
      exact absurd trivial returned
    · rw [outcomeEq] at returned
      exact congrArg Except.ok returned
  · intro moment source command good same _
    exact same ▸ CacheCoherent.answer (fun _ => Stores.perform_replies good.1) (uncached source)
      good.2 (readSucceeds_of_carried good.1)
  · intro moment source command _ same refreshes _
    rcases Stores.perform_after moment source command with unchanged | executed
    · rwa [unchanged]
    · rw [executed]
      exact refreshes.messages.trans same

/-! ### The write of a sent message -/

/-- The rows that a task may insert. -/
def TaskInserts : BackgroundTask → MessageRow → Prop
  | .persistMessage tid cid bucketId msg, row =>
      row.tenantId = tid ∧ row.channelId = cid ∧ row.bucketId = bucketId ∧ row.message = msg
  | .updateReadPosition .., _ => False

theorem publishCacheInvalidation_writesOnly {rows : MessageRow → Prop} {type targetId : Bytes} :
    PerformsOnly (fun _ => True) (WritesOnly tenantId.val channelId.val rows)
      ((publishCacheInvalidation tenantId.val type targetId).through (stored json rate)) := by
  rw [publishCacheInvalidation, through_bind, call, through_perform]
  apply Ensures.seq (performsOnly_send trivial)
  intro running
  split
  · rw [through_bind, call, through_perform]
    exact Ensures.seq (performsOnly_send trivial) fun _ => trivial
  · trivial

/-- The write of a sent message, and what follows it. -/
theorem persistMessage_handled (tid cid : Bytes) (bucketId : ℕ) (msg : Message) :
    storedRunTask json rate (.persistMessage tid cid bucketId msg) =
      send .time >>= fun now =>
        send (.insertMessage ⟨tid, cid, bucketId, msg, now⟩) >>= fun
          | .ok _ => Cache.invalidateRecentMessages tid cid >>= fun _ =>
              (publishCacheInvalidation tid (ascii "recent") cid).through (stored json rate)
          | .error _ => pure () := by
  rw [storedRunTask, runTask, through_bind, call, through_perform, stored,
    Persistence.Messages.write, through_bind, ask, through_perform, bind_bind]
  refine congrArg _ (funext fun now => ?_)
  rw [ask, through_perform]
  refine congrArg _ (funext fun written => ?_)
  rcases written with reason | written
  · rfl
  · dsimp only
    rw [through_bind, call, through_perform]
    rfl

theorem task_writesOnly {task : BackgroundTask}
    (channelTask : ChannelTask tenantId.val channelId.val task) :
    PerformsOnly (fun _ => True) (WritesOnly tenantId.val channelId.val (TaskInserts task))
      (storedRunTask json rate task) := by
  cases task with
  | persistMessage tid cid bucketId msg =>
      rcases channelTask with ⟨rfl, rfl⟩
      rw [persistMessage_handled]
      apply Ensures.seq (performsOnly_send trivial)
      intro now
      apply Ensures.seq (performsOnly_send ⟨rfl, rfl, rfl, rfl⟩)
      intro written
      split
      · exact Ensures.seq (Ensures.seq (performsOnly_send trivial) fun _ => trivial) fun _ =>
          publishCacheInvalidation_writesOnly
      · trivial
  | updateReadPosition tid userId cid messageId =>
      rw [storedRunTask, runTask, through_bind, call, through_perform]
      exact Ensures.seq (update_commands trivial trivial) fun _ => trivial

/-- The insert takes effect only if it is answered so, and then the deletion of the cached list
does too. -/
def Invalidates (moments : ℕ → Moment) : Prop :=
  (moments 1).fate.applies = true →
    (moments 1).fate = .carried ∧ (moments 2).fate.applies = true

/-- A program that deletes the cached list and does not write it again. -/
theorem run_deletes {Result : Type} {rows : MessageRow → Prop}
    {next : Except Unit Unit → Stored Result} (deletes : (moments 0).fate.applies = true)
    (writes : ∀ answer, PerformsOnly (fun _ => True)
      (WritesOnly tenantId.val channelId.val rows) (next answer)) :
    (stores.run (send (.del (Cache.recentKey tenantId.val channelId.val)) >>= next)
      moments).world.redis (Cache.recentKey tenantId.val channelId.val) = none := by
  have deleted : (Stores.perform (moments 0) stores
      (.del (Cache.recentKey tenantId.val channelId.val))).2.redis
        (Cache.recentKey tenantId.val channelId.val) = none := by
    simp [Stores.perform, deletes, Stores.execute, Stores.setRedis]
  rcases answerEq : (Stores.perform (moments 0) stores
      (.del (Cache.recentKey tenantId.val channelId.val))).1 with raised | answer
  · rw [Stores.run_send_bind_error next (Prod.ext answerEq rfl)]
    exact deleted
  · rw [Stores.run_send_bind next (Prod.ext answerEq rfl)]
    rcases (written_run (writes answer)).cached with none | same
    · exact none
    · exact same.trans deleted

theorem coherent_of_invalidates (bucketId : ℕ) (msg : Message)
    (coherent : CacheCoherent json tenantId.val channelId.val bucket stores)
    (invalidates : Invalidates moments) :
    CacheCoherent json tenantId.val channelId.val bucket
      (stores.run (storedRunTask json rate
        (.persistMessage tenantId.val channelId.val bucketId msg)) moments).world := by
  rw [persistMessage_handled,
    @Stores.run_send_bind _ stores moments _ .time (moments 0).time _ rfl]
  dsimp only
  generalize rowEq : (⟨tenantId.val, channelId.val, bucketId, msg, (moments 0).time⟩ : MessageRow)
    = row
  rcases fateEq : (moments 1).fate with _ | ⟨reason, applied⟩ | ⟨error, applied⟩
  · have inserted : Stores.perform (dropInputs 1 moments 0) stores (.insertMessage row) =
        (.ok (.ok ()), { stores with messages := stores.messages.upsert row }) := by
      simp [Stores.perform, dropInputs, fateEq, Fate.answer, Fate.applies, Stores.execute]
    rw [Stores.run_send_bind _ inserted]
    apply coherent_of_none
    dsimp only
    rw [Cache.invalidateRecentMessages, bind_bind]
    exact @run_deletes _ _ _ _ _ (fun _ => True) _
      (invalidates (by rw [fateEq]; rfl)).2 fun _ => publishCacheInvalidation_writesOnly
  · have refused : Stores.perform (dropInputs 1 moments 0) stores (.insertMessage row) =
        (.ok (.error reason), stores) := by
      rcases applied with _ | _
      · simp [Stores.perform, dropInputs, fateEq, Fate.answer, Fate.applies, refusal]
      · have carried := (invalidates (by rw [fateEq]; rfl)).1
        rw [fateEq] at carried
        cases carried
    rw [Stores.run_send_bind _ refused]
    exact coherent
  · have raised : Stores.perform (dropInputs 1 moments 0) stores (.insertMessage row) =
        (.error error, stores) := by
      rcases applied with _ | _
      · simp [Stores.perform, dropInputs, fateEq, Fate.answer, Fate.applies]
      · have carried := (invalidates (by rw [fateEq]; rfl)).1
        rw [fateEq] at carried
        cases carried
    rw [Stores.run_send_bind_error _ raised]
    exact coherent

end Frames

/-! ## Runs -/

/-- The stores between two frames or tasks, and the tasks that have been started. -/
structure RecentState where
  stores : Stores
  pending : List BackgroundTask

inductive RecentLabel (tenantId channelId : Id16) where
  | frame {socket : Socket} {data : Bytes} (push : ChannelPush tenantId channelId socket data)
      (moments : ℕ → Moment)
  | task (task : BackgroundTask) (moments : ℕ → Moment)
  | expired (key : Bytes)

section Runs

variable (native : Native) (json : Json) (rate : ℕ) {tenantId channelId : Id16}

/-- The execution of the frame of a push. -/
def ChannelPush.run {socket : Socket} {data : Bytes}
    (_ : ChannelPush tenantId channelId socket data) (stores : Stores) (moments : ℕ → Moment) :
    Execution commands Raise Reaction Stores :=
  stores.run (storedHandleIn native json rate data socket) moments

/-- The frames of the channel, each when the tasks of the one before it have finished. -/
inductive RecentStep : RecentState → RecentLabel tenantId channelId → RecentState → Prop where
  | frame {state : RecentState} {socket : Socket} {data : Bytes}
      {push : ChannelPush tenantId channelId socket data} {moments : ℕ → Moment}
      (idle : state.pending = [])
      (event : push.event ∈ [Event.msgSend, Event.syncPush, Event.msgHistory]) :
      RecentStep state (.frame push moments)
        ⟨(push.run native json rate state.stores moments).world,
          (push.run native json rate state.stores moments).made.flatMap tasksOf⟩
  | task {state : RecentState} {task : BackgroundTask} {moments : ℕ → Moment}
      (waiting : task ∈ state.pending) :
      RecentStep state (.task task moments)
        ⟨(state.stores.run (storedRunTask json rate task) moments).world,
          state.pending.erase task⟩
  | expired {state : RecentState} {key : Bytes} :
      RecentStep state (.expired key) { state with stores := state.stores.setRedis key none }

/-- The frame is handled in the bucket, and its reads of the table succeed. -/
structure ReadableFrame (bucket : ℕ) (moments : ℕ → Moment)
    (run : Execution commands Raise Reaction Stores) : Prop where
  current : ∀ index, TimeBucket.compute (moments index).time = .ok bucket
  reads : ∀ taken ∈ run.made, ReadSucceeds taken

/-- The reads succeed in one bucket. -/
def SameBucket (bucket : ℕ) (state : RecentState) : RecentLabel tenantId channelId → Prop
  | .frame push moments =>
      ReadableFrame bucket moments (push.run native json rate state.stores moments)
  | .task .. => True
  | .expired _ => True

/-- What is written leaves the cached messages the newest, or the list is deleted after it. -/
def LeavesNewest (bucket : ℕ) (state : RecentState) : RecentLabel tenantId channelId → Prop
  | .frame push _ => push.event = Event.syncPush →
      Spares json tenantId.val channelId.val bucket (push.Inserts native) state.stores
  | .task task moments =>
      Spares json tenantId.val channelId.val bucket (TaskInserts task) state.stores ∨
        Invalidates moments
  | .expired _ => True

/-- Every history is answered with what a read of the table returns at that moment, unless a
command of it raises. -/
def FreshlyReads (tenantId channelId : Id16) (bucket : ℕ) (stores : Stores) : Prop :=
  ∀ (socket : Socket) (data : Bytes) (push : ChannelPush tenantId channelId socket data)
    (moments direct : ℕ → Moment), push.event = Event.msgHistory →
      ReadableFrame bucket moments (push.run native json rate stores moments) →
      (∀ index, (direct index).fate = .carried ∧
        TimeBucket.compute (direct index).time = .ok bucket) →
      ∃ msgs,
        (stores.run (Messages.readRecentFromScylla tenantId.val channelId.val
          (historyLimit push.payload)) direct).outcome = .ok msgs ∧
        ((push.run native json rate stores moments).outcome =
            .ok (push.historyReply native msgs) ∨
          (push.run native json rate stores moments).outcome =
              .ok (replyError socket push.ref push.topicId (ascii "internal_error")) ∧
            ∃ taken ∈ (push.run native json rate stores moments).made, Raised taken)

variable {native json rate} {bucket : ℕ}

/-- A cached list that is long enough is what a history returns, whatever the table holds. -/
theorem history_cached {stores : Stores} {socket : Socket} {data : Bytes}
    {moments : ℕ → Moment} (push : ChannelPush tenantId channelId socket data)
    (isHistory : push.event = Event.msgHistory) {text : Bytes} {msgs : List Message}
    (carried : (moments 0).fate = .carried)
    (entryEq : stores.redis (Cache.recentKey tenantId.val channelId.val) = some (.text text))
    (held : cachedMessages json text = some msgs)
    (enough : historyLimit push.payload ≤ msgs.length) :
    (push.run native json rate stores moments).outcome =
      .ok (push.historyReply native (msgs.take (historyLimit push.payload))) := by
  have got : Stores.perform (moments 0) stores (.get (Cache.recentKey tenantId.val channelId.val)) =
      (.ok (.ok (some text)), stores) := by
    simp [Stores.perform, carried, Fate.answer, Fate.applies, Stores.execute, entryEq]
  have cached : stores.run (Cache.getRecentMessages json tenantId.val channelId.val) moments =
      ⟨[⟨.get (Cache.recentKey tenantId.val channelId.val), .ok (.ok (some text))⟩],
        .ok (some msgs), stores⟩ := by
    have decoded : ((json.decodeMessages text).bind fun items =>
        items.mapM Cache.deserializeMessage) = some msgs := held
    rw [Cache.getRecentMessages, Stores.run_send_bind _ got]
    simp only [decoded]
    rfl
  have read : stores.run (Messages.readRecent json tenantId.val channelId.val
      (historyLimit push.payload)) moments =
        ⟨[⟨.get (Cache.recentKey tenantId.val channelId.val), .ok (.ok (some text))⟩],
          .ok (msgs.take (historyLimit push.payload)), stores⟩ := by
    rw [Messages.readRecent, Stores.run_bind _ cached]
    simp only [if_pos enough]
    rfl
  rw [ChannelPush.run, history_handled push isHistory]
  exact congrArg Execution.outcome (Stores.run_rescue _ (Stores.run_bind _ read))

theorem CacheCoherent.freshlyReads {stores : Stores} (roundTrips : json.RoundTrips)
    (coherent : CacheCoherent json tenantId.val channelId.val bucket stores) :
    FreshlyReads native json rate tenantId channelId bucket stores := by
  intro socket data push moments direct isHistory readable carried
  exact ⟨_, run_readRecentFromScylla (fun index => (carried index).1) fun index =>
    (carried index).2, (history_run roundTrips push isHistory coherent readable.current
      readable.reads).1⟩

/-- The cached list is right, and only tasks of the channel wait. -/
structure RecentInvariant (json : Json) (tenantId channelId : Id16) (bucket : ℕ)
    (state : RecentState) : Prop where
  coherent : CacheCoherent json tenantId.val channelId.val bucket state.stores
  tasks : ∀ task ∈ state.pending, ChannelTask tenantId.val channelId.val task

theorem RecentInvariant.step {state after : RecentState} {label : RecentLabel tenantId channelId}
    (roundTrips : json.RoundTrips) (holds : RecentInvariant json tenantId channelId bucket state)
    (readable : SameBucket native json rate bucket state label)
    (leaves : LeavesNewest native json bucket state label)
    (step : RecentStep native json rate state label after) :
    RecentInvariant json tenantId channelId bucket after := by
  cases step with
  | @frame socket data push moments idle event =>
      refine ⟨?_, fun task started => tasks_of_push push started⟩
      have cases : push.event = Event.msgSend ∨ push.event = Event.syncPush ∨
          push.event = Event.msgHistory := by
        simpa using event
      rcases cases with isSend | isPush | isHistory
      · refine holds.coherent.written ?_ (written_of_push push (Or.inl isSend))
        apply spares_nothing
        intro row inserts
        have isPush := inserts.1
        rw [isSend] at isPush
        exact absurd isPush (by decide)
      · exact holds.coherent.written (leaves isPush) (written_of_push push (Or.inr isPush))
      · exact (history_run roundTrips push isHistory holds.coherent readable.current
          readable.reads).2
  | @task task moments waiting =>
      refine ⟨?_, fun other still => holds.tasks other (List.mem_of_mem_erase still)⟩
      have channelTask := holds.tasks task waiting
      rcases leaves with spares | invalidates
      · exact holds.coherent.written spares (written_run (task_writesOnly channelTask))
      · cases task with
        | persistMessage tid cid bucketId msg =>
            rcases channelTask with ⟨rfl, rfl⟩
            exact coherent_of_invalidates bucketId msg holds.coherent invalidates
        | updateReadPosition =>
            exact holds.coherent.written (spares_nothing fun _ inserts => inserts)
              (written_run (task_writesOnly channelTask))
  | expired =>
      refine ⟨holds.coherent.setRedis fun _ text msgs none => ?_, holds.tasks⟩
      cases none

/-- The state before the first frame. -/
def RecentState.start (stores : Stores) : RecentState where
  stores := stores
  pending := []

@[simp]
theorem RecentState.stores_start (stores : Stores) : (RecentState.start stores).stores = stores :=
  rfl

/-- In a run that starts without a cached list, and in which what is written leaves the cached
messages the newest or deletes them, every history returns what the table holds. -/
theorem recent_fresh (roundTrips : json.RoundTrips) {stores : Stores}
    (uncached : stores.redis (Cache.recentKey tenantId.val channelId.val) = none)
    {labels : List (RecentLabel tenantId channelId)} {state : RecentState}
    (run : Run (Guarded
      (fun source label => SameBucket native json rate bucket source label ∧
        LeavesNewest native json bucket source label)
      (RecentStep native json rate)) (RecentState.start stores) labels state) :
    FreshlyReads native json rate tenantId channelId bucket state.stores := by
  have invariant : RecentInvariant json tenantId channelId bucket state := by
    refine run.invariant (fun holds taken => ?_)
      ⟨coherent_of_none uncached, by simp [RecentState.start]⟩
    exact holds.step roundTrips taken.1.1 taken.1.2 taken.2
  exact invariant.coherent.freshlyReads roundTrips

end Runs

/-- A message of user 5. -/
def oldRow : MessageRow where
  tenantId := (Id16.replicate 1).val
  channelId := (Id16.replicate 7).val
  bucketId := 0
  message :=
    { messageId := (Id16.replicate 4).val
      senderId := (Id16.replicate 5).val
      encryptedContent := [41]
      contentType := 0
      replyTo := none
      createdAt := 500 }
  serverReceivedAt := 500

/-- Stores that hold the message, and no cached list. -/
def oldStores : Stores :=
  { onlyCursors .empty with messages := { rows := [oldRow], unique := by decide } }

/-- User 5 asks for one message. -/
def historyOfOne : Bytes :=
  Sdk.pushFrame 2 1 Event.msgHistory (littleEndian 4 1)

theorem parse_historyOfOne :
    Frame.parse historyOfOne = .push 2 1 Event.msgHistory (littleEndian 4 1) :=
  Sdk.parse_pushFrame _ _ (by decide) (by decide)

def historyPush : ChannelPush (.replicate 1) (.replicate 7) (memberSocket 5) historyOfOne where
  ref := 2
  topicId := 1
  event := Event.msgHistory
  payload := littleEndian 4 1
  info := channelEntry (.replicate 1) (.replicate 7)
  parsed := parse_historyOfOne
  entry := entry_memberFive
  names := names_channelSeven
  tenant := rfl

/-- User 5 pushes a message with a greater id. -/
def newerData : Bytes :=
  Sdk.pushFrame 3 1 Event.syncPush (packEnvelopes [Capnp.envelope foreignEnvelope])

theorem parse_newerData : Frame.parse newerData =
    .push 3 1 Event.syncPush (packEnvelopes [Capnp.envelope foreignEnvelope]) :=
  Sdk.parse_pushFrame _ _ (by decide) (by decide)

def newerPush : ChannelPush (.replicate 1) (.replicate 7) (memberSocket 5) newerData where
  ref := 3
  topicId := 1
  event := Event.syncPush
  payload := packEnvelopes [Capnp.envelope foreignEnvelope]
  info := channelEntry (.replicate 1) (.replicate 7)
  parsed := parse_newerData
  entry := entry_memberFive
  names := names_channelSeven
  tenant := rfl

/-- A frame is handled when the time is 1, and every command is carried out. -/
theorem readableFrame_carriedOut {native : Native} {json : Json} {rate : ℕ} {stores : Stores}
    {tenantId channelId : Id16} {socket : Socket} {data : Bytes}
    {push : ChannelPush tenantId channelId socket data} :
    ReadableFrame 0 (fun _ => carriedOut)
      (push.run native json rate stores fun _ => carriedOut) := by
  refine ⟨fun _ => rfl, fun taken takenMem => ?_⟩
  rcases answer_of_mem_execute (fun moment => moment.fate = .carried) (fun _ => rfl) takenMem with
    ⟨moment, source, carried, answerEq⟩
  rcases taken with ⟨command, answer⟩
  have performed : answer = (Stores.perform moment source command).1 := answerEq
  rw [performed]
  exact readSucceeds_of_carried carried

theorem sameBucket_carriedOut {native : Native} {json : Json} {rate : ℕ} {stores : Stores}
    {tenantId channelId : Id16} {socket : Socket} {data : Bytes}
    {push : ChannelPush tenantId channelId socket data} :
    SameBucket native json rate 0 (RecentState.start stores) (.frame push fun _ => carriedOut) :=
  readableFrame_carriedOut

/-- The stores after the frame of a push, with every command carried out. -/
def Stores.afterPush {socket : Socket} {data : Bytes} (stores : Stores)
    (push : ChannelPush (.replicate 1) (.replicate 7) socket data) : Stores :=
  (push.run (Capnp.native [foreignEnvelope] []) JsonText.json 100 stores fun _ => carriedOut).world

theorem step_afterPush {socket : Socket} {data : Bytes} {stores : Stores}
    (push : ChannelPush (.replicate 1) (.replicate 7) socket data)
    (event : push.event ∈ [Event.msgSend, Event.syncPush, Event.msgHistory])
    (silent : (push.run (Capnp.native [foreignEnvelope] []) JsonText.json 100 stores
      fun _ => carriedOut).made.flatMap tasksOf = []) :
    RecentStep (Capnp.native [foreignEnvelope] []) JsonText.json 100 (RecentState.start stores)
      (.frame push fun _ => carriedOut) (RecentState.start (stores.afterPush push)) := by
  have step := @RecentStep.frame (Capnp.native [foreignEnvelope] []) JsonText.json 100 _ _
    (RecentState.start stores) _ _ push (fun _ => carriedOut) rfl event
  rw [show (RecentState.start stores).stores = stores from rfl, silent] at step
  exact step

/-- The push while nothing is cached, and then the history. -/
theorem recent_fresh_of_uncached :
    FreshlyReads (Capnp.native [foreignEnvelope] []) JsonText.json 100 (.replicate 1)
      (.replicate 7) 0 ((oldStores.afterPush newerPush).afterPush historyPush) := by
  have pushed : LeavesNewest (Capnp.native [foreignEnvelope] []) JsonText.json 0
      (RecentState.start oldStores) (.frame newerPush fun _ => carriedOut) :=
    fun _ _ _ empty => by cases empty
  have asked : LeavesNewest (Capnp.native [foreignEnvelope] []) JsonText.json 0
      (RecentState.start (oldStores.afterPush newerPush))
      (.frame historyPush fun _ => carriedOut) :=
    fun isPush => absurd isPush (by decide)
  have fresh := recent_fresh JsonText.json_roundTrips (rfl : oldStores.redis _ = none)
    (Run.cons ⟨⟨sameBucket_carriedOut, pushed⟩,
        step_afterPush newerPush (by decide) (by decide +kernel)⟩
      (Run.cons ⟨⟨sameBucket_carriedOut, asked⟩,
        step_afterPush historyPush (by decide) (by decide +kernel)⟩ Run.refl))
  rwa [RecentState.stores_start] at fresh

/-- The history, the push and the history again: the message of the push is not in the list. -/
theorem stale_history_of_push :
    ¬∀ (native : Native) (json : Json) (rate : ℕ) (tenantId channelId : Id16) (bucket : ℕ)
        (stores : Stores) (labels : List (RecentLabel tenantId channelId)) (state : RecentState),
      json.RoundTrips → stores.redis (Cache.recentKey tenantId.val channelId.val) = none →
      Run (Guarded (SameBucket native json rate bucket) (RecentStep native json rate))
        (RecentState.start stores) labels state →
      FreshlyReads native json rate tenantId channelId bucket state.stores := by
  intro alwaysFresh
  have fresh := alwaysFresh _ _ _ _ _ _ _ _ _ JsonText.json_roundTrips
    (rfl : oldStores.redis _ = none)
    (Run.cons ⟨sameBucket_carriedOut, step_afterPush historyPush (by decide) (by decide +kernel)⟩
      (Run.cons ⟨sameBucket_carriedOut, step_afterPush newerPush (by decide) (by decide +kernel)⟩
        Run.refl))
  rw [RecentState.stores_start] at fresh
  rcases fresh _ _ historyPush (fun _ => carriedOut) (fun _ => carriedOut) rfl
    readableFrame_carriedOut (fun _ => ⟨rfl, rfl⟩) with ⟨msgs, direct, answered⟩
  have newest : (newestMessages
      ((oldStores.afterPush historyPush).afterPush newerPush).messages (Id16.replicate 1).val
        (Id16.replicate 7).val 0).take (historyLimit historyPush.payload) =
      [pushedMessage foreignEnvelope] := by
    decide +kernel
  have now : TimeBucket.compute carriedOut.time = .ok 0 := rfl
  rw [run_readRecentFromScylla (fun _ => rfl) fun _ => now, newest] at direct
  obtain rfl := Except.ok.inj direct
  have kept : ((oldStores.afterPush historyPush).afterPush newerPush).redis
      (Cache.recentKey (Id16.replicate 1).val (Id16.replicate 7).val) =
        some (.text (JsonText.json.encodeMessages
          ([oldRow.message].map Cache.serializeMessage))) := by
    have present : (((oldStores.afterPush historyPush).afterPush newerPush).redis
        (Cache.recentKey (Id16.replicate 1).val (Id16.replicate 7).val)).isSome := by
      decide +kernel
    have cached : (oldStores.afterPush historyPush).redis
        (Cache.recentKey (Id16.replicate 1).val (Id16.replicate 7).val) =
          some (.text (JsonText.json.encodeMessages
            ([oldRow.message].map Cache.serializeMessage))) :=
      rfl
    have written : Written _ _ _ (oldStores.afterPush historyPush)
        ((oldStores.afterPush historyPush).afterPush newerPush) :=
      written_of_push newerPush (Or.inr rfl)
    rcases written.cached with none | same
    · rw [none] at present
      cases present
    · exact same.trans cached
  have stale := @history_cached (Capnp.native [foreignEnvelope] []) JsonText.json 100 _ _
    ((oldStores.afterPush historyPush).afterPush newerPush) _ _ (fun _ => carriedOut) historyPush
    rfl _ _ rfl kept (cachedMessages_encode JsonText.json_roundTrips [oldRow.message]) (by decide)
  rw [stale] at answered
  rcases answered with same | ⟨same, -⟩
  · have frames := congrArg Reaction.pushed (Except.ok.inj same)
    exact absurd frames (by decide +kernel)
  · have frames := congrArg Reaction.pushed (Except.ok.inj same)
    exact absurd frames (by decide +kernel)

end Mercury.Gateway
