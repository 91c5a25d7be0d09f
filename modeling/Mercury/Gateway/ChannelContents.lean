import Mercury.Gateway.HeldMessages
import Mercury.Gateway.RecentRuns

/-!
# What a channel holds

A property of messages that every message written to a channel has. It holds of what the
table and the cached list have of the channel, and so of what a read returns, however the
commands of the node interleave.
-/

namespace Mercury.Gateway

open Foundations Foundations.Program Persistence

/-- Every message of the list is good. -/
def AllGood (good : Message → Prop) (msgs : List Message) : Prop :=
  ∀ msg ∈ msgs, good msg

section Contents

variable (json : Json) (tenantId channelId : Bytes) (good : Message → Prop)

/-- The stores hold only good messages of the channel. -/
structure Stores.Contain (stores : Stores) : Prop where
  rows : ∀ row ∈ stores.messages, row.tenantId = tenantId → row.channelId = channelId →
    good row.message
  cached : ∀ text msgs, heldText (stores.redis (Cache.recentKey tenantId channelId)) = some text →
    cachedMessages json text = some msgs → AllGood good msgs

/-- An answer of stores that hold only good messages. -/
structure ContentAnswer (taken : Performed commands Raise) : Prop where
  read : ∀ bucketId limit page,
    taken = ⟨.selectMessages tenantId channelId bucketId limit, .ok (.ok page)⟩ →
      page.length ≤ limit ∧ ∀ row ∈ page, good row.message
  cached : ∀ text msgs,
    taken = ⟨.get (Cache.recentKey tenantId channelId), .ok (.ok (some text))⟩ →
      cachedMessages json text = some msgs → AllGood good msgs

/-- The task writes only good messages to the channel. -/
def GoodTask : BackgroundTask → Prop
  | .persistMessage tid cid _ msg => tid = tenantId → cid = channelId → good msg
  | .updateReadPosition .. => True

/-- A command that writes only good messages of the channel. -/
def WritesGood : Command → Prop
  | .insertMessage row => row.tenantId = tenantId → row.channelId = channelId → good row.message
  | .setex key text => key = Cache.recentKey tenantId channelId →
      ∀ msgs, cachedMessages json text = some msgs → AllGood good msgs
  | .setNew key _ => key ≠ Cache.recentKey tenantId channelId
  | .incr key => key ≠ Cache.recentKey tenantId channelId
  | .startTask task => GoodTask tenantId channelId good task
  | _ => True

/-- A call that writes only good messages to the channel. -/
def CallsGood : Call → Prop
  | .startTask task => GoodTask tenantId channelId good task
  | .writeMessage tid cid _ msg => tid = tenantId → cid = channelId → good msg
  | .applyDeltas tid cid deltas => tid = tenantId → cid = channelId →
      ∃ envelopes : List Envelope, deltas = envelopes.map envelopeDelta ∧
        ∀ envelope ∈ envelopes, good (pushedMessage envelope)
  | _ => True

/-- The program keeps to good messages. -/
abbrev KeepsGood {Result : Type} (program : Stored Result)
    (post : Except Raise Result → Prop) : Prop :=
  program.Ensures (ContentAnswer json tenantId channelId good)
    (WritesGood json tenantId channelId good) post

end Contents

/-- The program returns at most `limit` messages, all of them good. -/
def ReturnsGood (good : Message → Prop) (limit : ℕ) : Except Raise (List Message) → Prop
  | .ok msgs => msgs.length ≤ limit ∧ AllGood good msgs
  | .error _ => True

/-! ## Reading -/

section Reading

variable {json : Json} {tenantId channelId : Bytes} {good : Message → Prop} {limit : ℕ}

theorem read_good {bucketId : ℕ} :
    KeepsGood json tenantId channelId good (Messages.read tenantId channelId bucketId limit) fun
      | .ok (.ok msgs) => msgs.length ≤ limit ∧ AllGood good msgs
      | _ => True := by
  refine Ensures.bind.mpr (Ensures.perform.mpr ⟨trivial, ?_⟩)
  rintro (raised | reason | page) answered
  · trivial
  · trivial
  rcases answered.read bucketId limit page rfl with ⟨short, all⟩
  refine ⟨by simpa using short, fun msg msgMem => ?_⟩
  rcases List.mem_map.mp msgMem with ⟨row, rowMem, rfl⟩
  exact all row rowMem

theorem readRecentFromScylla_good :
    KeepsGood json tenantId channelId good
      (Messages.readRecentFromScylla tenantId channelId limit) (ReturnsGood good limit) := by
  refine Ensures.bind.mpr (Ensures.perform.mpr ⟨trivial, ?_⟩)
  rintro (raised | now) -
  · trivial
  refine Ensures.bind.mpr (Ensures.ofExcept.mpr ?_)
  rcases TimeBucket.compute now with raised | bucket
  · trivial
  refine Ensures.bind.mpr (Ensures.post_mono read_good ?_)
  rintro (raised | reason | msgs) first
  · trivial
  · exact ⟨Nat.zero_le _, fun _ empty => by cases empty⟩
  dsimp only
  split
  · next short =>
    rcases bucket with _ | older
    · exact first
    dsimp only
    refine Ensures.bind.mpr (Ensures.post_mono read_good ?_)
    rintro (raised | reason | more) second
    · trivial
    · exact first
    · refine ⟨?_, fun msg msgMem => ?_⟩
      · rw [List.length_append]
        have few : more.length ≤ limit - msgs.length := second.1
        omega
      · exact (List.mem_append.mp msgMem).elim (first.2 msg) (second.2 msg)
  · exact first

theorem getRecentMessages_good :
    KeepsGood json tenantId channelId good (Cache.getRecentMessages json tenantId channelId) fun
      | .ok (some msgs) => AllGood good msgs
      | _ => True := by
  refine Ensures.bind.mpr (Ensures.perform.mpr ⟨trivial, ?_⟩)
  rintro (raised | _ | _ | text) answered
  · trivial
  · trivial
  · trivial
  dsimp only
  split
  · next msgs held => exact answered.cached text msgs rfl held
  · refine Ensures.bind.mpr (Ensures.perform.mpr ⟨trivial, ?_⟩)
    rintro (raised | answer) - <;> trivial

theorem refreshRecent_good (roundTrips : json.RoundTrips) :
    KeepsGood json tenantId channelId good
      (Messages.refreshRecent json tenantId channelId limit) (ReturnsGood good limit) := by
  refine Ensures.bind.mpr (Ensures.post_mono readRecentFromScylla_good ?_)
  rintro (raised | msgs) returned
  · trivial
  have writes : WritesGood json tenantId channelId good
      (.setex (Cache.recentKey tenantId channelId)
        (json.encodeMessages (msgs.map Cache.serializeMessage))) := by
    intro _ held decoded
    rw [cachedMessages_encode roundTrips] at decoded
    exact Option.some.inj decoded ▸ returned.2
  dsimp only
  split
  · refine Ensures.bind.mpr (Ensures.bind.mpr (Ensures.perform.mpr ⟨writes, ?_⟩))
    rintro (raised | answer) -
    · trivial
    · exact returned
  · exact returned

/-- A read returns good messages, from the cache or from the table. -/
theorem readRecent_good (roundTrips : json.RoundTrips) :
    KeepsGood json tenantId channelId good
      (Messages.readRecent json tenantId channelId limit) (ReturnsGood good limit) := by
  refine Ensures.bind.mpr (Ensures.post_mono getRecentMessages_good ?_)
  rintro (raised | _ | msgs) cached
  · trivial
  · exact refreshRecent_good roundTrips
  dsimp only
  split
  · next enough =>
    exact ⟨List.length_take_le _ _, fun msg msgMem => cached msg (List.mem_of_mem_take msgMem)⟩
  · exact refreshRecent_good roundTrips

end Reading

/-! ## Every call of a socket -/

section Calls

variable {json : Json} {tenantId channelId : Bytes} {good : Message → Prop} {rate : ℕ}

theorem WritesGood.of_onKey (kind : CacheKind) {tid id : Bytes} {command : Command}
    (onKey : OnKey (cacheKey kind tid id) command) (other : kind ≠ .recent) :
    WritesGood json tenantId channelId good command := by
  have different : cacheKey kind tid id ≠ Cache.recentKey tenantId channelId := fun same =>
    other (@cacheKey_injective kind .recent _ _ _ _ same).1
  cases command with
  | setex => exact fun same => absurd (onKey.symm.trans same) different
  | setNew | incr => exact onKey ▸ different
  | get | del => trivial
  | _ => exact onKey.elim

/-- A read of another channel writes another key. -/
theorem WritesGood.of_readsChannel {tid cid : Bytes} {command : Command}
    (other : ¬(tid = tenantId ∧ cid = channelId)) (reads : ReadsChannel tid cid command) :
    WritesGood json tenantId channelId good command := by
  cases command with
  | setex =>
      intro same
      exact absurd (@cacheKey_injective .recent .recent _ _ _ _ (reads.symm.trans same)).2 other
  | time | get | del | selectMessages => trivial
  | _ => exact reads.elim

/-- A write to another channel. -/
theorem WritesGood.of_writesChannel {tid cid : Bytes} {command : Command}
    (other : ¬(tid = tenantId ∧ cid = channelId)) (writes : WritesChannel tid cid command) :
    WritesGood json tenantId channelId good command := by
  cases command with
  | insertMessage row =>
      intro tenant channel
      exact absurd ⟨writes.1.symm.trans tenant, writes.2.symm.trans channel⟩ other
  | setex | setNew | incr => exact writes.elim
  | startTask => exact writes.elim
  | _ => trivial

/-- What the rows of a program of the persistence application are allowed to be. -/
theorem writes_good {Result : Type} {program : Backed Result}
    {rows : MessageRow → Prop} (writes : program.Ensures (fun _ => True) (BackendInserts rows)
      fun _ => True)
    (allGood : ∀ row, rows row → row.tenantId = tenantId → row.channelId = channelId →
      good row.message) :
    KeepsGood json tenantId channelId good (program.through storedBackend) fun _ => True := by
  apply performsOnly_through writes
  intro asked inserts
  cases asked with
  | systemTime => exact performsOnly_send trivial
  | insertMessage row => exact performsOnly_send (allGood row inserts)
  | _ => exact inserts.elim

theorem stored_good (roundTrips : json.RoundTrips) {asked : Call}
    (calls : CallsGood tenantId channelId good asked) :
    KeepsGood json tenantId channelId good (stored json rate asked) fun _ => True := by
  have issues : (∀ command, StoredCommands asked command →
      WritesGood json tenantId channelId good command) →
        KeepsGood json tenantId channelId good (stored json rate asked) fun _ => True :=
    fun keeps => Ensures.mono (stored_commands asked) keeps fun _ _ => trivial
  cases asked with
  | readRecent tid cid limit =>
      by_cases same : tid = tenantId ∧ cid = channelId
      · rcases same with ⟨rfl, rfl⟩
        exact (readRecent_good roundTrips).post_mono fun _ _ => trivial
      · exact issues fun command reads => WritesGood.of_readsChannel same reads
  | getDeltas tid cid since limit =>
      apply performsOnly_through getDeltas_commands
      intro asked reads
      cases asked with
      | systemTime | selectMessages => exact performsOnly_send trivial
      | _ => exact reads.elim
  | applyDeltas tid cid deltas =>
      by_cases same : tid = tenantId ∧ cid = channelId
      · rcases calls same.1 same.2 with ⟨envelopes, rfl, allGood⟩
        refine @writes_good _ _ _ _ _ _ (fun row => ∃ envelope ∈ envelopes,
          row.message = pushedMessage envelope) ?_ ?_
        · unfold Sync.applyDeltas
          split
          · trivial
          refine Ensures.seq (countApplied_ensures trivial ?_) fun _ => trivial
          rintro earlier envelope later bucket now rfl - -
          exact ⟨envelope, by simp, rfl⟩
        · rintro row ⟨envelope, envelopeMem, messageEq⟩ - -
          exact messageEq ▸ allGood envelope envelopeMem
      · exact issues fun command writes => WritesGood.of_writesChannel same writes
  | writeMessage tid cid bucket msg =>
      refine @writes_good _ _ _ _ _ _ (fun row => row.tenantId = tid ∧ row.channelId = cid ∧
        row.message = msg) ?_ ?_
      · exact Ensures.seq (Ensures.ask trivial) fun now => Ensures.ask ⟨rfl, rfl, rfl⟩
      · rintro row ⟨rfl, rfl, rfl⟩ tenant channel
        exact calls tenant channel
  | startTask task =>
      apply issues
      intro command issued
      cases issued
      exact calls
  | allow => exact issues fun command onKey => WritesGood.of_onKey .rate onKey (by decide)
  | getMlsCreator | setMlsCreator =>
      exact issues fun command onKey => WritesGood.of_onKey .mlsCreator onKey (by decide)
  | getCachedUser | putCachedUser =>
      exact issues fun command onKey => WritesGood.of_onKey .user onKey (by decide)
  | isMember | listMembers | addMember | getRole | removeMember | updateReadPosition
  | updateCursor | uploadKeyPackage | fetchKeyPackages | findUser =>
      apply issues
      intro command issued
      cases command with
      | insertMessage => exact issued.elim
      | setex | setNew | incr => exact issued.elim
      | startTask => exact issued.elim
      | _ => trivial
  | _ =>
      apply issues
      intro command issued
      cases issued
      trivial

end Calls

/-! ## Frames and tasks -/

/-- What a frame on the channel writes is good. -/
def FrameWritesGood (native : Native) (tenantId channelId : Bytes) (good : Message → Prop)
    (socket : Socket) : Frame → Prop
  | .push _ topicId event payload => ∀ info, socket.topicIds.lookup topicId = some info →
      info.Names channelId → socket.tenantId.val = tenantId →
        (event = Event.msgSend → ∀ envelope, native.envelopeDecode payload = .ok (.ok envelope) →
          good (sentMessage socket envelope)) ∧
        (event = Event.syncPush → ∀ envelopes,
          decodedEnvelopes native (unpackEnvelopes payload) = some envelopes →
            ∀ envelope ∈ envelopes, good (pushedMessage envelope))
  | _ => True

section Frames

variable {native : Native} {json : Json} {tenantId channelId : Bytes} {good : Message → Prop}
  {rate : ℕ} {socket : Socket} {data : Bytes}

theorem callsGood_of_frame {frame : Frame} {asked : Call}
    (made : FrameCalls native socket frame asked)
    (frameGood : FrameWritesGood native tenantId channelId good socket frame) :
    CallsGood tenantId channelId good asked := by
  cases frame with
  | push ref topicId event payload =>
      rcases made with ⟨info, entry, made⟩
      cases made with
      | persistMessage names sends =>
          intro tenant channel
          exact (frameGood info entry (channel ▸ names) tenant).1 rfl _ sends.1
      | applyDeltas names decode =>
          intro tenant channel
          rcases pushedDeltas_ok.mp decode with ⟨envelopes, decodes, rfl⟩
          exact ⟨envelopes, rfl,
            (frameGood info entry (channel ▸ names) tenant).2 rfl envelopes decodes⟩
      | _ => trivial
  | join ref topic => cases made <;> trivial
  | leave topicId =>
      rcases made with ⟨info, pubsub, -, -, rfl⟩
      trivial
  | heartbeat => exact made.elim
  | ignored => exact made.elim

theorem storedHandleIn_good (roundTrips : json.RoundTrips)
    (frameGood : FrameWritesGood native tenantId channelId good socket (Frame.parse data)) :
    KeepsGood json tenantId channelId good (storedHandleIn native json rate data socket)
      fun _ => True := by
  have calls : (handleIn native data socket).Ensures (fun _ => True)
      (FrameCalls native socket (Frame.parse data)) fun _ => True :=
    Ensures.post_mono handleFrame_calls fun _ _ => trivial
  exact Ensures.through calls fun asked made =>
    (stored_good roundTrips (callsGood_of_frame made frameGood)).post_mono fun _ _ => trivial

theorem storedRunTask_good (roundTrips : json.RoundTrips) {task : BackgroundTask}
    (taskGood : GoodTask tenantId channelId good task) :
    KeepsGood json tenantId channelId good (storedRunTask json rate task) fun _ => True := by
  have calls : (runTask task).Ensures (fun _ => True) (CallsGood tenantId channelId good)
      fun _ => True := by
    cases task with
    | updateReadPosition => exact Ensures.seq (Ensures.ask trivial) fun _ => trivial
    | persistMessage tid cid bucket msg =>
        apply Ensures.seq (Ensures.ask taskGood)
        intro written
        split
        · apply Ensures.seq (Ensures.ask trivial)
          intro _
          apply Ensures.seq (Ensures.ask trivial)
          intro running
          split
          · exact Ensures.seq (Ensures.ask trivial) fun _ => trivial
          · trivial
        · trivial
  exact Ensures.through calls fun asked made =>
    (stored_good roundTrips made).post_mono fun _ _ => trivial

theorem initSocket_good (tenant userId deviceId : Id16) :
    KeepsGood json tenantId channelId good (initSocket tenant userId deviceId) fun _ => True :=
  Ensures.seq (ensureDevice_commands trivial (fun _ _ => trivial) (fun _ _ => trivial)
    fun _ _ => trivial) fun _ => trivial

end Frames

/-! ## Histories -/

section History

variable {native : Native} {json : Json} {tenantId channelId : Id16} {good : Message → Prop}
  {rate : ℕ} {socket : Socket} {data : Bytes}

/-- A history is answered with good messages, or with an error. -/
def ChannelPush.AnswersGood (native : Native)
    (push : ChannelPush tenantId channelId socket data) (good : Message → Prop)
    (outcome : Except Raise Reaction) : Prop :=
  ∀ reaction, outcome = .ok reaction →
    (∃ msgs, msgs.length ≤ 100 ∧ AllGood good msgs ∧ reaction = push.historyReply native msgs) ∨
      reaction = replyError socket push.ref push.topicId (ascii "internal_error")

theorem history_good (roundTrips : json.RoundTrips)
    (push : ChannelPush tenantId channelId socket data)
    (isHistory : push.event = Event.msgHistory) :
    KeepsGood json tenantId.val channelId.val good (storedHandleIn native json rate data socket)
      (push.AnswersGood native good) := by
  rw [history_handled push isHistory]
  refine Ensures.rescue.mpr (Ensures.bind.mpr (Ensures.post_mono (readRecent_good roundTrips) ?_))
  rintro (raised | msgs) returned
  · rintro reaction ⟨rfl⟩
    exact Or.inr rfl
  · rintro reaction ⟨rfl⟩
    exact Or.inl ⟨msgs, returned.1.trans (Nat.min_le_right _ _), returned.2, rfl⟩

end History

end Mercury.Gateway
