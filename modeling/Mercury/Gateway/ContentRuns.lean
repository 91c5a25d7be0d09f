import Mercury.Gateway.ChannelContents
import Mercury.Gateway.Isolation

/-!
# What a channel holds on a running node

As long as the frames that a node receives write only good messages to a channel, its
stores hold only good messages of it, and every history answers with good messages.
-/

namespace Mercury.Gateway

open Foundations Foundations.Program Persistence

/-- What the programs of the sockets are to end with. -/
abbrev Wanted := Id16 → ℕ → Except Raise Reaction → Prop

/-- A program of the socket starts. -/
def NodeLabel.StartsAt (tenant : Id16) (pid : ℕ) : NodeLabel → Prop
  | .worker other number (.connected ..) => other = tenant ∧ number = pid
  | .worker other number (.received _) => other = tenant ∧ number = pid
  | _ => False

section Node

variable (native : Native) (json : Json) (rate : ℕ) (tenantId channelId : Bytes)
  (good : Message → Prop) (wanted : Wanted)

/-- What a process still does keeps to good messages, and ends as wanted. -/
def Worker.Good (ends : Except Raise Reaction → Prop) : Worker → Prop
  | .idle _ => True
  | .handling rest => KeepsGood json tenantId channelId good rest ends
  | .running rest => KeepsGood json tenantId channelId good rest fun _ => True

structure Node.Good (node : Node) : Prop where
  stores : node.stores.Contain json tenantId channelId good
  workers : ∀ {tenant pid worker}, node.workers tenant pid = some worker →
    worker.Good json tenantId channelId good (wanted tenant pid)
  pending : ∀ {tenant task}, task ∈ node.pending tenant → GoodTask tenantId channelId good task

/-- The frame that is received writes only good messages. -/
def Node.FramesGood (node : Node) : NodeLabel → Prop
  | .worker tenant pid (.received data) => ∀ socket,
      node.workers tenant pid = some (.idle socket) →
        FrameWritesGood native tenantId channelId good socket (Frame.parse data)
  | _ => True

end Node

section Steps

variable {native : Native} {json : Json} {rate : ℕ} {tenantId channelId : Bytes}
  {good : Message → Prop} {wanted : Wanted}

/-! ## Answers -/

theorem Stores.Contain.answer {stores : Stores}
    (contain : stores.Contain json tenantId channelId good) (moment : Moment)
    (command : Command) :
    ContentAnswer json tenantId channelId good ⟨command, (stores.perform moment command).1⟩ := by
  refine ⟨fun bucketId limit page same => ?_, fun text msgs same held => ?_⟩
  · have isRead : command = .selectMessages tenantId channelId bucketId limit :=
      congrArg Performed.call same
    subst isRead
    rcases page_of_select (eq_of_heq (Performed.mk.inj same).2) with ⟨-, rfl⟩
    refine ⟨List.length_take_le _ _, fun row rowMem => ?_⟩
    have held := mem_messagesOf.mp (mem_of_mem_select rowMem).1
    exact contain.rows row held.1 held.2.1 held.2.2
  · have isRead : command = .get (Cache.recentKey tenantId channelId) :=
      congrArg Performed.call same
    subst isRead
    exact contain.cached text msgs (heldText_of_get (eq_of_heq (Performed.mk.inj same).2)) held

/-! ## Writes -/

theorem Stores.Contain.setRedis {stores : Stores} {key : Bytes} {entry : Option Entry}
    (contain : stores.Contain json tenantId channelId good)
    (goodEntry : key = Cache.recentKey tenantId channelId → ∀ text msgs,
      heldText entry = some text → cachedMessages json text = some msgs → AllGood good msgs) :
    (stores.setRedis key entry).Contain json tenantId channelId good := by
  refine ⟨contain.rows, fun text msgs held decoded => ?_⟩
  by_cases same : key = Cache.recentKey tenantId channelId
  · subst same
    simp only [Stores.setRedis, Function.update_self] at held
    exact goodEntry rfl text msgs held decoded
  · simp only [Stores.setRedis, Function.update_of_ne (Ne.symm same)] at held
    exact contain.cached text msgs held decoded

theorem Stores.Contain.execute {stores : Stores} {moment : Moment} {command : Command}
    (contain : stores.Contain json tenantId channelId good)
    (writes : WritesGood json tenantId channelId good command) :
    (stores.execute moment command).2.Contain json tenantId channelId good := by
  have unchanged : ∀ other : Stores, other.redis = stores.redis →
      other.messages = stores.messages → other.Contain json tenantId channelId good := by
    intro other redis messages
    exact ⟨messages ▸ contain.rows, redis ▸ contain.cached⟩
  cases command with
  | setex key text =>
      apply contain.setRedis
      intro same _ msgs held decoded
      cases held
      exact writes same msgs decoded
  | setNew key text =>
      simp only [Stores.execute]
      split
      · exact contain.setRedis fun same => absurd same writes
      · exact contain
  | del key => exact contain.setRedis fun _ _ _ empty => by cases empty
  | replaceSet key members => exact contain.setRedis fun _ _ _ empty => by cases empty
  | incr key =>
      simp only [Stores.execute]
      split
      · exact contain.setRedis fun same => absurd same writes
      · exact contain.setRedis fun same => absurd same writes
      · exact contain
  | insertMessage row =>
      refine ⟨fun held heldMem tenant channel => ?_, contain.cached⟩
      rcases KeyedTable.mem_upsert.mp heldMem with ⟨heldMem, -⟩ | rfl
      · exact contain.rows held heldMem tenant channel
      · exact writes tenant channel
  | insertReaction tid cid messageId userId emoji =>
      simp only [Stores.execute]
      split
      · exact contain
      · exact unchanged _ rfl rfl
  | insertMember =>
      simp only [Stores.execute]
      split
      · exact contain
      · split
        · exact unchanged _ rfl rfl
        · exact contain
  | upsertCursor | insertUser | insertDevice =>
      simp only [Stores.execute]
      split
      · exact unchanged _ rfl rfl
      · exact contain
  | _ => exact unchanged _ rfl rfl

/-! ## Steps of a node -/

/-- A command of a process, on the stores of its node. -/
theorem Node.perform_eq (node : Node) (tenant : Id16) (pid : ℕ) (moment : Moment)
    (command : Command) :
    (node.perform tenant pid moment command).1 = (node.stores.perform moment command).1 ∧
      (node.perform tenant pid moment command).2.stores =
        (node.stores.perform moment command).2 := by
  cases command with
  | natsPublish subject message =>
      refine ⟨rfl, ?_⟩
      simp only [Node.perform]
      split <;> rfl
  | time | generateId | setting | startTask | subscribe | unsubscribe | broadcast
  | broadcastFrom | track | updatePresence => exact ⟨rfl, rfl⟩
  | _ =>
      refine ⟨rfl, ?_⟩
      simp only [Node.perform, Stores.perform]
      split <;> rfl

theorem Stores.Contain.perform {stores : Stores} {moment : Moment} {command : Command}
    (contain : stores.Contain json tenantId channelId good)
    (writes : WritesGood json tenantId channelId good command) :
    (stores.perform moment command).2.Contain json tenantId channelId good := by
  rcases Stores.perform_after moment stores command with same | executed
  · rwa [same]
  · rw [executed]
    exact contain.execute writes

/-- The next command of a process writes only good messages, and what it does after a good
answer does too. -/
theorem Worker.Good.next {worker : Worker} {command : NextCommand}
    {ends : Except Raise Reaction → Prop}
    (workerGood : worker.Good json tenantId channelId good ends)
    (isNext : worker.next = some command) :
    WritesGood json tenantId channelId good command.command ∧
      ∀ answer, ContentAnswer json tenantId channelId good ⟨command.command, answer⟩ →
        (command.resume answer).Good json tenantId channelId good ends := by
  cases worker with
  | idle socket => cases isNext
  | handling rest =>
      cases rest with
      | done reaction => cases isNext
      | fail error => cases isNext
      | call asked rest =>
          cases isNext
          exact workerGood
  | running rest =>
      cases rest with
      | done result => cases isNext
      | fail error => cases isNext
      | call asked rest =>
          cases isNext
          exact workerGood

namespace Node.Good

variable {node : Node} {tenant : Id16} {pid : ℕ}

theorem setWorker (nodeGood : node.Good json tenantId channelId good wanted)
    {worker : Option Worker} (workerGood : ∀ started, worker = some started →
      started.Good json tenantId channelId good (wanted tenant pid)) :
    (node.setWorker tenant pid worker).Good json tenantId channelId good wanted where
  stores := nodeGood.stores
  workers := by
    intro other number running at'
    simp only [Node.setWorker] at at'
    by_cases tenantEq : other = tenant
    · subst tenantEq
      rw [Function.update_self] at at'
      by_cases pidEq : number = pid
      · subst pidEq
        rw [Function.update_self] at at'
        exact workerGood running at'
      · rw [Function.update_of_ne pidEq] at at'
        exact nodeGood.workers at'
    · rw [Function.update_of_ne tenantEq] at at'
      exact nodeGood.workers at'
  pending := nodeGood.pending

theorem setSome (nodeGood : node.Good json tenantId channelId good wanted) {worker : Worker}
    (workerGood : worker.Good json tenantId channelId good (wanted tenant pid)) :
    (node.setWorker tenant pid (some worker)).Good json tenantId channelId good wanted :=
  nodeGood.setWorker fun _ isWorker => Option.some.inj isWorker ▸ workerGood

theorem push (nodeGood : node.Good json tenantId channelId good wanted) {frames : List Bytes} :
    (node.push tenant pid frames).Good json tenantId channelId good wanted :=
  ⟨nodeGood.stores, nodeGood.workers, nodeGood.pending⟩

theorem setMailbox (nodeGood : node.Good json tenantId channelId good wanted)
    {mailbox : Mailbox} :
    (node.setMailbox tenant pid mailbox).Good json tenantId channelId good wanted :=
  ⟨nodeGood.stores, nodeGood.workers, nodeGood.pending⟩

theorem setPending (nodeGood : node.Good json tenantId channelId good wanted)
    {tasks : List BackgroundTask}
    (tasksGood : ∀ task ∈ tasks, GoodTask tenantId channelId good task) :
    (node.setPending tenant tasks).Good json tenantId channelId good wanted where
  stores := nodeGood.stores
  workers := nodeGood.workers
  pending := by
    intro other task taskMem
    simp only [Node.setPending] at taskMem
    by_cases tenantEq : other = tenant
    · subst tenantEq
      rw [Function.update_self] at taskMem
      exact tasksGood task taskMem
    · rw [Function.update_of_ne tenantEq] at taskMem
      exact nodeGood.pending taskMem

theorem remove (nodeGood : node.Good json tenantId channelId good wanted) :
    (node.remove tenant pid).Good json tenantId channelId good wanted := by
  have gone : (node.setWorker tenant pid none).Good json tenantId channelId good wanted :=
    nodeGood.setWorker fun _ running => by cases running
  exact ⟨gone.stores, gone.workers, gone.pending⟩

theorem perform (nodeGood : node.Good json tenantId channelId good wanted) {moment : Moment}
    {command : Command} (writes : WritesGood json tenantId channelId good command) :
    (node.perform tenant pid moment command).2.Good json tenantId channelId good wanted := by
  have stores : (node.perform tenant pid moment command).2.stores.Contain json tenantId channelId
      good := by
    rw [(node.perform_eq tenant pid moment command).2]
    exact nodeGood.stores.perform writes
  cases command with
  | natsPublish subject message =>
      refine ⟨stores, ?_, ?_⟩ <;> simp only [Node.perform] <;> split
      · exact nodeGood.workers
      · exact nodeGood.workers
      · exact nodeGood.pending
      · exact nodeGood.pending
  | startTask task =>
      apply nodeGood.setPending
      intro started startedMem
      rcases List.mem_append.mp startedMem with earlier | new
      · exact nodeGood.pending earlier
      · rw [List.mem_singleton.mp new]
        exact writes
  | time | generateId | setting | subscribe | unsubscribe | broadcast | broadcastFrom | track
  | updatePresence => exact ⟨nodeGood.stores, nodeGood.workers, nodeGood.pending⟩
  | _ =>
      refine ⟨stores, ?_, ?_⟩ <;> simp only [Node.perform] <;> split
      · exact nodeGood.workers
      · exact nodeGood.workers
      · exact nodeGood.pending
      · exact nodeGood.pending

theorem workerStep (roundTrips : json.RoundTrips)
    (nodeGood : node.Good json tenantId channelId good wanted) {event : WorkerEvent} {next : Node}
    (framesGood : node.FramesGood native tenantId channelId good (.worker tenant pid event))
    (free : (NodeLabel.worker tenant pid event).StartsAt tenant pid →
      ∀ outcome, wanted tenant pid outcome)
    (steps : node.workerStep native json rate tenant pid event = some next) :
    next.Good json tenantId channelId good wanted := by
  cases event with
  | connected userId deviceId =>
      simp only [Node.workerStep] at steps
      split at steps <;> cases steps
      exact nodeGood.setSome ((initSocket_good tenant userId deviceId).post_mono
        fun outcome _ => free ⟨rfl, rfl⟩ outcome)
  | received data =>
      simp only [Node.workerStep] at steps
      split at steps <;> cases steps
      next socket running =>
        exact nodeGood.setSome ((storedHandleIn_good roundTrips
          (framesGood socket running)).post_mono fun outcome _ => free ⟨rfl, rfl⟩ outcome)
  | performed moment =>
      rcases Option.map_eq_some_iff.mp steps with ⟨command, isNext, rfl⟩
      rcases Option.bind_eq_some_iff.mp isNext with ⟨worker, running, isNext⟩
      rcases (nodeGood.workers running).next isNext with ⟨writes, continues⟩
      refine (nodeGood.perform writes).setSome (continues _ ?_)
      rw [(node.perform_eq tenant pid moment command.command).1]
      exact nodeGood.stores.answer moment command.command
  | answered =>
      simp only [Node.workerStep] at steps
      split at steps <;> cases steps
      refine (nodeGood.setSome ?_).push
      exact trivial
  | delivered =>
      simp only [Node.workerStep] at steps
      split at steps <;> cases steps
      refine ((nodeGood.setSome ?_).setMailbox).push
      exact trivial
  | checked =>
      simp only [Node.workerStep] at steps
      split at steps
      · split at steps <;> cases steps
        · exact nodeGood.setSome trivial
        · exact nodeGood.remove
      · cases steps
  | ended =>
      cases steps
      exact nodeGood.remove
  | started index =>
      simp only [Node.workerStep] at steps
      split at steps <;> cases steps
      next task free waiting =>
        have taskGood := nodeGood.pending (List.mem_of_getElem? waiting)
        refine (nodeGood.setSome ?_).setPending ?_
        · exact storedRunTask_good roundTrips taskGood
        intro later laterMem
        exact nodeGood.pending (List.mem_of_mem_eraseIdx laterMem)

/-- A step keeps to good messages. -/
theorem step (roundTrips : json.RoundTrips)
    (nodeGood : node.Good json tenantId channelId good wanted) {label : NodeLabel} {next : Node}
    (framesGood : node.FramesGood native tenantId channelId good label)
    (free : ∀ tenant pid, label.StartsAt tenant pid → ∀ outcome, wanted tenant pid outcome)
    (steps : Node.Step native json rate node label next) :
    next.Good json tenantId channelId good wanted := by
  have forgets : ∀ (other : Node) (key : Bytes), other.stores = node.stores →
      other.workers = node.workers → other.pending = node.pending →
        ({ other with stores := other.stores.setRedis key none }).Good json tenantId channelId
          good wanted := by
    intro other key stores workers pending
    refine ⟨?_, workers ▸ nodeGood.workers, pending ▸ nodeGood.pending⟩
    exact (stores ▸ nodeGood.stores).setRedis fun _ _ _ empty => by cases empty
  cases label with
  | worker tenant pid event =>
      exact nodeGood.workerStep roundTrips framesGood (free tenant pid) steps
  | consumed tenantHex applied =>
      simp only [Node.Step, Node.step] at steps
      split at steps
      · cases steps
      · split at steps <;> cases steps
        next publication rest arriving named =>
          rcases Node.consume_eq publication applied { node with arriving := rest } with
            same | ⟨key, same⟩
          · rw [same]
            exact ⟨nodeGood.stores, nodeGood.workers, nodeGood.pending⟩
          · rw [same]
            exact forgets _ key rfl rfl rfl
  | expired key =>
      cases steps
      exact forgets node key rfl rfl rfl
  | collected now deleted =>
      simp only [Node.Step, Node.step] at steps
      split at steps <;> cases steps
      exact ⟨⟨nodeGood.stores.rows, nodeGood.stores.cached⟩, nodeGood.workers, nodeGood.pending⟩

theorem run (roundTrips : json.RoundTrips)
    (nodeGood : node.Good json tenantId channelId good wanted) {labels : List NodeLabel}
    {final : Node}
    (run : Run (Guarded (fun node => node.FramesGood native tenantId channelId good)
      (Node.Step native json rate)) node labels final)
    (free : ∀ label ∈ labels, ∀ tenant pid, label.StartsAt tenant pid →
      ∀ outcome, wanted tenant pid outcome) :
    final.Good json tenantId channelId good wanted := by
  induction run with
  | refl => exact nodeGood
  | snoc earlier last ih =>
      have before := ih fun label labelMem => free label (List.mem_append_left _ labelMem)
      exact before.step roundTrips last.1
        (free _ (List.mem_append_right _ (List.mem_singleton_self _))) last.2

/-- What is wanted of one program that has not started. -/
theorem wants (nodeGood : node.Good json tenantId channelId good fun _ _ _ => True)
    {socket : Socket} (idle : node.workers tenant pid = some (.idle socket))
    (ends : Except Raise Reaction → Prop) :
    node.Good json tenantId channelId good
      fun other number outcome => other = tenant ∧ number = pid → ends outcome where
  stores := nodeGood.stores
  workers := by
    intro other number worker running
    by_cases same : other = tenant ∧ number = pid
    · rcases same with ⟨rfl, rfl⟩
      cases idle.symm.trans running
      trivial
    · have workerGood := nodeGood.workers running
      cases worker with
      | idle => trivial
      | handling rest => exact workerGood.post_mono fun _ _ isSame => absurd isSame same
      | running rest => exact workerGood
  pending := nodeGood.pending

end Node.Good

end Steps

/-! ## Frames on a node -/

/-- From `source` on, the socket handles the frame, and has come to its reaction in `target`. -/
structure Node.Handles (native : Native) (json : Json) (rate : ℕ) (guard : Node → NodeLabel → Prop)
    (source : Node) (socket : Socket) (data : Bytes) (reaction : Reaction) (target : Node) where
  tenant : Id16
  pid : ℕ
  labels : List NodeLabel
  idle : source.workers tenant pid = some (.idle socket)
  runs : Run (Guarded guard (Node.Step native json rate)) source
    (.worker tenant pid (.received data) :: labels) target
  only : ∀ label ∈ labels, ¬label.StartsAt tenant pid
  done : target.workers tenant pid = some (.handling (.done reaction))

/-- A frame ends on a node as its program does among good messages. -/
theorem Node.Handles.ends {native : Native} {json : Json} {rate : ℕ}
    {tenantId channelId : Bytes} {good : Message → Prop} {source target : Node} {socket : Socket}
    {data : Bytes} {reaction : Reaction} {ends : Except Raise Reaction → Prop}
    (roundTrips : json.RoundTrips)
    (nodeGood : source.Good json tenantId channelId good fun _ _ _ => True)
    (handles : source.Handles native json rate
      (fun node => node.FramesGood native tenantId channelId good) socket data reaction target)
    (keeps : KeepsGood json tenantId channelId good (storedHandleIn native json rate data socket)
      ends) : ends (.ok reaction) := by
  rcases handles with ⟨tenant, pid, labels, idle, runs, only, done⟩
  rcases runs.uncons with ⟨started, ⟨-, starts⟩, runs⟩
  have startedEq : source.setWorker tenant pid
      (some (.handling (storedHandleIn native json rate data socket))) = started := by
    simp only [Node.Step, Node.step, Node.workerStep, idle] at starts
    exact Option.some.inj starts
  have startedGood : started.Good json tenantId channelId good fun other number outcome =>
      other = tenant ∧ number = pid → ends outcome := by
    rw [← startedEq]
    refine (nodeGood.wants idle ends).setSome ?_
    exact keeps.post_mono fun outcome ended _ => ended
  have finalGood := startedGood.run roundTrips runs
    fun label labelMem other number startsAt outcome same =>
      absurd (same.1 ▸ same.2 ▸ startsAt) (only label labelMem)
  exact finalGood.workers done ⟨rfl, rfl⟩

/-- A history on a node answers with good messages, or with an error. -/
theorem Node.Handles.history {native : Native} {json : Json} {rate : ℕ}
    {tenantId channelId : Id16} {good : Message → Prop} {source target : Node} {socket : Socket}
    {data : Bytes} {reaction : Reaction} (roundTrips : json.RoundTrips)
    (nodeGood : source.Good json tenantId.val channelId.val good fun _ _ _ => True)
    (handles : source.Handles native json rate
      (fun node => node.FramesGood native tenantId.val channelId.val good) socket data reaction
      target)
    (push : ChannelPush tenantId channelId socket data)
    (isHistory : push.event = Event.msgHistory) : push.AnswersGood native good (.ok reaction) :=
  handles.ends roundTrips nodeGood (history_good roundTrips push isHistory)

end Mercury.Gateway
