import Mercury.Gateway.NodeRuns

/-!
# The part of a node that is a tenant's

On every node that runs, processes, tasks and subscriptions are about their own
tenant (`Node.Isolated`). What a step about a tenant does can therefore be told
from the tenant's part of the node (`Node.restrict`), and no other step changes
that part, except that the collector hides cursors that are old enough.
-/

namespace Mercury.Gateway

open Foundations Foundations.Program Persistence

variable {native : Native} {json : Json} {rate : ℕ} {tenantId other : Id16} {pid : ℕ}

/-! ## Processes name what is their tenant's -/

/-- What the process still does is about nothing but the tenant. -/
def Worker.OwnedBy (tenantId : Id16) : Worker → Prop
  | .idle socket => socket.tenantId = tenantId ∧ socket.Confined
  | .handling rest => rest.Ensures (fun _ => True) (Command.Owned tenantId) (StaysWith tenantId)
  | .running rest => Owns (fun _ => True) tenantId rest

theorem Worker.ownedBy_idle {socket : Socket} :
    (Worker.idle socket).OwnedBy tenantId ↔ socket.tenantId = tenantId ∧ socket.Confined :=
  Iff.rfl

theorem Worker.ownedBy_handling {rest : Stored Reaction} :
    (Worker.handling rest).OwnedBy tenantId ↔
      rest.Ensures (fun _ => True) (Command.Owned tenantId) (StaysWith tenantId) :=
  Iff.rfl

theorem Worker.ownedBy_running {rest : Stored Unit} :
    (Worker.running rest).OwnedBy tenantId ↔ Owns (fun _ => True) tenantId rest :=
  Iff.rfl

theorem Worker.OwnedBy.next {worker : Worker} {next : NextCommand}
    (owned : worker.OwnedBy tenantId) (isNext : worker.next = some next) :
    next.command.Owned tenantId ∧ ∀ answer, (next.resume answer).OwnedBy tenantId := by
  cases worker with
  | idle socket => cases isNext
  | handling rest =>
      cases rest with
      | done reaction => cases isNext
      | fail error => cases isNext
      | call command rest =>
          cases isNext
          exact ⟨owned.1, fun answer => owned.2 answer trivial⟩
  | running rest =>
      cases rest with
      | done result => cases isNext
      | fail error => cases isNext
      | call command rest =>
          cases isNext
          exact ⟨owned.1, fun answer => owned.2 answer trivial⟩

theorem Socket.heartbeatCheck_eq_some {socket checked : Socket}
    (survives : socket.heartbeatCheck = some checked) :
    checked = { socket with missedHeartbeats := socket.missedHeartbeats + 1 } := by
  unfold heartbeatCheck at survives
  split at survives
  · cases survives
  · exact (Option.some.inj survives).symm

theorem socket_handleBroadcast (topic : Bytes) (event : Byte) (payload : Bytes)
    (socket : Socket) : (handleBroadcast topic event payload socket).socket = socket := by
  unfold handleBroadcast
  split <;> rfl

namespace Node

/-- Everything that runs on the node is about its own tenant. -/
structure Isolated (node : Node) : Prop where
  workers : ∀ {tenantId pid worker}, node.workers tenantId pid = some worker →
    worker.OwnedBy tenantId
  pending : ∀ {tenantId task}, task ∈ node.pending tenantId → task.tenantId = tenantId.val
  subscriptions : ∀ {subscription}, subscription ∈ node.subscriptions →
    OwnedName subscription.tenantId.val subscription.topic

theorem isolated_start (stores : Stores) : (start stores).Isolated where
  workers running := by cases running
  pending taskMem := by cases taskMem
  subscriptions subscriptionMem := by cases subscriptionMem

namespace Isolated

variable {node : Node}

theorem setWorker (isolated : node.Isolated) {worker : Option Worker}
    (owned : ∀ started, worker = some started → started.OwnedBy tenantId) :
    (node.setWorker tenantId pid worker).Isolated where
  workers := by
    intro other number running at'
    simp only [Node.setWorker] at at'
    by_cases tenantEq : other = tenantId
    · subst tenantEq
      rw [Function.update_self] at at'
      by_cases pidEq : number = pid
      · subst pidEq
        rw [Function.update_self] at at'
        exact owned running at'
      · rw [Function.update_of_ne pidEq] at at'
        exact isolated.workers at'
    · rw [Function.update_of_ne tenantEq] at at'
      exact isolated.workers at'
  pending := isolated.pending
  subscriptions := isolated.subscriptions

theorem setSome (isolated : node.Isolated) {worker : Worker} (owned : worker.OwnedBy tenantId) :
    (node.setWorker tenantId pid (some worker)).Isolated :=
  isolated.setWorker fun _ isWorker => Option.some.inj isWorker ▸ owned

theorem push (isolated : node.Isolated) {frames : List Bytes} :
    (node.push tenantId pid frames).Isolated :=
  ⟨isolated.workers, isolated.pending, isolated.subscriptions⟩

theorem setMailbox (isolated : node.Isolated) {mailbox : Mailbox} :
    (node.setMailbox tenantId pid mailbox).Isolated :=
  ⟨isolated.workers, isolated.pending, isolated.subscriptions⟩

theorem setPending (isolated : node.Isolated) {tasks : List BackgroundTask}
    (own : ∀ task ∈ tasks, task.tenantId = tenantId.val) :
    (node.setPending tenantId tasks).Isolated where
  workers := isolated.workers
  pending := by
    intro other task taskMem
    simp only [Node.setPending] at taskMem
    by_cases tenantEq : other = tenantId
    · subst tenantEq
      rw [Function.update_self] at taskMem
      exact own task taskMem
    · rw [Function.update_of_ne tenantEq] at taskMem
      exact isolated.pending taskMem
  subscriptions := isolated.subscriptions

theorem remove (isolated : node.Isolated) : (node.remove tenantId pid).Isolated := by
  have gone : (node.setWorker tenantId pid none).Isolated :=
    isolated.setWorker fun _ running => by cases running
  exact
    { workers := gone.workers
      pending := gone.pending
      subscriptions := fun mem => isolated.subscriptions (List.mem_of_mem_filter mem) }

theorem perform (isolated : node.Isolated) {moment : Moment} {command : Command}
    (owned : command.Owned tenantId) :
    (node.perform tenantId pid moment command).2.Isolated := by
  cases command with
  | natsPublish subject message =>
      simp only [Node.perform]
      split
      · exact ⟨isolated.workers, isolated.pending, isolated.subscriptions⟩
      · exact isolated
  | startTask task =>
      apply isolated.setPending
      intro started startedMem
      rcases List.mem_append.mp startedMem with earlier | new
      · exact isolated.pending earlier
      · rw [List.mem_singleton.mp new]
        exact owned
  | subscribe topic =>
      refine ⟨isolated.workers, isolated.pending, fun subscriptionMem => ?_⟩
      rcases List.mem_append.mp subscriptionMem with earlier | new
      · exact isolated.subscriptions earlier
      · rw [List.mem_singleton.mp new]
        exact owned
  | unsubscribe topic =>
      exact ⟨isolated.workers, isolated.pending,
        fun mem => isolated.subscriptions (List.mem_of_mem_filter mem)⟩
  | time | generateId | setting | track | updatePresence => exact isolated
  | broadcast | broadcastFrom =>
      exact ⟨isolated.workers, isolated.pending, isolated.subscriptions⟩
  | _ =>
      simp only [Node.perform]
      split
      · exact ⟨isolated.workers, isolated.pending, isolated.subscriptions⟩
      · exact isolated

theorem workerStep (isolated : node.Isolated) {event : WorkerEvent} {next : Node}
    (steps : node.workerStep native json rate tenantId pid event = some next) :
    next.Isolated := by
  cases event with
  | connected userId deviceId =>
      simp only [Node.workerStep] at steps
      split at steps <;> cases steps
      apply isolated.setSome
      exact Worker.ownedBy_handling.mpr (initSocket_owned tenantId userId deviceId)
  | received data =>
      simp only [Node.workerStep] at steps
      split at steps <;> cases steps
      next socket running =>
        rcases isolated.workers running with ⟨rfl, confined⟩
        apply isolated.setSome
        exact Worker.ownedBy_handling.mpr (storedHandleIn_owned data confined)
  | performed moment =>
      rcases Option.map_eq_some_iff.mp steps with ⟨command, isNext, rfl⟩
      rcases Option.bind_eq_some_iff.mp isNext with ⟨worker, running, isNext⟩
      have owned := (isolated.workers running).next isNext
      exact (isolated.perform owned.1).setSome (owned.2 _)
  | answered =>
      simp only [Node.workerStep] at steps
      split at steps <;> cases steps
      next reaction running =>
        have stays := Worker.ownedBy_handling.mp (isolated.workers running)
        exact (isolated.setSome (Worker.ownedBy_idle.mpr stays)).push
  | delivered =>
      simp only [Node.workerStep] at steps
      split at steps <;> cases steps
      next socket mail rest running waiting =>
        refine ((isolated.setSome ?_).setMailbox).push
        rw [socket_handleBroadcast]
        exact isolated.workers running
  | checked =>
      simp only [Node.workerStep] at steps
      split at steps
      · next socket running =>
          have owned := Worker.ownedBy_idle.mp (isolated.workers running)
          split at steps <;> cases steps
          · next checked survives =>
              apply isolated.setSome
              rw [Socket.heartbeatCheck_eq_some survives]
              exact owned
          · exact isolated.remove
      · cases steps
  | ended =>
      cases steps
      exact isolated.remove
  | started index =>
      simp only [Node.workerStep] at steps
      split at steps <;> cases steps
      next task free waiting =>
        have own := isolated.pending (List.mem_of_getElem? waiting)
        refine (isolated.setSome ?_).setPending ?_
        · exact Worker.ownedBy_running.mpr (storedRunTask_owned own)
        intro later laterMem
        exact isolated.pending (List.mem_of_mem_eraseIdx laterMem)

end Isolated

theorem consume_eq (publication : Publication) (applied : Bool) (node : Node) :
    node.consume publication applied = node ∨
      ∃ key, node.consume publication applied =
        { node with stores := node.stores.setRedis key none } := by
  unfold consume
  split
  · split
    · split
      · exact Or.inr ⟨_, rfl⟩
      · exact Or.inl rfl
    · exact Or.inl rfl
  · exact Or.inl rfl

theorem Isolated.step {node next : Node} {label : NodeLabel} (isolated : node.Isolated)
    (steps : Step native json rate node label next) : next.Isolated := by
  cases label with
  | worker tenantId pid event => exact isolated.workerStep steps
  | consumed tenantHex applied =>
      simp only [Step, Node.step] at steps
      split at steps
      · cases steps
      · split at steps <;> cases steps
        next publication rest arriving named =>
          rcases consume_eq publication applied { node with arriving := rest } with
            same | ⟨key, same⟩
          · rw [same]
            exact ⟨isolated.workers, isolated.pending, isolated.subscriptions⟩
          · rw [same]
            exact ⟨isolated.workers, isolated.pending, isolated.subscriptions⟩
  | expired key =>
      cases steps
      exact ⟨isolated.workers, isolated.pending, isolated.subscriptions⟩
  | collected now deleted =>
      simp only [Step, Node.step] at steps
      split at steps <;> cases steps
      exact ⟨isolated.workers, isolated.pending, isolated.subscriptions⟩

/-! ## The part of a tenant -/

/-- What the node holds about the tenant. -/
def restrict (tenantId : Id16) (node : Node) : Node where
  workers := Function.update (fun _ _ => none) tenantId (node.workers tenantId)
  mailboxes := Function.update (fun _ _ _ => []) tenantId (node.mailboxes tenantId)
  pushed := Function.update (fun _ => []) tenantId (node.pushed tenantId)
  pending := Function.update (fun _ => []) tenantId (node.pending tenantId)
  subscriptions := node.subscriptions.filter fun subscription => subscription.tenantId = tenantId
  stores := node.stores.view tenantId node.collected
  published := node.published.filter fun publication => publication.Concerns tenantId.val
  arriving := node.arriving.filter fun publication => publication.Concerns tenantId.val
  collected := node.collected

section Restrict

variable {node : Node}

@[simp]
theorem workers_restrict : (node.restrict tenantId).workers tenantId = node.workers tenantId := by
  simp only [restrict, Function.update_self]

@[simp]
theorem mailboxes_restrict :
    (node.restrict tenantId).mailboxes tenantId = node.mailboxes tenantId := by
  simp only [restrict, Function.update_self]

@[simp]
theorem pushed_restrict : (node.restrict tenantId).pushed tenantId = node.pushed tenantId := by
  simp only [restrict, Function.update_self]

@[simp]
theorem pending_restrict : (node.restrict tenantId).pending tenantId = node.pending tenantId := by
  simp only [restrict, Function.update_self]

@[simp]
theorem restrict_restrict :
    (node.restrict tenantId).restrict tenantId = node.restrict tenantId := by
  simp only [restrict, Function.update_self, List.filter_filter, Bool.and_self, Stores.view_view]

/-! ### What the tenant does -/

@[simp]
theorem restrict_setWorker {worker : Option Worker} :
    (node.setWorker tenantId pid worker).restrict tenantId =
      (node.restrict tenantId).setWorker tenantId pid worker := by
  simp only [restrict, setWorker, Function.update_self, Function.update_idem]

@[simp]
theorem restrict_push {frames : List Bytes} :
    (node.push tenantId pid frames).restrict tenantId =
      (node.restrict tenantId).push tenantId pid frames := by
  simp only [restrict, push, Function.update_self, Function.update_idem]

@[simp]
theorem restrict_setMailbox {mailbox : Mailbox} :
    (node.setMailbox tenantId pid mailbox).restrict tenantId =
      (node.restrict tenantId).setMailbox tenantId pid mailbox := by
  simp only [restrict, setMailbox, Function.update_self, Function.update_idem]

@[simp]
theorem restrict_setPending {tasks : List BackgroundTask} :
    (node.setPending tenantId tasks).restrict tenantId =
      (node.restrict tenantId).setPending tenantId tasks := by
  simp only [restrict, setPending, Function.update_self, Function.update_idem]

@[simp]
theorem restrict_remove :
    (node.remove tenantId pid).restrict tenantId =
      (node.restrict tenantId).remove tenantId pid := by
  simp only [restrict, remove, setWorker, setMailbox, Function.update_self, Function.update_idem,
    List.filter_filter, Bool.and_comm]

@[simp]
theorem restrict_publish {publication : Publication} :
    ((node.restrict tenantId).publish publication).restrict tenantId =
      (node.publish publication).restrict tenantId := by
  simp only [restrict, publish, Function.update_self, List.filter_append, List.filter_filter,
    Bool.and_self, Stores.view_view]
  split <;> simp only [List.filter_append, List.filter_filter, Bool.and_self]

/-- The subscriptions of a process are among those of its tenant. -/
theorem filter_subscription {topic : Bytes} {query : Prop} [Decidable query] :
    (node.restrict tenantId).subscriptions.filter
        (fun subscription => subscription = ⟨topic, tenantId, pid⟩ ∧ query) =
      node.subscriptions.filter
        fun subscription => subscription = ⟨topic, tenantId, pid⟩ ∧ query := by
  simp only [restrict, List.filter_filter]
  apply List.filter_congr
  intro subscription _
  by_cases same : subscription = ⟨topic, tenantId, pid⟩
  · subst same
    simp
  · simp [same]

@[simp]
theorem restrict_broadcast {sender : Id16 × ℕ} {mail : Mail} {except : Option (Id16 × ℕ)} :
    ((node.restrict tenantId).broadcast sender mail except).restrict tenantId =
      (node.broadcast sender mail except).restrict tenantId := by
  have received : ((node.restrict tenantId).broadcast sender mail except).mailboxes tenantId =
      (node.broadcast sender mail except).mailboxes tenantId := by
    funext number
    simp only [broadcast, filter_subscription, mailboxes_restrict]
  calc
    ((node.restrict tenantId).broadcast sender mail except).restrict tenantId =
        { (node.restrict tenantId).restrict tenantId with
          mailboxes := Function.update (fun _ _ _ => []) tenantId
            (((node.restrict tenantId).broadcast sender mail except).mailboxes tenantId) } := rfl
    _ = { node.restrict tenantId with
          mailboxes := Function.update (fun _ _ _ => []) tenantId
            ((node.broadcast sender mail except).mailboxes tenantId) } := by
      rw [received, restrict_restrict]
    _ = (node.broadcast sender mail except).restrict tenantId := rfl

theorem restrict_withStores {left right : Stores}
    (same : left.view tenantId node.collected = right.view tenantId node.collected) :
    { node.restrict tenantId with stores := left }.restrict tenantId =
      { node with stores := right }.restrict tenantId := by
  calc
    { node.restrict tenantId with stores := left }.restrict tenantId =
        { (node.restrict tenantId).restrict tenantId with
          stores := left.view tenantId node.collected } := rfl
    _ = { node.restrict tenantId with stores := right.view tenantId node.collected } := by
      rw [same, restrict_restrict]
    _ = { node with stores := right }.restrict tenantId := rfl

/-- A command about the tenant is answered by its part of the node, and changes that part alone. -/
theorem perform_restrict {moment : Moment} {command : Command} (owned : command.Owned tenantId) :
    ((node.restrict tenantId).perform tenantId pid moment command).1 =
        (node.perform tenantId pid moment command).1 ∧
      ((node.restrict tenantId).perform tenantId pid moment command).2.restrict tenantId =
        (node.perform tenantId pid moment command).2.restrict tenantId := by
  cases command with
  | time | generateId | setting | track | updatePresence => exact ⟨rfl, restrict_restrict⟩
  | natsPublish subject message =>
      refine ⟨rfl, ?_⟩
      simp only [perform]
      split
      · exact restrict_publish
      · exact restrict_restrict
  | startTask task =>
      refine ⟨rfl, ?_⟩
      simp only [perform, restrict_setPending, restrict_restrict, pending_restrict]
  | subscribe topic =>
      refine ⟨rfl, ?_⟩
      simp only [perform, restrict, Function.update_self, List.filter_append, List.filter_filter,
        Bool.and_self, Stores.view_view]
  | unsubscribe topic =>
      refine ⟨rfl, ?_⟩
      simp only [perform, restrict, Function.update_self, List.filter_filter, Bool.and_self,
        Stores.view_view, Bool.and_comm, Bool.and_left_comm]
  | broadcast topic event payload => exact ⟨rfl, restrict_broadcast⟩
  | broadcastFrom topic event payload => exact ⟨rfl, restrict_broadcast⟩
  | _ =>
      have agrees := @Stores.execute_view tenantId node.collected node.stores moment _ owned
      refine ⟨congrArg (moment.fate.answer _) agrees.answer, ?_⟩
      simp only [perform]
      split
      · exact restrict_withStores agrees.view
      · exact restrict_restrict

/-- What a process of the tenant does can be told from the tenant's part of the node. -/
theorem workerStep_restrict (isolated : node.Isolated) {event : WorkerEvent} :
    ((node.restrict tenantId).workerStep native json rate tenantId pid event).map
        (restrict tenantId) =
      (node.workerStep native json rate tenantId pid event).map (restrict tenantId) := by
  cases event with
  | performed moment =>
      simp only [workerStep, workers_restrict, Option.map_map]
      apply Option.map_congr
      intro next isNext
      rcases Option.bind_eq_some_iff.mp isNext with ⟨worker, running, isNext⟩
      have owned := ((isolated.workers running).next isNext).1
      rcases @perform_restrict tenantId pid node moment _ owned with ⟨answer, after⟩
      simp only [Function.comp_apply, restrict_setWorker, answer, after]
  | ended =>
      simp only [workerStep, Option.map_some, restrict_remove, restrict_restrict]
  | delivered =>
      simp only [workerStep, workers_restrict, mailboxes_restrict]
      split <;> simp only [Option.map_some, Option.map_none, restrict_push, restrict_setMailbox,
        restrict_setWorker, restrict_restrict]
  | checked =>
      simp only [workerStep, workers_restrict]
      split
      · split <;> simp only [Option.map_some, restrict_setWorker, restrict_remove,
          restrict_restrict]
      · rfl
  | started index =>
      simp only [workerStep, workers_restrict, pending_restrict]
      split <;> simp only [Option.map_some, Option.map_none, restrict_setPending,
        restrict_setWorker, restrict_restrict]
  | connected | received | answered =>
      simp only [workerStep, workers_restrict]
      split <;> simp only [Option.map_some, Option.map_none, restrict_push, restrict_setWorker,
        restrict_restrict]

/-! ### What the other tenants do -/

theorem restrict_withSubscriptions {subscriptions : List Subscription}
    (same : subscriptions.filter (fun subscription => subscription.tenantId = tenantId) =
      node.subscriptions.filter fun subscription => subscription.tenantId = tenantId) :
    { node with subscriptions := subscriptions }.restrict tenantId = node.restrict tenantId := by
  simp only [restrict, same]

theorem restrict_withArriving {arriving : List Publication}
    (same : arriving.filter (fun publication => publication.Concerns tenantId.val) =
      node.arriving.filter fun publication => publication.Concerns tenantId.val) :
    { node with arriving := arriving }.restrict tenantId = node.restrict tenantId := by
  simp only [restrict, same]

theorem restrict_withView {stores : Stores}
    (same : stores.view tenantId node.collected = node.stores.view tenantId node.collected) :
    { node with stores := stores }.restrict tenantId = node.restrict tenantId := by
  simp only [restrict, same]

section Foreign

variable (different : other ≠ tenantId)

include different

theorem restrict_setWorker_of_ne {worker : Option Worker} :
    (node.setWorker other pid worker).restrict tenantId = node.restrict tenantId := by
  simp only [restrict, setWorker, Function.update_of_ne different.symm]

theorem restrict_push_of_ne {frames : List Bytes} :
    (node.push other pid frames).restrict tenantId = node.restrict tenantId := by
  simp only [restrict, push, Function.update_of_ne different.symm]

theorem restrict_setMailbox_of_ne {mailbox : Mailbox} :
    (node.setMailbox other pid mailbox).restrict tenantId = node.restrict tenantId := by
  simp only [restrict, setMailbox, Function.update_of_ne different.symm]

theorem restrict_setPending_of_ne {tasks : List BackgroundTask} :
    (node.setPending other tasks).restrict tenantId = node.restrict tenantId := by
  simp only [restrict, setPending, Function.update_of_ne different.symm]

theorem restrict_remove_of_ne :
    (node.remove other pid).restrict tenantId = node.restrict tenantId := by
  refine (restrict_withSubscriptions ?_).trans
    ((restrict_setMailbox_of_ne different).trans (restrict_setWorker_of_ne different))
  rw [List.filter_filter]
  apply List.filter_congr
  intro subscription _
  by_cases own : subscription.tenantId = tenantId
  · simp [own, different.symm]
  · simp [own]

theorem restrict_publish_of_ne {publication : Publication}
    (concerns : publication.Concerns other.val) :
    (node.publish publication).restrict tenantId = node.restrict tenantId := by
  have foreign : ¬publication.Concerns tenantId.val := by
    intro own
    exact different (Subtype.ext (concerns.unique own))
  simp only [restrict, publish, List.filter_append]
  split <;> simp [foreign]

theorem restrict_broadcast_of_ne (isolated : node.Isolated) {sender : Id16 × ℕ} {mail : Mail}
    {except : Option (Id16 × ℕ)} (owned : OwnedName other.val mail.topic) :
    (node.broadcast sender mail except).restrict tenantId = node.restrict tenantId := by
  have unheard : (node.broadcast sender mail except).mailboxes tenantId =
      node.mailboxes tenantId := by
    funext number
    simp only [broadcast]
    rw [List.filter_eq_nil_iff.mpr, List.map_nil, List.append_nil, Function.update_eq_self]
    intro subscription subscriptionMem heard
    have same := (of_decide_eq_true heard).1
    subst same
    exact different (Subtype.ext (owned.unique (isolated.subscriptions subscriptionMem)))
  calc
    (node.broadcast sender mail except).restrict tenantId =
        { node.restrict tenantId with
          mailboxes := Function.update (fun _ _ _ => []) tenantId
            ((node.broadcast sender mail except).mailboxes tenantId) } := rfl
    _ = node.restrict tenantId := by rw [unheard]; rfl

/-- A command about another tenant leaves the tenant's part of the node alone. -/
theorem restrict_perform_of_ne (isolated : node.Isolated) {moment : Moment} {command : Command}
    (owned : command.Owned other) :
    (node.perform other pid moment command).2.restrict tenantId = node.restrict tenantId := by
  cases command with
  | time | generateId | setting | track | updatePresence => rfl
  | natsPublish subject message =>
      simp only [perform]
      split
      · exact restrict_publish_of_ne different owned
      · rfl
  | startTask task => exact restrict_setPending_of_ne different
  | subscribe topic =>
      apply restrict_withSubscriptions
      rw [List.filter_append, List.filter_cons_of_neg (by simp [different]), List.filter_nil,
        List.append_nil]
  | unsubscribe topic =>
      apply restrict_withSubscriptions
      rw [List.filter_filter]
      apply List.filter_congr
      intro subscription _
      by_cases own : subscription.tenantId = tenantId
      · have unlike : subscription ≠ ⟨topic, other, pid⟩ := by
          rintro rfl
          exact different own
        simp [own, unlike]
      · simp [own]
  | broadcast topic event payload => exact restrict_broadcast_of_ne different isolated owned
  | broadcastFrom topic event payload => exact restrict_broadcast_of_ne different isolated owned
  | _ =>
      simp only [perform]
      split
      · exact restrict_withView (Stores.execute_silent owned different)
      · rfl

theorem restrict_workerStep_of_ne (isolated : node.Isolated) {event : WorkerEvent} {next : Node}
    (steps : node.workerStep native json rate other pid event = some next) :
    next.restrict tenantId = node.restrict tenantId := by
  cases event with
  | connected userId deviceId =>
      simp only [workerStep] at steps
      split at steps <;> cases steps
      exact restrict_setWorker_of_ne different
  | received data =>
      simp only [workerStep] at steps
      split at steps <;> cases steps
      exact restrict_setWorker_of_ne different
  | performed moment =>
      rcases Option.map_eq_some_iff.mp steps with ⟨command, isNext, rfl⟩
      rcases Option.bind_eq_some_iff.mp isNext with ⟨worker, running, isNext⟩
      have owned := ((isolated.workers running).next isNext).1
      exact (restrict_setWorker_of_ne different).trans
        (restrict_perform_of_ne different isolated owned)
  | answered =>
      simp only [workerStep] at steps
      split at steps <;> cases steps
      exact (restrict_push_of_ne different).trans (restrict_setWorker_of_ne different)
  | delivered =>
      simp only [workerStep] at steps
      split at steps <;> cases steps
      exact (restrict_push_of_ne different).trans
        ((restrict_setMailbox_of_ne different).trans (restrict_setWorker_of_ne different))
  | checked =>
      simp only [workerStep] at steps
      split at steps
      · split at steps <;> cases steps
        · exact restrict_setWorker_of_ne different
        · exact restrict_remove_of_ne different
      · cases steps
  | ended =>
      cases steps
      exact restrict_remove_of_ne different
  | started index =>
      simp only [workerStep] at steps
      split at steps <;> cases steps
      exact (restrict_setPending_of_ne different).trans (restrict_setWorker_of_ne different)

end Foreign

end Restrict

end Node

end Mercury.Gateway
