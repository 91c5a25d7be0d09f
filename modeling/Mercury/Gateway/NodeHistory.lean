import Mercury.Gateway.Isolation
import Mercury.Gateway.OwnWrites

/-!
# What the rows of a node come from

Every row of a device, a cursor or a member is traced back over a run to the frames and
connections that it comes from. A process serves the user and the device that it was
connected for last, and what it has still to do writes only what the frames of these
call for (`Worker.Serves`); so each command that the node performs has a frame behind
it, whatever else runs in between.
-/

namespace Mercury.Gateway

open Foundations Foundations.Program Persistence

/-! ## What a list of labels says -/

section Labels

variable (tenantId : Id16) (pid : ℕ)

/-- The user and the device that the process was connected for last. -/
def NodeLabel.identify (current : Option (Id16 × Id16)) : NodeLabel → Option (Id16 × Id16)
  | .worker tid number (.connected userId deviceId) =>
      if tid = tenantId ∧ number = pid then some (userId, deviceId) else current
  | _ => current

def connectedAs (labels : List NodeLabel) : Option (Id16 × Id16) :=
  labels.foldl (NodeLabel.identify tenantId pid) none

/-- The checks since the last heartbeat of the socket, or since it was connected. -/
def NodeLabel.countMissed (current : ℕ) : NodeLabel → ℕ
  | .worker tid number event =>
      if tid = tenantId ∧ number = pid then
        match event with
        | .connected .. => 0
        | .received data => if Frame.parse data = .heartbeat then 0 else current
        | .checked => current + 1
        | _ => current
      else current
  | _ => current

def missedChecks (labels : List NodeLabel) : ℕ :=
  labels.foldl (NodeLabel.countMissed tenantId pid) 0

theorem connectedAs_append (labels : List NodeLabel) (label : NodeLabel) :
    connectedAs tenantId pid (labels ++ [label]) =
      label.identify tenantId pid (connectedAs tenantId pid labels) := by
  simp [connectedAs]

theorem missedChecks_append (labels : List NodeLabel) (label : NodeLabel) :
    missedChecks tenantId pid (labels ++ [label]) =
      label.countMissed tenantId pid (missedChecks tenantId pid labels) := by
  simp [missedChecks]

end Labels

/-- A socket of the user's device received the frame. -/
def Sent (labels : List NodeLabel) (tenantId userId deviceId : Id16) (data : Bytes) : Prop :=
  ∃ before after pid, labels = before ++ .worker tenantId pid (.received data) :: after ∧
    connectedAs tenantId pid before = some (userId, deviceId)

/-- A socket of the user's device was connected. -/
def Connected (labels : List NodeLabel) (tenantId userId deviceId : Id16) : Prop :=
  ∃ pid, .worker tenantId pid (.connected userId deviceId) ∈ labels

/-- The moment of a command. -/
def Momentary (labels : List NodeLabel) (moment : Moment) : Prop :=
  ∃ tenantId pid, .worker tenantId pid (.performed moment) ∈ labels

/-- The ids and the times of the moments. -/
def supplyOf (labels : List NodeLabel) : Supply where
  minted id := ∃ moment, Momentary labels moment ∧ moment.id = id
  shown now := ∃ moment, Momentary labels moment ∧ moment.time = now

/-- The id and the time of the moment are supplied. -/
structure Supply.Contains (supply : Supply) (moment : Moment) : Prop where
  minted : supply.minted moment.id
  shown : supply.shown moment.time

section Labels

variable {labels : List NodeLabel} {label : NodeLabel} {tenantId userId deviceId : Id16}
  {pid : ℕ} {data : Bytes}

theorem Sent.append (sent : Sent labels tenantId userId deviceId data) :
    Sent (labels ++ [label]) tenantId userId deviceId data := by
  rcases sent with ⟨before, after, number, rfl, identity⟩
  exact ⟨before, after ++ [label], number, by simp, identity⟩

theorem sent_received (identity : connectedAs tenantId pid labels = some (userId, deviceId)) :
    Sent (labels ++ [.worker tenantId pid (.received data)]) tenantId userId deviceId data :=
  ⟨labels, [], pid, rfl, identity⟩

theorem Momentary.append {moment : Moment} (momentary : Momentary labels moment) :
    Momentary (labels ++ [label]) moment := by
  rcases momentary with ⟨tid, number, labelMem⟩
  exact ⟨tid, number, List.mem_append_left _ labelMem⟩

theorem contains_supplyOf {moment : Moment} (momentary : Momentary labels moment) :
    (supplyOf labels).Contains moment :=
  ⟨⟨moment, momentary, rfl⟩, ⟨moment, momentary, rfl⟩⟩

theorem Connected.append (connected : Connected labels tenantId userId deviceId) :
    Connected (labels ++ [label]) tenantId userId deviceId := by
  rcases connected with ⟨number, labelMem⟩
  exact ⟨number, List.mem_append_left _ labelMem⟩

/-- Who a process was connected for, its label says. -/
theorem connected_of_connectedAs
    (identity : connectedAs tenantId pid labels = some (userId, deviceId)) :
    Connected labels tenantId userId deviceId := by
  induction labels using List.reverseRecOn with
  | nil => cases identity
  | append_singleton earlier last ih =>
      rw [connectedAs_append] at identity
      unfold NodeLabel.identify at identity
      split at identity
      · next tid number user device =>
          split at identity
          · next same =>
              cases identity
              rcases same with ⟨rfl, rfl⟩
              exact ⟨number, by simp⟩
          · exact (ih identity).append
      · exact (ih identity).append

theorem Sent.connected (sent : Sent labels tenantId userId deviceId data) :
    Connected labels tenantId userId deviceId := by
  rcases sent with ⟨before, after, number, rfl, identity⟩
  rcases connected_of_connectedAs identity with ⟨other, labelMem⟩
  exact ⟨other, List.mem_append_left _ labelMem⟩

end Labels

/-! ## Processes -/

section Processes

variable (native : Native) (stores : Stores) (supply : Supply) (labels : List NodeLabel)
  (tenantId : Id16) (pid : ℕ)

/-- What `ensure_device` writes for a connection. -/
def Provisions (userId deviceId : Id16) : Command → Prop
  | .time => True
  | .insertTenant row => row.tenantId = tenantId
  | .insertUser row => row.tenantId = tenantId ∧ row.userId = userId
  | .insertDevice row =>
      row.tenantId = tenantId ∧ row.userId = userId ∧ row.deviceId = deviceId ∧
        row.mlsKeyPackage = none
  | _ => False

/-- The command writes what some connection or frame of the tenant calls for, if anything. -/
inductive WrittenBy (command : Command) : Prop where
  | harmless (harmless : Harmless command)
  | connection (userId deviceId : Id16) (connected : Connected labels tenantId userId deviceId)
      (provisions : Provisions tenantId userId deviceId command)
  | frame (userId deviceId : Id16) (data : Bytes) (sent : Sent labels tenantId userId deviceId data)
      (writes : CommandWrites native stores supply tenantId userId deviceId (Frame.parse data)
        command)

/-- The socket is the one that was connected, and counts its checks. -/
structure Socket.SpeaksFor (socket : Socket) : Prop where
  tenant : socket.tenantId = tenantId
  identity : connectedAs tenantId pid labels = some (socket.userId, socket.deviceId)
  missed : socket.missedHeartbeats = missedChecks tenantId pid labels
  few : socket.missedHeartbeats < 3

/-- What the process is and has still to do comes from the labels. -/
def Worker.Serves : Worker → Prop
  | .idle socket => socket.SpeaksFor labels tenantId pid
  | .handling rest =>
      rest.Ensures (AnswersCommand stores supply)
        (WrittenBy native stores supply labels tenantId) fun
        | .ok reaction => reaction.socket.SpeaksFor labels tenantId pid
        | .error _ => True
  | .running rest => PerformsOnly (AnswersCommand stores supply) Harmless rest

/-- The label neither connects the process nor reaches it as a frame or a check. -/
def NodeLabel.Spares : NodeLabel → Prop
  | .worker tid number event =>
      tid = tenantId → number = pid →
        match event with
        | .connected .. | .received _ | .checked => False
        | _ => True
  | _ => True

end Processes

section Processes

variable {native : Native} {stores : Stores} {supply : Supply} {json : Json} {rate : ℕ}
  {labels : List NodeLabel}
  {label : NodeLabel} {tenantId userId deviceId : Id16} {pid : ℕ}

theorem WrittenBy.append {command : Command}
    (written : WrittenBy native stores supply labels tenantId command) :
    WrittenBy native stores supply (labels ++ [label]) tenantId command := by
  cases written with
  | harmless harmless => exact .harmless harmless
  | connection user device connected provisions =>
      exact .connection user device connected.append provisions
  | frame user device data sent writes => exact .frame user device data sent.append writes

theorem NodeLabel.Spares.identify_eq (spares : label.Spares tenantId pid)
    (current : Option (Id16 × Id16)) : label.identify tenantId pid current = current := by
  unfold identify
  split
  · split
    · next same => exact (spares same.1 same.2).elim
    · rfl
  · rfl

theorem NodeLabel.Spares.countMissed_eq (spares : label.Spares tenantId pid) (current : ℕ) :
    label.countMissed tenantId pid current = current := by
  unfold countMissed
  split
  · split
    · next same =>
        have quiet := spares same.1 same.2
        split <;> first | rfl | exact quiet.elim
    · rfl
  · rfl

theorem Socket.SpeaksFor.append {socket : Socket}
    (speaks : socket.SpeaksFor labels tenantId pid) (spares : label.Spares tenantId pid) :
    socket.SpeaksFor (labels ++ [label]) tenantId pid where
  tenant := speaks.tenant
  identity := by rw [connectedAs_append, spares.identify_eq, speaks.identity]
  missed := by rw [missedChecks_append, spares.countMissed_eq, speaks.missed]
  few := speaks.few

/-- A check that does not stop the socket is counted. -/
theorem Socket.SpeaksFor.checked {socket checked : Socket}
    (speaks : socket.SpeaksFor labels tenantId pid)
    (survives : socket.heartbeatCheck = some checked) :
    checked.SpeaksFor (labels ++ [.worker tenantId pid .checked]) tenantId pid := by
  have few : socket.missedHeartbeats + 1 < 3 := by
    unfold heartbeatCheck at survives
    split at survives
    · cases survives
    · omega
  rw [Socket.heartbeatCheck_eq_some survives]
  refine ⟨speaks.tenant, ?_, ?_, few⟩
  · simp [connectedAs_append, NodeLabel.identify, speaks.identity]
  · simp [missedChecks_append, NodeLabel.countMissed, speaks.missed]

theorem Worker.Serves.append {worker : Worker}
    (serves : worker.Serves native stores supply labels tenantId pid)
    (spares : label.Spares tenantId pid) :
    worker.Serves native stores supply (labels ++ [label]) tenantId pid := by
  cases worker with
  | idle socket => exact Socket.SpeaksFor.append serves spares
  | handling rest =>
      refine Ensures.mono serves (fun _ => WrittenBy.append) ?_
      rintro (raised | reaction) speaks
      · trivial
      · exact Socket.SpeaksFor.append speaks spares
  | running rest => exact serves

/-! ### What starts a process -/

theorem runTask_harmless {admitted : Performed commands Raise → Prop} (task : BackgroundTask) :
    PerformsOnly admitted Harmless (storedRunTask json rate task) := by
  have calls : (runTask task).Ensures (fun _ => True) CarriedHarmlessly fun _ => True := by
    cases task with
    | updateReadPosition => exact Ensures.seq (Ensures.ask trivial) fun _ => trivial
    | persistMessage =>
        refine Ensures.seq (Ensures.ask trivial) fun written => ?_
        split
        · refine Ensures.seq (Ensures.ask trivial) fun _ => ?_
          refine Ensures.seq (Ensures.ask trivial) fun running => ?_
          split
          · exact Ensures.seq (Ensures.ask trivial) fun _ => trivial
          · trivial
        · trivial
  apply Ensures.through calls
  intro asked carried
  exact (stored_harmless carried).post_mono fun _ _ => trivial

theorem ensureDevice_provisions {admitted : Performed commands Raise → Prop} :
    PerformsOnly admitted (Provisions tenantId userId deviceId)
      (ensureDevice tenantId userId deviceId) := by
  refine Ensures.seq (performsOnly_send trivial) fun now => ?_
  refine Ensures.seq (performsOnly_send rfl) fun tenantRow => ?_
  split
  · trivial
  refine Ensures.seq (performsOnly_send ⟨rfl, rfl⟩) fun userRow => ?_
  split
  · trivial
  · exact performsOnly_send ⟨rfl, rfl, rfl, rfl⟩

theorem initSocket_serves :
    (Worker.handling (initSocket tenantId userId deviceId)).Serves native stores supply
      (labels ++ [.worker tenantId pid (.connected userId deviceId)]) tenantId pid := by
  have connected : Connected (labels ++ [.worker tenantId pid (.connected userId deviceId)])
      tenantId userId deviceId := ⟨pid, by simp⟩
  have provisions : (ensureDevice tenantId userId deviceId).Ensures (AnswersCommand stores supply)
      (WrittenBy native stores supply
        (labels ++ [.worker tenantId pid (.connected userId deviceId)]) tenantId)
      fun _ => True := by
    apply Ensures.mono ensureDevice_provisions _ fun _ _ => trivial
    intro command issued
    exact .connection userId deviceId connected issued
  refine Ensures.bind.mpr (Ensures.post_mono provisions ?_)
  rintro (raised | provisioned) -
  · trivial
  · refine ⟨rfl, ?_, ?_, Nat.zero_lt_succ 2⟩
    · simp [connectedAs_append, NodeLabel.identify, Socket.init, noReply]
    · simp [missedChecks_append, NodeLabel.countMissed, Socket.init, noReply]

/-- A frame keeps the ids of the socket; a heartbeat starts the count of the checks again. -/
theorem Moves.keeps {granted : Performed calls Raise → Prop} {socket next : Socket} {frame : Frame}
    (moves : Moves granted socket next frame) :
    next.tenantId = socket.tenantId ∧ next.userId = socket.userId ∧
      next.deviceId = socket.deviceId ∧
      next.missedHeartbeats = if frame = .heartbeat then 0 else socket.missedHeartbeats := by
  cases frame with
  | heartbeat =>
      cases moves
      simp
  | ignored | push =>
      cases moves
      simp
  | join | leave =>
      rcases moves with rfl | ⟨_, _, rfl⟩
      · simp
      · exact ⟨rfl, rfl, rfl, rfl⟩

theorem storedHandleIn_serves {socket : Socket} {data : Bytes}
    (speaks : socket.SpeaksFor labels tenantId pid) :
    (Worker.handling (storedHandleIn native json rate data socket)).Serves native stores supply
      (labels ++ [.worker tenantId pid (.received data)]) tenantId pid := by
  have both := Ensures.and (@handleFrame_writes native stores supply socket (Frame.parse data))
    (@handleFrame_calls (AnswersCall stores supply) native socket (Frame.parse data))
  have sent : Sent (labels ++ [.worker tenantId pid (.received data)]) tenantId socket.userId
      socket.deviceId data := sent_received speaks.identity
  have own := speaks.tenant
  subst own
  have commands := Ensures.through both fun asked allowed =>
    @stored_writes native stores supply json rate socket (Frame.parse data) asked allowed.1
  apply Ensures.mono commands
  · intro command writes
    exact .frame socket.userId socket.deviceId data sent writes
  · rintro (raised | reaction) ⟨_, moves⟩
    · trivial
    rcases moves.keeps with ⟨tenant, user, device, missed⟩
    refine ⟨tenant, ?_, ?_, ?_⟩
    · simp [connectedAs_append, NodeLabel.identify, user, device, speaks.identity]
    · simp [missedChecks_append, NodeLabel.countMissed, missed, speaks.missed]
    · rw [missed]
      split
      · decide
      · exact speaks.few

/-! ### Every process of a node -/

theorem Worker.Serves.next {worker : Worker} {next : NextCommand}
    (serves : worker.Serves native stores supply labels tenantId pid)
    (isNext : worker.next = some next) :
    WrittenBy native stores supply labels tenantId next.command ∧
      ∀ answer, AnswersCommand stores supply ⟨next.command, answer⟩ →
        (next.resume answer).Serves native stores supply labels tenantId pid := by
  cases worker with
  | idle socket => cases isNext
  | handling rest =>
      cases rest with
      | done reaction => cases isNext
      | fail error => cases isNext
      | call command rest =>
          cases isNext
          exact ⟨serves.1, serves.2⟩
  | running rest =>
      cases rest with
      | done result => cases isNext
      | fail error => cases isNext
      | call command rest =>
          cases isNext
          exact ⟨.harmless serves.1, serves.2⟩

namespace Node

variable {node next : Node} {event : WorkerEvent}

/-- Every process of the node serves the connection and the frames that it was given. -/
def Attributed (native : Native) (stores : Stores) (supply : Supply) (labels : List NodeLabel)
    (node : Node) : Prop :=
  ∀ tenantId pid worker, node.workers tenantId pid = some worker →
    worker.Serves native stores supply labels tenantId pid

@[simp]
theorem workers_perform (moment : Moment) (command : Command) :
    (node.perform tenantId pid moment command).2.workers = node.workers := by
  cases command with
  | time | generateId | setting | track | updatePresence => rfl
  | startTask | subscribe | unsubscribe | broadcast | broadcastFrom => rfl
  | _ =>
      simp only [perform]
      split <;> rfl

theorem spares_of_ne {other : Id16} {number : ℕ} (different : ¬(other = tenantId ∧ number = pid)) :
    (NodeLabel.worker tenantId pid event).Spares other number := by
  intro sameTenant sameNumber
  exact (different ⟨sameTenant.symm, sameNumber.symm⟩).elim

theorem workers_setWorker {other : Id16} {number : ℕ} (changed : Option Worker) :
    (node.setWorker other number changed).workers tenantId pid =
      if tenantId = other ∧ pid = number then changed else node.workers tenantId pid := by
  simp only [setWorker]
  by_cases tenantEq : tenantId = other
  · subst tenantEq
    by_cases pidEq : pid = number
    · simp [pidEq]
    · simp [pidEq]
  · simp [tenantEq]

/-- What a process is after a step: as it was, or what the step makes of it. -/
inductive Becomes (native : Native) (json : Json) (rate : ℕ) (node : Node) (tenantId : Id16)
    (pid : ℕ) : NodeLabel → Worker → Prop where
  | same {label : NodeLabel} {worker : Worker}
      (running : node.workers tenantId pid = some worker) (spares : label.Spares tenantId pid) :
      Becomes native json rate node tenantId pid label worker
  | connected {userId deviceId : Id16} :
      Becomes native json rate node tenantId pid
        (.worker tenantId pid (.connected userId deviceId))
        (.handling (initSocket tenantId userId deviceId))
  | received {socket : Socket} {data : Bytes}
      (idle : node.workers tenantId pid = some (.idle socket)) :
      Becomes native json rate node tenantId pid (.worker tenantId pid (.received data))
        (.handling (storedHandleIn native json rate data socket))
  | performed {moment : Moment} {worker : Worker} {following : NextCommand}
      (running : node.workers tenantId pid = some worker)
      (isNext : worker.next = some following) :
      Becomes native json rate node tenantId pid (.worker tenantId pid (.performed moment))
        (following.resume (node.perform tenantId pid moment following.command).1)
  | answered {reaction : Reaction}
      (finished : node.workers tenantId pid = some (.handling (.done reaction))) :
      Becomes native json rate node tenantId pid (.worker tenantId pid .answered)
        (.idle reaction.socket)
  | checked {socket checked : Socket}
      (idle : node.workers tenantId pid = some (.idle socket))
      (survives : socket.heartbeatCheck = some checked) :
      Becomes native json rate node tenantId pid (.worker tenantId pid .checked) (.idle checked)
  | started {index : ℕ} {task : BackgroundTask} :
      Becomes native json rate node tenantId pid (.worker tenantId pid (.started index))
        (.running (storedRunTask json rate task))

/-- A process of which a step sets the worker. -/
theorem Becomes.of_setWorker (node : Node) {other : Id16} {number : ℕ} {worker : Worker}
    {changed : Option Worker}
    (present : (node.setWorker other number changed).workers tenantId pid = some worker)
    (becomes : ∀ made, changed = some made → node.Becomes native json rate other number
      (.worker other number event) made) :
    node.Becomes native json rate tenantId pid (.worker other number event) worker := by
  rw [workers_setWorker] at present
  split at present
  · next same =>
      rcases same with ⟨rfl, rfl⟩
      exact becomes worker present
  · next different => exact .same present (spares_of_ne different)

/-- The consumer takes an invalidation off, and deletes at most its key. -/
theorem Step.consumed {tenantHex : Bytes} {applied : Bool}
    (taken : Step native json rate node (.consumed tenantHex applied) next) :
    ∃ arriving stores, next = { node with arriving := arriving, stores := stores } ∧
      (stores = node.stores ∨ ∃ key, stores = node.stores.setRedis key none) := by
  simp only [Step, Node.step] at taken
  split at taken
  · cases taken
  · split at taken <;> cases taken
    next publication rest _ _ =>
      rcases consume_eq publication applied { node with arriving := rest } with
        same | ⟨key, same⟩
      · exact ⟨rest, node.stores, same, Or.inl rfl⟩
      · exact ⟨rest, node.stores.setRedis key none, same, Or.inr ⟨key, rfl⟩⟩

theorem Step.becomes {worker : Worker} (taken : Step native json rate node label next)
    (present : next.workers tenantId pid = some worker) :
    node.Becomes native json rate tenantId pid label worker := by
  cases label with
  | worker other number event =>
      cases event with
      | connected userId deviceId =>
          simp only [Step, Node.step, workerStep] at taken
          split at taken <;> cases taken
          apply Becomes.of_setWorker node present
          rintro made ⟨⟩
          exact .connected
      | received data =>
          simp only [Step, Node.step, workerStep] at taken
          split at taken <;> cases taken
          next socket idle =>
            apply Becomes.of_setWorker node present
            rintro made ⟨⟩
            exact .received idle
      | performed moment =>
          rcases Option.map_eq_some_iff.mp taken with ⟨following, isNext, rfl⟩
          rcases Option.bind_eq_some_iff.mp isNext with ⟨running, held, isNext⟩
          rw [setWorker, workers_perform] at present
          apply Becomes.of_setWorker node present
          rintro made ⟨⟩
          exact .performed held isNext
      | answered =>
          simp only [Step, Node.step, workerStep] at taken
          split at taken <;> cases taken
          next reaction finished =>
            apply Becomes.of_setWorker node present
            rintro made ⟨⟩
            exact .answered finished
      | delivered =>
          simp only [Step, Node.step, workerStep] at taken
          split at taken <;> cases taken
          next socket mail rest idle waiting =>
            apply Becomes.of_setWorker node present
            rintro made ⟨⟩
            rw [socket_handleBroadcast]
            exact .same idle fun _ _ => trivial
      | checked =>
          simp only [Step, Node.step, workerStep] at taken
          split at taken
          · next socket idle =>
              split at taken <;> cases taken
              · next checked survives =>
                  apply Becomes.of_setWorker node present
                  rintro made ⟨⟩
                  exact .checked idle survives
              · apply Becomes.of_setWorker node present
                rintro made ⟨⟩
          · cases taken
      | ended =>
          cases taken
          apply Becomes.of_setWorker node present
          rintro made ⟨⟩
      | started index =>
          simp only [Step, Node.step, workerStep] at taken
          split at taken <;> cases taken
          apply Becomes.of_setWorker node present
          rintro made ⟨⟩
          exact .started
  | consumed tenantHex applied =>
      rcases taken.consumed with ⟨arriving, stores, rfl, -⟩
      exact .same present trivial
  | expired key =>
      cases taken
      exact .same present trivial
  | collected now deleted =>
      simp only [Step, Node.step] at taken
      split at taken <;> cases taken
      exact .same present trivial

theorem Attributed.step {label : NodeLabel}
    (attributed : node.Attributed native stores supply labels)
    (answers : ∀ tenantId pid moment, label = .worker tenantId pid (.performed moment) →
      ∀ command,
        AnswersCommand stores supply ⟨command, (node.perform tenantId pid moment command).1⟩)
    (steps : Step native json rate node label next) :
    next.Attributed native stores supply (labels ++ [label]) := by
  intro tenantId pid worker present
  cases steps.becomes present with
  | same running spares => exact (attributed _ _ _ running).append spares
  | connected => exact initSocket_serves
  | received idle => exact storedHandleIn_serves (attributed _ _ _ idle)
  | @performed moment _ following running isNext =>
      have serves := ((attributed _ _ _ running).next isNext).2 _
        (answers tenantId pid moment rfl following.command)
      exact serves.append fun _ _ => trivial
  | @answered reaction finished =>
      have speaks : reaction.socket.SpeaksFor labels tenantId pid := attributed _ _ _ finished
      exact speaks.append fun _ _ => trivial
  | @checked socket _ idle survives =>
      have speaks : socket.SpeaksFor labels tenantId pid := attributed _ _ _ idle
      exact speaks.checked survives
  | started => exact runTask_harmless _

end Node

end Processes

end Mercury.Gateway
