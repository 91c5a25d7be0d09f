import Mercury.Sdk.TransportRuns

/-!
# Reconnects

The sockets, reconnect timers and heartbeat intervals of `BinaryTransport`, with every
event of a socket as a step of its own. A failed reconnect is scheduled again twice, by
the rejected promise and by the close event, and `disconnect` leaves timers and sockets
behind that a later `connect` meets. The runs with at most one connection, made or to be
made, and at most one heartbeat are those whose steps avoid this
(`single_connection_runs`).
-/

namespace Mercury.Sdk

open Foundations

/-! ## Sockets and timers -/

inductive SocketPhase where
  | connecting
  | opened
  /-- Closed while connecting: it has an error to fire. -/
  | failing
  /-- Closed while open, by either side. -/
  | closing
  /-- The error has been fired, the close event is still to come. -/
  | erred
  | closed
deriving DecidableEq

/-- `readyState` is `CONNECTING` or `OPEN`. -/
def SocketPhase.isLive : SocketPhase → Bool
  | connecting | opened => true
  | _ => false

structure DialedSocket where
  phase : SocketPhase
  /-- Made by `scheduleReconnect`. -/
  rejoins : Bool
deriving DecidableEq

/-- `WebSocket.close`. -/
def DialedSocket.close (socket : DialedSocket) : DialedSocket :=
  { socket with
    phase := match socket.phase with
      | .connecting => .failing
      | .opened => .closing
      | phase => phase }

structure Dialer where
  /-- The number of the current socket. -/
  ws : Option ℕ
  closed : Bool
  reconnectAttempt : ℕ
  heartbeatTimer : Option ℕ
  sockets : List DialedSocket
  /-- The delays of the reconnect timers that are set. -/
  timers : List ℕ
  /-- The heartbeat intervals that are running. -/
  intervals : List ℕ
  nextInterval : ℕ
deriving DecidableEq

inductive DialEvent where
  | connect
  | disconnect
  | opened (socket : ℕ)
  | erred (socket : ℕ)
  /-- The gateway starts to close an open socket, which fires nothing yet. -/
  | shut (socket : ℕ)
  | closed (socket : ℕ)
  /-- A reconnect timer fires. -/
  | timer (index : ℕ)
deriving DecidableEq

namespace Dialer

def new : Dialer where
  ws := none
  closed := false
  reconnectAttempt := 0
  heartbeatTimer := none
  sockets := []
  timers := []
  intervals := []
  nextInterval := 1

def reconnectDelays : List ℕ :=
  [1000, 2000, 4000, 8000, 16000, 30000]

def startHeartbeat (dialer : Dialer) : Dialer :=
  { dialer with
    heartbeatTimer := some dialer.nextInterval
    intervals := dialer.intervals ++ [dialer.nextInterval]
    nextInterval := dialer.nextInterval + 1 }

def stopHeartbeat (dialer : Dialer) : Dialer :=
  match dialer.heartbeatTimer with
  | none => dialer
  | some running =>
      { dialer with
        heartbeatTimer := none
        intervals := dialer.intervals.filter fun interval => interval ≠ running }

def scheduleReconnect (dialer : Dialer) : Dialer :=
  { dialer with
    timers := dialer.timers ++
      [reconnectDelays.getD (min dialer.reconnectAttempt (reconnectDelays.length - 1)) 0]
    reconnectAttempt := dialer.reconnectAttempt + 1 }

/-- `connect`, called by the application or by a reconnect timer. -/
def connect (rejoins : Bool) (dialer : Dialer) : Dialer :=
  { dialer with
    closed := false
    ws := some dialer.sockets.length
    sockets := dialer.sockets ++ [⟨.connecting, rejoins⟩] }

def onSocket (socket : ℕ) (change : DialedSocket → DialedSocket) (dialer : Dialer) : Dialer :=
  { dialer with sockets := dialer.sockets.modify socket change }

def setPhase (socket : ℕ) (phase : SocketPhase) (dialer : Dialer) : Dialer :=
  dialer.onSocket socket fun found => { found with phase := phase }

def disconnect (dialer : Dialer) : Dialer :=
  let stopped := { dialer with closed := true }.stopHeartbeat
  let closing :=
    match stopped.ws with
    | some socket => stopped.onSocket socket DialedSocket.close
    | none => stopped
  { closing with ws := none }

/-- `onopen`. -/
def opened (dialer : Dialer) : Dialer :=
  { dialer with reconnectAttempt := 0 }.startHeartbeat

/-- `onerror`: it rejects the promise of `connect`, unless the socket has opened, and a
rejected reconnect is scheduled again. -/
def erred (found : DialedSocket) (dialer : Dialer) : Dialer :=
  if found.rejoins ∧ (found.phase = .connecting ∨ found.phase = .failing) then
    dialer.scheduleReconnect
  else dialer

/-- `onclose`. -/
def ended (dialer : Dialer) : Dialer :=
  let stopped := dialer.stopHeartbeat
  if stopped.closed then stopped else stopped.scheduleReconnect

/-- The callback of a reconnect timer. -/
def retry (dialer : Dialer) : Dialer :=
  if dialer.closed then dialer else dialer.connect true

/-- The application calls `connect` only while it is disconnected. -/
def step (dialer : Dialer) : DialEvent → Option Dialer
  | .connect => if dialer.ws = none then some (dialer.connect false) else none
  | .disconnect => some dialer.disconnect
  | .opened socket =>
      (dialer.sockets[socket]?).bind fun found =>
        if found.phase = .connecting then some (dialer.setPhase socket .opened).opened else none
  | .erred socket =>
      (dialer.sockets[socket]?).bind fun found =>
        if found.phase ∈ [.connecting, .opened, .failing, .closing] then
          some ((dialer.setPhase socket .erred).erred found)
        else none
  | .shut socket =>
      (dialer.sockets[socket]?).bind fun found =>
        if found.phase = .opened then some (dialer.setPhase socket .closing) else none
  | .closed socket =>
      (dialer.sockets[socket]?).bind fun found =>
        if found.phase ∈ [.opened, .closing, .erred] then
          some (dialer.setPhase socket .closed).ended
        else none
  | .timer index =>
      if index < dialer.timers.length then
        some { dialer with timers := dialer.timers.eraseIdx index }.retry
      else none

def Step (dialer : Dialer) (event : DialEvent) (next : Dialer) : Prop :=
  dialer.step event = some next

/-- A transport whose first `connect` has been called. -/
def start : Dialer :=
  new.connect false

/-- The sockets that are connecting or open. -/
def live (dialer : Dialer) : ℕ :=
  dialer.sockets.countP fun socket => socket.phase.isLive

/-- One connection, made or to be made, and one heartbeat, at the most. -/
structure SingleConnection (dialer : Dialer) : Prop where
  connections : dialer.timers.length + dialer.live ≤ 1
  heartbeats : dialer.intervals.length ≤ 1

/-! ## Steps -/

def phaseAt (dialer : Dialer) (socket : ℕ) : Option SocketPhase :=
  (dialer.sockets[socket]?).map DialedSocket.phase

/-- The current socket is connecting or open. -/
def IsActive (dialer : Dialer) : Prop :=
  ∃ socket phase, dialer.ws = some socket ∧ dialer.phaseAt socket = some phase ∧
    phase.isLive = true

/-- No reconnect timer is set, and no other socket than this one is current and connecting
or open. -/
structure IdleBut (dialer : Dialer) (socket : ℕ) : Prop where
  timers : dialer.timers = []
  others : dialer.IsActive → dialer.ws = some socket

/-- The socket of a reconnect that has not opened. -/
def Retries (dialer : Dialer) (socket : ℕ) : Prop :=
  ∃ found ∈ dialer.sockets[socket]?, found.rejoins = true ∧
    (found.phase = .connecting ∨ found.phase = .failing)

/-- What an event must find so that it makes no second connection and no second heartbeat. -/
def Careful (dialer : Dialer) : DialEvent → Prop
  | .connect => dialer.timers = []
  | .opened _ => dialer.heartbeatTimer = none
  | .erred socket => dialer.Retries socket → dialer.IdleBut socket
  | .closed socket => dialer.closed = true ∨ dialer.IdleBut socket
  | .disconnect | .shut _ | .timer _ => True

/-- The steps, by what an event may come to. -/
inductive Takes (dialer : Dialer) : DialEvent → Dialer → Prop where
  | connect (disconnected : dialer.ws = none) : Takes dialer .connect (dialer.connect false)
  | disconnect : Takes dialer .disconnect dialer.disconnect
  | opened {socket : ℕ} (connecting : dialer.phaseAt socket = some .connecting) :
      Takes dialer (.opened socket) (dialer.setPhase socket .opened).opened
  | rejected {socket : ℕ} (retries : dialer.Retries socket) :
      Takes dialer (.erred socket) (dialer.setPhase socket .erred).scheduleReconnect
  | erred {socket : ℕ} (settled : ¬dialer.Retries socket) :
      Takes dialer (.erred socket) (dialer.setPhase socket .erred)
  | shut {socket : ℕ} : Takes dialer (.shut socket) (dialer.setPhase socket .closing)
  | ended {socket : ℕ} (isClosed : dialer.closed = true) :
      Takes dialer (.closed socket) (dialer.setPhase socket .closed).stopHeartbeat
  | lost {socket : ℕ} (unclosed : ¬dialer.closed = true) :
      Takes dialer (.closed socket)
        (dialer.setPhase socket .closed).stopHeartbeat.scheduleReconnect
  | lateTimer {index : ℕ} (set : index < dialer.timers.length)
      (isClosed : dialer.closed = true) :
      Takes dialer (.timer index) { dialer with timers := dialer.timers.eraseIdx index }
  | reconnect {index : ℕ} (set : index < dialer.timers.length)
      (unclosed : ¬dialer.closed = true) :
      Takes dialer (.timer index)
        ({ dialer with timers := dialer.timers.eraseIdx index }.connect true)

theorem stopHeartbeat_closed (dialer : Dialer) : dialer.stopHeartbeat.closed = dialer.closed := by
  unfold stopHeartbeat
  split <;> rfl

theorem takes_of_step {dialer next : Dialer} {event : DialEvent}
    (taken : Step dialer event next) : dialer.Takes event next := by
  cases event with
  | connect =>
      rcases Option.ite_none_right_eq_some.mp taken with ⟨disconnected, nextEq⟩
      cases nextEq
      exact .connect disconnected
  | disconnect =>
      cases taken
      exact .disconnect
  | opened socket =>
      rcases Option.bind_eq_some_iff.mp taken with ⟨found, foundEq, opened⟩
      rcases Option.ite_none_right_eq_some.mp opened with ⟨connecting, nextEq⟩
      cases nextEq
      exact .opened (by rw [phaseAt, foundEq, Option.map_some, connecting])
  | erred socket =>
      rcases Option.bind_eq_some_iff.mp taken with ⟨found, foundEq, erred⟩
      rcases Option.ite_none_right_eq_some.mp erred with ⟨-, nextEq⟩
      cases nextEq
      unfold Dialer.erred
      split
      · next retries => exact .rejected ⟨found, foundEq, retries⟩
      · next settled =>
          apply Takes.erred
          rintro ⟨other, otherEq, retries⟩
          cases foundEq.symm.trans otherEq
          exact settled retries
  | shut socket =>
      rcases Option.bind_eq_some_iff.mp taken with ⟨found, -, shut⟩
      rcases Option.ite_none_right_eq_some.mp shut with ⟨-, nextEq⟩
      cases nextEq
      exact .shut
  | closed socket =>
      rcases Option.bind_eq_some_iff.mp taken with ⟨found, -, closed⟩
      rcases Option.ite_none_right_eq_some.mp closed with ⟨-, nextEq⟩
      cases nextEq
      have same := stopHeartbeat_closed (dialer.setPhase socket .closed)
      dsimp only [ended]
      split
      · next isClosed => exact .ended (same ▸ isClosed)
      · next unclosed => exact .lost fun isClosed => unclosed (same.trans isClosed)
  | timer index =>
      rcases Option.ite_none_right_eq_some.mp taken with ⟨set, nextEq⟩
      cases nextEq
      unfold retry
      split
      · next isClosed => exact .lateTimer set isClosed
      · next unclosed => exact .reconnect set unclosed

/-! ## What holds of every careful run -/

theorem getElem?_onSocket (dialer : Dialer) (socket : ℕ) (change : DialedSocket → DialedSocket)
    (other : ℕ) : (dialer.onSocket socket change).sockets[other]? =
      if socket = other then (dialer.sockets[other]?).map change else dialer.sockets[other]? := by
  simp only [onSocket, List.getElem?_modify]
  split
  · rfl
  · simp

theorem phaseAt_setPhase (dialer : Dialer) (socket : ℕ) (phase : SocketPhase) (other : ℕ) :
    (dialer.setPhase socket phase).phaseAt other =
      if socket = other then (dialer.phaseAt other).map fun _ => phase
      else dialer.phaseAt other := by
  simp only [phaseAt, setPhase, getElem?_onSocket]
  split
  · cases dialer.sockets[other]? <;> rfl
  · rfl

theorem phaseAt_connect (dialer : Dialer) (rejoins : Bool) (other : ℕ) :
    (dialer.connect rejoins).phaseAt other =
      if other = dialer.sockets.length then some .connecting else dialer.phaseAt other := by
  simp only [phaseAt, connect, List.getElem?_append]
  split_ifs with old new
  · omega
  · rfl
  · simp [*]
  · have beyond : dialer.sockets[other]? = none := List.getElem?_eq_none (by omega)
    have later : other - dialer.sockets.length ≠ 0 := by omega
    simp [beyond, later]

def OnlyCurrent (dialer : Dialer) : Prop :=
  ∀ socket phase, dialer.phaseAt socket = some phase → phase.isLive = true →
    dialer.ws = some socket

theorem live_pos {dialer : Dialer} (active : dialer.IsActive) : 0 < dialer.live := by
  rcases active with ⟨socket, phase, -, phaseEq, isLive⟩
  rcases Option.map_eq_some_iff.mp phaseEq with ⟨found, foundEq, rfl⟩
  exact List.countP_pos_iff.mpr ⟨found, List.mem_of_getElem? foundEq, isLive⟩

theorem live_of_inactive {dialer : Dialer} (only : dialer.OnlyCurrent)
    (inactive : ¬dialer.IsActive) : dialer.live = 0 := by
  rw [live, List.countP_eq_zero]
  intro found foundMem isLive
  rcases List.mem_iff_getElem?.mp foundMem with ⟨socket, foundEq⟩
  have phaseEq : dialer.phaseAt socket = some found.phase := by
    rw [phaseAt, foundEq, Option.map_some]
  exact inactive ⟨socket, found.phase, only socket _ phaseEq isLive, phaseEq, isLive⟩

theorem live_le_one {dialer : Dialer} (only : dialer.OnlyCurrent) : dialer.live ≤ 1 := by
  rcases dialer.ws.eq_none_or_eq_some with none | ⟨current, wsEq⟩
  · have inactive : ¬dialer.IsActive := by
      rintro ⟨socket, phase, wsEq, -⟩
      rw [none] at wsEq
      cases wsEq
    rw [live_of_inactive only inactive]
    exact Nat.zero_le 1
  · -- no socket but the one at `current` is counted
    have elsewhere : ∀ socket found, dialer.sockets[socket]? = some found → socket ≠ current →
        ¬found.phase.isLive = true := by
      intro socket found foundEq other isLive
      have isCurrent := only socket found.phase (by rw [phaseAt, foundEq, Option.map_some]) isLive
      exact other (Option.some.inj (isCurrent.symm.trans wsEq))
    have before : (dialer.sockets.take current).countP (fun found => found.phase.isLive) = 0 := by
      rw [List.countP_eq_zero]
      intro found foundMem
      rcases List.mem_iff_getElem?.mp foundMem with ⟨socket, foundEq⟩
      rw [List.getElem?_take] at foundEq
      rcases Option.ite_none_right_eq_some.mp foundEq with ⟨earlier, foundEq⟩
      exact elsewhere socket found foundEq (by omega)
    have after : (dialer.sockets.drop (current + 1)).countP
        (fun found => found.phase.isLive) = 0 := by
      rw [List.countP_eq_zero]
      intro found foundMem
      rcases List.mem_iff_getElem?.mp foundMem with ⟨offset, foundEq⟩
      rw [List.getElem?_drop] at foundEq
      exact elsewhere _ found foundEq (by omega)
    have first : (dialer.sockets.drop current).countP (fun found => found.phase.isLive) ≤ 1 := by
      rcases dropped : dialer.sockets.drop current with _ | ⟨found, rest⟩
      · simp
      · have restEq : rest = dialer.sockets.drop (current + 1) := by
          rw [← List.drop_drop, dropped, List.drop_one, List.tail_cons]
        rw [List.countP_cons, restEq, after]
        split <;> omega
    rw [live, ← List.take_append_drop current dialer.sockets, List.countP_append, before]
    omega

theorem connections_iff {dialer : Dialer} (only : dialer.OnlyCurrent) :
    dialer.timers.length + dialer.live ≤ 1 ↔
      dialer.timers.length ≤ 1 ∧ (dialer.IsActive → dialer.timers = []) := by
  constructor
  · intro connections
    refine ⟨by omega, fun active => ?_⟩
    have counted := live_pos active
    exact List.length_eq_zero_iff.mp (by omega)
  · rintro ⟨timers, unset⟩
    by_cases active : dialer.IsActive
    · rw [unset active, List.length_nil]
      have := live_le_one only
      omega
    · rw [live_of_inactive only active]
      omega

structure Steady (dialer : Dialer) : Prop where
  only : dialer.OnlyCurrent
  timers : dialer.timers.length ≤ 1
  unset : dialer.IsActive → dialer.timers = []
  running : dialer.intervals = dialer.heartbeatTimer.toList

theorem Steady.single {dialer : Dialer} (steady : dialer.Steady) : dialer.SingleConnection where
  connections := (connections_iff steady.only).mpr ⟨steady.timers, steady.unset⟩
  heartbeats := by
    rw [steady.running]
    cases dialer.heartbeatTimer <;> simp

theorem stopHeartbeat_eq {dialer : Dialer}
    (running : dialer.intervals = dialer.heartbeatTimer.toList) :
    dialer.stopHeartbeat = { dialer with heartbeatTimer := none, intervals := [] } := by
  rcases dialer with ⟨ws, closed, attempt, _ | timer, sockets, timers, intervals, next⟩ <;>
    cases running
  · rfl
  · simp [stopHeartbeat]

section Phases

variable {dialer : Dialer} {socket : ℕ} {phase : SocketPhase}

theorem isActive_setPhase (dead : phase.isLive = false) :
    (dialer.setPhase socket phase).IsActive ↔ dialer.IsActive ∧ dialer.ws ≠ some socket := by
  constructor
  · rintro ⟨other, otherPhase, wsEq, phaseEq, isLive⟩
    rw [phaseAt_setPhase] at phaseEq
    split at phaseEq
    · next same =>
        rcases Option.map_eq_some_iff.mp phaseEq with ⟨_, -, rfl⟩
        rw [dead] at isLive
        cases isLive
    · next different =>
        refine ⟨⟨other, otherPhase, wsEq, phaseEq, isLive⟩, fun same => different ?_⟩
        exact Option.some.inj (same.symm.trans wsEq)
  · rintro ⟨⟨other, otherPhase, wsEq, phaseEq, isLive⟩, notCurrent⟩
    refine ⟨other, otherPhase, wsEq, ?_, isLive⟩
    rw [phaseAt_setPhase, if_neg, phaseEq]
    rintro rfl
    exact notCurrent wsEq

theorem OnlyCurrent.setPhase (only : dialer.OnlyCurrent)
    (kept : phase.isLive = true → dialer.ws = some socket) :
    (dialer.setPhase socket phase).OnlyCurrent := by
  intro other otherPhase phaseEq isLive
  rw [phaseAt_setPhase] at phaseEq
  split at phaseEq
  · next same =>
      rcases Option.map_eq_some_iff.mp phaseEq with ⟨_, -, rfl⟩
      exact same ▸ kept isLive
  · exact only other otherPhase phaseEq isLive

theorem OnlyCurrent.connect (only : dialer.OnlyCurrent) (inactive : ¬dialer.IsActive)
    (rejoins : Bool) : (dialer.connect rejoins).OnlyCurrent := by
  intro other otherPhase phaseEq isLive
  rw [phaseAt_connect] at phaseEq
  split at phaseEq
  · next new => exact congrArg some new.symm
  · exact absurd ⟨other, otherPhase, only other _ phaseEq isLive, phaseEq, isLive⟩ inactive

theorem Steady.setPhase (steady : dialer.Steady) (dead : phase.isLive = false) :
    (dialer.setPhase socket phase).Steady where
  only := steady.only.setPhase fun isLive => by rw [dead] at isLive; cases isLive
  timers := steady.timers
  unset active := steady.unset ((isActive_setPhase dead).mp active).1
  running := steady.running

theorem Steady.stopHeartbeat (steady : dialer.Steady) : dialer.stopHeartbeat.Steady := by
  rw [stopHeartbeat_eq steady.running]
  exact ⟨steady.only, steady.timers, steady.unset, rfl⟩

theorem Steady.scheduleReconnect (steady : dialer.Steady) (unset : dialer.timers = [])
    (inactive : ¬dialer.IsActive) : dialer.scheduleReconnect.Steady where
  only := steady.only
  timers := by simp [Dialer.scheduleReconnect, unset]
  unset active := absurd active inactive
  running := steady.running

theorem IdleBut.inactive (idle : dialer.IdleBut socket) (dead : phase.isLive = false) :
    ¬(dialer.setPhase socket phase).IsActive := by
  intro active
  rcases (isActive_setPhase dead).mp active with ⟨wasActive, notCurrent⟩
  exact notCurrent (idle.others wasActive)

end Phases

theorem not_isLive_close (found : DialedSocket) : found.close.phase.isLive = false := by
  rcases found with ⟨phase, rejoins⟩
  cases phase <;> rfl

theorem Steady.disconnect {dialer : Dialer} (steady : dialer.Steady) :
    dialer.disconnect.Steady := by
  have stopped : ({ dialer with closed := true } : Dialer).stopHeartbeat =
      { dialer with closed := true, heartbeatTimer := none, intervals := [] } :=
    stopHeartbeat_eq steady.running
  unfold Dialer.disconnect
  rw [stopped]
  rcases wsEq : dialer.ws with _ | current
  · dsimp only
    refine ⟨fun socket phase phaseEq isLive => ?_, steady.timers, ?_, rfl⟩
    · exact absurd (steady.only socket phase phaseEq isLive) (by simp [wsEq])
    · rintro ⟨socket, phase, isCurrent, -⟩
      cases isCurrent
  · dsimp only
    refine ⟨fun socket phase phaseEq isLive => ?_, steady.timers, ?_, rfl⟩
    · rcases Option.map_eq_some_iff.mp phaseEq with ⟨found, foundEq, rfl⟩
      have changed :=
        (getElem?_onSocket dialer current DialedSocket.close socket).symm.trans foundEq
      exfalso
      split at changed
      · rcases Option.map_eq_some_iff.mp changed with ⟨before, -, rfl⟩
        rw [not_isLive_close] at isLive
        cases isLive
      · next different =>
          have wasCurrent := steady.only socket found.phase (by rw [phaseAt, changed]; rfl) isLive
          exact different (Option.some.inj (wsEq.symm.trans wasCurrent))
    · rintro ⟨socket, phase, isCurrent, -⟩
      cases isCurrent

theorem Steady.opened {dialer : Dialer} {socket : ℕ} (steady : dialer.Steady)
    (connecting : dialer.phaseAt socket = some .connecting)
    (quiet : dialer.heartbeatTimer = none) :
    (dialer.setPhase socket .opened).opened.Steady := by
  have isCurrent := steady.only socket _ connecting rfl
  have active : dialer.IsActive := ⟨socket, .connecting, isCurrent, connecting, rfl⟩
  refine ⟨steady.only.setPhase fun _ => isCurrent, steady.timers, fun _ => steady.unset active, ?_⟩
  have running := steady.running
  rw [quiet, Option.toList_none] at running
  simp [Dialer.opened, startHeartbeat, Dialer.setPhase, onSocket, running]

theorem Steady.step {dialer next : Dialer} {event : DialEvent} (steady : dialer.Steady)
    (careful : dialer.Careful event) (taken : Step dialer event next) : next.Steady := by
  cases takes_of_step taken with
  | connect disconnected =>
      have inactive : ¬dialer.IsActive := by
        rintro ⟨socket, phase, isCurrent, -⟩
        rw [disconnected] at isCurrent
        cases isCurrent
      exact ⟨steady.only.connect inactive false, steady.timers, fun _ => careful, steady.running⟩
  | disconnect => exact steady.disconnect
  | opened connecting => exact steady.opened connecting careful
  | rejected retries =>
      have idle := careful retries
      exact (steady.setPhase rfl).scheduleReconnect idle.timers (idle.inactive rfl)
  | erred => exact steady.setPhase rfl
  | shut => exact steady.setPhase rfl
  | ended => exact (steady.setPhase rfl).stopHeartbeat
  | @lost socket unclosed =>
      have idle := careful.resolve_left unclosed
      have ended : (dialer.setPhase socket .closed).Steady := steady.setPhase rfl
      rw [stopHeartbeat_eq ended.running]
      exact ⟨ended.only, by simp [Dialer.scheduleReconnect, Dialer.setPhase, onSocket, idle.timers],
        fun active => absurd active (idle.inactive rfl), rfl⟩
  | @lateTimer index set =>
      refine ⟨steady.only, ?_, fun active => ?_, steady.running⟩
      · exact (List.length_eraseIdx_le ..).trans steady.timers
      · rw [steady.unset active] at set
        cases set
  | @reconnect index set =>
      have inactive : ¬dialer.IsActive := by
        intro active
        rw [steady.unset active] at set
        cases set
      have none : dialer.timers.eraseIdx index = [] := by
        have short := steady.timers
        rw [← List.length_eq_zero_iff, List.length_eraseIdx_of_lt set]
        omega
      refine ⟨steady.only.connect inactive true, ?_, fun _ => none, steady.running⟩
      exact (List.length_eraseIdx_le ..).trans steady.timers

/-- Where a timer has been set, nothing else is connecting or open. -/
theorem SingleConnection.idleBut {dialer later : Dialer} {socket : ℕ} {phase : SocketPhase}
    (single : later.SingleConnection) (dead : phase.isLive = false)
    (timers : later.timers.length = dialer.timers.length + 1)
    (active : (dialer.setPhase socket phase).IsActive → later.IsActive) :
    dialer.IdleBut socket := by
  have connections := single.connections
  refine ⟨List.length_eq_zero_iff.mp (by omega), fun wasActive => ?_⟩
  by_contra notCurrent
  have counted := live_pos (active ((isActive_setPhase dead).mpr ⟨wasActive, notCurrent⟩))
  omega

/-- A step that keeps a single connection is careful. -/
theorem Careful.of_single {dialer next : Dialer} {event : DialEvent} (steady : dialer.Steady)
    (single : next.SingleConnection) (taken : Step dialer event next) : dialer.Careful event := by
  cases takes_of_step taken with
  | connect =>
      have active : (dialer.connect false).IsActive :=
        ⟨dialer.sockets.length, .connecting, rfl, by rw [phaseAt_connect, if_pos rfl], rfl⟩
      have counted := live_pos active
      have connections := single.connections
      have timers : (dialer.connect false).timers = dialer.timers := rfl
      rw [timers] at connections
      exact List.length_eq_zero_iff.mp (by omega)
  | opened =>
      have heartbeats := single.heartbeats
      simp only [Dialer.opened, startHeartbeat, Dialer.setPhase, onSocket, List.length_append,
        List.length_singleton] at heartbeats
      have none : dialer.intervals = [] := List.length_eq_zero_iff.mp (by omega)
      have running := steady.running
      rw [none] at running
      exact Option.toList_eq_nil_iff.mp running.symm
  | rejected =>
      intro _
      exact single.idleBut rfl (by simp [scheduleReconnect, Dialer.setPhase, onSocket]) id
  | erred settled => exact fun retries => absurd retries settled
  | ended isClosed => exact .inl isClosed
  | @lost socket =>
      refine .inr ?_
      rw [stopHeartbeat_eq (steady.setPhase rfl).running] at single
      exact single.idleBut rfl (by simp [scheduleReconnect, Dialer.setPhase, onSocket]) id
  | disconnect => trivial
  | shut => trivial
  | lateTimer => trivial
  | reconnect => trivial

theorem steady_start : start.Steady where
  only := by
    intro socket phase phaseEq _
    rw [start, phaseAt_connect] at phaseEq
    split at phaseEq
    · next first => exact congrArg some first.symm
    · cases phaseEq
  timers := Nat.zero_le 1
  unset _ := rfl
  running := rfl

end Dialer

/-- In a run of careful steps there is a single connection in every state; and every run
through such states takes careful steps only. -/
theorem single_connection_runs (events : List DialEvent) (dialer : Dialer) :
    (Run (Guarded Dialer.Careful Dialer.Step) Dialer.start events dialer →
      dialer.SingleConnection) ∧
    (Run (Guarded Dialer.Careful Dialer.Step) Dialer.start events dialer ↔
      Run (Into Dialer.SingleConnection Dialer.Step) Dialer.start events dialer) := by
  have equal : Run (Guarded Dialer.Careful Dialer.Step) Dialer.start events dialer ↔
      Run (Into Dialer.SingleConnection Dialer.Step) Dialer.start events dialer :=
    @Run.guarded_iff_into_of_invariant _ _ _ _ Dialer.Steady _ Dialer.Steady.single
      Dialer.Steady.step Dialer.Careful.of_single _ _ _ Dialer.steady_start
  refine ⟨fun run => ?_, equal⟩
  apply Dialer.Steady.single
  apply run.invariant _ Dialer.steady_start
  intro source event target steady step
  exact steady.step step.1 step.2

/-- A reconnect that fails sets two timers; and a timer that `disconnect` has left, or the
late close event of its socket, meets the next `connect`. -/
theorem second_connections_reached :
    (∃ dialer, Run Dialer.Step Dialer.start
      [.opened 0, .closed 0, .timer 0, .erred 1, .closed 1] dialer ∧
        ¬dialer.SingleConnection) ∧
    (∃ dialer, Run Dialer.Step Dialer.start
      [.opened 0, .closed 0, .disconnect, .connect] dialer ∧ ¬dialer.SingleConnection) ∧
    ∃ dialer, Run Dialer.Step Dialer.start
      [.opened 0, .disconnect, .connect, .closed 0] dialer ∧ ¬dialer.SingleConnection := by
  refine ⟨⟨_, Run.of_play rfl, ?_⟩, ⟨_, Run.of_play rfl, ?_⟩, ⟨_, Run.of_play rfl, ?_⟩⟩ <;>
    exact fun single => absurd single.connections (by decide)

end Mercury.Sdk
