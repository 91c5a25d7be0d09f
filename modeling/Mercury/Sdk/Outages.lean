import Mercury.Sdk.Reconnects

/-!
# Outages

A reconnect that fails sets two timers, one as its promise is rejected and one as its socket
closes, where one timer had started it. So each attempt that fails leaves one timer more than
there were, and each of these makes a connection of its own when the gateway is back.
-/

namespace Mercury.Sdk

open Foundations

/-! ## Timers to be set -/

/-- The timers that the socket is going to set, unless it opens. -/
def DialedSocket.dues (socket : DialedSocket) : ℕ :=
  match socket.phase with
  | .connecting | .failing => if socket.rejoins then 2 else 1
  | .opened | .closing | .erred => 1
  | .closed => 0

namespace DialEvent

/-- A reconnect timer fires, and the transport dials. -/
def attempts : DialEvent → ℕ
  | .timer _ => 1
  | _ => 0

/-- An attempt opens; the first socket is none. -/
def reopens : DialEvent → ℕ
  | .opened socket => if socket = 0 then 0 else 1
  | _ => 0

/-- The application calls nothing. -/
def Waits : DialEvent → Prop
  | .connect | .disconnect => False
  | _ => True

end DialEvent

theorem sum_dues_modify {sockets : List DialedSocket} {socket : ℕ} {found : DialedSocket}
    (foundEq : sockets[socket]? = some found) (change : DialedSocket → DialedSocket) :
    ((sockets.modify socket change).map DialedSocket.dues).sum + found.dues =
      (sockets.map DialedSocket.dues).sum + (change found).dues := by
  induction sockets generalizing socket with
  | nil => cases foundEq
  | cons first later ih =>
      cases socket with
      | zero =>
          cases foundEq
          simp only [List.modify_zero_cons, List.map_cons, List.sum_cons]
          omega
      | succ socket =>
          have rest := ih foundEq
          simp only [List.modify_succ_cons, List.map_cons, List.sum_cons]
          omega

namespace Dialer

/-- The timers that are set, and those that are going to be. -/
def load (dialer : Dialer) : ℕ :=
  dialer.timers.length + (dialer.sockets.map DialedSocket.dues).sum

/-- The transport goes on dialing: every socket but the first is a reconnect. -/
structure Dialing (dialer : Dialer) : Prop where
  unclosed : dialer.closed = false
  dialed : dialer.sockets ≠ []
  rejoins : ∀ {socket found}, dialer.sockets[socket]? = some found →
    (found.rejoins = true ↔ socket ≠ 0)

section Phases

variable {dialer : Dialer} {socket : ℕ} {phase : SocketPhase} {found : DialedSocket}

theorem load_setPhase (foundEq : dialer.sockets[socket]? = some found) :
    (dialer.setPhase socket phase).load + found.dues =
      dialer.load + ({ found with phase := phase } : DialedSocket).dues := by
  have moved := sum_dues_modify foundEq fun found => { found with phase := phase }
  simp only [load, Dialer.setPhase, onSocket]
  omega

theorem Dialing.setPhase (dialing : dialer.Dialing) : (dialer.setPhase socket phase).Dialing where
  unclosed := dialing.unclosed
  dialed := by
    have modified : (dialer.setPhase socket phase).sockets.length = dialer.sockets.length :=
      List.length_modify ..
    intro none
    rw [none] at modified
    exact dialing.dialed (List.length_eq_zero_iff.mp modified.symm)
  rejoins := by
    intro other changed changedEq
    have before := (getElem?_onSocket dialer socket _ other).symm.trans changedEq
    split at before
    · rcases Option.map_eq_some_iff.mp before with ⟨earlier, earlierEq, rfl⟩
      exact (dialing.rejoins earlierEq :)
    · exact dialing.rejoins before

theorem load_scheduleReconnect (dialer : Dialer) :
    dialer.scheduleReconnect.load = dialer.load + 1 := by
  simp only [load, scheduleReconnect, List.length_append, List.length_singleton]
  omega

theorem stopHeartbeat_kept (dialer : Dialer) :
    dialer.stopHeartbeat.load = dialer.load ∧ (dialer.Dialing → dialer.stopHeartbeat.Dialing) := by
  unfold stopHeartbeat
  split
  · exact ⟨rfl, id⟩
  · exact ⟨rfl, fun dialing => ⟨dialing.unclosed, dialing.dialed, dialing.rejoins⟩⟩

/-- An error before the socket opened leaves a timer for one that was to be set. -/
theorem load_erred (dialing : dialer.Dialing) (foundEq : dialer.sockets[socket]? = some found)
    (alive : found.phase ∈ [.connecting, .opened, .failing, .closing]) :
    ((dialer.setPhase socket .erred).erred found).load = dialer.load ∧
      ((dialer.setPhase socket .erred).erred found).Dialing := by
  have moved := @load_setPhase dialer socket .erred found foundEq
  have set := @Dialing.setPhase dialer socket .erred dialing
  unfold Dialer.erred
  split
  · next retries =>
      refine ⟨?_, ⟨set.unclosed, set.dialed, set.rejoins⟩⟩
      rw [load_scheduleReconnect]
      rcases retries with ⟨rejoins, connecting | failing⟩
      · simp only [DialedSocket.dues, connecting, rejoins, if_true] at moved
        omega
      · simp only [DialedSocket.dues, failing, rejoins, if_true] at moved
        omega
  · next settled =>
      refine ⟨?_, set⟩
      have due : found.dues = 1 := by
        simp only [List.mem_cons, List.not_mem_nil, or_false] at alive
        rcases alive with phase | phase | phase | phase <;>
          simp_all [DialedSocket.dues]
      rw [due] at moved
      exact Nat.add_right_cancel moved

/-- The close event leaves a timer for the one that was to be set. -/
theorem load_ended (dialing : dialer.Dialing) (foundEq : dialer.sockets[socket]? = some found)
    (alive : found.phase ∈ [.opened, .closing, .erred]) :
    (dialer.setPhase socket .closed).ended.load = dialer.load ∧
      (dialer.setPhase socket .closed).ended.Dialing := by
  have moved := @load_setPhase dialer socket .closed found foundEq
  have due : found.dues = 1 := by
    simp only [List.mem_cons, List.not_mem_nil, or_false] at alive
    rcases alive with phase | phase | phase <;> simp [DialedSocket.dues, phase]
  rw [due] at moved
  rcases stopHeartbeat_kept (dialer.setPhase socket .closed) with ⟨same, kept⟩
  have stopped := kept dialing.setPhase
  have unclosed := stopped.unclosed
  simp only [ended, unclosed, Bool.false_eq_true, if_false]
  refine ⟨?_, ⟨stopped.unclosed, stopped.dialed, stopped.rejoins⟩⟩
  rw [load_scheduleReconnect, same]
  exact moved

/-- A timer makes a socket that is to set two. -/
theorem load_retry {index : ℕ} (dialing : dialer.Dialing) (set : index < dialer.timers.length) :
    ({ dialer with timers := dialer.timers.eraseIdx index } : Dialer).retry.load =
        dialer.load + 1 ∧
      ({ dialer with timers := dialer.timers.eraseIdx index } : Dialer).retry.Dialing := by
  have unclosed := dialing.unclosed
  simp only [retry, unclosed, Bool.false_eq_true, if_false]
  refine ⟨?_, ⟨rfl, by simp [connect], ?_⟩⟩
  · simp only [load, connect, List.length_eraseIdx_of_lt set, List.map_append, List.sum_append,
      List.map_cons, List.map_nil, List.sum_cons, List.sum_nil, DialedSocket.dues, if_true]
    omega
  · intro other attempt attemptEq
    simp only [connect, List.getElem?_append] at attemptEq
    split at attemptEq
    · exact dialing.rejoins attemptEq
    · next beyond =>
        have before := List.length_pos_iff.mpr dialing.dialed
        rw [List.mem_singleton.mp (List.mem_of_getElem? attemptEq)]
        exact iff_of_true rfl (by omega)

end Phases

/-- An attempt adds to the load, and takes it away again if it opens. -/
theorem load_step {dialer next : Dialer} {event : DialEvent} (dialing : dialer.Dialing)
    (waits : event.Waits) (taken : Step dialer event next) :
    next.load + event.reopens = dialer.load + event.attempts ∧ next.Dialing := by
  cases event with
  | connect => exact waits.elim
  | disconnect => exact waits.elim
  | opened socket =>
      rcases Option.bind_eq_some_iff.mp taken with ⟨found, foundEq, opened⟩
      rcases Option.ite_none_right_eq_some.mp opened with ⟨connecting, nextEq⟩
      cases nextEq
      have moved := @load_setPhase dialer socket .opened found foundEq
      have rejoins := dialing.rejoins foundEq
      have set := @Dialing.setPhase dialer socket .opened dialing
      refine ⟨?_, ⟨set.unclosed, set.dialed, set.rejoins⟩⟩
      have same : (dialer.setPhase socket .opened).opened.load =
          (dialer.setPhase socket .opened).load := rfl
      simp only [DialedSocket.dues, connecting, rejoins] at moved
      simp only [same, DialEvent.reopens, DialEvent.attempts]
      split_ifs at moved ⊢ <;> omega
  | erred socket =>
      rcases Option.bind_eq_some_iff.mp taken with ⟨found, foundEq, erred⟩
      rcases Option.ite_none_right_eq_some.mp erred with ⟨alive, nextEq⟩
      cases nextEq
      exact load_erred dialing foundEq alive
  | shut socket =>
      rcases Option.bind_eq_some_iff.mp taken with ⟨found, foundEq, shut⟩
      rcases Option.ite_none_right_eq_some.mp shut with ⟨opened, nextEq⟩
      cases nextEq
      have moved := @load_setPhase dialer socket .closing found foundEq
      simp only [DialedSocket.dues, opened] at moved
      exact ⟨Nat.add_right_cancel moved, dialing.setPhase⟩
  | closed socket =>
      rcases Option.bind_eq_some_iff.mp taken with ⟨found, foundEq, closed⟩
      rcases Option.ite_none_right_eq_some.mp closed with ⟨alive, nextEq⟩
      cases nextEq
      exact load_ended dialing foundEq alive
  | timer index =>
      rcases Option.ite_none_right_eq_some.mp taken with ⟨set, nextEq⟩
      cases nextEq
      exact load_retry dialing set

theorem dialing_start : start.Dialing where
  unclosed := rfl
  dialed := by simp [start, connect]
  rejoins := by
    intro socket found foundEq
    rcases socket with _ | socket
    · cases foundEq
      simp
    · cases foundEq

theorem load_run {events : List DialEvent} {source dialer : Dialer} (dialing : source.Dialing)
    (run : Run Step source events dialer) (waits : ∀ event ∈ events, event.Waits) :
    dialer.load + (events.map DialEvent.reopens).sum =
        source.load + (events.map DialEvent.attempts).sum ∧ dialer.Dialing := by
  induction run with
  | refl => exact ⟨rfl, dialing⟩
  | @snoc middle target events event _ last ih =>
      rcases ih fun earlier earlierMem => waits earlier (List.mem_append_left _ earlierMem) with
        ⟨counted, stays⟩
      rcases load_step stays (waits event (by simp)) last with ⟨moved, dialing⟩
      refine ⟨?_, dialing⟩
      simp only [List.map_append, List.sum_append, List.map_cons, List.map_nil, List.sum_cons,
        List.sum_nil]
      omega

/-- Nothing is on its way: no timer is set, and every socket is open or closed. -/
structure Settled (dialer : Dialer) : Prop where
  timers : dialer.timers = []
  sockets : ∀ socket ∈ dialer.sockets, socket.phase = .opened ∨ socket.phase = .closed

theorem Settled.load_eq {dialer : Dialer} (settled : dialer.Settled) :
    dialer.load = dialer.live := by
  have dues : ∀ sockets : List DialedSocket,
      (∀ socket ∈ sockets, socket.phase = .opened ∨ socket.phase = .closed) →
        (sockets.map DialedSocket.dues).sum = sockets.countP fun socket => socket.phase.isLive := by
    intro sockets calm
    induction sockets with
    | nil => rfl
    | cons first later ih =>
        rw [List.map_cons, List.sum_cons, List.countP_cons,
          ih fun socket socketMem => calm socket (List.mem_cons_of_mem _ socketMem), Nat.add_comm]
        rcases calm first (by simp) with phase | phase <;>
          simp [DialedSocket.dues, SocketPhase.isLive, phase]
  rw [load, settled.timers, List.length_nil, Nat.zero_add, live, dues _ settled.sockets]

end Dialer

/-- While the application waits, every attempt of the transport that fails is kept as a timer:
once everything is settled again, there is a connection for the first socket and another for
each attempt that did not open; and while all sockets are closed, as many timers. -/
theorem failed_attempts_kept {events : List DialEvent} {dialer : Dialer}
    (run : Run Dialer.Step Dialer.start events dialer)
    (waits : ∀ event ∈ events, event.Waits) :
    (dialer.Settled → dialer.live + (events.map DialEvent.reopens).sum =
        1 + (events.map DialEvent.attempts).sum) ∧
      ((∀ socket ∈ dialer.sockets, socket.phase = .closed) →
        dialer.timers.length + (events.map DialEvent.reopens).sum =
          1 + (events.map DialEvent.attempts).sum) := by
  have counted := (Dialer.load_run Dialer.dialing_start run waits).1
  have started : Dialer.start.load = 1 := rfl
  rw [started] at counted
  refine ⟨fun settled => settled.load_eq ▸ counted, fun closed => ?_⟩
  have none : (dialer.sockets.map DialedSocket.dues).sum = 0 := by
    rw [List.sum_eq_zero_iff_forall_eq_nat]
    intro due dueMem
    rcases List.mem_map.mp dueMem with ⟨socket, socketMem, rfl⟩
    rw [DialedSocket.dues, closed socket socketMem]
  rw [Dialer.load, none] at counted
  exact counted

/-- Two attempts fail before the gateway is back, and three connections open. -/
def outage : List DialEvent :=
  [.opened 0, .shut 0, .closed 0, .timer 0, .erred 1, .closed 1, .timer 0, .erred 2, .closed 2,
    .timer 0, .opened 3, .timer 0, .opened 4, .timer 0, .opened 5]

theorem failed_attempts_kept_of_outage : ∃ dialer,
    Run Dialer.Step Dialer.start outage dialer ∧ dialer.Settled ∧ dialer.live = 3 := by
  have played : ∃ dialer, Run.play Dialer.step Dialer.start outage = some dialer ∧
      dialer.timers = [] ∧ ∀ socket ∈ dialer.sockets, socket.phase = .opened ∨
        socket.phase = .closed :=
    ⟨_, rfl, by decide, by decide⟩
  rcases played with ⟨dialer, reached, timers, sockets⟩
  have settled : dialer.Settled := ⟨timers, sockets⟩
  have waits : ∀ event ∈ outage, event.Waits := by
    simp [outage, DialEvent.Waits]
  have counted := (failed_attempts_kept (Run.of_play reached) waits).1 settled
  have sums : (outage.map DialEvent.reopens).sum = 3 ∧ (outage.map DialEvent.attempts).sum = 5 :=
    ⟨rfl, rfl⟩
  rw [sums.1, sums.2] at counted
  exact ⟨dialer, Run.of_play reached, settled, by omega⟩

end Mercury.Sdk
