import Mathlib.Data.List.Perm.Subperm
import Mercury.Sdk.TransportRuns

/-!
# Refs in flight

Every request that a connection still has to answer, and every answer on its way,
carries a ref of its own, and the transport expects under it what was asked. Only
`disconnect` forgets refs whose answers may still arrive, on another connection
than the one it closes. Frames carry refs of 32 bits, so this holds as long as
the refs fit.
-/

namespace Mercury.Sdk

open Foundations Gateway

/-- The ref of a request, and what it asks for. -/
def asks : Frame → Option (ℕ × PendingReply)
  | .join ref topic => some (ref, .join topic)
  | .push ref _ _ _ => some (ref, .push)
  | _ => none

def Connection.inFlight (connection : Connection) : List (ℕ × PendingReply) :=
  connection.incoming.filterMap ServerMessage.answers ++ connection.requests.filterMap asks

def System.inFlight (system : System) : List (ℕ × PendingReply) :=
  system.connections.flatMap Connection.inFlight

/-- The transport expects what is in flight, except for what it has forgotten. -/
structure Tracked {Callback : Type} (forgets : Prop) (transport : Transport Callback)
    (inFlight : List (ℕ × PendingReply)) : Prop where
  pending_le : ∀ ref pending, transport.pendingReplies ref = some pending → ref ≤ transport.ref
  joinRefs : ∀ ref topic, transport.pendingJoinRefs ref = some topic ↔
    transport.pendingReplies ref = some (.join topic)
  distinct : (inFlight.map Prod.fst).Nodup
  sent : ∀ asked ∈ inFlight, asked.1 ≤ transport.ref
  expected : ∀ asked ∈ inFlight, transport.pendingReplies asked.1 = some asked.2 ∨
    (forgets ∧ transport.pendingReplies asked.1 = none)

namespace Tracked

variable {Callback : Type} {forgets : Prop} {transport next : Transport Callback}
  {inFlight fewer : List (ℕ × PendingReply)}

theorem of_subperm (tracked : Tracked forgets transport inFlight)
    (within : List.Subperm fewer inFlight) : Tracked forgets transport fewer where
  pending_le := tracked.pending_le
  joinRefs := tracked.joinRefs
  distinct := by
    rcases within with ⟨kept, perm, sublist⟩
    exact (perm.map Prod.fst).nodup_iff.mp (tracked.distinct.sublist (sublist.map Prod.fst))
  sent asked askedMem := tracked.sent asked (within.subset askedMem)
  expected asked askedMem := tracked.expected asked (within.subset askedMem)

theorem of_same (tracked : Tracked forgets transport inFlight) (ref : next.ref = transport.ref)
    (pendingReplies : next.pendingReplies = transport.pendingReplies)
    (pendingJoinRefs : next.pendingJoinRefs = transport.pendingJoinRefs) :
    Tracked forgets next inFlight where
  pending_le := by simpa only [ref, pendingReplies] using tracked.pending_le
  joinRefs := by simpa only [pendingJoinRefs, pendingReplies] using tracked.joinRefs
  distinct := tracked.distinct
  sent := by simpa only [ref] using tracked.sent
  expected := by simpa only [pendingReplies] using tracked.expected

theorem nextRef (tracked : Tracked forgets transport inFlight) :
    Tracked forgets transport.nextRef inFlight where
  pending_le ref pending known := Nat.le_succ_of_le (tracked.pending_le ref pending known)
  joinRefs := tracked.joinRefs
  distinct := tracked.distinct
  sent asked askedMem := Nat.le_succ_of_le (tracked.sent asked askedMem)
  expected := tracked.expected

/-- A fresh ref can be waited for. -/
theorem ask (tracked : Tracked forgets transport inFlight) (pending : PendingReply)
    (ref : next.ref = transport.ref + 1)
    (pendingReplies : next.pendingReplies =
      Function.update transport.pendingReplies (transport.ref + 1) (some pending))
    (pendingJoinRefs : ∀ other topic, next.pendingJoinRefs other = some topic ↔
      next.pendingReplies other = some (.join topic)) :
    Tracked forgets next (inFlight ++ [(transport.ref + 1, pending)]) where
  pending_le other known := by
    rw [pendingReplies, ref, Function.update_apply]
    split
    · next fresh =>
        intro _
        omega
    · intro earlier
      exact Nat.le_succ_of_le (tracked.pending_le other known earlier)
  joinRefs := pendingJoinRefs
  distinct := by
    rw [List.map_append, List.map_singleton, List.nodup_append]
    refine ⟨tracked.distinct, List.nodup_singleton _, ?_⟩
    intro earlier earlierMem fresh freshMem same
    rcases List.mem_map.mp earlierMem with ⟨asked, askedMem, rfl⟩
    have := tracked.sent asked askedMem
    have := List.mem_singleton.mp freshMem
    omega
  sent asked askedMem := by
    rw [ref]
    rcases List.mem_append.mp askedMem with earlier | new
    · exact Nat.le_succ_of_le (tracked.sent asked earlier)
    · rw [List.mem_singleton.mp new]
  expected asked askedMem := by
    rw [pendingReplies]
    rcases List.mem_append.mp askedMem with earlier | new
    · have := tracked.sent asked earlier
      rw [Function.update_of_ne (by omega)]
      exact tracked.expected asked earlier
    · rw [List.mem_singleton.mp new]
      simp

theorem join (tracked : Tracked forgets transport inFlight) (topic : Bytes) :
    Tracked forgets (transport.join topic).1
      (inFlight ++ [(transport.ref + 1, .join topic)]) := by
  apply tracked.ask (.join topic) rfl rfl
  intro other name
  simp only [Transport.join, Transport.nextRef, Function.update_apply]
  split
  · simp
  · exact tracked.joinRefs other name

theorem push (tracked : Tracked forgets transport inFlight) :
    Tracked forgets { transport.nextRef with
        pendingReplies :=
          Function.update transport.pendingReplies (transport.ref + 1) (some .push) }
      (inFlight ++ [(transport.ref + 1, .push)]) := by
  apply tracked.ask .push rfl rfl
  intro other name
  simp only [Transport.nextRef, Function.update_apply]
  split
  · next fresh =>
      have unknown : ¬transport.pendingJoinRefs other = some name := by
        rw [tracked.joinRefs]
        intro known
        have := tracked.pending_le other _ known
        omega
      simp [unknown]
  · exact tracked.joinRefs other name

/-- A ref that nothing in flight carries may be deleted. -/
theorem drop (tracked : Tracked forgets transport inFlight) (ref : ℕ)
    (absent : ∀ asked ∈ inFlight, asked.1 ≠ ref) (sameRef : next.ref = transport.ref)
    (pendingReplies : next.pendingReplies = Function.update transport.pendingReplies ref none)
    (pendingJoinRefs : next.pendingJoinRefs =
      Function.update transport.pendingJoinRefs ref none) :
    Tracked forgets next inFlight where
  pending_le other known := by
    rw [pendingReplies, sameRef, Function.update_apply]
    split
    · simp
    · exact tracked.pending_le other known
  joinRefs other topic := by
    rw [pendingReplies, pendingJoinRefs, Function.update_apply, Function.update_apply]
    split
    · simp
    · exact tracked.joinRefs other topic
  distinct := tracked.distinct
  sent := by simpa only [sameRef] using tracked.sent
  expected asked askedMem := by
    rw [pendingReplies, Function.update_of_ne (absent asked askedMem)]
    exact tracked.expected asked askedMem

theorem disconnect (tracked : Tracked forgets transport inFlight) (forgetful : forgets) :
    Tracked forgets transport.disconnect inFlight where
  pending_le _ _ known := by cases known
  joinRefs _ _ := by simp [Transport.disconnect]
  distinct := tracked.distinct
  sent := tracked.sent
  expected _ _ := Or.inr ⟨forgetful, rfl⟩

theorem forget (tracked : Tracked forgets transport inFlight) (topic : Bytes) :
    Tracked forgets (transport.forget topic) inFlight := by
  refine tracked.of_same ?_ ?_ ?_ <;> (unfold Transport.forget; dsimp only; split <;> rfl)

/-- The rejoins of a reconnect ask for each topic under a ref of its own. -/
theorem rejoin (tracked : Tracked forgets transport inFlight) (topics : List Bytes)
    (fits : transport.ref + topics.length < 256 ^ 4) :
    Tracked forgets (transport.rejoin topics).1
      (inFlight ++ ((transport.rejoin topics).2.map Frame.parse).filterMap asks) := by
  induction topics generalizing transport inFlight with
  | nil => simpa [Transport.rejoin] using tracked
  | cons topic rest ih =>
      have forgotRef : (transport.forget topic).ref = transport.ref := by
        unfold Transport.forget
        dsimp only
        split <;> rfl
      have joined := (tracked.forget topic).join topic
      rw [List.length_cons] at fits
      have later := ih joined (by
        simp only [Transport.join, Transport.nextRef, forgotRef]
        omega)
      have frame : Frame.parse ((transport.forget topic).join topic).2 =
          .join (transport.ref + 1) topic := by
        rw [← forgotRef]
        exact parse_joinFrame topic (by
          simp only [Transport.nextRef, forgotRef]
          omega)
      have asked : asks (.join (transport.ref + 1) topic) =
          some (transport.ref + 1, .join topic) := rfl
      rw [Transport.rejoin]
      simp only [List.map_cons, frame]
      rw [List.filterMap_cons_some asked]
      simpa only [forgotRef, List.append_assoc, List.singleton_append] using later

/-- A handled reply is waited for no longer. -/
theorem handleReply (frame : DecodedFrame) (pending : PendingReply)
    (tracked : Tracked forgets transport ((frame.ref, pending) :: inFlight)) :
    Tracked forgets (transport.handleReply frame) inFlight := by
  have others := tracked.of_subperm (List.sublist_cons_self _ _).subperm
  have absent : ∀ asked ∈ inFlight, asked.1 ≠ frame.ref := by
    intro asked askedMem same
    have distinct := tracked.distinct
    rw [List.map_cons, List.nodup_cons] at distinct
    exact distinct.1 (List.mem_map.mpr ⟨asked, askedMem, same⟩)
  rcases transport.handleReply_refs tracked.joinRefs frame with ⟨ref, replies, joins⟩
  exact others.drop frame.ref absent ref replies joins

end Tracked

/-! ## What the actions do to the refs in flight -/

/-- A changed connection changes its own part of what is in flight. -/
theorem flatMap_modify {Item Part : Type} (part : Item → List Part) (change : Item → Item)
    {items : List Item} {index : ℕ} {item : Item} (found : items[index]? = some item) :
    ∃ others, List.Perm (items.flatMap part) (part item ++ others) ∧
      List.Perm ((items.modify index change).flatMap part) (part (change item) ++ others) := by
  induction items generalizing index with
  | nil => simp at found
  | cons first rest ih =>
      cases index with
      | zero =>
          obtain rfl : first = item := by simpa using found
          exact ⟨rest.flatMap part, by simp, by simp⟩
      | succ index =>
          rcases ih (by simpa using found) with ⟨others, before, after⟩
          have swap : ∀ mine : List Part,
              List.Perm (part first ++ (mine ++ others)) (mine ++ (part first ++ others)) := by
            intro mine
            rw [← List.append_assoc, ← List.append_assoc]
            exact List.perm_append_comm.append_right others
          refine ⟨part first ++ others, ?_, ?_⟩
          · rw [List.flatMap_cons]
            exact (before.append_left _).trans (swap _)
          · rw [List.modify_succ_cons, List.flatMap_cons]
            exact (after.append_left _).trans (swap _)

namespace System

variable {system : System} {socket : ℕ} {connection : Connection}

/-- A connection that keeps what it has in flight, or loses some of it. -/
theorem inFlight_onConnection {change : Connection → Connection} {added : List (ℕ × PendingReply)}
    (within : ∀ connection, system.connections[socket]? = some connection →
      List.Subperm (change connection).inFlight (connection.inFlight ++ added)) :
    List.Subperm (system.onConnection socket change).inFlight (system.inFlight ++ added) := by
  rcases found : system.connections[socket]? with _ | connection
  · have unchanged : system.connections.modify socket change = system.connections :=
      List.modify_eq_self (List.getElem?_eq_none_iff.mp found)
    rw [inFlight, onConnection, unchanged]
    exact (List.sublist_append_left _ _).subperm
  · rcases flatMap_modify Connection.inFlight change found with ⟨others, before, after⟩
    have more : List.Perm (connection.inFlight ++ added ++ others) (system.inFlight ++ added) := by
      rw [List.append_assoc]
      refine (List.perm_append_comm.append_left _).trans ?_
      rw [← List.append_assoc]
      exact before.symm.append_right added
    have grown := (List.subperm_append_right others).mpr (within connection found)
    exact (after.subperm.trans grown).trans more.subperm

theorem inFlight_same {change : Connection → Connection}
    (same : ∀ connection, (change connection).inFlight = connection.inFlight) :
    List.Subperm (system.onConnection socket change).inFlight system.inFlight := by
  have within := @inFlight_onConnection system socket change [] fun connection _ => by
    rw [same, List.append_nil]
  simpa using within

theorem inFlight_post (frames : List Bytes) (system : System) :
    List.Subperm (system.post frames).inFlight
      (system.inFlight ++ (frames.map Frame.parse).filterMap asks) := by
  unfold post
  split
  · apply inFlight_onConnection
    intro connection _
    unfold Connection.post
    split
    · refine (List.Perm.of_eq ?_).subperm
      simp [Connection.inFlight]
    · exact (List.sublist_append_left _ _).subperm
  · exact (List.sublist_append_left _ _).subperm

theorem inFlight_dial (rejoins : Bool) (system : System) :
    (system.dial rejoins).inFlight = system.inFlight := by
  simp [inFlight, dial, Connection.new, Connection.inFlight]

theorem inFlight_answer {next : Connection} {answer : Answer}
    (answered : connection.answer answer = some next) :
    List.Subperm next.inFlight connection.inFlight := by
  unfold Connection.answer at answered
  split at answered
  · next ref topic rest requests =>
      split at answered
      · cases answered
        refine (List.Perm.of_eq ?_).subperm
        simp [Connection.inFlight, Connection.reply, requests, asks, ServerMessage.answers]
      · cases answered
  · next ref topic rest reason requests =>
      cases answered
      refine (List.Perm.of_eq ?_).subperm
      simp [Connection.inFlight, Connection.reply, requests, asks, ServerMessage.answers]
  · next ref topicId event payload rest status data requests =>
      cases answered
      refine (List.Perm.of_eq ?_).subperm
      simp [Connection.inFlight, Connection.reply, requests, asks, ServerMessage.answers]
  · next request rest requests =>
      cases answered
      simp only [Connection.inFlight, requests]
      refine (List.subperm_append_left _).mpr (List.Sublist.subperm ?_)
      exact (List.sublist_cons_self _ _).filterMap _
  · cases answered

theorem inFlight_broadcast {next : Connection} {topic : Bytes} {event : Byte} {payload : Bytes}
    (sent : connection.broadcast topic event payload = some next) :
    next.inFlight = connection.inFlight := by
  unfold Connection.broadcast at sent
  split at sent
  · cases sent
  · split at sent
    · cases sent
      simp [Connection.inFlight, Connection.reply, ServerMessage.answers]
    · cases sent

/-- The next refs fit into a frame. -/
def RefsFit (system : System) : Prop :=
  system.transport.ref + system.transport.joinedTopics.length + 1 < 2 ^ 32

instance (system : System) : Decidable system.RefsFit :=
  inferInstanceAs (Decidable (_ < _))

variable {forgets : Prop} {throws : Registration → Bytes → Bool} {next : System}

theorem post_transport (frames : List Bytes) (system : System) :
    (system.post frames).transport = system.transport := by
  unfold post
  split <;> rfl

/-- What a posted frame asks for is tracked, whether or not it is sent. -/
theorem tracked_post {transport : Transport Registration} (frames : List Bytes)
    (tracked : Tracked forgets transport
      (system.inFlight ++ (frames.map Frame.parse).filterMap asks)) :
    Tracked forgets ({ system with transport := transport }.post frames).transport
      ({ system with transport := transport }.post frames).inFlight := by
  rw [post_transport]
  exact tracked.of_subperm (inFlight_post frames { system with transport := transport })

theorem tracked_join (tracked : Tracked forgets system.transport system.inFlight)
    (fits : RefsFit system) (topic : Bytes) :
    Tracked forgets (system.join topic).transport (system.join topic).inFlight := by
  unfold RefsFit at fits
  have asked : Frame.parse (system.transport.join topic).2 =
      .join (system.transport.ref + 1) topic :=
    parse_joinFrame topic (by simp only [Transport.nextRef]; omega)
  apply tracked_post _
  rw [List.map_singleton, asked]
  exact tracked.join topic

theorem tracked_push (tracked : Tracked forgets system.transport system.inFlight)
    (fits : RefsFit system) (topic : Bytes) (event : Byte) (payload : Bytes) :
    Tracked forgets (system.push topic event payload).transport
      (system.push topic event payload).inFlight := by
  unfold RefsFit at fits
  unfold push Transport.push
  rcases system.transport.topicNameToId topic with _ | topicId
  · exact tracked
  · have asked := @parse_pushFrame_mod (system.transport.ref + 1) topicId event payload (by omega)
    simp only [Option.map_some]
    split
    · apply tracked_post _
      rw [List.map_singleton]
      have frame : Frame.parse (pushFrame system.transport.nextRef.ref topicId event payload) =
          .push (system.transport.ref + 1) (topicId % 256 ^ 2) event payload := asked
      rw [frame]
      exact tracked.push
    · refine tracked.nextRef.drop (system.transport.ref + 1) ?_ rfl ?_ ?_
      · intro pending pendingMem
        have := tracked.sent pending pendingMem
        omega
      · simp [Transport.withdrawPush, Transport.nextRef]
      · have fresh : system.transport.pendingJoinRefs (system.transport.ref + 1) = none := by
          rw [Option.eq_none_iff_forall_ne_some]
          intro name known
          have := tracked.pending_le _ _ ((tracked.joinRefs _ name).mp known)
          omega
        simp [Transport.withdrawPush, Transport.nextRef, ← fresh]

theorem tracked_heartbeat (tracked : Tracked forgets system.transport system.inFlight) :
    Tracked forgets system.heartbeat.transport system.heartbeat.inFlight := by
  apply tracked_post _
  have asked : asks .heartbeat = none := rfl
  rw [List.map_singleton, parse_encodeFrame, if_pos (by simp), List.filterMap_cons_none asked]
  simpa using tracked.nextRef

theorem tracked_opened (tracked : Tracked forgets system.transport system.inFlight)
    (fits : RefsFit system) :
    Tracked forgets (system.opened socket connection).transport
      (system.opened socket connection).inFlight := by
  unfold RefsFit at fits
  have opened : List.Subperm (system.onConnection socket fun connection =>
      { connection with phase := .opened }).inFlight system.inFlight :=
    inFlight_same fun _ => rfl
  unfold System.opened
  dsimp only
  split
  · apply tracked_post _
    exact (tracked.of_subperm opened).rejoin _ (by
      simp only [onConnection]
      omega)
  · exact tracked.of_subperm opened

/-- The message that has arrived is in flight no longer. -/
theorem inFlight_receive {message : ServerMessage}
    (found : system.connections[socket]? = some connection)
    (first : connection.incoming.head? = some message) :
    List.Perm system.inFlight (message.answers.toList ++
      (system.onConnection socket Connection.receive).inFlight) := by
  rcases flatMap_modify Connection.inFlight Connection.receive found with
    ⟨others, before, after⟩
  have received : connection.inFlight =
      message.answers.toList ++ connection.receive.inFlight := by
    rcases connection with ⟨phase, rejoins, requests, accepted, incoming, told, follows⟩
    cases incoming with
    | nil => cases first
    | cons head rest =>
        cases first
        simp only [Connection.inFlight, Connection.receive]
        rcases answered : message.answers with _ | asked
        · simp [answered]
        · simp [answered]
  rw [received, List.append_assoc] at before
  exact before.trans (after.symm.append_left _)

theorem tracked_deliver {message : ServerMessage}
    (tracked : Tracked forgets system.transport system.inFlight) (fits : RefsFit system)
    (found : system.connections[socket]? = some connection)
    (first : connection.incoming.head? = some message) :
    Tracked forgets (system.deliver throws socket message).transport
      (system.deliver throws socket message).inFlight := by
  unfold RefsFit at fits
  have before := tracked.of_subperm (inFlight_receive found first).symm.subperm
  have settled : ∀ ref pending status data topicId,
      message.answers = some (ref, pending) →
      message.encode = replyFrame ref topicId status data →
      Tracked forgets (system.transport.handleMessage message.encode).transport
        (system.onConnection socket Connection.receive).inFlight := by
    intro ref pending status data topicId answered encoded
    rw [answered] at before
    have known : ref ≤ system.transport.ref := before.sent (ref, pending) (by simp)
    rw [encoded, Transport.handleMessage_reply, Nat.mod_eq_of_lt (by omega)]
    exact Tracked.handleReply ⟨FrameType.reply, ref, _, _⟩ pending before
  cases message with
  | joined ref topicId topic => exact settled ref (.join topic) _ _ _ rfl rfl
  | refused ref topic reason => exact settled ref (.join topic) _ _ _ rfl rfl
  | pushed ref topicId status data => exact settled ref .push _ _ _ rfl rfl
  | broadcast topicId topic event payload =>
      have unchanged := Transport.handleMessage_broadcast topicId event payload system.transport
      unfold deliver
      simp only [ServerMessage.encode, unchanged]
      exact before

/-- Every step keeps the refs in flight tracked, as long as only what may forget them
disconnects. -/
theorem tracked_step {action : Action}
    (tracked : Tracked forgets system.transport system.inFlight)
    (forgetful : action = .disconnect → forgets) (fits : RefsFit system)
    (taken : Step throws system action next) :
    Tracked forgets next.transport next.inFlight := by
  cases takes_of_step taken with
  | connect =>
      rw [inFlight_dial]
      exact tracked.of_same rfl rfl rfl
  | disconnect =>
      unfold disconnect
      dsimp only
      split
      · exact (tracked.disconnect (forgetful rfl)).of_subperm (inFlight_same fun _ => rfl)
      · exact tracked.disconnect (forgetful rfl)
  | join topic => exact tracked_join tracked fits topic
  | push topic event payload => exact tracked_push tracked fits topic event payload
  | on topicId event => exact tracked.of_same rfl rfl rfl
  | onByName topic event =>
      refine tracked.of_same ?_ ?_ ?_ <;>
        (simp only [onByName, Transport.onByName]; split <;> rfl)
  | off topicId event => exact tracked.of_same rfl rfl rfl
  | heartbeat => exact tracked_heartbeat tracked
  | lateTimer => exact tracked
  | reconnect =>
      rw [inFlight_dial]
      exact tracked.of_same rfl rfl rfl
  | opened => exact tracked_opened tracked fits
  | failed => exact tracked.of_subperm (inFlight_same fun _ => rfl)
  | lost => exact tracked.of_subperm (inFlight_same fun _ => rfl)
  | @answer socket connection later answer found answered =>
      have within := @inFlight_onConnection system socket (fun _ => later) []
        fun other otherFound => by
          cases otherFound.symm.trans found
          simpa using inFlight_answer answered
      exact tracked.of_subperm (by simpa using within)
  | @broadcast socket connection later topic payload event found sent =>
      have within := @inFlight_onConnection system socket (fun _ => later) []
        fun other otherFound => by
          cases otherFound.symm.trans found
          rw [inFlight_broadcast sent, List.append_nil]
      exact tracked.of_subperm (by simpa using within)
  | deliver found _ first => exact tracked_deliver tracked fits found first

theorem tracked_start : Tracked forgets start.transport start.inFlight where
  pending_le _ _ known := by cases known
  joinRefs _ _ := by simp [start, Transport.new]
  distinct := by simp [start, inFlight]
  sent := by simp [start, inFlight]
  expected := by simp [start, inFlight]

end System

end Mercury.Sdk
