import Mercury.Sdk.Device
import Mercury.Sdk.Transport

/-!
# The two codecs

`frame.ts` writes frames and packed lists into buffers, `Gateway.BinarySocket` builds
and matches binaries. What one side writes, the other reads back: every frame of the
SDK is matched by its own clause of `handle_in` and by no other one, every frame of
the gateway reaches the callbacks that it is for, and packed lists are the same bytes
on both sides.
-/

/-! ## The clauses of the gateway -/

namespace Mercury.Gateway

/-- The clauses of `handle_in` for binary frames, in the order of the source. -/
inductive Clause where
  | heartbeat
  | join
  | leave
  | push
deriving DecidableEq

/-- What the variables of a clause are bound to. -/
structure Bindings where
  ref : ℕ
  topicId : ℕ
  event : Option Byte
  payload : Bytes
deriving DecidableEq

namespace Clause

/-- The bindings of a clause, where its pattern matches. -/
def bind : Clause → Bytes → Option Bindings
  | heartbeat, [type, r0, r1, r2, r3, t0, t1] =>
      if type = FrameType.heartbeat then
        some ⟨fromLittleEndian [r0, r1, r2, r3], fromLittleEndian [t0, t1], none, []⟩
      else none
  | join, type :: r0 :: r1 :: r2 :: r3 :: t0 :: t1 :: topic =>
      if type = FrameType.join ∧ fromLittleEndian [t0, t1] = 0 then
        some ⟨fromLittleEndian [r0, r1, r2, r3], fromLittleEndian [t0, t1], none, topic⟩
      else none
  | leave, [type, r0, r1, r2, r3, t0, t1] =>
      if type = FrameType.leave then
        some ⟨fromLittleEndian [r0, r1, r2, r3], fromLittleEndian [t0, t1], none, []⟩
      else none
  | push, type :: r0 :: r1 :: r2 :: r3 :: t0 :: t1 :: event :: payload =>
      if type = FrameType.push then
        some ⟨fromLittleEndian [r0, r1, r2, r3], fromLittleEndian [t0, t1], some event, payload⟩
      else none
  | _, _ => none

/-- What a matched clause handles. -/
def frame : Clause → Bindings → Frame
  | heartbeat, _ => .heartbeat
  | join, bound => .join bound.ref bound.payload
  | leave, bound => .leave bound.topicId
  | push, bound => .push bound.ref bound.topicId (bound.event.getD 0) bound.payload

/-- The frame of the first clause that matches. -/
def first (data : Bytes) : Option Frame :=
  [heartbeat, join, leave, push].findSome? fun clause => (clause.bind data).map clause.frame

end Clause

/-- `handle_in` handles what its first matching clause binds, and ignores the rest. -/
theorem parse_eq_first (data : Bytes) : Frame.parse data = (Clause.first data).getD .ignored := by
  rcases data with _ | ⟨type, _ | ⟨r0, _ | ⟨r1, _ | ⟨r2, _ | ⟨r3, _ | ⟨t0, _ | ⟨t1, rest⟩⟩⟩⟩⟩⟩⟩
  case cons.cons.cons.cons.cons.cons.cons =>
      -- both sides make the same tests, in the same order
      rcases rest with _ | ⟨event, payload⟩
      · simp only [Frame.parse, Clause.first, List.findSome?_cons, Clause.bind, and_true]
        split_ifs <;> rfl
      · simp only [Frame.parse, Clause.first, List.findSome?_cons, Clause.bind, reduceCtorEq,
          and_false, if_false]
        split_ifs <;> rfl
  all_goals rfl

end Mercury.Gateway

namespace Mercury.Sdk

open Gateway

/-! ## Buffers -/

namespace Buffer

/-- `new Uint8Array(length)`. -/
def alloc (length : ℕ) : Bytes :=
  List.replicate length 0

/-- `buf.set(data, offset)`, and the setters of `DataView`, which throw out of range. -/
def set (buf : Bytes) (offset : ℕ) (data : Bytes) : Option Bytes :=
  if offset + data.length ≤ buf.length then
    some (buf.take offset ++ data ++ buf.drop (offset + data.length))
  else none

/-- A write that follows what is written already. -/
theorem set_append {front data : Bytes} {offset room : ℕ} (offsetEq : offset = front.length) :
    set (front ++ alloc (data.length + room)) offset data =
      some (front ++ data ++ alloc room) := by
  subst offsetEq
  have fits : front.length + data.length ≤ (front ++ alloc (data.length + room)).length := by
    simp [alloc]
  have rest : (front ++ alloc (data.length + room)).drop (front.length + data.length) =
      alloc room := by
    rw [List.drop_append, List.drop_eq_nil_of_le (Nat.le_add_right ..), List.nil_append,
      Nat.add_sub_cancel_left, alloc, List.drop_replicate, Nat.add_sub_cancel_left, alloc]
  rw [set, if_pos fits, List.take_left' rfl, rest]

end Buffer

/-! ## Packed lists -/

namespace FrameCodec

/-- `totalLen` of `packEnvelopes`. -/
def totalLen (envelopes : List Bytes) : ℕ :=
  envelopes.foldl (fun total env => total + (4 + env.length)) 4

/-- The loop of `packEnvelopes`, from `offset` on. -/
def packLoop (buf : Bytes) (offset : ℕ) : List Bytes → Option Bytes
  | [] => some buf
  | env :: later => do
      let buf ← Buffer.set buf offset (littleEndian 4 env.length)
      let buf ← Buffer.set buf (offset + 4) env
      packLoop buf (offset + (4 + env.length)) later

/-- `packEnvelopes` of `frame.ts`. -/
def packEnvelopes (envelopes : List Bytes) : Option Bytes := do
  let buf ← Buffer.set (Buffer.alloc (totalLen envelopes)) 0 (littleEndian 4 envelopes.length)
  packLoop buf 4 envelopes

/-- The bytes that the loop of `packEnvelopes` writes. -/
def packedBody (envelopes : List Bytes) : Bytes :=
  (envelopes.map fun env => littleEndian 4 env.length ++ env).flatten

theorem totalLen_eq (envelopes : List Bytes) :
    totalLen envelopes = 4 + (packedBody envelopes).length := by
  have fold : ∀ start, envelopes.foldl (fun total env => total + (4 + env.length)) start =
      start + (packedBody envelopes).length := by
    induction envelopes with
    | nil => simp [packedBody]
    | cons env later ih =>
        intro start
        rw [List.foldl_cons, ih]
        simp [packedBody]
        omega
  exact fold 4

theorem packLoop_eq (envelopes : List Bytes) {front : Bytes} {offset : ℕ}
    (offsetEq : offset = front.length) :
    packLoop (front ++ Buffer.alloc (packedBody envelopes).length) offset envelopes =
      some (front ++ packedBody envelopes) := by
  induction envelopes generalizing front offset with
  | nil => simp [packLoop, packedBody, Buffer.alloc]
  | cons env later ih =>
      let header := littleEndian 4 env.length
      have split : packedBody (env :: later) = header ++ env ++ packedBody later := by
        simp [packedBody, header]
      have room : (packedBody (env :: later)).length =
          header.length + (env.length + (packedBody later).length) := by
        simp [split]
      have headerWritten := @Buffer.set_append front header offset
        (env.length + (packedBody later).length) offsetEq
      have envWritten := @Buffer.set_append (front ++ header) env (offset + 4)
        (packedBody later).length (by simp [header, offsetEq])
      rw [packLoop, room, headerWritten, Option.bind_eq_bind, Option.bind_some, envWritten,
        Option.bind_some, ih]
      · simp [split]
      · simp [header, offsetEq]

/-- Both packers write the same bytes. -/
theorem packEnvelopes_eq (envelopes : List Bytes) :
    packEnvelopes envelopes = some (Gateway.packEnvelopes envelopes) := by
  have counted := @Buffer.set_append [] (littleEndian 4 envelopes.length) 0
    (packedBody envelopes).length rfl
  rw [List.nil_append, List.nil_append, length_littleEndian] at counted
  rw [packEnvelopes, totalLen_eq, counted, Option.bind_eq_bind, Option.bind_some,
    packLoop_eq envelopes (by simp)]
  rfl

/-- Packed lists cross the wire unchanged, in both directions. -/
theorem packed_lists_agree {envelopes : List Bytes} (count : envelopes.length < 2 ^ 32)
    (sizes : ∀ env ∈ envelopes, env.length < 2 ^ 32) :
    ∃ packed, packEnvelopes envelopes = some packed ∧ Gateway.packEnvelopes envelopes = packed ∧
      Gateway.unpackEnvelopes packed = envelopes ∧
        Sdk.unpackEnvelopes packed = some envelopes := by
  refine ⟨_, packEnvelopes_eq envelopes, rfl, ?_, ?_⟩
  · exact unpackEnvelopes_packEnvelopes count sizes
  · exact unpackEnvelopes_pack count sizes

/-- A list with an empty blob at its end. -/
theorem packed_lists_agree_on_empty :
    ∃ packed, packEnvelopes [[7], []] = some packed ∧ Gateway.packEnvelopes [[7], []] = packed ∧
      Gateway.unpackEnvelopes packed = [[7], []] ∧
        Sdk.unpackEnvelopes packed = some [[7], []] :=
  packed_lists_agree (by decide) (by decide)

/-! ## Frames -/

/-- `encodeFrame` of `frame.ts`, write by write. -/
def encodeFrame (type : Byte) (ref topicId : ℕ) (payload : Bytes) : Option Bytes := do
  let buf ← Buffer.set (Buffer.alloc (7 + payload.length)) 0 [type]
  let buf ← Buffer.set buf 1 (littleEndian 4 ref)
  let buf ← Buffer.set buf 5 (littleEndian 2 topicId)
  Buffer.set buf 7 payload

theorem encodeFrame_eq (type : Byte) (ref topicId : ℕ) (payload : Bytes) :
    encodeFrame type ref topicId payload = some (Sdk.encodeFrame type ref topicId payload) := by
  have typed := @Buffer.set_append [] [type] 0 (4 + (2 + payload.length)) rfl
  have numbered := @Buffer.set_append [type] (littleEndian 4 ref) 1 (2 + payload.length) rfl
  have addressed := @Buffer.set_append ([type] ++ littleEndian 4 ref) (littleEndian 2 topicId) 5
    payload.length (by simp)
  have filled := @Buffer.set_append ([type] ++ littleEndian 4 ref ++ littleEndian 2 topicId)
    payload 7 0 (by simp)
  have room : 7 + payload.length = [type].length + (4 + (2 + payload.length)) := by
    simp only [List.length_singleton]
    omega
  rw [length_littleEndian] at numbered addressed
  rw [encodeFrame, room, ← List.nil_append (Buffer.alloc _), typed]
  simp only [List.nil_append, Option.bind_eq_bind, Option.bind_some]
  rw [numbered, Option.bind_some, addressed, Option.bind_some]
  simpa [Sdk.encodeFrame, Buffer.alloc] using filled

/-- The frame of the heartbeat timer of `BinaryTransport`. -/
def heartbeatFrame (ref : ℕ) : Bytes :=
  Sdk.encodeFrame FrameType.heartbeat ref 0 []

end FrameCodec

namespace Transport

variable {Callback : Type}

/-- A call of the callback of a pending reply. -/
structure ReplyCall where
  pending : PendingReply
  status : Byte
  data : Bytes
deriving DecidableEq

/-- The callback that `handleMessage` calls on a reply, with its arguments. -/
def replyCall (data : Bytes) (transport : Transport Callback) : Option ReplyCall :=
  (decodeFrame data).bind fun frame =>
    if frame.type = FrameType.reply then
      (transport.pendingReplies frame.ref).map fun pending =>
        ⟨pending, frame.payload.headD statusOk, frame.payload.tail⟩
    else none

/-- `handleMessage` settles the reply with what it calls the callback with. -/
theorem handleMessage_of_replyCall {data : Bytes} {transport : Transport Callback}
    {made : ReplyCall} (called : transport.replyCall data = some made) :
    ∃ frame, decodeFrame data = some frame ∧ (transport.handleMessage data).transport =
      settle frame.ref made.status made.pending
        { transport.registerReply frame made.status with
          pendingReplies := Function.update
            (transport.registerReply frame made.status).pendingReplies frame.ref none } := by
  rcases Option.bind_eq_some_iff.mp called with ⟨frame, decoded, called⟩
  split at called
  · next isReply =>
      rcases Option.map_eq_some_iff.mp called with ⟨pending, waiting, rfl⟩
      refine ⟨frame, decoded, ?_⟩
      simp only [handleMessage, decoded, isReply, handleReply, waiting, if_pos]
  · cases called

end Transport

namespace FrameCodec

/-- A clause reads the fields of a frame back, where the frame has its type and shape. -/
theorem bind_encodeFrame {ref topicId : ℕ} (refFits : ref < 2 ^ 32) (topicFits : topicId < 2 ^ 16)
    (type : Byte) (payload : Bytes) :
    Clause.heartbeat.bind (Sdk.encodeFrame type ref topicId payload) =
        (if type = FrameType.heartbeat ∧ payload = [] then some ⟨ref, topicId, none, []⟩
        else none) ∧
      Clause.join.bind (Sdk.encodeFrame type ref topicId payload) =
        (if type = FrameType.join ∧ topicId = 0 then some ⟨ref, topicId, none, payload⟩ else none) ∧
      Clause.leave.bind (Sdk.encodeFrame type ref topicId payload) =
        (if type = FrameType.leave ∧ payload = [] then some ⟨ref, topicId, none, []⟩ else none) ∧
      Clause.push.bind (Sdk.encodeFrame type ref topicId payload) =
        (if type = FrameType.push ∧ payload ≠ [] then
          some ⟨ref, topicId, payload.head?, payload.tail⟩ else none) := by
  have refRead : fromLittleEndian (littleEndian 4 ref) = ref :=
    fromLittleEndian_littleEndian refFits
  have topicRead : fromLittleEndian (littleEndian 2 topicId) = topicId :=
    fromLittleEndian_littleEndian topicFits
  simp only [littleEndian] at refRead topicRead
  simp only [Sdk.encodeFrame, littleEndian, List.cons_append, List.nil_append]
  rcases payload with _ | ⟨event, data⟩ <;>
    (simp only [Clause.bind, refRead, topicRead]; simp)

/-- Each codec reads what the other one writes: a frame of the SDK is matched by its own
clause of `handle_in` only, and a frame of the gateway reaches its callbacks. -/
theorem codecs_agree {Callback : Type} {ref topicId : ℕ} (refFits : ref < 2 ^ 32)
    (topicFits : topicId < 2 ^ 16) (event status : Byte) (topic payload : Bytes) :
    (∀ clause : Clause, clause.bind (joinFrame ref topic) =
        if clause = .join then some ⟨ref, 0, none, topic⟩ else none) ∧
      (∀ clause : Clause, clause.bind (pushFrame ref topicId event payload) =
        if clause = .push then some ⟨ref, topicId, some event, payload⟩ else none) ∧
      (∀ clause : Clause, clause.bind (heartbeatFrame ref) =
        if clause = .heartbeat then some ⟨ref, 0, none, []⟩ else none) ∧
      decodeFrame (replyFrame ref topicId status payload) =
        some ⟨FrameType.reply, ref, topicId, status :: payload⟩ ∧
      (∀ transport : Transport Callback,
        transport.handleMessage (replyFrame ref topicId status payload) =
            ⟨transport.handleReply ⟨FrameType.reply, ref, topicId, status :: payload⟩, [], []⟩ ∧
          transport.replyCall (replyFrame ref topicId status payload) =
            (transport.pendingReplies ref).map fun pending => ⟨pending, status, payload⟩) ∧
      ∀ (socket : Socket) (pubsub : Bytes), socket.pubsubTopics.lookup pubsub = some topicId →
        ∃ frame, (handleBroadcast pubsub event payload socket).pushed = [frame] ∧
          decodeFrame frame = some ⟨FrameType.broadcast, 0, topicId, event :: payload⟩ ∧
            ∀ transport : Transport Callback, transport.handleMessage frame =
              ⟨transport, transport.topicBindings topicId event.val, payload⟩ := by
  have refMod : ref % 256 ^ 4 = ref := Nat.mod_eq_of_lt refFits
  have topicMod : topicId % 256 ^ 2 = topicId := Nat.mod_eq_of_lt topicFits
  have decoded := decodeFrame_encodeFrame FrameType.reply ref topicId (status :: payload)
  rw [refMod, topicMod, ← replyFrame_eq_encodeFrame] at decoded
  have types : FrameType.join ≠ FrameType.heartbeat ∧ FrameType.join ≠ FrameType.leave ∧
      FrameType.join ≠ FrameType.push ∧ FrameType.push ≠ FrameType.heartbeat ∧
      FrameType.push ≠ FrameType.join ∧ FrameType.push ≠ FrameType.leave ∧
      FrameType.heartbeat ≠ FrameType.join ∧ FrameType.heartbeat ≠ FrameType.leave ∧
      FrameType.heartbeat ≠ FrameType.push := by
    decide
  refine ⟨?_, ?_, ?_, decoded, ?_, ?_⟩
  · intro clause
    have bound := bind_encodeFrame refFits (show 0 < 2 ^ 16 by decide) FrameType.join topic
    cases clause <;> (simp only [joinFrame, bound]; simp [types])
  · intro clause
    have bound := bind_encodeFrame refFits topicFits FrameType.push (event :: payload)
    cases clause <;> (simp only [pushFrame, bound]; simp [types])
  · intro clause
    have bound := bind_encodeFrame refFits (show 0 < 2 ^ 16 by decide) FrameType.heartbeat []
    cases clause <;> (simp only [heartbeatFrame, bound]; simp [types])
  · intro transport
    have handled := Transport.handleMessage_reply ref topicId status payload transport
    rw [refMod, topicMod] at handled
    exact ⟨handled, by simp [Transport.replyCall, decoded]⟩
  · intro socket pubsub subscribed
    have handled := fun transport : Transport Callback =>
      Transport.handleMessage_broadcast topicId event payload transport
    have broadcast := decodeFrame_encodeFrame FrameType.broadcast 0 topicId (event :: payload)
    rw [topicMod] at broadcast
    refine ⟨Sdk.encodeFrame FrameType.broadcast 0 topicId (event :: payload), ?_, broadcast, ?_⟩
    · rw [handleBroadcast, subscribed]
      simp [Sdk.encodeFrame]
    · intro transport
      rw [handled, topicMod]

/-- A push and a reply without data. -/
theorem codecs_agree_on_empty :
    (∀ clause : Clause, clause.bind (pushFrame 1 1 Event.msgTyping []) =
        if clause = .push then some ⟨1, 1, some Event.msgTyping, []⟩ else none) ∧
      decodeFrame (replyFrame 1 1 statusOk []) = some ⟨FrameType.reply, 1, 1, [statusOk]⟩ :=
  have agreed := @codecs_agree Unit 1 1 (by decide) (by decide) Event.msgTyping statusOk [] []
  ⟨agreed.2.1, agreed.2.2.2.1⟩

end FrameCodec

end Mercury.Sdk
