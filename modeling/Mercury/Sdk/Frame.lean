import Mercury.Gateway.BinarySocket

/-!
# The frames of the SDK

`encodeFrame` and how the gateway takes its frames apart, `decodeFrame` and how it
takes the frames of the gateway apart.
-/

namespace Mercury.Sdk

open Gateway

def encodeFrame (type : Byte) (ref topicId : ℕ) (payload : Bytes) : Bytes :=
  type :: (littleEndian 4 ref ++ littleEndian 2 topicId ++ payload)

/-- The frame of `BinaryTransport.join`. -/
def joinFrame (ref : ℕ) (topic : Bytes) : Bytes :=
  encodeFrame FrameType.join ref 0 topic

/-- The frame of `BinaryTransport.push`. -/
def pushFrame (ref topicId : ℕ) (event : Byte) (payload : Bytes) : Bytes :=
  encodeFrame FrameType.push ref topicId (event :: payload)

/-- The gateway reads the fields of a frame back, as far as they fit. -/
theorem parse_encodeFrame (type : Byte) (ref topicId : ℕ) (payload : Bytes) :
    Frame.parse (encodeFrame type ref topicId payload) =
      if type = FrameType.heartbeat ∧ payload = [] then .heartbeat
      else if type = FrameType.join ∧ topicId % 256 ^ 2 = 0 then .join (ref % 256 ^ 4) payload
      else if type = FrameType.leave ∧ payload = [] then .leave (topicId % 256 ^ 2)
      else if type = FrameType.push then
        match payload with
        | event :: data => .push (ref % 256 ^ 4) (topicId % 256 ^ 2) event data
        | [] => .ignored
      else .ignored := by
  have refRead := fromLittleEndian_littleEndian_mod 4 ref
  have topicRead := fromLittleEndian_littleEndian_mod 2 topicId
  simp only [encodeFrame, littleEndian, List.cons_append, List.nil_append, Frame.parse]
    at refRead topicRead ⊢
  rw [refRead, topicRead]
  rfl

theorem parse_joinFrame {ref : ℕ} (topic : Bytes) (refFits : ref < 256 ^ 4) :
    Frame.parse (joinFrame ref topic) = .join ref topic := by
  rw [joinFrame, parse_encodeFrame, Nat.mod_eq_of_lt refFits]
  simp [FrameType.join, FrameType.heartbeat]

theorem parse_pushFrame_mod {ref : ℕ} (topicId : ℕ) (event : Byte) (payload : Bytes)
    (refFits : ref < 256 ^ 4) :
    Frame.parse (pushFrame ref topicId event payload) =
      .push ref (topicId % 256 ^ 2) event payload := by
  rw [pushFrame, parse_encodeFrame, Nat.mod_eq_of_lt refFits]
  simp [FrameType.push, FrameType.join, FrameType.heartbeat, FrameType.leave]

theorem parse_pushFrame {ref topicId : ℕ} (event : Byte) (payload : Bytes)
    (refFits : ref < 256 ^ 4) (topicFits : topicId < 256 ^ 2) :
    Frame.parse (pushFrame ref topicId event payload) = .push ref topicId event payload := by
  rw [parse_pushFrame_mod topicId event payload refFits, Nat.mod_eq_of_lt topicFits]

/-! ## Frames of the gateway -/

structure DecodedFrame where
  type : Byte
  ref : ℕ
  topicId : ℕ
  payload : Bytes

/-- `decodeFrame`, which throws on data without a whole header. -/
def decodeFrame : Bytes → Option DecodedFrame
  | type :: r0 :: r1 :: r2 :: r3 :: t0 :: t1 :: payload =>
      some ⟨type, fromLittleEndian [r0, r1, r2, r3], fromLittleEndian [t0, t1], payload⟩
  | _ => none

/-- The fields of a frame come back as far as they fit. -/
theorem decodeFrame_encodeFrame (type : Byte) (ref topicId : ℕ) (payload : Bytes) :
    decodeFrame (encodeFrame type ref topicId payload) =
      some ⟨type, ref % 256 ^ 4, topicId % 256 ^ 2, payload⟩ := by
  have refRead := fromLittleEndian_littleEndian_mod 4 ref
  have topicRead := fromLittleEndian_littleEndian_mod 2 topicId
  simp only [encodeFrame, littleEndian, List.cons_append, List.nil_append, decodeFrame]
    at refRead topicRead ⊢
  rw [refRead, topicRead]

/-- The gateway writes its replies as the SDK would. -/
theorem replyFrame_eq_encodeFrame (ref topicId : ℕ) (status : Byte) (data : Bytes) :
    replyFrame ref topicId status data =
      encodeFrame FrameType.reply ref topicId (status :: data) :=
  rfl

/-! ## Packed envelopes -/

theorem unpackEnvelopesLoop_pack {envelopes : List Bytes} (acc : List Bytes)
    (sizes : ∀ env ∈ envelopes, env.length < 256 ^ 4) :
    unpackEnvelopesLoop (envelopes.map fun env => littleEndian 4 env.length ++ env).flatten
        envelopes.length acc = acc.reverse ++ envelopes := by
  induction envelopes generalizing acc with
  | nil => simp [unpackEnvelopesLoop]
  | cons env later ih =>
      have size := fromLittleEndian_littleEndian (sizes env (by simp))
      have header : ∀ rest : Bytes, (littleEndian 4 env.length ++ rest).take 4 =
          littleEndian 4 env.length ∧ (littleEndian 4 env.length ++ rest).drop 4 = rest :=
        fun rest => ⟨List.take_left' (by simp), List.drop_left' (by simp)⟩
      rw [List.map_cons, List.flatten_cons, List.append_assoc, List.length_cons,
        unpackEnvelopesLoop, (header _).1, (header _).2, size, if_pos (by simp)]
      simp only [List.take_left', List.drop_left']
      rw [ih (env :: acc) fun other otherMem => sizes other (by simp [otherMem])]
      simp

/-- A packed list of envelopes is read back as it was. -/
theorem unpackEnvelopes_packEnvelopes {envelopes : List Bytes}
    (count : envelopes.length < 256 ^ 4) (sizes : ∀ env ∈ envelopes, env.length < 256 ^ 4) :
    unpackEnvelopes (packEnvelopes envelopes) = envelopes := by
  rw [unpackEnvelopes, packEnvelopes, if_pos (by simp), List.take_left' (by simp),
    List.drop_left' (by simp), fromLittleEndian_littleEndian count,
    unpackEnvelopesLoop_pack [] sizes]
  rfl

end Mercury.Sdk
