import Mercury.Gateway.Capnp
import Mercury.Gateway.SocketProcess
import Mercury.Sdk.Frame

/-!
# Exceptions that escape a frame

A push is rescued as a whole, and a leave and a join make no call that raises.
What is left is the reason of a refused join, which is spliced into a reply
outside any rescue: the atom of a channel id that does not decode raises there.
-/

namespace Mercury.Gateway

open Foundations Foundations.Program Persistence

/-- The call returns; only the NIF that reads the clock may raise. -/
def Returns (taken : Performed calls Raise) : Prop :=
  taken.call = .nativeTime ∨ ∃ answer, taken.answer = .ok answer

/-- Where its calls return, `handle_in` returns, and a refused join is answered by one
error reply. -/
structure CrashFree (native : Native) (socket : Socket) (data : Bytes) : Prop where
  returns : ∀ made outcome, (handleIn native data socket).Performs made outcome →
    (∀ taken ∈ made, Returns taken) → ∃ reaction, outcome = .ok reaction
  refused : ∀ ref topic made reason, Frame.parse data = .join ref topic →
    (doJoin topic socket).Performs made (.ok (.error reason)) → (∀ taken ∈ made, Returns taken) →
      ∃ text, (handleIn native data socket).Performs made (.ok (replyError socket ref 0 text))

/-- Where its calls return, `handler` returns a result of `post`. -/
def Completes {Result : Type} (handler : Handler Result) (post : Result → Prop) : Prop :=
  handler.Ensures Returns (fun _ => True) fun
    | .ok result => post result
    | .error _ => False

namespace Completes

variable {Result Other : Type}

theorem pure {result : Result} {post : Result → Prop} (holds : post result) :
    Completes (Pure.pure result) post :=
  holds

theorem bind {first : Handler Result} {next : Result → Handler Other} {middle : Result → Prop}
    {post : Other → Prop} (completes : Completes first middle)
    (later : ∀ result, middle result → Completes (next result) post) :
    Completes (first >>= next) post := by
  refine Ensures.bind.mpr (Ensures.post_mono completes ?_)
  rintro (raised | result) holds
  · exact holds.elim
  · exact later result holds

theorem call {asked : Call} (notNif : asked ≠ .nativeTime) :
    Completes (Gateway.call asked) fun _ => True := by
  refine Ensures.perform.mpr ⟨trivial, ?_⟩
  rintro (raised | answer) (isNif | ⟨answer, same⟩)
  · exact notNif isNif
  · cases same
  · trivial
  · trivial

theorem of_performs {handler : Handler Result} {post : Result → Prop}
    {made : List (Performed calls Raise)} {outcome : Except Raise Result}
    (completes : Completes handler post) (performs : handler.Performs made outcome)
    (allReturn : ∀ taken ∈ made, Returns taken) :
    ∃ result, outcome = .ok result ∧ post result := by
  have holds := (Ensures.of_performs completes performs allReturn).2
  rcases outcome with raised | result
  · exact holds.elim
  · exact ⟨result, rfl, holds⟩

end Completes

section

variable {native : Native} {socket : Socket}

theorem completes_warmUserCache {tenantId userId : Bytes} :
    Completes (warmUserCache tenantId userId) fun _ => True := by
  apply Completes.bind (Completes.call (by simp))
  intro cached _
  split
  · exact Completes.pure trivial
  apply Completes.bind (Completes.call (by simp))
  intro found _
  split
  · exact Completes.pure trivial
  · exact Completes.call (by simp)
  · exact Completes.pure trivial

/-- The reason is a text, unless the topic is that of a channel whose id does not decode. -/
def ReasonIsText (topic : Bytes) : Except JoinError (ℕ × Socket) → Prop
  | .error .invalidChannelId =>
      ∃ hex, topic = ascii "channel:" ++ hex ∧ channelIdToBin hex = none
  | _ => True

theorem completes_doJoin {topic : Bytes} :
    Completes (doJoin topic socket) (ReasonIsText topic) := by
  unfold doJoin
  split
  · next hex isChannel =>
      unfold joinChannel
      split
      · next notDecoded =>
          exact Completes.pure ⟨hex, eq_append_of_stripPrefix isChannel, notDecoded⟩
      split
      · exact Completes.pure trivial
      apply Completes.bind (Completes.call (by simp))
      intro answer _
      split
      · apply Completes.bind (Completes.call (by simp))
        intro _ _
        apply Completes.bind completes_warmUserCache
        intro _ _
        apply Completes.bind (Completes.call (by simp))
        intro _ _
        exact Completes.pure trivial
      · exact Completes.pure trivial
      · exact Completes.pure trivial
  split
  · unfold joinLobby
    split <;> exact Completes.pure trivial
  split
  · unfold joinPresence
    split
    · exact Completes.pure trivial
    · exact Completes.bind (Completes.call (by simp)) fun _ _ => Completes.pure trivial
  · exact Completes.pure trivial

/-- The join of a channel whose id does not decode. -/
def JoinsMalformed (frame : Frame) : Prop :=
  ∃ ref hex, frame = .join ref (ascii "channel:" ++ hex) ∧ channelIdToBin hex = none

theorem completes_handleFrame {frame : Frame} (wellFormed : ¬JoinsMalformed frame) :
    Completes (handleFrame native frame socket) fun _ => True := by
  cases frame with
  | heartbeat => exact Completes.pure trivial
  | ignored => exact Completes.pure trivial
  | push ref topicId event payload =>
      refine Ensures.rescue.mpr (Ensures.any.post_mono ?_)
      rintro (raised | reaction) - <;> trivial
  | leave topicId =>
      rw [handleFrame, handleLeave]
      split
      · exact Completes.pure trivial
      split
      · exact Completes.bind (Completes.call (by simp)) fun _ _ => Completes.pure trivial
      · exact Completes.pure trivial
  | join ref topic =>
      apply Completes.bind completes_doJoin
      intro result isText
      split
      · exact Completes.pure trivial
      · exact Completes.pure trivial
      · rcases isText with ⟨hex, rfl, notDecoded⟩
        exact absurd ⟨ref, hex, rfl, notDecoded⟩ wellFormed

end

/-- The atom in the place of the reason raises. -/
theorem not_crashFree {native : Native} {socket : Socket} {data : Bytes}
    (malformed : JoinsMalformed (Frame.parse data)) : ¬CrashFree native socket data := by
  rcases malformed with ⟨ref, hex, parsed, notDecoded⟩
  intro crashFree
  have raises : (handleIn native data socket).Performs [] (.error .argument) := by
    rw [handleIn, parsed, handleFrame, handleJoin, doJoin, stripPrefix_append]
    dsimp only
    rw [joinChannel, notDecoded]
    exact ⟨rfl, rfl⟩
  rcases crashFree.returns [] _ raises (by simp) with ⟨reaction, same⟩
  cases same

/-- The frames that are handled without an escaping exception: all but the join of a
channel whose id does not decode. -/
theorem crashFree_iff (native : Native) (socket : Socket) (data : Bytes) :
    CrashFree native socket data ↔ ¬JoinsMalformed (Frame.parse data) := by
  constructor
  · intro crashFree malformed
    exact not_crashFree malformed crashFree
  · intro wellFormed
    constructor
    · intro made outcome performs allReturn
      rcases (completes_handleFrame wellFormed).of_performs performs allReturn with
        ⟨reaction, same, -⟩
      exact ⟨reaction, same⟩
    · intro ref topic made reason parsed refuses allReturn
      cases reason with
      | invalidChannelId =>
          rcases completes_doJoin.of_performs refuses allReturn with ⟨result, same, isText⟩
          cases same
          rcases isText with ⟨hex, rfl, notDecoded⟩
          exact absurd ⟨ref, hex, parsed, notDecoded⟩ wellFormed
      | text reason =>
          refine ⟨reason, ?_⟩
          rw [handleIn, parsed, ← List.append_nil made]
          exact refuses.bind ⟨rfl, rfl⟩

/-- A client closes its connection by one frame, the join of a text that is no hex. -/
theorem crash_of_malformed_join :
    ¬∀ (native : Native) (tenantId userId deviceId : Id16) (labels : List ProcessLabel)
        (process : SocketProcess) (data : Bytes),
      Run (ProcessStep native) (SocketProcess.init tenantId userId deviceId) labels process →
        CrashFree native process.socket data := by
  intro neverCrashes
  have crashFree := neverCrashes (Capnp.native [] []) (.replicate 1) (.replicate 2) (.replicate 3) []
    _ (Sdk.joinFrame 1 (ascii "channel:" ++ ascii "zz")) Run.refl
  refine not_crashFree ?_ crashFree
  exact ⟨1, ascii "zz", Sdk.parse_joinFrame _ (by decide), by decide⟩

end Mercury.Gateway
