import Mercury.Gateway.Issued

/-!
# Replies to a push

Every dispatch clause but those of `msg:typing` and `sync:cursor` pushes one reply in
each of its branches that return, and where a clause raises, the rescue of
`handle_push` replies in its place.
-/

namespace Mercury.Gateway

open Foundations Foundations.Program Persistence

/-- The reaction pushes one frame, a reply with the ref and the topic id. -/
def AnswersOnce (ref topicId : ℕ) (reaction : Reaction) : Prop :=
  ∃ status data, reaction.pushed = [replyFrame ref topicId status data]

/-- Where it returns, the handler has answered once. -/
def Answering (ref topicId : ℕ) (handler : Handler Reaction) : Prop :=
  Within (fun _ => True) (fun _ => True) handler (AnswersOnce ref topicId)

namespace Answering

variable {Result : Type} {ref topicId : ℕ} {socket : Socket} {data : Bytes}

theorem ok : Answering ref topicId (pure (replyOk socket ref topicId data)) :=
  ⟨statusOk, data, rfl⟩

theorem error : Answering ref topicId (pure (replyError socket ref topicId data)) :=
  ⟨statusError, data, rfl⟩

/-- The reply to an exception is not the handler's. -/
theorem fail {raised : Raise} : Answering ref topicId (Program.fail raised) :=
  Within.fail

/-- What comes before the answer does not matter. -/
theorem after {first : Handler Result} {next : Result → Handler Reaction}
    (later : ∀ result, Answering ref topicId (next result)) :
    Answering ref topicId (first >>= next) := by
  have returns : Within (fun _ => True) (fun _ => True) first fun _ => True := by
    apply Ensures.any.post_mono
    rintro (raised | result) - <;> trivial
  exact Within.bind returns fun result _ => later result

theorem ite {condition : Prop} [Decidable condition] {left right : Handler Reaction}
    (positive : condition → Answering ref topicId left)
    (negative : ¬condition → Answering ref topicId right) :
    Answering ref topicId (if condition then left else right) :=
  Within.ite positive negative

end Answering

/-! ## The dispatch clauses -/

section Dispatch

variable {native : Native} {ref topicId : ℕ} {payload : Bytes} {info : TopicInfo}
  {socket : Socket} {event : Byte}

theorem answering_dispatchMsgSend :
    Answering ref topicId (dispatchMsgSend native ref topicId payload info socket) := by
  apply Answering.after
  intro channelId
  split
  · exact Answering.error
  split
  · exact Answering.error
  · exact Answering.fail
  apply Answering.after
  intro reading
  apply Answering.after
  intro verdict
  split
  · exact Answering.error
  apply Answering.after
  intro allowed
  split
  · apply Answering.after
    intro bucket
    apply Answering.after
    intro _
    exact Answering.after fun pubsub => Answering.after fun _ => Answering.ok
  · exact Answering.error

theorem answering_dispatchMsgHistory :
    Answering ref topicId (dispatchMsgHistory native ref topicId payload info socket) := by
  apply Answering.after
  intro channelId
  split
  · exact Answering.error
  · exact Answering.after fun msgs => Answering.ok

theorem answering_dispatchMsgRead :
    Answering ref topicId (dispatchMsgRead native ref topicId payload info socket) := by
  unfold dispatchMsgRead
  split
  · exact Answering.error
  · apply Answering.after
    intro channelId
    apply Answering.after
    intro _
    exact Answering.after fun pubsub => Answering.after fun _ => Answering.ok

theorem answering_dispatchMlsKeyPackage :
    Answering ref topicId (dispatchMlsKeyPackage native ref topicId payload info socket) := by
  unfold dispatchMlsKeyPackage
  split
  · exact Answering.error
  · exact Answering.fail
  apply Answering.after
  intro uploaded
  split
  · split
    · exact Answering.after fun _ => Answering.ok
    · exact Answering.ok
  · exact Answering.error

theorem answering_dispatchMlsFetchKp :
    Answering ref topicId (dispatchMlsFetchKp native ref topicId payload socket) := by
  refine Answering.ite (fun _ => ?_) fun _ => Answering.ok
  exact Answering.after fun packages => Answering.ok

theorem answering_dispatchMlsCommit :
    Answering ref topicId (dispatchMlsCommit native ref topicId payload info socket) := by
  unfold dispatchMlsCommit
  split
  · exact Answering.after fun pubsub => Answering.after fun _ => Answering.ok
  · exact Answering.error

theorem answering_dispatchMlsWelcome :
    Answering ref topicId (dispatchMlsWelcome ref topicId payload info socket) := by
  refine Answering.ite (fun _ => ?_) fun _ => Answering.error
  exact Answering.after fun pubsub => Answering.after fun _ => Answering.ok

theorem answering_dispatchMlsRemove :
    Answering ref topicId (dispatchMlsRemove native ref topicId payload info socket) := by
  apply Answering.after
  intro channelId
  split
  · exact Answering.error
  apply Answering.after
  intro lookup
  split
  · refine Answering.ite (fun _ => ?_) fun _ => Answering.error
    split
    · apply Answering.after
      intro removed
      exact Answering.after fun pubsub => Answering.after fun _ => Answering.ok
    · exact Answering.error
  · exact Answering.error
  · exact Answering.error

theorem answering_dispatchSyncRequest :
    Answering ref topicId (dispatchSyncRequest native ref topicId payload info socket) := by
  apply Answering.after
  intro channelId
  split
  · exact Answering.error
  · exact Answering.after fun reply => Answering.ok

theorem answering_dispatchSyncPush :
    Answering ref topicId (dispatchSyncPush native ref topicId payload info socket) := by
  apply Answering.after
  intro channelId
  split
  · exact Answering.error
  apply Answering.after
  intro deltas
  apply Answering.after
  intro pushed
  split
  · exact Answering.ok
  · exact Answering.error

theorem answering_dispatchChCreate :
    Answering ref topicId (dispatchChCreate ref topicId payload socket) := by
  unfold dispatchChCreate
  split
  · exact Answering.fail
  apply Answering.after
  intro verdict
  split
  · exact Answering.error
  · exact Answering.after fun channelId => Answering.after fun _ => Answering.ok

theorem answering_dispatchPresenceJoin :
    Answering ref topicId (dispatchPresenceJoin ref topicId info socket) := by
  unfold dispatchPresenceJoin
  split
  · apply Answering.after
    intro pubsub
    apply Answering.after
    intro lastSeen
    exact Answering.after fun _ => Answering.ok
  · exact Answering.ok

theorem answering_dispatchStatusUpdate {status : Byte} :
    Answering ref topicId (dispatchStatusUpdate ref topicId info socket status) := by
  unfold dispatchStatusUpdate
  split
  · exact Answering.after fun _ => Answering.ok
  · exact Answering.ok

theorem answering_dispatchMlsMembers :
    Answering ref topicId (dispatchMlsMembers ref topicId info socket) := by
  apply Answering.after
  intro channelId
  split
  · exact Answering.error
  · exact Answering.after fun listing => Answering.after fun packed => Answering.ok

theorem answering_dispatchMlsGroupInfo :
    Answering ref topicId (dispatchMlsGroupInfo ref topicId info socket) := by
  apply Answering.after
  intro channelId
  split
  · exact Answering.error
  apply Answering.after
  intro _
  apply Answering.after
  intro creator
  split
  · apply Answering.ite (fun _ => Answering.ok)
    intro _
    exact Answering.after fun creator => Answering.ok
  · exact Answering.ok

theorem answering_dispatchMlsCek :
    Answering ref topicId (dispatchMlsCek ref topicId payload info socket) :=
  Answering.after fun _ => Answering.after fun _ => Answering.ok

/-- The events whose clauses answer; every other event but the two left out is unknown. -/
theorem answering_dispatch (notTyping : event ≠ Event.msgTyping)
    (notCursor : event ≠ Event.syncCursor) :
    Answering ref topicId (dispatch native ref topicId payload info socket event) := by
  apply Answering.ite (fun _ => answering_dispatchMsgSend)
  intro _
  apply Answering.ite (fun _ => answering_dispatchMsgHistory)
  intro _
  apply Answering.ite (fun typing => absurd typing notTyping)
  intro _
  apply Answering.ite (fun _ => answering_dispatchMsgRead)
  intro _
  apply Answering.ite (fun _ => answering_dispatchMlsKeyPackage)
  intro _
  apply Answering.ite (fun _ => answering_dispatchMlsFetchKp)
  intro _
  apply Answering.ite (fun _ => answering_dispatchMlsCommit)
  intro _
  apply Answering.ite (fun _ => answering_dispatchMlsWelcome)
  intro _
  apply Answering.ite (fun _ => answering_dispatchMlsRemove)
  intro _
  apply Answering.ite (fun _ => answering_dispatchSyncRequest)
  intro _
  apply Answering.ite (fun _ => answering_dispatchSyncPush)
  intro _
  apply Answering.ite (fun cursor => absurd cursor notCursor)
  intro _
  apply Answering.ite (fun _ => answering_dispatchChCreate)
  intro _
  apply Answering.ite (fun _ => answering_dispatchPresenceJoin)
  intro _
  apply Answering.ite (fun _ => answering_dispatchStatusUpdate)
  intro _
  apply Answering.ite (fun _ => answering_dispatchMlsMembers)
  intro _
  apply Answering.ite (fun _ => answering_dispatchMlsGroupInfo)
  intro _
  apply Answering.ite (fun _ => answering_dispatchMlsCek)
  intro _
  exact Answering.error

/-- A push is answered once, whatever its calls answer or raise. -/
theorem answersOnce_handlePush (notTyping : event ≠ Event.msgTyping)
    (notCursor : event ≠ Event.syncCursor) {made : List (Performed calls Raise)}
    {outcome : Except Raise Reaction}
    (performs : (handlePush native ref topicId event payload socket).Performs made outcome) :
    ∃ reaction, outcome = .ok reaction ∧ AnswersOnce ref topicId reaction := by
  have ensured : (handlePush native ref topicId event payload socket).Ensures (fun _ => True)
      (fun _ => True) fun outcome =>
        ∃ reaction, outcome = .ok reaction ∧ AnswersOnce ref topicId reaction := by
    refine Ensures.rescue.mpr (Ensures.post_mono (?_ : Answering ref topicId _) ?_)
    · split
      · exact Answering.error
      · apply Answering.ite (fun _ => Answering.error)
        intro _
        exact answering_dispatch notTyping notCursor
    · rintro (raised | reaction) answers
      · exact ⟨_, rfl, statusError, _, rfl⟩
      · exact ⟨reaction, rfl, answers⟩
  exact (ensured.of_performs performs fun _ _ => trivial).2

end Dispatch

end Mercury.Gateway
