import Mercury.Foundations.Observation
import Mercury.Gateway.RowRuns

/-!
# Broadcasts reach their subscribers in the order of their sender

A process that stays, and stays subscribed to a topic once, is delivered the broadcasts of
every other process that are on the topic and do not leave it out, each exactly once and in
the order in which they were made. Nothing keeps an order between the broadcasts of two
processes: each subscriber may hear them in its own.
-/

namespace Mercury.Gateway

open Foundations Foundations.Program Persistence

/-- A broadcast, the process that makes it, and the one that it leaves out. -/
structure Cast where
  sender : Id16 × ℕ
  mail : Mail
  except : Option (Id16 × ℕ)
deriving DecidableEq

/-- What the process hears from the sender of the broadcast on a topic. -/
def Cast.heardBy (topic : Bytes) (sender : Id16 × ℕ) (tenantId : Id16) (pid : ℕ) (cast : Cast) :
    Option Mail :=
  if cast.sender = sender ∧ cast.mail.topic = topic ∧ cast.except ≠ some (tenantId, pid) then
    some cast.mail
  else none

/-- The broadcast that a command asks for. -/
def Command.cast (tenantId : Id16) (pid : ℕ) : Command → List Cast
  | .broadcast topic event payload => [⟨(tenantId, pid), ⟨topic, event, payload⟩, none⟩]
  | .broadcastFrom topic event payload =>
      [⟨(tenantId, pid), ⟨topic, event, payload⟩, some (tenantId, pid)⟩]
  | _ => []

namespace Node

/-- The broadcasts of a step. -/
def casts (node : Node) : NodeLabel → List Cast
  | .worker tenantId pid (.performed _) =>
      ((node.workers tenantId pid).bind Worker.next).elim [] fun following =>
        following.command.cast tenantId pid
  | _ => []

/-- The mail of the sender that a step delivers to the process. -/
def deliveries (sender : Id16 × ℕ) (tenantId : Id16) (pid : ℕ) (node : Node) :
    NodeLabel → List Mail
  | .worker tid number (.delivered origin) =>
      if tid = tenantId ∧ number = pid ∧ origin = sender then
        (node.mailboxes tenantId pid sender).take 1
      else []
  | _ => []

/-- The process runs, and is subscribed to the topic once. -/
structure Listens (topic : Bytes) (tenantId : Id16) (pid : ℕ) (node : Node) : Prop where
  alive : (node.workers tenantId pid).isSome
  once : node.subscriptions.count ⟨topic, tenantId, pid⟩ = 1

instance (topic : Bytes) (tenantId : Id16) (pid : ℕ) :
    DecidablePred (Listens topic tenantId pid) :=
  fun node => decidable_of_iff
    ((node.workers tenantId pid).isSome ∧ node.subscriptions.count ⟨topic, tenantId, pid⟩ = 1)
    ⟨fun both => ⟨both.1, both.2⟩, fun listens => ⟨listens.alive, listens.once⟩⟩

/-- The mail of the sender on the topic that waits for the process. -/
def waiting (topic : Bytes) (sender : Id16 × ℕ) (tenantId : Id16) (pid : ℕ) (node : Node) :
    List Mail :=
  (node.mailboxes tenantId pid sender).filter fun mail => mail.topic = topic

section Steps

variable {native : Native} {json : Json} {rate : ℕ} {node next : Node} {label : NodeLabel}
  {topic : Bytes} {sender : Id16 × ℕ} {tenantId other : Id16} {pid number : ℕ} {moment : Moment}
  {command : Command}

/-- A broadcast on the topic is put into the mailbox of a process that listens, once, and
behind what the same process sent before. -/
theorem waiting_broadcast {origin : Id16 × ℕ} {mail : Mail} {except : Option (Id16 × ℕ)}
    (once : node.subscriptions.count ⟨topic, tenantId, pid⟩ = 1) :
    (node.broadcast origin mail except).waiting topic sender tenantId pid =
      node.waiting topic sender tenantId pid ++
        ((Cast.mk origin mail except).heardBy topic sender tenantId pid).toList := by
  by_cases fromSender : origin = sender
  swap
  · rw [Cast.heardBy, if_neg fun heard => fromSender heard.1, Option.toList_none, List.append_nil]
    simp only [waiting, broadcast, Function.update_of_ne (Ne.symm fromSender)]
  subst fromSender
  simp only [waiting, broadcast, Function.update_self, List.filter_append, Cast.heardBy, true_and]
  congr 1
  by_cases onTopic : mail.topic = topic
  · by_cases except_eq : except = some (tenantId, pid)
    · simp [except_eq]
    · have kept : (node.subscriptions.filter fun subscription =>
          subscription = ⟨mail.topic, tenantId, pid⟩ ∧ except ≠ some (tenantId, pid)) =
            [⟨topic, tenantId, pid⟩] := by
        simp only [onTopic, except_eq, ne_eq, not_false_eq_true, and_true]
        rw [List.filter_eq, once]
        rfl
      rw [kept]
      simp [onTopic, except_eq]
  · rw [if_neg fun heard => onTopic heard.1]
    simp [onTopic]

/-- What a command puts into the mailboxes. -/
theorem waiting_perform (once : node.subscriptions.count ⟨topic, tenantId, pid⟩ = 1) :
    (node.perform other number moment command).2.waiting topic sender tenantId pid =
      node.waiting topic sender tenantId pid ++
        (command.cast other number).filterMap (Cast.heardBy topic sender tenantId pid) := by
  cases command with
  | broadcast name event payload =>
      simp only [perform, Command.cast, waiting_broadcast once, List.filterMap_cons,
        List.filterMap_nil]
      rcases Cast.heardBy topic sender tenantId pid _ with _ | mail <;> rfl
  | broadcastFrom name event payload =>
      simp only [perform, Command.cast, waiting_broadcast once, List.filterMap_cons,
        List.filterMap_nil]
      rcases Cast.heardBy topic sender tenantId pid _ with _ | mail <;> rfl
  | natsPublish =>
      simp only [perform, Command.cast, List.filterMap_nil, List.append_nil]
      split <;> rfl
  | time | generateId | setting | track | updatePresence => simp [perform, Command.cast]
  | startTask | subscribe | unsubscribe => simp [perform, Command.cast, waiting, setPending]
  | _ =>
      simp only [perform, Command.cast, List.filterMap_nil, List.append_nil]
      split <;> rfl

theorem waiting_setWorker {worker : Option Worker} :
    (node.setWorker other number worker).waiting topic sender tenantId pid =
      node.waiting topic sender tenantId pid :=
  rfl

/-- A process that still runs was not removed. -/
theorem ne_of_alive_remove (alive : ((node.remove other number).workers tenantId pid).isSome) :
    ¬(tenantId = other ∧ pid = number) := by
  rintro ⟨rfl, rfl⟩
  simp [remove, setWorker, setMailbox] at alive

theorem mailboxes_setMailbox_of_ne {mailbox : Mailbox}
    (different : ¬(tenantId = other ∧ pid = number)) :
    (node.setMailbox other number mailbox).mailboxes tenantId pid =
      node.mailboxes tenantId pid := by
  simp only [setMailbox]
  by_cases tenant : tenantId = other
  · subst tenant
    rw [Function.update_self, Function.update_of_ne fun same => different ⟨rfl, same⟩]
  · rw [Function.update_of_ne tenant]

theorem waiting_remove (alive : ((node.remove other number).workers tenantId pid).isSome) :
    (node.remove other number).waiting topic sender tenantId pid =
      node.waiting topic sender tenantId pid :=
  congrArg (fun mailbox : Mailbox => (mailbox sender).filter _)
    (mailboxes_setMailbox_of_ne (ne_of_alive_remove alive))

/-- One step, for one sender: what waits and what is heard is what is delivered and what waits
then. -/
theorem Step.waiting (taken : Step native json rate node label next)
    (listens : node.Listens topic tenantId pid) (alive : (next.workers tenantId pid).isSome) :
    node.waiting topic sender tenantId pid ++
        (node.casts label).filterMap (Cast.heardBy topic sender tenantId pid) =
      ((node.deliveries sender tenantId pid label).filter fun mail => mail.topic = topic) ++
        next.waiting topic sender tenantId pid := by
  cases label with
  | worker tid other event =>
      cases event with
      | performed moment =>
          rcases Option.map_eq_some_iff.mp taken with ⟨following, isNext, rfl⟩
          simp only [casts, isNext, Option.elim_some, deliveries, List.filter_nil, List.nil_append,
            waiting_setWorker, waiting_perform listens.once]
      | delivered origin =>
          simp only [Step, Node.step, workerStep] at taken
          split at taken <;> cases taken
          next socket mail rest running mailbox =>
            simp only [casts, List.filterMap_nil, List.append_nil, deliveries]
            by_cases same : tid = tenantId ∧ other = pid ∧ origin = sender
            · rcases same with ⟨rfl, rfl, rfl⟩
              simp only [Node.waiting, mailbox, push, setMailbox, Function.update_self, and_self,
                if_true, List.take_succ_cons, List.take_zero, ← List.filter_append]
              rfl
            · rw [if_neg same, List.filter_nil, List.nil_append]
              refine congrArg (List.filter _) (Eq.symm ?_)
              by_cases own : tenantId = tid ∧ pid = other
              · rcases own with ⟨rfl, rfl⟩
                have unlike : sender ≠ origin := fun equal => same ⟨rfl, rfl, equal.symm⟩
                simp only [push, setMailbox, Function.update_self, Function.update_of_ne unlike]
              · exact congrFun (mailboxes_setMailbox_of_ne own) sender
      | connected | received | answered | started =>
          simp only [Step, Node.step, workerStep] at taken
          split at taken <;> cases taken
          simp [casts, deliveries, Node.waiting, setWorker, push, setPending]
      | checked =>
          simp only [Step, Node.step, workerStep] at taken
          simp only [casts, deliveries, List.filterMap_nil, List.filter_nil, List.append_nil,
            List.nil_append]
          split at taken
          · split at taken <;> cases taken
            · rfl
            · exact (waiting_remove alive).symm
          · cases taken
      | ended =>
          cases taken
          simp only [casts, deliveries, List.filterMap_nil, List.filter_nil, List.append_nil,
            List.nil_append]
          exact (waiting_remove alive).symm
  | consumed tenantHex applied =>
      rcases taken.consumed with ⟨arriving, stores, rfl, -⟩
      simp [casts, deliveries, Node.waiting]
  | expired key =>
      cases taken
      simp [casts, deliveries, Node.waiting]
  | collected now deleted =>
      simp only [Step, Node.step] at taken
      split at taken <;> cases taken
      simp [casts, deliveries, Node.waiting]

end Steps

end Node

/-- User 5 connects and joins the channel. -/
def listening : List NodeLabel :=
  .worker (.replicate 1) 0 (.connected (.replicate 5) (.replicate 3)) ::
    finishes (.replicate 1) 5 4 ++
  .worker (.replicate 1) 0 (.received joinOf) :: finishes (.replicate 1) 5 8

/-- The process performs commands, and answers. -/
def answers (pid count : ℕ) : List NodeLabel :=
  List.replicate count (.worker (.replicate 1) pid (.performed carriedOut)) ++
    [.worker (.replicate 1) pid .answered]

/-- User 2 and another device of user 5 join it too, and user 2 types. The socket that
listens hears the device first, and then what user 2 did, in order. -/
def announced : List NodeLabel :=
  .worker (.replicate 1) 1 (.connected (.replicate 2) (.replicate 4)) :: answers 1 4 ++
  .worker (.replicate 1) 1 (.received joinOf) :: answers 1 6 ++
  .worker (.replicate 1) 2 (.connected (.replicate 5) (.replicate 6)) :: answers 2 4 ++
  .worker (.replicate 1) 2 (.received joinOf) :: answers 2 7 ++
  .worker (.replicate 1) 1 (.received (Sdk.pushFrame 0 1 Event.msgTyping [])) :: answers 1 1 ++
  [.worker (.replicate 1) 0 (.delivered (.replicate 1, 2)),
    .worker (.replicate 1) 0 (.delivered (.replicate 1, 1)),
    .worker (.replicate 1) 0 (.delivered (.replicate 1, 1))]

/-- The topic of the channel that they join. -/
def joinedTopic : Bytes :=
  channelTopic (Id16.replicate 1).val (Base.encode16 (Id16.replicate 7).val)

end Mercury.Gateway
