import Mercury.Gateway.BroadcastOrder

/-!
# Who a broadcast is from

What a socket is told by a broadcast, a socket of its tenant told it with a frame: the
gateway puts in who joined, types, reads, uploads a key package or sends a message, and
takes it from the connection. So every mail that waits in a run has a frame behind it
(`Node.Informed`), and nothing is pushed to a client in the name of another.
-/

namespace Mercury.Gateway

open Foundations Foundations.Program Persistence

/-- The topic is that of a channel or of its presence. -/
def IsAbout (tenantId channelId topic : Bytes) : Prop :=
  topic = channelTopic tenantId channelId ∨ topic = presenceTopic tenantId channelId

/-- What the frame of a user tells the others of the tenant. -/
inductive Tells (native : Native) (tenantId userId : Id16) : Frame → Mail → Prop where
  | joins {ref : ℕ} {topic channelId : Bytes}
      (isChannel : stripPrefix (ascii "channel:") topic = some channelId) :
      Tells native tenantId userId (.join ref topic)
        ⟨channelTopic tenantId.val channelId, Event.presenceJoin, userId.val⟩
  | sends {ref topicId bucket : ℕ} {payload topic channelId channelIdBin : Bytes}
      {envelope : Envelope} (isAbout : IsAbout tenantId.val channelId topic)
      (decoded : channelIdToBin channelId = some channelIdBin)
      (sends : Sends native payload envelope bucket) :
      Tells native tenantId userId (.push ref topicId Event.msgSend payload)
        ⟨topic, Event.msgNew, native.envelopeEncode
          { envelope with
            tenantId := tenantId.val
            channelId := channelIdBin
            senderId := userId.val }⟩
  | announces {ref topicId : ℕ} {event sent : Byte} {payload topic channelId data : Bytes}
      (isAbout : IsAbout tenantId.val channelId topic)
      (announces : Announces native userId.val payload event sent data) :
      Tells native tenantId userId (.push ref topicId event payload) ⟨topic, sent, data⟩

theorem IsAbout.owned {tenantId channelId topic : Bytes}
    (isAbout : IsAbout tenantId channelId topic) : OwnedName tenantId topic := by
  rcases isAbout with rfl | rfl
  · exact ownedName_channelTopic _ _
  · exact ownedName_presenceTopic _ _

theorem Tells.owned {native : Native} {tenantId userId : Id16} {frame : Frame} {mail : Mail}
    (tells : Tells native tenantId userId frame mail) : OwnedName tenantId.val mail.topic := by
  cases tells with
  | joins => exact ownedName_channelTopic _ _
  | sends isAbout => exact isAbout.owned
  | announces isAbout => exact isAbout.owned

section Told

variable (native : Native) (labels : List NodeLabel) (tenantId : Id16)

/-- A socket of the tenant sent a frame that tells the mail. -/
def Told (mail : Mail) : Prop :=
  ∃ userId deviceId data, Sent labels tenantId userId deviceId data ∧
    Tells native tenantId userId (Frame.parse data) mail

/-- What the call broadcasts, if anything, was told. -/
def Call.ToldIn : Call → Prop
  | .broadcast topic event payload | .broadcastFrom topic event payload =>
      Told native labels tenantId ⟨topic, event, payload⟩
  | _ => True

/-- What the command broadcasts, if anything, was told. -/
def Command.ToldIn : Command → Prop
  | .broadcast topic event payload | .broadcastFrom topic event payload =>
      Told native labels tenantId ⟨topic, event, payload⟩
  | _ => True

/-- The entries of the socket carry the topics of their channels. -/
def Socket.Titled (socket : Socket) : Prop :=
  ∀ topicId info, socket.topicIds.lookup topicId = some info →
    ∀ topic, info.pubsub = some topic →
      ∃ channelId, info.channelId = some channelId ∧ IsAbout socket.tenantId.val channelId topic

/-- Where it returns, the entries of the socket are in order. -/
def StaysTitled : Except Raise Reaction → Prop
  | .ok reaction => reaction.socket.Titled
  | .error _ => True

/-- What the process has still to do broadcasts only what was told. -/
def Worker.Tells : Worker → Prop
  | .idle socket => socket.Titled
  | .handling rest =>
      rest.Ensures (fun _ => True) (Command.ToldIn native labels tenantId) StaysTitled
  | .running rest => PerformsOnly (fun _ => True) (Command.ToldIn native labels tenantId) rest

end Told

section Told

variable {native : Native} {json : Json} {rate : ℕ} {labels : List NodeLabel} {label : NodeLabel}
  {tenantId : Id16} {pid : ℕ} {socket : Socket} {data : Bytes}

theorem Told.owned {mail : Mail} (told : Told native labels tenantId mail) :
    OwnedName tenantId.val mail.topic := by
  rcases told with ⟨userId, deviceId, data, -, tells⟩
  exact tells.owned

theorem Told.append {mail : Mail} (told : Told native labels tenantId mail) :
    Told native (labels ++ [label]) tenantId mail := by
  rcases told with ⟨userId, deviceId, data, sent, tells⟩
  exact ⟨userId, deviceId, data, sent.append, tells⟩

theorem Command.ToldIn.append {command : Command}
    (told : command.ToldIn native labels tenantId) :
    command.ToldIn native (labels ++ [label]) tenantId := by
  cases command with
  | broadcast | broadcastFrom => exact Told.append told
  | _ => trivial

theorem Worker.Tells.append {worker : Worker} (tells : worker.Tells native labels tenantId) :
    worker.Tells native (labels ++ [label]) tenantId := by
  cases worker with
  | idle socket => exact tells
  | handling rest => exact Ensures.mono tells (fun _ => Command.ToldIn.append) fun _ holds => holds
  | running rest => exact Ensures.mono tells (fun _ => Command.ToldIn.append) fun _ holds => holds

/-! ## What a socket asks for -/

/-- A command of a call broadcasts what the call does. -/
theorem StoredCommands.toldIn {asked : Call} {command : Command}
    (issued : StoredCommands asked command) (told : asked.ToldIn native labels tenantId) :
    command.ToldIn native labels tenantId := by
  cases command with
  | broadcast topic event payload =>
      cases asked with
      | broadcast =>
          cases issued
          exact told
      | _ => cases issued
  | broadcastFrom topic event payload =>
      cases asked with
      | broadcastFrom =>
          cases issued
          exact told
      | _ => cases issued
  | _ => trivial

theorem stored_toldIn {admitted : Performed commands Raise → Prop} {asked : Call}
    (told : asked.ToldIn native labels tenantId) :
    PerformsOnly admitted (Command.ToldIn native labels tenantId) (stored json rate asked) :=
  Ensures.mono (stored_commands asked) (fun _ issued => issued.toldIn told) fun _ _ => trivial

theorem titled_init (tenantId userId deviceId : Id16) :
    (Socket.init tenantId userId deviceId).Titled := by
  intro topicId info entry
  simp [Socket.init] at entry

theorem Socket.Titled.moves {next : Socket} {frame : Frame}
    {granted : Performed calls Raise → Prop} (titled : socket.Titled)
    (moves : Moves granted socket next frame) : next.Titled := by
  intro topicId info entry topic subscribed
  rw [moves.ids.1]
  rcases moves.entry entry with old | ⟨ref, joined, -, joins⟩
  · exact titled topicId info old topic subscribed
  · cases joins with
    | channel =>
        cases subscribed
        exact ⟨_, rfl, Or.inl rfl⟩
    | lobby => cases subscribed
    | presence =>
        cases subscribed
        exact ⟨_, rfl, Or.inr rfl⟩

/-- What a frame broadcasts it tells, in the name of the user of the socket. -/
theorem FrameCalls.toldIn {asked : Call} (titled : socket.Titled)
    (own : socket.tenantId = tenantId)
    (sent : Sent labels tenantId socket.userId socket.deviceId data)
    (made : FrameCalls native socket (Frame.parse data) asked) :
    asked.ToldIn native labels tenantId := by
  subst own
  have told : ∀ mail, Tells native socket.tenantId socket.userId (Frame.parse data) mail →
      Told native labels socket.tenantId mail :=
    fun mail tells => ⟨socket.userId, socket.deviceId, data, sent, tells⟩
  cases frameEq : Frame.parse data with
  | heartbeat =>
      rw [frameEq] at made
      exact made.elim
  | ignored =>
      rw [frameEq] at made
      exact made.elim
  | leave topicId =>
      rw [frameEq] at made
      rcases made with ⟨info, pubsub, -, -, rfl⟩
      trivial
  | join ref topic =>
      rw [frameEq] at made told
      cases made with
      | announce isChannel => exact told _ (.joins isChannel)
      | _ => trivial
  | push ref topicId event payload =>
      rw [frameEq] at made told
      rcases made with ⟨info, entry, made⟩
      cases made with
      | broadcastNew subscribed names sends =>
          rcases titled topicId info entry _ subscribed with ⟨channelId, named, isAbout⟩
          rcases names with ⟨hex, hexNamed, decoded⟩
          obtain rfl := Option.some.inj (named.symm.trans hexNamed)
          exact told _ (.sends isAbout decoded sends)
      | broadcast subscribed announces =>
          rcases titled topicId info entry _ subscribed with ⟨channelId, -, isAbout⟩
          exact told _ (.announces isAbout announces)
      | broadcastFrom subscribed announces =>
          rcases titled topicId info entry _ subscribed with ⟨channelId, -, isAbout⟩
          exact told _ (.announces isAbout announces)
      | _ => trivial

theorem storedHandleIn_tells (titled : socket.Titled)
    (speaks : socket.SpeaksFor labels tenantId pid) :
    (Worker.handling (storedHandleIn native json rate data socket)).Tells native
      (labels ++ [.worker tenantId pid (.received data)]) tenantId := by
  have sent : Sent (labels ++ [.worker tenantId pid (.received data)]) tenantId socket.userId
      socket.deviceId data := sent_received speaks.identity
  have handled : (handleIn native data socket).Ensures (fun _ => True)
      (Call.ToldIn native (labels ++ [.worker tenantId pid (.received data)]) tenantId)
      StaysTitled := by
    refine Ensures.mono handleFrame_calls
      (fun asked made => made.toldIn titled speaks.tenant sent) ?_
    rintro (raised | reaction) moves
    · trivial
    · exact titled.moves moves
  exact Ensures.through handled fun asked told =>
    (stored_toldIn told).post_mono fun _ _ => trivial

theorem initSocket_tells {userId deviceId : Id16} :
    (Worker.handling (initSocket tenantId userId deviceId)).Tells native labels tenantId := by
  have provisions : (ensureDevice tenantId userId deviceId).Ensures (fun _ => True)
      (Command.ToldIn native labels tenantId) fun _ => True := by
    apply Ensures.mono ensureDevice_provisions _ fun _ _ => trivial
    intro command issued
    cases command with
    | broadcast | broadcastFrom => exact issued.elim
    | _ => trivial
  refine Ensures.bind.mpr (Ensures.post_mono provisions ?_)
  rintro (raised | provisioned) -
  · trivial
  · exact titled_init tenantId userId deviceId

/-- A background task broadcasts nothing. -/
theorem storedRunTask_tells (task : BackgroundTask) :
    (Worker.running (storedRunTask json rate task)).Tells native labels tenantId := by
  have silent : (runTask task).Ensures (fun _ => True) (Call.ToldIn native labels tenantId)
      fun _ => True := by
    cases task with
    | updateReadPosition => exact Ensures.seq (Ensures.ask trivial) fun _ => trivial
    | persistMessage =>
        refine Ensures.seq (Ensures.ask trivial) fun written => ?_
        split
        · refine Ensures.seq (Ensures.ask trivial) fun _ => ?_
          refine Ensures.seq (Ensures.ask trivial) fun running => ?_
          split
          · exact Ensures.seq (Ensures.ask trivial) fun _ => trivial
          · trivial
        · trivial
  exact Ensures.through silent fun asked told =>
    (stored_toldIn told).post_mono fun _ _ => trivial

theorem Worker.Tells.next {worker : Worker} {next : NextCommand}
    (tells : worker.Tells native labels tenantId) (isNext : worker.next = some next) :
    next.command.ToldIn native labels tenantId ∧
      ∀ answer, (next.resume answer).Tells native labels tenantId := by
  cases worker with
  | idle socket => cases isNext
  | handling rest =>
      cases rest with
      | done reaction => cases isNext
      | fail error => cases isNext
      | call command rest =>
          cases isNext
          exact ⟨tells.1, fun answer => tells.2 answer trivial⟩
  | running rest =>
      cases rest with
      | done result => cases isNext
      | fail error => cases isNext
      | call command rest =>
          cases isNext
          exact ⟨tells.1, fun answer => tells.2 answer trivial⟩

end Told

namespace Node

variable {native : Native} {json : Json} {rate : ℕ} {stores : Stores} {supply : Supply}
  {node next source target : Node} {labels : List NodeLabel} {label : NodeLabel}
  {sender : Id16 × ℕ} {tenantId other : Id16} {pid number : ℕ} {worker : Worker} {mail : Mail}

/-! ## Mail -/

/-- Mail that a broadcast brings is on a topic that the process is subscribed to. -/
theorem mem_mailboxes_broadcast {origin : Id16 × ℕ} {sent : Mail} {except : Option (Id16 × ℕ)}
    (waits : mail ∈ (node.broadcast origin sent except).mailboxes tenantId pid sender) :
    mail ∈ node.mailboxes tenantId pid sender ∨
      mail = sent ∧ ⟨mail.topic, tenantId, pid⟩ ∈ node.subscriptions := by
  by_cases fromSender : sender = origin
  swap
  · simp only [broadcast, Function.update_of_ne fromSender] at waits
    exact Or.inl waits
  subst fromSender
  simp only [broadcast, Function.update_self] at waits
  rcases List.mem_append.mp waits with old | new
  · exact Or.inl old
  · rcases List.mem_map.mp new with ⟨subscription, subscribed, rfl⟩
    rcases List.mem_filter.mp subscribed with ⟨held, isOwn⟩
    rcases of_decide_eq_true isOwn with ⟨rfl, -⟩
    exact Or.inr ⟨rfl, held⟩

/-- The mail of a command is what it broadcasts. -/
theorem mem_mailboxes_perform {moment : Moment} {command : Command}
    (waits : mail ∈ (node.perform other number moment command).2.mailboxes tenantId pid sender) :
    mail ∈ node.mailboxes tenantId pid sender ∨
      mail ∈ (command.cast other number).map Cast.mail ∧
        ⟨mail.topic, tenantId, pid⟩ ∈ node.subscriptions := by
  cases command with
  | broadcast topic event payload | broadcastFrom topic event payload =>
      rcases mem_mailboxes_broadcast waits with old | ⟨rfl, subscribed⟩
      · exact Or.inl old
      · exact Or.inr ⟨List.mem_singleton_self _, subscribed⟩
  | time | generateId | setting | track | updatePresence => exact Or.inl waits
  | startTask | subscribe | unsubscribe => exact Or.inl waits
  | natsPublish =>
      simp only [perform] at waits
      split at waits <;> exact Or.inl waits
  | _ =>
      simp only [perform] at waits
      split at waits <;> exact Or.inl waits

theorem mem_mailboxes_setMailbox {mailbox : Mailbox}
    (waits : mail ∈ (node.setMailbox other number mailbox).mailboxes tenantId pid sender)
    (kept : ∀ kept ∈ mailbox sender, kept ∈ node.mailboxes other number sender) :
    mail ∈ node.mailboxes tenantId pid sender := by
  by_cases same : tenantId = other ∧ pid = number
  · rcases same with ⟨rfl, rfl⟩
    simp only [setMailbox, Function.update_self] at waits
    exact kept mail waits
  · exact congrFun (mailboxes_setMailbox_of_ne same) sender ▸ waits

/-- New mail was broadcast by the step on a topic that the process is subscribed to. -/
theorem Step.mailboxes (taken : Step native json rate node label next)
    (waits : mail ∈ next.mailboxes tenantId pid sender) :
    mail ∈ node.mailboxes tenantId pid sender ∨
      mail ∈ (node.casts label).map Cast.mail ∧
        ⟨mail.topic, tenantId, pid⟩ ∈ node.subscriptions := by
  cases label with
  | worker other number event =>
      cases event with
      | performed moment =>
          rcases Option.map_eq_some_iff.mp taken with ⟨following, isNext, rfl⟩
          simp only [casts, isNext, Option.elim_some]
          exact mem_mailboxes_perform waits
      | delivered origin =>
          simp only [Step, Node.step, workerStep] at taken
          split at taken <;> cases taken
          next socket first rest running mailbox =>
            refine Or.inl (mem_mailboxes_setMailbox waits fun kept keptMem => ?_)
            by_cases fromOrigin : sender = origin
            · subst fromOrigin
              rw [Function.update_self] at keptMem
              rw [mailbox]
              exact List.mem_cons_of_mem _ keptMem
            · rwa [Function.update_of_ne fromOrigin] at keptMem
      | connected | received | answered | started =>
          simp only [Step, Node.step, workerStep] at taken
          split at taken <;> cases taken
          exact Or.inl waits
      | checked =>
          simp only [Step, Node.step, workerStep] at taken
          split at taken
          · split at taken <;> cases taken
            · exact Or.inl waits
            · exact Or.inl (mem_mailboxes_setMailbox waits fun _ empty => by cases empty)
          · cases taken
      | ended =>
          cases taken
          exact Or.inl (mem_mailboxes_setMailbox waits fun _ empty => by cases empty)
  | consumed tenantHex applied =>
      rcases taken.consumed with ⟨arriving, stores, rfl, -⟩
      exact Or.inl waits
  | expired key =>
      cases taken
      exact Or.inl waits
  | collected now deleted =>
      simp only [Step, Node.step] at taken
      split at taken <;> cases taken
      exact Or.inl waits

/-! ## Whole runs -/

/-- Processes broadcast what was told, and what waits was told. -/
structure Informed (native : Native) (labels : List NodeLabel) (node : Node) : Prop where
  workers : ∀ {tenantId pid worker}, node.workers tenantId pid = some worker →
    worker.Tells native labels tenantId
  mailboxes : ∀ {tenantId pid sender mail}, mail ∈ node.mailboxes tenantId pid sender →
    Told native labels tenantId mail

theorem informed_start : (start stores).Informed native [] where
  workers running := by cases running
  mailboxes waits := by cases waits

/-- What a step broadcasts was told to the tenant of the process. -/
theorem Informed.casts (informed : node.Informed native labels)
    (isCast : mail ∈ (node.casts label).map Cast.mail) :
    ∃ tenantId, Told native labels tenantId mail := by
  unfold Node.casts at isCast
  split at isCast
  · next tenant number moment =>
      rcases isNext : (node.workers tenant number).bind Worker.next with _ | following
      · rw [isNext] at isCast
        cases isCast
      rw [isNext] at isCast
      rcases Option.bind_eq_some_iff.mp isNext with ⟨worker, running, isNext⟩
      have told := ((informed.workers running).next isNext).1
      refine ⟨tenant, ?_⟩
      rw [Option.elim_some] at isCast
      generalize following.command = command at isCast told
      cases command with
      | broadcast | broadcastFrom =>
          obtain rfl := List.mem_singleton.mp isCast
          exact told
      | _ => cases isCast
  · cases isCast

theorem Informed.step (informed : node.Informed native labels)
    (attributed : node.Attributed native stores supply labels) (isolated : node.Isolated)
    (taken : Step native json rate node label next) :
    next.Informed native (labels ++ [label]) where
  workers := by
    intro tenantId pid worker present
    cases taken.becomes present with
    | same running _ => exact (informed.workers running).append
    | connected => exact initSocket_tells
    | @received socket data idle =>
        have speaks : socket.SpeaksFor labels tenantId pid := attributed _ _ _ idle
        exact storedHandleIn_tells (informed.workers idle) speaks
    | performed running isNext =>
        exact (((informed.workers running).next isNext).2 _).append
    | answered finished => exact informed.workers finished
    | @checked socket checked idle survives =>
        rw [Socket.heartbeatCheck_eq_some survives]
        exact informed.workers idle
    | started => exact storedRunTask_tells _
  mailboxes := by
    intro tenantId pid sender mail waits
    rcases taken.mailboxes waits with old | ⟨isCast, subscribed⟩
    · exact (informed.mailboxes old).append
    · rcases informed.casts isCast with ⟨other, told⟩
      obtain rfl : other = tenantId :=
        Subtype.ext (told.owned.unique (isolated.subscriptions subscribed))
      exact told.append

theorem informed_run (run : Run (Step native json rate) (Node.start stores) labels node) :
    node.Informed native labels ∧ node.Isolated := by
  induction run with
  | refl => exact ⟨informed_start, isolated_start _⟩
  | snoc earlier last ih =>
      exact ⟨ih.1.step (traced_run earlier).attributed ih.2 last, ih.2.step last⟩

end Node

/-- What a broadcast makes a socket push to its client, a socket of the tenant told before, in
the name of the user that it was connected for. -/
theorem broadcasts_told (native : Native) (json : Json) (rate : ℕ) {stores : Stores}
    {labels : List NodeLabel} {source target : Node} {tenantId : Id16} {pid : ℕ}
    {sender : Id16 × ℕ}
    (run : Run (Node.Step native json rate) (Node.start stores) labels source)
    (taken : Node.Step native json rate source (.worker tenantId pid (.delivered sender)) target) :
    ∃ socket mail, source.workers tenantId pid = some (.idle socket) ∧
      target.pushed tenantId = source.pushed tenantId ++
        [(pid, (handleBroadcast mail.topic mail.event mail.payload socket).pushed)] ∧
      Told native labels tenantId mail := by
  have informed := (Node.informed_run run).1
  simp only [Node.Step, Node.step, Node.workerStep] at taken
  split at taken <;> cases taken
  next socket mail rest idle waiting =>
    have waits : mail ∈ source.mailboxes tenantId pid sender := waiting ▸ List.mem_cons_self
    exact ⟨socket, mail, idle, Function.update_self .., informed.mailboxes waits⟩

/-- User 2 types in the channel of user 5, whose socket tells its client. -/
theorem broadcasts_told_joined : ∃ source target socket mail,
    Run (Node.Step removeNative unusedJson 100) (Node.start staffed)
        (listening ++ announced.dropLast) source ∧
      Node.Step removeNative unusedJson 100 source
        (.worker (.replicate 1) 0 (.delivered (.replicate 1, 1))) target ∧
      target.pushed (.replicate 1) = source.pushed (.replicate 1) ++
        [(0, (handleBroadcast mail.topic mail.event mail.payload socket).pushed)] ∧
      Told removeNative (listening ++ announced.dropLast) (.replicate 1) mail := by
  have played : ∃ source target,
      Run.play (Node.step removeNative unusedJson 100) (Node.start staffed)
        (listening ++ announced.dropLast) = some source ∧
      Node.step removeNative unusedJson 100 source
        (.worker (.replicate 1) 0 (.delivered (.replicate 1, 1))) = some target := ⟨_, _, rfl, rfl⟩
  rcases played with ⟨source, target, reached, taken⟩
  rcases broadcasts_told removeNative unusedJson 100 (Run.of_play reached) taken with
    ⟨socket, mail, -, pushed, told⟩
  exact ⟨source, target, socket, mail, Run.of_play reached, taken, pushed, told⟩

end Mercury.Gateway
