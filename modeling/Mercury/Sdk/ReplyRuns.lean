import Mathlib.Data.Set.Card
import Mercury.Gateway.NodeRuns
import Mercury.Gateway.Routing
import Mercury.Gateway.SingleReplies
import Mercury.Sdk.Refs

/-!
# Requests and replies on one connection

A transport and the process of its socket, with the frames on their way in both
directions. While every push is one that the gateway answers, the pending replies
are the refs of the frames that still wait: those that the gateway has not handled,
and those whose replies have not arrived.
-/

namespace Mercury.Sdk

open Foundations Foundations.Program Gateway

/-- The events that the SDK pushes. -/
def pushedEvents : List Byte :=
  [Event.msgSend, Event.msgHistory, Event.msgTyping, Event.msgRead, Event.mlsKeyPackage,
    Event.mlsFetchKp, Event.mlsCommit, Event.mlsWelcome, Event.syncRequest, Event.syncPush,
    Event.mlsMembers, Event.mlsGroupInfo, Event.mlsCek]

/-- An open connection between a transport and the process of its socket. -/
structure Link (Callback : Type) where
  transport : Transport Callback
  /-- The frames that the gateway has not handled. -/
  requests : List Bytes
  process : SocketProcess
  /-- The frames that the transport has not received. -/
  incoming : List Bytes

inductive LinkLabel (Callback : Type) where
  | join (topic : Bytes)
  | push (topic : Bytes) (event : Byte) (payload : Bytes)
  | on (topicId event : ℕ) (callback : Callback)
  | onByName (topic : Bytes) (event : ℕ) (callback : Callback)
  | off (topicId event : ℕ)
  | heartbeat
  | handled (data : Bytes) (made : List (Performed calls Raise)) (pushed : List Bytes)
  | delivered (pubsubTopic : Bytes) (event : Byte) (payload : Bytes) (pushed : List Bytes)
  | heartbeatCheck
  | received (data : Bytes)

namespace Link

variable {Callback : Type}

/-- `WebSocket.send`, on an open socket. -/
def send (frame : Bytes) (link : Link Callback) : Link Callback :=
  { link with requests := link.requests ++ [frame] }

/-- What a step of the process leaves. -/
def served (process : SocketProcess) (pushed : List Bytes) (link : Link Callback) :
    Link Callback :=
  { link with
    process := process
    incoming := link.incoming ++ pushed }

end Link

/-- The steps of a connection that stays open, with the pushes of `events`. -/
inductive LinkStep {Callback : Type} (native : Native) (events : List Byte) :
    Link Callback → LinkLabel Callback → Link Callback → Prop where
  | join {link : Link Callback} {topic : Bytes} :
      LinkStep native events link (.join topic)
        ({ link with transport := (link.transport.join topic).1 }.send
          (link.transport.join topic).2)
  | push {link : Link Callback} {topic payload frame : Bytes} {event : Byte}
      {transport : Transport Callback} (isPushed : event ∈ events)
      (pushes : link.transport.push topic event payload = some (transport, frame)) :
      LinkStep native events link (.push topic event payload)
        ({ link with transport := transport }.send frame)
  /-- The topic is not joined. -/
  | rejected {link : Link Callback} {topic payload : Bytes} {event : Byte}
      (rejects : link.transport.push topic event payload = none) :
      LinkStep native events link (.push topic event payload) link
  | on {link : Link Callback} {topicId event : ℕ} {callback : Callback} :
      LinkStep native events link (.on topicId event callback)
        { link with transport := link.transport.on topicId event callback }
  | onByName {link : Link Callback} {topic : Bytes} {event : ℕ} {callback : Callback} :
      LinkStep native events link (.onByName topic event callback)
        { link with transport := link.transport.onByName topic event callback }
  | off {link : Link Callback} {topicId event : ℕ} :
      LinkStep native events link (.off topicId event)
        { link with transport := link.transport.off topicId event }
  | heartbeat {link : Link Callback} :
      LinkStep native events link .heartbeat
        ({ link with transport := link.transport.nextRef }.send
          (encodeFrame FrameType.heartbeat link.transport.nextRef.ref 0 []))
  | handled {link : Link Callback} {data : Bytes} {later pushed : List Bytes}
      {made : List (Performed calls Raise)} {process : SocketProcess}
      (first : link.requests = data :: later)
      (taken : ProcessStep native link.process (.handled data made pushed) process) :
      LinkStep native events link (.handled data made pushed)
        ({ link with requests := later }.served process pushed)
  | delivered {link : Link Callback} {pubsubTopic payload : Bytes} {event : Byte}
      {pushed : List Bytes} {process : SocketProcess}
      (taken : ProcessStep native link.process (.delivered pubsubTopic event payload pushed)
        process) :
      LinkStep native events link (.delivered pubsubTopic event payload pushed)
        (link.served process pushed)
  | heartbeatCheck {link : Link Callback} {socket : Socket}
      (checked : link.process.socket.heartbeatCheck = some socket) :
      LinkStep native events link .heartbeatCheck
        (link.served ⟨socket, link.process.subscriptions⟩ [])
  | received {link : Link Callback} {data : Bytes} {later : List Bytes}
      (first : link.incoming = data :: later) :
      LinkStep native events link (.received data)
        { link with
          transport := (link.transport.handleMessage data).transport
          incoming := later }

/-- The ref under which a request waits for its reply. -/
def askedRef (data : Bytes) : Option ℕ :=
  (asks (Frame.parse data)).map Prod.fst

/-- The ref that a frame of the gateway replies to. -/
def repliedRef (data : Bytes) : Option ℕ :=
  (decodeFrame data).bind fun frame =>
    if frame.type = FrameType.reply then some frame.ref else none

/-- The refs of the frames that are not answered yet. -/
def Link.unanswered {Callback : Type} (link : Link Callback) : List ℕ :=
  link.incoming.filterMap repliedRef ++ link.requests.filterMap askedRef

/-- A connection as it is opened: nothing is on its way and nothing is waited for. -/
structure Link.Opened {Callback : Type} (link : Link Callback)
    (tenantId userId deviceId : Id16) : Prop where
  nothingPending : ∀ ref, link.transport.pendingReplies ref = none
  nothingJoining : ∀ ref, link.transport.pendingJoinRefs ref = none
  noRequests : link.requests = []
  freshProcess : link.process = SocketProcess.init tenantId userId deviceId
  noIncoming : link.incoming = []

/-- In every state that the process reaches, a push of `events` on a joined topic is answered
by one reply; and over every run that pushes `events` only, to a ref that `fits`, as many
replies are pending as frames are unanswered, and none once all replies have arrived. -/
structure RepliesInStep (events : List Byte) (fits : ℕ → Prop) : Prop where
  answered : ∀ (Callback : Type) (native : Native) (tenantId userId deviceId : Id16)
    (opened reached : Link Callback) (labels : List (LinkLabel Callback)) (ref topicId : ℕ)
    (info : TopicInfo) (event : Byte) (payload : Bytes) (made : List (Performed calls Raise))
    (outcome : Except Raise Reaction), opened.Opened tenantId userId deviceId →
      Run (LinkStep native pushedEvents) opened labels reached →
      reached.process.socket.topicIds.lookup topicId = some info → event ∈ events →
      (handleIn native (pushFrame ref topicId event payload) reached.process.socket).Performs
        made outcome →
      ∃ reaction, outcome = .ok reaction ∧ AnswersOnce ref topicId reaction
  balanced : ∀ (Callback : Type) (native : Native) (tenantId userId deviceId : Id16)
    (opened reached : Link Callback) (labels : List (LinkLabel Callback)),
      opened.Opened tenantId userId deviceId →
      Run (LinkStep native events) opened labels reached →
      fits reached.transport.ref →
      {ref | reached.transport.pendingReplies ref ≠ none}.encard = reached.unanswered.length ∧
      (reached.requests = [] → reached.incoming = [] →
        ∀ ref, reached.transport.pendingReplies ref = none)

/-! ## What the transport waits for -/

/-- The transport waits for what is in flight, and for nothing else. -/
structure Awaits {Callback : Type} (transport : Transport Callback)
    (inFlight : List (ℕ × PendingReply)) : Prop extends Tracked False transport inFlight where
  complete : ∀ ref pending, transport.pendingReplies ref = some pending →
    (ref, pending) ∈ inFlight

namespace Awaits

variable {Callback : Type} {transport next : Transport Callback}
  {inFlight : List (ℕ × PendingReply)}

theorem of_same (awaits : Awaits transport inFlight) (ref : next.ref = transport.ref)
    (pendingReplies : next.pendingReplies = transport.pendingReplies)
    (pendingJoinRefs : next.pendingJoinRefs = transport.pendingJoinRefs) :
    Awaits next inFlight where
  toTracked := awaits.toTracked.of_same ref pendingReplies pendingJoinRefs
  complete other pending known := awaits.complete other pending (pendingReplies ▸ known)

theorem nextRef (awaits : Awaits transport inFlight) : Awaits transport.nextRef inFlight where
  toTracked := awaits.toTracked.nextRef
  complete := awaits.complete

/-- A request is waited for under the ref that it is tracked by. -/
theorem ask (awaits : Awaits transport inFlight) {pending : PendingReply}
    (tracked : Tracked False next (inFlight ++ [(transport.ref + 1, pending)]))
    (pendingReplies : next.pendingReplies =
      Function.update transport.pendingReplies (transport.ref + 1) (some pending)) :
    Awaits next (inFlight ++ [(transport.ref + 1, pending)]) where
  toTracked := tracked
  complete other known knownEq := by
    rw [pendingReplies, Function.update_apply] at knownEq
    rw [List.mem_append]
    split at knownEq
    · next fresh =>
        cases knownEq
        exact Or.inr (by simp [fresh])
    · exact Or.inl (awaits.complete other known knownEq)

theorem handleReply (frame : DecodedFrame) {pending : PendingReply}
    (awaits : Awaits transport ((frame.ref, pending) :: inFlight)) :
    Awaits (transport.handleReply frame) inFlight where
  toTracked := awaits.toTracked.handleReply frame pending
  complete other known knownEq := by
    rw [(transport.handleReply_refs awaits.joinRefs frame).2.1, Function.update_apply] at knownEq
    split at knownEq
    · cases knownEq
    · next different =>
        rcases List.mem_cons.mp (awaits.complete other known knownEq) with same | earlier
        · exact absurd (congrArg Prod.fst same) different
        · exact earlier

theorem pending_iff (awaits : Awaits transport inFlight) (ref : ℕ) :
    transport.pendingReplies ref ≠ none ↔ ref ∈ inFlight.map Prod.fst := by
  constructor
  · intro waiting
    rcases Option.ne_none_iff_exists'.mp waiting with ⟨pending, known⟩
    exact List.mem_map.mpr ⟨_, awaits.complete ref pending known, rfl⟩
  · intro refMem
    rcases List.mem_map.mp refMem with ⟨asked, askedMem, rfl⟩
    rcases awaits.expected asked askedMem with known | ⟨forgotten, -⟩
    · exact Option.ne_none_iff_exists'.mpr ⟨asked.2, known⟩
    · exact forgotten.elim

end Awaits

/-! ## What the frames say -/

/-- A request of this kind is answered, if it asks for an answer. -/
def Answerable (data : Bytes) : Prop :=
  ∀ ref topicId event payload, Frame.parse data = .push ref topicId event payload →
    event ≠ Event.msgTyping ∧ event ≠ Event.syncCursor

theorem repliedRef_replyFrame (ref topicId : ℕ) (status : Byte) (data : Bytes) :
    repliedRef (replyFrame ref topicId status data) = some (ref % 256 ^ 4) := by
  rw [repliedRef, replyFrame_eq_encodeFrame, decodeFrame_encodeFrame]
  simp

theorem askedRef_lt {data : Bytes} {ref : ℕ} (asked : askedRef data = some ref) :
    ref < 256 ^ 4 := by
  have bounded : ∀ r0 r1 r2 r3 : Byte, fromLittleEndian [r0, r1, r2, r3] < 256 ^ 4 := by
    intro r0 r1 r2 r3
    simp only [fromLittleEndian]
    omega
  unfold askedRef Frame.parse at asked
  split at asked
  · dsimp only at asked
    split_ifs at asked
    · cases asked
    · cases asked
      exact bounded _ _ _ _
    · cases asked
    · split at asked
      · cases asked
        exact bounded _ _ _ _
      · cases asked
    · cases asked
  · cases asked

/-- A frame that is no push is replied to if it is a join. -/
theorem repliedRef_of_unpushed {process next : SocketProcess} {frame : Frame}
    {made : List (Performed calls Raise)} {pushed : List Bytes}
    (handled : Handled process made frame pushed next)
    (unpushed : ∀ ref topicId event payload, frame ≠ .push ref topicId event payload) :
    pushed.filterMap repliedRef = ((asks frame).map fun asked => asked.1 % 256 ^ 4).toList := by
  cases handled with
  | beat => rfl
  | joined => simp [repliedRef_replyFrame, asks]
  | refused => simp [repliedRef_replyFrame, asks]
  | left => rfl
  | unknown => rfl
  | pushed => exact absurd rfl (unpushed _ _ _ _)
  | ignored => rfl

/-- The process replies to a request that asks, under its ref, and to no other. -/
theorem repliedRef_of_handled {native : Native} {process next : SocketProcess} {data : Bytes}
    {made : List (Performed calls Raise)} {pushed : List Bytes} (answerable : Answerable data)
    (taken : ProcessStep native process (.handled data made pushed) next) :
    pushed.filterMap repliedRef = (askedRef data).toList := by
  have fits : ((asks (Frame.parse data)).map fun asked => asked.1 % 256 ^ 4) = askedRef data := by
    rcases asked : asks (Frame.parse data) with _ | ⟨ref, pending⟩
    · simp [askedRef, asked]
    · have small : ref < 256 ^ 4 := askedRef_lt (by rw [askedRef, asked]; rfl)
      simpa [askedRef, asked] using small
  rw [← fits]
  cases taken with
  | handled performs =>
      by_cases isPush : ∃ ref topicId event payload,
          Frame.parse data = .push ref topicId event payload
      · rcases isPush with ⟨ref, topicId, event, payload, parsed⟩
        rcases answerable ref topicId event payload parsed with ⟨notTyping, notCursor⟩
        rw [handleIn, parsed] at performs
        rcases answersOnce_handlePush notTyping notCursor performs with
          ⟨reaction, same, status, reply, pushed⟩
        cases same
        rw [pushed, parsed]
        simp [repliedRef_replyFrame, asks]
      · apply repliedRef_of_unpushed (handled_of_performs performs)
        intro ref topicId event payload parsed
        exact isPush ⟨ref, topicId, event, payload, parsed⟩

/-- A broadcast replies to nothing. -/
theorem repliedRef_of_delivered {native : Native} {process next : SocketProcess}
    {pubsubTopic payload : Bytes} {event : Byte} {pushed : List Bytes}
    (taken : ProcessStep native process (.delivered pubsubTopic event payload pushed) next) :
    pushed.filterMap repliedRef = [] := by
  cases taken
  unfold handleBroadcast
  split
  · rfl
  · next topicId _ =>
      have decoded := decodeFrame_encodeFrame FrameType.broadcast 0 topicId (event :: payload)
      rw [List.filterMap_cons_none, List.filterMap_nil]
      exact (congrArg (Option.bind · _) decoded).trans rfl

/-- What the transport does with a received frame. -/
theorem Transport.handleMessage_cases {Callback : Type} (transport : Transport Callback)
    (data : Bytes) :
    (repliedRef data = none ∧ (transport.handleMessage data).transport = transport) ∨
      ∃ frame, repliedRef data = some frame.ref ∧
        (transport.handleMessage data).transport = transport.handleReply frame := by
  unfold repliedRef Transport.handleMessage
  rcases decodeFrame data with _ | frame
  · exact Or.inl ⟨rfl, rfl⟩
  · by_cases isReply : frame.type = FrameType.reply
    · exact Or.inr ⟨frame, by simp [isReply]⟩
    · refine Or.inl ⟨by simp [isReply], ?_⟩
      simp only [isReply, if_false]
      split
      · split <;> rfl
      · rfl

theorem Transport.handleReply_ref {Callback : Type} (transport : Transport Callback)
    (frame : DecodedFrame) : (transport.handleReply frame).ref = transport.ref := by
  unfold Transport.handleReply
  dsimp only
  split
  · rfl
  · next pending _ =>
      have kept := (transport.registerReply_refs frame (frame.payload.headD statusOk)).1
      cases pending <;> exact kept

/-! ## Runs of a connection -/

namespace Link

variable {Callback : Type} {native : Native} {events : List Byte} {link next : Link Callback}
  {label : LinkLabel Callback}

/-- The transport waits for the unanswered refs, and every request can be answered. -/
structure InStep (link : Link Callback) : Prop where
  awaits : ∃ kind : ℕ → PendingReply,
    Awaits link.transport (link.unanswered.map fun ref => (ref, kind ref))
  answerable : ∀ data ∈ link.requests, Answerable data

theorem ref_le_of_step (taken : LinkStep native events link label next) :
    link.transport.ref ≤ next.transport.ref := by
  cases taken with
  | join => exact Nat.le_succ _
  | push isPushed pushes =>
      rcases Option.map_eq_some_iff.mp pushes with ⟨topicId, -, same⟩
      cases same
      exact Nat.le_succ _
  | rejected => exact le_refl _
  | on => exact le_refl _
  | onByName =>
      apply le_of_eq
      simp only [Transport.onByName]
      split <;> rfl
  | off => exact le_refl _
  | heartbeat => exact Nat.le_succ _
  | handled => exact le_refl _
  | delivered => exact le_refl _
  | heartbeatCheck => exact le_refl _
  | @received data =>
      apply le_of_eq
      rcases link.transport.handleMessage_cases data with ⟨-, same⟩ | ⟨frame, -, same⟩
      · exact (congrArg Transport.ref same).symm
      · exact ((congrArg Transport.ref same).trans (Transport.handleReply_ref _ frame)).symm

namespace InStep

/-- A step that keeps what is waited for and what is on its way. -/
theorem of_same (inStep : link.InStep) (ref : next.transport.ref = link.transport.ref)
    (pendingReplies : next.transport.pendingReplies = link.transport.pendingReplies)
    (pendingJoinRefs : next.transport.pendingJoinRefs = link.transport.pendingJoinRefs)
    (unanswered : next.unanswered = link.unanswered)
    (answerable : ∀ data ∈ next.requests, Answerable data) : next.InStep where
  awaits := by
    rcases inStep.awaits with ⟨kind, awaits⟩
    refine ⟨kind, ?_⟩
    rw [unanswered]
    exact awaits.of_same ref pendingReplies pendingJoinRefs
  answerable := answerable

/-- A sent request is waited for under a fresh ref. -/
theorem ask (inStep : link.InStep) {transport : Transport Callback} {frame : Bytes}
    {pending : PendingReply} (asked : askedRef frame = some (link.transport.ref + 1))
    (answerable : Answerable frame)
    (tracks : ∀ inFlight, Tracked False link.transport inFlight →
      Tracked False transport (inFlight ++ [(link.transport.ref + 1, pending)]))
    (pendingReplies : transport.pendingReplies =
      Function.update link.transport.pendingReplies (link.transport.ref + 1) (some pending)) :
    ({ link with transport := transport }.send frame).InStep where
  awaits := by
    rcases inStep.awaits with ⟨kind, awaits⟩
    refine ⟨Function.update kind (link.transport.ref + 1) pending, ?_⟩
    have earlier : ∀ ref ∈ link.unanswered, ref ≠ link.transport.ref + 1 := by
      intro ref refMem
      have := awaits.sent (ref, kind ref) (List.mem_map.mpr ⟨ref, refMem, rfl⟩)
      omega
    have unanswered : ({ link with transport := transport }.send frame).unanswered =
        link.unanswered ++ [link.transport.ref + 1] := by
      simp [unanswered, send, asked]
    have refs : (link.unanswered.map fun ref =>
        (ref, Function.update kind (link.transport.ref + 1) pending ref)) =
        link.unanswered.map fun ref => (ref, kind ref) := by
      apply List.map_congr_left
      intro ref refMem
      rw [Function.update_of_ne (earlier ref refMem)]
    rw [unanswered, List.map_append, refs, List.map_singleton, Function.update_self]
    exact awaits.ask (tracks _ awaits.toTracked) pendingReplies
  answerable data dataMem := by
    rcases List.mem_append.mp dataMem with earlier | new
    · exact inStep.answerable data earlier
    · rw [List.mem_singleton.mp new]
      exact answerable

/-- A heartbeat takes a ref, but waits for nothing. -/
theorem heartbeat (inStep : link.InStep) :
    ({ link with transport := link.transport.nextRef }.send
      (encodeFrame FrameType.heartbeat link.transport.nextRef.ref 0 [])).InStep := by
  have parsed : Frame.parse (encodeFrame FrameType.heartbeat link.transport.nextRef.ref 0 []) =
      .heartbeat := by
    rw [parse_encodeFrame, if_pos (by simp)]
  constructor
  · rcases inStep.awaits with ⟨kind, awaits⟩
    refine ⟨kind, ?_⟩
    have unanswered : ({ link with transport := link.transport.nextRef }.send
        (encodeFrame FrameType.heartbeat link.transport.nextRef.ref 0 [])).unanswered =
        link.unanswered := by
      simp [Link.unanswered, send, askedRef, parsed, asks]
    rw [unanswered]
    exact awaits.nextRef
  · intro data dataMem ref topicId event payload isPush
    rcases List.mem_append.mp dataMem with earlier | new
    · exact inStep.answerable data earlier ref topicId event payload isPush
    · rw [List.mem_singleton.mp new, parsed] at isPush
      cases isPush

/-- The reply of the process takes the place of the request. -/
theorem handled (inStep : link.InStep) {data : Bytes} {later pushed : List Bytes}
    {made : List (Performed calls Raise)} {process : SocketProcess}
    (first : link.requests = data :: later)
    (taken : ProcessStep native link.process (.handled data made pushed) process) :
    ({ link with requests := later }.served process pushed).InStep := by
  have answerable := inStep.answerable
  rw [first, List.forall_mem_cons] at answerable
  refine inStep.of_same rfl rfl rfl ?_ answerable.2
  simp only [Link.unanswered, served, List.filterMap_append,
    repliedRef_of_handled answerable.1 taken, first]
  rcases asked : askedRef data with _ | ref
  · simp [asked]
  · simp [asked]

/-- A received reply is waited for no longer. -/
theorem received (inStep : link.InStep) {data : Bytes} {later : List Bytes}
    (first : link.incoming = data :: later) :
    InStep { link with
      transport := (link.transport.handleMessage data).transport
      incoming := later } := by
  refine ⟨?_, inStep.answerable⟩
  rcases inStep.awaits with ⟨kind, awaits⟩
  refine ⟨kind, ?_⟩
  simp only [Link.unanswered, first] at awaits ⊢
  rcases link.transport.handleMessage_cases data with
    ⟨noReply, unchanged⟩ | ⟨frame, reply, handled⟩
  · rw [unchanged]
    rwa [List.filterMap_cons_none noReply] at awaits
  · rw [handled]
    rw [List.filterMap_cons_some reply] at awaits
    exact awaits.handleReply frame

/-- The refs stay in step as long as they fit into a frame. -/
theorem step
    (answering : ∀ event ∈ events, event ≠ Event.msgTyping ∧ event ≠ Event.syncCursor)
    (inStep : link.InStep) (fits : next.transport.ref < 256 ^ 4)
    (taken : LinkStep native events link label next) : next.InStep := by
  cases taken with
  | @join topic =>
      have parsed := parse_joinFrame topic fits
      refine inStep.ask ?_ ?_ (fun _ tracked => tracked.join topic) rfl
      · exact (congrArg (fun frame => (asks frame).map Prod.fst) parsed).trans rfl
      · intro ref topicId event payload isPush
        cases parsed.symm.trans isPush
  | @push topic payload frame event transport isPushed pushes =>
      rcases Option.map_eq_some_iff.mp pushes with ⟨topicId, -, same⟩
      cases same
      have parsed := parse_pushFrame_mod topicId event payload fits
      refine inStep.ask ?_ ?_ (fun _ tracked => tracked.push) rfl
      · exact (congrArg (fun frame => (asks frame).map Prod.fst) parsed).trans rfl
      · intro ref other sent data isPush
        cases parsed.symm.trans isPush
        exact answering event isPushed
  | rejected => exact inStep
  | on => exact inStep.of_same rfl rfl rfl rfl inStep.answerable
  | onByName =>
      refine inStep.of_same ?_ ?_ ?_ rfl inStep.answerable <;>
        (simp only [Transport.onByName]; split <;> rfl)
  | off => exact inStep.of_same rfl rfl rfl rfl inStep.answerable
  | heartbeat => exact inStep.heartbeat
  | handled first taken => exact inStep.handled first taken
  | delivered taken =>
      refine inStep.of_same rfl rfl rfl ?_ inStep.answerable
      simp [Link.unanswered, served, repliedRef_of_delivered taken]
  | heartbeatCheck =>
      refine inStep.of_same rfl rfl rfl ?_ inStep.answerable
      simp [Link.unanswered, served]
  | received first => exact inStep.received first

end InStep

theorem Opened.inStep {tenantId userId deviceId : Id16}
    (opened : link.Opened tenantId userId deviceId) : link.InStep where
  awaits := by
    have nothing : link.unanswered = [] := by
      simp [unanswered, opened.noIncoming, opened.noRequests]
    refine ⟨fun _ => .push, ?_⟩
    rw [nothing]
    constructor
    · constructor
      · simp [opened.nothingPending]
      · simp [opened.nothingPending, opened.nothingJoining]
      · simp
      · simp
      · simp
    · simp [opened.nothingPending]
  answerable := by simp [opened.noRequests]

/-- Refs that do not fit are cut in the frames, so that replies would miss them. -/
theorem inStep_of_run
    (answering : ∀ event ∈ events, event ≠ Event.msgTyping ∧ event ≠ Event.syncCursor)
    {opened : Link Callback} {labels : List (LinkLabel Callback)}
    (run : Run (LinkStep native events) opened labels link) (initially : opened.InStep)
    (fits : link.transport.ref < 256 ^ 4) : link.InStep := by
  refine run.invariant_within ?_ (fun inStep fits taken => inStep.step answering fits taken)
    initially fits
  intro source label target taken fits
  exact lt_of_le_of_lt (ref_le_of_step taken) fits

/-- As many replies are pending as frames are unanswered. -/
theorem InStep.pending_card (inStep : link.InStep) :
    {ref | link.transport.pendingReplies ref ≠ none}.encard = link.unanswered.length := by
  rcases inStep.awaits with ⟨kind, awaits⟩
  have refs : (link.unanswered.map fun ref => (ref, kind ref)).map Prod.fst = link.unanswered := by
    rw [List.map_map]
    exact List.map_id _
  have waiting : {ref | link.transport.pendingReplies ref ≠ none} =
      (link.unanswered.toFinset : Set ℕ) := by
    ext ref
    rw [Set.mem_ofPred_eq, awaits.pending_iff, refs]
    simp
  have distinct := awaits.distinct
  rw [refs] at distinct
  rw [waiting, Set.encard_coe_eq_coe_finsetCard, List.toFinset_card_of_nodup distinct]

theorem InStep.nothing_pending (inStep : link.InStep) (handled : link.requests = [])
    (arrived : link.incoming = []) (ref : ℕ) : link.transport.pendingReplies ref = none := by
  rcases inStep.awaits with ⟨kind, awaits⟩
  by_contra waiting
  have refMem := (awaits.pending_iff ref).mp waiting
  simp [unanswered, handled, arrived] at refMem

end Link

/-- Every push but a typing indicator is answered once, and as many replies are pending as
frames are unanswered for as long as the refs fit into a frame. -/
theorem replies_in_step :
    RepliesInStep (pushedEvents.filter fun event => event ≠ Event.msgTyping)
      fun ref => ref < 2 ^ 32 := by
  have answering : ∀ event ∈ pushedEvents.filter fun event => event ≠ Event.msgTyping,
      event ≠ Event.msgTyping ∧ event ≠ Event.syncCursor := by
    intro event eventMem
    rw [List.mem_filter] at eventMem
    refine ⟨of_decide_eq_true eventMem.2, ?_⟩
    rintro rfl
    exact absurd eventMem.1 (by decide)
  constructor
  · intro Callback native tenantId userId deviceId opened reached labels ref topicId info event
      payload made outcome isOpened run entry isPushed performs
    rcases answering event isPushed with ⟨notTyping, notCursor⟩
    have parsed : Frame.parse (pushFrame ref topicId event payload) =
        .push (ref % 256 ^ 4) (topicId % 256 ^ 2) event payload := by
      rw [pushFrame, parse_encodeFrame]
      simp [FrameType.push, FrameType.join, FrameType.heartbeat, FrameType.leave]
    rw [handleIn, parsed] at performs
    rcases answersOnce_handlePush notTyping notCursor performs with
      ⟨reaction, same, status, data, pushed⟩
    refine ⟨reaction, same, status, data, ?_⟩
    rw [pushed, replyFrame, replyFrame, littleEndian_mod, littleEndian_mod]
  · intro Callback native tenantId userId deviceId opened reached labels isOpened run fits
    have inStep := Link.inStep_of_run answering run isOpened.inStep fits
    exact ⟨inStep.pending_card, inStep.nothing_pending⟩

/-! ### A typing indicator, and a ref that does not fit -/

/-- A connection of a transport that has used so many refs and knows an id for every topic. -/
def linkAt (ref : ℕ) : Link Unit where
  transport := { Transport.new.connect 0 with
    ref := ref
    topicNameToId := fun _ => some 1 }
  requests := []
  process := SocketProcess.init (.replicate 1) (.replicate 2) (.replicate 3)
  incoming := []

theorem opened_linkAt (ref : ℕ) :
    (linkAt ref).Opened (.replicate 1) (.replicate 2) (.replicate 3) where
  nothingPending _ := rfl
  nothingJoining _ := rfl
  noRequests := rfl
  freshProcess := rfl
  noIncoming := rfl

/-- The calls of a typing indicator. -/
def typingCalls (process : SocketProcess) : List (Performed calls Raise) :=
  [⟨.broadcastFrom (channelTopic process.socket.tenantId.val upperHex) Event.msgTyping
    ((Capnp.native [] []).typingEncode process.socket.userId.val), .ok ()⟩]

/-- A typing indicator on a joined channel gets no reply. -/
theorem performs_typing {process : SocketProcess} {topicId : ℕ} (fits : topicId < 256 ^ 2)
    (entry : process.socket.topicIds.lookup topicId =
      some (spelledEntry process.socket.tenantId.val upperHex)) :
    (handleIn (Capnp.native [] []) (pushFrame 2 topicId Event.msgTyping [])
      process.socket).Performs (typingCalls process) (.ok (noReply process.socket)) := by
  rw [handleIn, parse_pushFrame _ _ (by decide) fits, handleFrame, handlePush, entry]
  dsimp only
  rw [if_neg (by simp [spelledEntry])]
  exact ⟨_, _, rfl, rfl, rfl⟩

/-- A push under the ref 2^32 is replied to under the ref 0. -/
theorem processStep_wrapped (process : SocketProcess)
    (unjoined : process.socket.topicIds.lookup 1 = none) :
    ProcessStep (Capnp.native [] []) process
      (.handled (pushFrame (2 ^ 32) 1 Event.msgSend []) []
        [replyFrame 0 1 statusError (ascii "not_joined")]) process := by
  refine @ProcessStep.handled _ process _ []
    (replyError process.socket 0 1 (ascii "not_joined")) ?_
  have parsed : Frame.parse (pushFrame (2 ^ 32) 1 Event.msgSend []) =
      .push 0 1 Event.msgSend [] := by
    decide
  rw [handleIn, parsed, handleFrame, handlePush, unjoined]
  exact ⟨rfl, rfl⟩

/-- The ref of a typing indicator is waited for without an answer to come, and so is a ref
that does not fit into a frame. -/
theorem replies_not_in_step :
    ¬RepliesInStep pushedEvents (fun _ => True) ∧
      ¬RepliesInStep (pushedEvents.filter fun event => event ≠ Event.msgTyping)
        fun _ => True := by
  constructor
  · intro inStep
    have joins : LinkStep (Capnp.native [] []) pushedEvents (linkAt 0)
        (.join (ascii "channel:" ++ upperHex)) _ := LinkStep.join
    have joined := @processStep_join (Capnp.native [] []) (linkAt 0).process 1 upperHex _
      (by decide) (by decide) channelIdToBin_upperHex
    have run := (Run.refl.snoc joins).snoc (LinkStep.handled rfl joined)
    have entry : ((linkAt 0).process.joinSpelled upperHex).socket.topicIds.lookup 1 =
        some (spelledEntry (linkAt 0).process.socket.tenantId.val upperHex) :=
      lookup_joined _ _
    rcases inStep.answered Unit _ _ _ _ _ _ _ 2 1 _ Event.msgTyping [] _ _ (opened_linkAt 0) run
      entry (by decide) (performs_typing (by decide) entry) with
      ⟨reaction, same, status, data, pushed⟩
    -- the handled indicator has pushed nothing
    cases same
    cases pushed
  · intro inStep
    have pushes : LinkStep (Capnp.native [] [])
        (pushedEvents.filter fun event => event ≠ Event.msgTyping) (linkAt (2 ^ 32 - 1))
        (.push [] Event.msgSend []) _ := LinkStep.push (by decide) rfl
    have run := ((Run.refl.snoc pushes).snoc (LinkStep.handled rfl
      (processStep_wrapped (linkAt 0).process rfl))).snoc (LinkStep.received rfl)
    have settled := (inStep.balanced Unit _ _ _ _ _ _ _ (opened_linkAt _) run trivial).2 rfl rfl
      (2 ^ 32)
    -- the reply was for the ref 0
    cases settled

end Mercury.Sdk
