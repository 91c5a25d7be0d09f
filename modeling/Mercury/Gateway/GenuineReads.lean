import Mercury.Gateway.BucketQueries
import Mercury.Gateway.ContentRuns
import Mercury.Gateway.Noninterference
import Mercury.Gateway.RowOrigins

/-!
# Reads are genuine

Whatever a history or a sync request is answered with was in the stores when the node
started, or a socket pushed it on the channel since. The messages that are so make up a
property that the frames of the run write only messages of, and with it everything that a
channel holds has it.
-/

namespace Mercury.Gateway

open Foundations Foundations.Program Persistence

/-! ## Deltas -/

/-- The pages of the channel that the backend returns have only good messages. -/
def PagesGood (tenantId channelId : Bytes) (good : Message → Prop)
    (taken : Performed backend Raise) : Prop :=
  ∀ bucketId limit page,
    taken = ⟨.selectMessages tenantId channelId bucketId limit, .ok (.ok page)⟩ →
      ∀ row ∈ page, good row.message

/-- The deltas of the page are those of good messages after the clock reading. -/
def DeltasGood (good : Message → Prop) (since limit : ℕ) :
    Except Raise Sync.DeltaPage → Prop
  | .ok page => ∃ msgs : List Message, page.deltas = msgs.map Sync.toDelta ∧ msgs.length ≤ limit ∧
      ∀ msg ∈ msgs, good msg ∧ since < msg.createdAt
  | .error _ => True

section Deltas

variable {json : Json} {tenantId channelId : Bytes} {good : Message → Prop} {since limit : ℕ}

theorem fetchBuckets_good (buckets : List ℕ) :
    (Sync.fetchBuckets tenantId channelId since limit buckets).Ensures
      (PagesGood tenantId channelId good) (fun _ => True) fun
        | .ok msgs => ∀ msg ∈ msgs, good msg ∧ since < msg.createdAt
        | .error _ => True := by
  induction buckets with
  | nil => exact fun _ empty => by cases empty
  | cons bucket later ih =>
      have first : (Sync.fetchMessagesAfter tenantId channelId bucket since limit).Ensures
          (PagesGood tenantId channelId good) (fun _ => True) fun
            | .ok msgs => ∀ msg ∈ msgs, good msg ∧ since < msg.createdAt
            | .error _ => True := by
        refine Ensures.bind.mpr (Ensures.perform.mpr ⟨trivial, ?_⟩)
        rintro (raised | reason | page) found
        · trivial
        · exact fun _ empty => by cases empty
        · intro msg msgMem
          rcases List.mem_filter.mp msgMem with ⟨isRow, newer⟩
          rcases List.mem_map.mp isRow with ⟨row, rowMem, rfl⟩
          exact ⟨found bucket limit page rfl row rowMem, of_decide_eq_true newer⟩
      refine Ensures.bind.mpr (first.post_mono ?_)
      rintro (raised | rows) rowsGood
      · trivial
      refine Ensures.bind.mpr (ih.post_mono ?_)
      rintro (raised | rest) restGood
      · trivial
      · intro msg msgMem
        exact (List.mem_append.mp msgMem).elim (rowsGood msg) (restGood msg)

theorem getDeltas_pages :
    (Sync.getDeltas tenantId channelId since limit).Ensures
      (PagesGood tenantId channelId good) (fun _ => True)
        (DeltasGood good since (min limit Sync.maxDeltas)) := by
  refine Ensures.bind.mpr (Ensures.perform.mpr ⟨trivial, ?_⟩)
  rintro (raised | now) -
  · trivial
  refine Ensures.bind.mpr (Ensures.ofExcept.mpr ?_)
  rcases TimeBucket.compute now with raised | current
  · trivial
  refine Ensures.bind.mpr (Ensures.ofExcept.mpr ?_)
  rcases TimeBucket.compute since with raised | first
  · trivial
  refine Ensures.bind.mpr ((fetchBuckets_good _).post_mono ?_)
  rintro (raised | rows) rowsGood
  · trivial
  refine ⟨_, rfl, List.length_take_le _ _, fun msg msgMem => rowsGood msg ?_⟩
  have sorted := List.mem_of_mem_take (List.mem_of_mem_take msgMem)
  exact (List.mem_insertionSort _).mp sorted

/-- The deltas of a channel are those of its good messages. -/
theorem getDeltas_good :
    KeepsGood json tenantId channelId good
      ((Sync.getDeltas tenantId channelId since limit).through storedBackend)
      (DeltasGood good since (min limit Sync.maxDeltas)) := by
  have both := Ensures.and
    (@getDeltas_commands (PagesGood tenantId channelId good) tenantId channelId since limit)
    (@getDeltas_pages tenantId channelId good since limit)
  refine Ensures.through (both.post_mono fun _ ended => ended.2) fun asked reads => ?_
  cases asked with
  | systemTime =>
      refine Ensures.perform.mpr ⟨trivial, fun answer _ => ?_⟩
      rintro bucketId limit page ⟨⟩
  | selectMessages tid cid bucketId limit =>
      refine Ensures.perform.mpr ⟨trivial, fun answer found => ?_⟩
      rintro bucketId limit page ⟨⟩
      exact (found.read bucketId limit page rfl).2
  | _ => exact reads.1.elim

end Deltas

/-! ## The reply -/

section Reply

variable {native : Native} {json : Json} {rate : ℕ} {tenantId channelId : Id16}
  {good : Message → Prop} {socket : Socket} {data : Bytes}

/-- The clock reading that a `sync:request` carries. -/
def requestSince (payload : Bytes) : ℕ :=
  if 16 ≤ payload.length then fromLittleEndian (payload.take 8) else 0

def ChannelPush.request (push : ChannelPush tenantId channelId socket data)
    (isRequest : push.event = Event.syncRequest) :
    SyncRequest socket channelId.val (requestSince push.payload) data where
  ref := push.ref
  topicId := push.topicId
  payload := push.payload
  info := push.info
  parsed := isRequest ▸ push.parsed
  entry := push.entry
  names := push.names
  sinceRead := rfl

/-- What a read of the channel is answered with, and the messages that it shows. -/
inductive ChannelPush.Shows (native : Native) (push : ChannelPush tenantId channelId socket data) :
    List Message → Reaction → Prop where
  | history (msgs : List Message) (isHistory : push.event = Event.msgHistory) :
      push.Shows native msgs (push.historyReply native msgs)
  | deltas (msgs : List Message) (mergedWall : ℕ) (hasMore : Bool)
      (isRequest : push.event = Event.syncRequest)
      (newer : ∀ msg ∈ msgs, requestSince push.payload < msg.createdAt) :
      push.Shows native msgs (replyOk socket push.ref push.topicId
        (SyncReply.encode ⟨mergedWall, hasMore,
          msgs.map (encodeMessage native socket channelId.val)⟩))
  | failed : push.Shows native []
      (replyError socket push.ref push.topicId (ascii "internal_error"))

/-- The read ends with a page of good messages. -/
def ChannelPush.EndsGood (native : Native) (push : ChannelPush tenantId channelId socket data)
    (good : Message → Prop) (outcome : Except Raise Reaction) : Prop :=
  ∀ reaction, outcome = .ok reaction →
    ∃ msgs, msgs.length ≤ 100 ∧ AllGood good msgs ∧ push.Shows native msgs reaction

theorem syncReply_good {since limit lastCounter : ℕ} :
    KeepsGood json socket.tenantId.val channelId.val good
      ((syncReply native socket channelId.val since limit lastCounter).through (stored json rate))
      fun
        | .ok reply => ∃ msgs : List Message, msgs.length ≤ 100 ∧
            (∀ msg ∈ msgs, good msg ∧ since < msg.createdAt) ∧
              reply.envelopes = msgs.map (encodeMessage native socket channelId.val)
        | .error _ => True := by
  rw [syncReply, through_bind, call, through_perform]
  refine Ensures.bind.mpr (getDeltas_good.post_mono ?_)
  rintro (raised | page) pageGood
  · trivial
  rcases pageGood with ⟨msgs, deltas, short, msgsGood⟩
  dsimp only
  rw [through_bind, call, through_perform]
  refine Ensures.bind.mpr (Ensures.perform.mpr ⟨trivial, ?_⟩)
  rintro (raised | system) -
  · trivial
  dsimp only
  rw [through_bind, call, through_perform]
  refine Ensures.bind.mpr (Ensures.perform.mpr ⟨trivial, ?_⟩)
  rintro (raised | reading) -
  · trivial
  dsimp only
  split
  · trivial
  · refine ⟨msgs, short.trans (Nat.min_le_right _ _), msgsGood, ?_⟩
    simp [deltas, List.filterMap_map, encodeDelta_toDelta]

/-- A sync request is answered with the deltas of good messages, or with an error. -/
theorem request_good (push : ChannelPush tenantId channelId socket data)
    (isRequest : push.event = Event.syncRequest) :
    KeepsGood json tenantId.val channelId.val good (storedHandleIn native json rate data socket)
      (push.EndsGood native good) := by
  have handled : handleIn native data socket =
      (syncReply native socket channelId.val (requestSince push.payload)
        (push.request isRequest).limit (push.request isRequest).lastCounter).resume
          fun result => .done ((push.request isRequest).reaction result) := by
    rw [handleIn, push.parsed, handleFrame, handlePush_of_names push.entry push.names, isRequest,
      dispatch_syncRequest, rescue]
    rcases push.names with ⟨hex, named, decoded⟩
    rw [dispatchSyncRequest, named, fetch_bind, decoded]
    refine (resume_resume _ _ _).trans (congrArg _ (funext ?_))
    rintro (raised | reply) <;> rfl
  rw [storedHandleIn, handled, through_resume]
  refine Ensures.resume.mpr ((push.tenant ▸ syncReply_good).post_mono ?_)
  rintro (raised | reply) replied reaction isReaction
  · cases isReaction
    exact ⟨[], Nat.zero_le _, by simp [AllGood], .failed⟩
  · cases isReaction
    rcases reply with ⟨mergedWall, hasMore, envelopes⟩
    rcases replied with ⟨msgs, short, msgsGood, rfl⟩
    exact ⟨msgs, short, fun msg msgMem => (msgsGood msg msgMem).1,
      .deltas msgs mergedWall hasMore isRequest fun msg msgMem => (msgsGood msg msgMem).2⟩

theorem read_ends_good (roundTrips : json.RoundTrips)
    (push : ChannelPush tenantId channelId socket data)
    (reads : push.event = Event.msgHistory ∨ push.event = Event.syncRequest) :
    KeepsGood json tenantId.val channelId.val good (storedHandleIn native json rate data socket)
      (push.EndsGood native good) := by
  rcases reads with isHistory | isRequest
  · refine (history_good roundTrips push isHistory).post_mono ?_
    rintro outcome answered reaction isReaction
    rcases answered reaction isReaction with ⟨msgs, short, msgsGood, rfl⟩ | rfl
    · exact ⟨msgs, short, msgsGood, .history msgs isHistory⟩
    · exact ⟨[], Nat.zero_le _, by simp [AllGood], .failed⟩
  · exact request_good push isRequest

end Reply

/-! ## What the frames write -/

section Frames

variable (native : Native) (json : Json) (rate : ℕ) (stores : Stores) (tenantId channelId : Id16)

/-- The stores had the message in the channel, in a row or in the cached list. -/
def Stores.Had (json : Json) (stores : Stores) (tenantId channelId : Id16) (msg : Message) : Prop :=
  (∃ row ∈ stores.messages, row.tenantId = tenantId.val ∧ row.channelId = channelId.val ∧
    row.message = msg) ∨
  ∃ text msgs, heldText (stores.redis (Cache.recentKey tenantId.val channelId.val)) = some text ∧
    cachedMessages json text = some msgs ∧ msg ∈ msgs

/-- The push writes the message. -/
inductive ChannelPush.Writes {tenantId channelId : Id16} {socket : Socket} {data : Bytes}
    (native : Native) (push : ChannelPush tenantId channelId socket data) : Message → Prop where
  | sent (envelope : Envelope) (isSend : push.event = Event.msgSend)
      (decoded : native.envelopeDecode push.payload = .ok (.ok envelope)) :
      push.Writes native (sentMessage socket envelope)
  | pushed (envelopes : List Envelope) (envelope : Envelope) (isPush : push.event = Event.syncPush)
      (decodes : decodedEnvelopes native (unpackEnvelopes push.payload) = some envelopes)
      (envelopeMem : envelope ∈ envelopes) :
      push.Writes native (pushedMessage envelope)

/-- A socket of the tenant, which speaks for the user that it was connected for, pushed the
message on the channel. -/
def Posted (labels : List NodeLabel) (msg : Message) : Prop :=
  ∃ before data after middle pid, ∃ socket : Socket,
    labels = before ++ .worker tenantId pid (.received data) :: after ∧
    Run (Node.Step native json rate) (Node.start stores) before middle ∧
    middle.workers tenantId pid = some (.idle socket) ∧
    connectedAs tenantId pid before = some (socket.userId, socket.deviceId) ∧
    ∃ push : ChannelPush tenantId channelId socket data, push.Writes native msg

/-- The message was there from the start, or was pushed. -/
def Genuine (labels : List NodeLabel) (msg : Message) : Prop :=
  stores.Had json tenantId channelId msg ∨
    Posted native json rate stores tenantId channelId labels msg

variable {native json rate stores tenantId channelId}

theorem start_genuine (labels : List NodeLabel) :
    (Node.start stores).Good json tenantId.val channelId.val
      (Genuine native json rate stores tenantId channelId labels) fun _ _ _ => True where
  stores :=
    { rows := fun row rowMem tenant channel => Or.inl (Or.inl ⟨row, rowMem, tenant, channel, rfl⟩)
      cached := fun text msgs held decoded msg msgMem =>
        Or.inl (Or.inr ⟨text, msgs, held, decoded, msgMem⟩) }
  workers running := by cases running
  pending taskMem := by cases taskMem

/-- The frames of a run write only genuine messages. -/
theorem framesGood_genuine {before after : List NodeLabel} {label : NodeLabel} {middle : Node}
    (run : Run (Node.Step native json rate) (Node.start stores) before middle) :
    middle.FramesGood native tenantId.val channelId.val
      (Genuine native json rate stores tenantId channelId (before ++ label :: after)) label := by
  cases label with
  | worker tenant pid event =>
      cases event with
      | received data =>
          intro socket idle
          have speaks : socket.SpeaksFor before tenant pid :=
            (Node.traced_run run).attributed tenant pid _ idle
          generalize parsed : Frame.parse data = frame
          cases frame with
          | push ref topicId event payload =>
              intro info entry names own
              have tenantEq : socket.tenantId = tenantId := Subtype.ext own
              obtain rfl := speaks.tenant.symm.trans tenantEq
              let push : ChannelPush tenant channelId socket data :=
                ⟨ref, topicId, event, payload, info, parsed, entry, names, tenantEq⟩
              have posted : ∀ msg, push.Writes native msg →
                  Genuine native json rate stores tenant channelId
                    (before ++ .worker tenant pid (.received data) :: after) msg :=
                fun msg writes => Or.inr ⟨before, data, after, middle, pid, socket, rfl, run, idle,
                  speaks.identity, push, writes⟩
              exact ⟨fun isSend envelope decoded => posted _ (.sent envelope isSend decoded),
                fun isPush envelopes decodes envelope envelopeMem =>
                  posted _ (.pushed envelopes envelope isPush decodes envelopeMem)⟩
          | _ => trivial
      | _ => trivial
  | _ => trivial

/-- Every message that a history or a sync request of a node shows was in the channel when
the node started, or was pushed on it since. -/
theorem reads_genuine (roundTrips : json.RoundTrips) {before : List NodeLabel}
    {source target : Node}
    (run : Run (Node.Step native json rate) (Node.start stores) before source) {socket : Socket}
    {data : Bytes} {reaction : Reaction}
    (handles : source.Handles native json rate (fun _ _ => True) socket data reaction target)
    (push : ChannelPush tenantId channelId socket data)
    (reads : push.event = Event.msgHistory ∨ push.event = Event.syncRequest) :
    ∃ msgs, msgs.length ≤ 100 ∧ push.Shows native msgs reaction ∧
      ∀ msg ∈ msgs, Genuine native json rate stores tenantId channelId
        (before ++ .worker handles.tenant handles.pid (.received data) :: handles.labels) msg := by
  rcases handles with ⟨tenant, pid, labels, idle, runs, only, done⟩
  have total := run.append runs.of_guarded
  have admitted : ∀ first label later middle,
      before ++ .worker tenant pid (.received data) :: labels = first ++ label :: later →
      Run (Node.Step native json rate) (Node.start stores) first middle →
        middle.FramesGood native tenantId.val channelId.val (Genuine native json rate stores
          tenantId channelId (before ++ .worker tenant pid (.received data) :: labels)) label := by
    intro first label later middle split reached
    rw [split]
    exact framesGood_genuine reached
  have sourceRun := run.guarded_of_prefixes fun first label later middle split reached =>
    admitted first label (later ++ .worker tenant pid (.received data) :: labels) middle
      (by simp [split]) reached
  have sourceGood := (start_genuine _).run roundTrips sourceRun fun _ _ _ _ _ _ => trivial
  have handledRun := runs.of_guarded.guarded_of_prefixes
    fun first label later middle split reached => admitted (before ++ first) label later middle
      (by simp [split]) (run.append reached)
  have ended := Node.Handles.ends roundTrips sourceGood
    ⟨tenant, pid, labels, idle, handledRun, only, done⟩
      (read_ends_good roundTrips push reads) reaction rfl
  rcases ended with ⟨msgs, short, genuine, shows⟩
  exact ⟨msgs, short, shows, genuine⟩

end Frames

/-- A socket pushes a message on the presence topic of a channel. -/
def pushesOne : List NodeLabel :=
  connects (.replicate 1) 5 ++ joins (.replicate 1) (.replicate 7) 5 ++
    .worker (.replicate 1) 0 (.received newerData) :: finishes (.replicate 1) 5 6

/-- The commands of the history that it asks for then. -/
def readsOne : List NodeLabel :=
  List.replicate 4 (.worker (.replicate 1) 0 (.performed ⟨5, [], true, .carried⟩))

set_option maxRecDepth 20000 in
theorem reads_genuine_pushed : ∃ (source target : Node) (socket : Socket) (reaction : Reaction)
    (msgs : List Message) (push : ChannelPush (.replicate 1) (.replicate 7) socket historyOfOne),
    Run (Node.Step (Capnp.native [foreignEnvelope] []) JsonText.json 100)
        (Node.start (onlyCursors .empty)) pushesOne source ∧
      source.workers (.replicate 1) 0 = some (.idle socket) ∧
      target.workers (.replicate 1) 0 = some (.handling (.done reaction)) ∧
      msgs ≠ [] ∧ push.Shows (Capnp.native [foreignEnvelope] []) msgs reaction ∧
      ∀ msg ∈ msgs, Genuine (Capnp.native [foreignEnvelope] []) JsonText.json 100
        (onlyCursors .empty) (.replicate 1) (.replicate 7)
        (pushesOne ++ .worker (.replicate 1) 0 (.received historyOfOne) :: readsOne) msg := by
  have played : ∃ source socket target reaction,
      Run.play (Node.step (Capnp.native [foreignEnvelope] []) JsonText.json 100)
        (Node.start (onlyCursors .empty)) pushesOne = some source ∧
      source.workers (.replicate 1) 0 = some (.idle socket) ∧
      socket.tenantId = .replicate 1 ∧
      (∃ info, socket.topicIds.lookup 1 = some info ∧ info.Names (Id16.replicate 7).val) ∧
      Run.play (Node.step (Capnp.native [foreignEnvelope] []) JsonText.json 100) source
        (.worker (.replicate 1) 0 (.received historyOfOne) :: readsOne) = some target ∧
      target.workers (.replicate 1) 0 = some (.handling (.done reaction)) ∧
      reaction.pushed.map List.length = [152] := by
    refine ⟨_, _, _, _, rfl, rfl, rfl, ⟨_, rfl, _, rfl, rfl⟩, rfl, rfl, ?_⟩
    decide +kernel
  rcases played with ⟨source, socket, target, reaction, reached, idle, tenant, ⟨info, entry, names⟩,
    reads, done, length⟩
  let push : ChannelPush (.replicate 1) (.replicate 7) socket historyOfOne :=
    ⟨2, 1, Event.msgHistory, littleEndian 4 1, info, parse_historyOfOne, entry, names, tenant⟩
  have only : ∀ label ∈ readsOne, ¬label.StartsAt (.replicate 1) 0 := by
    simp [readsOne, NodeLabel.StartsAt]
  have runs : Run (Guarded (fun _ _ => True)
      (Node.Step (Capnp.native [foreignEnvelope] []) JsonText.json 100)) source
      (.worker (.replicate 1) 0 (.received historyOfOne) :: readsOne) target :=
    (Run.of_play reads).mono fun taken => ⟨trivial, taken⟩
  rcases reads_genuine JsonText.json_roundTrips (Run.of_play reached)
    ⟨.replicate 1, 0, readsOne, idle, runs, only, done⟩ push (Or.inl rfl) with
    ⟨msgs, _, shows, genuine⟩
  refine ⟨source, target, socket, reaction, msgs, push, Run.of_play reached, idle, done, ?_, shows,
    genuine⟩
  rintro rfl
  cases shows with
  | history => exact absurd (show [12] = [152] from length) (by decide)
  | deltas _ _ _ isRequest =>
      exact absurd (show Event.msgHistory = Event.syncRequest from isRequest) (by decide)
  | failed => exact absurd (show [22] = [152] from length) (by decide)

end Mercury.Gateway
