import Mathlib.Logic.Function.Basic
import Mercury.Sdk.Frame

/-!
# The binary transport

`BinaryTransport` of `transport.ts`: its tables, and what its methods and handlers
do to them. Topic names and keys are the UTF-8 bytes of the strings, and an absent
entry of `topicBindings` is an empty list of callbacks. Delays are left out, so
the count of reconnect attempts is too.
-/

namespace Mercury.Sdk

open Gateway

/-! ## Keys of deferred bindings -/

/-- `String(value)` of a natural number. -/
def decimal (value : ℕ) : Bytes :=
  (Nat.toDigits 10 value).map fun char => Fin.ofNat 256 char.toNat

/-- `parseInt(text, 10)` of digits. -/
def parseInt (text : Bytes) : ℕ :=
  text.foldl (fun value digit => 10 * value + (digit.val - 48)) 0

def colon : Byte := 58

/-- The key `${topic}:${event}`. -/
def bindingKey (topic : Bytes) (event : ℕ) : Bytes :=
  topic ++ colon :: decimal event

/-- `parseInt(key.split(":").pop(), 10)`. -/
def keyEvent (key : Bytes) : ℕ :=
  parseInt (key.reverse.takeWhile fun byte => byte ≠ colon).reverse

/-- `key.startsWith(`${topic}:`)`. -/
def HasPrefix (topic key : Bytes) : Prop :=
  topic ++ [colon] <+: key

instance (topic key : Bytes) : Decidable (HasPrefix topic key) :=
  inferInstanceAs (Decidable (_ <+: _))

theorem toNat_lt_of_isDigit {char : Char} (digit : char.isDigit) : char.toNat < 58 := by
  simp only [Char.isDigit, Bool.and_eq_true, decide_eq_true_eq, UInt32.le_iff_toNat_le] at digit
  exact Nat.lt_succ_of_le digit.2

theorem parseInt_decimal (value : ℕ) : parseInt (decimal value) = value := by
  rw [parseInt, decimal, List.foldl_map]
  have digits : (Nat.toDigits 10 value).foldl
      (fun sofar char => 10 * sofar + ((Fin.ofNat 256 char.toNat : Byte).val - 48)) 0 =
      (Nat.toDigits 10 value).foldl
        (fun sofar char => 10 * sofar + (char.toNat - '0'.toNat)) 0 := by
    apply List.foldl_ext _ _ _
    intro sofar char charMem
    have small := toNat_lt_of_isDigit
      (Nat.isDigit_of_mem_toDigits (by omega) (by omega) charMem)
    have same : char.toNat % 256 = char.toNat := Nat.mod_eq_of_lt (by omega)
    simp [Fin.ofNat, same]
  rw [digits, ← Nat.ofDigitChars_eq_foldl, Nat.ofDigitChars_ten_toDigits]

theorem colon_notMem_decimal (value : ℕ) : colon ∉ decimal value := by
  intro colonMem
  rcases List.mem_map.mp colonMem with ⟨char, charMem, same⟩
  have small := toNat_lt_of_isDigit
    (Nat.isDigit_of_mem_toDigits (by omega) (by omega) charMem)
  have value := congrArg Fin.val same
  simp only [Fin.ofNat, colon] at value
  omega

/-- The event of a key is read back. -/
theorem keyEvent_bindingKey (topic : Bytes) (event : ℕ) :
    keyEvent (bindingKey topic event) = event := by
  have digits : ∀ byte ∈ (decimal event).reverse, decide (byte ≠ colon) = true := by
    intro byte byteMem
    simp only [decide_eq_true_eq]
    rintro rfl
    exact colon_notMem_decimal event (List.mem_reverse.mp byteMem)
  rw [keyEvent, bindingKey, List.reverse_append, List.reverse_cons, List.append_assoc,
    List.takeWhile_append_of_pos digits]
  simp [parseInt_decimal]

theorem hasPrefix_bindingKey (topic : Bytes) (event : ℕ) :
    HasPrefix topic (bindingKey topic event) :=
  ⟨decimal event, by simp [bindingKey]⟩

/-! ## The tables -/

/-- What the reply callback of a pending reply belongs to. -/
inductive PendingReply where
  | join (topic : Bytes)
  | push
deriving DecidableEq

structure Transport (Callback : Type) where
  /-- The number of the socket. -/
  ws : Option ℕ
  ref : ℕ
  pendingReplies : ℕ → Option PendingReply
  topicBindings : ℕ → ℕ → List Callback
  topicNameToId : Bytes → Option ℕ
  topicIdToName : ℕ → Option Bytes
  joinedTopics : List Bytes
  closed : Bool
  pendingJoinRefs : ℕ → Option Bytes
  deferredBindings : List (Bytes × List Callback)

namespace Transport

variable {Callback : Type}

def new : Transport Callback where
  ws := none
  ref := 0
  pendingReplies _ := none
  topicBindings _ _ := []
  topicNameToId _ := none
  topicIdToName _ := none
  joinedTopics := []
  closed := false
  pendingJoinRefs _ := none
  deferredBindings := []

/-! ## Methods -/

/-- `connect` with the socket it makes. -/
def connect (socket : ℕ) (transport : Transport Callback) : Transport Callback :=
  { transport with closed := false, ws := some socket }

/-- `disconnect`: the callbacks of pending replies only delete what is cleared here. -/
def disconnect (transport : Transport Callback) : Transport Callback :=
  { transport with
    closed := true
    ws := none
    joinedTopics := []
    topicNameToId := fun _ => none
    topicIdToName := fun _ => none
    pendingReplies := fun _ => none
    pendingJoinRefs := fun _ => none }

def nextRef (transport : Transport Callback) : Transport Callback :=
  { transport with ref := transport.ref + 1 }

/-- `join` up to `send`, with the frame to send. -/
def join (topic : Bytes) (transport : Transport Callback) : Transport Callback × Bytes :=
  let transport := transport.nextRef
  ({ transport with
      joinedTopics :=
        if topic ∈ transport.joinedTopics then transport.joinedTopics
        else transport.joinedTopics ++ [topic]
      pendingJoinRefs := Function.update transport.pendingJoinRefs transport.ref (some topic)
      pendingReplies :=
        Function.update transport.pendingReplies transport.ref (some (.join topic)) },
    joinFrame transport.ref topic)

/-- `push` up to `send`; it rejects where the topic has no id. -/
def push (topic : Bytes) (event : Byte) (payload : Bytes) (transport : Transport Callback) :
    Option (Transport Callback × Bytes) :=
  (transport.topicNameToId topic).map fun topicId =>
    let transport := transport.nextRef
    ({ transport with
        pendingReplies := Function.update transport.pendingReplies transport.ref (some .push) },
      pushFrame transport.ref topicId event payload)

/-- `push` after a `send` that returned false. -/
def withdrawPush (transport : Transport Callback) : Transport Callback :=
  { transport with
    pendingReplies := Function.update transport.pendingReplies transport.ref none }

def on (topicId event : ℕ) (callback : Callback) (transport : Transport Callback) :
    Transport Callback :=
  { transport with
    topicBindings := Function.update transport.topicBindings topicId
      (Function.update (transport.topicBindings topicId) event
        (transport.topicBindings topicId event ++ [callback])) }

/-- The entries of `deferredBindings` with `callback` pushed under `key`. -/
def pushDeferred (key : Bytes) (callback : Callback) :
    List (Bytes × List Callback) → List (Bytes × List Callback)
  | [] => [(key, [callback])]
  | entry :: rest =>
      if entry.1 = key then (entry.1, entry.2 ++ [callback]) :: rest
      else entry :: pushDeferred key callback rest

def onByName (topic : Bytes) (event : ℕ) (callback : Callback)
    (transport : Transport Callback) : Transport Callback :=
  match transport.topicNameToId topic with
  | some existing => transport.on existing event callback
  | none =>
      { transport with
        deferredBindings :=
          pushDeferred (bindingKey topic event) callback transport.deferredBindings }

def off (topicId event : ℕ) (transport : Transport Callback) : Transport Callback :=
  { transport with
    topicBindings := Function.update transport.topicBindings topicId
      (Function.update (transport.topicBindings topicId) event []) }

/-! ## Handlers -/

/-- One entry of the loop of `resolveDeferredBindings`. -/
def resolveEntry (topic : Bytes) (topicId : ℕ) (transport : Transport Callback)
    (entry : Bytes × List Callback) : Transport Callback :=
  if HasPrefix topic entry.1 then
    let bound := entry.2.foldl
      (fun bound callback => bound.on topicId (keyEvent entry.1) callback) transport
    { bound with
      deferredBindings := bound.deferredBindings.filter fun other => other.1 ≠ entry.1 }
  else transport

def resolveDeferredBindings (topic : Bytes) (topicId : ℕ) (transport : Transport Callback) :
    Transport Callback :=
  transport.deferredBindings.foldl (resolveEntry topic topicId) transport

/-- The mapping of a join reply; the empty name is no name. -/
def register (topic : Bytes) (topicId : ℕ) (transport : Transport Callback) :
    Transport Callback :=
  if topic = [] then transport
  else
    resolveDeferredBindings topic topicId
      { transport with
        topicNameToId := Function.update transport.topicNameToId topic (some topicId)
        topicIdToName := Function.update transport.topicIdToName topicId (some topic) }

/-- The reply callbacks of `join` and `push`. -/
def settle (ref : ℕ) (status : Byte) (pending : PendingReply)
    (transport : Transport Callback) : Transport Callback :=
  match pending with
  | .push => transport
  | .join topic =>
      { transport with
        pendingJoinRefs := Function.update transport.pendingJoinRefs ref none
        joinedTopics :=
          if status = statusOk then transport.joinedTopics
          else transport.joinedTopics.filter fun other => other ≠ topic }

/-- The mapping that a reply makes, if it accepts a join. -/
def registerReply (frame : DecodedFrame) (status : Byte) (transport : Transport Callback) :
    Transport Callback :=
  if 0 < frame.topicId ∧ status = statusOk then
    match transport.pendingJoinRefs frame.ref with
    | some topic => transport.register topic frame.topicId
    | none => transport
  else transport

/-- The branch of `handleMessage` for replies. -/
def handleReply (frame : DecodedFrame) (transport : Transport Callback) : Transport Callback :=
  let status := frame.payload.headD statusOk
  match transport.pendingReplies frame.ref with
  | none => transport
  | some pending =>
      let registered := transport.registerReply frame status
      settle frame.ref status pending
        { registered with
          pendingReplies := Function.update registered.pendingReplies frame.ref none }

/-- A handled message: the callbacks that a broadcast is for, and its data. -/
structure Handled (Callback : Type) where
  transport : Transport Callback
  callbacks : List Callback
  eventData : Bytes

/-- `handleMessage`, which throws on data without a whole header. -/
def handleMessage (data : Bytes) (transport : Transport Callback) : Handled Callback :=
  match decodeFrame data with
  | none => ⟨transport, [], []⟩
  | some frame =>
      if frame.type = FrameType.reply then ⟨transport.handleReply frame, [], []⟩
      else if frame.type = FrameType.broadcast then
        match frame.payload with
        | [] => ⟨transport, [], []⟩
        | event :: eventData =>
            ⟨transport, transport.topicBindings frame.topicId event.val, eventData⟩
      else ⟨transport, [], []⟩

/-- What the reconnect does to a topic before it joins it again. -/
def forget (topic : Bytes) (transport : Transport Callback) : Transport Callback :=
  let cleared :=
    match transport.topicNameToId topic with
    | none => transport
    | some oldId =>
        { transport with
          topicNameToId := Function.update transport.topicNameToId topic none
          topicIdToName := Function.update transport.topicIdToName oldId none
          topicBindings := Function.update transport.topicBindings oldId fun _ => [] }
  { cleared with joinedTopics := cleared.joinedTopics.filter fun other => other ≠ topic }

/-- The rejoins of `scheduleReconnect`, with the frames to send. -/
def rejoin : List Bytes → Transport Callback → Transport Callback × List Bytes
  | [], transport => (transport, [])
  | topic :: rest, transport =>
      let joined := (transport.forget topic).join topic
      let rejoined := rejoin rest joined.1
      (rejoined.1, joined.2 :: rejoined.2)

/-! ## What the handlers do to the tables -/

section Tables

variable (transport : Transport Callback)

theorem on_topicBindings (topicId event : ℕ) (callback : Callback) (otherId otherEvent : ℕ) :
    (transport.on topicId event callback).topicBindings otherId otherEvent =
      transport.topicBindings otherId otherEvent ++
        if otherId = topicId ∧ otherEvent = event then [callback] else [] := by
  by_cases sameId : otherId = topicId
  · subst otherId
    by_cases sameEvent : otherEvent = event
    · subst otherEvent
      simp [on]
    · simp [on, sameEvent]
  · simp [on, sameId]

/-- Everything but the bindings and the deferred bindings. -/
structure SameTables (other : Transport Callback) : Prop where
  ws : other.ws = transport.ws
  ref : other.ref = transport.ref
  pendingReplies : other.pendingReplies = transport.pendingReplies
  topicNameToId : other.topicNameToId = transport.topicNameToId
  topicIdToName : other.topicIdToName = transport.topicIdToName
  joinedTopics : other.joinedTopics = transport.joinedTopics
  closed : other.closed = transport.closed
  pendingJoinRefs : other.pendingJoinRefs = transport.pendingJoinRefs

variable {transport}

theorem SameTables.refl : SameTables transport transport := by
  constructor <;> rfl

theorem SameTables.trans {middle other : Transport Callback}
    (first : SameTables transport middle) (second : SameTables middle other) :
    SameTables transport other where
  ws := second.ws.trans first.ws
  ref := second.ref.trans first.ref
  pendingReplies := second.pendingReplies.trans first.pendingReplies
  topicNameToId := second.topicNameToId.trans first.topicNameToId
  topicIdToName := second.topicIdToName.trans first.topicIdToName
  joinedTopics := second.joinedTopics.trans first.joinedTopics
  closed := second.closed.trans first.closed
  pendingJoinRefs := second.pendingJoinRefs.trans first.pendingJoinRefs

/-- The callbacks of one deferred entry go to the id under the event of its key. -/
theorem foldl_on (topicId event : ℕ) (callbacks : List Callback)
    (transport : Transport Callback) :
    let bound := callbacks.foldl (fun bound callback => bound.on topicId event callback) transport
    SameTables transport bound ∧ bound.deferredBindings = transport.deferredBindings ∧
      ∀ otherId otherEvent, bound.topicBindings otherId otherEvent =
        transport.topicBindings otherId otherEvent ++
          if otherId = topicId ∧ otherEvent = event then callbacks else [] := by
  induction callbacks generalizing transport with
  | nil => exact ⟨SameTables.refl, rfl, by simp⟩
  | cons callback rest ih =>
      rcases ih (transport.on topicId event callback) with ⟨same, deferred, bindings⟩
      refine ⟨⟨same.ws, same.ref, same.pendingReplies, same.topicNameToId, same.topicIdToName,
        same.joinedTopics, same.closed, same.pendingJoinRefs⟩, deferred, ?_⟩
      intro otherId otherEvent
      rw [List.foldl_cons, bindings, on_topicBindings, List.append_assoc]
      split <;> simp

/-- The callbacks that a topic's join reply takes out of `deferredBindings` for an event. -/
def resolved (topic : Bytes) (event : ℕ) (entries : List (Bytes × List Callback)) :
    List Callback :=
  (entries.filter fun entry => HasPrefix topic entry.1 ∧ keyEvent entry.1 = event).flatMap Prod.snd

theorem mem_resolved {topic : Bytes} {event : ℕ} {entries : List (Bytes × List Callback)}
    {callback : Callback} : callback ∈ resolved topic event entries ↔
      ∃ entry ∈ entries, HasPrefix topic entry.1 ∧ keyEvent entry.1 = event ∧
        callback ∈ entry.2 := by
  simp [resolved, and_assoc]

theorem resolveEntry_spec (topic : Bytes) (topicId : ℕ) (entry : Bytes × List Callback)
    (transport : Transport Callback) :
    SameTables transport (transport.resolveEntry topic topicId entry) ∧
      (transport.resolveEntry topic topicId entry).deferredBindings =
        transport.deferredBindings.filter
          (fun other => ¬(HasPrefix topic entry.1 ∧ other.1 = entry.1)) ∧
      ∀ otherId event, (transport.resolveEntry topic topicId entry).topicBindings otherId event =
        transport.topicBindings otherId event ++
          if otherId = topicId then resolved topic event [entry] else [] := by
  by_cases prefixed : HasPrefix topic entry.1
  · rcases foldl_on topicId (keyEvent entry.1) entry.2 transport with ⟨same, deferred, bindings⟩
    rw [resolveEntry, if_pos prefixed]
    refine ⟨⟨same.ws, same.ref, same.pendingReplies, same.topicNameToId, same.topicIdToName,
      same.joinedTopics, same.closed, same.pendingJoinRefs⟩, ?_, ?_⟩
    · simp [deferred, prefixed]
    · intro otherId event
      refine (bindings otherId event).trans ?_
      by_cases sameId : otherId = topicId
      · by_cases sameEvent : keyEvent entry.1 = event
        · simp [resolved, sameId, sameEvent, prefixed]
        · simp [resolved, sameId, sameEvent, Ne.symm sameEvent]
      · simp [sameId]
  · rw [resolveEntry, if_neg prefixed]
    refine ⟨SameTables.refl, by simp [prefixed], ?_⟩
    intro otherId event
    simp [resolved, prefixed]

theorem foldl_resolveEntry (topic : Bytes) (topicId : ℕ)
    (entries : List (Bytes × List Callback)) (transport : Transport Callback) :
    let next := entries.foldl (resolveEntry topic topicId) transport
    SameTables transport next ∧
      next.deferredBindings = transport.deferredBindings.filter
        (fun other => ¬∃ entry ∈ entries, HasPrefix topic entry.1 ∧ other.1 = entry.1) ∧
      ∀ otherId event, next.topicBindings otherId event =
        transport.topicBindings otherId event ++
          if otherId = topicId then resolved topic event entries else [] := by
  induction entries generalizing transport with
  | nil => exact ⟨SameTables.refl, by simp, by simp [resolved]⟩
  | cons entry rest ih =>
      rcases resolveEntry_spec topic topicId entry transport with ⟨same, deferred, bindings⟩
      rcases ih (transport.resolveEntry topic topicId entry) with ⟨later, left, bound⟩
      refine ⟨same.trans later, ?_, ?_⟩
      · rw [List.foldl_cons, left, deferred, List.filter_filter]
        apply List.filter_congr
        intro other _
        simp only [List.mem_cons, exists_eq_or_imp, not_or, Bool.decide_and]
        exact Bool.and_comm _ _
      · intro otherId event
        rw [List.foldl_cons, bound, bindings, List.append_assoc]
        split
        · simp [resolved, ← List.flatMap_append, ← List.filter_append]
        · rfl

/-- A join reply moves the callbacks of the keys that start with the topic. -/
theorem resolveDeferredBindings_spec (topic : Bytes) (topicId : ℕ)
    (transport : Transport Callback) :
    SameTables transport (transport.resolveDeferredBindings topic topicId) ∧
      (transport.resolveDeferredBindings topic topicId).deferredBindings =
        transport.deferredBindings.filter (fun entry => ¬HasPrefix topic entry.1) ∧
      ∀ otherId event,
        (transport.resolveDeferredBindings topic topicId).topicBindings otherId event =
          transport.topicBindings otherId event ++
            if otherId = topicId then resolved topic event transport.deferredBindings else [] := by
  rcases foldl_resolveEntry topic topicId transport.deferredBindings transport with
    ⟨same, deferred, bindings⟩
  refine ⟨same, ?_, bindings⟩
  rw [resolveDeferredBindings, deferred]
  apply List.filter_congr
  intro entry entryMem
  simp only [decide_eq_decide, not_iff_not]
  constructor
  · rintro ⟨other, _, prefixed, sameKey⟩
    exact sameKey ▸ prefixed
  · intro prefixed
    exact ⟨entry, entryMem, prefixed, rfl⟩

theorem register_spec {topic : Bytes} (named : topic ≠ []) (topicId : ℕ)
    (transport : Transport Callback) :
    let mapped : Transport Callback :=
      { transport with
        topicNameToId := Function.update transport.topicNameToId topic (some topicId)
        topicIdToName := Function.update transport.topicIdToName topicId (some topic) }
    SameTables mapped (transport.register topic topicId) ∧
      (transport.register topic topicId).deferredBindings =
        transport.deferredBindings.filter (fun entry => ¬HasPrefix topic entry.1) ∧
      ∀ otherId event, (transport.register topic topicId).topicBindings otherId event =
        transport.topicBindings otherId event ++
          if otherId = topicId then resolved topic event transport.deferredBindings else [] := by
  rw [register, if_neg named]
  exact resolveDeferredBindings_spec topic topicId _

theorem register_refs (topic : Bytes) (topicId : ℕ) (transport : Transport Callback) :
    (transport.register topic topicId).ref = transport.ref ∧
      (transport.register topic topicId).pendingReplies = transport.pendingReplies ∧
      (transport.register topic topicId).pendingJoinRefs = transport.pendingJoinRefs := by
  by_cases named : topic = []
  · rw [register, if_pos named]
    exact ⟨rfl, rfl, rfl⟩
  · have same := (register_spec named topicId transport).1
    exact ⟨same.ref, same.pendingReplies, same.pendingJoinRefs⟩

theorem registerReply_refs (frame : DecodedFrame) (status : Byte)
    (transport : Transport Callback) :
    (transport.registerReply frame status).ref = transport.ref ∧
      (transport.registerReply frame status).pendingReplies = transport.pendingReplies ∧
      (transport.registerReply frame status).pendingJoinRefs = transport.pendingJoinRefs := by
  unfold registerReply
  split
  · split
    · exact register_refs _ _ transport
    · exact ⟨rfl, rfl, rfl⟩
  · exact ⟨rfl, rfl, rfl⟩

/-- A reply is waited for no longer, as a reply and as a join. -/
theorem handleReply_refs (transport : Transport Callback)
    (joinRefs : ∀ ref topic, transport.pendingJoinRefs ref = some topic ↔
      transport.pendingReplies ref = some (.join topic)) (frame : DecodedFrame) :
    (transport.handleReply frame).ref = transport.ref ∧
      (transport.handleReply frame).pendingReplies =
        Function.update transport.pendingReplies frame.ref none ∧
      (transport.handleReply frame).pendingJoinRefs =
        Function.update transport.pendingJoinRefs frame.ref none := by
  have unjoined : (∀ topic, transport.pendingReplies frame.ref ≠ some (.join topic)) →
      transport.pendingJoinRefs = Function.update transport.pendingJoinRefs frame.ref none := by
    intro noJoin
    have none : transport.pendingJoinRefs frame.ref = none := by
      rw [Option.eq_none_iff_forall_ne_some]
      intro topic known
      exact noJoin topic ((joinRefs frame.ref topic).mp known)
    rw [← none, Function.update_eq_self]
  rcases waiting : transport.pendingReplies frame.ref with _ | pending
  · have unchanged : transport.handleReply frame = transport := by
      simp only [handleReply, waiting]
    rw [unchanged]
    refine ⟨rfl, ?_, unjoined fun topic => by simp [waiting]⟩
    rw [← waiting, Function.update_eq_self]
  · rcases registerReply_refs frame (frame.payload.headD statusOk) transport with
      ⟨ref, replies, joins⟩
    cases pending with
    | push =>
        rw [← unjoined fun topic => by simp [waiting]]
        simp only [handleReply, waiting, settle]
        rw [replies]
        exact ⟨ref, rfl, joins⟩
    | join topic =>
        simp only [handleReply, waiting, settle]
        rw [replies, joins]
        exact ⟨ref, rfl, rfl⟩

/-- The tables that decide where a broadcast goes. -/
structure SameRoutes (transport other : Transport Callback) : Prop where
  topicBindings : other.topicBindings = transport.topicBindings
  topicNameToId : other.topicNameToId = transport.topicNameToId
  topicIdToName : other.topicIdToName = transport.topicIdToName
  deferredBindings : other.deferredBindings = transport.deferredBindings

theorem settle_routes (ref : ℕ) (status : Byte) (pending : PendingReply)
    (transport : Transport Callback) :
    SameRoutes transport (transport.settle ref status pending) := by
  cases pending <;> constructor <;> rfl

/-- A reply that accepts no join leaves the routes as they are. -/
theorem handleReply_unregistered (frame : DecodedFrame) (transport : Transport Callback)
    (unregistered : transport.registerReply frame (frame.payload.headD statusOk) = transport) :
    SameRoutes transport (transport.handleReply frame) := by
  unfold handleReply
  dsimp only
  split
  · constructor <;> rfl
  · next pending _ =>
      rw [unregistered]
      have settled := settle_routes frame.ref (frame.payload.headD statusOk) pending
        { transport with
          pendingReplies := Function.update transport.pendingReplies frame.ref none }
      exact ⟨settled.topicBindings, settled.topicNameToId, settled.topicIdToName,
        settled.deferredBindings⟩

/-- A reply that accepts the join of `topic` maps it and resolves its deferred callbacks. -/
theorem handleReply_joined {ref topicId : ℕ} {topic : Bytes} (transport : Transport Callback)
    (positive : 0 < topicId) (named : topic ≠ [])
    (waiting : transport.pendingReplies ref = some (.join topic))
    (joining : transport.pendingJoinRefs ref = some topic) :
    let next := transport.handleReply ⟨FrameType.reply, ref, topicId, [statusOk]⟩
    next.topicNameToId = Function.update transport.topicNameToId topic (some topicId) ∧
      next.topicIdToName = Function.update transport.topicIdToName topicId (some topic) ∧
      next.deferredBindings =
        transport.deferredBindings.filter (fun entry => ¬HasPrefix topic entry.1) ∧
      ∀ otherId event, next.topicBindings otherId event =
        transport.topicBindings otherId event ++
          if otherId = topicId then resolved topic event transport.deferredBindings else [] := by
  rcases register_spec named topicId transport with ⟨same, deferred, bindings⟩
  have registered : transport.registerReply ⟨FrameType.reply, ref, topicId, [statusOk]⟩ statusOk =
      transport.register topic topicId := by
    unfold registerReply
    rw [if_pos ⟨positive, rfl⟩, joining]
  unfold handleReply
  simp only [waiting, List.headD_cons, registered, settle]
  exact ⟨same.topicNameToId, same.topicIdToName, deferred, bindings⟩

/-! ## What a reconnect does to the tables -/

theorem mem_topicBindings_forget {topic : Bytes} {transport : Transport Callback}
    {topicId event : ℕ} {callback : Callback}
    (bound : callback ∈ (transport.forget topic).topicBindings topicId event) :
    callback ∈ transport.topicBindings topicId event := by
  unfold forget at bound
  dsimp only at bound
  split at bound
  · exact bound
  · next oldId _ =>
      dsimp only at bound
      by_cases same : topicId = oldId
      · subst topicId
        simp at bound
      · rwa [Function.update_of_ne same] at bound

theorem forget_deferredBindings (topic : Bytes) (transport : Transport Callback) :
    (transport.forget topic).deferredBindings = transport.deferredBindings := by
  unfold forget
  dsimp only
  split <;> rfl

theorem forget_topicNameToId {topic other : Bytes} (different : other ≠ topic)
    (transport : Transport Callback) :
    (transport.forget topic).topicNameToId other = transport.topicNameToId other := by
  unfold forget
  dsimp only
  split
  · rfl
  · exact Function.update_of_ne different _ _

/-- A reconnect only takes callbacks away. -/
theorem mem_topicBindings_rejoin {topics : List Bytes} {transport : Transport Callback}
    {topicId event : ℕ} {callback : Callback}
    (bound : callback ∈ (transport.rejoin topics).1.topicBindings topicId event) :
    callback ∈ transport.topicBindings topicId event := by
  induction topics generalizing transport with
  | nil => exact bound
  | cons topic rest ih =>
      have forgot :
          callback ∈ ((transport.forget topic).join topic).1.topicBindings topicId event :=
        ih bound
      exact mem_topicBindings_forget forgot

theorem rejoin_deferredBindings (topics : List Bytes) (transport : Transport Callback) :
    (transport.rejoin topics).1.deferredBindings = transport.deferredBindings := by
  induction topics generalizing transport with
  | nil => rfl
  | cons topic rest ih => exact (ih _).trans (forget_deferredBindings topic transport)

/-- A reconnect leaves the ids of the topics that it does not join again. -/
theorem rejoin_topicNameToId {topics : List Bytes} {other : Bytes} (unjoined : other ∉ topics)
    (transport : Transport Callback) :
    (transport.rejoin topics).1.topicNameToId other = transport.topicNameToId other := by
  induction topics generalizing transport with
  | nil => rfl
  | cons topic rest ih =>
      rw [List.mem_cons, not_or] at unjoined
      exact (ih unjoined.2 _).trans (forget_topicNameToId unjoined.1 transport)

/-! ## Messages of the gateway -/

theorem handleMessage_reply (ref topicId : ℕ) (status : Byte) (data : Bytes)
    (transport : Transport Callback) :
    transport.handleMessage (replyFrame ref topicId status data) =
      ⟨transport.handleReply
        ⟨FrameType.reply, ref % 256 ^ 4, topicId % 256 ^ 2, status :: data⟩, [], []⟩ := by
  rw [handleMessage, replyFrame_eq_encodeFrame, decodeFrame_encodeFrame]
  simp

theorem handleMessage_broadcast (topicId : ℕ) (event : Byte) (payload : Bytes)
    (transport : Transport Callback) :
    transport.handleMessage (encodeFrame FrameType.broadcast 0 topicId (event :: payload)) =
      ⟨transport, transport.topicBindings (topicId % 256 ^ 2) event.val, payload⟩ := by
  rw [handleMessage, decodeFrame_encodeFrame]
  simp [FrameType.broadcast, FrameType.reply]

end Tables

end Transport

end Mercury.Sdk
