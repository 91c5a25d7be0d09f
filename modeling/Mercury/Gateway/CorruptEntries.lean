import Mercury.Gateway.CacheTerms

/-!
# Corrupt entries of the recent cache

`get_recent_messages` treats an entry that is no JSON, or that has a text that is no base64,
as a miss, and deletes it. Terms of other shapes raise on the way, or are served as messages
without a content type or a time.
-/

namespace Mercury.Gateway

open Foundations Foundations.Program Persistence

namespace TermCache

/-! ## What an item is read as -/

/-- The fields of an item; `null` is read as if it had none. -/
def fieldsOf : JsonTerm → Option (List (Bytes × JsonTerm))
  | .object fields => some fields
  | .null => some []
  | _ => none

def valueAt (key : Bytes) (fields : List (Bytes × JsonTerm)) : JsonTerm :=
  (fields.lookup key).getD .null

/-- A missing value, or a base64 text. -/
def IsBinary (value : JsonTerm) : Prop :=
  value = .null ∨ value = .bool false ∨
    ∃ text bytes, value = .string text ∧ Base.decode64 text = some bytes

/-- A text that is no base64. -/
def IsCorrupt (value : JsonTerm) : Prop :=
  ∃ text, value = .string text ∧ Base.decode64 text = none

/-- A missing value, or any text. -/
def IsText (value : JsonTerm) : Prop :=
  value = .null ∨ ∃ text, value = .string text

/-- The item has the fields of a message, or lacks them. -/
def Readable (item : JsonTerm) : Prop :=
  ∃ fields, fieldsOf item = some fields ∧ IsBinary (valueAt (ascii "mid") fields) ∧
    IsBinary (valueAt (ascii "sid") fields) ∧ IsBinary (valueAt (ascii "ec") fields) ∧
    IsText (valueAt (ascii "rt") fields)

/-- The first of the three binaries that is not in order is a text. -/
def Refused (item : JsonTerm) : Prop :=
  ∃ fields, fieldsOf item = some fields ∧
    (IsCorrupt (valueAt (ascii "mid") fields) ∨
      IsBinary (valueAt (ascii "mid") fields) ∧
        (IsCorrupt (valueAt (ascii "sid") fields) ∨
          IsBinary (valueAt (ascii "sid") fields) ∧ IsCorrupt (valueAt (ascii "ec") fields)))

/-- The content type and the time of the item are integers. -/
def HasIntegers (item : JsonTerm) : Prop :=
  ∃ fields, fieldsOf item = some fields ∧
    (∃ number, valueAt (ascii "ct") fields = .integer number) ∧
      ∃ number, valueAt (ascii "ca") fields = .integer number

/-- An empty map; or a list of items that are all in order, or of which one is refused before
one is reached that raises. -/
def Handled : JsonTerm → Prop
  | .array items =>
      (∀ item ∈ items, Readable item ∧ HasIntegers item) ∨
        ∃ before item after, items = before ++ item :: after ∧
          (∀ earlier ∈ before, Readable earlier) ∧ Refused item
  | .object fields => fields = []
  | _ => False

/-! ## Values -/

section Values

variable {value : JsonTerm} {bytes : Bytes}

theorem isBinary_of_decodeField (decoded : decodeField value = .ok (some bytes)) :
    IsBinary value := by
  unfold decodeField at decoded
  split at decoded
  · exact .inl rfl
  · exact .inr (.inl rfl)
  · next text => exact .inr (.inr ⟨text, bytes, rfl, Except.ok.inj decoded⟩)
  · cases decoded

theorem decodeField_of_isBinary (binary : IsBinary value) :
    ∃ bytes, decodeField value = .ok (some bytes) := by
  rcases binary with rfl | rfl | ⟨text, bytes, rfl, decoded⟩
  · exact ⟨[], rfl⟩
  · exact ⟨[], rfl⟩
  · exact ⟨bytes, congrArg Except.ok decoded⟩

theorem decodeField_eq_none : decodeField value = .ok none ↔ IsCorrupt value := by
  constructor
  · intro undecoded
    unfold decodeField at undecoded
    split at undecoded
    · cases Except.ok.inj undecoded
    · cases Except.ok.inj undecoded
    · next text => exact ⟨text, rfl, Except.ok.inj undecoded⟩
    · cases undecoded
  · rintro ⟨text, rfl, undecoded⟩
    exact congrArg Except.ok undecoded

theorem isText_of_decodeReplyTo {replyTo : Option Bytes}
    (decoded : decodeReplyTo value = .ok replyTo) : IsText value := by
  unfold decodeReplyTo at decoded
  split at decoded
  · exact .inl rfl
  · next text => exact .inr ⟨text, rfl⟩
  · cases decoded

theorem decodeReplyTo_of_isText (isText : IsText value) :
    ∃ replyTo, decodeReplyTo value = .ok replyTo := by
  rcases isText with rfl | ⟨text, rfl⟩
  · exact ⟨none, rfl⟩
  · exact ⟨Base.decode64 text, rfl⟩

end Values

/-! ## Items -/

section Items

variable {item : JsonTerm} {fields : List (Bytes × JsonTerm)}

theorem access_of_fieldsOf (hasFields : fieldsOf item = some fields) (key : Bytes) :
    access key item = .ok (valueAt key fields) := by
  cases item <;> cases hasFields <;> rfl

theorem access_of_none (fieldless : fieldsOf item = none) (key : Bytes) :
    ∃ raised, access key item = .error raised := by
  cases item with
  | object | null => cases fieldless
  | _ => exact ⟨_, rfl⟩

theorem deserializeMessage_of_readable (readable : Readable item) :
    ∃ msg, deserializeMessage item = .ok (some msg) ∧ (msg.Typed ↔ HasIntegers item) := by
  rcases readable with ⟨fields, hasFields, mid, sid, ec, rt⟩
  rcases decodeField_of_isBinary mid with ⟨_, midDecoded⟩
  rcases decodeField_of_isBinary sid with ⟨_, sidDecoded⟩
  rcases decodeField_of_isBinary ec with ⟨_, ecDecoded⟩
  rcases decodeReplyTo_of_isText rt with ⟨_, rtDecoded⟩
  refine ⟨_, by simp only [deserializeMessage, access_of_fieldsOf hasFields, ok_bind, midDecoded,
    sidDecoded, ecDecoded, rtDecoded]; rfl, ?_⟩
  constructor
  · rintro ⟨contentType, createdAt⟩
    exact ⟨fields, hasFields, contentType, createdAt⟩
  · rintro ⟨others, othersEq, contentType, createdAt⟩
    cases hasFields.symm.trans othersEq
    exact ⟨contentType, createdAt⟩

theorem deserializeMessage_of_refused (refused : Refused item) :
    deserializeMessage item = .ok none := by
  rcases refused with ⟨fields, hasFields, corrupt⟩
  simp only [deserializeMessage, access_of_fieldsOf hasFields, ok_bind]
  rcases corrupt with mid | ⟨mid, sid | ⟨sid, ec⟩⟩
  · rw [decodeField_eq_none.mpr mid]
    rfl
  · rcases decodeField_of_isBinary mid with ⟨_, midDecoded⟩
    rw [midDecoded, ok_bind]
    dsimp only
    rw [decodeField_eq_none.mpr sid]
    rfl
  · rcases decodeField_of_isBinary mid with ⟨_, midDecoded⟩
    rcases decodeField_of_isBinary sid with ⟨_, sidDecoded⟩
    rw [midDecoded, ok_bind]
    dsimp only
    rw [sidDecoded, ok_bind]
    dsimp only
    rw [decodeField_eq_none.mpr ec]
    rfl

/-- An item that is deserialized is readable, and one that is rejected is refused. -/
theorem of_deserializeMessage {result : Option RecentMessage}
    (deserialized : deserializeMessage item = .ok result) :
    (result = none → Refused item) ∧ ∀ msg, result = some msg → Readable item := by
  rcases hasFields : fieldsOf item with _ | fields
  · rcases access_of_none hasFields (ascii "mid") with ⟨raised, access⟩
    rw [deserializeMessage, access] at deserialized
    cases deserialized
  simp only [deserializeMessage, access_of_fieldsOf hasFields, ok_bind] at deserialized
  rcases midEq : decodeField (valueAt (ascii "mid") fields) with raised | _ | mid
  · rw [midEq] at deserialized
    cases deserialized
  · rw [midEq] at deserialized
    cases deserialized
    exact ⟨fun _ => ⟨fields, hasFields, .inl (decodeField_eq_none.mp midEq)⟩, by simp⟩
  rw [midEq, ok_bind] at deserialized
  have midBinary := isBinary_of_decodeField midEq
  dsimp only at deserialized
  rcases sidEq : decodeField (valueAt (ascii "sid") fields) with raised | _ | sid
  · rw [sidEq] at deserialized
    cases deserialized
  · rw [sidEq] at deserialized
    cases deserialized
    have corrupt := decodeField_eq_none.mp sidEq
    exact ⟨fun _ => ⟨fields, hasFields, .inr ⟨midBinary, .inl corrupt⟩⟩, by simp⟩
  rw [sidEq, ok_bind] at deserialized
  have sidBinary := isBinary_of_decodeField sidEq
  dsimp only at deserialized
  rcases ecEq : decodeField (valueAt (ascii "ec") fields) with raised | _ | ec
  · rw [ecEq] at deserialized
    cases deserialized
  · rw [ecEq] at deserialized
    cases deserialized
    have corrupt := decodeField_eq_none.mp ecEq
    exact ⟨fun _ => ⟨fields, hasFields, .inr ⟨midBinary, .inr ⟨sidBinary, corrupt⟩⟩⟩, by simp⟩
  rw [ecEq, ok_bind] at deserialized
  have ecBinary := isBinary_of_decodeField ecEq
  dsimp only at deserialized
  rcases rtEq : decodeReplyTo (valueAt (ascii "rt") fields) with raised | replyTo
  · rw [rtEq] at deserialized
    cases deserialized
  · rw [rtEq] at deserialized
    cases deserialized
    exact ⟨by simp, fun _ _ => ⟨fields, hasFields, midBinary, sidBinary, ecBinary,
      isText_of_decodeReplyTo rtEq⟩⟩

theorem readable_iff : Readable item ↔ ∃ msg, deserializeMessage item = .ok (some msg) := by
  constructor
  · intro readable
    rcases deserializeMessage_of_readable readable with ⟨msg, deserialized, -⟩
    exact ⟨msg, deserialized⟩
  · rintro ⟨msg, deserialized⟩
    exact (of_deserializeMessage deserialized).2 msg rfl

theorem refused_iff : Refused item ↔ deserializeMessage item = .ok none :=
  ⟨deserializeMessage_of_refused, fun rejected => (of_deserializeMessage rejected).1 rfl⟩

theorem typed_iff {msg : RecentMessage} (deserialized : deserializeMessage item = .ok (some msg)) :
    msg.Typed ↔ HasIntegers item := by
  have readable := readable_iff.mpr ⟨msg, deserialized⟩
  rcases deserializeMessage_of_readable readable with ⟨other, same, typed⟩
  cases deserialized.symm.trans same
  exact typed

end Items

/-! ## Lists of items -/

section Lists

variable {items : List JsonTerm} {msgs : List RecentMessage}

theorem exists_makes (readable : ∀ item ∈ items, Readable item) :
    ∃ msgs, Makes deserializeMessage items msgs := by
  induction items with
  | nil => exact ⟨[], .nil⟩
  | cons item later ih =>
      rcases List.forall_mem_cons.mp readable with ⟨first, others⟩
      rcases readable_iff.mp first with ⟨msg, deserialized⟩
      rcases ih others with ⟨msgs, makes⟩
      exact ⟨msg :: msgs, .cons deserialized makes⟩

theorem readable_of_makes (makes : Makes deserializeMessage items msgs) :
    ∀ item ∈ items, Readable item := by
  induction makes with
  | nil => simp
  | cons deserialized _ ih =>
      exact List.forall_mem_cons.mpr ⟨readable_iff.mpr ⟨_, deserialized⟩, ih⟩

theorem typed_of_makes (makes : Makes deserializeMessage items msgs) :
    (∀ msg ∈ msgs, msg.Typed) ↔ ∀ item ∈ items, HasIntegers item := by
  induction makes with
  | nil => simp
  | cons deserialized _ ih =>
      rw [List.forall_mem_cons, List.forall_mem_cons, ih, typed_iff deserialized]

/-- What `deserialize_messages` may make of an entry. -/
def Served (result : Except Raise (Option (List RecentMessage))) : Prop :=
  result = .ok none ∨ ∃ msgs, result = .ok (some msgs) ∧ ∀ msg ∈ msgs, msg.Typed

theorem handled_of_served (served : Served (deserializeMessages (.array items))) :
    Handled (.array items) := by
  rcases collected : collectWhile deserializeMessage items [] with raised | _ | out
  · rw [deserializeMessages, collected] at served
    rcases served with raised | ⟨_, raised, -⟩ <;> cases raised
  · rcases collectWhile_eq_none.mp collected with
      ⟨before, item, after, values, itemsEq, makes, rejected⟩
    exact .inr ⟨before, item, after, itemsEq, readable_of_makes makes, refused_iff.mpr rejected⟩
  · rcases collectWhile_eq_some.mp collected with ⟨values, makes, -⟩
    rw [deserializeMessages_of_makes makes] at served
    rcases served with missed | ⟨msgs, same, typed⟩
    · cases missed
    · cases same
      have integers := (typed_of_makes makes).mp typed
      exact .inl fun item itemMem => ⟨readable_of_makes makes item itemMem, integers item itemMem⟩

theorem served_of_handled (handled : Handled (.array items)) :
    Served (deserializeMessages (.array items)) := by
  rcases handled with good | ⟨before, item, after, itemsEq, readable, refused⟩
  · rcases exists_makes fun item itemMem => (good item itemMem).1 with ⟨msgs, makes⟩
    refine .inr ⟨msgs, deserializeMessages_of_makes makes, ?_⟩
    exact (typed_of_makes makes).mpr fun item itemMem => (good item itemMem).2
  · rcases exists_makes readable with ⟨msgs, makes⟩
    have collected : collectWhile deserializeMessage items [] = .ok none :=
      collectWhile_eq_none.mpr
        ⟨before, item, after, msgs, itemsEq, makes, refused_iff.mp refused⟩
    rw [deserializeMessages, collected]
    exact .inl rfl

/-- The entry is a miss, or is served with the right types, only where it is handled. -/
theorem served_iff (term : JsonTerm) : Served (deserializeMessages term) ↔ Handled term := by
  cases term with
  | array items => exact ⟨handled_of_served, served_of_handled⟩
  | object fields =>
      rcases fields with _ | ⟨field, later⟩
      · exact ⟨fun _ => rfl, fun _ => .inr ⟨[], rfl, by simp⟩⟩
      · constructor
        · rintro (raised | ⟨_, raised, -⟩) <;> cases raised
        · intro empty
          cases empty
  | _ =>
      constructor
      · rintro (raised | ⟨_, raised, -⟩) <;> cases raised
      · exact False.elim

end Lists

/-! ## Reads of an entry -/

def ofMap (found : MessageMap) : RecentMessage :=
  { RecentMessage.ofMessage found.message with
    serverReceivedAt := found.serverReceivedAt.map Int.ofNat }

/-- What a miss of the cache leads to. -/
def refreshRecent (jason : Jason) (tenantId channelId : Bytes) (limit : ℕ) :
    Stored (List RecentMessage) := do
  let maps ← Messages.readMapsFromScylla tenantId channelId limit
  if maps ≠ [] then putRecentMessages jason tenantId channelId (maps.map ofMap)
  pure (maps.map ofMap)

def readRecent (jason : Jason) (tenantId channelId : Bytes) (limit : ℕ) :
    Stored (List RecentMessage) := do
  match ← getRecentMessages jason tenantId channelId with
  | some cached =>
      if limit ≤ cached.length then pure (cached.take limit)
      else refreshRecent jason tenantId channelId limit
  | none => refreshRecent jason tenantId channelId limit

section Runs

variable (jason : Jason) (tenantId channelId text : Bytes)

/-- The entry is served with the right types, or is a miss and deleted. -/
def ServesOrDeletes (run : Execution commands Raise (Option (List RecentMessage)) Stores) : Prop :=
  (∃ msgs, run.outcome = .ok (some msgs) ∧ ∀ msg ∈ msgs, msg.Typed) ∨
    run.outcome = .ok none ∧ run.world.redis (Cache.recentKey tenantId channelId) = none

/-- A read of the entry `text` never raises: it serves messages of the right types, or it deletes
the entry, and then `read_recent` reads the store. -/
structure CorruptIsMiss : Prop where
  get : ∀ (stores : Stores) (moments : ℕ → Moment), (∀ index, (moments index).fate = .carried) →
    stores.redis (Cache.recentKey tenantId channelId) = some (.text text) →
      ServesOrDeletes tenantId channelId
        (stores.run (getRecentMessages jason tenantId channelId) moments)
  read : ∀ (stores : Stores) (moments : ℕ → Moment) (limit : ℕ),
    (∀ index, (moments index).fate = .carried) →
    stores.redis (Cache.recentKey tenantId channelId) = some (.text text) →
      let got := stores.run (getRecentMessages jason tenantId channelId) moments
      let read := stores.run (readRecent jason tenantId channelId limit) moments
      (∃ msgs, got.outcome = .ok (some msgs) ∧ limit ≤ msgs.length ∧
          read.outcome = .ok (msgs.take limit)) ∨
        read.outcome = (got.world.run (refreshRecent jason tenantId channelId limit)
          (dropInputs got.made.length moments)).outcome

variable {jason tenantId channelId text} {stores : Stores} {moments : ℕ → Moment}

theorem run_miss (carried : (moments 0).fate = .carried) :
    stores.run (miss tenantId channelId) moments =
      ⟨[⟨.del (Cache.recentKey tenantId channelId), .ok (.ok ())⟩], .ok none,
        stores.setRedis (Cache.recentKey tenantId channelId) none⟩ := by
  rw [miss, Stores.run_send_bind _ (Stores.perform_del carried)]
  rfl

theorem ofExcept_ok_bind {Result Other : Type} (result : Result) (next : Result → Stored Other) :
    (ofExcept (.ok result) : Stored Result) >>= next = next result :=
  rfl

/-- What the text of an entry is read as. -/
def readEntry (jason : Jason) (text : Bytes) : Except Raise (Option (List RecentMessage)) :=
  (jason.decode text).elim (.ok none) deserializeMessages

/-- A miss leaves no entry. -/
theorem run_get (carried : ∀ index, (moments index).fate = .carried)
    (held : stores.redis (Cache.recentKey tenantId channelId) = some (.text text)) :
    ∃ made after, stores.run (getRecentMessages jason tenantId channelId) moments =
        ⟨made, readEntry jason text, after⟩ ∧
      (readEntry jason text = .ok none →
        after.redis (Cache.recentKey tenantId channelId) = none) := by
  have gets := @perform_get stores (moments 0) (Cache.recentKey tenantId channelId) (carried 0)
  have misses := @run_miss tenantId channelId stores (dropInputs 1 moments) (carried 1)
  have deleted : (stores.setRedis (Cache.recentKey tenantId channelId) none).redis
      (Cache.recentKey tenantId channelId) = none := Function.update_self ..
  rw [held] at gets
  rw [getRecentMessages, Stores.run_send_bind _ gets, readEntry]
  simp only [getReply, heldText]
  rcases jason.decode text with _ | term
  · dsimp only [Option.elim]
    rw [misses]
    exact ⟨_, _, rfl, fun _ => deleted⟩
  · dsimp only [Option.elim]
    rcases deserializeMessages term with raised | _ | msgs
    · exact ⟨_, _, rfl, fun missed => by cases missed⟩
    · rw [ofExcept_ok_bind, misses]
      exact ⟨_, _, rfl, fun _ => deleted⟩
    · exact ⟨_, _, rfl, fun missed => by cases missed⟩

theorem servesOrDeletes_iff (carried : ∀ index, (moments index).fate = .carried)
    (held : stores.redis (Cache.recentKey tenantId channelId) = some (.text text)) :
    ServesOrDeletes tenantId channelId
        (stores.run (getRecentMessages jason tenantId channelId) moments) ↔
      Served (readEntry jason text) := by
  rcases @run_get jason tenantId channelId text stores moments carried held with
    ⟨made, after, gets, deletes⟩
  rw [gets]
  constructor
  · rintro (served | ⟨missed, -⟩)
    · exact .inr served
    · exact .inl missed
  · rintro (missed | served)
    · exact .inr ⟨missed, deletes missed⟩
    · exact .inl served

/-- Unless it raises, `read_recent` serves the entry or reads the store. -/
theorem run_readRecent (carried : ∀ index, (moments index).fate = .carried)
    (held : stores.redis (Cache.recentKey tenantId channelId) = some (.text text))
    (served : Served (readEntry jason text)) (limit : ℕ) :
    let got := stores.run (getRecentMessages jason tenantId channelId) moments
    let read := stores.run (readRecent jason tenantId channelId limit) moments
    (∃ msgs, got.outcome = .ok (some msgs) ∧ limit ≤ msgs.length ∧
        read.outcome = .ok (msgs.take limit)) ∨
      read.outcome = (got.world.run (refreshRecent jason tenantId channelId limit)
        (dropInputs got.made.length moments)).outcome := by
  rcases @run_get jason tenantId channelId text stores moments carried held with
    ⟨made, after, gets, -⟩
  intro got read
  rcases served with missed | ⟨msgs, isServed, -⟩
  · rw [missed] at gets
    right
    simp only [got, read, readRecent]
    rw [Stores.run_bind _ gets, gets]
  · rw [isServed] at gets
    simp only [got, read, readRecent]
    rw [Stores.run_bind _ gets, gets]
    by_cases enough : limit ≤ msgs.length
    · refine .inl ⟨msgs, rfl, enough, ?_⟩
      simp only [if_pos enough]
      rfl
    · right
      simp only [if_neg enough]

def storesWith (tenantId channelId text : Bytes) : Stores :=
  (onlyCursors .empty).setRedis (Cache.recentKey tenantId channelId) (some (.text text))

theorem redis_storesWith : (storesWith tenantId channelId text).redis
    (Cache.recentKey tenantId channelId) = some (.text text) :=
  Function.update_self ..

theorem served_readEntry_iff :
    Served (readEntry jason text) ↔ ∀ term, jason.decode text = some term → Handled term := by
  rw [readEntry]
  rcases jason.decode text with _ | term
  · simp [Served]
  · simp [served_iff]

/-- A corrupt entry is a miss exactly where it is no JSON, or its JSON is handled. -/
theorem corruptIsMiss_iff (jason : Jason) (tenantId channelId text : Bytes) :
    CorruptIsMiss jason tenantId channelId text ↔
      ∀ term, jason.decode text = some term → Handled term := by
  rw [← served_readEntry_iff]
  constructor
  · intro corrupt
    have got := corrupt.get (storesWith tenantId channelId text) (fun _ => carriedOut)
      (fun _ => rfl) redis_storesWith
    exact (servesOrDeletes_iff (fun _ => rfl) redis_storesWith).mp got
  · intro served
    exact
      { get := fun _ _ carried held => (servesOrDeletes_iff carried held).mpr served
        read := fun _ _ limit carried held => run_readRecent carried held served limit }

/-- A number in the place of the list, which raises. -/
def numberJason : Jason where
  encode _ := []
  decode text := if text = ascii "5" then some (.integer 5) else none

theorem number_raises :
    ((storesWith [1] [2] (ascii "5")).run (readRecent numberJason [1] [2] 50)
      fun _ => carriedOut).outcome = .error .noMatch ∧
    ¬∀ (jason : Jason) (tenantId channelId text : Bytes),
      CorruptIsMiss jason tenantId channelId text := by
  have decoded : numberJason.decode (ascii "5") = some (.integer 5) := by
    simp [numberJason]
  have entry : readEntry numberJason (ascii "5") = .error .noMatch := by
    rw [readEntry, decoded]
    rfl
  rcases @run_get numberJason [1] [2] (ascii "5") _ (fun _ => carriedOut) (fun _ => rfl)
    redis_storesWith with ⟨made, after, gets, -⟩
  constructor
  · rw [readRecent, Stores.run_bind_error _ (entry ▸ gets)]
  · intro corruptIsMiss
    have got := (corruptIsMiss numberJason [1] [2] (ascii "5")).get _ (fun _ => carriedOut)
      (fun _ => rfl) redis_storesWith
    rw [servesOrDeletes_iff (fun _ => rfl) redis_storesWith, entry] at got
    rcases got with missed | ⟨_, served, -⟩
    · cases missed
    · cases served

end Runs

end TermCache

end Mercury.Gateway
