import Mercury.Gateway.ChannelCreation
import Mercury.Persistence.MemberIds

/-!
# Ids as UUIDs

The socket holds raw ids, and the tables of Postgres are asked with texts. The texts
stand for the ids (`uuids_round_trip`): what `add_member` writes is found again by
`member?`, and nothing else is.
-/

namespace Mercury.Gateway

open Foundations Foundations.Program Persistence

def uuidFromBinary (binary : Bytes) : Option Bytes :=
  printUuid binary

/-- The digits of both cases are told apart by their letters. -/
theorem hexText_eq_encode16 (bytes : Bytes) :
    hexText bytes =
      (Base.encode16 bytes).map fun char => if 65 ≤ char.val then char + 32 else char := by
  have digit : ∀ nibble : Fin 16, lowerDigit nibble.val =
      if 65 ≤ (Base.hexDigit nibble).val then Base.hexDigit nibble + 32
      else Base.hexDigit nibble := by
    decide
  rw [hexText]
  induction bytes with
  | nil => rfl
  | cons byte rest ih =>
      have high := digit ⟨byte.val / 16, Base.highNibble_lt byte⟩
      have low := digit ⟨byte.val % 16, Base.lowNibble_lt byte⟩
      simp only [nibbles, List.map_cons, Base.encode16, ih, high, low]

/-- The text that is loaded of a row of `users` is the one that the socket prints. -/
theorem uuidFromBinary_eq_uuidText (id : Id16) : uuidFromBinary id.val = some (uuidText id) := by
  have groups : uuidDigits id.val = [(hexText id.val).take 8, ((hexText id.val).drop 8).take 4,
      ((hexText id.val).drop 12).take 4, ((hexText id.val).drop 16).take 4,
      (hexText id.val).drop 20] := by
    have last : ((nibbles id.val).drop 20).take 12 = (nibbles id.val).drop 20 := by
      apply List.take_of_length_le
      simp [id.property]
    simp only [uuidDigits, uuidSizes, List.splitLengths_cons, List.splitLengths_nil, List.map_cons,
      List.map_nil, hexText, nibbles_take, nibbles_drop, List.drop_drop, List.map_take,
      List.map_drop, last]
  rw [uuidFromBinary, printUuid_eq id.property, groups, hexText_eq_encode16, uuidText]
  simp [List.intercalate]

/-! ## Members in the stores -/

section Database

variable {ecto : EctoUuid} {tenantId channelId userId : Id16} {stores : Stores}
  {moments : ℕ → Moment}

/-- The listing of rows with these ids. -/
def listingOf : List Bytes → Members.Listing
  | [] => .empty
  | ids => .ids ids

/-- The raw ids of the users that have a row in the channel. -/
def Stores.memberIds (stores : Stores) (tenantId channelId : Id16) : List Bytes :=
  ((stores.members.rows.filter fun row =>
    row.tenantId = tenantId ∧ row.channelId = channelId).map MemberRow.userId).map Subtype.val

theorem mem_memberIds :
    userId.val ∈ stores.memberIds tenantId channelId ↔
      stores.HasMember tenantId channelId userId := by
  simp only [Stores.memberIds, List.mem_map, List.mem_filter, decide_eq_true_eq]
  constructor
  · rintro ⟨_, ⟨⟨tid, cid, uid, role⟩, ⟨rowMem, rfl, rfl⟩, rfl⟩, same⟩
    obtain rfl := Subtype.ext same
    exact ⟨role, rowMem⟩
  · rintro ⟨role, rowMem⟩
    exact ⟨userId, ⟨_, ⟨rowMem, rfl, rfl⟩, rfl⟩, rfl⟩

theorem outcome_rescue {Result : Type} {program : Stored Result} {result : Result}
    (handler : Raise → Stored Result)
    (returned : (stores.run program moments).outcome = .ok result) :
    (stores.run (program.rescue handler) moments).outcome = .ok result := by
  rcases ranEq : stores.run program moments with ⟨made, outcome, after⟩
  rw [ranEq] at returned
  obtain rfl : outcome = .ok result := returned
  exact congrArg Execution.outcome (Stores.run_rescue handler ranEq)

theorem run_putChannelMembers (carried : ∀ index, (moments index).fate = .carried)
    (ids : List Bytes) :
    ∃ made after, stores.run ((Cache.putChannelMembers tenantId.val channelId.val ids).through
      storedBackend) moments = ⟨made, .ok (), after⟩ := by
  rw [Cache.putChannelMembers]
  split
  · have filled : Stores.perform (moments 0) stores
        (.replaceSet (Cache.membersKey tenantId.val channelId.val) ids) =
          (.ok (.ok ()), stores.setRedis (Cache.membersKey tenantId.val channelId.val)
            (some (.set ids))) := by
      simp [Stores.perform, carried 0, Fate.answer, Fate.applies, Stores.execute]
    rw [through_bind, ask, through_perform]
    exact ⟨_, _, Stores.run_send_bind _ filled⟩
  · exact ⟨_, _, Stores.run_pure ()⟩

theorem outcome_loadFromDb (carried : ∀ index, (moments index).fate = .carried) :
    (stores.run ((Members.loadFromDb tenantId.val channelId.val).through storedBackend)
      moments).outcome = .ok (listingOf (stores.memberIds tenantId channelId)) := by
  have selected : Stores.perform (moments 0) stores (.selectMemberIds tenantId channelId) =
      (.ok ((stores.members.rows.filter fun row =>
        row.tenantId = tenantId ∧ row.channelId = channelId).map MemberRow.userId), stores) := by
    simp [Stores.perform, carried 0, Fate.answer, Stores.execute]
  simp only [Members.loadFromDb, Id16.ofBytes_val, through_rescue]
  apply outcome_rescue
  rw [through_bind, ask, through_perform]
  refine (congrArg Execution.outcome (Stores.run_send_bind _ selected)).trans ?_
  change (stores.run (through storedBackend (match stores.memberIds tenantId channelId with
    | [] => pure Members.Listing.empty
    | ids => do
        Cache.putChannelMembers tenantId.val channelId.val ids
        pure (Members.Listing.ids ids))) (dropInputs 1 moments)).outcome = _
  rcases stores.memberIds tenantId channelId with _ | ⟨first, later⟩
  · rfl
  · rcases @run_putChannelMembers tenantId channelId stores (dropInputs 1 moments)
      (fun index => carried (index + 1)) (first :: later) with ⟨made, after, filled⟩
    dsimp only
    rw [through_bind, Stores.run_bind _ filled]
    rfl

/-- With nothing in the cache, `member?` is about the rows. -/
theorem outcome_isMember (carried : ∀ index, (moments index).fate = .carried)
    (missing : stores.redis (Cache.membersKey tenantId.val channelId.val) = none) :
    (stores.run ((Members.isMember tenantId.val channelId.val userId.val).through storedBackend)
      moments).outcome =
        .ok (.ok (decide (userId.val ∈ stores.memberIds tenantId channelId))) := by
  have empty : Stores.perform (moments 0) stores
      (.smembers (Cache.membersKey tenantId.val channelId.val)) = (.ok (.ok []), stores) := by
    simp [Stores.perform, carried 0, Fate.answer, Stores.execute, missing]
  have missed : stores.run ((Cache.getChannelMembers tenantId.val channelId.val).through
      storedBackend) moments =
        ⟨[⟨.smembers (Cache.membersKey tenantId.val channelId.val), .ok (.ok [])⟩], .ok none,
          stores⟩ := by
    rw [Cache.getChannelMembers, through_bind, ask, through_perform]
    exact Stores.run_send_bind _ empty
  have listed := @outcome_loadFromDb tenantId channelId stores (dropInputs 1 moments)
    fun index => carried (index + 1)
  rw [Members.isMember, through_bind, Members.listMembers, through_bind, bind_bind,
    Stores.run_bind _ missed]
  dsimp only [List.length_singleton]
  rcases ranEq : stores.run ((Members.loadFromDb tenantId.val channelId.val).through
    storedBackend) (dropInputs 1 moments) with ⟨made, outcome, after⟩
  rw [ranEq] at listed
  obtain rfl : outcome = .ok (listingOf (stores.memberIds tenantId channelId)) := listed
  rw [Stores.run_bind _ ranEq]
  rcases stores.memberIds tenantId channelId with _ | ⟨first, later⟩
  · rfl
  · rfl

/-- A function of `Persistence.Members`, with its texts, on the stores. -/
def throughEcto {Result : Type} (ecto : EctoUuid) (program : Members.Queried Result) :
    Stored Result :=
  (program.through (Members.adapter ecto)).through storedBackend

theorem outcome_texts (lawful : ecto.Lawful)
    (carried : ∀ index, (moments index).fate = .carried)
    (missing : stores.redis (Cache.membersKey tenantId.val channelId.val) = none) :
    (stores.run (throughEcto ecto (Members.Textual.isMember ecto tenantId.val channelId.val
      userId.val)) moments).outcome =
        .ok (.ok (decide (userId.val ∈ stores.memberIds tenantId channelId))) := by
  rw [throughEcto, Members.isMember_through lawful]
  exact outcome_isMember carried missing

/-- What `add_member` wrote, `member?` finds, and with it what was there before. -/
theorem outcome_added (lawful : ecto.Lawful)
    (carried : ∀ index, (moments index).fate = .carried)
    (known : (tenantId, userId) ∈ stores.users.rows.map UserRow.key)
    (created : (⟨tenantId, channelId⟩ : ChannelRow) ∈ stores.channels.rows) (other : Id16) :
    ((stores.run (throughEcto ecto (Members.Textual.addMember tenantId.val channelId.val
      userId.val 0)) moments).world.run (throughEcto ecto (Members.Textual.isMember ecto
        tenantId.val channelId.val other.val)) moments).outcome =
      .ok (.ok (decide (other.val = userId.val ∨
        other.val ∈ stores.memberIds tenantId channelId))) := by
  rcases @run_addMember tenantId channelId userId stores moments carried known created with
    ⟨made, after, added, emptied, members⟩
  have same : other.val ∈ after.memberIds tenantId channelId ↔
      other.val = userId.val ∨ other.val ∈ stores.memberIds tenantId channelId := by
    rw [mem_memberIds, mem_memberIds, members, Subtype.ext_iff]
  have ran : stores.run (throughEcto ecto (Members.Textual.addMember tenantId.val channelId.val
      userId.val 0)) moments = ⟨made, .ok (.ok ()), after⟩ := by
    rw [throughEcto, Members.addMember_through lawful, added]
  rw [ran, outcome_texts lawful carried emptied, decide_eq_decide.mpr same]

end Database

/-! ## The round trip -/

/-- Printed ids are told apart by their texts. -/
theorem toUuid_injective {left right : Bytes} (leftSixteen : left.length = 16)
    (rightSixteen : right.length = 16) (same : Members.toUuid left = Members.toUuid right) :
    left = right := by
  rcases Members.exists_toUuid leftSixteen with ⟨text, printed, -⟩
  have isLeft := Members.toRaw_toUuid lawful_plainEcto leftSixteen printed
  have isRight := Members.toRaw_toUuid lawful_plainEcto rightSixteen (same ▸ printed)
  exact Option.some.inj (isLeft.symm.trans isRight)

/-- An id is printed as one canonical text by both applications and read back from it, no two
ids have one text, and the ids that went through the database are the raw ids. -/
theorem uuids_round_trip {ecto : EctoUuid} (lawful : ecto.Lawful) :
    (∀ id : Bytes, id.length = 16 → ∃ text, Members.toUuid id = some text ∧
      text.length = 36 ∧ IsCanonical text ∧ uuidFromBinary id = some text ∧
      Members.toRaw ecto text = some id) ∧
    (∀ left right : Bytes, left.length = 16 → right.length = 16 →
      Members.toUuid left = Members.toUuid right → left = right) ∧
    Members.TextsStandForIds ecto ∧
    ∀ (stores : Stores) (moments : ℕ → Moment) (tenantId channelId : Id16),
      (∀ index, (moments index).fate = .carried) →
      (stores.redis (Cache.membersKey tenantId.val channelId.val) = none → ∀ other : Id16,
        (stores.run (throughEcto ecto (Members.Textual.isMember ecto tenantId.val channelId.val
          other.val)) moments).outcome =
            .ok (.ok (decide (other.val ∈ stores.memberIds tenantId channelId)))) ∧
      ∀ userId : Id16, (tenantId, userId) ∈ stores.users.rows.map UserRow.key →
        (⟨tenantId, channelId⟩ : ChannelRow) ∈ stores.channels.rows → ∀ other : Id16,
          ((stores.run (throughEcto ecto (Members.Textual.addMember tenantId.val channelId.val
            userId.val 0)) moments).world.run (throughEcto ecto (Members.Textual.isMember ecto
              tenantId.val channelId.val other.val)) moments).outcome =
            .ok (.ok (decide (other.val = userId.val ∨
              other.val ∈ stores.memberIds tenantId channelId))) := by
  refine ⟨?_, fun _ _ => toUuid_injective, Members.textsStandForIds lawful, ?_⟩
  · intro id sixteen
    rcases Members.exists_toUuid sixteen with ⟨text, isText, printed⟩
    have canonical := (printUuid_canonical sixteen printed).1
    exact ⟨text, isText, canonical.length, canonical, printed,
      Members.toRaw_toUuid lawful sixteen isText⟩
  · intro stores moments tenantId channelId carried
    refine ⟨fun missing other => outcome_texts lawful carried missing, ?_⟩
    intro userId known created other
    exact outcome_added lawful carried known created other

/-- An id whose fields start with zeros, and a user that is added to a channel. -/
theorem uuids_round_trip_of_one :
    Members.toUuid [0, 1, 2, 3, 4, 5, 6, 7, 8, 9, 10, 11, 12, 13, 14, 15] =
      some (ascii "00010203-0405-0607-0809-0a0b0c0d0e0f") ∧
    Members.toRaw plainEcto (ascii "00010203-0405-0607-0809-0a0b0c0d0e0f") =
      some [0, 1, 2, 3, 4, 5, 6, 7, 8, 9, 10, 11, 12, 13, 14, 15] ∧
    ∀ user : Byte, ((createdStores.run (throughEcto plainEcto (Members.Textual.addMember
      (Id16.replicate 1).val (Id16.replicate 6).val (Id16.replicate 5).val 0))
        fun _ => carriedOut).world.run (throughEcto plainEcto (Members.Textual.isMember plainEcto
          (Id16.replicate 1).val (Id16.replicate 6).val (Id16.replicate user).val))
            fun _ => carriedOut).outcome = .ok (.ok (decide (user = 5))) := by
  rcases uuids_round_trip lawful_plainEcto with ⟨trip, -, -, database⟩
  have printed : Members.toUuid [0, 1, 2, 3, 4, 5, 6, 7, 8, 9, 10, 11, 12, 13, 14, 15] =
      some (ascii "00010203-0405-0607-0809-0a0b0c0d0e0f") := by
    decide +kernel
  rcases trip [0, 1, 2, 3, 4, 5, 6, 7, 8, 9, 10, 11, 12, 13, 14, 15] rfl with
    ⟨text, isText, -, -, -, read⟩
  obtain rfl := Option.some.inj (printed.symm.trans isText)
  refine ⟨printed, read, fun user => ?_⟩
  have found := (database createdStores (fun _ => carriedOut) (.replicate 1) (.replicate 6)
    fun _ => rfl).2 (.replicate 5) provisioned_provisionedStores.user
      (List.mem_singleton_self _) (.replicate user)
  have only : (Id16.replicate user).val = (Id16.replicate 5).val ∨
      (Id16.replicate user).val ∈ createdStores.memberIds (.replicate 1) (.replicate 6) ↔
        user = 5 := by
    have empty : createdStores.memberIds (.replicate 1) (.replicate 6) = [] := rfl
    rw [empty]
    simp [Id16.replicate]
  rw [found, decide_eq_decide.mpr only]

end Mercury.Gateway
