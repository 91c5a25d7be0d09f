import Mercury.Core.Uuids
import Mercury.Persistence.Members

/-!
# Ids on their way to the membership table

`Persistence.Members` with the texts that it gives to Ecto and gets from it. Where
Ecto dumps and loads these texts, the functions are those on raw ids, which the
other modules take (`textsStandForIds`).
-/

namespace Mercury.Persistence

open Foundations Foundations.Program

namespace Members

/-! ## Conversions -/

def toUuid (id : Bytes) : Option Bytes :=
  (printUuid id).or (if id.length = 36 then some id else none)

def toRaw (ecto : EctoUuid) (id : Bytes) : Option Bytes :=
  if id.length = 36 then ecto.dump id
  else if id.length = 16 then some id
  else none

variable {ecto : EctoUuid}

theorem toUuid_eq_printUuid {id : Bytes} (sixteen : id.length = 16) : toUuid id = printUuid id := by
  simp [toUuid, sixteen]

theorem toRaw_canonical {text : Bytes} (canonical : IsCanonical text) :
    toRaw ecto text = ecto.dump text :=
  if_pos canonical.length

/-- A text that Ecto loads is the id again. -/
theorem toRaw_load (lawful : ecto.Lawful) {raw text : Bytes} (sixteen : raw.length = 16)
    (loaded : ecto.load raw = some text) : toRaw ecto text = some raw := by
  rcases lawful.loads raw sixteen with ⟨same, isText, canonical, digits⟩
  obtain rfl := Option.some.inj (loaded.symm.trans isText)
  rw [toRaw_canonical canonical, lawful.dumps text canonical, digits]

/-- The text of an id is the id again. -/
theorem toRaw_toUuid (lawful : ecto.Lawful) {id text : Bytes} (sixteen : id.length = 16)
    (printed : toUuid id = some text) : toRaw ecto text = some id := by
  rw [toUuid_eq_printUuid sixteen] at printed
  rw [toRaw_canonical (printUuid_canonical sixteen printed).1,
    lawful.dump_printed sixteen printed]

theorem exists_toUuid {id : Bytes} (sixteen : id.length = 16) :
    ∃ text, toUuid id = some text ∧ printUuid id = some text := by
  have printed := printUuid_eq sixteen
  exact ⟨_, (toUuid_eq_printUuid sixteen).trans printed, printed⟩

/-! ## The repository -/

/-- The queries of the module, whose ids are texts, and the commands of the cache. -/
inductive Query where
  /-- `Repo.all` of the user ids of a channel. -/
  | userIds (tid cid : Bytes)
  /-- `Repo.one` of a role. -/
  | role (tid cid uid : Bytes)
  | insert (tid cid uid : Bytes) (role : ℕ)
  | deleteAll (tid cid uid : Bytes)
  | cache (asked : Backend.Call)
deriving DecidableEq

abbrev Query.Answer : Query → Type
  | .userIds .. => List Bytes
  | .role .. => Option ℕ
  | .insert .. => Except Bytes Unit
  | .deleteAll .. => ℕ
  | .cache asked => Backend.Answer asked

abbrev queries : Interface where
  Call := Query
  Answer := Query.Answer

/-- A function of the module. -/
abbrev Queried (Result : Type) := Program queries Raise Result

def query (asked : Query) : Queried asked.Answer :=
  @perform queries Raise asked

def cached {Result : Type} (program : Backed Result) : Queried Result :=
  program.through fun asked => query (.cache asked)

/-- A parameter of a query, or a value of a row. One that is no UUID raises. -/
def dumpId (ecto : EctoUuid) (text : Bytes) : Backed Id16 :=
  match (ecto.dump text).bind Id16.ofBytes with
  | some id => pure id
  | none => .fail .argument

def loadIds (ecto : EctoUuid) (ids : List Id16) : Backed (List Bytes) :=
  match ids.mapM fun id => ecto.load id.val with
  | some texts => pure texts
  | none => .fail .argument

/-- The columns are of type `:binary_id`, for which the adapter takes `Ecto.UUID`. -/
def adapter (ecto : EctoUuid) : (asked : Query) → Backed asked.Answer
  | .userIds tid cid => do
      let tid ← dumpId ecto tid
      let cid ← dumpId ecto cid
      let ids ← ask (.selectMemberIds tid cid)
      loadIds ecto ids
  | .role tid cid uid => do
      let tid ← dumpId ecto tid
      let cid ← dumpId ecto cid
      let uid ← dumpId ecto uid
      ask (.selectRole tid cid uid)
  | .insert tid cid uid role => do
      let tid ← dumpId ecto tid
      let cid ← dumpId ecto cid
      let uid ← dumpId ecto uid
      ask (.insertMember tid cid uid role)
  | .deleteAll tid cid uid => do
      let tid ← dumpId ecto tid
      let cid ← dumpId ecto cid
      let uid ← dumpId ecto uid
      ask (.deleteMember tid cid uid)
  | .cache asked => ask asked

/-! ## The functions on texts -/

namespace Textual

variable (ecto : EctoUuid)

def loadFromDb (tenantId channelId : Bytes) : Queried Listing :=
  rescue
    (do
      match toUuid tenantId, toUuid channelId with
      | some tid, some cid =>
          let uuids ← query (.userIds tid cid)
          match uuids.filterMap (toRaw ecto) with
          | [] => pure .empty
          | ids => do
              cached (Cache.putChannelMembers tenantId channelId ids)
              pure (.ids ids)
      | _, _ => pure .empty)
    fun _ => pure .unavailable

def listMembers (tenantId channelId : Bytes) : Queried Listing := do
  match ← cached (Cache.getChannelMembers tenantId channelId) with
  | some members => pure (.ids members)
  | none => loadFromDb ecto tenantId channelId

def isMember (tenantId channelId userId : Bytes) : Queried (Except Unit Bool) := do
  match ← listMembers ecto tenantId channelId with
  | .ids memberIds => pure (.ok (userId ∈ memberIds))
  | .empty => pure (.ok false)
  | .unavailable => pure (.error ())

/-- An id that is none goes to Ecto as it is. -/
def addMember (tenantId channelId userId : Bytes) (role : ℕ) : Queried (Except Bytes Unit) := do
  let inserted ← query (.insert ((toUuid tenantId).getD tenantId)
    ((toUuid channelId).getD channelId) ((toUuid userId).getD userId) role)
  match inserted with
  | .ok _ => do
      cached (Cache.invalidateChannelMembers tenantId channelId)
      pure (.ok ())
  | .error reason => pure (.error reason)

def getRole (tenantId channelId userId : Bytes) : Queried RoleLookup :=
  rescue
    (do
      match toUuid tenantId, toUuid channelId, toUuid userId with
      | some tid, some cid, some uid =>
          match ← query (.role tid cid uid) with
          | none => pure .notFound
          | some role => pure (.role role)
      | _, _, _ => pure .notFound)
    fun _ => pure .dbError

def removeMember (tenantId channelId userId : Bytes) : Queried (Except Bytes Unit) :=
  rescue
    (do
      match toUuid tenantId, toUuid channelId, toUuid userId with
      | some tid, some cid, some uid =>
          let count : ℕ ← query (.deleteAll tid cid uid)
          cached (Cache.invalidateChannelMembers tenantId channelId)
          if 0 < count then pure (.ok ()) else pure (.error (ascii "not_found"))
      | _, _, _ => pure (.error (ascii "invalid_id")))
    fun _ => pure (.error (ascii "db_error"))

end Textual

/-! ## The functions on raw ids -/

theorem through_query (asked : Query) :
    (query asked).through (adapter ecto) = adapter ecto asked :=
  through_perform _

theorem through_cached {Result : Type} (program : Backed Result) :
    (cached program).through (adapter ecto) = program := by
  have same : ∀ asked, (query (.cache asked)).through (adapter ecto) = ask asked :=
    fun asked => through_query (.cache asked)
  rw [cached, through_through]
  exact (congrArg program.through (funext same)).trans (through_self program)

section Lawful

variable (lawful : ecto.Lawful) (tenantId channelId userId : Id16)
include lawful

theorem dumpId_printed {id : Id16} {text : Bytes} (printed : printUuid id.val = some text) :
    dumpId ecto text = pure id := by
  rw [dumpId, lawful.dump_printed id.property printed, Option.bind_some, Id16.ofBytes_val]

/-- The texts of the selected ids are these ids again. -/
theorem loadIds_eq (ids : List Id16) :
    ∃ texts, loadIds ecto ids = pure texts ∧
      texts.filterMap (toRaw ecto) = ids.map Subtype.val := by
  have loaded : ∃ texts, (ids.mapM fun id => ecto.load id.val) = some texts ∧
      texts.filterMap (toRaw ecto) = ids.map Subtype.val := by
    induction ids with
    | nil => exact ⟨[], rfl, rfl⟩
    | cons id later ih =>
        rcases ih with ⟨texts, loads, same⟩
        rcases lawful.loads id.val id.property with ⟨text, isText, -, -⟩
        refine ⟨text :: texts, by simp [List.mapM_cons, isText, loads], ?_⟩
        rw [List.filterMap_cons, toRaw_load lawful id.property isText]
        simp [same]
  rcases loaded with ⟨texts, loads, same⟩
  exact ⟨texts, by rw [loadIds, loads], same⟩

theorem userIds_through {tid cid : Bytes} (tidPrinted : printUuid tenantId.val = some tid)
    (cidPrinted : printUuid channelId.val = some cid) :
    (query (.userIds tid cid)).through (adapter ecto) =
      ask (.selectMemberIds tenantId channelId) >>= loadIds ecto := by
  rw [through_query, adapter, dumpId_printed lawful tidPrinted, dumpId_printed lawful cidPrinted]
  rfl

theorem loadFromDb_through :
    (Textual.loadFromDb ecto tenantId.val channelId.val).through (adapter ecto) =
      loadFromDb tenantId.val channelId.val := by
  rcases exists_toUuid tenantId.property with ⟨tid, isTid, tidPrinted⟩
  rcases exists_toUuid channelId.property with ⟨cid, isCid, cidPrinted⟩
  simp only [Textual.loadFromDb, loadFromDb, isTid, isCid, Id16.ofBytes_val, through_rescue,
    through_bind]
  refine congrArg₂ rescue ?_ rfl
  refine (congrArg (· >>= _) (userIds_through lawful _ _ tidPrinted cidPrinted)).trans ?_
  refine (bind_bind _ _ _).trans (congrArg (ask _ >>= ·) (funext fun ids => ?_))
  rcases loadIds_eq lawful ids with ⟨texts, loads, same⟩
  rw [loads]
  change through _ (match texts.filterMap (toRaw ecto) with
    | [] => _
    | ids => _) = _
  rw [same]
  rcases ids.map Subtype.val with _ | ⟨first, later⟩
  · rfl
  · exact (through_bind _ _).trans (congrArg (· >>= _) (through_cached _))

theorem listMembers_through :
    (Textual.listMembers ecto tenantId.val channelId.val).through (adapter ecto) =
      listMembers tenantId.val channelId.val := by
  rw [Textual.listMembers, listMembers, through_bind, through_cached]
  refine congrArg (Cache.getChannelMembers _ _ >>= ·) (funext fun found => ?_)
  rcases found with _ | members
  · exact loadFromDb_through lawful tenantId channelId
  · rfl

theorem isMember_through (uid : Bytes) :
    (Textual.isMember ecto tenantId.val channelId.val uid).through (adapter ecto) =
      isMember tenantId.val channelId.val uid := by
  rw [Textual.isMember, isMember, through_bind, listMembers_through lawful]
  refine congrArg (listMembers _ _ >>= ·) (funext fun listing => ?_)
  rcases listing with _ | _ | _ <;> rfl

/-- A query about a row is carried out on its raw ids. -/
theorem dumpIds_printed {Result : Type} {tid cid uid : Bytes}
    (tidPrinted : printUuid tenantId.val = some tid)
    (cidPrinted : printUuid channelId.val = some cid)
    (uidPrinted : printUuid userId.val = some uid) (next : Id16 → Id16 → Id16 → Backed Result) :
    (do next (← dumpId ecto tid) (← dumpId ecto cid) (← dumpId ecto uid)) =
      next tenantId channelId userId := by
  rw [dumpId_printed lawful tidPrinted, dumpId_printed lawful cidPrinted,
    dumpId_printed lawful uidPrinted]
  rfl

theorem addMember_through (role : ℕ) :
    (Textual.addMember tenantId.val channelId.val userId.val role).through (adapter ecto) =
      addMember tenantId.val channelId.val userId.val role := by
  have printed : ∀ id : Id16, printUuid id.val = some ((toUuid id.val).getD id.val) := by
    intro id
    rcases exists_toUuid id.property with ⟨text, isText, same⟩
    rw [isText, same, Option.getD_some]
  simp only [Textual.addMember, addMember, Id16.ofBytes_val, through_bind]
  have inserted : (query (.insert ((toUuid tenantId.val).getD tenantId.val)
      ((toUuid channelId.val).getD channelId.val) ((toUuid userId.val).getD userId.val)
      role)).through (adapter ecto) = ask (.insertMember tenantId channelId userId role) :=
    (through_query _).trans
      (dumpIds_printed lawful _ _ _ (printed tenantId) (printed channelId) (printed userId) _)
  refine (congrArg (· >>= _) inserted).trans (congrArg (ask _ >>= ·) (funext fun answer => ?_))
  rcases answer with reason | _
  · rfl
  · exact (through_bind _ _).trans (congrArg (· >>= _) (through_cached _))

theorem getRole_through :
    (Textual.getRole tenantId.val channelId.val userId.val).through (adapter ecto) =
      getRole tenantId.val channelId.val userId.val := by
  rcases exists_toUuid tenantId.property with ⟨tid, isTid, tidPrinted⟩
  rcases exists_toUuid channelId.property with ⟨cid, isCid, cidPrinted⟩
  rcases exists_toUuid userId.property with ⟨uid, isUid, uidPrinted⟩
  simp only [Textual.getRole, getRole, isTid, isCid, isUid, Id16.ofBytes_val, through_rescue,
    through_bind]
  have selected : (query (.role tid cid uid)).through (adapter ecto) =
      ask (.selectRole tenantId channelId userId) :=
    (through_query _).trans (dumpIds_printed lawful _ _ _ tidPrinted cidPrinted uidPrinted _)
  refine congrArg₂ rescue ?_ rfl
  refine (congrArg (· >>= _) selected).trans (congrArg (ask _ >>= ·) (funext fun role => ?_))
  rcases role with _ | role <;> rfl

theorem removeMember_through :
    (Textual.removeMember tenantId.val channelId.val userId.val).through (adapter ecto) =
      removeMember tenantId.val channelId.val userId.val := by
  rcases exists_toUuid tenantId.property with ⟨tid, isTid, tidPrinted⟩
  rcases exists_toUuid channelId.property with ⟨cid, isCid, cidPrinted⟩
  rcases exists_toUuid userId.property with ⟨uid, isUid, uidPrinted⟩
  simp only [Textual.removeMember, removeMember, isTid, isCid, isUid, Id16.ofBytes_val,
    through_rescue, through_bind]
  have deleted : (query (.deleteAll tid cid uid)).through (adapter ecto) =
      ask (.deleteMember tenantId channelId userId) :=
    (through_query _).trans (dumpIds_printed lawful _ _ _ tidPrinted cidPrinted uidPrinted _)
  refine congrArg₂ rescue ?_ rfl
  refine (congrArg (· >>= _) deleted).trans (congrArg (ask _ >>= ·) (funext fun count => ?_))
  refine congrArg₂ (· >>= ·) (through_cached _) (funext fun _ => ?_)
  split <;> rfl

end Lawful

/-- With its texts, every function does what it does on the raw ids. -/
structure TextsStandForIds (ecto : EctoUuid) : Prop where
  listMembers : ∀ tenantId channelId : Id16,
    (Textual.listMembers ecto tenantId.val channelId.val).through (adapter ecto) =
      Members.listMembers tenantId.val channelId.val
  isMember : ∀ (tenantId channelId : Id16) (uid : Bytes),
    (Textual.isMember ecto tenantId.val channelId.val uid).through (adapter ecto) =
      Members.isMember tenantId.val channelId.val uid
  addMember : ∀ (tenantId channelId userId : Id16) (role : ℕ),
    (Textual.addMember tenantId.val channelId.val userId.val role).through (adapter ecto) =
      Members.addMember tenantId.val channelId.val userId.val role
  getRole : ∀ tenantId channelId userId : Id16,
    (Textual.getRole tenantId.val channelId.val userId.val).through (adapter ecto) =
      Members.getRole tenantId.val channelId.val userId.val
  removeMember : ∀ tenantId channelId userId : Id16,
    (Textual.removeMember tenantId.val channelId.val userId.val).through (adapter ecto) =
      Members.removeMember tenantId.val channelId.val userId.val

theorem textsStandForIds (lawful : ecto.Lawful) : TextsStandForIds ecto where
  listMembers := listMembers_through lawful
  isMember := isMember_through lawful
  addMember := addMember_through lawful
  getRole := getRole_through lawful
  removeMember := removeMember_through lawful

end Members

end Mercury.Persistence
