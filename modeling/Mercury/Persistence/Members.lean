import Mercury.Persistence.Backend

/-!
# Channel membership

`Persistence.Members` over the membership table and the members cache. Ids reach
the table as `Ecto.UUID`s, which are their sixteen bytes.
-/

namespace Mercury.Persistence

namespace Cache

open Foundations.Program

def membersKey (tenantId channelId : Bytes) : Bytes :=
  Base.encode16 tenantId ++ ascii ":ch:" ++ Base.encode16 channelId ++ ascii ":members"

/-- `none` is `:miss`. -/
def getChannelMembers (tenantId channelId : Bytes) : Backed (Option (List Bytes)) := do
  match ← ask (.smembers (membersKey tenantId channelId)) with
  | .ok [] => pure none
  | .ok members => pure (some members)
  | .error _ => pure none

def putChannelMembers (tenantId channelId : Bytes) (memberIds : List Bytes) : Backed Unit := do
  if memberIds ≠ [] then
    let _ ← ask (.replaceSet (membersKey tenantId channelId) memberIds)
    pure ()
  else pure ()

def invalidateChannelMembers (tenantId channelId : Bytes) : Backed Unit := do
  let _ ← ask (.del (membersKey tenantId channelId))
  pure ()

end Cache

namespace Members

open Foundations.Program

/-- What `list_members` replies. -/
inductive Listing where
  | ids (memberIds : List Bytes)
  | empty
  | unavailable
deriving DecidableEq

/-- `load_from_db`, where a failed query is rescued. -/
def loadFromDb (tenantId channelId : Bytes) : Backed Listing :=
  rescue
    (do
      match Id16.ofBytes tenantId, Id16.ofBytes channelId with
      | some tid, some cid =>
          let uuids ← ask (.selectMemberIds tid cid)
          match uuids.map Subtype.val with
          | [] => pure .empty
          | ids => do
              Cache.putChannelMembers tenantId channelId ids
              pure (.ids ids)
      | _, _ => pure .empty)
    fun _ => pure .unavailable

def listMembers (tenantId channelId : Bytes) : Backed Listing := do
  match ← Cache.getChannelMembers tenantId channelId with
  | some members => pure (.ids members)
  | none => loadFromDb tenantId channelId

/-- `member?`; the error is that of `list_members`. -/
def isMember (tenantId channelId userId : Bytes) : Backed (Except Unit Bool) := do
  match ← listMembers tenantId channelId with
  | .ids memberIds => pure (.ok (userId ∈ memberIds))
  | .empty => pure (.ok false)
  | .unavailable => pure (.error ())

def addMember (tenantId channelId userId : Bytes) (role : ℕ) : Backed (Except Bytes Unit) := do
  match Id16.ofBytes tenantId, Id16.ofBytes channelId, Id16.ofBytes userId with
  | some tid, some cid, some uid =>
      match ← ask (.insertMember tid cid uid role) with
      | .ok _ => do
          Cache.invalidateChannelMembers tenantId channelId
          pure (.ok ())
      | .error reason => pure (.error reason)
  | _, _, _ => pure (.error (ascii "invalid"))

/-- What `get_role` replies. -/
inductive RoleLookup where
  | role (role : ℕ)
  | notFound
  | dbError
deriving DecidableEq

def getRole (tenantId channelId userId : Bytes) : Backed RoleLookup :=
  rescue
    (do
      match Id16.ofBytes tenantId, Id16.ofBytes channelId, Id16.ofBytes userId with
      | some tid, some cid, some uid =>
          match ← ask (.selectRole tid cid uid) with
          | none => pure .notFound
          | some role => pure (.role role)
      | _, _, _ => pure .notFound)
    fun _ => pure .dbError

def removeMember (tenantId channelId userId : Bytes) : Backed (Except Bytes Unit) :=
  rescue
    (do
      match Id16.ofBytes tenantId, Id16.ofBytes channelId, Id16.ofBytes userId with
      | some tid, some cid, some uid =>
          let count : ℕ ← ask (.deleteMember tid cid uid)
          Cache.invalidateChannelMembers tenantId channelId
          if 0 < count then pure (.ok ()) else pure (.error (ascii "not_found"))
      | _, _, _ => pure (.error (ascii "invalid_id")))
    fun _ => pure (.error (ascii "db_error"))

end Members

end Mercury.Persistence
