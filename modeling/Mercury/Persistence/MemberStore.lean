import Mathlib.Logic.Function.Basic
import Mercury.Persistence.Members

/-!
# The membership table and the members cache

The stores behind `Persistence.Members`: the rows of Postgres, and the sets of
Redis, which expire. Once a row is deleted and the set of its channel emptied,
the user stays out of both until the user is added again (`Gone.step`).
-/

namespace Mercury.Persistence

open Foundations Foundations.Program

/-- A row of `channel_members`. -/
structure MemberRow where
  tenantId : Id16
  channelId : Id16
  userId : Id16
  role : ℕ
deriving DecidableEq

def MemberRow.key (row : MemberRow) : Id16 × Id16 × Id16 :=
  (row.tenantId, row.channelId, row.userId)

/-- The table, and the sets of the cache; a missing set is an empty one. -/
structure MemberStore where
  table : KeyedTable MemberRow.key
  cache : Bytes → List Bytes

/-- The commands that concern the members of channels. -/
def ConcernsMembers : Backend.Call → Prop
  | .smembers _ | .replaceSet .. | .del _ | .selectMemberIds .. | .selectRole ..
  | .insertMember .. | .deleteMember .. => True
  | _ => False

/-- The answer is a failure of the command. -/
inductive Failed : Performed backend Raise → Prop where
  | raised {asked : Backend.Call} {error : Raise} : Failed ⟨asked, .error error⟩
  | smembers {key : Bytes} : Failed ⟨.smembers key, .ok (.error ())⟩
  | replaceSet {key : Bytes} {members : List Bytes} :
      Failed ⟨.replaceSet key members, .ok (.error ())⟩
  | del {key : Bytes} : Failed ⟨.del key, .ok (.error ())⟩
  | insertMember {tenantId channelId userId : Id16} {role : ℕ} {reason : Bytes} :
      Failed ⟨.insertMember tenantId channelId userId role, .ok (.error reason)⟩

/-- How the stores carry out a command. -/
inductive Carried : MemberStore → Performed backend Raise → MemberStore → Prop where
  | smembers {store : MemberStore} {key : Bytes} {members : List Bytes}
      (same : ∀ id, id ∈ members ↔ id ∈ store.cache key) :
      Carried store ⟨.smembers key, .ok (.ok members)⟩ store
  | replaceSet {store : MemberStore} {key : Bytes} {members : List Bytes}
      {answer : Except Raise (Except Unit Unit)} :
      Carried store ⟨.replaceSet key members, answer⟩
        { store with cache := Function.update store.cache key members }
  | del {store : MemberStore} {key : Bytes} {answer : Except Raise (Except Unit Unit)} :
      Carried store ⟨.del key, answer⟩ { store with cache := Function.update store.cache key [] }
  | selectMemberIds {store : MemberStore} {tenantId channelId : Id16} {ids : List Id16}
      (same : ∀ id, id ∈ ids ↔
        ∃ row ∈ store.table, row.key = (tenantId, channelId, id)) :
      Carried store ⟨.selectMemberIds tenantId channelId, .ok ids⟩ store
  | selectRole {store : MemberStore} {tenantId channelId userId : Id16} {role : Option ℕ}
      (found : ∀ value, role = some value ↔
        (⟨tenantId, channelId, userId, value⟩ : MemberRow) ∈ store.table) :
      Carried store ⟨.selectRole tenantId channelId userId, .ok role⟩ store
  | insertMember {store : MemberStore} {tenantId channelId userId : Id16} {role : ℕ}
      {answer : Except Raise (Except Bytes Unit)}
      (new : ∀ row ∈ store.table, row.key ≠ (tenantId, channelId, userId)) :
      Carried store ⟨.insertMember tenantId channelId userId role, answer⟩
        { store with table := store.table.upsert ⟨tenantId, channelId, userId, role⟩ }
  /-- `on_conflict: :nothing`. -/
  | insertConflict {store : MemberStore} {tenantId channelId userId : Id16} {role : ℕ}
      {answer : Except Raise (Except Bytes Unit)} {row : MemberRow} (rowMem : row ∈ store.table)
      (same : row.key = (tenantId, channelId, userId)) :
      Carried store ⟨.insertMember tenantId channelId userId role, answer⟩ store
  | deleteMember {store : MemberStore} {tenantId channelId userId : Id16}
      {answer : Except Raise ℕ} :
      Carried store ⟨.deleteMember tenantId channelId userId, answer⟩
        { store with table := store.table.filter (·.key ≠ (tenantId, channelId, userId)) }
  | failed {store : MemberStore} {taken : Performed backend Raise} (failed : Failed taken) :
      Carried store taken store
  | other {store : MemberStore} {taken : Performed backend Raise}
      (noMember : ¬ConcernsMembers taken.call) : Carried store taken store

/-- Some sets of the cache have expired. -/
structure Expires (before after : MemberStore) : Prop where
  table : after.table = before.table
  cache : ∀ key, after.cache key = before.cache key ∨ after.cache key = []

/-- A command, and the sets that expire by the next one. -/
def MemberStep (store : MemberStore) (taken : Performed backend Raise) (target : MemberStore) :
    Prop :=
  ∃ carried, Carried store taken carried ∧ Expires carried target

/-- The user is in neither the table nor the cache of the channel. -/
structure Gone (tenantId channelId userId : Id16) (store : MemberStore) : Prop where
  table : ∀ row ∈ store.table, row.key ≠ (tenantId, channelId, userId)
  cache : userId.val ∉ store.cache (Cache.membersKey tenantId.val channelId.val)

/-- An answer of stores in which the user is gone. -/
def GoneAnswer (tenantId channelId userId : Id16) : Performed backend Raise → Prop
  | ⟨.smembers key, .ok (.ok members)⟩ =>
      key = Cache.membersKey tenantId.val channelId.val → userId.val ∉ members
  | ⟨.selectMemberIds tid cid, .ok ids⟩ => tid = tenantId → cid = channelId → userId ∉ ids
  | _ => True

/-- The command does not put the user into the cache of the channel. -/
def KeepsGone (tenantId channelId userId : Id16) : Backend.Call → Prop
  | .replaceSet key members =>
      key = Cache.membersKey tenantId.val channelId.val → userId.val ∉ members
  | _ => True

section

variable {tenantId channelId userId : Id16} {store target : MemberStore}
  {taken : Performed backend Raise}

theorem Gone.answer (gone : Gone tenantId channelId userId store)
    (step : MemberStep store taken target) : GoneAnswer tenantId channelId userId taken := by
  rcases step with ⟨carried, carried_, -⟩
  cases carried_ with
  | smembers same =>
      rintro rfl member
      exact gone.cache ((same _).mp member)
  | selectMemberIds same =>
      rintro rfl rfl member
      rcases (same _).mp member with ⟨row, rowMem, key⟩
      exact gone.table row rowMem key
  | failed failed =>
      cases failed with
      | @raised asked => cases asked <;> trivial
      | _ => trivial
  | other noMember =>
      unfold GoneAnswer
      split
      · exact absurd trivial noMember
      · exact absurd trivial noMember
      · trivial
  | _ => trivial

theorem Gone.expires (gone : Gone tenantId channelId userId store)
    (expires : Expires store target) : Gone tenantId channelId userId target where
  table := expires.table ▸ gone.table
  cache := by
    rcases expires.cache (Cache.membersKey tenantId.val channelId.val) with same | none
    · exact same ▸ gone.cache
    · simp [none]

/-- The user stays gone until the user is added again. -/
theorem Gone.step (gone : Gone tenantId channelId userId store)
    (keeps : KeepsGone tenantId channelId userId taken.call)
    (notAdded : ∀ role, taken.call ≠ .insertMember tenantId channelId userId role)
    (step : MemberStep store taken target) : Gone tenantId channelId userId target := by
  rcases step with ⟨carried, carried_, expires⟩
  refine Gone.expires ?_ expires
  cases carried_ with
  | @replaceSet key members =>
      refine ⟨gone.table, ?_⟩
      by_cases same : Cache.membersKey tenantId.val channelId.val = key
      · subst same
        simpa using keeps rfl
      · simpa [Function.update_of_ne same] using gone.cache
  | @del key =>
      refine ⟨gone.table, ?_⟩
      by_cases same : Cache.membersKey tenantId.val channelId.val = key
      · subst same
        simp
      · simpa [Function.update_of_ne same] using gone.cache
  | @insertMember tid cid uid role =>
      refine ⟨fun row rowMem => ?_, gone.cache⟩
      rcases KeyedTable.mem_upsert.mp rowMem with ⟨old, -⟩ | rfl
      · exact gone.table row old
      · rintro ⟨rfl⟩
        exact notAdded role rfl
  | deleteMember =>
      exact ⟨fun row rowMem => gone.table row (KeyedTable.mem_filter.mp rowMem).1, gone.cache⟩
  | _ => exact gone

/-- A removal whose two commands were carried out. -/
theorem gone_of_removal {middle : MemberStore} {count : ℕ}
    (deleted : MemberStep store ⟨.deleteMember tenantId channelId userId, .ok count⟩ middle)
    (invalidated : MemberStep middle
      ⟨.del (Cache.membersKey tenantId.val channelId.val), .ok (.ok ())⟩ target) :
    Gone tenantId channelId userId target := by
  rcases deleted with ⟨rows, deleted, rowsExpire⟩
  rcases invalidated with ⟨emptied, invalidated, expires⟩
  refine Gone.expires ?_ expires
  cases deleted with
  | failed failed => cases failed
  | other noMember => exact absurd trivial noMember
  | deleteMember =>
      cases invalidated with
      | failed failed => cases failed
      | other noMember => exact absurd trivial noMember
      | del =>
          refine ⟨fun row rowMem => ?_, by simp⟩
          rw [rowsExpire.table] at rowMem
          simpa using (KeyedTable.mem_filter.mp rowMem).2

/-! ## Listing the members -/

theorem Cache.membersKey_injective {tid cid : Bytes} (tidLength : tid.length = 16)
    (same : Cache.membersKey tid cid = Cache.membersKey tenantId.val channelId.val) :
    tid = tenantId.val ∧ cid = channelId.val := by
  simp only [Cache.membersKey, List.append_assoc] at same
  have lengths : (Base.encode16 tid).length = (Base.encode16 tenantId.val).length := by
    simp [tidLength, tenantId.property]
  rcases List.append_inj same lengths with ⟨tenants, rest⟩
  have channels := List.append_cancel_right (List.append_cancel_left rest)
  exact ⟨Base.encode16_injective tenants, Base.encode16_injective channels⟩

/-- The user is not in a listing of the channel. -/
def Unlisted (tenantId channelId userId : Id16) (tid cid : Bytes) :
    Except Raise Members.Listing → Prop
  | .ok (.ids memberIds) => tid = tenantId.val → cid = channelId.val → userId.val ∉ memberIds
  | _ => True

/-- The listing lacks the user, and fails only where the stores are not `up`. -/
def Lacks (up : Prop) (tenantId channelId userId : Id16) (tid cid : Bytes) :
    Except Raise Members.Listing → Prop
  | .ok (.ids memberIds) => tid = tenantId.val → cid = channelId.val → userId.val ∉ memberIds
  | .ok .empty => True
  | .ok .unavailable => ¬up
  | .error _ => ¬up

/-- A listing that is loaded from rows without the user. -/
theorem loadFromDb_lacks {admitted : Performed backend Raise → Prop} {up : Prop} {tid cid : Bytes}
    (rows : ∀ {asked other ids}, admitted ⟨.selectMemberIds asked other, .ok ids⟩ →
      asked = tenantId → other = channelId → userId ∉ ids)
    (replied : up → ∀ taken, admitted taken → ∃ reply, taken.answer = .ok reply) :
    (Members.loadFromDb tid cid).Ensures admitted (KeepsGone tenantId channelId userId)
      (Lacks up tenantId channelId userId tid cid) := by
  have fails : ∀ {asked : Backend.Call} {raised : Raise},
      admitted ⟨asked, .error raised⟩ → ¬up := by
    intro asked raised answered isUp
    rcases replied isUp _ answered with ⟨reply, same⟩
    cases same
  refine Ensures.rescue.mpr (Ensures.post_mono
    (?_ : Ensures _ _ _ (Lacks up tenantId channelId userId tid cid)) ?_)
  · split
    · next tid' cid' tidEq cidEq =>
        obtain rfl := Id16.ofBytes_eq_some.mp tidEq
        obtain rfl := Id16.ofBytes_eq_some.mp cidEq
        refine Ensures.bind.mpr (Ensures.perform.mpr ⟨trivial, ?_⟩)
        rintro (raised | uuids) listed
        · exact fails listed
        have unlisted : tid'.val = tenantId.val → cid'.val = channelId.val →
            userId.val ∉ uuids.map Subtype.val := by
          intro tenant channel member
          rcases List.mem_map.mp member with ⟨id, idMem, same⟩
          exact rows listed (Subtype.ext tenant) (Subtype.ext channel) (Subtype.ext same ▸ idMem)
        dsimp only
        split
        · trivial
        · next filled =>
            have keeps : KeepsGone tenantId channelId userId (.replaceSet
                (Cache.membersKey tid'.val cid'.val) (uuids.map Subtype.val)) := by
              intro same
              rcases Cache.membersKey_injective tid'.property same with ⟨tenant, channel⟩
              exact unlisted tenant channel
            rw [Cache.putChannelMembers, if_pos filled]
            refine Ensures.bind.mpr (Ensures.bind.mpr (Ensures.perform.mpr ⟨keeps, ?_⟩))
            rintro (raised | stored) answered
            · exact fails answered
            · exact unlisted
    · trivial
  · rintro (raised | listing) holds
    · exact holds
    · exact holds

/-- A listing read from stores in which the user is gone. -/
theorem loadFromDb_ensures {tid cid : Bytes} :
    (Members.loadFromDb tid cid).Ensures (GoneAnswer tenantId channelId userId)
      (KeepsGone tenantId channelId userId) (Unlisted tenantId channelId userId tid cid) := by
  refine (@loadFromDb_lacks _ _ _ _ False _ _ (fun answered => answered) False.elim).post_mono ?_
  rintro (raised | memberIds | _ | _) lacks
  · trivial
  · exact lacks
  · trivial
  · trivial

/-- The user is not in the cached members of the channel. -/
def Uncached (tenantId channelId userId : Id16) (tid cid : Bytes) :
    Except Raise (Option (List Bytes)) → Prop
  | .ok (some members) => tid = tenantId.val → cid = channelId.val → userId.val ∉ members
  | _ => True

theorem listMembers_ensures {tid cid : Bytes} :
    (Members.listMembers tid cid).Ensures (GoneAnswer tenantId channelId userId)
      (KeepsGone tenantId channelId userId) (Unlisted tenantId channelId userId tid cid) := by
  have cached : (Cache.getChannelMembers tid cid).Ensures (GoneAnswer tenantId channelId userId)
      (KeepsGone tenantId channelId userId) (Uncached tenantId channelId userId tid cid) := by
    refine Ensures.bind.mpr (Ensures.perform.mpr ⟨trivial, ?_⟩)
    rintro (raised | answer) answered
    · trivial
    dsimp only
    split
    · trivial
    · next members filled =>
        rintro rfl rfl
        exact answered rfl
    · trivial
  refine Ensures.bind.mpr (Ensures.post_mono cached ?_)
  rintro (raised | cached) unlisted
  · trivial
  rcases cached with _ | members
  · exact loadFromDb_ensures
  · exact unlisted

/-- Where the user is gone, `member?` does not answer that the user is a member. -/
theorem isMember_ensures {tid cid uid : Bytes} :
    (Members.isMember tid cid uid).Ensures (GoneAnswer tenantId channelId userId)
      (KeepsGone tenantId channelId userId) fun outcome =>
        tid = tenantId.val → cid = channelId.val → uid = userId.val →
          outcome ≠ .ok (.ok true) := by
  refine Ensures.bind.mpr (Ensures.post_mono listMembers_ensures ?_)
  rintro (raised | listing) unlisted
  · rintro - - - ⟨⟩
  rcases listing with memberIds | _ | _
  · rintro tenant channel rfl same
    have member := Except.ok.inj (Except.ok.inj same)
    exact unlisted tenant channel (by simpa using member)
  · rintro - - - ⟨⟩
  · rintro - - - ⟨⟩

end

end Mercury.Persistence
