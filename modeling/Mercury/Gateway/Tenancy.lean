import Mercury.Gateway.Issued
import Mercury.Gateway.Storage

/-!
# What belongs to a tenant

Redis keys and PubSub topics start with the tenant's id in base 16 and a colon,
and NATS subjects hold it between two dots. Neither separator is a digit, so no
text that a client chooses makes a name of one tenant a name of another, and a
socket names only what is its tenant's (`storedHandleIn_owned`).
-/

namespace Mercury.Gateway

open Foundations Foundations.Program Persistence

/-! ## Names -/

theorem notMem_encode16 {separator : Byte} (noDigit : ∀ nibble, Base.hexDigit nibble ≠ separator)
    (bytes : Bytes) : separator ∉ Base.encode16 bytes := by
  induction bytes with
  | nil => exact List.not_mem_nil
  | cons byte rest ih =>
      simp only [Base.encode16, List.mem_cons, not_or]
      exact ⟨(noDigit _).symm, (noDigit _).symm, ih⟩

/-- What stands before the first separator is determined. -/
theorem append_separator_injective {Item : Type} {separator : Item}
    {left right leftRest rightRest : List Item} (leftFree : separator ∉ left)
    (rightFree : separator ∉ right)
    (same : left ++ separator :: leftRest = right ++ separator :: rightRest) :
    left = right ∧ leftRest = rightRest := by
  induction left generalizing right with
  | nil =>
      cases right with
      | nil => exact ⟨rfl, (List.cons.inj same).2⟩
      | cons first rest =>
          exact absurd (List.mem_cons.mpr (Or.inl (List.cons.inj same).1)) rightFree
  | cons first rest ih =>
      cases right with
      | nil => exact absurd (List.mem_cons.mpr (Or.inl (List.cons.inj same).1.symm)) leftFree
      | cons other later =>
          rcases List.cons.inj same with ⟨rfl, tails⟩
          rcases ih (fun mem => leftFree (List.mem_cons_of_mem _ mem))
            (fun mem => rightFree (List.mem_cons_of_mem _ mem)) tails with ⟨rfl, rests⟩
          exact ⟨rfl, rests⟩

theorem encode16_append_injective {separator : Byte} {left right leftRest rightRest : Bytes}
    (noDigit : ∀ nibble, Base.hexDigit nibble ≠ separator)
    (same : Base.encode16 left ++ separator :: leftRest =
      Base.encode16 right ++ separator :: rightRest) : left = right ∧ leftRest = rightRest := by
  rcases append_separator_injective (notMem_encode16 noDigit left)
    (notMem_encode16 noDigit right) same with ⟨ids, rests⟩
  exact ⟨Base.encode16_injective ids, rests⟩

/-- A Redis key or a PubSub topic of the tenant. -/
def OwnedName (tenantId name : Bytes) : Prop :=
  Base.encode16 tenantId ++ [58] <+: name

instance (tenantId name : Bytes) : Decidable (OwnedName tenantId name) :=
  inferInstanceAs (Decidable (_ <+: _))

theorem OwnedName.unique {tenantId other name : Bytes} (owned : OwnedName tenantId name)
    (otherOwned : OwnedName other name) : tenantId = other := by
  rcases owned with ⟨rest, rfl⟩
  rcases otherOwned with ⟨otherRest, same⟩
  rw [List.append_assoc, List.append_assoc, List.singleton_append, List.singleton_append] at same
  exact (encode16_append_injective (by decide) same).1.symm

theorem ownedName_append (tenantId rest : Bytes) :
    OwnedName tenantId (Base.encode16 tenantId ++ 58 :: rest) :=
  ⟨rest, by simp⟩

theorem ownedName_channelTopic (tenantId channelId : Bytes) :
    OwnedName tenantId (channelTopic tenantId channelId) :=
  ⟨ascii "channel:" ++ channelId, by rw [channelTopic, List.append_assoc, List.append_assoc]; rfl⟩

theorem ownedName_presenceTopic (tenantId channelId : Bytes) :
    OwnedName tenantId (presenceTopic tenantId channelId) :=
  ⟨ascii "presence:" ++ channelId, by rw [presenceTopic, List.append_assoc, List.append_assoc]; rfl⟩

/-! ## Keys of the cache -/

inductive CacheKind where
  | user
  | members
  | recent
  | rate
  | mlsCreator
deriving DecidableEq

def cacheKey : CacheKind → Bytes → Bytes → Bytes
  | .user => Cache.userKey
  | .members => Persistence.Cache.membersKey
  | .recent => Cache.recentKey
  | .rate => Cache.rateKey
  | .mlsCreator => Cache.mlsCreatorKey

namespace CacheKind

def word : CacheKind → Bytes
  | user => ascii "user"
  | rate => ascii "rl"
  | _ => ascii "ch"

def suffix : CacheKind → Option Bytes
  | user | rate => none
  | members => some (ascii "members")
  | recent => some (ascii "recent")
  | mlsCreator => some (ascii "mls_creator")

/-- What a key holds after the tenant. -/
def rest (kind : CacheKind) (id : Bytes) : Bytes :=
  kind.word ++ 58 :: match kind.suffix with
    | none => Base.encode16 id
    | some suffix => Base.encode16 id ++ 58 :: suffix

end CacheKind

theorem cacheKey_eq (kind : CacheKind) (tenantId id : Bytes) :
    cacheKey kind tenantId id = Base.encode16 tenantId ++ 58 :: kind.rest id := by
  cases kind <;> simp only [cacheKey, Cache.userKey, Persistence.Cache.membersKey,
    Cache.recentKey, Cache.rateKey, Cache.mlsCreatorKey, List.append_assoc] <;> rfl

theorem ownedName_cacheKey (kind : CacheKind) (tenantId id : Bytes) :
    OwnedName tenantId (cacheKey kind tenantId id) := by
  rw [cacheKey_eq]
  exact ownedName_append _ _

theorem CacheKind.rest_injective {left right : CacheKind} {leftId rightId : Bytes}
    (same : left.rest leftId = right.rest rightId) : left = right ∧ leftId = rightId := by
  have noColon : ∀ kind : CacheKind, (58 : Byte) ∉ kind.word := by
    intro kind
    cases kind <;> decide
  have parts := append_separator_injective (noColon left) (noColon right) same
  -- the words tell apart users, rates and channels, and what follows the id the rest
  cases left <;> cases right <;>
    first
    | exact absurd parts.1 (by decide)
    | exact ⟨rfl, Base.encode16_injective parts.2⟩
    | exact ⟨rfl, (encode16_append_injective (by decide) parts.2).1⟩
    | exact absurd (encode16_append_injective (by decide) parts.2).2 (by decide)

/-- Keys of different kinds, tenants or ids are different. -/
theorem cacheKey_injective {left right : CacheKind} {leftTenant rightTenant leftId rightId : Bytes}
    (same : cacheKey left leftTenant leftId = cacheKey right rightTenant rightId) :
    left = right ∧ leftTenant = rightTenant ∧ leftId = rightId := by
  rw [cacheKey_eq, cacheKey_eq] at same
  rcases encode16_append_injective (by decide) same with ⟨tenant, restSame⟩
  rcases CacheKind.rest_injective restSame with ⟨kind, id⟩
  exact ⟨kind, tenant, id⟩

/-! ## Publications -/

/-- A message on NATS. -/
structure Publication where
  subject : Bytes
  message : NatsMessage
deriving DecidableEq

/-- The publication is about the tenant. -/
def Publication.Concerns (tenantId : Bytes) (publication : Publication) : Prop :=
  match publication.message with
  | .message .. => ascii "mercury." ++ Base.encode16 tenantId ++ [46] <+: publication.subject
  | .syncFanout .. =>
      ascii "mercury.sync." ++ Base.encode16 tenantId ++ [46] <+: publication.subject
  | .cacheInvalidation _ tenantHex _ => Base.decode16 tenantHex = some tenantId

instance (tenantId : Bytes) (publication : Publication) :
    Decidable (publication.Concerns tenantId) :=
  match publication with
  | ⟨_, .message ..⟩ => inferInstanceAs (Decidable (_ <+: _))
  | ⟨_, .syncFanout ..⟩ => inferInstanceAs (Decidable (_ <+: _))
  | ⟨_, .cacheInvalidation ..⟩ => inferInstanceAs (Decidable (_ = _))

theorem subject_prefix_unique {start left right subject : Bytes}
    (isLeft : start ++ Base.encode16 left ++ [46] <+: subject)
    (isRight : start ++ Base.encode16 right ++ [46] <+: subject) : left = right := by
  rcases isLeft with ⟨leftRest, rfl⟩
  rcases isRight with ⟨rightRest, same⟩
  simp only [List.append_assoc, List.append_cancel_left_eq, List.singleton_append] at same
  exact (encode16_append_injective (by decide) same).1.symm

theorem Publication.Concerns.unique {tenantId other : Bytes} {publication : Publication}
    (concerns : publication.Concerns tenantId) (otherConcerns : publication.Concerns other) :
    tenantId = other := by
  rcases publication with ⟨subject, message⟩
  cases message with
  | message => exact subject_prefix_unique concerns otherConcerns
  | syncFanout => exact subject_prefix_unique concerns otherConcerns
  | cacheInvalidation => exact Option.some.inj (Eq.trans (Eq.symm concerns) otherConcerns)

theorem concerns_message {tenantId channelId messageId senderId : Bytes}
    {contentType createdAt : ℕ} :
    Publication.Concerns tenantId ⟨messagesSubject tenantId channelId,
      .message messageId senderId contentType createdAt⟩ := by
  refine ⟨ascii "messages." ++ Base.encode16 channelId, ?_⟩
  simp only [messagesSubject, List.append_assoc]
  rfl

theorem concerns_syncFanout {tenantId userId deviceId : Bytes} {deltas : List Sync.Delta} :
    Publication.Concerns tenantId ⟨syncSubject tenantId userId, .syncFanout deviceId deltas⟩ :=
  ⟨Base.encode16 userId, rfl⟩

end Mercury.Gateway
