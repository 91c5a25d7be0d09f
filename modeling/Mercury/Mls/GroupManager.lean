import Mercury.Core.Bytes
import Mathlib.Logic.Function.Basic

/-!
# The manager of MLS groups

`MlsGroupManager` of mercury-crypto over OpenMLS, and `MlsManager` of mercury-sdk-core, its
face to the clients: the groups that it holds, and their application messages. A method does
nothing to the other groups.
-/

namespace Mercury.Mls

/-! ## OpenMLS -/

inductive ProcessedMessageContent where
  | applicationMessage (bytes : Bytes)
  /-- A proposal or a commit. -/
  | other

/-- OpenMLS, with the serialization of its messages. Randomness and storage come from a
provider. -/
structure OpenMls where
  Group : Type
  Provider : Type
  build : Bytes → Provider → Option Group × Provider
  createMessage : Bytes → Group → Provider → Option Bytes × Group × Provider
  processMessage : Bytes → Group → Provider → Option ProcessedMessageContent × Group × Provider

def maxMessageSize : ℕ := 65536

/-- MLS delivers the application messages of one member of a group to the other. -/
def OpenMls.Delivers (openMls : OpenMls) (sender receiver : openMls.Group) : Prop :=
  ∀ plaintext : Bytes, plaintext.length ≤ maxMessageSize → ∀ sending, ∃ ciphertext,
    (openMls.createMessage plaintext sender sending).1 = some ciphertext ∧
      ∀ receiving, (openMls.processMessage ciphertext receiver receiving).1 =
        some (.applicationMessage plaintext)

/-! ## The groups of a device -/

structure MlsGroupManager (openMls : OpenMls) where
  provider : openMls.Provider
  groups : Bytes → Option openMls.Group

namespace MlsGroupManager

variable {openMls : OpenMls}

/-- A method that panics returns nothing, and one that fails returns no value. -/
abbrev Method (openMls : OpenMls) (Value : Type) :=
  MlsGroupManager openMls → Option (Option Value × MlsGroupManager openMls)

def put (manager : MlsGroupManager openMls) (groupId : Bytes)
    (after : openMls.Group × openMls.Provider) : MlsGroupManager openMls where
  provider := after.2
  groups := Function.update manager.groups groupId (some after.1)

def createGroup (groupId : Bytes) : Method openMls Unit := fun manager =>
  if groupId = [] then none
  else if (manager.groups groupId).isSome then some (none, manager)
  else
    match openMls.build groupId manager.provider with
    | (some group, provider) => some (some (), manager.put groupId (group, provider))
    | (none, provider) => some (none, { manager with provider := provider })

def encrypt (groupId plaintext : Bytes) : Method openMls Bytes := fun manager =>
  if maxMessageSize < plaintext.length then none
  else
    match manager.groups groupId with
    | none => some (none, manager)
    | some group =>
        let (message, after) := openMls.createMessage plaintext group manager.provider
        some (message, manager.put groupId after)

def applicationMessage : ProcessedMessageContent → Option Bytes
  | .applicationMessage bytes => some bytes
  | .other => none

def decrypt (groupId ciphertext : Bytes) : Method openMls Bytes := fun manager =>
  match manager.groups groupId with
  | none => some (none, manager)
  | some group =>
      let (processed, after) := openMls.processMessage ciphertext group manager.provider
      some (processed.bind applicationMessage, manager.put groupId after)

/-- The method ends, and leaves the other groups alone. -/
def Method.OnlyFor {Value : Type} (method : Method openMls Value) (groupId : Bytes) : Prop :=
  ∀ manager, ∃ result after, method manager = some (result, after) ∧
    ∀ other, other ≠ groupId → after.groups other = manager.groups other

@[simp]
theorem groups_put_of_ne {manager : MlsGroupManager openMls} {groupId other : Bytes}
    {after : openMls.Group × openMls.Provider} (different : other ≠ groupId) :
    (manager.put groupId after).groups other = manager.groups other :=
  Function.update_of_ne different _ _

theorem onlyFor_createGroup {groupId : Bytes} (nonempty : groupId ≠ []) :
    Method.OnlyFor (createGroup groupId : Method openMls Unit) groupId := by
  intro manager
  unfold createGroup
  rw [if_neg nonempty]
  split
  · exact ⟨none, manager, rfl, fun _ _ => rfl⟩
  · split
    · next group provider _ => exact ⟨_, _, rfl, fun _ different => groups_put_of_ne different⟩
    · exact ⟨none, _, rfl, fun _ _ => rfl⟩

theorem onlyFor_encrypt {groupId plaintext : Bytes} (fits : plaintext.length ≤ maxMessageSize) :
    Method.OnlyFor (encrypt groupId plaintext : Method openMls Bytes) groupId := by
  intro manager
  unfold encrypt
  rw [if_neg (not_lt.mpr fits)]
  split
  · exact ⟨none, manager, rfl, fun _ _ => rfl⟩
  · exact ⟨_, _, rfl, fun _ different => groups_put_of_ne different⟩

theorem onlyFor_decrypt (groupId ciphertext : Bytes) :
    Method.OnlyFor (decrypt groupId ciphertext : Method openMls Bytes) groupId := by
  intro manager
  unfold decrypt
  split
  · exact ⟨none, manager, rfl, fun _ _ => rfl⟩
  · exact ⟨_, _, rfl, fun _ different => groups_put_of_ne different⟩

end MlsGroupManager

/-! ## The manager of a client -/

/-- `MlsManager`; nothing once a method has panicked, which leaves the object borrowed. -/
abbrev MlsManager (openMls : OpenMls) :=
  Option (MlsGroupManager openMls)

namespace MlsManager

variable {openMls : OpenMls} {Value : Type}

/-- A method of the object. It throws where the inner one fails or panics, and on an object
that is still borrowed. -/
def call (method : MlsGroupManager.Method openMls Value) (manager : MlsManager openMls) :
    Option Value × MlsManager openMls :=
  match manager.bind method with
  | some (result, after) => (result, some after)
  | none => (none, none)

def createGroup (groupId : Bytes) : MlsManager openMls → Option Unit × MlsManager openMls :=
  call (MlsGroupManager.createGroup groupId)

def encrypt (groupId plaintext : Bytes) : MlsManager openMls → Option Bytes × MlsManager openMls :=
  call (MlsGroupManager.encrypt groupId plaintext)

def decrypt (groupId ciphertext : Bytes) :
    MlsManager openMls → Option Bytes × MlsManager openMls :=
  call (MlsGroupManager.decrypt groupId ciphertext)

def group (manager : MlsManager openMls) (groupId : Bytes) : Option openMls.Group :=
  manager.bind fun held => held.groups groupId

theorem group_call_of_ne {method : MlsGroupManager.Method openMls Value} {groupId other : Bytes}
    (onlyFor : method.OnlyFor groupId) (different : other ≠ groupId)
    (manager : MlsManager openMls) :
    group (call method manager).2 other = manager.group other := by
  cases manager with
  | none => rfl
  | some held =>
      rcases onlyFor held with ⟨result, after, ends, others⟩
      simp only [call, Option.bind_some, ends, group]
      exact others other different

theorem delivered {sender receiver : openMls.Group} (delivers : openMls.Delivers sender receiver)
    {groupId plaintext : Bytes} (fits : plaintext.length ≤ maxMessageSize)
    {sending : MlsManager openMls} (sends : sending.group groupId = some sender) :
    ∃ ciphertext, (encrypt groupId plaintext sending).1 = some ciphertext ∧
      ∀ receiving : MlsManager openMls, receiving.group groupId = some receiver →
        (decrypt groupId ciphertext receiving).1 = some plaintext := by
  rcases Option.bind_eq_some_iff.mp sends with ⟨held, rfl, groupEq⟩
  rcases delivers plaintext fits held.provider with ⟨ciphertext, created, processed⟩
  refine ⟨ciphertext, ?_, ?_⟩
  · simp only [encrypt, call, Option.bind_some, MlsGroupManager.encrypt,
      if_neg (not_lt.mpr fits), groupEq]
    exact created
  · intro receiving receives
    rcases Option.bind_eq_some_iff.mp receives with ⟨holding, rfl, receiverEq⟩
    simp only [decrypt, call, Option.bind_some, MlsGroupManager.decrypt, receiverEq]
    simp only [processed holding.provider, Option.bind_some, MlsGroupManager.applicationMessage]

end MlsManager

end Mercury.Mls
