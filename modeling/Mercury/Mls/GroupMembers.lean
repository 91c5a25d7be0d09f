import Mercury.Mls.GroupManager
import Mercury.Mls.Joining
import Mercury.Sdk.HandPacked

/-!
# The members of the MLS groups

The other methods of `MlsGroupManager`, which add and remove members, join groups and process
commits, and what each of them does to the context of a group. A commit is merged by the
device that makes it before anybody else has seen it.
-/

namespace Mercury.Mls

open Foundations Sdk

/-! ## OpenMLS -/

/-- The part of OpenMLS that changes who is in a group. The content of a commit is `other` to
`processMessage`. -/
structure OpenMlsGroups extends OpenMls where
  KeyPackage : Type
  Commit : Type
  Welcome : Type
  StagedCommit : Type
  generateKeyPackage : Provider → Option Bytes × Provider
  /-- Deserialized and validated. -/
  readKeyPackage : Bytes → Provider → Option KeyPackage
  members : Group → List Bytes
  addMembers : KeyPackage → Group → Provider → Option (Commit × Welcome) × Group × Provider
  removeMembers : ℕ → Group → Provider → Option Commit × Group × Provider
  mergePendingCommit : Group → Provider → Option Unit × Group × Provider
  commitBytes : Commit → Option Bytes
  welcomeBytes : Welcome → Option Bytes
  /-- A Welcome, deserialized, staged and turned into a group. -/
  joinGroup : Bytes → Provider → Option Group × Provider
  groupId : Group → Bytes
  stagedCommit : Bytes → Group → Provider → Option StagedCommit
  mergeStagedCommit : StagedCommit → Group → Provider → Option Unit × Group × Provider

/-! ## The methods -/

namespace MlsGroupManager

variable {mls : OpenMlsGroups}

def generateKeyPackage : Method mls.toOpenMls Bytes := fun manager =>
  let (keyPackage, provider) := mls.generateKeyPackage manager.provider
  some (keyPackage, { manager with provider := provider })

def addMember (groupId keyPackage : Bytes) : Method mls.toOpenMls AddMemberResult :=
  fun manager =>
    match manager.groups groupId with
    | none => some (none, manager)
    | some group =>
        if maxGroupMembers ≤ (mls.members group).length then some (none, manager)
        else
          match mls.readKeyPackage keyPackage manager.provider with
          | none => some (none, manager)
          | some verified =>
              match mls.addMembers verified group manager.provider with
              | (none, after) => some (none, manager.put groupId after)
              | (some (commit, welcome), pending, provider) =>
                  match mls.mergePendingCommit pending provider with
                  | (none, after) => some (none, manager.put groupId after)
                  | (some (), after) =>
                      let made := (mls.commitBytes commit).bind fun commit =>
                        (mls.welcomeBytes welcome).map fun welcome => ⟨commit, welcome⟩
                      some (made, manager.put groupId after)

def removeMember (groupId : Bytes) (memberIndex : ℕ) : Method mls.toOpenMls Bytes :=
  fun manager =>
    match manager.groups groupId with
    | none => some (none, manager)
    | some group =>
        match mls.removeMembers memberIndex group manager.provider with
        | (none, after) => some (none, manager.put groupId after)
        | (some commit, pending, provider) =>
            match mls.mergePendingCommit pending provider with
            | (none, after) => some (none, manager.put groupId after)
            | (some (), after) => some (mls.commitBytes commit, manager.put groupId after)

def processWelcome (welcome : Bytes) : Method mls.toOpenMls Bytes := fun manager =>
  match mls.joinGroup welcome manager.provider with
  | (none, provider) => some (none, { manager with provider := provider })
  | (some group, provider) =>
      some (some (mls.groupId group), manager.put (mls.groupId group) (group, provider))

def processCommit (groupId commit : Bytes) : Method mls.toOpenMls Unit := fun manager =>
  match manager.groups groupId with
  | none => some (none, manager)
  | some group =>
      match mls.processMessage commit group manager.provider with
      | (some .other, processed, provider) =>
          match mls.stagedCommit commit group manager.provider with
          | some staged =>
              let (merged, after) := mls.mergeStagedCommit staged processed provider
              some (merged, manager.put groupId after)
          | none => some (none, manager.put groupId (processed, provider))
      | (_, after) => some (none, manager.put groupId after)

def memberCount (manager : MlsGroupManager mls.toOpenMls) (groupId : Bytes) : Option ℕ :=
  (manager.groups groupId).map fun group => (mls.members group).length

end MlsGroupManager

namespace MlsManager

variable {mls : OpenMlsGroups}

def generateKeyPackage : MlsManager mls.toOpenMls → Option Bytes × MlsManager mls.toOpenMls :=
  call MlsGroupManager.generateKeyPackage

/-- The commit and the Welcome in one byte string; a commit that is too long panics. -/
def addMember (groupId keyPackage : Bytes) :
    MlsManager mls.toOpenMls → Option Bytes × MlsManager mls.toOpenMls :=
  call fun manager =>
    (MlsGroupManager.addMember groupId keyPackage manager).bind fun
      | (none, after) => some (none, after)
      | (some made, after) =>
          (Sdk.MlsManager.packAddMember made).map fun packed => (some packed, after)

def removeMember (groupId : Bytes) (memberIndex : ℕ) :
    MlsManager mls.toOpenMls → Option Bytes × MlsManager mls.toOpenMls :=
  call (MlsGroupManager.removeMember groupId memberIndex)

def processWelcome (welcome : Bytes) :
    MlsManager mls.toOpenMls → Option Bytes × MlsManager mls.toOpenMls :=
  call (MlsGroupManager.processWelcome welcome)

def processCommit (groupId commit : Bytes) :
    MlsManager mls.toOpenMls → Option Unit × MlsManager mls.toOpenMls :=
  call (MlsGroupManager.processCommit groupId commit)

/-- A count that is no `u32` panics. -/
def memberCount (groupId : Bytes) :
    MlsManager mls.toOpenMls → Option ℕ × MlsManager mls.toOpenMls :=
  call fun manager =>
    match MlsGroupManager.memberCount manager groupId with
    | none => some (none, manager)
    | some count => if count < 2 ^ 32 then some (some count, manager) else none

section Call

variable {Value : Type} {openMls : OpenMls} (method : MlsGroupManager.Method openMls Value)
  (manager : MlsManager openMls)

theorem call_fst : (call method manager).1 = (manager.bind method).bind Prod.fst := by
  unfold call
  split
  · next result after ends => simp [ends]
  · next panics => simp [panics]

theorem call_snd : (call method manager).2 = (manager.bind method).map Prod.snd := by
  unfold call
  split
  · next result after ends => simp [ends]
  · next panics => simp [panics]

end Call

end MlsManager

/-! ## What OpenMLS promises -/

/-- What the devices in one epoch of a group share: the id of the group, the number of the
epoch, its members and how it came about. -/
structure GroupContexts (mls : OpenMlsGroups) where
  Context : Type
  context : mls.Group → Context
  groupId : Context → Bytes
  epoch : Context → ℕ
  members : Context → List Bytes
  /-- The epoch that the commit which the device has not merged yet leads to. -/
  pending : mls.Group → Option Context
  /-- One commit leads from the epoch to the next one. -/
  Follows : Context → Context → Prop

namespace GroupContexts

variable {mls : OpenMlsGroups}

/-- The commit is one for the source only, and leads to the target. -/
def Commits (contexts : GroupContexts mls) (commit : Bytes) (source target : contexts.Context) :
    Prop :=
  ∀ group provider staged, mls.stagedCommit commit group provider = some staged →
    contexts.context group = source ∧ ∀ processed later after,
      mls.mergeStagedCommit staged processed later = (some (), after) →
        contexts.context after.1 = target

/-- Those who join by the Welcome join in the epoch. -/
def Welcomes (contexts : GroupContexts mls) (welcome : Bytes) (target : contexts.Context) : Prop :=
  ∀ provider group later, mls.joinGroup welcome provider = (some group, later) →
    contexts.context group = target

/-- A device has made a commit, and has not merged it. -/
structure Proposed (contexts : GroupContexts mls) (group : mls.Group)
    (target : contexts.Context) (commit : mls.Commit) (pending : mls.Group) : Prop where
  isPending : contexts.pending pending = some target
  follows : contexts.Follows (contexts.context group) target
  commits : ∀ bytes, mls.commitBytes commit = some bytes →
    contexts.Commits bytes (contexts.context group) target

/-- A commit takes a group to its next epoch, for those that were in the epoch it was made
in. Nothing but a commit that is merged changes the context. -/
structure Lawful (contexts : GroupContexts mls) : Prop where
  members_eq : ∀ group, mls.members group = contexts.members (contexts.context group)
  groupId_eq : ∀ group, mls.groupId group = contexts.groupId (contexts.context group)
  follows_groupId : ∀ source target, contexts.Follows source target →
    contexts.groupId target = contexts.groupId source
  follows_epoch : ∀ source target, contexts.Follows source target →
    contexts.epoch target = contexts.epoch source + 1
  /-- The hash of the transcript tells the epoch before. -/
  follows_parent : ∀ first second target, contexts.Follows first target →
    contexts.Follows second target → first = second
  build : ∀ groupId provider group later, mls.build groupId provider = (some group, later) →
    contexts.groupId (contexts.context group) = groupId ∧
      (contexts.members (contexts.context group)).length = 1
  createMessage : ∀ plaintext group provider,
    contexts.context (mls.createMessage plaintext group provider).2.1 = contexts.context group
  processMessage : ∀ ciphertext group provider,
    contexts.context (mls.processMessage ciphertext group provider).2.1 = contexts.context group
  addMembers : ∀ keyPackage group provider,
    contexts.context (mls.addMembers keyPackage group provider).2.1 = contexts.context group
  added : ∀ keyPackage group provider commit welcome pending later,
    mls.addMembers keyPackage group provider = (some (commit, welcome), pending, later) →
      ∃ target, contexts.Proposed group target commit pending ∧
        (contexts.members target).length =
          (contexts.members (contexts.context group)).length + 1 ∧
        ∀ bytes, mls.welcomeBytes welcome = some bytes → contexts.Welcomes bytes target
  removeMembers : ∀ index group provider,
    contexts.context (mls.removeMembers index group provider).2.1 = contexts.context group
  removed : ∀ index group provider commit pending later,
    mls.removeMembers index group provider = (some commit, pending, later) →
      ∃ target, contexts.Proposed group target commit pending ∧
        (contexts.members target).length ≤ (contexts.members (contexts.context group)).length
  mergePendingCommit : ∀ group provider after, mls.mergePendingCommit group provider = after →
    match after.1, contexts.pending group with
    | some (), some target => contexts.context after.2.1 = target
    | _, _ => contexts.context after.2.1 = contexts.context group
  mergeStagedCommit : ∀ staged group provider after,
    mls.mergeStagedCommit staged group provider = (none, after) →
      contexts.context after.1 = contexts.context group

end GroupContexts

/-! ## Groups whose messages hide nothing -/

/-- A group's id, and the changes of its members since it was created: 0 and the member that
is added, or 1 and the index of the one that is removed. -/
structure PlainContext where
  groupId : Bytes
  changes : List (Byte × Byte)
deriving DecidableEq

namespace PlainContext

def change (members : List Bytes) (change : Byte × Byte) : List Bytes :=
  if change.1 = 0 then members ++ [[change.2]] else members.eraseIdx change.2.val

def members (context : PlainContext) : List Bytes :=
  context.changes.foldl change [[]]

def changed (context : PlainContext) (change : Byte × Byte) : PlainContext :=
  { context with changes := context.changes ++ [change] }

def pairBytes (changes : List (Byte × Byte)) : Bytes :=
  changes.flatMap fun change => [change.1, change.2]

def readPairs : Bytes → List (Byte × Byte)
  | kind :: value :: rest => (kind, value) :: readPairs rest
  | _ => []

theorem readPairs_pairBytes (changes : List (Byte × Byte)) :
    readPairs (pairBytes changes) = changes := by
  induction changes with
  | nil => rfl
  | cons change rest ih =>
      simp only [pairBytes, List.flatMap_cons, List.cons_append, List.nil_append, readPairs]
      exact congrArg _ ih

/-- The length of the id is written with as many ones. -/
def bytes (context : PlainContext) : Bytes :=
  List.replicate context.groupId.length 1 ++
    0 :: (context.groupId ++ pairBytes context.changes)

def read (bytes : Bytes) : PlainContext :=
  let length := (bytes.takeWhile (· = 1)).length
  let rest := bytes.drop (length + 1)
  ⟨rest.take length, readPairs (rest.drop length)⟩

theorem read_bytes (context : PlainContext) : read context.bytes = context := by
  have ones : (context.bytes.takeWhile (· = 1)).length = context.groupId.length := by
    simp [bytes]
  have rest : context.bytes.drop (context.groupId.length + 1) =
      context.groupId ++ pairBytes context.changes := by
    rw [bytes, List.append_cons]
    exact List.drop_left' (by simp)
  simp only [read, ones, rest, List.take_left, List.drop_left, readPairs_pairBytes]

end PlainContext

/-- A group, and the commit that its device has not merged. -/
structure PlainGroup where
  context : PlainContext
  pending : Option PlainContext

/-- Commits and Welcomes are the contexts that they lead to, and a commit is staged by a group
whose context it changes. -/
def plainGroups : OpenMlsGroups where
  Group := PlainGroup
  Provider := Unit
  build groupId provider := (some ⟨⟨groupId, []⟩, none⟩, provider)
  createMessage plaintext group provider :=
    (some (0 :: (group.context.bytes ++ plaintext)), group, provider)
  processMessage message group provider :=
    (if message.head? = some 1 then some .other
    else if message.take (group.context.bytes.length + 1) = 0 :: group.context.bytes then
      some (.applicationMessage (message.drop (group.context.bytes.length + 1)))
    else none, group, provider)
  KeyPackage := Byte
  Commit := PlainContext
  Welcome := PlainContext
  StagedCommit := PlainContext
  generateKeyPackage provider := (some [0], provider)
  readKeyPackage keyPackage _ := keyPackage.head?
  members group := group.context.members
  addMembers keyPackage group provider :=
    let target := group.context.changed (0, keyPackage)
    (some (target, target), { group with pending := some target }, provider)
  removeMembers index group provider :=
    if fits : index < 256 then
      let target := group.context.changed (1, ⟨index, fits⟩)
      (some target, { group with pending := some target }, provider)
    else (none, group, provider)
  mergePendingCommit group provider :=
    (some (), ⟨group.pending.getD group.context, none⟩, provider)
  commitBytes target := some (1 :: target.bytes)
  welcomeBytes target := some target.bytes
  joinGroup welcome provider := (some ⟨PlainContext.read welcome, none⟩, provider)
  groupId group := group.context.groupId
  stagedCommit commit group _ :=
    let target := PlainContext.read commit.tail
    if target.groupId = group.context.groupId ∧
        target.changes.dropLast = group.context.changes ∧ target.changes ≠ [] then
      some target
    else none
  mergeStagedCommit staged _ provider := (some (), ⟨staged, none⟩, provider)

def plainContexts : GroupContexts plainGroups where
  Context := PlainContext
  context := PlainGroup.context
  groupId := PlainContext.groupId
  epoch context := context.changes.length
  members := PlainContext.members
  pending := PlainGroup.pending
  Follows source target := ∃ change, target = source.changed change

theorem commits_plain (context : PlainContext) (change : Byte × Byte) :
    plainContexts.Commits (1 :: (context.changed change).bytes) context
      (context.changed change) := by
  intro other provider staged isStaged
  simp only [plainGroups, List.tail_cons, PlainContext.read_bytes, PlainContext.changed,
    List.dropLast_concat] at isStaged
  split at isStaged
  · next shape =>
      cases isStaged
      rcases context with ⟨groupId, changes⟩
      rcases other with ⟨⟨otherId, otherChanges⟩, pending⟩
      rcases shape with ⟨rfl, rfl, _⟩
      refine ⟨rfl, fun processed later after merges => ?_⟩
      cases merges
      rfl
  · cases isStaged

theorem proposed_plain (group : PlainGroup) (change : Byte × Byte) :
    plainContexts.Proposed group (group.context.changed change) (group.context.changed change)
      { group with pending := some (group.context.changed change) } where
  isPending := rfl
  follows := ⟨change, rfl⟩
  commits bytes isBytes := by
    cases isBytes
    exact commits_plain group.context change

theorem members_changed (context : PlainContext) (change : Byte × Byte) :
    (context.changed change).members = PlainContext.change context.members change := by
  simp [PlainContext.members, PlainContext.changed]

theorem lawful_plain : plainContexts.Lawful where
  members_eq _ := rfl
  groupId_eq _ := rfl
  follows_groupId source target := by
    rintro ⟨change, rfl⟩
    rfl
  follows_epoch source target := by
    rintro ⟨change, rfl⟩
    simp [plainContexts, PlainContext.changed]
  follows_parent first second target := by
    rintro ⟨change, rfl⟩ ⟨other, same⟩
    rcases first with ⟨groupId, changes⟩
    rcases second with ⟨otherId, otherChanges⟩
    simp only [PlainContext.changed, PlainContext.mk.injEq, List.append_singleton_inj] at same
    rw [same.1, same.2.1]
  build groupId provider group later built := by
    cases built
    exact ⟨rfl, rfl⟩
  createMessage _ _ _ := rfl
  processMessage _ _ _ := rfl
  addMembers _ _ _ := rfl
  added keyPackage group provider commit welcome pending later added := by
    cases added
    refine ⟨group.context.changed (0, keyPackage), proposed_plain group _, ?_, ?_⟩
    · simp [plainContexts, members_changed, PlainContext.change]
    · intro bytes isBytes provider joined later joins
      cases isBytes
      cases joins
      exact PlainContext.read_bytes _
  removeMembers index group provider := by
    simp only [plainGroups]
    split
    · rfl
    · rfl
  removed index group provider commit pending later removed := by
    simp only [plainGroups] at removed
    split at removed
    · next fits =>
        cases removed
        refine ⟨group.context.changed (1, ⟨index, fits⟩), proposed_plain group _, ?_⟩
        simp only [plainContexts, members_changed, PlainContext.change]
        exact List.length_eraseIdx_le _ _
    · cases removed
  mergePendingCommit group provider after merged := by
    subst merged
    cases isPending : group.pending with
    | none => simp [plainGroups, plainContexts, isPending]
    | some target => simp [plainGroups, plainContexts, isPending]
  mergeStagedCommit staged group provider after merges := by cases merges

/-! ## What the methods do to the contexts -/

section Effects

variable {mls : OpenMlsGroups} {contexts : GroupContexts mls}
  {manager after : MlsGroupManager mls.toOpenMls} {groupId : Bytes}

/-- The contexts of the groups that a device holds. -/
def GroupContexts.held (contexts : GroupContexts mls) (manager : MlsGroupManager mls.toOpenMls) :
    Bytes → Option contexts.Context :=
  fun groupId => (manager.groups groupId).map contexts.context

theorem held_put (manager : MlsGroupManager mls.toOpenMls) (groupId : Bytes)
    (later : mls.Group × mls.Provider) :
    contexts.held (manager.put groupId later) =
      Function.update (contexts.held manager) groupId (some (contexts.context later.1)) := by
  funext other
  by_cases same : other = groupId
  · subst same
    simp [GroupContexts.held, MlsGroupManager.put]
  · simp [GroupContexts.held, MlsGroupManager.put, same]

theorem held_put_unchanged {group : mls.Group} {later : mls.Group × mls.Provider}
    (holds : manager.groups groupId = some group)
    (same : contexts.context later.1 = contexts.context group) :
    contexts.held (manager.put groupId later) = contexts.held manager := by
  rw [held_put, same]
  apply Function.update_eq_self_iff.mpr
  simp [GroupContexts.held, holds]

/-- What a device makes of a context by a commit of its own; it adds a member below the
bound only. -/
structure GroupContexts.Edits (contexts : GroupContexts mls) (source target : contexts.Context) :
    Prop where
  follows : contexts.Follows source target
  bounded : (contexts.members source).length < maxGroupMembers ∧
      (contexts.members target).length = (contexts.members source).length + 1 ∨
    (contexts.members target).length ≤ (contexts.members source).length

/-- The device moves on by a commit of its own. -/
structure GroupContexts.Commit (contexts : GroupContexts mls)
    (manager after : MlsGroupManager mls.toOpenMls) (groupId : Bytes)
    (source target : contexts.Context) : Prop where
  before : contexts.held manager groupId = some source
  after : contexts.held after = Function.update (contexts.held manager) groupId (some target)
  edits : contexts.Edits source target

/-- The context of a group that was just created. -/
def GroupContexts.Founds (contexts : GroupContexts mls) (groupId : Bytes)
    (first : contexts.Context) : Prop :=
  contexts.groupId first = groupId ∧ (contexts.members first).length = 1

theorem held_createGroup (lawful : contexts.Lawful) {made : Option Unit}
    (ends : MlsGroupManager.createGroup groupId manager = some (made, after)) :
    contexts.held after = contexts.held manager ∨
      contexts.held manager groupId = none ∧ ∃ first, contexts.Founds groupId first ∧
        contexts.held after = Function.update (contexts.held manager) groupId (some first) := by
  simp only [MlsGroupManager.createGroup] at ends
  split at ends
  · cases ends
  · split at ends
    · cases ends
      exact Or.inl rfl
    · next free =>
        split at ends
        · next group provider built =>
            cases ends
            have founds := lawful.build _ _ _ _ built
            refine Or.inr ⟨?_, contexts.context group, founds, held_put _ _ _⟩
            simpa [GroupContexts.held] using free
        · cases ends
          exact Or.inl rfl

theorem held_encrypt (lawful : contexts.Lawful) {plaintext : Bytes} {message : Option Bytes}
    (ends : MlsGroupManager.encrypt groupId plaintext manager = some (message, after)) :
    contexts.held after = contexts.held manager := by
  simp only [MlsGroupManager.encrypt] at ends
  split at ends
  · cases ends
  · split at ends
    · cases ends
      rfl
    · next group holds =>
        cases ends
        exact held_put_unchanged holds (lawful.createMessage _ _ _)

theorem held_decrypt (lawful : contexts.Lawful) {ciphertext : Bytes} {message : Option Bytes}
    (ends : MlsGroupManager.decrypt groupId ciphertext manager = some (message, after)) :
    contexts.held after = contexts.held manager := by
  simp only [MlsGroupManager.decrypt] at ends
  split at ends
  · cases ends
    rfl
  · next group holds =>
      cases ends
      exact held_put_unchanged holds (lawful.processMessage _ _ _)

theorem held_addMember (lawful : contexts.Lawful) {keyPackage : Bytes}
    {made : Option AddMemberResult}
    (ends : MlsGroupManager.addMember groupId keyPackage manager = some (made, after)) :
    made = none ∧ contexts.held after = contexts.held manager ∨
      ∃ source target, contexts.Commit manager after groupId source target ∧
        ∀ result, made = some result →
          contexts.Commits result.commit source target ∧
            contexts.Welcomes result.welcome target := by
  simp only [MlsGroupManager.addMember] at ends
  split at ends
  · cases ends
    exact Or.inl ⟨rfl, rfl⟩
  · next group holds =>
      split at ends
      · cases ends
        exact Or.inl ⟨rfl, rfl⟩
      · next room =>
          split at ends
          · cases ends
            exact Or.inl ⟨rfl, rfl⟩
          · next verified _ =>
              have unchanged := lawful.addMembers verified group manager.provider
              split at ends
              · next refused =>
                  cases ends
                  rw [refused] at unchanged
                  exact Or.inl ⟨rfl, held_put_unchanged holds unchanged⟩
              · next commit welcome pending provider added =>
                  rw [added] at unchanged
                  rcases lawful.added _ _ _ _ _ _ _ added with ⟨target, proposed, grows, welcomes⟩
                  have merges := lawful.mergePendingCommit pending provider _ rfl
                  rw [proposed.isPending] at merges
                  split at ends
                  · next refused =>
                      cases ends
                      rw [refused] at merges
                      exact Or.inl ⟨rfl, held_put_unchanged holds (merges.trans unchanged)⟩
                  · next merged =>
                      cases ends
                      rw [merged] at merges
                      rw [lawful.members_eq] at room
                      have edits : contexts.Edits (contexts.context group) target :=
                        ⟨proposed.follows, Or.inl ⟨by omega, grows⟩⟩
                      refine Or.inr ⟨contexts.context group, target, ⟨?_, ?_, edits⟩, ?_⟩
                      · simp [GroupContexts.held, holds]
                      · rw [held_put, merges]
                      · intro result isMade
                        rcases Option.bind_eq_some_iff.mp isMade with ⟨bytes, isCommit, rest⟩
                        rcases Option.map_eq_some_iff.mp rest with ⟨other, isWelcome, rfl⟩
                        exact ⟨proposed.commits _ isCommit, welcomes _ isWelcome⟩

theorem held_removeMember (lawful : contexts.Lawful) {memberIndex : ℕ} {made : Option Bytes}
    (ends : MlsGroupManager.removeMember groupId memberIndex manager = some (made, after)) :
    made = none ∧ contexts.held after = contexts.held manager ∨
      ∃ source target, contexts.Commit manager after groupId source target ∧
        ∀ commit, made = some commit → contexts.Commits commit source target := by
  simp only [MlsGroupManager.removeMember] at ends
  split at ends
  · cases ends
    exact Or.inl ⟨rfl, rfl⟩
  · next group holds =>
      have unchanged := lawful.removeMembers memberIndex group manager.provider
      split at ends
      · next refused =>
          cases ends
          rw [refused] at unchanged
          exact Or.inl ⟨rfl, held_put_unchanged holds unchanged⟩
      · next commit pending provider removed =>
          rw [removed] at unchanged
          rcases lawful.removed _ _ _ _ _ _ removed with ⟨target, proposed, shrinks⟩
          have merges := lawful.mergePendingCommit pending provider _ rfl
          rw [proposed.isPending] at merges
          split at ends
          · next refused =>
              cases ends
              rw [refused] at merges
              exact Or.inl ⟨rfl, held_put_unchanged holds (merges.trans unchanged)⟩
          · next merged =>
              cases ends
              rw [merged] at merges
              refine Or.inr ⟨contexts.context group, target,
                ⟨?_, ?_, proposed.follows, Or.inr shrinks⟩, proposed.commits⟩
              · simp [GroupContexts.held, holds]
              · rw [held_put, merges]

theorem held_processWelcome {welcome : Bytes} {joined : Option Bytes}
    (lawful : contexts.Lawful) {target : contexts.Context}
    (welcomes : contexts.Welcomes welcome target)
    (ends : MlsGroupManager.processWelcome welcome manager = some (joined, after)) :
    contexts.held after = contexts.held manager ∨
      contexts.held after =
        Function.update (contexts.held manager) (contexts.groupId target) (some target) := by
  simp only [MlsGroupManager.processWelcome] at ends
  split at ends
  · cases ends
    exact Or.inl rfl
  · next group provider joins =>
      cases ends
      right
      rw [held_put, lawful.groupId_eq, welcomes _ _ _ joins]

theorem held_processCommit {commit : Bytes} {merged : Option Unit}
    (lawful : contexts.Lawful) {source target : contexts.Context}
    (commits : contexts.Commits commit source target)
    (ends : MlsGroupManager.processCommit groupId commit manager = some (merged, after)) :
    contexts.held after = contexts.held manager ∨
      contexts.held manager groupId = some source ∧
        contexts.held after = Function.update (contexts.held manager) groupId (some target) := by
  simp only [MlsGroupManager.processCommit] at ends
  split at ends
  · cases ends
    exact Or.inl rfl
  · next group holds =>
      have unchanged := lawful.processMessage commit group manager.provider
      split at ends
      · next processed provider isOther =>
          rw [isOther] at unchanged
          split at ends
          · next staged isStaged =>
              rcases commits _ _ _ isStaged with ⟨same, merges⟩
              cases result : mls.mergeStagedCommit staged processed provider with
              | mk success later =>
                  simp only [result] at ends
                  cases ends
                  cases merged with
                  | none =>
                      have still := lawful.mergeStagedCommit _ _ _ _ result
                      exact Or.inl (held_put_unchanged holds (still.trans unchanged))
                  | some _ =>
                      refine Or.inr ⟨by simp [GroupContexts.held, holds, same], ?_⟩
                      rw [held_put, merges _ _ _ result]
          · cases ends
            exact Or.inl (held_put_unchanged holds unchanged)
      · next answer later _ isOther =>
          cases ends
          rw [isOther] at unchanged
          exact Or.inl (held_put_unchanged holds unchanged)

end Effects

end Mercury.Mls
