import Mercury.Mls.GroupMembers

/-!
# Who reads the messages of a group

The secrecy of MLS, as an ideal: an application message is made and read by devices that have
a leaf in the epoch in which it is encrypted, and it is read as what was encrypted. A device
has the identity of its credential, which no method changes.
-/

namespace Mercury.Mls

/-- The epochs of the groups, with the identities at their leaves. -/
structure Epochs (mls : OpenMlsGroups) where
  Epoch : Type
  epoch : mls.Group → Epoch
  /-- A blank leaf has no identity. -/
  leaf : Epoch → ℕ → Option Bytes
  /-- The identity of the credential that a device signs with. -/
  identity : mls.Provider → Bytes
  /-- The epoch in which a message was encrypted, and its plaintext. -/
  content : Bytes → Option (Epoch × Bytes)

namespace Epochs

variable {mls : OpenMlsGroups}

def HasLeaf (epochs : Epochs mls) (epoch : epochs.Epoch) (identity : Bytes) : Prop :=
  ∃ index, epochs.leaf epoch index = some identity

/-- A message belongs to one epoch, and to those that have a leaf in it; a commit that removes
a leaf leaves the others alone. -/
structure Ideal (epochs : Epochs mls) : Prop where
  creates : ∀ plaintext group provider ciphertext,
    (mls.createMessage plaintext group provider).1 = some ciphertext →
      epochs.content ciphertext = some (epochs.epoch group, plaintext) ∧
        epochs.HasLeaf (epochs.epoch group) (epochs.identity provider)
  reads : ∀ ciphertext group provider plaintext,
    (mls.processMessage ciphertext group provider).1 = some (.applicationMessage plaintext) →
      epochs.content ciphertext = some (epochs.epoch group, plaintext) ∧
        epochs.HasLeaf (epochs.epoch group) (epochs.identity provider)
  removes : ∀ index group provider commit pending later merged after,
    mls.removeMembers index group provider = (some commit, pending, later) →
      mls.mergePendingCommit pending later = (some (), merged, after) → ∀ other,
        epochs.leaf (epochs.epoch merged) other =
          if other = index then none else epochs.leaf (epochs.epoch group) other
  build : ∀ groupId provider,
    epochs.identity (mls.build groupId provider).2 = epochs.identity provider
  createMessage : ∀ plaintext group provider,
    epochs.identity (mls.createMessage plaintext group provider).2.2 = epochs.identity provider
  processMessage : ∀ ciphertext group provider,
    epochs.identity (mls.processMessage ciphertext group provider).2.2 = epochs.identity provider
  generateKeyPackage : ∀ provider,
    epochs.identity (mls.generateKeyPackage provider).2 = epochs.identity provider
  addMembers : ∀ keyPackage group provider,
    epochs.identity (mls.addMembers keyPackage group provider).2.2 = epochs.identity provider
  removeMembers : ∀ index group provider,
    epochs.identity (mls.removeMembers index group provider).2.2 = epochs.identity provider
  mergePendingCommit : ∀ group provider,
    epochs.identity (mls.mergePendingCommit group provider).2.2 = epochs.identity provider
  joinGroup : ∀ welcome provider,
    epochs.identity (mls.joinGroup welcome provider).2 = epochs.identity provider
  mergeStagedCommit : ∀ staged group provider,
    epochs.identity (mls.mergeStagedCommit staged group provider).2.2 = epochs.identity provider

end Epochs

/-! ## The identity of a device -/

namespace MlsGroupManager

variable {mls : OpenMlsGroups} {epochs : Epochs mls} {Value : Type} {groupId : Bytes}

/-- The method leaves the identity of its device alone. -/
def Method.KeepsIdentity (method : Method mls.toOpenMls Value) (epochs : Epochs mls) : Prop :=
  ∀ manager value after, method manager = some (value, after) →
    epochs.identity after.provider = epochs.identity manager.provider

theorem keepsIdentity_generateKeyPackage (ideal : epochs.Ideal) :
    Method.KeepsIdentity (@generateKeyPackage mls) epochs := by
  intro manager value after ends
  cases ends
  exact ideal.generateKeyPackage _

theorem keepsIdentity_createGroup (ideal : epochs.Ideal) :
    Method.KeepsIdentity (createGroup groupId : Method mls.toOpenMls Unit) epochs := by
  intro manager value after ends
  have kept := ideal.build groupId manager.provider
  simp only [createGroup] at ends
  split at ends
  · cases ends
  · split at ends
    · cases ends
      rfl
    · split at ends
      · next group provider built =>
          rw [built] at kept
          cases ends
          exact kept
      · next provider built =>
          rw [built] at kept
          cases ends
          exact kept

theorem keepsIdentity_encrypt (ideal : epochs.Ideal) {plaintext : Bytes} :
    Method.KeepsIdentity (encrypt groupId plaintext : Method mls.toOpenMls Bytes) epochs := by
  intro manager value after ends
  simp only [encrypt] at ends
  split at ends
  · cases ends
  · split at ends
    · cases ends
      rfl
    · cases ends
      exact ideal.createMessage _ _ _

theorem keepsIdentity_decrypt (ideal : epochs.Ideal) {ciphertext : Bytes} :
    Method.KeepsIdentity (decrypt groupId ciphertext : Method mls.toOpenMls Bytes) epochs := by
  intro manager value after ends
  simp only [decrypt] at ends
  split at ends
  · cases ends
    rfl
  · cases ends
    exact ideal.processMessage _ _ _

theorem keepsIdentity_addMember (ideal : epochs.Ideal) {keyPackage : Bytes} :
    Method.KeepsIdentity (@addMember mls groupId keyPackage) epochs := by
  intro manager value after ends
  simp only [addMember] at ends
  split at ends
  · cases ends
    rfl
  · next group _ =>
      split at ends
      · cases ends
        rfl
      · split at ends
        · cases ends
          rfl
        · next verified _ =>
            have proposed := ideal.addMembers verified group manager.provider
            split at ends
            · next refused =>
                rw [refused] at proposed
                cases ends
                exact proposed
            · next commit welcome pending provider added =>
                rw [added] at proposed
                have merged := ideal.mergePendingCommit pending provider
                split at ends
                · next refused =>
                    rw [refused] at merged
                    cases ends
                    exact merged.trans proposed
                · next merges =>
                    rw [merges] at merged
                    cases ends
                    exact merged.trans proposed

theorem keepsIdentity_removeMember (ideal : epochs.Ideal) {memberIndex : ℕ} :
    Method.KeepsIdentity (@removeMember mls groupId memberIndex) epochs := by
  intro manager value after ends
  simp only [removeMember] at ends
  split at ends
  · cases ends
    rfl
  · next group _ =>
      have proposed := ideal.removeMembers memberIndex group manager.provider
      split at ends
      · next refused =>
          rw [refused] at proposed
          cases ends
          exact proposed
      · next commit pending provider removed =>
          rw [removed] at proposed
          have merged := ideal.mergePendingCommit pending provider
          split at ends
          · next refused =>
              rw [refused] at merged
              cases ends
              exact merged.trans proposed
          · next merges =>
              rw [merges] at merged
              cases ends
              exact merged.trans proposed

theorem keepsIdentity_processWelcome (ideal : epochs.Ideal) {welcome : Bytes} :
    Method.KeepsIdentity (@processWelcome mls welcome) epochs := by
  intro manager value after ends
  have kept := ideal.joinGroup welcome manager.provider
  simp only [processWelcome] at ends
  split at ends
  · next provider refused =>
      rw [refused] at kept
      cases ends
      exact kept
  · next group provider joins =>
      rw [joins] at kept
      cases ends
      exact kept

theorem keepsIdentity_processCommit (ideal : epochs.Ideal) {commit : Bytes} :
    Method.KeepsIdentity (@processCommit mls groupId commit) epochs := by
  intro manager value after ends
  simp only [processCommit] at ends
  split at ends
  · cases ends
    rfl
  · next group _ =>
      have read := ideal.processMessage commit group manager.provider
      split at ends
      · next processed provider isOther =>
          rw [isOther] at read
          split at ends
          · next staged _ =>
              cases ends
              exact (ideal.mergeStagedCommit staged processed provider).trans read
          · cases ends
            exact read
      · next answer later _ isOther =>
          rw [isOther] at read
          cases ends
          exact read

end MlsGroupManager

/-! ## The manager of a client -/

namespace MlsManager

variable {mls : OpenMlsGroups} {epochs : Epochs mls} {identity groupId : Bytes}
  {manager : MlsManager mls.toOpenMls}

/-- The device has the identity, unless it has panicked. -/
def Named (manager : MlsManager mls.toOpenMls) (epochs : Epochs mls) (identity : Bytes) : Prop :=
  ∀ held, manager = some held → epochs.identity held.provider = identity

theorem Named.call {Value : Type} {method : MlsGroupManager.Method mls.toOpenMls Value}
    (named : manager.Named epochs identity) (keeps : method.KeepsIdentity epochs) :
    MlsManager.Named (MlsManager.call method manager).2 epochs identity := by
  intro later isLater
  rw [call_snd] at isLater
  rcases Option.map_eq_some_iff.mp isLater with ⟨⟨value, after⟩, called, rfl⟩
  rcases Option.bind_eq_some_iff.mp called with ⟨held, isHeld, ends⟩
  exact (keeps held value after ends).trans (named held isHeld)

/-- A message is in the epoch of its sender's group, in which the sender has a leaf. -/
theorem content_of_encrypt (ideal : epochs.Ideal) (named : manager.Named epochs identity)
    {plaintext ciphertext : Bytes}
    (sent : (manager.encrypt groupId plaintext).1 = some ciphertext) :
    ∃ group, manager.group groupId = some group ∧
      epochs.content ciphertext = some (epochs.epoch group, plaintext) ∧
        epochs.HasLeaf (epochs.epoch group) identity := by
  rw [MlsManager.encrypt, call_fst] at sent
  rcases Option.bind_eq_some_iff.mp sent with ⟨⟨message, after⟩, called, isMessage⟩
  rcases Option.bind_eq_some_iff.mp called with ⟨held, rfl, ends⟩
  simp only [MlsGroupManager.encrypt] at ends
  split at ends
  · cases ends
  · split at ends
    · cases ends
      cases isMessage
    · next group holds =>
        cases ends
        have creates := ideal.creates _ _ _ _ isMessage
        rw [named held rfl] at creates
        exact ⟨group, holds, creates⟩

/-- What is read was encrypted in the epoch of the reader's group, in which the reader has a
leaf. -/
theorem content_of_decrypt (ideal : epochs.Ideal) (named : manager.Named epochs identity)
    {plaintext ciphertext : Bytes}
    (read : (manager.decrypt groupId ciphertext).1 = some plaintext) :
    ∃ group, manager.group groupId = some group ∧
      epochs.content ciphertext = some (epochs.epoch group, plaintext) ∧
        epochs.HasLeaf (epochs.epoch group) identity := by
  rw [MlsManager.decrypt, call_fst] at read
  rcases Option.bind_eq_some_iff.mp read with ⟨⟨message, after⟩, called, isMessage⟩
  rcases Option.bind_eq_some_iff.mp called with ⟨held, rfl, ends⟩
  simp only [MlsGroupManager.decrypt] at ends
  split at ends
  · cases ends
    cases isMessage
  · next group holds =>
      cases ends
      rcases Option.bind_eq_some_iff.mp isMessage with ⟨processed, isProcessed, isPlaintext⟩
      cases processed with
      | other => cases isPlaintext
      | applicationMessage bytes =>
          cases isPlaintext
          have reads := ideal.reads _ _ _ _ isProcessed
          rw [named held rfl] at reads
          exact ⟨group, holds, reads⟩

/-- A removal blanks its leaf in the group of the device that makes it, and no other leaf. -/
theorem leaf_of_removeMember (ideal : epochs.Ideal) {memberIndex : ℕ} {commit : Bytes}
    (removed : (manager.removeMember groupId memberIndex).1 = some commit) :
    ∃ group after, manager.group groupId = some group ∧
      MlsManager.group (manager.removeMember groupId memberIndex).2 groupId = some after ∧
        ∀ other, epochs.leaf (epochs.epoch after) other =
          if other = memberIndex then none else epochs.leaf (epochs.epoch group) other := by
  simp only [MlsManager.removeMember, call_fst, call_snd] at removed ⊢
  rcases Option.bind_eq_some_iff.mp removed with ⟨⟨message, later⟩, called, isMessage⟩
  rw [called]
  rcases Option.bind_eq_some_iff.mp called with ⟨held, rfl, ends⟩
  simp only [MlsGroupManager.removeMember] at ends
  split at ends
  · cases ends
    cases isMessage
  · next group holds =>
      split at ends
      · cases ends
        cases isMessage
      · next made pending provider proposed =>
          split at ends
          · cases ends
            cases isMessage
          · next after merged =>
              cases ends
              refine ⟨group, after.1, holds, ?_, ideal.removes _ _ _ _ _ _ _ _ proposed merged⟩
              simp [MlsManager.group, MlsGroupManager.put]

end MlsManager

/-! ## Groups whose messages hide nothing -/

namespace PlainContext

def changeLeaves (leaves : List (Option Byte)) (change : Byte × Byte) : List (Option Byte) :=
  if change.1 = 0 then leaves ++ [some change.2] else leaves.set change.2.val none

/-- The members at the leaves, of which the first one is the creator. -/
def leaves (context : PlainContext) : List (Option Byte) :=
  context.changes.foldl changeLeaves []

theorem leaves_changed (context : PlainContext) (change : Byte × Byte) :
    (context.changed change).leaves = changeLeaves context.leaves change := by
  simp [leaves, changed]

end PlainContext

/-- Two byte strings in one; the length of the first one is written with as many ones. -/
def framed (front back : Bytes) : Bytes :=
  List.replicate front.length 1 ++ 0 :: (front ++ back)

def unframed (bytes : Bytes) : Bytes × Bytes :=
  let length := (bytes.takeWhile (· = 1)).length
  let rest := bytes.drop (length + 1)
  (rest.take length, rest.drop length)

@[simp]
theorem unframed_framed (front back : Bytes) : unframed (framed front back) = (front, back) := by
  have ones : ((framed front back).takeWhile (· = 1)).length = front.length := by
    simp [framed]
  have rest : (framed front back).drop (front.length + 1) = front ++ back := by
    rw [framed, List.append_cons]
    exact List.drop_left' (by simp)
  simp only [unframed, ones, rest, List.take_left, List.drop_left]

/-- The groups of `plainGroups`, of devices with an identity. -/
def namedGroups : OpenMlsGroups where
  Group := PlainGroup
  Provider := Byte
  build groupId provider := (some ⟨⟨groupId, [(0, provider)]⟩, none⟩, provider)
  createMessage plaintext group provider :=
    (if some provider ∈ group.context.leaves then
      some (0 :: framed group.context.bytes plaintext)
    else none, group, provider)
  processMessage message group provider :=
    (if message.head? = some 1 then some .other
    else if message.head? = some 0 ∧ (unframed message.tail).1 = group.context.bytes ∧
        some provider ∈ group.context.leaves then
      some (.applicationMessage (unframed message.tail).2)
    else none, group, provider)
  KeyPackage := Byte
  Commit := PlainContext
  Welcome := PlainContext
  StagedCommit := PlainContext
  generateKeyPackage provider := (some [provider], provider)
  readKeyPackage keyPackage _ := keyPackage.head?
  members group := group.context.leaves.reduceOption.map fun member => List.replicate 16 member
  addMembers keyPackage group provider :=
    let target := group.context.changed (0, keyPackage)
    (some (target, target), { group with pending := some target }, provider)
  removeMembers index group provider :=
    if fits : index < 256 then
      let target := group.context.changed (1, ⟨index, fits⟩)
      (some target, { group with pending := some target }, provider)
    else (none, group, provider)
  mergePendingCommit group provider :=
    (some (), ⟨group.pending.getD group.context, none⟩, provider)
  commitBytes target := some (1 :: target.bytes)
  welcomeBytes target := some target.bytes
  joinGroup welcome provider := (some ⟨PlainContext.read welcome, none⟩, provider)
  groupId group := group.context.groupId
  stagedCommit commit group _ :=
    let target := PlainContext.read commit.tail
    if target.groupId = group.context.groupId ∧
        target.changes.dropLast = group.context.changes ∧ target.changes ≠ [] then
      some target
    else none
  mergeStagedCommit staged _ provider := (some (), ⟨staged, none⟩, provider)

def namedEpochs : Epochs namedGroups where
  Epoch := PlainContext
  epoch := PlainGroup.context
  leaf context index :=
    (context.leaves[index]?).join.map fun member => List.replicate 16 member
  identity provider := List.replicate 16 provider
  content message :=
    if message.head? = some 0 then
      some (PlainContext.read (unframed message.tail).1, (unframed message.tail).2)
    else none

theorem hasLeaf_named {context : PlainContext} {provider : Byte}
    (member : some provider ∈ context.leaves) :
    namedEpochs.HasLeaf context (List.replicate 16 provider) := by
  rcases List.getElem?_of_mem member with ⟨index, found⟩
  exact ⟨index, by simp [namedEpochs, found]⟩

theorem ideal_named : namedEpochs.Ideal where
  creates plaintext group provider ciphertext created := by
    rcases Option.ite_none_right_eq_some.mp created with ⟨member, same⟩
    cases same
    refine ⟨?_, hasLeaf_named member⟩
    simp [namedEpochs, PlainContext.read_bytes]
  reads ciphertext group provider plaintext read := by
    simp only [namedGroups] at read
    split at read
    · cases read
    · split at read
      · next shape =>
          cases read
          refine ⟨?_, hasLeaf_named shape.2.2⟩
          simp [namedEpochs, shape.1, shape.2.1, PlainContext.read_bytes]
      · cases read
  removes index group provider commit pending later merged after proposed merges other := by
    simp only [namedGroups] at proposed
    split at proposed
    · next fits =>
        cases proposed
        cases merges
        simp only [namedEpochs, Option.getD_some, PlainContext.leaves_changed,
          PlainContext.changeLeaves, if_neg (show ¬(1 : Byte) = 0 by decide), List.getElem?_set]
        by_cases same : index = other
        · subst same
          rw [if_pos rfl, if_pos rfl]
          split <;> rfl
        · simp [same, Ne.symm same]
    · cases proposed
  build _ _ := rfl
  createMessage _ _ _ := rfl
  processMessage _ _ _ := rfl
  generateKeyPackage _ := rfl
  addMembers _ _ _ := rfl
  removeMembers index group provider := by
    simp only [namedGroups]
    split
    · rfl
    · rfl
  mergePendingCommit _ _ := rfl
  joinGroup _ _ := rfl
  mergeStagedCommit _ _ _ := rfl

end Mercury.Mls
