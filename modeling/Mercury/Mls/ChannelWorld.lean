import Mercury.Mls.ChannelKeys
import Mercury.Mls.Epochs
import Mercury.Mls.MemberRuns
import Mercury.Persistence.MemberRuns

/-!
# The devices of a channel

The clients of the devices of one channel, the commits, Welcomes and `mls:cek` messages that
they send to each other, which come in any order, again or never, and the calls about the
members of the channel on the server. A client uses its channel keys for other channels apart
from this one (`MlsClient.unchanged_of_between`). A key that is drawn at random is one that no
device has had.
-/

namespace Mercury.Mls

open Foundations Sdk Persistence

/-! ## The calls of a client -/

/-- A call of `MlsClient` for the channel; what it calls first of an `async` method ends at the
`await` of the import, which `imported` ends. -/
inductive ChannelCall where
  /-- A call that does not concern the keys of channels. -/
  | managed (call : GroupCall)
  | createGroup (rawKey : Bytes)
  | encryptCekForMember
  | tryDecryptCek (ciphertext : Bytes)
  | imported (rawKey : Bytes)

section Calls

variable {mls : OpenMlsGroups} {crypto : WebCrypto} {channelId : Bytes}

/-- The client after the call, and what is sent: commits and Welcomes, and `mls:cek` messages. -/
def ChannelCall.perform (channelId : Bytes) (client : MlsClient mls.toOpenMls crypto) :
    ChannelCall → MlsClient mls.toOpenMls crypto × List Packet × List Bytes
  | .managed call =>
      let done := call.perform client.manager
      ({ client with manager := done.1 }, done.2, [])
  | .createGroup rawKey => (client.createGroup channelId rawKey, [], [])
  | .encryptCekForMember =>
      let sent := client.encryptCekForMember channelId
      (sent.2, [], sent.1.toList)
  | .tryDecryptCek ciphertext => ((client.tryDecryptCek channelId ciphertext).2, [], [])
  | .imported rawKey => ((client.finishImport channelId rawKey).2, [], [])

/-- A device. `ceks` are the keys of channels that it has had, whether their import has ended
or not, and `queue` is what it has sent while it was offline. -/
structure ChannelDevice (mls : OpenMlsGroups) (crypto : WebCrypto) where
  userId : Id16
  client : MlsClient mls.toOpenMls crypto
  ceks : List Bytes
  queue : List Record

/-- The device after a call that leaves its client in the state. -/
def ChannelDevice.after (device : ChannelDevice mls crypto)
    (client : MlsClient mls.toOpenMls crypto) : ChannelDevice mls crypto :=
  { device with
    client := client
    ceks := client.importing.map Prod.snd ++ device.ceks }

end Calls

/-! ## The world -/

structure ChannelWorld (mls : OpenMlsGroups) (crypto : WebCrypto) where
  devices : ℕ → Option (ChannelDevice mls crypto)
  packets : List Packet
  cekMessages : List Bytes
  server : MemberWorld

inductive ChannelLabel where
  | connected (id : ℕ) (userId : Id16)
  | called (id : ℕ) (call : ChannelCall)
  /-- The payload of a message, and the CEK that it is encrypted under, if there is one. -/
  | payload (id : ℕ) (cek : Option Bytes) (bytes : Bytes)
  | queued (id : ℕ) (delta : Record)
  | server (label : MemberLabel)

namespace ChannelWorld

variable {mls : OpenMlsGroups} {crypto : WebCrypto}

def start (store : MemberStore) : ChannelWorld mls crypto where
  devices _ := none
  packets := []
  cekMessages := []
  server := MemberWorld.start store

def enter (world : ChannelWorld mls crypto) (id : ℕ) (device : ChannelDevice mls crypto) :
    ChannelWorld mls crypto :=
  { world with devices := Function.update world.devices id (some device) }

def act (world : ChannelWorld mls crypto) (id : ℕ) (device : ChannelDevice mls crypto)
    (done : MlsClient mls.toOpenMls crypto × List Packet × List Bytes) :
    ChannelWorld mls crypto :=
  { world.enter id (device.after done.1) with
    packets := world.packets ++ done.2.1
    cekMessages := world.cekMessages ++ done.2.2 }

/-- The managers of the devices, which have their providers from the beginning. -/
def toDevices (providers : ℕ → mls.Provider) (world : ChannelWorld mls crypto) : Devices mls where
  managers id :=
    match world.devices id with
    | some device => device.client.manager
    | none => some ⟨providers id, fun _ => none⟩
  sent := world.packets

/-- A device of the user has had the key. -/
def Had (world : ChannelWorld mls crypto) (userId : Id16) (raw : Bytes) : Prop :=
  ∃ id device, world.devices id = some device ∧ device.userId = userId ∧ raw ∈ device.ceks

/-- What is processed was sent before, an import has begun before it ends, and a random key is
new. -/
def Admits (providers : ℕ → mls.Provider) (channelId : Bytes) (world : ChannelWorld mls crypto)
    (id : ℕ) (device : ChannelDevice mls crypto) : ChannelCall → Prop
  | .managed call => (world.toDevices providers).Delivers (id, call)
  | .createGroup rawKey => rawKey.length = cekLen ∧ ∀ userId, ¬world.Had userId rawKey
  | .encryptCekForMember => True
  | .tryDecryptCek ciphertext => ciphertext ∈ world.cekMessages
  | .imported rawKey => (channelId, rawKey) ∈ device.client.importing

end ChannelWorld

section Step

variable {mls : OpenMlsGroups} {crypto : WebCrypto} (epochs : Epochs mls)
  (providers : ℕ → mls.Provider) (tenantId channelId userId : Id16)

/-- The steps of the devices, and of the server, which is watched for the user. -/
inductive ChannelStep :
    ChannelWorld mls crypto → ChannelLabel → ChannelWorld mls crypto → Prop where
  /-- The identity of a client is the id of its user. -/
  | connected {world : ChannelWorld mls crypto} {id : ℕ} {owner : Id16}
      (free : world.devices id = none) (named : epochs.identity (providers id) = owner.val) :
      ChannelStep world (.connected id owner)
        (world.enter id ⟨owner, MlsClient.new (some ⟨providers id, fun _ => none⟩), [], []⟩)
  | called {world : ChannelWorld mls crypto} {id : ℕ} {device : ChannelDevice mls crypto}
      {call : ChannelCall} (present : world.devices id = some device)
      (admits : world.Admits providers channelId.val id device call) :
      ChannelStep world (.called id call)
        (world.act id device (call.perform channelId.val device.client))
  /-- `Channel.send` of a device that is online. -/
  | sent {world : ChannelWorld mls crypto} {id : ℕ} {device : ChannelDevice mls crypto}
      {iv content payload : Bytes} (present : world.devices id = some device)
      (encrypts : device.client.encrypt channelId.val iv content = some payload) :
      ChannelStep world
        (.payload id (device.client.rawCeks (bytesToHex channelId.val)) payload) world
  /-- `Channel.send` of a device that is offline. -/
  | queued {world : ChannelWorld mls crypto} {id : ℕ} {device : ChannelDevice mls crypto}
      {content msgId : Bytes} {contentType now : ℕ} (present : world.devices id = some device) :
      ChannelStep world (.queued id (Channel.offlinePayload content contentType msgId now))
        (world.enter id { device with
          queue := Channel.offlinePayload content contentType msgId now :: device.queue })
  /-- `Channel.pushDeltas` of what a device has queued. -/
  | pushed {world : ChannelWorld mls crypto} {id : ℕ} {device : ChannelDevice mls crypto}
      {channel : Channel} {delta : Record} {now : ℕ} {envelope : Gateway.Envelope}
      (present : world.devices id = some device) (waiting : delta ∈ device.queue)
      (encodes : channel.deltaEnvelope delta now = some envelope) :
      ChannelStep world (.payload id none envelope.payload) world
  | server {world : ChannelWorld mls crypto} {label : MemberLabel} {next : MemberWorld}
      (taken : MemberRunStep tenantId channelId userId world.server label next) :
      ChannelStep world (.server label) { world with server := next }

end Step

/-! ## What a call does to a client -/

section Perform

variable {mls : OpenMlsGroups} {crypto : WebCrypto} {epochs : Epochs mls}
  {channelId identity : Bytes} {manager : MlsManager mls.toOpenMls}
  {client : MlsClient mls.toOpenMls crypto}

theorem GroupCall.named_perform (ideal : epochs.Ideal) (named : manager.Named epochs identity)
    (call : GroupCall) : (call.perform manager).1.Named epochs identity := by
  cases call with
  | generateKeyPackage => exact named.call (MlsGroupManager.keepsIdentity_generateKeyPackage ideal)
  | createGroup groupId => exact named.call (MlsGroupManager.keepsIdentity_createGroup ideal)
  | addMember groupId keyPackage =>
      have kept : (manager.addMember groupId keyPackage).2.Named epochs identity := by
        apply named.call
        intro held value after ends
        rcases Option.bind_eq_some_iff.mp ends with ⟨⟨made, later⟩, added, packs⟩
        have keeps := MlsGroupManager.keepsIdentity_addMember ideal held made later added
        cases made with
        | none =>
            cases packs
            exact keeps
        | some made =>
            rcases Option.map_eq_some_iff.mp packs with ⟨packed, -, same⟩
            cases same
            exact keeps
      simp only [GroupCall.perform]
      split
      · exact kept
      · exact kept
  | removeMember groupId memberIndex =>
      exact named.call (MlsGroupManager.keepsIdentity_removeMember ideal)
  | encrypt groupId plaintext => exact named.call (MlsGroupManager.keepsIdentity_encrypt ideal)
  | decrypt groupId ciphertext => exact named.call (MlsGroupManager.keepsIdentity_decrypt ideal)
  | processWelcome groupId welcome =>
      exact named.call (MlsGroupManager.keepsIdentity_processWelcome ideal)
  | processCommit groupId commit =>
      exact named.call (MlsGroupManager.keepsIdentity_processCommit ideal)
  | memberCount groupId =>
      apply named.call
      intro held value after ends
      dsimp only at ends
      split at ends
      · cases ends
        rfl
      · split at ends
        · cases ends
          rfl
        · cases ends

namespace ChannelCall

theorem named_perform (ideal : epochs.Ideal) (named : client.manager.Named epochs identity)
    (call : ChannelCall) : (call.perform channelId client).1.manager.Named epochs identity := by
  cases call with
  | managed call => exact call.named_perform ideal named
  | createGroup rawKey =>
      have kept : (client.manager.createGroup channelId).2.Named epochs identity :=
        named.call (MlsGroupManager.keepsIdentity_createGroup ideal)
      simp only [perform, MlsClient.createGroup]
      split
      · exact kept
      · exact kept
  | encryptCekForMember =>
      simp only [perform, MlsClient.encryptCekForMember]
      split
      · exact named.call (MlsGroupManager.keepsIdentity_encrypt ideal)
      · exact named
  | tryDecryptCek ciphertext =>
      have kept : (client.manager.decrypt channelId ciphertext).2.Named epochs identity :=
        named.call (MlsGroupManager.keepsIdentity_decrypt ideal)
      simp only [perform, MlsClient.tryDecryptCek]
      split
      · exact kept
      · exact kept
  | imported rawKey =>
      simp only [perform, MlsClient.finishImport]
      split
      · exact named
      · exact named

/-- An import begins with a key that was drawn, or that was read. -/
theorem importing_perform {call : ChannelCall} {entry : Bytes × Bytes}
    (pending : entry ∈ (call.perform channelId client).1.importing) :
    entry ∈ client.importing ∨ call = .createGroup entry.2 ∨
      ∃ ciphertext plaintext, call = .tryDecryptCek ciphertext ∧
        (client.manager.decrypt channelId ciphertext).1 = some plaintext ∧
          cekOf plaintext = some entry.2 := by
  cases call with
  | managed call => exact Or.inl pending
  | createGroup rawKey =>
      simp only [perform, MlsClient.createGroup] at pending
      split at pending
      · rcases List.mem_cons.mp pending with rfl | earlier
        · exact Or.inr (Or.inl rfl)
        · exact Or.inl earlier
      · exact Or.inl pending
  | encryptCekForMember =>
      simp only [perform, MlsClient.encryptCekForMember] at pending
      split at pending
      · exact Or.inl pending
      · exact Or.inl pending
  | tryDecryptCek ciphertext =>
      simp only [perform, MlsClient.tryDecryptCek] at pending
      split at pending
      · next rawKey isCek =>
          rcases List.mem_cons.mp pending with rfl | earlier
          · rcases Option.bind_eq_some_iff.mp isCek with ⟨plaintext, read, isCek⟩
            exact Or.inr (Or.inr ⟨ciphertext, plaintext, rfl, read, isCek⟩)
          · exact Or.inl earlier
      · exact Or.inl pending
  | imported rawKey =>
      simp only [perform, MlsClient.finishImport] at pending
      split at pending
      · exact Or.inl (List.mem_of_mem_erase pending)
      · exact Or.inl (List.mem_of_mem_erase pending)

/-- A key is stored, together with its raw key, when its import ends. -/
theorem keys_perform (call : ChannelCall) (hex : Bytes) :
    (call.perform channelId client).1.channelKeys hex = client.channelKeys hex ∧
        (call.perform channelId client).1.rawCeks hex = client.rawCeks hex ∨
      ∃ rawKey, call = .imported rawKey ∧
        (call.perform channelId client).1.rawCeks hex = some rawKey := by
  cases call with
  | managed call => exact Or.inl ⟨rfl, rfl⟩
  | createGroup rawKey =>
      simp only [perform, MlsClient.createGroup]
      split
      · exact Or.inl ⟨rfl, rfl⟩
      · exact Or.inl ⟨rfl, rfl⟩
  | encryptCekForMember =>
      simp only [perform, MlsClient.encryptCekForMember]
      split
      · exact Or.inl ⟨rfl, rfl⟩
      · exact Or.inl ⟨rfl, rfl⟩
  | tryDecryptCek ciphertext =>
      simp only [perform, MlsClient.tryDecryptCek]
      split
      · exact Or.inl ⟨rfl, rfl⟩
      · exact Or.inl ⟨rfl, rfl⟩
  | imported rawKey =>
      simp only [perform, MlsClient.finishImport]
      split
      · by_cases own : hex = bytesToHex channelId
        · subst own
          exact Or.inr ⟨rawKey, rfl, Function.update_self ..⟩
        · exact Or.inl ⟨Function.update_of_ne own .., Function.update_of_ne own ..⟩
      · exact Or.inl ⟨rfl, rfl⟩

/-- An `mls:cek` message hands the key of the channel on. -/
theorem messages_perform {call : ChannelCall} {ciphertext : Bytes}
    (sent : ciphertext ∈ (call.perform channelId client).2.2) :
    call = .encryptCekForMember ∧ ∃ raw, client.rawCeks (bytesToHex channelId) = some raw ∧
      (client.manager.encrypt channelId (cekPrefix ++ raw)).1 = some ciphertext := by
  cases call with
  | encryptCekForMember =>
      simp only [perform, MlsClient.encryptCekForMember, Option.mem_toList] at sent
      split at sent
      · next raw holds => exact ⟨rfl, raw, holds, sent⟩
      · cases sent
  | _ => cases sent

/-- A call that is admitted is a step of the client. -/
theorem sound_perform {providers : ℕ → mls.Provider} {world : ChannelWorld mls crypto} {id : ℕ}
    {device : ChannelDevice mls crypto} {call : ChannelCall} (sound : device.client.Sound)
    (admits : world.Admits providers channelId id device call) :
    (call.perform channelId device.client).1.Sound := by
  cases call with
  | managed call => exact sound.managed _
  | createGroup rawKey => exact sound.step (.createGroup admits.1)
  | encryptCekForMember => exact sound.step .encryptCekForMember
  | tryDecryptCek ciphertext => exact sound.step .tryDecryptCek
  | imported rawKey => exact sound.finishImport admits

end ChannelCall

end Perform

/-! ## What every run keeps -/

section Runs

variable {mls : OpenMlsGroups} {crypto : WebCrypto} {epochs : Epochs mls}
  {providers : ℕ → mls.Provider} {tenantId channelId userId : Id16}

/-- A client acts for the user of its device, which has had the keys that it stores or
imports. -/
structure ChannelDevice.Sound (epochs : Epochs mls) (device : ChannelDevice mls crypto) :
    Prop where
  client : device.client.Sound
  named : device.client.manager.Named epochs device.userId.val
  keyed : ∀ hex, (device.client.channelKeys hex).isSome → (device.client.rawCeks hex).isSome
  held : ∀ hex raw, device.client.rawCeks hex = some raw → raw ∈ device.ceks
  pending : ∀ entry ∈ device.client.importing, entry.2 ∈ device.ceks
  queue : ∀ delta ∈ device.queue, ∃ content contentType msgId now,
    delta = Channel.offlinePayload content contentType msgId now

theorem ChannelDevice.Sound.after {device : ChannelDevice mls crypto} (ideal : epochs.Ideal)
    (sound : device.Sound epochs) {world : ChannelWorld mls crypto} {id : ℕ} {call : ChannelCall}
    (admits : world.Admits providers channelId.val id device call) :
    (device.after (call.perform channelId.val device.client).1).Sound epochs where
  client := ChannelCall.sound_perform sound.client admits
  named := call.named_perform ideal sound.named
  keyed hex known := by
    change (ChannelCall.perform channelId.val device.client call).1.channelKeys hex |>.isSome
      at known
    rcases call.keys_perform hex with ⟨key, raw⟩ | ⟨rawKey, -, stored⟩
    · rw [key] at known
      change (ChannelCall.perform channelId.val device.client call).1.rawCeks hex |>.isSome
      rw [raw]
      exact sound.keyed hex known
    · exact Option.isSome_iff_exists.mpr ⟨rawKey, stored⟩
  held hex raw stored := by
    apply List.mem_append_right
    rcases call.keys_perform hex with ⟨-, same⟩ | ⟨rawKey, rfl, now⟩
    · exact sound.held hex raw (same ▸ stored)
    · cases now.symm.trans stored
      exact sound.pending _ admits
  pending entry pending := List.mem_append_left _ (List.mem_map_of_mem pending)
  queue := sound.queue

namespace ChannelWorld

variable {world next : ChannelWorld mls crypto} {label : ChannelLabel} {id : ℕ}
  {device : ChannelDevice mls crypto}

/-- An `mls:cek` message hands on a key that a device of its epoch has had. -/
structure Sound (epochs : Epochs mls) (world : ChannelWorld mls crypto) : Prop where
  devices : ∀ id device, world.devices id = some device → device.Sound epochs
  messages : ∀ ciphertext ∈ world.cekMessages, ∃ epoch raw holder,
    epochs.content ciphertext = some (epoch, cekPrefix ++ raw) ∧ raw.length = cekLen ∧
      world.Had holder raw ∧ epochs.HasLeaf epoch holder.val

theorem sound_start (store : MemberStore) :
    (start store : ChannelWorld mls crypto).Sound epochs where
  devices _ _ present := by cases present
  messages _ sent := by cases sent

/-- The user, and the keys, that a device has had stay with it. -/
def Keeps (world next : ChannelWorld mls crypto) : Prop :=
  ∀ id before, world.devices id = some before → ∃ after, next.devices id = some after ∧
    after.userId = before.userId ∧ before.ceks ⊆ after.ceks

theorem keeps_refl (world : ChannelWorld mls crypto) : world.Keeps world :=
  fun _ before present => ⟨before, present, rfl, List.Subset.refl _⟩

theorem keeps_enter {entered : ChannelDevice mls crypto}
    (replaces : ∀ before, world.devices id = some before →
      before.userId = entered.userId ∧ before.ceks ⊆ entered.ceks) :
    world.Keeps (world.enter id entered) := by
  intro other before present
  by_cases same : other = id
  · subst same
    have replaced := replaces before present
    exact ⟨entered, Function.update_self .., replaced.1.symm, replaced.2⟩
  · exact ⟨before, (Function.update_of_ne same ..).trans present, rfl, List.Subset.refl _⟩

theorem Keeps.had (keeps : world.Keeps next) {raw : Bytes} (had : world.Had userId raw) :
    next.Had userId raw := by
  rcases had with ⟨id, before, present, owner, held⟩
  rcases keeps id before present with ⟨after, presentAfter, sameOwner, more⟩
  exact ⟨id, after, presentAfter, sameOwner.trans owner, more held⟩

theorem had_of_enter {entered : ChannelDevice mls crypto} {raw : Bytes}
    (had : (world.enter id entered).Had userId raw) :
    world.Had userId raw ∨ entered.userId = userId ∧ raw ∈ entered.ceks := by
  rcases had with ⟨other, after, present, owner, held⟩
  by_cases same : other = id
  · subst same
    cases (Function.update_self ..).symm.trans present
    exact Or.inr ⟨owner, held⟩
  · exact Or.inl ⟨other, after, (Function.update_of_ne same ..).symm.trans present, owner, held⟩

theorem keeps_step
    (step : ChannelStep epochs providers tenantId channelId userId world label next) :
    world.Keeps next := by
  cases step with
  | connected free named => exact keeps_enter fun before present => by cases free.symm.trans present
  | @called id device call present admits =>
      have keeps : world.Keeps
          (world.enter id (device.after (call.perform channelId.val device.client).1)) := by
        apply keeps_enter
        intro before beforePresent
        cases present.symm.trans beforePresent
        exact ⟨rfl, List.subset_append_right _ _⟩
      exact keeps
  | sent present encrypts => exact keeps_refl world
  | queued present =>
      apply keeps_enter
      intro before beforePresent
      cases present.symm.trans beforePresent
      exact ⟨rfl, List.Subset.refl _⟩
  | pushed present waiting encodes => exact keeps_refl world
  | server taken => exact keeps_refl world

theorem keeps_run {labels : List ChannelLabel}
    (run : Run (ChannelStep epochs providers tenantId channelId userId) world labels next) :
    world.Keeps next := by
  apply run.invariant _ (keeps_refl world)
  intro source label target keeps step id before present
  rcases keeps id before present with ⟨middle, presentMiddle, owner, more⟩
  rcases keeps_step step id middle presentMiddle with ⟨after, presentAfter, sameOwner, others⟩
  exact ⟨after, presentAfter, sameOwner.trans owner,
    List.Subset.trans more others⟩

theorem Sound.enter (sound : world.Sound epochs) {entered : ChannelDevice mls crypto}
    (replaces : ∀ before, world.devices id = some before →
      before.userId = entered.userId ∧ before.ceks ⊆ entered.ceks)
    (isSound : entered.Sound epochs) : (world.enter id entered).Sound epochs where
  devices other found present := by
    by_cases same : other = id
    · subst same
      cases (Function.update_self ..).symm.trans present
      exact isSound
    · exact sound.devices other found ((Function.update_of_ne same ..).symm.trans present)
  messages ciphertext sent := by
    rcases sound.messages ciphertext sent with ⟨epoch, raw, holder, content, length, had, leaf⟩
    exact ⟨epoch, raw, holder, content, length, (keeps_enter replaces).had had, leaf⟩

/-- What an `mls:cek` message hands on when it is sent. -/
theorem Sound.content_of_sent (ideal : epochs.Ideal) (sound : world.Sound epochs)
    (present : world.devices id = some device) {call : ChannelCall} {ciphertext : Bytes}
    (sent : ciphertext ∈ (call.perform channelId.val device.client).2.2) :
    call = .encryptCekForMember ∧ ∃ group raw,
      device.client.manager.group channelId.val = some group ∧
      epochs.content ciphertext = some (epochs.epoch group, cekPrefix ++ raw) ∧
        raw.length = cekLen ∧ raw ∈ device.ceks ∧
          epochs.HasLeaf (epochs.epoch group) device.userId.val := by
  have isSound := sound.devices id device present
  rcases ChannelCall.messages_perform sent with ⟨isCall, raw, holds, sends⟩
  rcases MlsManager.content_of_encrypt ideal isSound.named sends with ⟨group, own, content, leaf⟩
  exact ⟨isCall, group, raw, own, content, (isSound.client.held _ raw holds).1,
    isSound.held _ raw holds, leaf⟩

theorem Sound.step (ideal : epochs.Ideal) (sound : world.Sound epochs)
    (step : ChannelStep epochs providers tenantId channelId userId world label next) :
    next.Sound epochs := by
  cases step with
  | @connected id owner free named =>
      refine sound.enter (fun before present => by cases free.symm.trans present) ?_
      refine ⟨MlsClient.sound_new _, ?_, ?_, ?_, ?_, ?_⟩
      · intro held isHeld
        cases isHeld
        exact named
      · intro hex known
        cases known
      · intro hex raw stored
        cases stored
      · intro entry pending
        cases pending
      · intro delta waiting
        cases waiting
  | @called id device call present admits =>
      have entered : (world.enter id
          (device.after (call.perform channelId.val device.client).1)).Sound epochs := by
        refine sound.enter (fun before beforePresent => ?_)
          ((sound.devices id device present).after ideal admits)
        cases present.symm.trans beforePresent
        exact ⟨rfl, List.subset_append_right _ _⟩
      refine ⟨entered.devices, fun ciphertext sent => ?_⟩
      rcases List.mem_append.mp sent with earlier | now
      · exact entered.messages ciphertext earlier
      · rcases sound.content_of_sent ideal present now with
          ⟨-, group, raw, -, content, length, had, leaf⟩
        exact ⟨_, raw, device.userId, content, length,
          ⟨id, _, Function.update_self .., rfl, List.mem_append_right _ had⟩, leaf⟩
  | sent present encrypts => exact sound
  | @queued id device content msgId contentType now present =>
      refine sound.enter (fun before beforePresent => ?_) ?_
      · cases present.symm.trans beforePresent
        exact ⟨rfl, List.Subset.refl _⟩
      · have isSound := sound.devices id device present
        refine { isSound with queue := fun delta waiting => ?_ }
        rcases List.mem_cons.mp waiting with rfl | earlier
        · exact ⟨content, contentType, msgId, now, rfl⟩
        · exact isSound.queue delta earlier
  | pushed present waiting encodes => exact sound
  | server taken => exact ⟨sound.devices, sound.messages⟩

theorem sound_of_run (ideal : epochs.Ideal) {store : MemberStore} {labels : List ChannelLabel}
    (run : Run (ChannelStep epochs providers tenantId channelId userId) (start store) labels
      world) : world.Sound epochs :=
  run.invariant (fun sound step => sound.step ideal step) (sound_start store)

/-- How a user comes to have a key: its device draws a key that nobody has had, or reads it in
an epoch in which the user has a leaf. -/
theorem Sound.had_of_step (ideal : epochs.Ideal) (sound : world.Sound epochs)
    (step : ChannelStep epochs providers tenantId channelId userId world label next)
    {holder : Id16} {raw : Bytes} (had : next.Had holder raw) :
    world.Had holder raw ∨
      (∃ id device, label = .called id (.createGroup raw) ∧ world.devices id = some device ∧
        device.userId = holder ∧ ∀ other, ¬world.Had other raw) ∨
      ∃ ciphertext ∈ world.cekMessages, ∃ epoch,
        epochs.content ciphertext = some (epoch, cekPrefix ++ raw) ∧
          epochs.HasLeaf epoch holder.val := by
  cases step with
  | connected free named =>
      rcases had_of_enter had with earlier | ⟨-, held⟩
      · exact Or.inl earlier
      · cases held
  | @called id device call present admits =>
      rcases had_of_enter had with earlier | ⟨rfl, held⟩
      · exact Or.inl earlier
      have isSound := sound.devices id device present
      rcases List.mem_append.mp held with begun | earlier
      · rcases List.mem_map.mp begun with ⟨entry, pending, rfl⟩
        rcases ChannelCall.importing_perform pending with
          earlier | rfl | ⟨ciphertext, plaintext, rfl, read, isCek⟩
        · exact Or.inl ⟨id, device, present, rfl, isSound.pending entry earlier⟩
        · exact Or.inr (Or.inl ⟨id, device, rfl, present, rfl, admits.2⟩)
        · rcases MlsManager.content_of_decrypt ideal isSound.named read with
            ⟨group, -, content, leaf⟩
          rcases sound.messages ciphertext admits with ⟨epoch, raw, -, same, length, -, -⟩
          cases content.symm.trans same
          rw [cekOf_cekPrefix length] at isCek
          cases isCek
          exact Or.inr (Or.inr ⟨ciphertext, admits, _, content, leaf⟩)
      · exact Or.inl ⟨id, device, present, rfl, earlier⟩
  | sent present encrypts => exact Or.inl had
  | @queued id device _ _ _ _ present =>
      rcases had_of_enter had with earlier | ⟨owner, held⟩
      · exact Or.inl earlier
      · exact Or.inl ⟨id, device, present, owner, held⟩
  | pushed present waiting encodes => exact Or.inl had
  | server taken => exact Or.inl had

/-! ## What is sent -/

/-- The bytes are an encryption under the key. -/
def EncryptedUnder (crypto : WebCrypto) (raw bytes : Bytes) : Prop :=
  ∃ key iv content, crypto.importKey raw = some key ∧
    bytes = Sdk.MlsClient.encrypt (crypto.aead key) iv content

/-- A payload is encrypted under a key that its device has had, or it comes from the offline
queue and is empty. -/
theorem Sound.payload (sound : world.Sound epochs) {cek : Option Bytes} {bytes : Bytes}
    (step : ChannelStep epochs providers tenantId channelId userId world (.payload id cek bytes)
      next) :
    ∃ device, world.devices id = some device ∧
      ((∃ raw, cek = some raw ∧ raw ∈ device.ceks ∧ EncryptedUnder crypto raw bytes) ∨
        cek = none ∧ bytes = []) := by
  cases step with
  | @sent _ device iv content _ present encrypts =>
      have isSound := sound.devices id device present
      rcases Option.map_eq_some_iff.mp encrypts with ⟨key, known, encrypted⟩
      have hasKey : (device.client.channelKeys (bytesToHex channelId.val)).isSome := by
        rw [known]
        rfl
      rcases Option.isSome_iff_exists.mp (isSound.keyed _ hasKey) with ⟨raw, holds⟩
      have imported := (isSound.client.held _ raw holds).2
      exact ⟨device, present, Or.inl ⟨raw, holds, isSound.held _ raw holds, key, iv, content,
        imported.symm.trans known, encrypted.symm⟩⟩
  | @pushed _ device channel delta now envelope present waiting encodes =>
      rcases (sound.devices id device present).queue delta waiting with
        ⟨content, contentType, msgId, sentAt, rfl⟩
      exact ⟨device, present, Or.inr ⟨rfl, payload_of_offlinePayload encodes⟩⟩

/-! ## The parts of a run -/

theorem toDevices_enter (entered : ChannelDevice mls crypto) :
    ((world.enter id entered).toDevices providers).managers =
      Function.update (world.toDevices providers).managers id entered.client.manager := by
  funext other
  by_cases same : other = id
  · subst same
    simp [toDevices, ChannelWorld.enter]
  · simp [toDevices, ChannelWorld.enter, same]

theorem toDevices_act (done : MlsClient mls.toOpenMls crypto × List Packet × List Bytes) :
    (world.act id device done).toDevices providers =
      (world.toDevices providers).act id (done.1.manager, done.2.1) :=
  congrArg (fun managers => Devices.mk managers (world.packets ++ done.2.1))
    (toDevices_enter (device.after done.1))

/-- A device whose manager stays as it is. -/
theorem toDevices_act_same {devices : Devices mls} {manager : MlsManager mls.toOpenMls}
    (same : devices.managers id = manager) : devices.act id (manager, []) = devices := by
  subst same
  simp [Devices.act]

/-- The managers of the devices take a step of `Devices`, or stay as they are. -/
theorem toDevices_step
    (step : ChannelStep epochs providers tenantId channelId userId world label next) :
    next.toDevices providers = world.toDevices providers ∨
      ∃ call, Devices.Step (world.toDevices providers) call (next.toDevices providers) := by
  cases step with
  | @connected id owner free named =>
      refine Or.inl (congrArg (fun managers => Devices.mk managers world.packets) ?_)
      refine (toDevices_enter _).trans (Function.update_eq_self_iff.mpr ?_)
      simp [toDevices, free, MlsClient.new]
  | @called id device call present admits =>
      have own : (world.toDevices providers).managers id = device.client.manager := by
        simp [toDevices, present]
      rw [toDevices_act]
      cases call with
      | managed call =>
          refine Or.inr ⟨(id, call), admits, ?_⟩
          simp only [Devices.step, own]
          rfl
      | createGroup rawKey =>
          refine Or.inr ⟨(id, .createGroup channelId.val), trivial, ?_⟩
          simp only [Devices.step, own, ChannelCall.perform, MlsClient.createGroup]
          split
          · rfl
          · rfl
      | encryptCekForMember =>
          simp only [ChannelCall.perform, MlsClient.encryptCekForMember]
          split
          · next raw holds =>
              refine Or.inr ⟨(id, .encrypt channelId.val (cekPrefix ++ raw)), trivial, ?_⟩
              simp only [Devices.step, own]
              rfl
          · exact Or.inl (toDevices_act_same own)
      | tryDecryptCek ciphertext =>
          refine Or.inr ⟨(id, .decrypt channelId.val ciphertext), trivial, ?_⟩
          simp only [Devices.step, own, ChannelCall.perform, MlsClient.tryDecryptCek]
          split
          · rfl
          · rfl
      | imported rawKey =>
          simp only [ChannelCall.perform, MlsClient.finishImport]
          split
          · exact Or.inl (toDevices_act_same own)
          · exact Or.inl (toDevices_act_same own)
  | sent present encrypts => exact Or.inl rfl
  | @queued id device _ _ _ _ present =>
      refine Or.inl (congrArg (fun managers => Devices.mk managers world.packets) ?_)
      refine (toDevices_enter _).trans (Function.update_eq_self_iff.mpr ?_)
      simp [toDevices, present]
  | pushed present waiting encodes => exact Or.inl rfl
  | server taken => exact Or.inl rfl

/-- The managers of the devices are in a run of `Devices`. -/
theorem toDevices_run {store : MemberStore} {labels : List ChannelLabel}
    (run : Run (ChannelStep epochs providers tenantId channelId userId) (start store) labels
      world) :
    ∃ calls, Run Devices.Step (Devices.start providers) calls (world.toDevices providers) := by
  induction run with
  | refl => exact ⟨[], Run.refl⟩
  | snoc _ last ih =>
      rcases ih with ⟨calls, earlier⟩
      rcases toDevices_step last with same | ⟨call, taken⟩
      · exact ⟨calls, same ▸ earlier⟩
      · exact ⟨calls ++ [call], earlier.snoc taken⟩

/-- The server is in a run of its calls about the members. -/
theorem server_run {source : ChannelWorld mls crypto} {labels : List ChannelLabel}
    (run : Run (ChannelStep epochs providers tenantId channelId userId) source labels world) :
    ∃ taken, Run (MemberRunStep tenantId channelId userId) source.server taken world.server := by
  induction run with
  | refl => exact ⟨[], Run.refl⟩
  | snoc _ last ih =>
      rcases ih with ⟨labels, earlier⟩
      cases last with
      | server taken => exact ⟨_, earlier.snoc taken⟩
      | _ => exact ⟨labels, earlier⟩

end ChannelWorld

end Runs

end Mercury.Mls
