import Mercury.Mls.GroupManager
import Mercury.Sdk.OfflineDelivery

/-!
# The keys of channels

`MlsClient` of `mls.ts`: the maps of the channel encryption keys, and the messages by which a
member of a group hands its key on. The calls are asynchronous; a key is stored once it has
been imported, and calls for other channels may come in between.
-/

namespace Mercury.Mls

open Foundations Sdk

/-! ## The client -/

/-- Web Crypto: keys of AES-GCM, and their import, which a key of 32 bytes passes. -/
structure WebCrypto where
  Key : Type
  importKey : Bytes → Option Key
  aead : Key → Aead
  imports : ∀ rawKey, rawKey.length = 32 → ∃ key, importKey rawKey = some key

structure MlsClient (openMls : OpenMls) (crypto : WebCrypto) where
  manager : MlsManager openMls
  channelKeys : Bytes → Option crypto.Key
  rawCeks : Bytes → Option Bytes
  /-- The imports that have not ended, each with its channel. -/
  importing : List (Bytes × Bytes)

def cekLen : ℕ := 32

/-- "MCEK". -/
def cekPrefix : Bytes :=
  [0x4d, 0x43, 0x45, 0x4b]

/-- The key in a plaintext that hands one on. -/
def cekOf (plaintext : Bytes) : Option Bytes :=
  if plaintext.length = cekPrefix.length + cekLen ∧ plaintext.take 4 = cekPrefix then
    some (plaintext.drop cekPrefix.length)
  else none

theorem cekOf_cekPrefix {rawKey : Bytes} (length : rawKey.length = cekLen) :
    cekOf (cekPrefix ++ rawKey) = some rawKey :=
  if_pos ⟨by rw [List.length_append, length], rfl⟩

theorem length_of_cekOf {plaintext rawKey : Bytes} (isCek : cekOf plaintext = some rawKey) :
    rawKey.length = cekLen := by
  unfold cekOf at isCek
  split at isCek
  · next shape =>
      cases isCek
      rw [List.length_drop, shape.1, Nat.add_sub_cancel_left]
  · cases isCek

namespace MlsClient

variable {openMls : OpenMls} {crypto : WebCrypto}

def new (manager : MlsManager openMls) : MlsClient openMls crypto where
  manager := manager
  channelKeys _ := none
  rawCeks _ := none
  importing := []

variable (client : MlsClient openMls crypto)

/-- `importCek`, up to its `await`. -/
def startImport (channelId rawKey : Bytes) : MlsClient openMls crypto :=
  { client with importing := (channelId, rawKey) :: client.importing }

/-- The rest of `importCek`, and whether it resolves. -/
def finishImport (channelId rawKey : Bytes) : Bool × MlsClient openMls crypto :=
  let ended := { client with importing := client.importing.erase (channelId, rawKey) }
  match crypto.importKey rawKey with
  | some key =>
      (true, { ended with
        channelKeys := Function.update client.channelKeys (bytesToHex channelId) (some key)
        rawCeks := Function.update client.rawCeks (bytesToHex channelId) (some rawKey) })
  | none => (false, ended)

/-- `createGroup`, up to its `await`; the key is random. -/
def createGroup (channelId rawKey : Bytes) : MlsClient openMls crypto :=
  let made := client.manager.createGroup channelId
  let called := { client with manager := made.2 }
  match made.1 with
  | some _ => called.startImport channelId rawKey
  | none => called

def encryptCekForMember (channelId : Bytes) : Option Bytes × MlsClient openMls crypto :=
  match client.rawCeks (bytesToHex channelId) with
  | some raw =>
      let sent := client.manager.encrypt channelId (cekPrefix ++ raw)
      (sent.1, { client with manager := sent.2 })
  | none => (none, client)

/-- `tryDecryptCek`, up to its `await`, and what it returns once the import has resolved. -/
def tryDecryptCek (channelId ciphertext : Bytes) : Bool × MlsClient openMls crypto :=
  let received := client.manager.decrypt channelId ciphertext
  let called := { client with manager := received.2 }
  match received.1.bind cekOf with
  | some rawKey => (true, called.startImport channelId rawKey)
  | none => (false, called)

/-- `encrypt`; it throws without a key. -/
def encrypt (channelId iv plaintext : Bytes) : Option Bytes :=
  (client.channelKeys (bytesToHex channelId)).map fun key =>
    Sdk.MlsClient.encrypt (crypto.aead key) iv plaintext

def decrypt (channelId ciphertext : Bytes) : Option Bytes :=
  (client.channelKeys (bytesToHex channelId)).bind fun key =>
    Sdk.MlsClient.decrypt (crypto.aead key) ciphertext

/-! ## Runs of calls -/

inductive Call where
  | createGroup (channelId : Bytes)
  | encryptCekForMember (channelId : Bytes)
  | tryDecryptCek (channelId : Bytes)
  | imported (channelId : Bytes)
  /-- Any other call of the manager: of `addMember`, `processWelcome` and so on. -/
  | managed

inductive Step (source : MlsClient openMls crypto) : Call → MlsClient openMls crypto → Prop where
  | createGroup {channelId rawKey : Bytes} (random : rawKey.length = cekLen) :
      Step source (.createGroup channelId) (source.createGroup channelId rawKey)
  | encryptCekForMember {channelId : Bytes} :
      Step source (.encryptCekForMember channelId) (source.encryptCekForMember channelId).2
  | tryDecryptCek {channelId ciphertext : Bytes} :
      Step source (.tryDecryptCek channelId) (source.tryDecryptCek channelId ciphertext).2
  | imported {channelId rawKey : Bytes} (pending : (channelId, rawKey) ∈ source.importing) :
      Step source (.imported channelId) (source.finishImport channelId rawKey).2
  | managed {manager : MlsManager openMls} :
      Step source .managed { source with manager := manager }

/-- The call is for another channel; no channel has the empty id, with which a group is not
created. -/
def Call.Avoids (channelId : Bytes) : Call → Prop
  | .createGroup other => other ≠ channelId ∧ other ≠ []
  | .encryptCekForMember other | .tryDecryptCek other | .imported other => other ≠ channelId
  | .managed => False

/-- Calls for other channels lead from one state to the other. -/
def Between (channelId : Bytes) (source target : MlsClient openMls crypto) : Prop :=
  ∃ calls, Run (Guarded (fun _ call => call.Avoids channelId) Step) source calls target

/-! ## What a client holds -/

/-- A raw key is a key that was imported, and is held as such, too. -/
structure Sound : Prop where
  held : ∀ hex raw, client.rawCeks hex = some raw →
    raw.length = cekLen ∧ client.channelKeys hex = crypto.importKey raw
  pending : ∀ entry ∈ client.importing, entry.2.length = cekLen

theorem sound_new (manager : MlsManager openMls) :
    (new manager : MlsClient openMls crypto).Sound where
  held _ _ absent := by cases absent
  pending _ entryMem := by cases entryMem

variable {client}

theorem Sound.managed (sound : client.Sound) (manager : MlsManager openMls) :
    Sound { client with manager := manager } :=
  ⟨sound.held, sound.pending⟩

theorem Sound.startImport (sound : client.Sound) (channelId : Bytes) {rawKey : Bytes}
    (length : rawKey.length = cekLen) : (client.startImport channelId rawKey).Sound where
  held := sound.held
  pending entry entryMem := by
    rcases List.mem_cons.mp entryMem with rfl | earlier
    · exact length
    · exact sound.pending entry earlier

theorem Sound.finishImport (sound : client.Sound) {channelId rawKey : Bytes}
    (pending : (channelId, rawKey) ∈ client.importing) :
    (client.finishImport channelId rawKey).2.Sound := by
  have fewer : ∀ entry ∈ client.importing.erase (channelId, rawKey), entry.2.length = cekLen :=
    fun entry entryMem => sound.pending entry (List.mem_of_mem_erase entryMem)
  unfold MlsClient.finishImport
  split
  · next key imported =>
      refine ⟨fun hex raw stored => ?_, fewer⟩
      by_cases own : hex = bytesToHex channelId
      · subst own
        simp only [Function.update_self, Option.some.injEq] at stored ⊢
        subst stored
        exact ⟨sound.pending _ pending, imported.symm⟩
      · simp only [Function.update_of_ne own] at stored ⊢
        exact sound.held hex raw stored
  · exact ⟨sound.held, fewer⟩

theorem Sound.step {target : MlsClient openMls crypto} {call : Call} (sound : client.Sound)
    (taken : Step client call target) : target.Sound := by
  cases taken with
  | @createGroup channelId rawKey random =>
      have called := sound.managed (client.manager.createGroup channelId).2
      simp only [MlsClient.createGroup]
      split
      · exact called.startImport channelId random
      · exact called
  | @encryptCekForMember channelId =>
      simp only [MlsClient.encryptCekForMember]
      split
      · exact sound.managed _
      · exact sound
  | @tryDecryptCek channelId ciphertext =>
      have called := sound.managed (client.manager.decrypt channelId ciphertext).2
      simp only [MlsClient.tryDecryptCek]
      split
      · next rawKey isCek =>
          rcases Option.bind_eq_some_iff.mp isCek with ⟨plaintext, -, isCek⟩
          exact called.startImport channelId (length_of_cekOf isCek)
      · exact called
  | imported pending => exact sound.finishImport pending
  | managed => exact sound.managed _

theorem sound_of_run {manager : MlsManager openMls} {calls : List Call}
    (run : Run Step (new manager) calls client) : client.Sound :=
  run.invariant (fun sound taken => sound.step taken) (sound_new manager)

/-! ## Calls for other channels -/

structure Unchanged (channelId : Bytes) (source target : MlsClient openMls crypto) : Prop where
  group : target.manager.group channelId = source.manager.group channelId
  channelKey :
    target.channelKeys (bytesToHex channelId) = source.channelKeys (bytesToHex channelId)
  rawCek : target.rawCeks (bytesToHex channelId) = source.rawCeks (bytesToHex channelId)
  pending : ∀ raw, (channelId, raw) ∈ source.importing → (channelId, raw) ∈ target.importing

theorem Unchanged.refl (channelId : Bytes) (source : MlsClient openMls crypto) :
    Unchanged channelId source source :=
  ⟨rfl, rfl, rfl, fun _ pending => pending⟩

theorem Unchanged.trans {channelId : Bytes} {source middle target : MlsClient openMls crypto}
    (first : Unchanged channelId source middle) (second : Unchanged channelId middle target) :
    Unchanged channelId source target where
  group := second.group.trans first.group
  channelKey := second.channelKey.trans first.channelKey
  rawCek := second.rawCek.trans first.rawCek
  pending raw pending := second.pending raw (first.pending raw pending)

theorem unchanged_call (client : MlsClient openMls crypto) {Value : Type}
    {method : MlsGroupManager.Method openMls Value} {channelId other : Bytes}
    (onlyFor : method.OnlyFor other) (different : other ≠ channelId) :
    Unchanged channelId client { client with manager := (MlsManager.call method client.manager).2 }
    where
  group := MlsManager.group_call_of_ne onlyFor different.symm client.manager
  channelKey := rfl
  rawCek := rfl
  pending _ pending := pending

theorem unchanged_startImport (channelId other rawKey : Bytes) :
    Unchanged channelId client (client.startImport other rawKey) :=
  ⟨rfl, rfl, rfl, fun _ pending => List.mem_cons_of_mem _ pending⟩

theorem unchanged_finishImport {channelId other rawKey : Bytes} (different : other ≠ channelId) :
    Unchanged channelId client (client.finishImport other rawKey).2 := by
  have keyDiffers : bytesToHex channelId ≠ bytesToHex other := by
    intro same
    exact different (bytesToHex_injective same).symm
  have kept : ∀ raw, (channelId, raw) ∈ client.importing →
      (channelId, raw) ∈ client.importing.erase (other, rawKey) := by
    intro raw pending
    refine (List.mem_erase_of_ne ?_).mpr pending
    intro same
    exact different (congrArg Prod.fst same).symm
  unfold MlsClient.finishImport
  split
  · exact ⟨rfl, Function.update_of_ne keyDiffers _ _, Function.update_of_ne keyDiffers _ _, kept⟩
  · exact ⟨rfl, rfl, rfl, kept⟩

theorem unchanged_of_step {target : MlsClient openMls crypto} {channelId : Bytes} {call : Call}
    (sound : client.Sound) (avoids : call.Avoids channelId) (taken : Step client call target) :
    Unchanged channelId client target := by
  cases taken with
  | @createGroup other rawKey _ =>
      have called := client.unchanged_call (MlsGroupManager.onlyFor_createGroup avoids.2) avoids.1
      simp only [MlsClient.createGroup]
      split
      · exact called.trans (unchanged_startImport channelId other rawKey)
      · exact called
  | @encryptCekForMember other =>
      simp only [MlsClient.encryptCekForMember]
      split
      · next raw stored =>
          -- the message is far below the size with which the manager panics
          have fits : (cekPrefix ++ raw).length ≤ maxMessageSize := by
            rw [List.length_append, (sound.held _ raw stored).1]
            decide
          exact client.unchanged_call (MlsGroupManager.onlyFor_encrypt fits) avoids
      · exact Unchanged.refl channelId client
  | @tryDecryptCek other ciphertext =>
      have called := client.unchanged_call (MlsGroupManager.onlyFor_decrypt other ciphertext) avoids
      simp only [MlsClient.tryDecryptCek]
      split
      · exact called.trans (unchanged_startImport channelId other _)
      · exact called
  | imported _ => exact unchanged_finishImport avoids
  | managed => exact absurd avoids not_false

theorem unchanged_of_between {target : MlsClient openMls crypto} {channelId : Bytes}
    (sound : client.Sound) (between : Between channelId client target) :
    target.Sound ∧ Unchanged channelId client target := by
  rcases between with ⟨calls, run⟩
  apply @Run.invariant _ _ _ (fun state => state.Sound ∧ Unchanged channelId client state) _ client
    target calls run
  · exact ⟨sound, Unchanged.refl channelId client⟩
  · intro source call after kept taken
    exact ⟨kept.1.step taken.2, kept.2.trans (unchanged_of_step kept.1 taken.1 taken.2)⟩

/-! ## Handing a key on -/

/-- Both clients hold the raw key, and each reads what the other encrypts. -/
structure ShareKey (channelId raw : Bytes) (left right : MlsClient openMls crypto) : Prop where
  leftRaw : left.rawCeks (bytesToHex channelId) = some raw
  rightRaw : right.rawCeks (bytesToHex channelId) = some raw
  rightReads : ∀ iv plaintext : Bytes, iv.length = Sdk.MlsClient.ivLen →
    (left.encrypt channelId iv plaintext).bind (right.decrypt channelId) = some plaintext
  leftReads : ∀ iv plaintext : Bytes, iv.length = Sdk.MlsClient.ivLen →
    (right.encrypt channelId iv plaintext).bind (left.decrypt channelId) = some plaintext

theorem decrypt_encrypt {sender receiver : MlsClient openMls crypto} {channelId iv : Bytes}
    {key : crypto.Key} (sends : sender.channelKeys (bytesToHex channelId) = some key)
    (receives : receiver.channelKeys (bytesToHex channelId) = some key)
    (ivLength : iv.length = Sdk.MlsClient.ivLen) (plaintext : Bytes) :
    (sender.encrypt channelId iv plaintext).bind (receiver.decrypt channelId) =
      some plaintext := by
  rw [MlsClient.encrypt, sends, Option.map_some, Option.bind_some, MlsClient.decrypt, receives,
    Option.bind_some]
  exact Sdk.MlsClient.decrypt_encrypt (crypto.aead key) ivLength plaintext

theorem shareKey_of_held {left right : MlsClient openMls crypto} {channelId raw : Bytes}
    (leftSound : left.Sound) (rightSound : right.Sound)
    (leftRaw : left.rawCeks (bytesToHex channelId) = some raw)
    (rightRaw : right.rawCeks (bytesToHex channelId) = some raw) :
    ShareKey channelId raw left right := by
  have leftHeld := leftSound.held _ raw leftRaw
  have rightHeld := rightSound.held _ raw rightRaw
  rcases crypto.imports raw leftHeld.1 with ⟨key, imported⟩
  have leftKey := leftHeld.2.trans imported
  have rightKey := rightHeld.2.trans imported
  exact ⟨leftRaw, rightRaw,
    fun iv plaintext length => decrypt_encrypt leftKey rightKey length plaintext,
    fun iv plaintext length => decrypt_encrypt rightKey leftKey length plaintext⟩

@[simp]
theorem rawCeks_encryptCekForMember (channelId : Bytes) :
    (client.encryptCekForMember channelId).2.rawCeks = client.rawCeks := by
  unfold MlsClient.encryptCekForMember
  split <;> rfl

theorem finishImport_eq {channelId rawKey : Bytes} (length : rawKey.length = cekLen) :
    (client.finishImport channelId rawKey).1 = true ∧
      (client.finishImport channelId rawKey).2.rawCeks (bytesToHex channelId) = some rawKey := by
  rcases crypto.imports rawKey length with ⟨key, imported⟩
  simp [MlsClient.finishImport, imported]

theorem tryDecryptCek_of_delivered {channelId ciphertext raw : Bytes} (length : raw.length = cekLen)
    (delivered : (client.manager.decrypt channelId ciphertext).1 = some (cekPrefix ++ raw)) :
    (client.tryDecryptCek channelId ciphertext).1 = true ∧
      (channelId, raw) ∈ (client.tryDecryptCek channelId ciphertext).2.importing := by
  simp [MlsClient.tryDecryptCek, delivered, cekOf_cekPrefix length, MlsClient.startImport]

/-- The key that one member of a group hands to another is then a key that they share, calls
for other channels in between or not. -/
theorem key_handed_on {managerA managerB : MlsManager openMls} {callsA callsB : List Call}
    {a b : MlsClient openMls crypto} {channelId raw : Bytes} {groupA groupB : openMls.Group}
    (runA : Run Step (new managerA) callsA a) (runB : Run Step (new managerB) callsB b)
    (holds : a.rawCeks (bytesToHex channelId) = some raw)
    (memberA : a.manager.group channelId = some groupA)
    (memberB : b.manager.group channelId = some groupB)
    (delivers : openMls.Delivers groupA groupB) :
    ∃ message, (a.encryptCekForMember channelId).1 = some message ∧
      ∀ b₁, Between channelId b b₁ → (b₁.tryDecryptCek channelId message).1 = true ∧
        ∀ b₂, Between channelId (b₁.tryDecryptCek channelId message).2 b₂ →
          (channelId, raw) ∈ b₂.importing ∧ (b₂.finishImport channelId raw).1 = true ∧
            ∀ a₃ b₃, Between channelId (a.encryptCekForMember channelId).2 a₃ →
              Between channelId (b₂.finishImport channelId raw).2 b₃ →
                ShareKey channelId raw a₃ b₃ := by
  have soundA := sound_of_run runA
  have soundB := sound_of_run runB
  have length := (soundA.held _ raw holds).1
  have fits : (cekPrefix ++ raw).length ≤ maxMessageSize := by
    rw [List.length_append, length]
    decide
  rcases MlsManager.delivered delivers fits memberA with ⟨message, sent, received⟩
  refine ⟨message, ?_, ?_⟩
  · rw [MlsClient.encryptCekForMember, holds]
    exact sent
  intro b₁ between₁
  rcases unchanged_of_between soundB between₁ with ⟨sound₁, unchanged₁⟩
  rcases tryDecryptCek_of_delivered length (received b₁.manager (unchanged₁.group.trans memberB))
    with ⟨answer, started⟩
  refine ⟨answer, ?_⟩
  intro b₂ between₂
  have soundReceived := sound₁.step (@Step.tryDecryptCek _ _ b₁ channelId message)
  rcases unchanged_of_between soundReceived between₂ with ⟨sound₂, unchanged₂⟩
  have pending := unchanged₂.pending raw started
  have finished := @finishImport_eq _ _ b₂ channelId raw length
  refine ⟨pending, finished.1, ?_⟩
  intro a₃ b₃ betweenA betweenB
  have soundSent := soundA.step (@Step.encryptCekForMember _ _ a channelId)
  rcases unchanged_of_between soundSent betweenA with ⟨soundA₃, unchangedA⟩
  rcases unchanged_of_between (sound₂.finishImport pending) betweenB with ⟨soundB₃, unchangedB⟩
  apply shareKey_of_held soundA₃ soundB₃
  · rw [unchangedA.rawCek, rawCeks_encryptCekForMember]
    exact holds
  · exact unchangedB.rawCek.trans finished.2

/-! ## A key handed on under a cipher that hides nothing -/

/-- Messages carry their group's id in front of the plaintext. -/
def plainMls : OpenMls where
  Group := Bytes
  Provider := Unit
  build groupId provider := (some groupId, provider)
  createMessage plaintext group provider := (some (group ++ plaintext), group, provider)
  processMessage ciphertext group provider :=
    (if ciphertext.take group.length = group then
      some (.applicationMessage (ciphertext.drop group.length))
    else none, group, provider)

theorem delivers_plainMls (group : Bytes) : plainMls.Delivers group group := by
  intro plaintext _ _
  exact ⟨group ++ plaintext, rfl, fun _ => by simp [plainMls]⟩

def plainCrypto : WebCrypto where
  Key := Bytes
  importKey rawKey := if rawKey.length = 16 ∨ rawKey.length = 32 then some rawKey else none
  aead _ := plainAead
  imports rawKey length := ⟨rawKey, if_pos (Or.inr length)⟩

def emptyManager : MlsManager plainMls :=
  some ⟨(), fun _ => none⟩

def sampleChannelId : Bytes := List.replicate 16 1

def sampleCek : Bytes := List.replicate 32 7

def sampleCreator : MlsClient plainMls plainCrypto :=
  (((new emptyManager).createGroup sampleChannelId sampleCek).finishImport sampleChannelId
    sampleCek).2

/-- The client that has joined the group by its welcome. -/
def sampleJoiner : MlsClient plainMls plainCrypto :=
  { new emptyManager with
    manager := some ⟨(), Function.update (fun _ => none) sampleChannelId (some sampleChannelId)⟩ }

theorem run_sampleCreator : Run Step (new emptyManager)
    [.createGroup sampleChannelId, .imported sampleChannelId] sampleCreator :=
  Run.snoc (Run.snoc Run.refl (.createGroup rfl)) (.imported List.mem_cons_self)

theorem key_handed_on_by_creator : ∃ message,
    (sampleCreator.encryptCekForMember sampleChannelId).1 = some message ∧
      (sampleJoiner.tryDecryptCek sampleChannelId message).1 = true ∧
        ShareKey sampleChannelId sampleCek (sampleCreator.encryptCekForMember sampleChannelId).2
          ((sampleJoiner.tryDecryptCek sampleChannelId message).2.finishImport sampleChannelId
            sampleCek).2 := by
  have joined : Run Step (new emptyManager) [.managed] sampleJoiner :=
    Run.snoc Run.refl .managed
  have member : sampleJoiner.manager.group sampleChannelId = some sampleChannelId := by
    simp only [sampleJoiner, MlsManager.group, Option.bind_some, Function.update_self]
    rfl
  rcases key_handed_on run_sampleCreator joined rfl rfl member
    (delivers_plainMls sampleChannelId) with ⟨message, sent, handed⟩
  rcases handed sampleJoiner ⟨[], Run.refl⟩ with ⟨answer, later⟩
  rcases later _ ⟨[], Run.refl⟩ with ⟨_, _, shared⟩
  exact ⟨message, sent, answer, shared _ _ ⟨[], Run.refl⟩ ⟨[], Run.refl⟩⟩

end MlsClient

end Mercury.Mls
