import Mercury.Gateway.Issued
import Mercury.Mls.ChannelWorld

/-!
# Removing a member

What `Channel.removeMember` hides from the user whose leaf it removes. The commit takes the leaf
out of the group of the device that makes it, and out of another group once its device has
processed the commit; the channel key and the members on the server stay. So the user is cut
off only if there is nothing left to take: the server does not know it, its devices have had no
key of another device, and no `mls:cek` message is sent in an epoch in which it has a leaf.
-/

namespace Mercury.Mls

open Foundations Foundations.Program Persistence Sdk

/-- The commit of a removal is relayed, and the gateway does nothing else. -/
theorem commit_relayed {native : Gateway.Native} {ref topicId : ℕ} {payload : Bytes}
    {info : Gateway.TopicInfo} {socket : Gateway.Socket}
    {taken : Performed Gateway.calls Raise}
    (reaches : (Gateway.dispatchMlsCommit native ref topicId payload info socket).Reaches taken) :
    ∃ topic, taken.call = .broadcastFrom topic Gateway.Event.mlsCommit payload := by
  have relays : (Gateway.dispatchMlsCommit native ref topicId payload info socket).Ensures
      (fun _ => True)
      (fun asked => ∃ topic,
        asked = Gateway.Call.broadcastFrom topic Gateway.Event.mlsCommit payload)
      fun _ => True := by
    unfold Gateway.dispatchMlsCommit
    split
    · refine Ensures.seq ?_ fun pubsub => Ensures.seq (Ensures.ask ⟨pubsub, rfl⟩) fun _ => trivial
      unfold Gateway.fetch
      split <;> trivial
    · trivial
  exact relays.of_reaches reaches

/-! ## The server -/

section Server

variable {tenantId channelId userId : Id16} {before server next : MemberWorld}
  {label : MemberLabel}

/-- The step adds the user to the members. -/
def AddsMember (tenantId channelId userId : Id16) : MemberLabel → Bool
  | .performed _ taken target => adds tenantId channelId userId target taken.call
  | _ => false

/-- The user is in neither the table nor the cache, no call under way brings it back, and the
checks that started after `before` deny it. -/
structure Barred (tenantId channelId userId : Id16) (before server : MemberWorld) : Prop where
  gone : Gone tenantId channelId userId server.store
  fills : ∀ number process, server.processes number = some process →
    FillsSelected tenantId channelId userId process.rest
  checks : ∀ number process, server.processes number = some process →
    before.processes number = none → process.asked = .isMember userId.val →
      ∀ up : Prop, (up → process.raised = false) → process.rest.Ensures
        (GoneReply up tenantId channelId userId) (fun _ => True) (Denied up)

theorem Barred.step (barred : Barred tenantId channelId userId before server)
    (notAdded : AddsMember tenantId channelId userId label = false)
    (step : MemberRunStep tenantId channelId userId server label next) :
    Barred tenantId channelId userId before next := by
  cases step with
  | @called number asked free =>
      refine ⟨barred.gone, fun other process present => ?_,
        fun other process present later isCheck up calm => ?_⟩
      · dsimp only [MemberWorld.begin] at present
        by_cases same : other = number
        · subst same
          cases (Function.update_self ..).symm.trans present
          exact fillsSelected_program asked
        · rw [Function.update_of_ne same] at present
          exact barred.fills other process present
      · dsimp only [MemberWorld.begin] at present
        by_cases same : other = number
        · subst same
          cases (Function.update_self ..).symm.trans present
          cases isCheck
          exact isMember_gone
        · rw [Function.update_of_ne same] at present
          exact barred.checks other process present later isCheck up calm
  | @performed number current command answer rest target present waits does =>
      have fills := barred.fills number current present
      rw [FillsSelected, waits] at fills
      have lacks : OfCommand (SelectLacks tenantId channelId userId) ⟨command, answer⟩ := by
        have answers := barred.gone.answers does
        cases command with
        | command asked =>
            cases asked with
            | selectMemberIds =>
                cases answer with
                | ok ids => exact answers
                | error raised => trivial
            | _ => trivial
        | _ => trivial
      refine ⟨barred.gone.does fills.1 notAdded does, fun other process presentAfter => ?_,
        fun other process presentAfter later isCheck up calm => ?_⟩
      · dsimp only [MemberWorld.perform] at presentAfter
        by_cases same : other = number
        · subst same
          cases (Function.update_self ..).symm.trans presentAfter
          exact fills.2 answer lacks
        · rw [Function.update_of_ne same] at presentAfter
          rcases Option.map_eq_some_iff.mp presentAfter with ⟨process, present, rfl⟩
          exact barred.fills other process present
      · dsimp only [MemberWorld.perform] at presentAfter
        by_cases same : other = number
        · subst same
          cases (Function.update_self ..).symm.trans presentAfter
          have checks := barred.checks other current present later isCheck up fun isUp =>
            (Bool.or_eq_false_iff.mp (calm isUp)).1
          rw [waits] at checks
          exact checks.2 answer ⟨barred.gone.answers does, fun isUp =>
            (Bool.or_eq_false_iff.mp (calm isUp)).2⟩
        · rw [Function.update_of_ne same] at presentAfter
          rcases Option.map_eq_some_iff.mp presentAfter with ⟨process, present, rfl⟩
          exact barred.checks other process present later isCheck up calm
  | @expired key =>
      refine ⟨barred.gone.expires ⟨rfl, fun other => ?_⟩, barred.fills, barred.checks⟩
      by_cases same : other = key
      · exact Or.inr (by rw [same]; exact Function.update_self ..)
      · exact Or.inl (Function.update_of_ne same ..)

/-- The checks of the user that started after `before` answer `false`; one of whose commands
raised answers at least not `true`. -/
def DeniedSince (userId : Id16) (before server : MemberWorld) : Prop :=
  ∀ number process outcome, before.processes number = none →
    server.processes number = some process → process.asked = .isMember userId.val →
      outcome? process.rest = some outcome →
        outcome = .ok (.decided (.ok false)) ∨
          process.raised = true ∧ outcome ≠ .ok (.decided (.ok true))

theorem Barred.denied (barred : Barred tenantId channelId userId before server) :
    DeniedSince userId before server := by
  intro number process outcome later present isCheck ended
  have checks := barred.checks number process present later isCheck (process.raised = false) id
  have denied : Denied (process.raised = false) outcome := by
    cases restEq : process.rest with
    | done reply =>
        rw [restEq] at checks ended
        cases ended
        exact checks
    | fail error =>
        rw [restEq] at checks ended
        cases ended
        exact checks
    | call =>
        rw [restEq] at ended
        cases ended
  exact denied.imp_right fun failed => ⟨by simpa using failed.1, failed.2⟩

theorem processes_perform_self {number : ℕ} {current : MemberProcess} {command : SingleCommand}
    {answer : Except Raise (single.Answer command)}
    {rest : Except Raise (single.Answer command) → Single MemberReply} {target : MemberStore} :
    (server.perform tenantId channelId userId number current command answer rest
        target).processes number =
      some (current.after tenantId channelId userId (rest answer) target command
        (isRaised answer)) := by
  simp only [MemberWorld.perform, Function.update_self]

/-- A check that finds the user in the cache. -/
theorem program_of_listed {members : List Bytes} (listed : userId.val ∈ members) :
    ∃ rest, (MemberCall.isMember userId.val).program tenantId channelId =
        .call (.command (.smembers (Cache.membersKey tenantId.val channelId.val))) rest ∧
      rest (.ok (.ok members)) = .done (.decided (.ok true)) := by
  cases members with
  | nil => cases listed
  | cons head others =>
      refine ⟨_, rfl, ?_⟩
      exact congrArg (fun answer => Program.done (MemberReply.decided (.ok answer)))
        (decide_eq_true listed)

/-- Where the cache lists the user, a check answers that it is a member. -/
theorem listed_check {number : ℕ} (free : server.processes number = none)
    (cached : userId.val ∈ server.store.cache (Cache.membersKey tenantId.val channelId.val)) :
    ∃ called performed middle last,
      MemberRunStep tenantId channelId userId server called middle ∧
      MemberRunStep tenantId channelId userId middle performed last ∧
      AddsMember tenantId channelId userId called = false ∧
      AddsMember tenantId channelId userId performed = false ∧
        ¬DeniedSince userId server last := by
  rcases @program_of_listed tenantId channelId userId _ cached with ⟨rest, waits, answers⟩
  have calls := @MemberRunStep.called tenantId channelId userId server number
    (.isMember userId.val) free
  have begun : (server.begin tenantId channelId number (.isMember userId.val)).processes number =
      some _ := Function.update_self ..
  have lists := @MemberRunStep.performed tenantId channelId userId
    (server.begin tenantId channelId number (.isMember userId.val)) number _
    (.command (.smembers (Cache.membersKey tenantId.val channelId.val)))
    (Except.ok (Except.ok (server.store.cache (Cache.membersKey tenantId.val channelId.val)))) _ _
    begun waits (Does.command (by simp) (Carried.smembers fun id => Iff.rfl))
  refine ⟨_, _, _, _, calls, lists, rfl, rfl, fun denied => ?_⟩
  have ended := denied number _ (.ok (.decided (.ok true))) free processes_perform_self rfl
    (congrArg outcome? answers)
  rcases ended with claimed | ⟨-, claimed⟩
  · cases claimed
  · exact claimed rfl

end Server

/-! ## A removal, and the steps after it -/

section Removal

variable {mls : OpenMlsGroups} {crypto : WebCrypto} (epochs : Epochs mls)
  (providers : ℕ → mls.Provider) (tenantId channelId userId : Id16)

/-- A device removes a leaf of the user, and its commit is sent. -/
structure Removal (remover index : ℕ) (world next : ChannelWorld mls crypto) : Prop where
  step : ChannelStep epochs providers tenantId channelId userId world
    (.called remover (.managed (.removeMember channelId.val index))) next
  leaf : ∃ device group, world.devices remover = some device ∧
    device.client.manager.group channelId.val = some group ∧
      epochs.leaf (epochs.epoch group) index = some userId.val
  resolves : ∃ commit, next.packets = world.packets ++ [.commit channelId.val commit]

/-- Nobody is added, neither to the group nor to the members. -/
def NotAdded (_world : ChannelWorld mls crypto) : ChannelLabel → Prop
  | .called _ (.managed (.addMember ..)) => False
  | .server label => AddsMember tenantId channelId userId label = false
  | _ => True

/-- The condition on the state before the removal: the user has nothing that it would leave. -/
structure LastTrace (world : ChannelWorld mls crypto) : Prop where
  gone : Gone tenantId channelId userId world.server.store
  fills : ∀ number process, world.server.processes number = some process →
    FillsSelected tenantId channelId userId process.rest
  parted : ∀ raw other, other ≠ userId → world.Had userId raw → ¬world.Had other raw
  unread : ∀ ciphertext ∈ world.cekMessages, ∀ epoch plaintext,
    epochs.content ciphertext = some (epoch, plaintext) → ¬epochs.HasLeaf epoch userId.val

/-- The condition on a step after it: a device sends an `mls:cek` message only once its group is
without the user, nobody else pushes what it queued offline, and the user is no new member. -/
def Still (world : ChannelWorld mls crypto) : ChannelLabel → Prop
  | .called id .encryptCekForMember => ∀ device group, world.devices id = some device →
      device.client.manager.group channelId.val = some group →
        ¬epochs.HasLeaf (epochs.epoch group) userId.val
  | .payload id none _ => ∀ device, world.devices id = some device → device.userId = userId
  | .server label => AddsMember tenantId channelId userId label = false
  | _ => True

end Removal

namespace ChannelWorld

variable {mls : OpenMlsGroups} {crypto : WebCrypto} {epochs : Epochs mls}
  {providers : ℕ → mls.Provider} {tenantId channelId userId : Id16}
  {world next final : ChannelWorld mls crypto} {label : ChannelLabel} {remover index : ℕ}

def IsUser (world : ChannelWorld mls crypto) (userId : Id16) (id : ℕ) : Prop :=
  ∃ device, world.devices id = some device ∧ device.userId = userId

/-- Since `next`, the server denies the user, and the others send what is encrypted under keys
that no device of the user has had. -/
structure Secret (userId : Id16) (after : List ChannelLabel)
    (next final : ChannelWorld mls crypto) : Prop where
  denied : DeniedSince userId next.server final.server
  payloads : ∀ id cek bytes, .payload id cek bytes ∈ after → ¬final.IsUser userId id →
    ∃ raw, cek = some raw ∧ EncryptedUnder crypto raw bytes ∧ ¬final.Had userId raw

/-- What the steps keep: no key is with the user and another one, and no message hands one on to
the user. -/
structure Apart (epochs : Epochs mls) (tenantId channelId userId : Id16) (before : MemberWorld)
    (world : ChannelWorld mls crypto) : Prop where
  barred : Barred tenantId channelId userId before world.server
  parted : ∀ raw other, other ≠ userId → world.Had userId raw → ¬world.Had other raw
  unread : ∀ ciphertext ∈ world.cekMessages, ∀ epoch plaintext,
    epochs.content ciphertext = some (epoch, plaintext) → ¬epochs.HasLeaf epoch userId.val

/-- A key that is read was had by somebody else than the user. -/
theorem Apart.had_of_read {before : MemberWorld} (sound : world.Sound epochs)
    (apart : world.Apart epochs tenantId channelId userId before) {ciphertext raw : Bytes}
    {epoch : epochs.Epoch} (sent : ciphertext ∈ world.cekMessages)
    (content : epochs.content ciphertext = some (epoch, cekPrefix ++ raw)) :
    ∃ other, other ≠ userId ∧ world.Had other raw := by
  rcases sound.messages ciphertext sent with ⟨_, _, holder, same, -, had, leaf⟩
  simp only [content, Option.some.injEq, Prod.mk.injEq, List.append_cancel_left_eq] at same
  rcases same with ⟨rfl, rfl⟩
  refine ⟨holder, ?_, had⟩
  rintro rfl
  exact apart.unread ciphertext sent _ _ content leaf

theorem Apart.parted_step {before : MemberWorld} (ideal : epochs.Ideal)
    (sound : world.Sound epochs) (apart : world.Apart epochs tenantId channelId userId before)
    (step : ChannelStep epochs providers tenantId channelId userId world label next) {raw : Bytes}
    {other : Id16} (different : other ≠ userId) (had : next.Had userId raw) :
    ¬next.Had other raw := by
  intro otherHad
  rcases sound.had_of_step ideal step had with
    earlier | ⟨id, device, isCall, present, rfl, new⟩ | ⟨ciphertext, sent, epoch, content, leaf⟩
  · rcases sound.had_of_step ideal step otherHad with
      otherEarlier | ⟨_, _, _, _, _, new⟩ | ⟨ciphertext, sent, epoch, content, -⟩
    · exact apart.parted raw other different earlier otherEarlier
    · exact new userId earlier
    · rcases apart.had_of_read sound sent content with ⟨holder, notUser, held⟩
      exact apart.parted raw holder notUser earlier held
  · rcases sound.had_of_step ideal step otherHad with
      otherEarlier | ⟨_, second, sameCall, secondPresent, owner, -⟩ |
        ⟨ciphertext, sent, epoch, content, -⟩
    · exact new other otherEarlier
    · -- a call draws a key for one device
      cases isCall.symm.trans sameCall
      cases present.symm.trans secondPresent
      exact different owner.symm
    · rcases apart.had_of_read sound sent content with ⟨holder, -, held⟩
      exact new holder held
  · exact apart.unread ciphertext sent epoch _ content leaf

theorem Apart.step {before : MemberWorld} (ideal : epochs.Ideal) (sound : world.Sound epochs)
    (apart : world.Apart epochs tenantId channelId userId before)
    (still : Still epochs tenantId channelId userId world label)
    (step : ChannelStep epochs providers tenantId channelId userId world label next) :
    next.Apart epochs tenantId channelId userId before := by
  have parted : ∀ raw other, other ≠ userId → next.Had userId raw → ¬next.Had other raw :=
    fun raw other different had => apart.parted_step ideal sound step different had
  cases step with
  | connected free named => exact ⟨apart.barred, parted, apart.unread⟩
  | @called id device call present admits =>
      refine ⟨apart.barred, parted, fun ciphertext sent epoch plaintext content => ?_⟩
      rcases List.mem_append.mp sent with earlier | now
      · exact apart.unread ciphertext earlier epoch plaintext content
      · rcases sound.content_of_sent ideal present now with ⟨rfl, group, raw, own, same, -, -, -⟩
        cases content.symm.trans same
        exact still device group present own
  | sent present encrypts => exact apart
  | queued present => exact ⟨apart.barred, parted, apart.unread⟩
  | pushed present waiting encodes => exact apart
  | server taken => exact ⟨apart.barred.step still taken, parted, apart.unread⟩

/-- A removal leaves the server alone, and the user as it was. -/
theorem Apart.of_removal (ideal : epochs.Ideal) (sound : world.Sound epochs)
    (last : LastTrace epochs tenantId channelId userId world)
    (removal : Removal epochs providers tenantId channelId userId remover index world next) :
    next.Apart epochs tenantId channelId userId next.server := by
  have server : next.server = world.server := by
    cases removal.step with
    | called => rfl
  have apart : world.Apart epochs tenantId channelId userId world.server := by
    refine ⟨⟨last.gone, last.fills, ?_⟩, last.parted, last.unread⟩
    intro number process present absent
    cases absent.symm.trans present
  have still : Still epochs tenantId channelId userId world
      (.called remover (.managed (.removeMember channelId.val index))) := trivial
  rw [server]
  exact apart.step ideal sound still removal.step

/-- After a removal of the last trace of a user, the server denies the user, and the others send
under keys that its devices never had, as long as the steps keep to the condition. -/
theorem removal_secret (ideal : epochs.Ideal) {store : MemberStore}
    {before after : List ChannelLabel}
    (earlier : Run (ChannelStep epochs providers tenantId channelId userId) (start store) before
      world)
    (last : LastTrace epochs tenantId channelId userId world)
    (removal : Removal epochs providers tenantId channelId userId remover index world next)
    (later : Run (Guarded (Still epochs tenantId channelId userId)
      (ChannelStep epochs providers tenantId channelId userId)) next after final) :
    Secret userId after next final := by
  have sound := sound_of_run ideal earlier
  have soundNext := sound.step ideal removal.step
  have kept : ∀ {labels} {reached : ChannelWorld mls crypto},
      Run (Guarded (Still epochs tenantId channelId userId)
        (ChannelStep epochs providers tenantId channelId userId)) next labels reached →
      reached.Sound epochs ∧ reached.Apart epochs tenantId channelId userId next.server := by
    intro labels reached run
    apply @Run.invariant _ _ _ (fun state => state.Sound epochs ∧
      state.Apart epochs tenantId channelId userId next.server) _ next reached labels run
    · exact ⟨soundNext, Apart.of_removal ideal sound last removal⟩
    · intro source label target both taken
      exact ⟨both.1.step ideal taken.2, both.2.step ideal both.1 taken.1 taken.2⟩
  refine ⟨(kept later).2.barred.denied, fun id cek bytes sent notUser => ?_⟩
  rcases List.append_of_mem sent with ⟨first, rest, rfl⟩
  rcases later.exists_between with ⟨middle, begins, continues⟩
  rcases continues.uncons with ⟨_, taken, ends⟩
  have keeps : middle.Keeps final := keeps_run continues.of_guarded
  rcases (kept begins).1.payload taken.2 with ⟨device, present, encrypted⟩
  rcases keeps id device present with ⟨now, presentNow, owner, more⟩
  rcases encrypted with ⟨raw, rfl, held, encrypted⟩ | ⟨rfl, -⟩
  · refine ⟨raw, rfl, encrypted, fun had => ?_⟩
    exact (kept later).2.parted raw now.userId (fun isUser => notUser ⟨now, presentNow, isUser⟩)
      had ⟨id, now, presentNow, rfl, more held⟩
  · -- the queue of another device is not pushed
    exact absurd ⟨now, presentNow, owner.trans (taken.1 device present)⟩ notUser

/-- The device that has removed the last leaf of the user in its group may hand the key on. -/
theorem group_of_removal (ideal : epochs.Ideal)
    (removal : Removal epochs providers tenantId channelId userId remover index world next)
    (only : ∀ device group other, world.devices remover = some device →
      device.client.manager.group channelId.val = some group →
        epochs.leaf (epochs.epoch group) other = some userId.val → other = index) :
    ∃ device group, next.devices remover = some device ∧
      device.client.manager.group channelId.val = some group ∧
        ¬epochs.HasLeaf (epochs.epoch group) userId.val := by
  rcases removal with ⟨step, -, commit, resolves⟩
  cases step with
  | @called _ device call present admits =>
      have made : (device.client.manager.removeMember channelId.val index).1.isSome := by
        by_contra fails
        have none_ := Option.not_isSome_iff_eq_none.mp fails
        have sent := List.append_cancel_left resolves
        simp [ChannelCall.perform, GroupCall.perform, none_] at sent
      rcases Option.isSome_iff_exists.mp made with ⟨bytes, removed⟩
      rcases MlsManager.leaf_of_removeMember ideal removed with ⟨group, after, own, later, leaves⟩
      refine ⟨_, after, Function.update_self .., later, ?_⟩
      rintro ⟨other, leaf⟩
      rw [leaves] at leaf
      split at leaf
      · cases leaf
      · next different => exact different (only device group other present own leaf)

/-- A removal hides nothing where another device sends under a key that a device of the user has
had, or has a message in its queue, or where the cache lists the user. -/
theorem exposed_of_held (sound : next.Sound epochs)
    (exposed :
      (∃ id device raw, next.devices id = some device ∧ device.userId ≠ userId ∧
        device.client.rawCeks (bytesToHex channelId.val) = some raw ∧ next.Had userId raw) ∨
      (∃ id device delta, next.devices id = some device ∧ device.userId ≠ userId ∧
        delta ∈ device.queue) ∨
      ∃ number, next.server.processes number = none ∧
        userId.val ∈ next.server.store.cache (Cache.membersKey tenantId.val channelId.val)) :
    ∃ after final, Run (Guarded (NotAdded tenantId channelId userId)
        (ChannelStep epochs providers tenantId channelId userId)) next after final ∧
      ¬Secret userId after next final := by
  have isOther : ∀ {id device}, next.devices id = some device → device.userId ≠ userId →
      ¬next.IsUser userId id := by
    rintro id device present different ⟨found, foundAt, isUser⟩
    cases present.symm.trans foundAt
    exact different isUser
  rcases exposed with ⟨id, device, raw, present, different, holds, had⟩ |
    ⟨id, device, delta, present, different, waiting⟩ | ⟨number, free, cached⟩
  · have held := (sound.devices id device present).client.held _ raw holds
    rcases crypto.imports raw held.1 with ⟨key, imported⟩
    have encrypts : device.client.encrypt channelId.val (List.replicate 12 0) [] = some
        (Sdk.MlsClient.encrypt (crypto.aead key) (List.replicate 12 0) []) := by
      rw [MlsClient.encrypt, held.2, imported, Option.map_some]
    have sends := @ChannelStep.sent _ _ epochs providers tenantId channelId userId next id device
      _ _ _ present encrypts
    have admitted : NotAdded tenantId channelId userId next (.payload id
        (device.client.rawCeks (bytesToHex channelId.val))
        (Sdk.MlsClient.encrypt (crypto.aead key) (List.replicate 12 0) [])) := trivial
    refine ⟨_, next, Run.refl.snoc ⟨admitted, sends⟩, fun secret => ?_⟩
    rcases secret.payloads id _ _ (List.mem_singleton.mpr rfl) (isOther present different) with
      ⟨other, isCek, -, unknown⟩
    cases holds.symm.trans isCek
    exact unknown had
  · rcases (sound.devices id device present).queue delta waiting with
      ⟨content, contentType, msgId, sentAt, rfl⟩
    have pushes := @ChannelStep.pushed _ _ epochs providers tenantId channelId userId next id
      device numberedChannel _ 0 _ present waiting rfl
    have admitted : NotAdded tenantId channelId userId next (.payload id none []) := trivial
    refine ⟨_, next, Run.refl.snoc ⟨admitted, pushes⟩, fun secret => ?_⟩
    rcases secret.payloads id _ _ (List.mem_singleton.mpr rfl) (isOther present different) with
      ⟨_, isCek, -, -⟩
    cases isCek
  · rcases @listed_check tenantId channelId userId next.server number free cached with
      ⟨called, performed, middle, last, calls, lists, callAdds, listAdds, exposes⟩
    have first : Guarded (NotAdded tenantId channelId userId)
        (ChannelStep epochs providers tenantId channelId userId) next (.server called)
        { next with server := middle } := ⟨callAdds, .server calls⟩
    have second : Guarded (NotAdded tenantId channelId userId)
        (ChannelStep epochs providers tenantId channelId userId) { next with server := middle }
        (.server performed) { next with server := last } := ⟨listAdds, .server lists⟩
    exact ⟨_, _, (Run.refl.snoc first).snoc second, fun secret => exposes secret.denied⟩

/-! ### Devices of users 1, 2 and 3 -/

/-- Device 0 belongs to user 1, and so on. -/
def sampleProviders (id : ℕ) : Byte :=
  Fin.ofNat 256 (id + 1)

/-- The steps on channel 7, watched for user 2. -/
abbrev SampleStep := @ChannelStep namedGroups MlsClient.plainCrypto namedEpochs sampleProviders
  (.replicate 1) (.replicate 7) (.replicate 2)

def noMembers : MemberStore where
  table := KeyedTable.empty
  cache _ := []

def sampleGroupId : Bytes := (Id16.replicate 7).val

/-- User 1 has created the group, and added user 2. -/
def twoLeaves : PlainContext :=
  ⟨sampleGroupId, [(0, 1), (0, 2)]⟩

/-- User 2 is removed, and user 3 added. -/
def otherLeaves : PlainContext :=
  ⟨sampleGroupId, [(0, 1), (0, 2), (1, 1), (0, 3)]⟩

def cekMessage (context : PlainContext) : Bytes :=
  0 :: framed context.bytes (cekPrefix ++ MlsClient.sampleCek)

def samplePayload : Bytes :=
  Sdk.MlsClient.encrypt plainAead (List.replicate 12 0) sampleContent

/-- The world after a call of the device. -/
def afterCall (world : ChannelWorld namedGroups MlsClient.plainCrypto) (id : ℕ)
    (call : ChannelCall) : ChannelWorld namedGroups MlsClient.plainCrypto :=
  match world.devices id with
  | some device => world.act id device (call.perform sampleGroupId device.client)
  | none => world

def enterNew (world : ChannelWorld namedGroups MlsClient.plainCrypto) (id : ℕ) (userId : Id16) :
    ChannelWorld namedGroups MlsClient.plainCrypto :=
  world.enter id ⟨userId, MlsClient.new (some ⟨sampleProviders id, fun _ => none⟩), [], []⟩

/-- Device 0 has created the group and added device 1, which has joined it. -/
def welcomed : ChannelWorld namedGroups MlsClient.plainCrypto :=
  ((((enterNew (enterNew (start noMembers) 0 (.replicate 1)) 1 (.replicate 2)).afterCall 0
    (.createGroup MlsClient.sampleCek)).afterCall 0 (.imported MlsClient.sampleCek)).afterCall 0
      (.managed (.addMember sampleGroupId [2]))).afterCall 1
        (.managed (.processWelcome sampleGroupId twoLeaves.bytes))

theorem step_enterNew (source : ChannelWorld namedGroups MlsClient.plainCrypto) (id : ℕ)
    (owner : Id16) (free : source.devices id = none)
    (named : List.replicate 16 (sampleProviders id) = owner.val) :
    SampleStep source (.connected id owner) (source.enterNew id owner) :=
  .connected free named

theorem step_afterCall (source : ChannelWorld namedGroups MlsClient.plainCrypto) (id : ℕ)
    (call : ChannelCall) {device : ChannelDevice namedGroups MlsClient.plainCrypto}
    (present : source.devices id = some device)
    (admits : source.Admits sampleProviders sampleGroupId id device call) :
    SampleStep source (.called id call) (source.afterCall id call) := by
  simp only [afterCall, present]
  exact .called present admits

theorem run_welcomed : ∃ labels, Run SampleStep (start noMembers) labels welcomed := by
  have fresh : ∀ userId, ¬((enterNew (enterNew (start noMembers) 0 (.replicate 1)) 1
      (.replicate 2)).Had userId MlsClient.sampleCek) := by
    intro userId had
    rcases had_of_enter had with had | ⟨-, held⟩
    · rcases had_of_enter had with ⟨_, _, present, _⟩ | ⟨-, held⟩
      · cases present
      · cases held
    · cases held
  exact ⟨_, Run.cons (step_enterNew _ 0 (.replicate 1) rfl rfl) <|
    Run.cons (step_enterNew _ 1 (.replicate 2) rfl rfl) <|
    Run.cons (step_afterCall _ 0 (.createGroup MlsClient.sampleCek) rfl ⟨rfl, fresh⟩) <|
    Run.cons (step_afterCall _ 0 (.imported MlsClient.sampleCek) rfl List.mem_cons_self) <|
    Run.cons (step_afterCall _ 0 (.managed (.addMember sampleGroupId [2])) rfl trivial) <|
    Run.cons (step_afterCall _ 1 (.managed (.processWelcome sampleGroupId twoLeaves.bytes)) rfl
      (List.mem_cons_of_mem _ List.mem_cons_self)) Run.refl⟩

/-- The world in which device 0 has handed the key on to device 1, before the leaf of device 1
is removed. -/
def keyed : ChannelWorld namedGroups MlsClient.plainCrypto :=
  ((welcomed.afterCall 0 .encryptCekForMember).afterCall 1
    (.tryDecryptCek (cekMessage twoLeaves))).afterCall 1 (.imported MlsClient.sampleCek)

theorem run_keyed : ∃ labels, Run SampleStep (start noMembers) labels keyed := by
  rcases run_welcomed with ⟨labels, run⟩
  exact ⟨_, ((run.snoc (step_afterCall _ 0 .encryptCekForMember rfl trivial)).snoc
    (step_afterCall _ 1 (.tryDecryptCek (cekMessage twoLeaves)) rfl List.mem_cons_self)).snoc
      (step_afterCall _ 1 (.imported MlsClient.sampleCek) rfl List.mem_cons_self)⟩

/-- Device 0 removes the leaf of device 1. -/
def withoutSecond (world : ChannelWorld namedGroups MlsClient.plainCrypto) :
    ChannelWorld namedGroups MlsClient.plainCrypto :=
  world.afterCall 0 (.managed (.removeMember sampleGroupId 1))

theorem removal_keyed : Removal namedEpochs sampleProviders (.replicate 1) (.replicate 7)
    (.replicate 2) 0 1 keyed (withoutSecond keyed) where
  step := step_afterCall _ 0 _ rfl trivial
  leaf := ⟨_, _, rfl, rfl, rfl⟩
  resolves := ⟨_, rfl⟩

/-- The device of user 2 is removed, and the other one goes on with the key that both have. -/
theorem removed_reads_on :
    ¬∀ (providers : ℕ → Byte) (tenantId channelId userId : Id16) (store : MemberStore)
        (before after : List ChannelLabel)
        (world next final : ChannelWorld namedGroups MlsClient.plainCrypto) (remover index : ℕ),
      Run (ChannelStep namedEpochs providers tenantId channelId userId) (start store) before
          world →
        Removal namedEpochs providers tenantId channelId userId remover index world next →
          Run (Guarded (NotAdded tenantId channelId userId)
            (ChannelStep namedEpochs providers tenantId channelId userId)) next after final →
              Secret userId after next final := by
  intro hides
  rcases run_keyed with ⟨before, run⟩
  have sound := (sound_of_run ideal_named run).step ideal_named removal_keyed.step
  have held : (withoutSecond keyed).Had (.replicate 2) MlsClient.sampleCek :=
    ⟨1, _, rfl, rfl, List.mem_cons_self⟩
  rcases @exposed_of_held _ _ _ sampleProviders (.replicate 1) (.replicate 7) _ _ sound
    (Or.inl ⟨0, _, MlsClient.sampleCek, rfl, by decide, rfl, held⟩) with
    ⟨after, final, later, exposed⟩
  exact exposed (hides _ _ _ _ _ before after _ _ final 0 1 run removal_keyed later)

theorem removal_welcomed : Removal namedEpochs sampleProviders (.replicate 1) (.replicate 7)
    (.replicate 2) 0 1 welcomed (withoutSecond welcomed) where
  step := step_afterCall _ 0 _ rfl trivial
  leaf := ⟨_, _, rfl, rfl, rfl⟩
  resolves := ⟨_, rfl⟩

/-- Device 1 is in the group, and has had no key. -/
theorem lastTrace_welcomed :
    LastTrace namedEpochs (.replicate 1) (.replicate 7) (.replicate 2) welcomed where
  gone := ⟨by rintro row ⟨⟩, List.not_mem_nil⟩
  fills := by rintro number process ⟨⟩
  parted raw other _ had := by
    -- what the devices have had, from the last step to the first
    rcases had_of_enter had with had | ⟨-, held⟩
    · rcases had_of_enter had with had | ⟨owner, -⟩
      · rcases had_of_enter had with had | ⟨owner, -⟩
        · rcases had_of_enter had with had | ⟨owner, -⟩
          · rcases had_of_enter had with had | ⟨-, held⟩
            · rcases had_of_enter had with ⟨_, _, present, _⟩ | ⟨owner, -⟩
              · cases present
              · cases owner
            · cases held
          · cases owner
        · cases owner
      · cases owner
    · cases held
  unread := by rintro ciphertext ⟨⟩

/-- A step after the removal. -/
abbrev StillStep := Guarded (Still namedEpochs (.replicate 1) (.replicate 7) (.replicate 2))
  SampleStep

/-- Both devices send under the key, and a check of user 2 has ended. -/
structure WentOn (after : List ChannelLabel)
    (final : ChannelWorld namedGroups MlsClient.plainCrypto) : Prop where
  first : .payload 0 (some MlsClient.sampleCek) samplePayload ∈ after
  third : .payload 2 (some MlsClient.sampleCek) samplePayload ∈ after
  checked : ∃ process, final.server.processes 0 = some process ∧
    process.asked = .isMember (Id16.replicate 2).val ∧ (outcome? process.rest).isSome

/-- After the removal user 3 is added, the key is handed on to both devices that ask for it, and
user 2 is checked. -/
theorem exists_wentOn : ∃ after final,
    Run StillStep (withoutSecond welcomed) after final ∧ WentOn after final := by
  refine Run.exists_cons (Guarded.intro (step_enterNew _ 2 (.replicate 3) rfl rfl) trivial) ?_
  refine Run.exists_cons (Guarded.intro (step_afterCall _ 0
    (.managed (.addMember sampleGroupId [3])) rfl trivial) trivial) ?_
  refine Run.exists_cons (Guarded.intro (step_afterCall _ 2
    (.managed (.processWelcome sampleGroupId otherLeaves.bytes)) rfl
      (List.mem_append_right _ (List.mem_cons_of_mem _ List.mem_cons_self))) trivial) ?_
  refine Run.exists_cons (Guarded.intro (step_afterCall _ 0 .encryptCekForMember rfl trivial) ?_) ?_
  · rintro device group present own ⟨index, leaf⟩
    change some _ = some device at present
    cases present
    change some (⟨otherLeaves, none⟩ : PlainGroup) = some group at own
    cases own
    rcases index with _ | _ | _ | index <;> cases leaf
  refine Run.exists_cons (Guarded.intro (step_afterCall _ 1
    (.tryDecryptCek (cekMessage otherLeaves)) rfl List.mem_cons_self) trivial) ?_
  refine Run.exists_cons (Guarded.intro (step_afterCall _ 2
    (.tryDecryptCek (cekMessage otherLeaves)) rfl List.mem_cons_self) trivial) ?_
  refine Run.exists_cons (Guarded.intro (step_afterCall _ 2 (.imported MlsClient.sampleCek) rfl
    List.mem_cons_self) trivial) ?_
  refine Run.exists_cons (Guarded.intro (@ChannelStep.sent _ _ _ _ _ _ _ _ 0 _ (List.replicate 12 0)
    sampleContent samplePayload rfl rfl) trivial) ?_
  refine Run.exists_cons (Guarded.intro (@ChannelStep.sent _ _ _ _ _ _ _ _ 2 _ (List.replicate 12 0)
    sampleContent samplePayload rfl rfl) trivial) ?_
  refine Run.exists_cons (Guarded.intro (.server (@MemberRunStep.called _ _ _ _ 0
    (.isMember (Id16.replicate 2).val) rfl)) rfl) ?_
  refine Run.exists_cons (Guarded.intro (.server (@MemberRunStep.performed _ _ _ _ 0 _ _ _ _ _ rfl
    rfl (Does.command (by simp) (Carried.smembers fun id => Iff.rfl)))) rfl) ?_
  refine Run.exists_cons (Guarded.intro (.server (@MemberRunStep.performed _ _ _ _ 0 _ _ _ _ _ rfl
    rfl (Does.command (by simp) (@Carried.selectMemberIds _ _ _ [] fun id => ?_)))) rfl) ?_
  · refine ⟨fun idMem => (by cases idMem), ?_⟩
    rintro ⟨row, ⟨⟩, -⟩
  exact ⟨[], _, Run.refl, @List.mem_of_getElem? _ _ 7 _ rfl, @List.mem_of_getElem? _ _ 8 _ rfl,
    _, rfl, rfl, rfl⟩

/-- A device that was added but had no key is removed before the key is handed on, and its user
is not on the server. -/
theorem removal_secret_of_unkeyed : ∃ before after final,
    Run SampleStep (start noMembers) before welcomed ∧
      Run StillStep (withoutSecond welcomed) after final ∧ WentOn after final ∧
        Secret (.replicate 2) after (withoutSecond welcomed) final := by
  rcases run_welcomed with ⟨before, earlier⟩
  rcases exists_wentOn with ⟨after, final, later, wentOn⟩
  exact ⟨before, after, final, earlier, later, wentOn,
    removal_secret ideal_named earlier lastTrace_welcomed removal_welcomed later⟩

end ChannelWorld

end Mercury.Mls
