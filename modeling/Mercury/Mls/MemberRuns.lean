import Mercury.Foundations.Editions
import Mercury.Mls.GroupMembers

/-!
# The members of the groups of many devices

The managers of all devices, beside the commits and the Welcomes that they make, which come to
the others in any order, more than once or never. The bound on the members is checked where a
member is added, and holds everywhere. Nothing orders the commits: as long as one device makes
them all, the devices agree on the members, and once two devices have committed in one epoch
they are apart for good.
-/

namespace Mercury.Mls

open Foundations Sdk

/-! ## The managers of all devices -/

/-- A commit or a Welcome, with the group of the channel that it is sent on. -/
inductive Packet where
  | commit (groupId bytes : Bytes)
  | welcome (groupId bytes : Bytes)
deriving DecidableEq

/-- A call of a method. Commits and Welcomes are processed on the channel that they come on. -/
inductive GroupCall where
  | generateKeyPackage
  | createGroup (groupId : Bytes)
  | addMember (groupId keyPackage : Bytes)
  | removeMember (groupId : Bytes) (memberIndex : ℕ)
  | encrypt (groupId plaintext : Bytes)
  | decrypt (groupId ciphertext : Bytes)
  | processWelcome (groupId welcome : Bytes)
  | processCommit (groupId commit : Bytes)
  | memberCount (groupId : Bytes)

/-- The manager after the call, and what is sent. -/
def GroupCall.perform {mls : OpenMlsGroups} (call : GroupCall)
    (manager : MlsManager mls.toOpenMls) : MlsManager mls.toOpenMls × List Packet :=
  match call with
  | .generateKeyPackage => (manager.generateKeyPackage.2, [])
  | .createGroup groupId => ((manager.createGroup groupId).2, [])
  | .addMember groupId keyPackage =>
      let (packed, after) := manager.addMember groupId keyPackage
      match packed.bind unpackAddMember with
      | some made => (after, [.commit groupId made.commit, .welcome groupId made.welcome])
      | none => (after, [])
  | .removeMember groupId memberIndex =>
      let (commit, after) := manager.removeMember groupId memberIndex
      (after, (commit.map (Packet.commit groupId)).toList)
  | .encrypt groupId plaintext => ((manager.encrypt groupId plaintext).2, [])
  | .decrypt groupId ciphertext => ((manager.decrypt groupId ciphertext).2, [])
  | .processWelcome _ welcome => ((manager.processWelcome welcome).2, [])
  | .processCommit groupId commit => ((manager.processCommit groupId commit).2, [])
  | .memberCount groupId => ((manager.memberCount groupId).2, [])

structure Devices (mls : OpenMlsGroups) where
  managers : ℕ → MlsManager mls.toOpenMls
  sent : List Packet

namespace Devices

variable {mls : OpenMlsGroups}

def start (providers : ℕ → mls.Provider) : Devices mls where
  managers device := some ⟨providers device, fun _ => none⟩
  sent := []

def act (devices : Devices mls) (device : ℕ) (done : MlsManager mls.toOpenMls × List Packet) :
    Devices mls where
  managers := Function.update devices.managers device done.1
  sent := devices.sent ++ done.2

def step (devices : Devices mls) (label : ℕ × GroupCall) : Devices mls :=
  devices.act label.1 (label.2.perform (devices.managers label.1))

@[simp]
theorem managers_act_self (devices : Devices mls) (device : ℕ)
    (done : MlsManager mls.toOpenMls × List Packet) :
    (devices.act device done).managers device = done.1 :=
  Function.update_self _ _ _

theorem managers_act_of_ne (devices : Devices mls) {device other : ℕ}
    (done : MlsManager mls.toOpenMls × List Packet) (different : other ≠ device) :
    (devices.act device done).managers other = devices.managers other :=
  Function.update_of_ne different _ _

/-- A commit or a Welcome that is processed was sent on the channel before. -/
def Delivers (devices : Devices mls) (label : ℕ × GroupCall) : Prop :=
  match label.2 with
  | .processWelcome groupId welcome => .welcome groupId welcome ∈ devices.sent
  | .processCommit groupId commit => .commit groupId commit ∈ devices.sent
  | _ => True

instance (devices : Devices mls) :
    (label : ℕ × GroupCall) → Decidable (devices.Delivers label)
  | (_, .processWelcome groupId welcome) =>
      inferInstanceAs (Decidable (Packet.welcome groupId welcome ∈ devices.sent))
  | (_, .processCommit groupId commit) =>
      inferInstanceAs (Decidable (Packet.commit groupId commit ∈ devices.sent))
  | (_, .generateKeyPackage) => inferInstanceAs (Decidable True)
  | (_, .createGroup _) => inferInstanceAs (Decidable True)
  | (_, .addMember _ _) => inferInstanceAs (Decidable True)
  | (_, .removeMember _ _) => inferInstanceAs (Decidable True)
  | (_, .encrypt _ _) => inferInstanceAs (Decidable True)
  | (_, .decrypt _ _) => inferInstanceAs (Decidable True)
  | (_, .memberCount _) => inferInstanceAs (Decidable True)

def Step : Devices mls → ℕ × GroupCall → Devices mls → Prop :=
  Guarded Delivers fun devices label next => devices.step label = next

/-- The devices after the calls, if what these process was sent before. -/
def after (devices : Devices mls) : List (ℕ × GroupCall) → Option (Devices mls) :=
  Run.play (fun devices label => if devices.Delivers label then some (devices.step label) else none)
    devices

theorem run_after {devices next : Devices mls} {labels : List (ℕ × GroupCall)}
    (played : devices.after labels = some next) : Run Step devices labels next := by
  apply (Run.of_play played).mono
  intro source label target taken
  rcases Option.ite_none_right_eq_some.mp taken with ⟨delivers, stepped⟩
  exact ⟨delivers, Option.some.inj stepped⟩

/-! ## The contexts of one group as versions -/

section Tracked

variable {contexts : GroupContexts mls} {devices next : Devices mls}
  {editions : Bytes → Edited ℕ contexts.Context} {label : ℕ × GroupCall}
  {labels : List (ℕ × GroupCall)} {device : ℕ} {groupId : Bytes}

/-- What a call may do to the versions of a group's context. -/
def Acts (label : ℕ × GroupCall) (groupId : Bytes) : Edited.Action ℕ → Prop
  | .found device => label = (device, .createGroup groupId)
  | .edit device => (∃ keyPackage, label = (device, .addMember groupId keyPackage)) ∨
      ∃ memberIndex, label = (device, .removeMember groupId memberIndex)
  | .takeOver device => ∃ commit, label = (device, .processCommit groupId commit)
  | .adopt device => ∃ welcome, label = (device, .processWelcome groupId welcome)

/-- The commit, or the Welcome, is the one of an edit. -/
def Known (editions : Bytes → Edited ℕ contexts.Context) : Packet → Prop
  | .commit groupId bytes => ∃ edit ∈ (editions groupId).edits,
      contexts.Commits bytes edit.source edit.target
  | .welcome groupId bytes => ∃ edit ∈ (editions groupId).edits,
      contexts.Welcomes bytes edit.target

/-- The contexts that a group can have. -/
def Proper (contexts : GroupContexts mls) (groupId : Bytes)
    (held : contexts.Context) : Prop :=
  contexts.groupId held = groupId ∧ (contexts.members held).length ≤ maxGroupMembers

/-- The devices hold the versions, and the packets come from the edits. A device that
panicked holds nothing. -/
structure Tracked (contexts : GroupContexts mls) (devices : Devices mls)
    (editions : Bytes → Edited ℕ contexts.Context) : Prop where
  held : ∀ device manager, devices.managers device = some manager → ∀ groupId,
    contexts.held manager groupId = (editions groupId).version device
  sent : ∀ packet ∈ devices.sent, Known editions packet
  good : ∀ groupId, (editions groupId).AllGood contexts.Edits (Proper contexts groupId)

theorem tracked_start (providers : ℕ → mls.Provider) :
    (start providers).Tracked contexts fun _ => .start := by
  refine ⟨?_, by simp [start], fun _ => Edited.allGood_start⟩
  intro device manager holds groupId
  cases holds
  rfl

theorem founds_proper {first : contexts.Context} (founds : contexts.Founds groupId first) :
    Proper contexts groupId first := by
  refine ⟨founds.1, ?_⟩
  rw [founds.2]
  decide

theorem edits_proper (lawful : contexts.Lawful) {source target : contexts.Context}
    (proper : Proper contexts groupId source) (edits : contexts.Edits source target) :
    Proper contexts groupId target := by
  refine ⟨(lawful.follows_groupId _ _ edits.follows).trans proper.1, ?_⟩
  have before := proper.2
  rcases edits.bounded with ⟨room, grows⟩ | shrinks
  · omega
  · omega

/-- The contexts stay as they are, and nothing is sent. -/
theorem Tracked.still (tracked : devices.Tracked contexts editions)
    {after : MlsManager mls.toOpenMls}
    (same : ∀ later, after = some later → ∃ manager, devices.managers device = some manager ∧
      contexts.held later = contexts.held manager) :
    (devices.act device (after, [])).Tracked contexts editions := by
  refine ⟨fun holder manager holds groupId => ?_, ?_, tracked.good⟩
  · by_cases acts : holder = device
    · subst acts
      rw [managers_act_self] at holds
      rcases same manager holds with ⟨before, held, unchanged⟩
      rw [unchanged]
      exact tracked.held holder before held groupId
    · rw [managers_act_of_ne _ _ acts] at holds
      exact tracked.held holder manager holds groupId
  · simp only [act, List.append_nil]
    exact tracked.sent

/-- The device moves to another version of one group's context. -/
theorem Tracked.moved (lawful : contexts.Lawful) (tracked : devices.Tracked contexts editions)
    {manager later : MlsGroupManager mls.toOpenMls} {packets : List Packet}
    {action : Edited.Action ℕ} {edited : Edited ℕ contexts.Context}
    (holds : devices.managers device = some manager) (acts : action.party = device)
    (taken : Edited.Step (contexts.Founds groupId) contexts.Edits (editions groupId) action edited)
    {target : contexts.Context} (arrives : edited.version device = some target)
    (held : contexts.held later = Function.update (contexts.held manager) groupId (some target))
    (known : ∀ packet ∈ packets, Known (Function.update editions groupId edited) packet) :
    (devices.act device (some later, packets)).Tracked contexts
      (Function.update editions groupId edited) := by
  have grows : ∀ other, (editions other).edits ⊆
      (Function.update editions groupId edited other).edits := by
    intro other
    by_cases same : other = groupId
    · subst same
      rw [Function.update_self]
      exact taken.edits_subset
    · rw [Function.update_of_ne same]
      exact List.Subset.refl _
  refine ⟨fun holder after holdsAfter other => ?_, fun packet packetMem => ?_, fun other => ?_⟩
  · by_cases isDevice : holder = device
    · subst isDevice
      rw [managers_act_self] at holdsAfter
      cases holdsAfter
      rw [held]
      by_cases same : other = groupId
      · subst same
        simp [arrives]
      · simp only [Function.update_of_ne same]
        exact tracked.held holder manager holds other
    · rw [managers_act_of_ne _ _ isDevice] at holdsAfter
      rw [tracked.held holder after holdsAfter other]
      by_cases same : other = groupId
      · subst same
        rw [Function.update_self, taken.version_of_ne (acts ▸ isDevice)]
      · rw [Function.update_of_ne same]
  · rcases List.mem_append.mp packetMem with earlier | new
    · have before := tracked.sent packet earlier
      cases packet with
      | commit other bytes =>
          rcases before with ⟨edit, editMem, commits⟩
          exact ⟨edit, grows other editMem, commits⟩
      | welcome other bytes =>
          rcases before with ⟨edit, editMem, welcomes⟩
          exact ⟨edit, grows other editMem, welcomes⟩
    · exact known packet new
  · by_cases same : other = groupId
    · subst same
      rw [Function.update_self]
      exact (tracked.good other).step (fun _ => founds_proper) (fun _ _ => edits_proper lawful)
        taken
    · rw [Function.update_of_ne same]
      exact tracked.good other

/-- Each group's context moves as the call may move it, or not at all. -/
def Follows (contexts : GroupContexts mls) (label : ℕ × GroupCall)
    (editions later : Bytes → Edited ℕ contexts.Context) : Prop :=
  ∀ groupId, later groupId = editions groupId ∨ ∃ action, Acts label groupId action ∧
    Edited.Step (contexts.Founds groupId) contexts.Edits (editions groupId) action (later groupId)

theorem follows_update {action : Edited.Action ℕ} {edited : Edited ℕ contexts.Context}
    (acts : Acts label groupId action)
    (taken : Edited.Step (contexts.Founds groupId) contexts.Edits (editions groupId) action
      edited) : Follows contexts label editions (Function.update editions groupId edited) := by
  intro other
  by_cases same : other = groupId
  · subst same
    rw [Function.update_self]
    exact Or.inr ⟨action, acts, taken⟩
  · rw [Function.update_of_ne same]
    exact Or.inl rfl

/-- `device` has made the call `label`, and the contexts follow. -/
def Advanced (contexts : GroupContexts mls) (label : ℕ × GroupCall) (next : Devices mls)
    (editions : Bytes → Edited ℕ contexts.Context) : Prop :=
  ∃ later, next.Tracked contexts later ∧ Follows contexts label editions later

theorem Tracked.advances (lawful : contexts.Lawful) (tracked : devices.Tracked contexts editions)
    {manager later : MlsGroupManager mls.toOpenMls} {packets : List Packet} {call : GroupCall}
    {action : Edited.Action ℕ} {edited : Edited ℕ contexts.Context}
    (holds : devices.managers device = some manager)
    (taken : Edited.Step (contexts.Founds groupId) contexts.Edits (editions groupId) action edited)
    (acting : action.party = device) (acts : Acts (device, call) groupId action)
    {target : contexts.Context} (arrives : edited.version device = some target)
    (held : contexts.held later = Function.update (contexts.held manager) groupId (some target))
    (known : ∀ packet ∈ packets, Known (Function.update editions groupId edited) packet) :
    Advanced contexts (device, call) (devices.act device (some later, packets)) editions :=
  ⟨_, tracked.moved lawful holds acting taken arrives held known, follows_update acts taken⟩

theorem Tracked.stays (tracked : devices.Tracked contexts editions) {call : GroupCall}
    {after : MlsManager mls.toOpenMls}
    (same : ∀ later, after = some later → ∃ manager, devices.managers device = some manager ∧
      contexts.held later = contexts.held manager) :
    Advanced contexts (device, call) (devices.act device (after, [])) editions :=
  ⟨editions, tracked.still same, fun _ => Or.inl rfl⟩

/-- A call that leaves the contexts of a manager as they are, or panics. -/
theorem Tracked.called (tracked : devices.Tracked contexts editions) {Value : Type}
    {method : MlsGroupManager.Method mls.toOpenMls Value} {call : GroupCall}
    (same : ∀ manager value after, method manager = some (value, after) →
      contexts.held after = contexts.held manager) :
    Advanced contexts (device, call)
      (devices.act device ((MlsManager.call method (devices.managers device)).2, [])) editions := by
  apply tracked.stays
  intro later isAfter
  rw [MlsManager.call_snd] at isAfter
  rcases Option.map_eq_some_iff.mp isAfter with ⟨⟨value, after⟩, called, rfl⟩
  rcases Option.bind_eq_some_iff.mp called with ⟨manager, holds, ends⟩
  exact ⟨manager, holds, same manager value after ends⟩

theorem Tracked.createGroup (lawful : contexts.Lawful)
    (tracked : devices.Tracked contexts editions) :
    Advanced contexts (device, .createGroup groupId)
      (devices.step (device, .createGroup groupId)) editions := by
  simp only [step, GroupCall.perform, MlsManager.createGroup, MlsManager.call_snd]
  cases called : (devices.managers device).bind (MlsGroupManager.createGroup groupId) with
  | none => exact tracked.stays (by simp)
  | some done =>
      rcases done with ⟨made, after⟩
      rcases Option.bind_eq_some_iff.mp called with ⟨manager, holds, ends⟩
      rcases held_createGroup lawful ends with same | ⟨free, first, founds, held⟩
      · exact tracked.stays fun later isAfter => ⟨manager, holds, by cases isAfter; exact same⟩
      · rw [tracked.held device manager holds groupId] at free
        have taken : Edited.Step (contexts.Founds groupId) contexts.Edits (editions groupId)
            (.found device) ((editions groupId).hold device first) := .found free founds
        exact tracked.advances lawful holds taken rfl rfl (Edited.version_hold_self _ _) held
          (by simp)

/-- The version that a device makes by a commit of its own. -/
noncomputable def edited (editions : Bytes → Edited ℕ contexts.Context) (groupId : Bytes)
    (device : ℕ) (source target : contexts.Context) : Edited ℕ contexts.Context :=
  { (editions groupId).hold device target with
    edits := ⟨source, target⟩ :: (editions groupId).edits }

theorem Tracked.committed (lawful : contexts.Lawful) (tracked : devices.Tracked contexts editions)
    {manager later : MlsGroupManager mls.toOpenMls} {packets : List Packet} {call : GroupCall}
    {source target : contexts.Context} (holds : devices.managers device = some manager)
    (commit : contexts.Commit manager later groupId source target)
    (acts : Acts (device, call) groupId (.edit device))
    (known : ∀ packet ∈ packets,
      Known (Function.update editions groupId (edited editions groupId device source target))
        packet) :
    Advanced contexts (device, call) (devices.act device (some later, packets)) editions := by
  have before := commit.before
  rw [tracked.held device manager holds groupId] at before
  have taken : Edited.Step (contexts.Founds groupId) contexts.Edits (editions groupId)
      (.edit device) (edited editions groupId device source target) := .edit before commit.edits
  exact tracked.advances lawful holds taken rfl acts (Edited.version_hold_self _ _) commit.after
    known

theorem known_commit {commit : Bytes} {source target : contexts.Context}
    (commits : contexts.Commits commit source target) :
    Known (Function.update editions groupId (edited editions groupId device source target))
      (.commit groupId commit) := by
  refine ⟨⟨source, target⟩, ?_, commits⟩
  simp [edited]

theorem known_welcome {welcome : Bytes} {source target : contexts.Context}
    (welcomes : contexts.Welcomes welcome target) :
    Known (Function.update editions groupId (edited editions groupId device source target))
      (.welcome groupId welcome) := by
  refine ⟨⟨source, target⟩, ?_, welcomes⟩
  simp [edited]

theorem Tracked.addMember (lawful : contexts.Lawful) (tracked : devices.Tracked contexts editions)
    {keyPackage : Bytes} :
    Advanced contexts (device, .addMember groupId keyPackage)
      (devices.step (device, .addMember groupId keyPackage)) editions := by
  simp only [step, GroupCall.perform, MlsManager.addMember]
  cases holds : devices.managers device with
  | none => exact tracked.stays (by simp [MlsManager.call])
  | some manager =>
      simp only [MlsManager.call_fst, MlsManager.call_snd, Option.bind_some]
      cases ends : MlsGroupManager.addMember groupId keyPackage manager with
      | none => exact tracked.stays (by simp)
      | some done =>
          rcases done with ⟨made, after⟩
          rcases held_addMember lawful ends with ⟨rfl, same⟩ | ⟨source, target, commit, sound⟩
          · exact tracked.stays fun later isAfter => ⟨manager, holds, by cases isAfter; exact same⟩
          · have acts : Acts (device, .addMember groupId keyPackage) groupId (.edit device) :=
              Or.inl ⟨keyPackage, rfl⟩
            cases made with
            | none => exact tracked.committed lawful holds commit acts (by simp)
            | some result =>
                cases packs : Sdk.MlsManager.packAddMember result with
                | none =>
                    simp only [Option.bind_some, packs, Option.map_none]
                    exact tracked.stays (by simp)
                | some packed =>
                    simp only [Option.bind_some, packs, Option.map_some,
                      unpackAddMember_packAddMember packs]
                    rcases sound result rfl with ⟨commits, welcomes⟩
                    apply tracked.committed lawful holds commit acts
                    intro packet packetMem
                    simp only [List.mem_cons, List.not_mem_nil, or_false] at packetMem
                    rcases packetMem with rfl | rfl
                    · exact known_commit commits
                    · exact known_welcome welcomes

theorem Tracked.removeMember (lawful : contexts.Lawful)
    (tracked : devices.Tracked contexts editions) {memberIndex : ℕ} :
    Advanced contexts (device, .removeMember groupId memberIndex)
      (devices.step (device, .removeMember groupId memberIndex)) editions := by
  simp only [step, GroupCall.perform, MlsManager.removeMember, MlsManager.call_fst,
    MlsManager.call_snd]
  cases called : (devices.managers device).bind
      (MlsGroupManager.removeMember groupId memberIndex) with
  | none => exact tracked.stays (by simp)
  | some done =>
      rcases done with ⟨made, after⟩
      rcases Option.bind_eq_some_iff.mp called with ⟨manager, holds, ends⟩
      rcases held_removeMember lawful ends with ⟨rfl, same⟩ | ⟨source, target, commit, sound⟩
      · exact tracked.stays fun later isAfter => ⟨manager, holds, by cases isAfter; exact same⟩
      · apply tracked.committed lawful holds commit (Or.inr ⟨memberIndex, rfl⟩)
        intro packet packetMem
        simp only [Option.bind_some, Option.mem_toList, Option.map_eq_some_iff] at packetMem
        rcases packetMem with ⟨bytes, isMade, rfl⟩
        exact known_commit (sound bytes isMade)

theorem Tracked.processWelcome (lawful : contexts.Lawful)
    (tracked : devices.Tracked contexts editions) {welcome : Bytes}
    (sent : .welcome groupId welcome ∈ devices.sent) :
    Advanced contexts (device, .processWelcome groupId welcome)
      (devices.step (device, .processWelcome groupId welcome)) editions := by
  simp only [step, GroupCall.perform, MlsManager.processWelcome, MlsManager.call_snd]
  cases called : (devices.managers device).bind (MlsGroupManager.processWelcome welcome) with
  | none => exact tracked.stays (by simp)
  | some done =>
      rcases done with ⟨joined, after⟩
      rcases Option.bind_eq_some_iff.mp called with ⟨manager, holds, ends⟩
      rcases tracked.sent _ sent with ⟨edit, made, welcomes⟩
      have sameId := ((tracked.good groupId).made edit made).2.1
      rcases held_processWelcome lawful welcomes ends with same | held
      · exact tracked.stays fun later isAfter => ⟨manager, holds, by cases isAfter; exact same⟩
      · rw [sameId] at held
        have taken : Edited.Step (contexts.Founds groupId) contexts.Edits (editions groupId)
            (.adopt device) ((editions groupId).hold device edit.target) := .adopt made
        exact tracked.advances lawful holds taken rfl ⟨welcome, rfl⟩ (Edited.version_hold_self _ _)
          held (by simp)

theorem Tracked.processCommit (lawful : contexts.Lawful)
    (tracked : devices.Tracked contexts editions) {commit : Bytes}
    (sent : .commit groupId commit ∈ devices.sent) :
    Advanced contexts (device, .processCommit groupId commit)
      (devices.step (device, .processCommit groupId commit)) editions := by
  simp only [step, GroupCall.perform, MlsManager.processCommit, MlsManager.call_snd]
  cases called : (devices.managers device).bind (MlsGroupManager.processCommit groupId commit) with
  | none => exact tracked.stays (by simp)
  | some done =>
      rcases done with ⟨merged, after⟩
      rcases Option.bind_eq_some_iff.mp called with ⟨manager, holds, ends⟩
      rcases tracked.sent _ sent with ⟨edit, made, commits⟩
      rcases held_processCommit lawful commits ends with same | ⟨before, held⟩
      · exact tracked.stays fun later isAfter => ⟨manager, holds, by cases isAfter; exact same⟩
      · rw [tracked.held device manager holds groupId] at before
        have taken : Edited.Step (contexts.Founds groupId) contexts.Edits (editions groupId)
            (.takeOver device) ((editions groupId).hold device edit.target) := .takeOver made before
        exact tracked.advances lawful holds taken rfl ⟨commit, rfl⟩ (Edited.version_hold_self _ _)
          held (by simp)

/-- One step of the devices moves each group's context as its versions may move. -/
theorem Tracked.step (lawful : contexts.Lawful) (tracked : devices.Tracked contexts editions)
    (taken : Step devices label next) : Advanced contexts label next editions := by
  rcases taken with ⟨delivers, rfl⟩
  rcases label with ⟨device, call⟩
  cases call with
  | generateKeyPackage =>
      apply tracked.called
      intro manager value after ends
      cases ends
      rfl
  | createGroup groupId => exact tracked.createGroup lawful
  | addMember groupId keyPackage => exact tracked.addMember lawful
  | removeMember groupId memberIndex => exact tracked.removeMember lawful
  | encrypt groupId plaintext => exact tracked.called fun _ _ _ => held_encrypt lawful
  | decrypt groupId ciphertext => exact tracked.called fun _ _ _ => held_decrypt lawful
  | processWelcome groupId welcome => exact tracked.processWelcome lawful delivers
  | processCommit groupId commit => exact tracked.processCommit lawful delivers
  | memberCount groupId =>
      apply tracked.called
      intro manager value after ends
      split at ends
      · cases ends
        rfl
      · split at ends
        · cases ends
          rfl
        · cases ends

/-- A run of the devices is a run of the versions of each group's context. -/
theorem Tracked.run (lawful : contexts.Lawful) (tracked : devices.Tracked contexts editions)
    (run : Run Step devices labels next) :
    ∃ later, next.Tracked contexts later ∧ ∀ groupId, ∃ actions,
      Run (Edited.Step (contexts.Founds groupId) contexts.Edits) (editions groupId) actions
        (later groupId) ∧
      ∀ action ∈ actions, ∃ label ∈ labels, Acts label groupId action := by
  induction run with
  | refl => exact ⟨editions, tracked, fun _ => ⟨[], Run.refl, by simp⟩⟩
  | @snoc _ _ labels label earlier last ih =>
      rcases ih with ⟨middle, trackedMiddle, runs⟩
      rcases trackedMiddle.step lawful last with ⟨later, trackedLater, follows⟩
      refine ⟨later, trackedLater, fun groupId => ?_⟩
      rcases runs groupId with ⟨actions, run, acted⟩
      have actedEarlier : ∀ action ∈ actions, ∃ before ∈ labels ++ [label],
          Acts before groupId action := by
        intro action actionMem
        rcases acted action actionMem with ⟨before, beforeMem, acts⟩
        exact ⟨before, List.mem_append_left _ beforeMem, acts⟩
      rcases follows groupId with same | ⟨action, acts, taken⟩
      · rw [same]
        exact ⟨actions, run, actedEarlier⟩
      · refine ⟨actions ++ [action], run.snoc taken, fun other otherMem => ?_⟩
        rcases List.mem_append.mp otherMem with before | now
        · exact actedEarlier other before
        · cases List.mem_singleton.mp now
          exact ⟨label, by simp, acts⟩

/-- The context that a device holds is its version. -/
theorem Tracked.version (tracked : devices.Tracked contexts editions) {group : mls.Group}
    (holds : (devices.managers device).group groupId = some group) :
    (editions groupId).version device = some (contexts.context group) := by
  rcases Option.bind_eq_some_iff.mp holds with ⟨manager, isManager, groupEq⟩
  rw [← tracked.held device manager isManager groupId, GroupContexts.held, groupEq,
    Option.map_some]

/-- Device 0 creates a group, adds device 1, which joins, and another member. -/
def growing : List (ℕ × GroupCall) :=
  [(0, .createGroup [7]), (0, .addMember [7] [5]),
    (1, .processWelcome [7] (PlainContext.bytes ⟨[7], [(0, 5)]⟩)), (0, .addMember [7] [6])]

/-- Device 1 takes over the commit. -/
def grown : List (ℕ × GroupCall) :=
  growing ++ [(1, .processCommit [7] (1 :: PlainContext.bytes ⟨[7], [(0, 5), (0, 6)]⟩))]

def grownGroup : PlainGroup :=
  ⟨⟨[7], [(0, 5), (0, 6)]⟩, none⟩

theorem exists_grown : ∃ devices : Devices plainGroups,
    Run Step (start fun _ => ()) grown devices ∧
      (devices.managers 0).group [7] = some grownGroup ∧
      (devices.managers 1).group [7] = some grownGroup :=
  ⟨_, run_after rfl, rfl, rfl⟩

/-! ## The bound -/

/-- However the groups came about, none has more members than `add_member` admits, and
`memberCount` can tell their number. -/
theorem groups_bounded (lawful : contexts.Lawful) {providers : ℕ → mls.Provider}
    (run : Run Step (start providers) labels devices) {group : mls.Group}
    (holds : (devices.managers device).group groupId = some group) :
    (mls.members group).length ≤ maxGroupMembers ∧
      ((devices.managers device).memberCount groupId).1 = some (mls.members group).length := by
  rcases (tracked_start providers).run lawful run with ⟨editions, tracked, _⟩
  have proper := (tracked.good groupId).held device _ (tracked.version holds)
  have few : (mls.members group).length ≤ maxGroupMembers := by
    rw [lawful.members_eq]
    exact proper.2
  refine ⟨few, ?_⟩
  rcases Option.bind_eq_some_iff.mp holds with ⟨manager, isManager, groupEq⟩
  have fits : (mls.members group).length < 2 ^ 32 := by
    simp only [maxGroupMembers] at few
    omega
  simp only [MlsManager.memberCount, MlsManager.call_fst, isManager, Option.bind_some,
    MlsGroupManager.memberCount, groupEq, Option.map_some, if_pos fits]

theorem groups_bounded_grown : ∃ devices : Devices plainGroups,
    Run Step (start fun _ => ()) grown devices ∧
      (plainGroups.members grownGroup).length ≤ maxGroupMembers ∧
        ((devices.managers 1).memberCount [7]).1 = some 3 := by
  rcases exists_grown with ⟨devices, run, _, holds⟩
  exact ⟨devices, run, groups_bounded lawful_plain run holds⟩

/-! ## One device that commits -/

/-- Only the committer creates the group and makes commits for it, and it does not join it. -/
def CommittedBy (committer : ℕ) (groupId : Bytes) (label : ℕ × GroupCall) : Prop :=
  match label.2 with
  | .createGroup other => other = groupId → label.1 = committer
  | .addMember other _ => other = groupId → label.1 = committer
  | .removeMember other _ => other = groupId → label.1 = committer
  | .processWelcome other _ => other = groupId → label.1 ≠ committer
  | _ => True

theorem CommittedBy.byEditor {committer : ℕ} (committed : CommittedBy committer groupId label)
    {action : Edited.Action ℕ} (acts : Acts label groupId action) : action.ByEditor committer := by
  cases action with
  | found device =>
      cases acts
      exact committed rfl
  | edit device =>
      rcases acts with ⟨keyPackage, rfl⟩ | ⟨memberIndex, rfl⟩
      · exact committed rfl
      · exact committed rfl
  | takeOver device => trivial
  | adopt device =>
      rcases acts with ⟨welcome, rfl⟩
      exact committed rfl

theorem epoch_lt (lawful : contexts.Lawful) (source target : contexts.Context)
    (edits : contexts.Edits source target) : contexts.epoch source < contexts.epoch target := by
  have next := lawful.follows_epoch source target edits.follows
  omega

/-- Where one device makes all commits of a group, the devices in one epoch have the same
members, and no device is ahead of the one that commits. -/
theorem members_agree (lawful : contexts.Lawful) {providers : ℕ → mls.Provider}
    (run : Run Step (start providers) labels devices) {committer : ℕ}
    (sole : ∀ label ∈ labels, CommittedBy committer groupId label) {left right : ℕ}
    {leftGroup rightGroup : mls.Group}
    (leftHolds : (devices.managers left).group groupId = some leftGroup)
    (rightHolds : (devices.managers right).group groupId = some rightGroup) :
    (contexts.epoch (contexts.context leftGroup) = contexts.epoch (contexts.context rightGroup) →
        contexts.context leftGroup = contexts.context rightGroup ∧
          mls.members leftGroup = mls.members rightGroup) ∧
      (right = committer → contexts.epoch (contexts.context leftGroup) ≤
        contexts.epoch (contexts.context rightGroup)) := by
  rcases (tracked_start providers).run lawful run with ⟨editions, tracked, runs⟩
  rcases runs groupId with ⟨actions, versions, acted⟩
  have byEditor : ∀ action ∈ actions, action.ByEditor committer := by
    intro action actionMem
    rcases acted action actionMem with ⟨label, labelMem, acts⟩
    exact (sole label labelMem).byEditor acts
  rcases Edited.chained_run (epoch_lt lawful) versions byEditor with ⟨chain, chained⟩
  have leftMem := chained.held left _ (tracked.version leftHolds)
  have rightMem := chained.held right _ (tracked.version rightHolds)
  refine ⟨fun sameEpoch => ?_, ?_⟩
  · have same := chained.eq_of_stage_eq leftMem rightMem sameEpoch
    refine ⟨same, ?_⟩
    rw [lawful.members_eq, lawful.members_eq, same]
  · rintro rfl
    exact chained.le_last leftMem (tracked.version rightHolds)

theorem members_agree_grown : ∃ (devices : Devices plainGroups) (joiner creator : PlainGroup),
    Run Step (start fun _ => ()) grown devices ∧
      (devices.managers 1).group [7] = some joiner ∧
      (devices.managers 0).group [7] = some creator ∧
      plainContexts.context joiner = plainContexts.context creator ∧
        plainGroups.members joiner = plainGroups.members creator := by
  rcases exists_grown with ⟨devices, run, creator, joiner⟩
  have sole : ∀ label ∈ grown, CommittedBy 0 [7] label := by
    simp [grown, growing, CommittedBy]
  exact ⟨devices, grownGroup, grownGroup, run, joiner, creator,
    (members_agree lawful_plain run sole joiner creator).1 rfl⟩

/-! ## Two devices that commit at once -/

/-- Two devices that are in one epoch with different contexts, as they are when both have
committed in the epoch before, stay apart until one of them joins again: each rejects every
commit that the other makes. -/
theorem forks_stay (lawful : contexts.Lawful) {providers : ℕ → mls.Provider}
    {earlier later : List (ℕ × GroupCall)} {source : Devices mls}
    (reached : Run Step (start providers) earlier source) {left right : ℕ}
    {leftGroup rightGroup leftLater rightLater : mls.Group}
    (leftHolds : (source.managers left).group groupId = some leftGroup)
    (rightHolds : (source.managers right).group groupId = some rightGroup)
    (sameEpoch : contexts.epoch (contexts.context leftGroup) =
      contexts.epoch (contexts.context rightGroup))
    (forked : contexts.context leftGroup ≠ contexts.context rightGroup)
    (run : Run Step source later devices)
    (unwelcomed : ∀ label ∈ later, ∀ welcome, label ≠ (left, .processWelcome groupId welcome) ∧
      label ≠ (right, .processWelcome groupId welcome))
    (leftStays : (devices.managers left).group groupId = some leftLater)
    (rightStays : (devices.managers right).group groupId = some rightLater) :
    contexts.context leftLater ≠ contexts.context rightLater ∧
      ∀ commit target, contexts.Commits commit (contexts.context leftLater) target →
        ∀ provider, mls.stagedCommit commit rightLater provider = none := by
  rcases (tracked_start providers).run lawful reached with ⟨before, trackedBefore, _⟩
  rcases trackedBefore.run lawful run with ⟨editions, tracked, runs⟩
  rcases runs groupId with ⟨actions, versions, acted⟩
  have different : left ≠ right := by
    rintro rfl
    exact forked (congrArg _ (Option.some.inj (leftHolds.symm.trans rightHolds)))
  have split : (before groupId).Split contexts.Edits left right :=
    ⟨_, _, trackedBefore.version leftHolds, trackedBefore.version rightHolds,
      Edited.apart_of_stage_eq (epoch_lt lawful) sameEpoch forked⟩
  have made : (before groupId).AllGood contexts.Edits fun _ => True :=
    ⟨fun _ _ _ => trivial, fun edit isMade =>
      ⟨((trackedBefore.good groupId).made edit isMade).1, trivial⟩⟩
  have stay : ∀ action ∈ actions, action ≠ .adopt left ∧ action ≠ .adopt right := by
    intro action actionMem
    rcases acted action actionMem with ⟨label, labelMem, acts⟩
    refine ⟨?_, ?_⟩
    · rintro rfl
      rcases acts with ⟨welcome, isWelcome⟩
      exact (unwelcomed label labelMem welcome).1 isWelcome
    · rintro rfl
      rcases acts with ⟨welcome, isWelcome⟩
      exact (unwelcomed label labelMem welcome).2 isWelcome
  have parents : ∀ first second target, contexts.Edits first target →
      contexts.Edits second target → first = second := fun first second target one two =>
    lawful.follows_parent first second target one.follows two.follows
  rcases Edited.split_run parents different made split stay versions with
    ⟨held, other, leftVersion, rightVersion, apart⟩
  cases leftVersion.symm.trans (tracked.version leftStays)
  cases rightVersion.symm.trans (tracked.version rightStays)
  refine ⟨apart.ne, fun commit target commits provider => ?_⟩
  by_contra accepted
  rcases Option.ne_none_iff_exists'.mp accepted with ⟨staged, isStaged⟩
  exact apart.ne (commits rightLater provider staged isStaged).1.symm

/-- Both devices add a member once device 1 has joined. -/
def forked : List (ℕ × GroupCall) :=
  growing ++ [(1, .addMember [7] [9])]

def forkedGroup (member : Byte) : PlainGroup :=
  ⟨⟨[7], [(0, 5), (0, member)]⟩, none⟩

/-- Each processes the commit of the other. -/
def crossed : List (ℕ × GroupCall) :=
  [(0, .processCommit [7] (1 :: PlainContext.bytes ⟨[7], [(0, 5), (0, 9)]⟩)),
    (1, .processCommit [7] (1 :: PlainContext.bytes ⟨[7], [(0, 5), (0, 6)]⟩))]

theorem forks_stay_crossed : ∃ source devices : Devices plainGroups,
    Run Step (start fun _ => ()) forked source ∧ Run Step source crossed devices ∧
      plainContexts.context (forkedGroup 6) ≠ plainContexts.context (forkedGroup 9) ∧
        plainGroups.stagedCommit (1 :: PlainContext.bytes ⟨[7], [(0, 5), (0, 6), (0, 2)]⟩)
          (forkedGroup 9) () = none := by
  have played : ∃ source : Devices plainGroups, (start fun _ => ()).after forked = some source ∧
      (source.managers 0).group [7] = some (forkedGroup 6) ∧
      (source.managers 1).group [7] = some (forkedGroup 9) ∧
      ∃ devices, source.after crossed = some devices ∧
        (devices.managers 0).group [7] = some (forkedGroup 6) ∧
        (devices.managers 1).group [7] = some (forkedGroup 9) :=
    ⟨_, rfl, rfl, rfl, _, rfl, rfl, rfl⟩
  rcases played with ⟨source, reached, left, right, devices, later, leftStays, rightStays⟩
  have unwelcomed : ∀ label ∈ crossed, ∀ welcome, label ≠ (0, .processWelcome [7] welcome) ∧
      label ≠ (1, .processWelcome [7] welcome) := by
    simp [crossed]
  have different : plainContexts.context (forkedGroup 6) ≠
      plainContexts.context (forkedGroup 9) := by
    intro same
    have changes : [((0 : Byte), (5 : Byte)), (0, 6)] = [(0, 5), (0, 9)] :=
      congrArg PlainContext.changes same
    exact absurd changes (by decide)
  have apart := forks_stay lawful_plain (run_after reached) left right rfl different
    (run_after later) unwelcomed leftStays rightStays
  exact ⟨source, devices, run_after reached, run_after later, apart.1,
    apart.2 _ _ (commits_plain ⟨[7], [(0, 5), (0, 6)]⟩ (0, 2)) ()⟩

end Tracked

end Devices

end Mercury.Mls
