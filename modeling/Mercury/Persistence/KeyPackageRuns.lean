import Mercury.Persistence.KeyPackages

/-!
# Key packages are single use

Any number of calls of `KeyPackages.upload` and `KeyPackages.consume` on one device, each in a
session of its own. A consume erases the package of the upload that was committed last when it
took the lock of the row, and returns it; no other consume returns that package.
-/

namespace Mercury.Persistence

open Foundations Foundations.LockedRow

inductive KeyPackageCall where
  | upload (keyPackage : Bytes)
  | consume

namespace KeyPackageCall

def program : KeyPackageCall → KeyPackages.Queries KeyPackageReply
  | .upload keyPackage => KeyPackages.upload keyPackage
  | .consume => KeyPackages.consume

def isUpload : KeyPackageCall → Bool
  | .upload _ => true
  | .consume => false

def spec : KeyPackageCall → RowSpec (Option Bytes) Raise KeyPackageReply
  | .upload keyPackage => KeyPackages.uploadSpec keyPackage
  | .consume => KeyPackages.consumeSpec

theorem upholds_program (call : KeyPackageCall) : Upholds call.spec call.program none [] := by
  cases call with
  | upload keyPackage => exact KeyPackages.upholds_upload keyPackage
  | consume => exact KeyPackages.upholds_consume

end KeyPackageCall

abbrev DeviceRow := LockedRow (Option Bytes) Raise KeyPackageReply

abbrev DeviceEvents := List (ℕ × RowEvent (Option Bytes))

/-- The calls on a device that has no key package yet, or is not in the table. -/
def DeviceRow.start (calls : ℕ → KeyPackageCall) (registered : Bool) : DeviceRow where
  row := if registered then some none else none
  lock := none
  sessions index := ⟨(calls index).program, none⟩

namespace DeviceRow

def Returns (device : DeviceRow) (index : ℕ) (reply : KeyPackageReply) : Prop :=
  (device.sessions index).program = .done reply

/-- The upload that is committed last. -/
def lastUpload (calls : ℕ → KeyPackageCall) (labels : DeviceEvents) : Option ℕ :=
  (((writes labels).map Prod.fst).filter fun index => (calls index).isUpload).getLast?

/-- The session takes the lock after the labels `before`, and only then. -/
def TakesLock (index : ℕ) (before labels : DeviceEvents) : Prop :=
  ∃ value after, labels = before ++ (index, .locked value) :: after ∧
    ∀ other, (index, .locked other) ∉ before ∧ (index, .locked other) ∉ after

/-- The consume returns the package of the upload, which is the last one that was committed
when it took the lock. -/
structure Consumes (calls : ℕ → KeyPackageCall) (labels : DeviceEvents) (device : DeviceRow)
    (consumer upload : ℕ) (keyPackage : Bytes) : Prop where
  consumes : calls consumer = .consume
  returned : device.Returns consumer (.consumed keyPackage)
  uploads : calls upload = .upload keyPackage
  last : ∃ before, TakesLock consumer before labels ∧ lastUpload calls before = some upload

section

variable {calls : ℕ → KeyPackageCall} {registered : Bool} {labels before after : DeviceEvents}
  {device : DeviceRow} {index : ℕ}

theorem upholds_calls (run : Run Step (start calls registered) labels device) (index : ℕ) :
    ∃ own, Upholds (calls index).spec (device.sessions index).program own (acts index labels) :=
  upholds_of_run rfl (fun _ => rfl) (fun index => (calls index).upholds_program) run index

theorem acts_of_consumed (run : Run Step (start calls registered) labels device)
    (consumes : calls index = .consume) {keyPackage : Bytes}
    (returned : device.Returns index (.consumed keyPackage)) :
    acts index labels = [.locked (some keyPackage), .wrote none] := by
  rcases upholds_calls run index with ⟨own, upholds⟩
  rw [consumes, returned] at upholds
  exact upholds

theorem wrote_of_consumed (run : Run Step (start calls registered) labels device)
    (consumes : calls index = .consume) {keyPackage : Bytes}
    (returned : device.Returns index (.consumed keyPackage)) :
    (index, .committed (some none)) ∈ labels := by
  apply mem_acts_wrote.mp
  rw [acts_of_consumed run consumes returned]
  simp

/-- A consume that has written the row has erased the package that it returns. -/
theorem consumed_of_wrote (run : Run Step (start calls registered) labels device)
    (consumes : calls index = .consume) {value : Option Bytes}
    (wrote : (index, .committed (some value)) ∈ labels) :
    value = none ∧ ∃ keyPackage, device.Returns index (.consumed keyPackage) := by
  rcases upholds_calls run index with ⟨own, upholds⟩
  rw [consumes] at upholds
  have acted := mem_acts_wrote.mpr wrote
  rcases during_or_after upholds with during | ⟨outcome, ended, afterwards⟩
  · exact absurd acted (during value)
  · rcases outcome with raised | (_ | _ | keyPackage | _)
    case ok.consumed =>
      have done : acts index labels = [.locked (some keyPackage), .wrote none] := afterwards
      rw [done] at acted
      exact ⟨by simpa using acted, keyPackage, ended⟩
    all_goals exact absurd acted (afterwards value)

/-- An upload that has written the row has written its package, once. -/
theorem uploaded_of_wrote (run : Run Step (start calls registered) labels device)
    {keyPackage : Bytes} (uploads : calls index = .upload keyPackage) {value : Option Bytes}
    (wrote : (index, .committed (some value)) ∈ labels) :
    value = some keyPackage ∧
      ∃ found, acts index labels = [.locked found, .wrote (some keyPackage)] := by
  rcases upholds_calls run index with ⟨own, upholds⟩
  rw [uploads] at upholds
  have acted := mem_acts_wrote.mpr wrote
  rcases during_or_after upholds with during | ⟨outcome, ended, afterwards⟩
  · exact absurd acted (during value)
  · rcases outcome with raised | (_ | _ | keyPackage | _)
    case ok.uploaded =>
      rcases afterwards with ⟨found, done⟩
      rw [done] at acted
      exact ⟨by simpa using acted, found, done⟩
    all_goals exact absurd acted (afterwards value)

/-! ## What a consume erases -/

theorem takesLock_of_acts {value written : Option Bytes}
    (acted : acts index labels = [.locked value, .wrote written])
    (split : labels = before ++ (index, .locked value) :: after) :
    TakesLock index before labels := by
  have parts : acts index before ++ .locked value :: acts index after =
      [.locked value, .wrote written] := by
    rw [← acts_append_cons (act_locked index value), ← split, acted]
  have alone : acts index before = [] ∧ acts index after = [.wrote written] := by
    rcases earlier : acts index before with _ | ⟨first, _ | ⟨second, rest⟩⟩ <;>
      simp_all
  refine ⟨value, after, split, fun other => ⟨fun taken => ?_, fun taken => ?_⟩⟩
  · have mem := mem_acts_locked.mpr taken
    simp [alone.1] at mem
  · have mem := mem_acts_locked.mpr taken
    simp [alone.2] at mem

/-- A package on the row is that of the upload that was committed last. -/
theorem last_of_newest (run : Run Step (start calls registered) labels device)
    {keyPackage : Bytes} (among : ∀ label ∈ before, label ∈ labels)
    (stored : newest (start calls registered).row before = some (some keyPackage)) :
    ∃ upload, (writes before).getLast? = some (upload, some keyPackage) ∧
      calls upload = .upload keyPackage ∧ lastUpload calls before = some upload := by
  rcases last : (writes before).getLast? with _ | ⟨upload, value⟩
  · rw [newest, last] at stored
    cases registered <;> cases stored
  · rw [newest, last] at stored
    cases stored
    have wrote := mem_writes.mp (List.mem_of_getLast? last)
    have inRun := among _ wrote
    have uploads : calls upload = .upload keyPackage := by
      cases call : calls upload with
      | consume => exact absurd (consumed_of_wrote run call inRun).1 (Option.some_ne_none _)
      | upload own =>
          have same := (uploaded_of_wrote run call inRun).1
          cases same
          rfl
    refine ⟨upload, rfl, uploads, ?_⟩
    rcases List.getLast?_eq_some_iff.mp last with ⟨earlier, split⟩
    simp [lastUpload, split, uploads, KeyPackageCall.isUpload]

/-- What the commit of a consume erases is the package that it returns. -/
theorem erases_consumed (run : Run Step (start calls registered) labels device)
    (consumes : calls index = .consume) {value : Option Bytes}
    (split : labels = before ++ (index, .committed (some value)) :: after) :
    value = none ∧ ∃ upload keyPackage,
      (writes before).getLast? = some (upload, some keyPackage) ∧
        Consumes calls labels device index upload keyPackage := by
  have wrote : (index, .committed (some value)) ∈ labels := split ▸ List.mem_append_cons_self
  rcases consumed_of_wrote run consumes wrote with ⟨valueEq, keyPackage, returned⟩
  have acted := acts_of_consumed run consumes returned
  have cut := run
  rw [split] at cut
  rcases writes_of_committed rfl cut with ⟨earlier, found, later, rfl, none, stored⟩
  have splitLocked : labels = earlier ++ (index, .locked found) ::
      (later ++ (index, .committed (some value)) :: after) := by
    rw [split, List.append_assoc, List.cons_append]
  have taken : .locked found ∈ acts index labels :=
    mem_acts_locked.mpr (splitLocked ▸ List.mem_append_cons_self)
  obtain rfl : found = some keyPackage := by
    rw [acted] at taken
    simpa using taken
  have among : ∀ label ∈ earlier, label ∈ labels := by
    intro label labelMem
    rw [splitLocked]
    exact List.mem_append_left _ labelMem
  rcases last_of_newest run among stored with ⟨upload, last, uploads, lastEq⟩
  refine ⟨valueEq, upload, keyPackage, ?_, consumes, returned, uploads, earlier, ?_, lastEq⟩
  · rw [writes_append, writes_cons rfl, none, List.append_nil]
    exact last
  · exact takesLock_of_acts acted splitLocked

theorem exists_consumes (run : Run Step (start calls registered) labels device)
    (consumes : calls index = .consume) {keyPackage : Bytes}
    (returned : device.Returns index (.consumed keyPackage)) :
    ∃ upload, Consumes calls labels device index upload keyPackage := by
  rcases List.append_of_mem (wrote_of_consumed run consumes returned) with ⟨before, after, split⟩
  rcases (erases_consumed run consumes split).2 with ⟨upload, other, -, consumption⟩
  have same := returned.symm.trans consumption.returned
  cases same
  exact ⟨upload, consumption⟩

/-! ## A package is returned once -/

theorem takesLock_unique {first second : DeviceEvents} (one : TakesLock index first labels)
    (other : TakesLock index second labels) : first = second := by
  rcases one with ⟨value, after, split, only⟩
  rcases other with ⟨value', after', split', -⟩
  exact ((List.append_cons_inj_of_notMem (only value').1 (only value').2).mp
    (split.symm.trans split')).1

theorem commits_once (run : Run Step (start calls registered) labels device) {keyPackage : Bytes}
    (uploads : calls index = .upload keyPackage)
    (split : labels = before ++ (index, .committed (some (some keyPackage))) :: after) :
    (index, .committed (some (some keyPackage))) ∉ before ∧
      (index, .committed (some (some keyPackage))) ∉ after := by
  have wrote : (index, .committed (some (some keyPackage))) ∈ labels :=
    split ▸ List.mem_append_cons_self
  rcases (uploaded_of_wrote run uploads wrote).2 with ⟨found, acted⟩
  have parts : acts index before ++ .wrote (some keyPackage) :: acts index after =
      [.locked found, .wrote (some keyPackage)] := by
    rw [← acts_append_cons (act_committed index _), ← split, acted]
  have alone : acts index before = [.locked found] ∧ acts index after = [] := by
    rcases earlier : acts index before with _ | ⟨first, _ | ⟨second, rest⟩⟩ <;>
      simp_all
  refine ⟨fun committed => ?_, fun committed => ?_⟩
  · have mem := mem_acts_wrote.mpr committed
    simp [alone.1] at mem
  · have mem := mem_acts_wrote.mpr committed
    simp [alone.2] at mem

/-- The first to write the row after the upload is the consume that returns its package. -/
theorem erases_next (run : Run Step (start calls registered) labels device) {upload : ℕ}
    {keyPackage : Bytes} (consumption : Consumes calls labels device index upload keyPackage) :
    ∃ before after, labels = before ++ (upload, .committed (some (some keyPackage))) :: after ∧
      (writes after).head? = some (index, none) := by
  have wrote := wrote_of_consumed run consumption.consumes consumption.returned
  rcases List.append_of_mem wrote with ⟨earlier, later, split⟩
  rcases (erases_consumed run consumption.consumes split).2 with ⟨other, package, last, same⟩
  obtain rfl : upload = other := by
    rcases consumption.last with ⟨before, locked, lastEq⟩
    rcases same.last with ⟨before', locked', lastEq'⟩
    rw [takesLock_unique locked locked'] at lastEq
    exact Option.some.inj (lastEq.symm.trans lastEq')
  obtain rfl : keyPackage = package := by
    have packages := consumption.uploads.symm.trans same.uploads
    cases packages
    rfl
  rcases exists_last_write last with ⟨before, between, rfl, none⟩
  refine ⟨before, between ++ (index, .committed (some Option.none)) :: later, ?_, ?_⟩
  · rw [split, List.append_assoc, List.cons_append]
  · rw [writes_append, none, List.nil_append]
    rfl

theorem consumed_once (run : Run Step (start calls registered) labels device)
    {consumer other upload : ℕ} {keyPackage otherPackage : Bytes}
    (consumption : Consumes calls labels device consumer upload keyPackage)
    (otherConsumption : Consumes calls labels device other upload otherPackage) :
    consumer = other := by
  obtain rfl : keyPackage = otherPackage := by
    have packages := consumption.uploads.symm.trans otherConsumption.uploads
    cases packages
    rfl
  rcases erases_next run consumption with ⟨before, after, split, next⟩
  rcases erases_next run otherConsumption with ⟨before', after', split', next'⟩
  have only := commits_once run consumption.uploads split
  rcases (List.append_cons_inj_of_notMem only.1 only.2).mp (split.symm.trans split') with
    ⟨-, -, rfl⟩
  exact congrArg Prod.fst (Option.some.inj (next.symm.trans next'))

/-! ## What is stored -/

/-- The package of the upload is what was committed last. -/
def Stores (labels : DeviceEvents) (device : DeviceRow) (upload : ℕ) (keyPackage : Bytes) : Prop :=
  (writes labels).getLast? = some (upload, some keyPackage) ∧ device.row = some (some keyPackage)

def Replaces (calls : ℕ → KeyPackageCall) (labels : DeviceEvents) : Prop :=
  ∃ upload keyPackage, calls upload = .upload keyPackage ∧
    (upload, .committed (some (some keyPackage))) ∈ labels

theorem stored_or_consumed (run : Run Step (start calls registered) labels device)
    {keyPackage : Bytes}
    (split : labels = before ++ (index, .committed (some (some keyPackage))) :: after) :
    Stores labels device index keyPackage ∨ Replaces calls after ∨
      ∃ consumer, Consumes calls labels device consumer index keyPackage := by
  have versions : writes labels = writes before ++ (index, some keyPackage) :: writes after := by
    rw [split, writes_append]
    rfl
  rcases first : (writes after).head? with _ | ⟨next, value⟩
  · left
    have last : (writes labels).getLast? = some (index, some keyPackage) := by
      rw [versions, List.head?_eq_none_iff.mp first, List.getLast?_concat]
    refine ⟨last, ?_⟩
    rw [row_of_run run, newest, last]
    rfl
  right
  rcases exists_first_write first with ⟨between, rest, rfl, none⟩
  have wrote : (next, .committed (some value)) ∈ labels := by simp [split]
  cases call : calls next with
  | upload otherPackage =>
      have valueEq := (uploaded_of_wrote run call wrote).1
      exact Or.inl ⟨next, otherPackage, call, by simp [valueEq]⟩
  | consume =>
      right
      have splitNext : labels = (before ++ (index, .committed (some (some keyPackage))) :: between)
          ++ (next, .committed (some value)) :: rest := by
        rw [split, List.append_assoc, List.cons_append]
      rcases (erases_consumed run call splitNext).2 with ⟨upload, package, last, consumption⟩
      have own : writes (before ++ (index, .committed (some (some keyPackage))) :: between) =
          writes before ++ [(index, some keyPackage)] := by
        rw [writes_append]
        exact congrArg (fun rest => writes before ++ (index, some keyPackage) :: rest) none
      rw [own, List.getLast?_concat] at last
      cases last
      exact ⟨next, consumption⟩

/-! ## Single use -/

structure SingleUse (calls : ℕ → KeyPackageCall) (labels : DeviceEvents) (device : DeviceRow) :
    Prop where
  /-- A consume returns the package of the last upload that was committed when it took the
  lock. -/
  last : ∀ consumer keyPackage, calls consumer = .consume →
    device.Returns consumer (.consumed keyPackage) →
      ∃ upload, Consumes calls labels device consumer upload keyPackage
  once : ∀ consumer other upload keyPackage otherPackage,
    Consumes calls labels device consumer upload keyPackage →
      Consumes calls labels device other upload otherPackage → consumer = other
  /-- What a consume writes is no package, over the one that it returns. -/
  erases : ∀ consumer value before after, calls consumer = .consume →
    labels = before ++ (consumer, .committed (some value)) :: after →
      value = none ∧ ∃ upload keyPackage,
        (writes before).getLast? = some (upload, some keyPackage) ∧
          Consumes calls labels device consumer upload keyPackage
  /-- A package is stored until a later upload replaces it or a consume returns it. -/
  stored : ∀ upload keyPackage before after, calls upload = .upload keyPackage →
    labels = before ++ (upload, .committed (some (some keyPackage))) :: after →
      Stores labels device upload keyPackage ∨ Replaces calls after ∨
        ∃ consumer, Consumes calls labels device consumer upload keyPackage

end

theorem key_packages_single_use {calls : ℕ → KeyPackageCall} {registered : Bool}
    {labels : DeviceEvents} {device : DeviceRow}
    (run : Run Step (start calls registered) labels device) : SingleUse calls labels device where
  last _ _ consumes returned := exists_consumes run consumes returned
  once _ _ _ _ _ consumption otherConsumption := consumed_once run consumption otherConsumption
  erases _ _ _ _ consumes split := erases_consumed run consumes split
  stored _ _ _ _ _ split := stored_or_consumed run split

/-! ## An upload during a consume -/

def sampleCalls (index : ℕ) : KeyPackageCall :=
  if index = 0 then .upload [1] else .consume

/-- A consume begins, the upload is carried out, and the consume goes on. -/
def sampleEvents : DeviceEvents :=
  [(1, .started), (0, .started), (0, .locked none), (0, .answered), (0, .started),
    (0, .committed (some (some [1]))), (1, .answered), (1, .started), (1, .locked (some [1])),
    (1, .answered), (1, .started), (1, .answered), (1, .started), (1, .committed (some none))]

theorem exists_sampleRun : ∃ device : DeviceRow,
    Run Step (start sampleCalls true) sampleEvents device ∧ device.row = some none ∧
      device.Returns 1 (.consumed [1]) := by
  refine ⟨?device, ?run, ?row, ?reply⟩
  case run =>
    apply Run.cons (.started rfl)
    apply Run.cons (.started rfl)
    apply Run.cons (.locked rfl trivial rfl rfl)
    apply Run.cons (.updated rfl trivial rfl rfl)
    apply Run.cons (.started rfl)
    apply Run.cons (.committed rfl)
    apply Run.cons (.begun rfl)
    apply Run.cons (.started rfl)
    apply Run.cons (.locked rfl rfl rfl rfl)
    apply Run.cons (.selected rfl rfl rfl)
    apply Run.cons (.started rfl)
    apply Run.cons (.updated rfl trivial rfl rfl)
    apply Run.cons (.started rfl)
    apply Run.cons (.committed rfl)
    exact Run.refl
  case row => rfl
  case reply => rfl

theorem single_use_during_consume : ∃ device upload,
    Run Step (start sampleCalls true) sampleEvents device ∧
      Consumes sampleCalls sampleEvents device 1 upload [1] := by
  rcases exists_sampleRun with ⟨device, run, -, returned⟩
  rcases (key_packages_single_use run).last 1 [1] rfl returned with ⟨upload, consumption⟩
  exact ⟨device, upload, run, consumption⟩

/-- What is uploaded while a consume runs is still stored after it, or has been replaced. -/
def Outlives (calls : ℕ → KeyPackageCall) (labels : DeviceEvents) (device : DeviceRow) : Prop :=
  ∀ consumer upload keyPackage reply before after, calls consumer = .consume →
    calls upload = .upload keyPackage →
      labels = before ++ (upload, .committed (some (some keyPackage))) :: after →
        (∃ event, (consumer, event) ∈ before) → (∃ event, (consumer, event) ∈ after) →
          device.Returns consumer reply →
            Stores labels device upload keyPackage ∨ Replaces calls after

/-- A consume that takes the lock after the upload erases its package, too. -/
theorem erased_by_running_consume : ¬∀ calls registered labels device,
    Run Step (start calls registered) labels device → Outlives calls labels device := by
  intro outlives
  rcases exists_sampleRun with ⟨device, run, erased, returned⟩
  rcases outlives sampleCalls true sampleEvents device run 1 0 [1] _ (sampleEvents.take 5)
    (sampleEvents.drop 6) rfl rfl rfl ⟨.started, List.mem_cons_self⟩
    ⟨.answered, List.mem_cons_self⟩ returned with stores | ⟨upload, keyPackage, -, replaced⟩
  · cases erased.symm.trans stores.2
  · simp [sampleEvents] at replaced

end DeviceRow

end Mercury.Persistence
