import Mercury.Gateway.Stores

/-!
# How a joiner is added to the group

The creator of a group and one client that joins its channel. The join is announced
twice, when the topic is joined and when the key package is uploaded, and each time
the creator adds the first key package that it finds for the user. Before the upload
that is one of an earlier join, if there is any.
-/

namespace Mercury.Mls

open Foundations Gateway

/-! ## The parties -/

/-- The device that joins, and the key package that it uploads. -/
structure Join where
  tenantId : Id16
  userId : Id16
  deviceId : Id16
  keyPackage : Bytes

/-- The broadcasts on which the creator adds a member. -/
inductive Trigger where
  | presenceJoin
  | keyPackage
deriving DecidableEq

/-- How far a broadcast and the `addNewMember` that it starts have come. -/
inductive AddCall where
  | silent
  /-- The broadcast is on its way to the creator. -/
  | announced
  /-- `mls:fetch_kp` is on its way to the stores. -/
  | fetching
  | fetched (packages : List Bytes)
  | ended
deriving DecidableEq

inductive JoinProgress where
  | started
  | joinedTopic
  | uploaded
  | announced
deriving DecidableEq

/-- The leaves of the group are known by their key packages. -/
structure AddWorld where
  stores : Stores
  progress : JoinProgress
  calls : Trigger → AddCall
  group : List Bytes
  /-- The key packages of the creator's Add commits, the newest last. -/
  commits : List Bytes

def maxGroupMembers : ℕ := 1000

/-- `MlsGroupManager::add_member`. `accepts` is OpenMLS. -/
def addMember (accepts : List Bytes → Bytes → Bool) (group : List Bytes) (keyPackage : Bytes) :
    Option (List Bytes) :=
  if maxGroupMembers ≤ group.length then none
  else if accepts group keyPackage then some (group ++ [keyPackage])
  else none

/-- The key packages that the stores hold for the user. -/
def Join.packages (join : Join) (stores : Stores) : List Bytes :=
  (stores.devices.rows.filter fun row =>
    row.tenantId = join.tenantId ∧ row.userId = join.userId).filterMap DeviceRow.mlsKeyPackage

/-- `KeyPackages.fetch`, up to the order of the packages. -/
theorem Join.performNext_fetch {join : Join} {moment : Moment} {stores : Stores}
    (carried : moment.fate = .carried) :
    performNext moment stores (KeyPackages.fetch join.tenantId.val join.userId.val) =
      some (.done (join.packages stores), stores) := by
  simp only [KeyPackages.fetch, Id16.ofBytes_val, performNext, send, Program.perform, carried,
    Fate.answer, Fate.applies, Stores.execute, if_true, packages]

/-- The stores after a device of the tenant uploaded a key package. -/
def upload (stores : Stores) (tenantId deviceId : Id16) (keyPackage : Bytes) : Stores :=
  { stores with
    devices := stores.devices.modify (DeviceRow.withKeyPackage tenantId deviceId keyPackage)
      (DeviceRow.key_withKeyPackage tenantId deviceId keyPackage) }

/-- `KeyPackages.upload` to a device that there is. -/
theorem performNext_upload {moment : Moment} {stores : Stores} {tenantId deviceId : Id16}
    {keyPackage : Bytes} (carried : moment.fate = .carried)
    (known : ∃ row ∈ stores.devices.rows, row.tenantId = tenantId ∧ row.deviceId = deviceId) :
    performNext moment stores (KeyPackages.upload tenantId.val deviceId.val keyPackage) =
      some (.done (.ok ()), upload stores tenantId deviceId keyPackage) := by
  have counted : 0 < (stores.devices.rows.filter fun row =>
      row.tenantId = tenantId ∧ row.deviceId = deviceId).length := by
    rcases known with ⟨row, rowMem, isDevice⟩
    exact List.length_pos_of_mem (List.mem_filter.mpr ⟨rowMem, by simpa using isDevice⟩)
  simp only [KeyPackages.upload, Id16.ofBytes_val]
  rw [performNext_send, carried]
  simp only [Fate.answer, Fate.applies, Stores.execute, if_pos counted, if_true]
  rfl

/-- The key packages of the device: its own, and the one that is stored when it joins. -/
def Join.devicePackages (join : Join) (stores : Stores) : List Bytes :=
  join.keyPackage :: (stores.devices.rows.filter fun row =>
    row.tenantId = join.tenantId ∧ row.deviceId = join.deviceId).filterMap
      DeviceRow.mlsKeyPackage

namespace AddWorld

/-- The client has not joined the topic yet. -/
def start (stores : Stores) (group : List Bytes) : AddWorld where
  stores := stores
  progress := .started
  calls _ := .silent
  group := group
  commits := []

def setCall (world : AddWorld) (trigger : Trigger) (call : AddCall) : AddWorld :=
  { world with calls := Function.update world.calls trigger call }

/-- The topic is joined, and the gateway broadcasts `presence:join`. -/
def joinTopic (world : AddWorld) : AddWorld :=
  { world.setCall .presenceJoin .announced with progress := .joinedTopic }

/-- The key package of the join is stored. -/
def uploadOwn (world : AddWorld) (join : Join) : AddWorld :=
  { world with
    stores := upload world.stores join.tenantId join.deviceId join.keyPackage
    progress := .uploaded }

/-- The gateway broadcasts `mls:key_package`. -/
def announce (world : AddWorld) : AddWorld :=
  { world.setCall .keyPackage .announced with progress := .announced }

/-- The creator commits to an Add, unless that throws. -/
def commitAdd (accepts : List Bytes → Bytes → Bool) (world : AddWorld) (keyPackage : Bytes) :
    AddWorld :=
  match addMember accepts world.group keyPackage with
  | none => world
  | some group => { world with group := group, commits := world.commits ++ [keyPackage] }

/-- `addNewMember` goes on with the reply to its fetch: the first package is added. -/
def addNewMember (accepts : List Bytes → Bytes → Bool) (world : AddWorld)
    (packages : List Bytes) : AddWorld :=
  match packages.head? with
  | none => world
  | some keyPackage => world.commitAdd accepts keyPackage

end AddWorld

inductive AddLabel where
  | joinedTopic
  | uploaded
  | announced
  /-- A broadcast arrives, and the creator starts `addNewMember`. -/
  | delivered (trigger : Trigger)
  | fetched (trigger : Trigger) (packages : List Bytes)
  | added (trigger : Trigger)
  | otherUploaded (deviceId : Id16) (keyPackage : Bytes)
  | otherAdded (keyPackage : Bytes)

/-- The creator is online and ready: it takes every broadcast, and its pushes are answered.
The packages come in any order. -/
inductive AddStep (join : Join) (accepts : List Bytes → Bytes → Bool) :
    AddWorld → AddLabel → AddWorld → Prop where
  | joinedTopic {world : AddWorld} (progress : world.progress = .started) :
      AddStep join accepts world .joinedTopic world.joinTopic
  | uploaded {world : AddWorld} (progress : world.progress = .joinedTopic)
      (known : ∃ row ∈ world.stores.devices.rows,
        row.tenantId = join.tenantId ∧ row.deviceId = join.deviceId) :
      AddStep join accepts world .uploaded (world.uploadOwn join)
  | announced {world : AddWorld} (progress : world.progress = .uploaded) :
      AddStep join accepts world .announced world.announce
  | delivered {world : AddWorld} {trigger : Trigger}
      (waits : world.calls trigger = .announced) :
      AddStep join accepts world (.delivered trigger) (world.setCall trigger .fetching)
  | fetched {world : AddWorld} {trigger : Trigger} {packages : List Bytes}
      (asks : world.calls trigger = .fetching)
      (found : packages.Perm (join.packages world.stores)) :
      AddStep join accepts world (.fetched trigger packages)
        (world.setCall trigger (.fetched packages))
  | added {world : AddWorld} {trigger : Trigger} {packages : List Bytes}
      (replied : world.calls trigger = .fetched packages) :
      AddStep join accepts world (.added trigger)
        ((world.addNewMember accepts packages).setCall trigger .ended)
  /-- Another device uploads a key package. -/
  | otherUploaded {world : AddWorld} {deviceId : Id16} {keyPackage : Bytes}
      (other : deviceId ≠ join.deviceId) :
      AddStep join accepts world (.otherUploaded deviceId keyPackage)
        { world with stores := upload world.stores join.tenantId deviceId keyPackage }
  /-- The creator adds a member for another join. -/
  | otherAdded {world : AddWorld} {keyPackage : Bytes} :
      AddStep join accepts world (.otherAdded keyPackage) (world.commitAdd accepts keyPackage)

/-! ## What is committed -/

namespace AddWorld

variable {join : Join} {accepts : List Bytes → Bytes → Bool} {own : List Bytes}
  {world next : AddWorld} {trigger : Trigger} {keyPackage : Bytes} {packages : List Bytes}

/-- The group has room for the package, and OpenMLS accepts it. -/
def Admits (accepts : List Bytes → Bytes → Bool) (world : AddWorld) (keyPackage : Bytes) :
    Prop :=
  world.group.length < maxGroupMembers ∧ accepts world.group keyPackage = true

theorem commitAdd_of_admits (admits : world.Admits accepts keyPackage) :
    world.commitAdd accepts keyPackage =
      { world with
        group := world.group ++ [keyPackage]
        commits := world.commits ++ [keyPackage] } := by
  simp [commitAdd, addMember, Nat.not_le.mpr admits.1, admits.2]

theorem commitAdd_of_not_admits (rejects : ¬world.Admits accepts keyPackage) :
    world.commitAdd accepts keyPackage = world := by
  have refused : addMember accepts world.group keyPackage = none := by
    unfold addMember
    split
    · rfl
    · next room =>
        apply if_neg
        intro accepted
        exact rejects ⟨Nat.not_le.mp room, accepted⟩
  rw [commitAdd, refused]

theorem commits_commitAdd :
    (world.commitAdd accepts keyPackage).commits = world.commits ∧
        ¬world.Admits accepts keyPackage ∨
      (world.commitAdd accepts keyPackage).commits = world.commits ++ [keyPackage] ∧
        world.Admits accepts keyPackage := by
  by_cases admits : world.Admits accepts keyPackage
  · rw [commitAdd_of_admits admits]
    exact Or.inr ⟨rfl, admits⟩
  · rw [commitAdd_of_not_admits admits]
    exact Or.inl ⟨rfl, admits⟩

/-- Every broadcast of the join is handled. -/
def Completed (world : AddWorld) : Prop :=
  ∀ trigger, world.calls trigger = .ended

/-- Among the packages of the device, the creator has committed to that of the join, once. -/
def AddedOnce (join : Join) (own : List Bytes) (world : AddWorld) : Prop :=
  (world.commits.filter fun keyPackage => keyPackage ∈ own) = [join.keyPackage]

/-- The package is no older one of the device, unless the group rejects it. -/
def Fresh (join : Join) (accepts : List Bytes → Bytes → Bool) (own : List Bytes)
    (world : AddWorld) (keyPackage : Bytes) : Prop :=
  keyPackage ∈ own → world.Admits accepts keyPackage → keyPackage = join.keyPackage

/-- The creator adds no older package of the device, and by the last of the two calls that
of the join. -/
def Orderly (join : Join) (accepts : List Bytes → Bytes → Bool) (own : List Bytes)
    (world : AddWorld) : AddLabel → Prop
  | .added trigger => ∀ packages, world.calls trigger = .fetched packages →
      (∀ keyPackage, packages.head? = some keyPackage →
          world.Fresh join accepts own keyPackage) ∧
        ((∀ other, other ≠ trigger → world.calls other = .ended) →
          join.keyPackage ∈ world.commits ∨
            packages.head? = some join.keyPackage ∧ world.Admits accepts join.keyPackage)
  | .otherAdded keyPackage => world.Fresh join accepts own keyPackage
  | _ => True

/-- What every orderly run keeps. -/
structure Adding (join : Join) (own : List Bytes) (world : AddWorld) : Prop where
  members : ∀ keyPackage ∈ world.commits, keyPackage ∈ world.group
  once : join.keyPackage ∉ world.commits ∧
      (world.commits.filter fun keyPackage => keyPackage ∈ own) = [] ∨
    world.AddedOnce join own
  completed : world.Completed → join.keyPackage ∈ world.commits

theorem Adding.of_same (adding : world.Adding join own) (sameGroup : next.group = world.group)
    (sameCommits : next.commits = world.commits)
    (still : next.Completed → world.Completed) : next.Adding join own where
  members := by
    rw [sameGroup, sameCommits]
    exact adding.members
  once := by
    rw [AddedOnce, sameCommits]
    exact adding.once
  completed completed := by
    rw [sameCommits]
    exact adding.completed (still completed)

/-- A call that is not over. -/
theorem not_completed_setCall {call : AddCall} (goesOn : call ≠ .ended) :
    ¬(world.setCall trigger call).Completed := by
  intro completed
  exact goesOn ((Function.update_self _ _ _).symm.trans (completed trigger))

theorem AddedOnce.mem (once : world.AddedOnce join own) : join.keyPackage ∈ world.commits := by
  have mem : join.keyPackage ∈ world.commits.filter fun keyPackage => keyPackage ∈ own := by
    rw [AddedOnce] at once
    rw [once]
    exact List.mem_singleton.mpr rfl
  exact (List.mem_filter.mp mem).1

theorem mem_commits_commitAdd {other : Bytes} (committed : other ∈ world.commits) :
    other ∈ (world.commitAdd accepts keyPackage).commits := by
  rcases @commits_commitAdd accepts world keyPackage with ⟨same, -⟩ | ⟨added, -⟩
  · rwa [same]
  · rw [added]
    exact List.mem_append_left _ committed

theorem calls_addNewMember : (world.addNewMember accepts packages).calls = world.calls := by
  unfold addNewMember
  split
  · rfl
  · next keyPackage found =>
      by_cases admits : world.Admits accepts keyPackage
      · rw [commitAdd_of_admits admits]
      · rw [commitAdd_of_not_admits admits]

section Duplicates

variable (duplicates : ∀ members keyPackage, keyPackage ∈ members →
  accepts members keyPackage = false)

include duplicates

/-- A package that the creator commits to is none of the group's before. -/
theorem Adding.not_mem (adding : world.Adding join own)
    (admits : world.Admits accepts keyPackage) : keyPackage ∉ world.commits := by
  intro committed
  have rejected := duplicates _ _ (adding.members keyPackage committed)
  rw [admits.2] at rejected
  cases rejected

theorem Adding.commitAdd (ownPackage : join.keyPackage ∈ own)
    (adding : world.Adding join own) (fresh : world.Fresh join accepts own keyPackage) :
    (world.commitAdd accepts keyPackage).Adding join own := by
  by_cases admits : world.Admits accepts keyPackage
  · have new := adding.not_mem duplicates admits
    rw [commitAdd_of_admits admits]
    refine ⟨?_, ?_, fun completed => List.mem_append_left _ (adding.completed completed)⟩
    · intro other committed
      rcases List.mem_append.mp committed with earlier | last
      · exact List.mem_append_left _ (adding.members other earlier)
      · exact List.mem_append_right _ last
    · by_cases device : keyPackage ∈ own
      · cases fresh device admits
        rcases adding.once with ⟨-, none_⟩ | once
        · apply Or.inr
          simp [AddedOnce, none_, device]
        · exact absurd once.mem new
      · have other : join.keyPackage ≠ keyPackage := by
          rintro rfl
          exact device ownPackage
        simpa [AddedOnce, device, other] using adding.once
  · rw [commitAdd_of_not_admits admits]
    exact adding

theorem Adding.addNewMember (ownPackage : join.keyPackage ∈ own)
    (adding : world.Adding join own)
    (fresh : ∀ keyPackage, packages.head? = some keyPackage →
      world.Fresh join accepts own keyPackage) :
    (world.addNewMember accepts packages).Adding join own := by
  unfold AddWorld.addNewMember
  split
  · exact adding
  · next found => exact adding.commitAdd duplicates ownPackage (fresh _ found)

/-- A call ends, the last one after the package of the join was added. -/
theorem Adding.end (ownPackage : join.keyPackage ∈ own)
    (adding : world.Adding join own) (replied : world.calls trigger = .fetched packages)
    (orderly : world.Orderly join accepts own (.added trigger)) :
    ((world.addNewMember accepts packages).setCall trigger .ended).Adding join own := by
  rcases orderly packages replied with ⟨fresh, last⟩
  have added := adding.addNewMember duplicates ownPackage fresh
  refine ⟨added.members, added.once, fun completed => ?_⟩
  change join.keyPackage ∈ (world.addNewMember accepts packages).commits
  have others : ∀ other, other ≠ trigger → world.calls other = .ended := by
    intro other different
    have ended := (Function.update_of_ne different _ _).symm.trans (completed other)
    rwa [calls_addNewMember] at ended
  rcases last others with earlier | ⟨found, admits⟩
  · unfold AddWorld.addNewMember
    split
    · exact earlier
    · exact mem_commits_commitAdd earlier
  · simp only [AddWorld.addNewMember, found, commitAdd_of_admits admits]
    exact List.mem_append_right _ (List.mem_singleton.mpr rfl)

theorem Adding.step {label : AddLabel} (ownPackage : join.keyPackage ∈ own)
    (adding : world.Adding join own)
    (step : Guarded (Orderly join accepts own) (AddStep join accepts) world label next) :
    next.Adding join own := by
  rcases step with ⟨orderly, step⟩
  cases step with
  | joinedTopic progress =>
      exact adding.of_same rfl rfl fun completed =>
        absurd completed (not_completed_setCall (by decide))
  | uploaded progress known => exact adding.of_same rfl rfl id
  | announced progress =>
      exact adding.of_same rfl rfl fun completed =>
        absurd completed (not_completed_setCall (by decide))
  | delivered waits =>
      exact adding.of_same rfl rfl fun completed =>
        absurd completed (not_completed_setCall (by decide))
  | fetched asks found =>
      exact adding.of_same rfl rfl fun completed =>
        absurd completed (not_completed_setCall (by simp))
  | added replied => exact adding.end duplicates ownPackage replied orderly
  | otherUploaded other => exact adding.of_same rfl rfl id
  | otherAdded => exact adding.commitAdd duplicates ownPackage orderly

end Duplicates

/-- In every orderly run of a join that completes, the creator has committed once to a package
of the device, to that of the join. -/
theorem added_once {stores : Stores} {group : List Bytes} {labels : List AddLabel}
    {world : AddWorld}
    (duplicates : ∀ members keyPackage, keyPackage ∈ members →
      accepts members keyPackage = false)
    (run : Run (Guarded (Orderly join accepts (join.devicePackages stores))
      (AddStep join accepts)) (start stores group) labels world)
    (completed : world.Completed) : world.AddedOnce join (join.devicePackages stores) := by
  have initially : (start stores group).Adding join (join.devicePackages stores) := by
    refine ⟨fun keyPackage committed => ?_, Or.inl ⟨List.not_mem_nil, rfl⟩, fun ended => ?_⟩
    · cases committed
    · cases ended .presenceJoin
  have adding : world.Adding join (join.devicePackages stores) :=
    run.invariant (fun adding step => adding.step duplicates (List.mem_cons_self ..) step) initially
  rcases adding.once with ⟨never, -⟩ | once
  · exact absurd (adding.completed completed) never
  · exact once

theorem committed_of_not_fresh (stale : ¬world.Fresh join accepts own keyPackage) :
    ∃ other ∈ (world.commitAdd accepts keyPackage).commits,
      other ∈ own ∧ other ≠ join.keyPackage := by
  simp only [Fresh, not_forall] at stale
  rcases stale with ⟨device, admits, older⟩
  refine ⟨keyPackage, ?_, device, older⟩
  rw [commitAdd_of_admits admits]
  exact List.mem_append_right _ (List.mem_singleton.mpr rfl)

/-- A call that does not add the package of the join. -/
theorem not_mem_addNewMember (never : join.keyPackage ∉ world.commits)
    (other : ¬(packages.head? = some join.keyPackage ∧ world.Admits accepts join.keyPackage)) :
    join.keyPackage ∉ (world.addNewMember accepts packages).commits := by
  unfold addNewMember
  split
  · exact never
  · next keyPackage found =>
      rcases @commits_commitAdd accepts world keyPackage with ⟨same, -⟩ | ⟨added, admits⟩
      · rwa [same]
      · rw [added]
        intro committed
        rcases List.mem_append.mp committed with earlier | last
        · exact never earlier
        · cases List.mem_singleton.mp last
          exact other ⟨found, admits⟩

/-- A step that is not orderly commits to an older package of the device, or ends the last
call without that of the join. -/
theorem disorderly_step {label : AddLabel} (step : AddStep join accepts world label next)
    (disorderly : ¬world.Orderly join accepts own label) :
    (∃ keyPackage ∈ next.commits, keyPackage ∈ own ∧ keyPackage ≠ join.keyPackage) ∨
      next.Completed ∧ join.keyPackage ∉ next.commits := by
  cases step with
  | @added trigger packages replied =>
      by_cases fresh : ∀ keyPackage, packages.head? = some keyPackage →
          world.Fresh join accepts own keyPackage
      · apply Or.inr
        simp only [Orderly, not_forall] at disorderly
        rcases disorderly with ⟨_, sameReply, late⟩
        cases replied.symm.trans sameReply
        simp only [not_and, not_forall, not_or] at late
        rcases late fresh with ⟨others, never, missing⟩
        refine ⟨fun other => ?_, not_mem_addNewMember never fun both => missing both.1 both.2⟩
        by_cases same : other = trigger
        · subst same
          exact Function.update_self _ _ _
        · refine (Function.update_of_ne same _ _).trans ?_
          rw [calls_addNewMember]
          exact others other same
      · apply Or.inl
        simp only [not_forall] at fresh
        rcases fresh with ⟨keyPackage, found, stale⟩
        have adds : world.addNewMember accepts packages = world.commitAdd accepts keyPackage := by
          simp only [addNewMember, found]
        rw [adds]
        exact committed_of_not_fresh stale
  | otherAdded => exact Or.inl (committed_of_not_fresh disorderly)
  | _ => exact absurd trivial disorderly

/-! ### A device that has joined before -/

def sampleJoin : Join where
  tenantId := .replicate 1
  userId := .replicate 2
  deviceId := .replicate 3
  keyPackage := [2]

/-- The stores with the device, which may have a key package of an earlier join. -/
def storesWith (older : Option Bytes) : Stores :=
  { onlyCursors .empty with
    devices := KeyedTable.empty.upsert
      { tenantId := .replicate 1
        deviceId := .replicate 3
        userId := .replicate 2
        deviceName := []
        platform := []
        mlsKeyPackage := older
        createdAt := 0 } }

/-- A group that accepts whom it does not have yet. -/
def acceptsNew (members : List Bytes) (keyPackage : Bytes) : Bool :=
  !members.contains keyPackage

theorem acceptsNew_duplicates (members : List Bytes) (keyPackage : Bytes)
    (member : keyPackage ∈ members) : acceptsNew members keyPackage = false := by
  simp [acceptsNew, member]

/-- The reply to the fetch on `presence:join` arrives before the upload. -/
def fetchedOlder (older : Option Bytes) : AddWorld :=
  ((start (storesWith older) []).joinTopic.setCall .presenceJoin .fetching).setCall .presenceJoin
    (.fetched older.toList)

/-- The reply to the fetch on `mls:key_package` arrives. -/
def fetchedOwn (older : Option Bytes) : AddWorld :=
  ((((((fetchedOlder older).addNewMember acceptsNew older.toList).setCall .presenceJoin
    .ended).uploadOwn sampleJoin).announce).setCall .keyPackage .fetching).setCall .keyPackage
      (.fetched [[2]])

def joinedAgain (older : Option Bytes) : AddWorld :=
  ((fetchedOwn older).addNewMember acceptsNew [[2]]).setCall .keyPackage .ended

/-- The join with both fetches answered at once. -/
theorem run_joinedAgain {older : Option Bytes} {guard : AddWorld → AddLabel → Prop}
    (plain : ∀ world label, (∀ trigger, label ≠ .added trigger) →
      (∀ keyPackage, label ≠ .otherAdded keyPackage) → guard world label)
    (first : guard (fetchedOlder older) (.added .presenceJoin))
    (second : guard (fetchedOwn older) (.added .keyPackage)) :
    ∃ labels, Run (Guarded guard (AddStep sampleJoin acceptsNew)) (start (storesWith older) [])
      labels (joinedAgain older) := by
  have early : Run (Guarded guard (AddStep sampleJoin acceptsNew)) (start (storesWith older) [])
      ([] ++ [.joinedTopic] ++ [.delivered .presenceJoin] ++
        [.fetched .presenceJoin older.toList]) (fetchedOlder older) := by
    refine ((Run.refl.snoc ⟨plain _ _ (by simp) (by simp), .joinedTopic rfl⟩).snoc
      ⟨plain _ _ (by simp) (by simp), .delivered rfl⟩).snoc
        ⟨plain _ _ (by simp) (by simp), .fetched rfl ?_⟩
    cases older <;> exact List.Perm.refl _
  have late : Run (Guarded guard (AddStep sampleJoin acceptsNew))
      (((fetchedOlder older).addNewMember acceptsNew older.toList).setCall .presenceJoin .ended)
      ([] ++ [.uploaded] ++ [.announced] ++ [.delivered .keyPackage] ++
        [.fetched .keyPackage [[2]]]) (fetchedOwn older) := by
    have joined : (((fetchedOlder older).addNewMember acceptsNew older.toList).setCall
        .presenceJoin .ended).progress = .joinedTopic := by
      cases older <;> rfl
    have known : ∃ row ∈ (((fetchedOlder older).addNewMember acceptsNew older.toList).setCall
        .presenceJoin .ended).stores.devices.rows,
          row.tenantId = sampleJoin.tenantId ∧ row.deviceId = sampleJoin.deviceId := by
      cases older <;> exact ⟨_, List.mem_cons_self .., rfl, rfl⟩
    refine (((Run.refl.snoc ⟨plain _ _ (by simp) (by simp), .uploaded joined known⟩).snoc
      ⟨plain _ _ (by simp) (by simp), .announced rfl⟩).snoc
        ⟨plain _ _ (by simp) (by simp), .delivered rfl⟩).snoc
          ⟨plain _ _ (by simp) (by simp), .fetched rfl ?_⟩
    cases older <;> exact List.Perm.refl _
  have addsOlder := early.snoc ⟨first, .added rfl⟩
  exact ⟨_, (addsOlder.append late).snoc ⟨second, .added rfl⟩⟩

/-- The device has a key package of an earlier join: the creator adds both. -/
theorem added_twice :
    ¬∀ (join : Join) (accepts : List Bytes → Bytes → Bool) (stores : Stores)
        (group : List Bytes) (labels : List AddLabel) (world : AddWorld),
      (∀ members keyPackage, keyPackage ∈ members → accepts members keyPackage = false) →
        Run (AddStep join accepts) (start stores group) labels world → world.Completed →
          world.AddedOnce join (join.devicePackages stores) := by
  intro addedOnce
  rcases @run_joinedAgain (some [1]) (fun _ _ => True) (fun _ _ _ _ => trivial) trivial trivial
    with ⟨labels, run⟩
  have once := addedOnce _ _ _ _ _ _ acceptsNew_duplicates run.of_guarded ?_
  · revert once
    unfold AddedOnce
    decide
  · intro trigger
    cases trigger <;> rfl

/-- A device that has not joined before. -/
theorem added_once_of_first :
    (joinedAgain none).AddedOnce sampleJoin (sampleJoin.devicePackages (storesWith none)) := by
  have plain : ∀ world label, (∀ trigger, label ≠ .added trigger) →
      (∀ keyPackage, label ≠ .otherAdded keyPackage) →
        Orderly sampleJoin acceptsNew (sampleJoin.devicePackages (storesWith none)) world
          label := by
    intro world label noAdd noOther
    cases label with
    | added trigger => exact absurd rfl (noAdd trigger)
    | otherAdded keyPackage => exact absurd rfl (noOther keyPackage)
    | _ => trivial
  have first : Orderly sampleJoin acceptsNew (sampleJoin.devicePackages (storesWith none))
      (fetchedOlder none) (.added .presenceJoin) := by
    intro packages replied
    cases replied
    refine ⟨fun keyPackage found => ?_, fun others => ?_⟩
    · cases found
    · cases others .keyPackage (by decide)
  have second : Orderly sampleJoin acceptsNew (sampleJoin.devicePackages (storesWith none))
      (fetchedOwn none) (.added .keyPackage) := by
    intro packages replied
    cases replied
    refine ⟨fun keyPackage found _ _ => ?_, fun _ => Or.inr ⟨rfl, by decide, rfl⟩⟩
    cases found
    rfl
  rcases run_joinedAgain plain first second with ⟨labels, run⟩
  apply added_once acceptsNew_duplicates run
  intro trigger
  cases trigger <;> rfl

end AddWorld

end Mercury.Mls
