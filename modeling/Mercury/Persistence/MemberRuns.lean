import Mercury.Foundations.Run
import Mercury.Persistence.MemberStore

/-!
# Concurrent calls about the members of a channel

Any number of processes run `member?`, `list_members`, `add_member` and `remove_member` on
one channel, and their commands interleave in any order. After a removal `member?` denies
the user, as long as no process fills the cache with rows that it selected before the row
of the user was deleted.
-/

namespace Mercury.Persistence

open Foundations Foundations.Program

/-! ## Single commands -/

/-- A command to the database or the cache. Those of a pipeline are sent together, and only
the last one tells whether the pipeline succeeded. -/
inductive SingleCommand where
  | command (asked : Backend.Call)
  | pipedDel (key : Bytes)
  | pipedSadd (key : Bytes) (members : List Bytes)
  | pipedExpire (key : Bytes)

abbrev single : Interface where
  Call := SingleCommand
  Answer
    | .command asked => Backend.Answer asked
    | .pipedDel _ => Unit
    | .pipedSadd .. => Unit
    | .pipedExpire _ => Except Unit Unit

abbrev Single (Result : Type) := Program single Raise Result

def sendSingle (asked : SingleCommand) : Single (single.Answer asked) :=
  @perform single Raise asked

/-- The single commands that carry out a command. -/
def singly : (asked : Backend.Call) → Single (Backend.Answer asked)
  | .replaceSet key members => do
      sendSingle (.pipedDel key)
      sendSingle (.pipedSadd key members)
      sendSingle (.pipedExpire key)
  | asked => sendSingle (.command asked)

/-- What a process calls. -/
inductive MemberCall where
  | isMember (userId : Bytes)
  | listMembers
  | addMember (userId : Bytes) (role : ℕ)
  | removeMember (userId : Bytes)

inductive MemberReply where
  | decided (answer : Except Unit Bool)
  | listed (listing : Members.Listing)
  | changed (result : Except Bytes Unit)

def MemberCall.program (tenantId channelId : Id16) : MemberCall → Single MemberReply
  | .isMember userId => do
      let answer ← (Members.isMember tenantId.val channelId.val userId).through singly
      pure (.decided answer)
  | .listMembers => do
      let listing ← (Members.listMembers tenantId.val channelId.val).through singly
      pure (.listed listing)
  | .addMember userId role => do
      let result ← (Members.addMember tenantId.val channelId.val userId role).through singly
      pure (.changed result)
  | .removeMember userId => do
      let result ← (Members.removeMember tenantId.val channelId.val userId).through singly
      pure (.changed result)

/-- How the stores carry out a single command. What is lost of a pipeline has no effect. -/
inductive Does : MemberStore → Performed single Raise → MemberStore → Prop where
  | command {store target : MemberStore} {asked : Backend.Call}
      {answer : Except Raise (Backend.Answer asked)}
      (alone : ∀ key members, asked ≠ .replaceSet key members)
      (carried : Carried store ⟨asked, answer⟩ target) : Does store ⟨.command asked, answer⟩ target
  | pipedDel {store : MemberStore} {key : Bytes} :
      Does store ⟨.pipedDel key, .ok ()⟩ { store with cache := Function.update store.cache key [] }
  | pipedSadd {store : MemberStore} {key : Bytes} {members : List Bytes} :
      Does store ⟨.pipedSadd key members, .ok ()⟩
        { store with cache := Function.update store.cache key (members ++ store.cache key) }
  | pipedExpire {store : MemberStore} {key : Bytes} {answer : Except Raise (Except Unit Unit)} :
      Does store ⟨.pipedExpire key, answer⟩ store
  | lostDel {store : MemberStore} {key : Bytes} : Does store ⟨.pipedDel key, .ok ()⟩ store
  | lostSadd {store : MemberStore} {key : Bytes} {members : List Bytes} :
      Does store ⟨.pipedSadd key members, .ok ()⟩ store

/-! ## Processes -/

/-- A process, with what it has still to do. It `denies` if it started after a removal of the
user had returned, and the user has not been added since; it has `selected` the rows, and is
`stale` if the row of the user was deleted after that; and a command of it may have `raised`. -/
structure MemberProcess where
  asked : MemberCall
  rest : Single MemberReply
  denies : Bool
  selected : Bool
  stale : Bool
  raised : Bool

/-- The processes of a channel. `removed` holds from the return of a removal of the user until
the user is added. -/
structure MemberWorld where
  store : MemberStore
  processes : ℕ → Option MemberProcess
  removed : Bool

inductive MemberLabel where
  | called (process : ℕ) (asked : MemberCall)
  | performed (process : ℕ) (taken : Performed single Raise) (target : MemberStore)
  | expired (key : Bytes)

section World

variable (tenantId channelId userId : Id16)

/-- The user has a row. -/
def MemberStore.HasRow (store : MemberStore) : Prop :=
  ∃ row ∈ store.table.rows, row.key = (tenantId, channelId, userId)

instance (store : MemberStore) : Decidable (store.HasRow tenantId channelId userId) :=
  inferInstanceAs (Decidable (∃ row ∈ store.table.rows, row.key = (tenantId, channelId, userId)))

/-- The command adds the user. -/
def adds (target : MemberStore) : SingleCommand → Bool
  | .command (.insertMember tid cid uid _) =>
      tid = tenantId ∧ cid = channelId ∧ uid = userId ∧ target.HasRow tenantId channelId userId
  | _ => false

/-- The command deletes the row of the user. -/
def deletes : SingleCommand → Bool
  | .command (.deleteMember tid cid uid) => tid = tenantId ∧ cid = channelId ∧ uid = userId
  | _ => false

def selects : SingleCommand → Bool
  | .command (.selectMemberIds ..) => true
  | _ => false

/-- A removal has returned `:ok`. -/
def returnsOk : Single MemberReply → Bool
  | .done (.changed (.ok ())) => true
  | _ => false

def MemberCall.removes : MemberCall → Bool
  | .removeMember uid => uid = userId.val
  | _ => false

/-- What a process notices of a command. -/
def MemberProcess.sees (target : MemberStore) (command : SingleCommand)
    (process : MemberProcess) : MemberProcess :=
  { process with
    denies := process.denies && !adds tenantId channelId userId target command
    stale := process.stale ||
      (process.selected && deletes tenantId channelId userId command) }

/-- A process after a command of its own. -/
def MemberProcess.after (current : MemberProcess) (rest : Single MemberReply)
    (target : MemberStore) (command : SingleCommand) (raised : Bool) : MemberProcess :=
  { current.sees tenantId channelId userId target command with
    rest := rest
    selected := current.selected || selects command
    raised := current.raised || raised }

def isRaised {Answer : Type} : Except Raise Answer → Bool
  | .error _ => true
  | .ok _ => false

def MemberWorld.perform (world : MemberWorld) (process : ℕ) (current : MemberProcess)
    (command : SingleCommand) (answer : Except Raise (single.Answer command))
    (next : Except Raise (single.Answer command) → Single MemberReply) (target : MemberStore) :
    MemberWorld where
  store := target
  processes := Function.update
    (fun other => (world.processes other).map (.sees tenantId channelId userId target command))
    process
    (some (current.after tenantId channelId userId (next answer) target command (isRaised answer)))
  removed := !adds tenantId channelId userId target command &&
    (world.removed || (current.asked.removes userId && returnsOk (next answer)))

def MemberWorld.begin (world : MemberWorld) (process : ℕ) (asked : MemberCall) : MemberWorld :=
  { world with
    processes := Function.update world.processes process
      (some ⟨asked, asked.program tenantId channelId, world.removed, false, false, false⟩) }

/-- The calls on one channel, watched for one user. -/
inductive MemberRunStep : MemberWorld → MemberLabel → MemberWorld → Prop where
  | called {world : MemberWorld} {process : ℕ} {asked : MemberCall}
      (free : world.processes process = none) :
      MemberRunStep world (.called process asked)
        (world.begin tenantId channelId process asked)
  | performed {world : MemberWorld} {process : ℕ} {current : MemberProcess}
      {command : SingleCommand} {answer : Except Raise (single.Answer command)}
      {next : Except Raise (single.Answer command) → Single MemberReply} {target : MemberStore}
      (present : world.processes process = some current) (waits : current.rest = .call command next)
      (does : Does world.store ⟨command, answer⟩ target) :
      MemberRunStep world (.performed process ⟨command, answer⟩ target)
        (world.perform tenantId channelId userId process current command answer next target)
  | expired {world : MemberWorld} {key : Bytes} :
      MemberRunStep world (.expired key)
        { world with
          store := { world.store with cache := Function.update world.store.cache key [] } }

/-- The outcome of a program that has ended. -/
def outcome? {Result : Type} : Single Result → Option (Except Raise Result)
  | .done result => some (.ok result)
  | .fail error => some (.error error)
  | .call .. => none

/-- A `member?` that started after the removal has returned `false`, unless one of its own
commands raised; then it has at least not returned `true`. -/
def MemberWorld.Denies (world : MemberWorld) : Prop :=
  ∀ process current outcome, world.processes process = some current →
    current.asked = .isMember userId.val → current.denies = true →
    outcome? current.rest = some outcome →
      outcome = .ok (.decided (.ok false)) ∨
        current.raised = true ∧ outcome ≠ .ok (.decided (.ok true))

/-- The process has deleted the row of the user, and not yet the cached set. -/
def MemberProcess.Removing (process : MemberProcess) : Prop :=
  process.asked.removes userId = true ∧ ∃ next,
    process.rest = .call (.command (.del (Cache.membersKey tenantId.val channelId.val))) next

/-- While the user is removed, no process adds the user to the cached set that selected the rows
before the row was deleted; the user is not added between the two commands of a removal; and the
second one empties the cached set if the user is in it. -/
structure Timely (world : MemberWorld) (label : MemberLabel) : Prop where
  fresh : ∀ process current members answer target, world.removed = true →
    world.processes process = some current → current.stale = true →
      label = .performed process
        ⟨.pipedSadd (Cache.membersKey tenantId.val channelId.val) members, answer⟩ target →
        userId.val ∈ members → target = world.store
  apart : ∀ process taken target, label = .performed process taken target →
    adds tenantId channelId userId target taken.call = true →
      ∀ other current, world.processes other = some current →
        ¬current.Removing tenantId channelId userId
  invalidated : ∀ process current taken target, label = .performed process taken target →
    world.processes process = some current → current.Removing tenantId channelId userId →
      target = world.store →
        userId.val ∉ world.store.cache (Cache.membersKey tenantId.val channelId.val)

end World

/-! ## What the programs do -/

section Programs

variable {tenantId channelId userId : Id16}

theorem isRaised_eq_false {Answer : Type} {answer : Except Raise Answer} :
    isRaised answer = false ↔ ∃ reply, answer = .ok reply := by
  cases answer <;> simp [isRaised]

/-- The selected rows are without the user. -/
def SelectLacks (tenantId channelId userId : Id16) : Performed backend Raise → Prop
  | ⟨.selectMemberIds tid cid, .ok ids⟩ => tid = tenantId → cid = channelId → userId ∉ ids
  | _ => True

/-- What holds of the answer to a command, for a single command. -/
def OfCommand (holds : Performed backend Raise → Prop) : Performed single Raise → Prop
  | ⟨.command asked, answer⟩ => holds ⟨asked, answer⟩
  | _ => True

/-- The single command does not put the user into the cached set. -/
def SingleKeeps (tenantId channelId userId : Id16) : SingleCommand → Prop
  | .pipedSadd key members =>
      key = Cache.membersKey tenantId.val channelId.val → userId.val ∉ members
  | _ => True

/-- A program that puts the user into the cached set only after it selected the row. -/
def FillsSelected (tenantId channelId userId : Id16) (program : Single MemberReply) : Prop :=
  program.Ensures (OfCommand (SelectLacks tenantId channelId userId))
    (SingleKeeps tenantId channelId userId) fun _ => True

theorem singly_fills {asked : Backend.Call} (keeps : KeepsGone tenantId channelId userId asked) :
    (singly asked).Ensures (OfCommand (SelectLacks tenantId channelId userId))
      (SingleKeeps tenantId channelId userId) fun answer =>
        SelectLacks tenantId channelId userId ⟨asked, answer⟩ := by
  cases asked with
  | replaceSet key members =>
      refine Ensures.post_mono (?_ : Ensures _ _ _ fun _ => True) fun _ _ => trivial
      exact Ensures.seq (Ensures.ask trivial) fun _ => Ensures.seq (Ensures.ask keeps) fun _ =>
        Ensures.ask trivial
  | _ => exact Ensures.perform.mpr ⟨trivial, fun _ lacks => lacks⟩

theorem listMembers_fills :
    (Members.listMembers tenantId.val channelId.val).Ensures
      (SelectLacks tenantId channelId userId) (KeepsGone tenantId channelId userId)
        fun _ => True := by
  have loaded : (Members.loadFromDb tenantId.val channelId.val).Ensures
      (SelectLacks tenantId channelId userId) (KeepsGone tenantId channelId userId)
        fun _ => True :=
    (@loadFromDb_lacks _ _ _ _ False _ _ (fun lacks => lacks) False.elim).post_mono
      fun _ _ => trivial
  refine Ensures.seq (Ensures.seq (Ensures.ask trivial) fun answer => ?_) fun cached => ?_
  · split <;> trivial
  · split
    · trivial
    · exact loaded

theorem fillsSelected_program (asked : MemberCall) :
    FillsSelected tenantId channelId userId (asked.program tenantId channelId) := by
  have fills : ∀ {Result : Type} {program : Backed Result},
      program.Ensures (SelectLacks tenantId channelId userId)
        (KeepsGone tenantId channelId userId) (fun _ => True) →
      (program.through singly).Ensures (OfCommand (SelectLacks tenantId channelId userId))
        (SingleKeeps tenantId channelId userId) fun _ => True :=
    fun ensured => Ensures.through ensured fun _ keeps => singly_fills keeps
  cases asked with
  | isMember uid =>
      refine Ensures.seq (fills (Ensures.seq listMembers_fills fun listing => ?_)) fun _ => trivial
      split <;> trivial
  | listMembers => exact Ensures.seq (fills listMembers_fills) fun _ => trivial
  | addMember uid role =>
      refine Ensures.seq (fills ?_) fun _ => trivial
      unfold Members.addMember
      split
      · apply Ensures.seq (Ensures.ask trivial)
        intro inserted
        split
        · exact Ensures.seq (Ensures.seq (Ensures.ask trivial) fun _ => trivial) fun _ => trivial
        · trivial
      · trivial
  | removeMember uid =>
      refine Ensures.seq (fills ?_) fun _ => trivial
      refine Ensures.rescue.mpr (Ensures.post_mono (?_ : Ensures _ _ _ fun _ => True) ?_)
      · split
        · apply Ensures.seq (Ensures.ask trivial)
          intro count
          refine Ensures.seq (Ensures.seq (Ensures.ask trivial) fun _ => trivial) fun _ => ?_
          split <;> trivial
        · trivial
      · rintro (raised | result) - <;> trivial

/-! ### A check of a user who is gone -/

/-- An answer of stores in which the user is gone, and which answer where they are `up`. -/
structure GoneReply (up : Prop) (tenantId channelId userId : Id16)
    (taken : Performed single Raise) : Prop where
  gone : OfCommand (GoneAnswer tenantId channelId userId) taken
  calm : up → isRaised taken.answer = false

/-- The check denies the user, or fails without claiming the contrary. -/
def Denied (up : Prop) (outcome : Except Raise MemberReply) : Prop :=
  outcome = .ok (.decided (.ok false)) ∨ ¬up ∧ outcome ≠ .ok (.decided (.ok true))

variable {up : Prop}

/-- The same of the commands that are carried out by single ones. -/
def GoneCommand (up : Prop) (tenantId channelId userId : Id16)
    (taken : Performed backend Raise) : Prop :=
  GoneAnswer tenantId channelId userId taken ∧ (up → ∃ reply, taken.answer = .ok reply)

theorem not_up_of_raised {asked : SingleCommand} {raised : Raise}
    (answered : GoneReply up tenantId channelId userId ⟨asked, .error raised⟩) : ¬up := by
  intro isUp
  cases answered.calm isUp

theorem singly_gone (asked : Backend.Call) :
    (singly asked).Ensures (GoneReply up tenantId channelId userId) (fun _ => True) fun answer =>
      GoneCommand up tenantId channelId userId ⟨asked, answer⟩ := by
  cases asked with
  | replaceSet key members =>
      refine Ensures.bind.mpr (Ensures.perform.mpr ⟨trivial, ?_⟩)
      rintro (raised | deleted) answered
      · exact ⟨trivial, fun isUp => absurd isUp (not_up_of_raised answered)⟩
      refine Ensures.bind.mpr (Ensures.perform.mpr ⟨trivial, ?_⟩)
      rintro (raised | added) answered
      · exact ⟨trivial, fun isUp => absurd isUp (not_up_of_raised answered)⟩
      exact Ensures.perform.mpr ⟨trivial, fun answer answered =>
        ⟨trivial, fun isUp => isRaised_eq_false.mp (answered.calm isUp)⟩⟩
  | _ =>
      exact Ensures.perform.mpr ⟨trivial, fun answer answered =>
        ⟨answered.gone, fun isUp => isRaised_eq_false.mp (answered.calm isUp)⟩⟩

theorem listMembers_gone :
    (Members.listMembers tenantId.val channelId.val).Ensures
      (GoneCommand up tenantId channelId userId) (fun _ => True)
      (Lacks up tenantId channelId userId tenantId.val channelId.val) := by
  have loaded : (Members.loadFromDb tenantId.val channelId.val).Ensures
      (GoneCommand up tenantId channelId userId) (fun _ => True)
      (Lacks up tenantId channelId userId tenantId.val channelId.val) :=
    Ensures.mono (loadFromDb_lacks (fun answered => answered.1) fun isUp _ answered =>
      answered.2 isUp) (fun _ _ => trivial) fun _ lacks => lacks
  refine Ensures.bind.mpr (Ensures.bind.mpr (Ensures.perform.mpr ⟨trivial, ?_⟩))
  rintro (raised | answer) answered
  · intro isUp
    rcases answered.2 isUp with ⟨reply, same⟩
    cases same
  dsimp only
  split
  · exact loaded
  · intro _ _
    exact answered.1 rfl
  · exact loaded

theorem isMember_gone :
    ((MemberCall.isMember userId.val).program tenantId channelId).Ensures
      (GoneReply up tenantId channelId userId) (fun _ => True) (Denied up) := by
  have checks : (Members.isMember tenantId.val channelId.val userId.val).Ensures
      (GoneCommand up tenantId channelId userId) (fun _ => True) fun outcome =>
        outcome = .ok (.ok false) ∨ ¬up ∧ outcome ≠ .ok (.ok true) := by
    refine Ensures.bind.mpr (listMembers_gone.post_mono ?_)
    rintro (raised | memberIds | _ | _) lacks
    · exact Or.inr ⟨lacks, by rintro ⟨⟩⟩
    · have absent : userId.val ∉ memberIds := lacks rfl rfl
      exact Or.inl (by simp [absent])
    · exact Or.inl rfl
    · exact Or.inr ⟨lacks, by rintro ⟨⟩⟩
  refine Ensures.bind.mpr (Ensures.post_mono (Ensures.through checks fun asked _ =>
    singly_gone asked) ?_)
  rintro (raised | answer) (denied | ⟨down, other⟩)
  · cases denied
  · exact Or.inr ⟨down, by rintro ⟨⟩⟩
  · cases denied
    exact Or.inl rfl
  · refine Or.inr ⟨down, fun same => other ?_⟩
    cases same
    rfl

/-! ### The two commands of a removal -/

/-- What a removal does after its `DEL`. -/
def afterDel (count : ℕ) : Except Raise (Except Unit Unit) → Single MemberReply
  | .ok _ =>
      .done (.changed (if 0 < count then .ok () else .error (ascii "not_found")))
  | .error _ => .done (.changed (.error (ascii "db_error")))

/-- What a removal does after its `DELETE`. -/
def afterDelete (tenantId channelId : Id16) : Except Raise ℕ → Single MemberReply
  | .ok count =>
      .call (.command (.del (Cache.membersKey tenantId.val channelId.val))) (afterDel count)
  | .error _ => .done (.changed (.error (ascii "db_error")))

theorem program_removeMember :
    (MemberCall.removeMember userId.val).program tenantId channelId =
      .call (.command (.deleteMember tenantId channelId userId))
        (afterDelete tenantId channelId) := by
  have ids : ∀ id : Id16, Id16.ofBytes id.val = some id := fun id => Id16.ofBytes_eq_some.mpr rfl
  simp only [MemberCall.program, Members.removeMember, ids]
  refine congrArg (@Program.call single Raise MemberReply _) (funext ?_)
  rintro (raised | count)
  · rfl
  refine congrArg (@Program.call single Raise MemberReply _) (funext ?_)
  rintro (raised | answer)
  · rfl
  unfold afterDel
  by_cases positive : 0 < count
  · simp only [if_pos positive]
    rfl
  · simp only [if_neg positive]
    rfl

/-- Where a removal of the user stands. -/
inductive RemovalPhase (tenantId channelId userId : Id16) : Single MemberReply → Prop where
  | deleting :
      RemovalPhase tenantId channelId userId
        (.call (.command (.deleteMember tenantId channelId userId))
          (afterDelete tenantId channelId))
  | invalidating (count : ℕ) :
      RemovalPhase tenantId channelId userId (afterDelete tenantId channelId (.ok count))
  | returned (reply : MemberReply) : RemovalPhase tenantId channelId userId (.done reply)

end Programs

/-! ## What a command does -/

section Steps

variable {tenantId channelId userId : Id16} {store target : MemberStore}
  {taken : Performed single Raise}

theorem adds_eq_true {command : SingleCommand} :
    adds tenantId channelId userId target command = true ↔
      (∃ role, command = .command (.insertMember tenantId channelId userId role)) ∧
        target.HasRow tenantId channelId userId := by
  unfold adds
  split
  · next tid cid uid role =>
      simp only [decide_eq_true_eq]
      constructor
      · rintro ⟨rfl, rfl, rfl, row⟩
        exact ⟨⟨role, rfl⟩, row⟩
      · rintro ⟨⟨other, ⟨⟩⟩, row⟩
        exact ⟨rfl, rfl, rfl, row⟩
  · next other =>
      constructor
      · rintro ⟨⟩
      · rintro ⟨⟨role, rfl⟩, -⟩
        exact absurd rfl (other tenantId channelId userId role)

/-- A row appears only by being added. -/
theorem adds_of_hasRow (does : Does store taken target)
    (without : ¬store.HasRow tenantId channelId userId)
    (row : target.HasRow tenantId channelId userId) :
    adds tenantId channelId userId target taken.call = true := by
  cases does with
  | @command _ asked answer alone carried =>
      refine adds_eq_true.mpr ⟨?_, row⟩
      cases carried with
      | @insertMember tid cid uid role answer new =>
          rcases row with ⟨row, rowMem, key⟩
          rcases KeyedTable.mem_upsert.mp rowMem with ⟨old, -⟩ | rfl
          · exact absurd ⟨row, old, key⟩ without
          · cases key
            exact ⟨role, rfl⟩
      | deleteMember =>
          rcases row with ⟨row, rowMem, key⟩
          exact absurd ⟨row, (KeyedTable.mem_filter.mp rowMem).1, key⟩ without
      | _ => exact absurd row without
  | _ => exact absurd row without

/-- A row disappears only by being deleted. -/
theorem hasRow_of_not_deletes (does : Does store taken target)
    (row : store.HasRow tenantId channelId userId)
    (keeps : deletes tenantId channelId userId taken.call = false) :
    target.HasRow tenantId channelId userId := by
  cases does with
  | @command _ asked answer alone carried =>
      cases carried with
      | insertMember new =>
          rcases row with ⟨row, rowMem, key⟩
          exact ⟨row, KeyedTable.mem_upsert.mpr (Or.inl ⟨rowMem, new row rowMem⟩), key⟩
      | @deleteMember tid cid uid =>
          rcases row with ⟨row, rowMem, key⟩
          refine ⟨row, KeyedTable.mem_filter.mpr ⟨rowMem, ?_⟩, key⟩
          rw [key]
          apply decide_eq_true
          intro same
          cases same
          simp [deletes] at keeps
      | _ => exact row
  | _ => exact row

theorem Gone.answers (gone : Gone tenantId channelId userId store)
    (does : Does store taken target) :
    OfCommand (GoneAnswer tenantId channelId userId) taken := by
  cases does with
  | command alone carried => exact gone.answer ⟨_, carried, rfl, fun _ => Or.inl rfl⟩
  | _ => trivial

/-- The user stays gone as long as no command puts the user anywhere. -/
theorem Gone.does (gone : Gone tenantId channelId userId store)
    (keeps : SingleKeeps tenantId channelId userId taken.call)
    (notAdded : adds tenantId channelId userId target taken.call = false)
    (does : Does store taken target) : Gone tenantId channelId userId target := by
  have without : ¬target.HasRow tenantId channelId userId := by
    intro row
    have before : ¬store.HasRow tenantId channelId userId := by
      rintro ⟨row, rowMem, key⟩
      exact gone.table row rowMem key
    rw [adds_of_hasRow does before row] at notAdded
    cases notAdded
  refine ⟨fun row rowMem key => without ⟨row, rowMem, key⟩, ?_⟩
  have emptied : ∀ key, userId.val ∉ Function.update store.cache key []
      (Cache.membersKey tenantId.val channelId.val) := by
    intro key
    by_cases same : Cache.membersKey tenantId.val channelId.val = key
    · simp [same]
    · simpa [Function.update_of_ne same] using gone.cache
  cases does with
  | command alone carried =>
      cases carried with
      | replaceSet => exact absurd rfl (alone _ _)
      | del => exact emptied _
      | _ => exact gone.cache
  | pipedDel => exact emptied _
  | @pipedSadd key members =>
      by_cases same : Cache.membersKey tenantId.val channelId.val = key
      · subst same
        simpa [gone.cache] using keeps rfl
      · simpa [Function.update_of_ne same] using gone.cache
  | _ => exact gone.cache

theorem selectLacks_of_not_selects {command : SingleCommand}
    {answer : Except Raise (single.Answer command)} (other : selects command = false) :
    OfCommand (SelectLacks tenantId channelId userId) ⟨command, answer⟩ := by
  cases command with
  | command asked =>
      cases asked with
      | selectMemberIds => cases other
      | _ => trivial
  | _ => trivial

/-- A user who is selected has a row. -/
theorem hasRow_of_selects (does : Does store taken target)
    (lists : ¬OfCommand (SelectLacks tenantId channelId userId) taken) :
    target.HasRow tenantId channelId userId := by
  cases does with
  | @command _ asked answer alone carried =>
      cases carried with
      | @selectMemberIds tid cid ids same =>
          simp only [OfCommand, SelectLacks, Classical.not_imp, not_not] at lists
          rcases lists with ⟨rfl, rfl, member⟩
          exact (same userId).mp member
      | @failed taken failed =>
          cases failed with
          | raised => exact absurd (by cases asked <;> trivial) lists
          | _ => exact absurd trivial lists
      | other noMember =>
          cases asked with
          | selectMemberIds => exact absurd trivial noMember
          | _ => exact absurd trivial lists
      | _ => exact absurd trivial lists
  | _ => exact absurd trivial lists

theorem not_hasRow_of_deletes {count : ℕ}
    (does : Does store ⟨.command (.deleteMember tenantId channelId userId), .ok count⟩ target) :
    ¬target.HasRow tenantId channelId userId := by
  cases does with
  | command alone carried =>
      cases carried with
      | deleteMember =>
          rintro ⟨row, rowMem, key⟩
          exact absurd key (by simpa using (KeyedTable.mem_filter.mp rowMem).2)
      | failed failed => cases failed
      | other noMember => exact absurd trivial noMember

/-- The second command of a removal leaves the user gone. -/
theorem gone_of_del {answer : Except Raise (Except Unit Unit)}
    (without : ¬store.HasRow tenantId channelId userId)
    (does : Does store
      ⟨.command (.del (Cache.membersKey tenantId.val channelId.val)), answer⟩ target)
    (emptied : target = store →
      userId.val ∉ store.cache (Cache.membersKey tenantId.val channelId.val)) :
    Gone tenantId channelId userId target := by
  cases does with
  | command alone carried =>
      cases carried with
      | del => exact ⟨fun row rowMem key => without ⟨row, rowMem, key⟩, by simp⟩
      | failed failed => exact ⟨fun row rowMem key => without ⟨row, rowMem, key⟩, emptied rfl⟩
      | other noMember => exact absurd trivial noMember

end Steps

/-! ## Runs -/

section Runs

variable {tenantId channelId userId : Id16} {store target : MemberStore} {removed after : Bool}
  {process : MemberProcess} {command : SingleCommand}
  {answer : Except Raise (single.Answer command)}

/-- What every process keeps in a run of timely steps. -/
structure MemberProcess.Holds (tenantId channelId userId : Id16) (store : MemberStore)
    (removed : Bool) (process : MemberProcess) : Prop where
  denies : process.denies = true → removed = true
  checks : process.asked = .isMember userId.val → process.denies = true →
    ∀ up : Prop, (up → process.raised = false) →
      process.rest.Ensures (GoneReply up tenantId channelId userId) (fun _ => True) (Denied up)
  unselected : process.selected = false → FillsSelected tenantId channelId userId process.rest
  fresh : process.stale = false →
    store.HasRow tenantId channelId userId ∨ FillsSelected tenantId channelId userId process.rest
  removing : process.Removing tenantId channelId userId →
    ¬store.HasRow tenantId channelId userId
  phase : process.asked.removes userId = true →
    RemovalPhase tenantId channelId userId process.rest

namespace MemberProcess.Holds

/-- A process copes with the command of another one. -/
theorem sees (holds : process.Holds tenantId channelId userId store removed)
    (does : Does store ⟨command, answer⟩ target)
    (apart : adds tenantId channelId userId target command = true →
      ¬process.Removing tenantId channelId userId)
    (stays : removed = true → adds tenantId channelId userId target command = false →
      after = true) :
    (process.sees tenantId channelId userId target command).Holds tenantId channelId userId target
      after where
  denies denies := by
    simp only [MemberProcess.sees, Bool.and_eq_true, Bool.not_eq_true'] at denies
    exact stays (holds.denies denies.1) denies.2
  checks isCheck denies := by
    simp only [MemberProcess.sees, Bool.and_eq_true] at denies
    exact holds.checks isCheck denies.1
  unselected := holds.unselected
  fresh fresh := by
    simp only [MemberProcess.sees, Bool.or_eq_false_iff, Bool.and_eq_false_iff] at fresh
    rcases fresh with ⟨fresh, unselected | keeps⟩
    · exact Or.inr (holds.unselected unselected)
    · exact (holds.fresh fresh).imp_left fun row => hasRow_of_not_deletes does row keeps
  removing removing row :=
    apart (adds_of_hasRow does (holds.removing removing) row) removing
  phase := holds.phase

/-- A process that starts. -/
theorem started (asked : MemberCall) :
    MemberProcess.Holds tenantId channelId userId store removed
      ⟨asked, asked.program tenantId channelId, removed, false, false, false⟩ := by
  have phase : asked.removes userId = true →
      asked.program tenantId channelId = .call (.command (.deleteMember tenantId channelId userId))
        (afterDelete tenantId channelId) := by
    intro removes
    cases asked with
    | removeMember uid =>
        obtain rfl : uid = userId.val := by simpa [MemberCall.removes] using removes
        exact program_removeMember
    | _ => cases removes
  refine ⟨id, ?_, fun _ => fillsSelected_program asked,
    fun _ => Or.inr (fillsSelected_program asked), ?_,
    fun removes => (phase removes).symm ▸ RemovalPhase.deleting⟩
  · rintro rfl - up -
    exact isMember_gone
  · rintro ⟨removes, rest, invalidates⟩
    have same := (phase removes).symm.trans invalidates
    cases same

variable {next : Except Raise (single.Answer command) → Single MemberReply}

/-- What a removal has still to do after a command of its own. -/
theorem phase_after (holds : process.Holds tenantId channelId userId store removed)
    (waits : process.rest = .call command next) (removes : process.asked.removes userId = true) :
    command = .command (.deleteMember tenantId channelId userId) ∧
        HEq next (afterDelete tenantId channelId) ∨
      process.Removing tenantId channelId userId ∧
        command = .command (.del (Cache.membersKey tenantId.val channelId.val)) ∧
          ∃ count, HEq next (afterDel count) := by
  have phase := holds.phase removes
  generalize restEq : process.rest = rest at phase
  rw [waits] at restEq
  cases phase with
  | deleting =>
      cases restEq
      exact Or.inl ⟨rfl, HEq.rfl⟩
  | invalidating count =>
      cases restEq
      exact Or.inr ⟨⟨removes, _, waits⟩, rfl, count, HEq.rfl⟩
  | returned => cases restEq

/-- A process after a command of its own. -/
theorem performed (holds : process.Holds tenantId channelId userId store removed)
    (gone : removed = true → Gone tenantId channelId userId store)
    (waits : process.rest = .call command next) (does : Does store ⟨command, answer⟩ target)
    (stays : removed = true → adds tenantId channelId userId target command = false →
      after = true) :
    (process.after tenantId channelId userId (next answer) target command
      (isRaised answer)).Holds tenantId channelId userId target after where
  denies denies := by
    simp only [MemberProcess.after, MemberProcess.sees, Bool.and_eq_true,
      Bool.not_eq_true'] at denies
    exact stays (holds.denies denies.1) denies.2
  checks isCheck denies up calm := by
    simp only [MemberProcess.after, MemberProcess.sees, Bool.and_eq_true] at denies
    have checks := holds.checks isCheck denies.1 up fun isUp =>
      (Bool.or_eq_false_iff.mp (calm isUp)).1
    rw [waits] at checks
    exact checks.2 answer ⟨(gone (holds.denies denies.1)).answers does, fun isUp =>
      (Bool.or_eq_false_iff.mp (calm isUp)).2⟩
  unselected unselected := by
    rcases Bool.or_eq_false_iff.mp unselected with ⟨before, other⟩
    have fills := holds.unselected before
    rw [FillsSelected, waits] at fills
    exact fills.2 answer (selectLacks_of_not_selects other)
  fresh fresh := by
    simp only [MemberProcess.after, MemberProcess.sees, Bool.or_eq_false_iff,
      Bool.and_eq_false_iff] at fresh
    by_cases lacks : OfCommand (SelectLacks tenantId channelId userId) ⟨command, answer⟩
    · have filled : FillsSelected tenantId channelId userId process.rest →
          FillsSelected tenantId channelId userId (next answer) := by
        intro fills
        rw [FillsSelected, waits] at fills
        exact fills.2 answer lacks
      rcases fresh with ⟨fresh, unselected | keeps⟩
      · exact Or.inr (filled (holds.unselected unselected))
      · exact (holds.fresh fresh).imp (fun row => hasRow_of_not_deletes does row keeps) filled
    · exact Or.inl (hasRow_of_selects does lacks)
  removing removing := by
    rcases removing with ⟨removes, rest, invalidates⟩
    rcases holds.phase_after waits removes with ⟨rfl, same⟩ | ⟨-, rfl, count, same⟩
    · cases same
      rcases answer with raised | count
      · cases invalidates
      · exact not_hasRow_of_deletes does
    · cases same
      rcases answer with raised | reply <;> cases invalidates
  phase removes := by
    rcases holds.phase_after waits removes with ⟨rfl, same⟩ | ⟨-, rfl, count, same⟩
    · cases same
      rcases answer with raised | count
      · exact RemovalPhase.returned _
      · exact RemovalPhase.invalidating count
    · cases same
      rcases answer with raised | reply <;> exact RemovalPhase.returned _

end MemberProcess.Holds

/-- Where a removal of the user has returned, the user is gone, and every process copes. -/
structure Watched (tenantId channelId userId : Id16) (world : MemberWorld) : Prop where
  gone : world.removed = true → Gone tenantId channelId userId world.store
  processes : ∀ process current, world.processes process = some current →
    current.Holds tenantId channelId userId world.store world.removed

variable {world next : MemberWorld} {label : MemberLabel}

/-- The user stays gone over a timely command, and is gone when a removal returns. -/
theorem Watched.gone_performed (watched : Watched tenantId channelId userId world) {number : ℕ}
    {rest : Except Raise (single.Answer command) → Single MemberReply}
    (present : world.processes number = some process) (waits : process.rest = .call command rest)
    (does : Does world.store ⟨command, answer⟩ target)
    (timely : Timely tenantId channelId userId world (.performed number ⟨command, answer⟩ target))
    (notAdded : adds tenantId channelId userId target command = false)
    (removes : world.removed = true ∨
      process.asked.removes userId = true ∧ returnsOk (rest answer) = true) :
    Gone tenantId channelId userId target := by
  have holds := watched.processes number process present
  rcases removes with already | ⟨removes, returns⟩
  · have gone := watched.gone already
    by_cases keeps : SingleKeeps tenantId channelId userId command
    · exact gone.does keeps notAdded does
    -- rows that were selected before the user was deleted
    cases command with
    | pipedSadd key members =>
        simp only [SingleKeeps, Classical.not_imp, not_not] at keeps
        rcases keeps with ⟨rfl, member⟩
        have stale : process.stale = true := by
          by_contra fresh
          rcases holds.fresh (by simpa using fresh) with ⟨row, rowMem, key⟩ | fills
          · exact gone.table row rowMem key
          · rw [FillsSelected, waits] at fills
            exact fills.1 rfl member
        exact timely.fresh number process members answer target already present stale rfl member ▸
          gone
    | _ => exact absurd trivial keeps
  · rcases holds.phase_after waits removes with ⟨rfl, same⟩ | ⟨removing, rfl, count, same⟩
    · cases same
      rcases answer with raised | count <;> cases returns
    · exact gone_of_del (holds.removing removing) does
        (timely.invalidated number process _ target rfl present removing)

theorem Watched.step (watched : Watched tenantId channelId userId world)
    (timely : Timely tenantId channelId userId world label)
    (step : MemberRunStep tenantId channelId userId world label next) :
    Watched tenantId channelId userId next := by
  cases step with
  | @called number asked free =>
      refine ⟨watched.gone, fun other current present => ?_⟩
      dsimp only [MemberWorld.begin] at present ⊢
      by_cases same : other = number
      · subst same
        rw [Function.update_self] at present
        obtain rfl := Option.some.inj present
        exact MemberProcess.Holds.started asked
      · rw [Function.update_of_ne same] at present
        exact watched.processes other current present
  | @performed number process command answer rest target present waits does =>
      have stays : world.removed = true → adds tenantId channelId userId target command = false →
          (world.perform tenantId channelId userId number process command answer rest
            target).removed = true := by
        intro removed notAdded
        simp [MemberWorld.perform, removed, notAdded]
      refine ⟨fun removed => ?_, fun other current presentAfter => ?_⟩
      · simp only [MemberWorld.perform, Bool.and_eq_true, Bool.or_eq_true,
          Bool.not_eq_true'] at removed
        exact watched.gone_performed present waits does timely removed.1 removed.2
      by_cases same : other = number
      · subst same
        simp only [MemberWorld.perform, Function.update_self] at presentAfter
        obtain rfl := Option.some.inj presentAfter
        exact (watched.processes other process present).performed watched.gone waits does stays
      · simp only [MemberWorld.perform, Function.update_of_ne same] at presentAfter
        rcases Option.map_eq_some_iff.mp presentAfter with ⟨before, beforePresent, rfl⟩
        exact (watched.processes other before beforePresent).sees does
          (fun added => timely.apart number _ target rfl added other before beforePresent) stays
  | @expired key =>
      refine ⟨fun removed => ?_, fun number process present => ?_⟩
      · refine (watched.gone removed).expires ⟨rfl, fun other => ?_⟩
        by_cases same : other = key
        · exact Or.inr (by rw [same]; exact Function.update_self ..)
        · exact Or.inl (Function.update_of_ne same ..)
      · have holds := watched.processes number process present
        exact ⟨holds.denies, holds.checks, holds.unselected, holds.fresh, holds.removing,
          holds.phase⟩

theorem Watched.check_denies (watched : Watched tenantId channelId userId world) :
    world.Denies userId := by
  intro number process outcome present isCheck denies ended
  have checks := (watched.processes number process present).checks isCheck denies
    (process.raised = false) id
  have denied : Denied (process.raised = false) outcome := by
    cases restEq : process.rest with
    | done reply =>
        rw [restEq] at checks ended
        cases ended
        exact checks
    | fail error =>
        rw [restEq] at checks ended
        cases ended
        exact checks
    | call =>
        rw [restEq] at ended
        cases ended
  exact denied.imp_right fun failed => ⟨by simpa using failed.1, failed.2⟩

/-- A world in which no process has started. -/
def MemberWorld.start (store : MemberStore) : MemberWorld where
  store := store
  processes _ := none
  removed := false

/-- In a run of timely steps, whatever the commands of the processes interleave, a `member?` that
starts after a removal has returned denies the user until the user is added. -/
theorem removed_denied {labels : List MemberLabel}
    (run : Run (Guarded (Timely tenantId channelId userId)
      (MemberRunStep tenantId channelId userId)) (MemberWorld.start store) labels world) :
    world.Denies userId := by
  have watched : Watched tenantId channelId userId world :=
    run.invariant (fun watched taken => watched.step taken.1 taken.2)
      ⟨by rintro ⟨⟩, by rintro number process ⟨⟩⟩
  exact watched.check_denies

end Runs

/-! ## A stale fill -/

/-- Users 5 and 6 are in the channel, and the cache is empty. -/
def twoMembers : MemberStore where
  table :=
    { rows := [⟨.replicate 1, .replicate 7, .replicate 5, 0⟩,
        ⟨.replicate 1, .replicate 7, .replicate 6, 0⟩]
      unique := by decide }
  cache _ := []

/-- A command of a process that is not stale while the user is removed, and that is no `DEL` of a
removal which is lost while the user is in the cached set. -/
theorem timely_performed {tenantId channelId userId : Id16} {world : MemberWorld} {number : ℕ}
    {process : MemberProcess} {taken : Performed single Raise} {target : MemberStore}
    (present : world.processes number = some process)
    (fresh : world.removed = true → process.stale = false)
    (other : adds tenantId channelId userId target taken.call = false)
    (absent : process.asked.removes userId = true → target = world.store →
      userId.val ∉ world.store.cache (Cache.membersKey tenantId.val channelId.val)) :
    Timely tenantId channelId userId world (.performed number taken target) where
  fresh := by
    rintro _ current members answer _ removed currentPresent stale ⟨⟩
    obtain rfl := Option.some.inj (present.symm.trans currentPresent)
    rw [fresh removed] at stale
    cases stale
  apart := by
    rintro _ _ _ ⟨⟩ added
    rw [other] at added
    cases added
  invalidated := by
    rintro _ current _ _ ⟨⟩ currentPresent removing
    obtain rfl := Option.some.inj (present.symm.trans currentPresent)
    exact absent removing.1

theorem timely_called {tenantId channelId userId : Id16} {world : MemberWorld} {number : ℕ}
    {asked : MemberCall} : Timely tenantId channelId userId world (.called number asked) :=
  ⟨by rintro _ _ _ _ _ _ _ _ ⟨⟩, by rintro _ _ _ ⟨⟩, by rintro _ _ _ _ ⟨⟩⟩

theorem nothing_cached :
    Does twoMembers ⟨.command (.smembers (Cache.membersKey (Id16.replicate 1).val
      (Id16.replicate 7).val)), .ok (.ok [])⟩ twoMembers :=
  Does.command (by simp) (Carried.smembers fun id => Iff.rfl)

theorem twoMembers_listed :
    Does twoMembers ⟨.command (.selectMemberIds (.replicate 1) (.replicate 7)),
      .ok [.replicate 5, .replicate 6]⟩ twoMembers := by
  refine Does.command (by simp) (Carried.selectMemberIds fun id => ?_)
  simp [twoMembers, KeyedTable.mem_def, MemberRow.key, eq_comm]

/-- The channel without user 5. -/
def withoutFive : MemberStore :=
  { twoMembers with
    table := twoMembers.table.filter (·.key ≠ (.replicate 1, .replicate 7, .replicate 5)) }

theorem withoutFive_listed (cache : Bytes → List Bytes) :
    Does { withoutFive with cache := cache }
      ⟨.command (.selectMemberIds (.replicate 1) (.replicate 7)), .ok [.replicate 6]⟩
      { withoutFive with cache := cache } := by
  refine Does.command (by simp) (Carried.selectMemberIds fun id => ?_)
  have rows : withoutFive.table.rows = [⟨.replicate 1, .replicate 7, .replicate 6, 0⟩] := by
    decide
  simp [KeyedTable.mem_def, rows, MemberRow.key, eq_comm]

/-- The steps of the calls on the channel, watched for user 5. -/
abbrev FiveStep : MemberWorld → MemberLabel → MemberWorld → Prop :=
  MemberRunStep (.replicate 1) (.replicate 7) (.replicate 5)

/-- Those of them that are timely. -/
abbrev TimelyStep : MemberWorld → MemberLabel → MemberWorld → Prop :=
  Guarded (Timely (.replicate 1) (.replicate 7) (.replicate 5)) FiveStep

/-- A `DEL` that changes nothing found the set empty. -/
theorem not_mem_of_emptied {store : MemberStore} {key id : Bytes}
    (unchanged : { store with cache := Function.update store.cache key [] } = store) :
    id ∉ store.cache key := by
  have emptied : Function.update store.cache key [] key = store.cache key :=
    congrFun (congrArg MemberStore.cache unchanged) key
  rw [← emptied, Function.update_self]
  exact List.not_mem_nil

/-- The row of user 5 is deleted, and user 5 is still in the cached set. -/
def MemberWorld.Filled (world : MemberWorld) : Prop :=
  ¬world.store.HasRow (.replicate 1) (.replicate 7) (.replicate 5) ∧
    (Id16.replicate 5).val ∈
      world.store.cache (Cache.membersKey (Id16.replicate 1).val (Id16.replicate 7).val)

/-- A check that started after the removal of user 5 has returned `false`. -/
def MemberWorld.Checked (world : MemberWorld) : Prop :=
  ∃ process, world.processes 2 = some process ∧ process.denies = true ∧
    outcome? process.rest = some (.ok (.decided (.ok false)))

/-- A listing selects both rows, user 5 is deleted, and the listing fills the cache. Only then is
the set invalidated, and a check fills it with user 6. -/
theorem exists_overlap : ∃ before filled,
    Run TimelyStep (MemberWorld.start twoMembers) before filled ∧ filled.Filled ∧
      ∃ after world, Run TimelyStep filled after world ∧ world.Checked := by
  refine Run.exists_cons (Guarded.intro
    (@MemberRunStep.called _ _ _ _ 0 .listMembers rfl)
    timely_called) ?_
  refine Run.exists_cons (Guarded.intro
    (@MemberRunStep.performed _ _ _ _ 0 _ _ _ _ _ rfl rfl nothing_cached)
    (timely_performed rfl nofun rfl nofun)) ?_
  refine Run.exists_cons (Guarded.intro
    (@MemberRunStep.performed _ _ _ _ 0 _ _ _ _ _ rfl rfl twoMembers_listed)
    (timely_performed rfl nofun rfl nofun)) ?_
  refine Run.exists_cons (Guarded.intro
    (@MemberRunStep.called _ _ _ _ 1 (.removeMember (Id16.replicate 5).val) rfl)
    timely_called) ?_
  refine Run.exists_cons (Guarded.intro
    (@MemberRunStep.performed _ _ _ _ 1 _ _ (.ok (1 : ℕ)) _ _ rfl rfl
      (Does.command (by simp) Carried.deleteMember))
    (timely_performed rfl nofun rfl fun _ _ => List.not_mem_nil)) ?_
  refine Run.exists_cons (Guarded.intro
    (@MemberRunStep.performed _ _ _ _ 0 _ _ _ _ _ rfl rfl Does.pipedDel)
    (timely_performed rfl nofun rfl nofun)) ?_
  refine Run.exists_cons (Guarded.intro
    (@MemberRunStep.performed _ _ _ _ 0 _ _ _ _ _ rfl rfl Does.pipedSadd)
    (timely_performed rfl nofun rfl nofun)) ?_
  refine ⟨_, _, Run.refl, ⟨by decide, by decide⟩, ?_⟩
  refine Run.exists_cons (Guarded.intro
    (@MemberRunStep.performed _ _ _ _ 1 _ _ (.ok (Except.ok ())) _ _ rfl rfl
      (Does.command (by simp) Carried.del))
    (timely_performed rfl nofun rfl fun _ unchanged => not_mem_of_emptied unchanged)) ?_
  refine Run.exists_cons (Guarded.intro
    (@MemberRunStep.called _ _ _ _ 2 (.isMember (Id16.replicate 5).val) rfl)
    timely_called) ?_
  refine Run.exists_cons (Guarded.intro
    (@MemberRunStep.performed _ _ _ _ 2 _ _ _ _ _ rfl rfl
      (Does.command (by simp) (Carried.smembers fun id => Iff.rfl)))
    (timely_performed rfl (fun _ => rfl) rfl nofun)) ?_
  refine Run.exists_cons (Guarded.intro
    (@MemberRunStep.performed _ _ _ _ 2 _ _ _ _ _ rfl rfl (withoutFive_listed _))
    (timely_performed rfl (fun _ => rfl) rfl nofun)) ?_
  refine Run.exists_cons (Guarded.intro
    (@MemberRunStep.performed _ _ _ _ 2 _ _ _ _ _ rfl rfl Does.pipedDel)
    (timely_performed rfl (fun _ => rfl) rfl nofun)) ?_
  refine Run.exists_cons (Guarded.intro
    (@MemberRunStep.performed _ _ _ _ 2 _ _ _ _ _ rfl rfl Does.pipedSadd)
    (timely_performed rfl (fun _ => rfl) rfl nofun)) ?_
  refine Run.exists_cons (Guarded.intro
    (@MemberRunStep.performed _ _ _ _ 2 _ _ (.ok (Except.ok ())) _ _ rfl rfl
      Does.pipedExpire)
    (timely_performed rfl (fun _ => rfl) rfl nofun)) ?_
  exact ⟨_, _, Run.refl, _, rfl, rfl, rfl⟩

theorem removed_denied_of_overlap : ∃ before filled after world,
    Run TimelyStep (MemberWorld.start twoMembers) before filled ∧ filled.Filled ∧
      Run TimelyStep filled after world ∧ world.Checked ∧ world.Denies (.replicate 5) := by
  rcases exists_overlap with ⟨before, filled, fills, isFilled, after, world, checks, checked⟩
  exact ⟨before, filled, after, world, fills, isFilled, checks, checked,
    removed_denied (fills.append checks)⟩

/-- A listing selects the rows before user 5 is removed, and fills the cache afterwards. -/
theorem stale_member_after_removal :
    ¬∀ (tenantId channelId userId : Id16) (store : MemberStore) (labels : List MemberLabel)
        (world : MemberWorld),
      Run (MemberRunStep tenantId channelId userId) (MemberWorld.start store) labels world →
      world.Denies userId := by
  intro alwaysDenied
  have stale : ∃ labels world, Run FiveStep (MemberWorld.start twoMembers) labels world ∧
      ¬world.Denies (.replicate 5) := by
    apply Run.exists_cons (@MemberRunStep.called _ _ _ _ 0 .listMembers rfl)
    apply Run.exists_cons (@MemberRunStep.performed _ _ _ _ 0 _ _ _ _ _ rfl rfl nothing_cached)
    apply Run.exists_cons (@MemberRunStep.performed _ _ _ _ 0 _ _ _ _ _ rfl rfl twoMembers_listed)
    refine Run.exists_cons
      (@MemberRunStep.called _ _ _ _ 1 (.removeMember (Id16.replicate 5).val) rfl) ?_
    refine Run.exists_cons (@MemberRunStep.performed _ _ _ _ 1 _ _ (.ok (1 : ℕ)) _ _ rfl rfl
      (Does.command (by simp) Carried.deleteMember)) ?_
    refine Run.exists_cons (@MemberRunStep.performed _ _ _ _ 1 _ _ (.ok (Except.ok ())) _ _ rfl rfl
      (Does.command (by simp) Carried.del)) ?_
    apply Run.exists_cons (@MemberRunStep.performed _ _ _ _ 0 _ _ _ _ _ rfl rfl Does.pipedDel)
    apply Run.exists_cons (@MemberRunStep.performed _ _ _ _ 0 _ _ _ _ _ rfl rfl Does.pipedSadd)
    refine Run.exists_cons
      (@MemberRunStep.called _ _ _ _ 2 (.isMember (Id16.replicate 5).val) rfl) ?_
    refine Run.exists_cons (@MemberRunStep.performed _ _ _ _ 2 _ _ _ _ _ rfl rfl
      (Does.command (by simp) (Carried.smembers fun id => Iff.rfl))) ?_
    refine ⟨_, _, Run.refl, fun denies => ?_⟩
    rcases denies 2 _ (.ok (.decided (.ok true))) rfl rfl rfl rfl with denied | ⟨-, other⟩
    · cases denied
    · exact other rfl
  rcases stale with ⟨labels, world, run, denied⟩
  exact denied (alwaysDenied _ _ _ _ _ _ run)

end Mercury.Persistence
