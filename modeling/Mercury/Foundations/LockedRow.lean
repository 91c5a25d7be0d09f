import Mathlib.Data.List.Induction
import Mathlib.Logic.Function.Basic
import Mercury.Foundations.Program

/-!
# One row under READ COMMITTED

Sessions run programs of statements on one row of a PostgreSQL table. A statement takes a
snapshot when it starts. Where the snapshot has a row for it, it waits for the lock of the row,
and goes by the row that is committed once it has the lock; a transaction keeps the lock until
it ends. A transaction that writes the row thus overwrites what it found when it took the lock
(`writes_of_committed`).
-/

namespace Foundations

/-! ## Statements -/

inductive Statement (Value : Type) where
  | begin
  /-- Selects the row if its value meets the condition. -/
  | selectForUpdate (condition : Value → Bool)
  | update (write : Value → Value)
  | commit
  | rollback

namespace Statement

variable {Value : Type}

abbrev Answer : Statement Value → Type
  | .selectForUpdate _ => Option Value
  | .update _ => ℕ
  | .begin | .commit | .rollback => Unit

/-- The snapshot has the row that the statement is about. -/
def Finds : Statement Value → Option Value → Prop
  | .selectForUpdate condition, some value => condition value = true
  | .update _, some _ => True
  | _, _ => False

end Statement

abbrev statements (Value : Type) : Interface where
  Call := Statement Value
  Answer := Statement.Answer

/-! ## Sessions -/

structure Session (Value Error Result : Type) where
  program : Program (statements Value) Error Result
  /-- The row, if any, in the snapshot of the statement that has started. -/
  snapshot : Option (Option Value)

structure RowLock (Value : Type) where
  holder : ℕ
  written : Option Value

/-- The committed row, if the table has it, the lock, and the sessions. -/
structure LockedRow (Value Error Result : Type) where
  row : Option Value
  lock : Option (RowLock Value)
  sessions : ℕ → Session Value Error Result

inductive RowEvent (Value : Type) where
  | started
  /-- The lock is taken, over the value that is committed. -/
  | locked (value : Value)
  | answered
  /-- A transaction ends that has written the row or not. -/
  | committed (written : Option Value)
  | rolledBack
  | failed

namespace LockedRow

variable {Value Error Result : Type}

/-- What the session has written and not committed. -/
def written (state : LockedRow Value Error Result) (index : ℕ) : Option Value :=
  state.lock.bind fun lock => if lock.holder = index then lock.written else none

/-- The row as the statements of the session see it. -/
def visible (state : LockedRow Value Error Result) (index : ℕ) : Option Value :=
  (state.written index).or state.row

/-- The session goes on with the program. -/
def reply (state : LockedRow Value Error Result) (index : ℕ)
    (program : Program (statements Value) Error Result) : LockedRow Value Error Result :=
  { state with sessions := Function.update state.sessions index ⟨program, none⟩ }

def release (state : LockedRow Value Error Result) (index : ℕ) : LockedRow Value Error Result :=
  { state with lock := state.lock.filter fun lock => lock.holder ≠ index }

/-- A statement that fails ends its transaction. -/
inductive Step (source : LockedRow Value Error Result) :
    ℕ × RowEvent Value → LockedRow Value Error Result → Prop where
  | started {index : ℕ} {asked : Statement Value}
      {next : Except Error asked.Answer → Program (statements Value) Error Result}
      (session : source.sessions index = ⟨.call asked next, none⟩) :
      Step source (index, .started)
        { source with
          sessions := Function.update source.sessions index
            ⟨.call asked next, some (source.visible index)⟩ }
  | locked {index : ℕ} {asked : Statement Value}
      {next : Except Error asked.Answer → Program (statements Value) Error Result}
      {snapshot : Option Value} {value : Value}
      (session : source.sessions index = ⟨.call asked next, some snapshot⟩)
      (finds : asked.Finds snapshot) (free : source.lock = none)
      (current : source.row = some value) :
      Step source (index, .locked value) { source with lock := some ⟨index, none⟩ }
  | begun {index : ℕ} {next : Except Error Unit → Program (statements Value) Error Result}
      {snapshot : Option Value}
      (session : source.sessions index = ⟨.call .begin next, some snapshot⟩) :
      Step source (index, .answered) (source.reply index (next (.ok ())))
  | selected {index : ℕ} {condition : Value → Bool}
      {next : Except Error (Option Value) → Program (statements Value) Error Result}
      {snapshot written : Option Value}
      (session : source.sessions index = ⟨.call (.selectForUpdate condition) next, some snapshot⟩)
      (finds : Statement.Finds (.selectForUpdate condition) snapshot)
      (holds : source.lock = some ⟨index, written⟩) :
      Step source (index, .answered)
        (source.reply index (next (.ok ((source.visible index).filter condition))))
  | selectedNone {index : ℕ} {condition : Value → Bool}
      {next : Except Error (Option Value) → Program (statements Value) Error Result}
      {snapshot : Option Value}
      (session : source.sessions index = ⟨.call (.selectForUpdate condition) next, some snapshot⟩)
      (misses : ¬Statement.Finds (.selectForUpdate condition) snapshot) :
      Step source (index, .answered) (source.reply index (next (.ok none)))
  | updated {index : ℕ} {write : Value → Value}
      {next : Except Error ℕ → Program (statements Value) Error Result}
      {snapshot written : Option Value} {value : Value}
      (session : source.sessions index = ⟨.call (.update write) next, some snapshot⟩)
      (finds : Statement.Finds (.update write) snapshot)
      (holds : source.lock = some ⟨index, written⟩)
      (current : source.visible index = some value) :
      Step source (index, .answered)
        ({ source with lock := some ⟨index, some (write value)⟩ }.reply index (next (.ok 1)))
  | updatedNone {index : ℕ} {write : Value → Value}
      {next : Except Error ℕ → Program (statements Value) Error Result}
      {snapshot : Option Value}
      (session : source.sessions index = ⟨.call (.update write) next, some snapshot⟩)
      (misses : ¬Statement.Finds (.update write) snapshot) :
      Step source (index, .answered) (source.reply index (next (.ok 0)))
  | committed {index : ℕ} {next : Except Error Unit → Program (statements Value) Error Result}
      {snapshot : Option Value}
      (session : source.sessions index = ⟨.call .commit next, some snapshot⟩) :
      Step source (index, .committed (source.written index))
        (({ source with row := source.visible index }.release index).reply index (next (.ok ())))
  | rolledBack {index : ℕ} {next : Except Error Unit → Program (statements Value) Error Result}
      {snapshot : Option Value}
      (session : source.sessions index = ⟨.call .rollback next, some snapshot⟩) :
      Step source (index, .rolledBack) ((source.release index).reply index (next (.ok ())))
  | failed {index : ℕ} {asked : Statement Value}
      {next : Except Error asked.Answer → Program (statements Value) Error Result}
      {snapshot : Option Value} {error : Error}
      (session : source.sessions index = ⟨.call asked next, some snapshot⟩) :
      Step source (index, .failed) ((source.release index).reply index (next (.error error)))

/-! ## What a session has to itself -/

/-- The committed row and what the session has written, while it has the lock. -/
def held (state : LockedRow Value Error Result) (index : ℕ) :
    Option (Option Value × Option Value) :=
  state.lock.bind fun lock =>
    if lock.holder = index then some (state.row, lock.written) else none

theorem lock_of_held {state : LockedRow Value Error Result} {index : ℕ}
    {row written : Option Value} (holds : state.held index = some (row, written)) :
    state.lock = some ⟨index, written⟩ ∧ state.row = row := by
  rcases Option.bind_eq_some_iff.mp holds with ⟨⟨holder, written⟩, lockEq, rowEq⟩
  split at rowEq
  · next own =>
      cases own
      cases rowEq
      exact ⟨lockEq, rfl⟩
  · cases rowEq

theorem held_of_lock {state : LockedRow Value Error Result} {index : ℕ} {written : Option Value}
    (holds : state.lock = some ⟨index, written⟩) :
    state.held index = some (state.row, written) := by
  simp [held, holds]

theorem held_of_written {state : LockedRow Value Error Result} {index : ℕ} {value : Value}
    (wrote : state.written index = some value) :
    state.held index = some (state.row, some value) := by
  rcases Option.bind_eq_some_iff.mp wrote with ⟨⟨holder, written⟩, lockEq, writtenEq⟩
  split at writtenEq
  · next own =>
      cases own
      cases writtenEq
      exact held_of_lock lockEq
  · cases writtenEq

/-- Only the holder of the lock has written. -/
theorem written_eq_none {state : LockedRow Value Error Result} {index other : ℕ}
    {row written : Option Value} (holds : state.held other = some (row, written))
    (differs : other ≠ index) : state.written index = none := by
  simp [LockedRow.written, (lock_of_held holds).1, differs]

@[simp]
theorem held_release_self (state : LockedRow Value Error Result) (index : ℕ) :
    (state.release index).held index = none := by
  cases lockEq : state.lock with
  | none => simp [held, release, lockEq]
  | some lock => simp [held, release, lockEq]

theorem held_release_of_ne (state : LockedRow Value Error Result) {index other : ℕ}
    (differs : other ≠ index) : (state.release index).held other = state.held other := by
  cases lockEq : state.lock with
  | none => simp [held, release, lockEq]
  | some lock =>
      by_cases own : lock.holder = index
      · simp [held, release, lockEq, own, differs.symm]
      · simp [held, release, lockEq, Option.filter, own]

@[simp]
theorem held_reply (state : LockedRow Value Error Result) (index other : ℕ)
    (program : Program (statements Value) Error Result) :
    (state.reply index program).held other = state.held other :=
  rfl

@[simp]
theorem sessions_reply_self (state : LockedRow Value Error Result) (index : ℕ)
    (program : Program (statements Value) Error Result) :
    (state.reply index program).sessions index = ⟨program, none⟩ :=
  Function.update_self _ _ _

section

variable {source target : LockedRow Value Error Result} {index other : ℕ}
  {event : RowEvent Value}

theorem sessions_of_step (taken : Step source (index, event) target) (differs : other ≠ index) :
    target.sessions other = source.sessions other := by
  cases taken with
  | locked => rfl
  | _ => exact Function.update_of_ne differs _ _

/-- A step leaves the lock of another session alone, and the row under it. -/
theorem held_of_step (taken : Step source (index, event) target) (differs : other ≠ index) :
    target.held other = source.held other := by
  cases taken with
  | locked session finds free current => simp [held, free, differs.symm]
  | updated session finds holds current => simp [held, reply, holds, differs.symm]
  | committed =>
      refine (held_release_of_ne _ differs).trans ?_
      cases holds : source.held other with
      | none =>
          cases lockEq : source.lock with
          | none => simp [held]
          | some lock =>
              have foreign : lock.holder ≠ other := by
                rintro rfl
                simp [held, lockEq] at holds
              simp [held, foreign]
      | some pair =>
          rcases lock_of_held holds with ⟨lockEq, rowEq⟩
          have unwritten := written_eq_none holds differs
          simp [held, lockEq, rowEq, visible, unwritten]
  | rolledBack => exact held_release_of_ne source differs
  | failed => exact held_release_of_ne source differs
  | _ => rfl

end

/-! ## What is written -/

def write : ℕ × RowEvent Value → Option (ℕ × Value)
  | (index, .committed (some value)) => some (index, value)
  | _ => none

/-- The versions of the row that are committed, each with its session, the last one last. -/
def writes (labels : List (ℕ × RowEvent Value)) : List (ℕ × Value) :=
  labels.filterMap write

@[simp]
theorem writes_append (first second : List (ℕ × RowEvent Value)) :
    writes (first ++ second) = writes first ++ writes second :=
  List.filterMap_append

theorem writes_snoc {label : ℕ × RowEvent Value} (unwritten : write label = none)
    (labels : List (ℕ × RowEvent Value)) : writes (labels ++ [label]) = writes labels := by
  rw [writes_append, writes, writes, List.filterMap_cons, unwritten, List.filterMap_nil,
    List.append_nil]

theorem writes_cons {label : ℕ × RowEvent Value} (unwritten : write label = none)
    (labels : List (ℕ × RowEvent Value)) : writes (label :: labels) = writes labels :=
  List.filterMap_cons_none unwritten

/-- The row after the labels. -/
def newest (row : Option Value) (labels : List (ℕ × RowEvent Value)) : Option Value :=
  ((writes labels).getLast?.map Prod.snd).or row

theorem write_eq_some {label : ℕ × RowEvent Value} {index : ℕ} {value : Value} :
    write label = some (index, value) ↔ label = (index, .committed (some value)) := by
  constructor
  · intro wrote
    unfold write at wrote
    split at wrote <;> simp_all
  · rintro rfl
    rfl

theorem mem_writes {labels : List (ℕ × RowEvent Value)} {index : ℕ} {value : Value} :
    (index, value) ∈ writes labels ↔ (index, .committed (some value)) ∈ labels := by
  simp [writes, List.mem_filterMap, write_eq_some]

theorem exists_first_write {labels : List (ℕ × RowEvent Value)} {index : ℕ} {value : Value}
    (first : (writes labels).head? = some (index, value)) :
    ∃ before after, labels = before ++ (index, .committed (some value)) :: after ∧
      writes before = [] := by
  induction labels with
  | nil => cases first
  | cons label rest ih =>
      cases wrote : write label with
      | none =>
          rcases ih (writes_cons wrote rest ▸ first) with ⟨before, after, rfl, none⟩
          exact ⟨label :: before, after, rfl, (writes_cons wrote before).trans none⟩
      | some version =>
          have kept : writes (label :: rest) = version :: writes rest :=
            List.filterMap_cons_some wrote
          rw [kept, List.head?_cons, Option.some.injEq] at first
          subst first
          exact ⟨[], rest, by rw [write_eq_some.mp wrote]; rfl, rfl⟩

theorem exists_last_write {labels : List (ℕ × RowEvent Value)} {index : ℕ} {value : Value}
    (last : (writes labels).getLast? = some (index, value)) :
    ∃ before after, labels = before ++ (index, .committed (some value)) :: after ∧
      writes after = [] := by
  induction labels using List.reverseRecOn with
  | nil => cases last
  | append_singleton earlier label ih =>
      cases wrote : write label with
      | none =>
          rcases ih (writes_snoc wrote earlier ▸ last) with ⟨before, after, rfl, none⟩
          exact ⟨before, after ++ [label], by simp, (writes_snoc wrote after).trans none⟩
      | some version =>
          have versions : writes [label] = [version] := List.filterMap_cons_some wrote
          rw [writes_append, versions, List.getLast?_append, List.getLast?_singleton,
            Option.some_or, Option.some.injEq] at last
          subst last
          exact ⟨earlier, [], by rw [write_eq_some.mp wrote], rfl⟩

theorem row_of_step {source target : LockedRow Value Error Result}
    {label : ℕ × RowEvent Value} (taken : Step source label target) :
    target.row = ((write label).map Prod.snd).or source.row := by
  cases taken with
  | @committed index =>
      cases wrote : source.written index <;>
        simp [write, reply, release, visible, wrote]
  | _ => rfl

theorem row_of_run {source target : LockedRow Value Error Result}
    {labels : List (ℕ × RowEvent Value)} (run : Run Step source labels target) :
    target.row = newest source.row labels := by
  induction run with
  | refl => rfl
  | @snoc middle target labels label earlier last ih =>
      rw [row_of_step last, ih, newest, newest, writes_append]
      cases wrote : write label <;> simp [writes, wrote]

/-! ## What is written is written over what was locked -/

theorem held_of_own_step {source target : LockedRow Value Error Result} {index : ℕ}
    {event : RowEvent Value} {row written : Option Value}
    (taken : Step source (index, event) target) (holds : target.held index = some (row, written)) :
    (∃ value, event = .locked value ∧ row = some value) ∨
      write (index, event) = none ∧ ∃ earlier, source.held index = some (row, earlier) := by
  cases taken with
  | @locked _ _ _ _ value session finds free current =>
      refine Or.inl ⟨value, rfl, ?_⟩
      rw [← (lock_of_held holds).2]
      exact current
  | @updated _ _ _ _ earlier _ session finds lockEq current =>
      refine Or.inr ⟨rfl, earlier, ?_⟩
      rw [held_of_lock lockEq, ← (lock_of_held holds).2]
      rfl
  | committed | rolledBack | failed =>
      rw [held_reply, held_release_self] at holds
      cases holds
  | _ => exact Or.inr ⟨rfl, written, holds⟩

/-- The session that has the lock took it over the row as it still is. -/
theorem exists_locked_of_held {source target : LockedRow Value Error Result}
    {labels : List (ℕ × RowEvent Value)} (run : Run Step source labels target)
    (free : source.lock = none) {index : ℕ} {row written : Option Value}
    (holds : target.held index = some (row, written)) :
    ∃ before value after, labels = before ++ (index, .locked value) :: after ∧
      writes after = [] ∧ row = some value := by
  induction run generalizing written with
  | refl => simp [held, free] at holds
  | @snoc middle target labels label earlier last ih =>
      rcases label with ⟨actor, event⟩
      by_cases own : actor = index
      · subst own
        rcases held_of_own_step last holds with ⟨value, rfl, rowEq⟩ | ⟨unwritten, _, held⟩
        · exact ⟨labels, value, [], rfl, rfl, rowEq⟩
        · rcases ih held with ⟨before, value, after, rfl, none, rowEq⟩
          exact ⟨before, value, after ++ [(actor, event)], by simp,
            (writes_snoc unwritten after).trans none, rowEq⟩
      · have held := (held_of_step last (Ne.symm own)).symm.trans holds
        have unwritten : write (actor, event) = none := by
          cases last with
          | committed => rw [written_eq_none held (Ne.symm own), write]; simp
          | _ => rfl
        rcases ih held with ⟨before, value, after, rfl, none, rowEq⟩
        exact ⟨before, value, after ++ [(actor, event)], by simp,
          (writes_snoc unwritten after).trans none, rowEq⟩

theorem locked_of_step {source target : LockedRow Value Error Result} {index : ℕ} {value : Value}
    (taken : Step source (index, .locked value) target) : source.row = some value := by
  cases taken with
  | locked session finds free current => exact current

theorem written_of_step {source target : LockedRow Value Error Result} {index : ℕ}
    {written : Option Value} (taken : Step source (index, .committed written) target) :
    source.written index = written := by
  cases taken with
  | committed => rfl

/-- The lock is taken over the row that was committed last. -/
theorem newest_of_locked {source target : LockedRow Value Error Result} {index : ℕ} {value : Value}
    {before after : List (ℕ × RowEvent Value)}
    (run : Run Step source (before ++ (index, .locked value) :: after) target) :
    newest source.row before = some value := by
  rcases run.exists_between with ⟨middle, earlier, later⟩
  rcases later.uncons with ⟨next, taken, -⟩
  rw [← row_of_run earlier, locked_of_step taken]

/-- A version is written over the one that its session found when it took the lock. -/
theorem writes_of_committed {source target : LockedRow Value Error Result} {index : ℕ}
    {value : Value} {before after : List (ℕ × RowEvent Value)} (free : source.lock = none)
    (run : Run Step source (before ++ (index, .committed (some value)) :: after) target) :
    ∃ earlier found later, before = earlier ++ (index, .locked found) :: later ∧
      writes later = [] ∧ newest source.row earlier = some found := by
  rcases run.exists_between with ⟨middle, first, rest⟩
  rcases rest.uncons with ⟨next, taken, -⟩
  rcases exists_locked_of_held first free (held_of_written (written_of_step taken)) with
    ⟨earlier, found, later, rfl, none, -⟩
  exact ⟨earlier, found, later, rfl, none, newest_of_locked first⟩

/-! ## Sessions one by one -/

inductive RowAct (Value : Type) where
  | locked (value : Value)
  | wrote (value : Value)

/-- What the event is for the row, if it is the session's. -/
def act (index : ℕ) : ℕ × RowEvent Value → Option (RowAct Value)
  | (actor, .locked value) => if actor = index then some (.locked value) else none
  | (actor, .committed (some value)) => if actor = index then some (.wrote value) else none
  | _ => none

@[simp]
theorem act_locked (index : ℕ) (value : Value) :
    act index (index, .locked value) = some (.locked value) :=
  if_pos rfl

@[simp]
theorem act_committed (index : ℕ) (value : Value) :
    act index (index, .committed (some value)) = some (.wrote value) :=
  if_pos rfl

def acts (index : ℕ) (labels : List (ℕ × RowEvent Value)) : List (RowAct Value) :=
  labels.filterMap (act index)

@[simp]
theorem acts_append (index : ℕ) (first second : List (ℕ × RowEvent Value)) :
    acts index (first ++ second) = acts index first ++ acts index second :=
  List.filterMap_append

theorem acts_append_cons {index : ℕ} {label : ℕ × RowEvent Value} {done : RowAct Value}
    (acted : act index label = some done) (before after : List (ℕ × RowEvent Value)) :
    acts index (before ++ label :: after) = acts index before ++ done :: acts index after := by
  rw [acts_append]
  exact congrArg _ (List.filterMap_cons_some acted)

theorem act_of_ne {index actor : ℕ} (differs : index ≠ actor) (event : RowEvent Value) :
    act index (actor, event) = none := by
  unfold act
  split
  · next same =>
      cases same
      exact if_neg differs.symm
  · next same =>
      cases same
      exact if_neg differs.symm
  · rfl

theorem mem_acts_locked {index : ℕ} {value : Value} {labels : List (ℕ × RowEvent Value)} :
    .locked value ∈ acts index labels ↔ (index, .locked value) ∈ labels := by
  rw [acts, List.mem_filterMap]
  constructor
  · rintro ⟨label, labelMem, acted⟩
    unfold act at acted
    split at acted <;> simp_all
  · intro labelMem
    exact ⟨_, labelMem, act_locked index value⟩

theorem mem_acts_wrote {index : ℕ} {value : Value} {labels : List (ℕ × RowEvent Value)} :
    .wrote value ∈ acts index labels ↔ (index, .committed (some value)) ∈ labels := by
  rw [acts, List.mem_filterMap]
  constructor
  · rintro ⟨label, labelMem, acted⟩
    unfold act at acted
    split at acted <;> simp_all
  · intro labelMem
    exact ⟨_, labelMem, act_committed index value⟩

/-- What each session keeps by its own steps, whatever the others do, holds along a run. -/
theorem invariant_of_own (Invariant : ℕ → Session Value Error Result →
      Option (Option Value × Option Value) → List (RowAct Value) → Prop)
    {source target : LockedRow Value Error Result}
    (preserved : ∀ {before after index event done},
      Invariant index (before.sessions index) (before.held index) done →
        Step before (index, event) after →
          Invariant index (after.sessions index) (after.held index)
            (done ++ (act index (index, event)).toList))
    {labels : List (ℕ × RowEvent Value)} (run : Run Step source labels target)
    (initially : ∀ index, Invariant index (source.sessions index) (source.held index) [])
    (index : ℕ) : Invariant index (target.sessions index) (target.held index)
      (acts index labels) := by
  induction run with
  | refl => exact initially index
  | @snoc middle target labels label earlier last ih =>
      rcases label with ⟨actor, event⟩
      rw [acts_append]
      by_cases own : actor = index
      · subst own
        have after := preserved ih last
        cases acted : act actor (actor, event) <;> simpa [acts, acted] using after
      · rw [sessions_of_step last (Ne.symm own), held_of_step last (Ne.symm own)]
        simpa [acts, act_of_ne (Ne.symm own)] using ih

end LockedRow

end Foundations
