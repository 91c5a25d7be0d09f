import Mercury.Foundations.LockedRow

/-!
# Programs on a locked row

What a session does to the row is read off its program alone. Whatever the other sessions do,
its statements are answered by the row that was committed when it took the lock, or find no row
in their snapshot. `Upholds` goes through the program once for all of these answers, and
`upholds_of_run` carries the result to the runs of all sessions.
-/

namespace Foundations.LockedRow

variable {Value Error Result : Type}

/-- What a session may have done to the row before its program ends, and when it has ended. -/
structure RowSpec (Value Error Result : Type) where
  during : List (RowAct Value) → Prop
  after : Except Error Result → List (RowAct Value) → Prop

/-- The row under the lock of a session that has it, and what the session has written. -/
abbrev Own (Value : Type) :=
  Option (Value × Option Value)

/-- A statement may take the lock before it is answered. -/
inductive Waits (asked : Statement Value) (own : Own Value) (done : List (RowAct Value)) :
    Own Value → List (RowAct Value) → Prop where
  | answered : Waits asked own done own done
  | locked {value : Value} {snapshot : Option Value} (finds : asked.Finds snapshot)
      (free : own = none) : Waits asked own done (some (value, none)) (done ++ [.locked value])

/-- How a statement may be answered, and what the session has then. -/
inductive Answered : (asked : Statement Value) → Own Value → List (RowAct Value) →
    Except Error asked.Answer → Own Value → List (RowAct Value) → Prop where
  | begun {own : Own Value} {done : List (RowAct Value)} :
      Answered .begin own done (.ok ()) own done
  | selected {condition : Value → Bool} {value : Value} {written : Option Value}
      {done : List (RowAct Value)} :
      Answered (.selectForUpdate condition) (some (value, written)) done
        (.ok ((some (written.getD value)).filter condition)) (some (value, written)) done
  | selectedNone {condition : Value → Bool} {done : List (RowAct Value)} :
      Answered (.selectForUpdate condition) none done (.ok none) none done
  | updated {write : Value → Value} {value : Value} {written : Option Value}
      {done : List (RowAct Value)} :
      Answered (.update write) (some (value, written)) done (.ok (1 : ℕ))
        (some (value, some (write (written.getD value)))) done
  | updatedNone {write : Value → Value} {done : List (RowAct Value)} :
      Answered (.update write) none done (.ok (0 : ℕ)) none done
  | committed {value written : Value} {done : List (RowAct Value)} :
      Answered .commit (some (value, some written)) done (.ok ()) none (done ++ [.wrote written])
  | committedNone {own : Own Value} {done : List (RowAct Value)}
      (unwritten : own.bind Prod.snd = none) : Answered .commit own done (.ok ()) none done
  | rolledBack {own : Own Value} {done : List (RowAct Value)} :
      Answered .rollback own done (.ok ()) none done
  | failed {asked : Statement Value} {own : Own Value} {done : List (RowAct Value)}
      {error : Error} : Answered asked own done (.error error) none done

def Upholds (spec : RowSpec Value Error Result) :
    Program (statements Value) Error Result → Own Value → List (RowAct Value) → Prop
  | .done result, _, done => spec.after (.ok result) done
  | .fail error, _, done => spec.after (.error error) done
  | .call asked next, own, done =>
      ∀ waiting acts, Waits asked own done waiting acts → spec.during acts ∧
        ∀ answer later after, Answered asked waiting acts answer later after →
          Upholds spec (next answer) later after

/-! ## Rules -/

namespace Upholds

variable {spec : RowSpec Value Error Result} {own : Own Value} {done : List (RowAct Value)}

/-- A statement that does not take the lock. -/
theorem call {asked : Statement Value}
    {next : Except Error asked.Answer → Program (statements Value) Error Result}
    (during : spec.during done) (locks : ∀ snapshot, asked.Finds snapshot → own ≠ none)
    (answered : ∀ answer later after, Answered asked own done answer later after →
      Upholds spec (next answer) later after) : Upholds spec (.call asked next) own done := by
  intro waiting acts waits
  cases waits with
  | locked finds free => exact absurd free (locks _ finds)
  | answered => exact ⟨during, answered⟩

theorem begin_ {next : Except Error Unit → Program (statements Value) Error Result}
    (during : spec.during done) (fails : ∀ error, Upholds spec (next (.error error)) none done)
    (begun : Upholds spec (next (.ok ())) own done) :
    Upholds spec (.call .begin next) own done := by
  refine call during (fun _ finds => absurd finds not_false) ?_
  intro answer later after answered
  cases answered with
  | begun => exact begun
  | failed => exact fails _

theorem commit_ {next : Except Error Unit → Program (statements Value) Error Result}
    {value written : Value}
    (during : spec.during done) (fails : ∀ error, Upholds spec (next (.error error)) none done)
    (committed : Upholds spec (next (.ok ())) none (done ++ [.wrote written])) :
    Upholds spec (.call .commit next) (some (value, some written)) done := by
  refine call during (fun _ finds => absurd finds not_false) ?_
  intro answer later after answered
  cases answered with
  | committed => exact committed
  | committedNone unwritten => cases unwritten
  | failed => exact fails _

theorem commit_unwritten {next : Except Error Unit → Program (statements Value) Error Result}
    (during : spec.during done) (fails : ∀ error, Upholds spec (next (.error error)) none done)
    (committed : Upholds spec (next (.ok ())) none done) :
    Upholds spec (.call .commit next) none done := by
  refine call during (fun _ finds => absurd finds not_false) ?_
  intro answer later after answered
  cases answered with
  | committedNone => exact committed
  | failed => exact fails _

theorem rollback_ {next : Except Error Unit → Program (statements Value) Error Result}
    (during : spec.during done) (fails : ∀ error, Upholds spec (next (.error error)) none done)
    (rolledBack : Upholds spec (next (.ok ())) none done) :
    Upholds spec (.call .rollback next) own done := by
  refine call during (fun _ finds => absurd finds not_false) ?_
  intro answer later after answered
  cases answered with
  | rolledBack => exact rolledBack
  | failed => exact fails _

/-- Without the lock, a row is selected as it is when the lock is taken, or not found. -/
theorem selectForUpdate {condition : Value → Bool}
    {next : Except Error (Option Value) → Program (statements Value) Error Result}
    (during : spec.during done) (fails : ∀ error, Upholds spec (next (.error error)) none done)
    (none_ : Upholds spec (next (.ok none)) none done)
    (waited : ∀ value, spec.during (done ++ [.locked value]))
    (failsLocked : ∀ value error,
      Upholds spec (next (.error error)) none (done ++ [.locked value]))
    (selected : ∀ value, Upholds spec (next (.ok ((some value).filter condition)))
      (some (value, none)) (done ++ [.locked value])) :
    Upholds spec (.call (.selectForUpdate condition) next) none done := by
  intro waiting acts waits
  cases waits with
  | @locked value =>
      refine ⟨waited value, fun answer later after answered => ?_⟩
      cases answered with
      | selected => exact selected value
      | failed => exact failsLocked value _
  | answered =>
      refine ⟨during, fun answer later after answered => ?_⟩
      cases answered with
      | selectedNone => exact none_
      | failed => exact fails _

/-- Without the lock, the row is written over what it is when the lock is taken. -/
theorem update_ {write : Value → Value}
    {next : Except Error ℕ → Program (statements Value) Error Result}
    (during : spec.during done) (fails : ∀ error, Upholds spec (next (.error error)) none done)
    (none_ : Upholds spec (next (.ok (0 : ℕ))) none done)
    (waited : ∀ value, spec.during (done ++ [.locked value]))
    (failsLocked : ∀ value error,
      Upholds spec (next (.error error)) none (done ++ [.locked value]))
    (updated : ∀ value, Upholds spec (next (.ok (1 : ℕ))) (some (value, some (write value)))
      (done ++ [.locked value])) :
    Upholds spec (.call (.update write) next) none done := by
  intro waiting acts waits
  cases waits with
  | @locked value =>
      refine ⟨waited value, fun answer later after answered => ?_⟩
      cases answered with
      | updated => exact updated value
      | failed => exact failsLocked value _
  | answered =>
      refine ⟨during, fun answer later after answered => ?_⟩
      cases answered with
      | updatedNone => exact none_
      | failed => exact fails _

/-- With the lock, a statement finds the row. -/
theorem update_locked {write : Value → Value} {value : Value} {written : Option Value}
    {next : Except Error ℕ → Program (statements Value) Error Result}
    (during : spec.during done) (fails : ∀ error, Upholds spec (next (.error error)) none done)
    (updated : Upholds spec (next (.ok (1 : ℕ)))
      (some (value, some (write (written.getD value)))) done) :
    Upholds spec (.call (.update write) next) (some (value, written)) done := by
  refine call during (fun _ _ => Option.some_ne_none _) ?_
  intro answer later after answered
  cases answered with
  | updated => exact updated
  | failed => exact fails _

end Upholds

/-! ## Runs -/

/-- A session upholds the specification, with a snapshot that is no older than its lock or in
which its statement finds the row. -/
structure Kept (spec : RowSpec Value Error Result) (session : Session Value Error Result)
    (held : Option (Option Value × Option Value)) (done : List (RowAct Value))
    (own : Own Value) : Prop where
  heldEq : held = own.map fun pair => (some pair.1, pair.2)
  upholds : Upholds spec session.program own done
  finds : ∀ asked next snapshot, session = ⟨.call asked next, some snapshot⟩ →
    ∀ value written, own = some (value, written) →
      snapshot = some (written.getD value) ∨ asked.Finds snapshot

section

variable {spec : RowSpec Value Error Result} {source target : LockedRow Value Error Result}
  {index : ℕ} {event : RowEvent Value} {done : List (RowAct Value)} {own : Own Value}

theorem visible_of_heldEq {value : Value} {written : Option Value}
    (holds : source.held index = some (some value, written)) :
    source.visible index = some (written.getD value) := by
  rcases lock_of_held holds with ⟨lockEq, rowEq⟩
  cases written <;> simp [visible, LockedRow.written, lockEq, rowEq]

theorem Kept.replied {asked : Statement Value}
    {next : Except Error asked.Answer → Program (statements Value) Error Result}
    {snapshot : Option (Option Value)} {held later : Option (Option Value × Option Value)}
    (kept : Kept spec ⟨.call asked next, snapshot⟩ held done own)
    {answer : Except Error asked.Answer} {ownAfter : Own Value} {after : List (RowAct Value)}
    (answered : Answered asked own done answer ownAfter after)
    (laterEq : later = ownAfter.map fun pair => (some pair.1, pair.2)) :
    Kept spec ⟨next answer, none⟩ later after ownAfter where
  heldEq := laterEq
  upholds := (kept.upholds own done .answered).2 answer ownAfter after answered
  finds _ _ _ started := by simp at started

theorem Kept.own_of_lock {session : Session Value Error Result} {written : Option Value}
    (kept : Kept spec session (source.held index) done own)
    (holds : source.lock = some ⟨index, written⟩) :
    ∃ value, own = some (value, written) ∧ source.held index = some (some value, written) := by
  have held := held_of_lock holds
  rcases Option.map_eq_some_iff.mp (kept.heldEq.symm.trans held) with ⟨⟨value, _⟩, ownEq, pairEq⟩
  simp only [Prod.mk.injEq] at pairEq
  rcases pairEq with ⟨rowEq, rfl⟩
  exact ⟨value, ownEq, rowEq ▸ held⟩

theorem Kept.written_eq {session : Session Value Error Result}
    (kept : Kept spec session (source.held index) done own) :
    source.written index = own.bind Prod.snd := by
  rcases own with _ | ⟨value, written⟩
  · apply Option.eq_none_iff_forall_ne_some.mpr
    intro value wrote
    exact absurd (held_of_written wrote) (by simp [kept.heldEq])
  · simp [LockedRow.written, (lock_of_held kept.heldEq).1]

theorem kept_of_step (kept : ∃ own, Kept spec (source.sessions index) (source.held index) done own)
    (taken : Step source (index, event) target) :
    ∃ own, Kept spec (target.sessions index) (target.held index)
      (done ++ (act index (index, event)).toList) own := by
  rcases kept with ⟨own, kept⟩
  cases taken with
  | @started _ asked next session =>
      rw [session] at kept
      simp only [Function.update_self, act, Option.toList_none, List.append_nil]
      refine ⟨own, kept.heldEq, kept.upholds, ?_⟩
      intro asked' next' snapshot started value written ownEq
      have seen : source.visible index = snapshot :=
        Option.some.inj (congrArg Session.snapshot started)
      have holds := kept.heldEq
      rw [ownEq] at holds
      exact Or.inl (seen ▸ visible_of_heldEq holds)
  | @locked _ asked next snapshot value session finds free current =>
      have unheld : source.held index = none := by simp [held, free]
      have ownEq : own = none := Option.map_eq_none_iff.mp (kept.heldEq.symm.trans unheld)
      rw [session] at kept ⊢
      refine ⟨some (value, none), ?_, ?_, ?_⟩
      · simp [held, current]
      · intro waiting acts waits
        cases waits with
        | locked _ taken => cases taken
        | answered =>
            have waits : Waits asked own done (some (value, none)) (done ++ [.locked value]) :=
              .locked finds ownEq
            simpa [act] using kept.upholds _ _ waits
      · intro asked' next' snapshot' started value' written' _
        cases started
        exact Or.inr finds
  | begun session =>
      rw [session] at kept
      refine ⟨own, ?_⟩
      simpa [act] using kept.replied .begun kept.heldEq
  | @selected _ condition next snapshot written session finds holds =>
      rcases kept.own_of_lock holds with ⟨value, rfl, heldEq⟩
      rw [session] at kept
      refine ⟨some (value, written), ?_⟩
      rw [visible_of_heldEq heldEq]
      simpa [act] using kept.replied .selected heldEq
  | @selectedNone _ condition next snapshot session misses =>
      rw [session] at kept
      refine ⟨own, ?_⟩
      have answered : @Answered Value Error (.selectForUpdate condition) own done (.ok none) own
          done := by
        rcases own with _ | ⟨value, written⟩
        · exact .selectedNone
        · rcases kept.finds _ _ _ rfl value written rfl with rfl | finds
          · have unmet : (some (written.getD value)).filter condition = none :=
              Option.filter_eq_none_iff.mpr fun _ same met => misses (Option.some.inj same ▸ met)
            have answered := @Answered.selected Value Error condition value written done
            rwa [unmet] at answered
          · exact absurd finds misses
      simpa [act] using kept.replied answered kept.heldEq
  | @updated _ write next snapshot written value session finds holds current =>
      rcases kept.own_of_lock holds with ⟨under, rfl, heldEq⟩
      rw [session] at kept
      rw [visible_of_heldEq heldEq] at current
      cases current
      refine ⟨some (under, some (write (written.getD under))), ?_⟩
      have replied := kept.replied .updated rfl
      simpa [act, held, reply, (lock_of_held heldEq).2] using replied
  | @updatedNone _ write next snapshot session misses =>
      rw [session] at kept
      have ownEq : own = none := by
        rcases own with _ | ⟨value, written⟩
        · rfl
        · rcases kept.finds _ _ _ rfl value written rfl with rfl | finds
          · exact absurd trivial misses
          · exact absurd finds misses
      subst ownEq
      refine ⟨none, ?_⟩
      simpa [act] using kept.replied .updatedNone kept.heldEq
  | @committed _ next snapshot session =>
      have wrote := kept.written_eq
      rw [session] at kept
      refine ⟨none, ?_⟩
      rw [held_reply, held_release_self, sessions_reply_self]
      rcases written : own.bind Prod.snd with _ | value
      · simpa [act, wrote, written] using kept.replied (.committedNone written) rfl
      · rcases own with _ | ⟨under, _⟩
        · cases written
        · cases written
          simpa [act, wrote] using kept.replied .committed rfl
  | rolledBack session =>
      rw [session] at kept
      refine ⟨none, ?_⟩
      simpa [act] using kept.replied .rolledBack (held_release_self source index)
  | failed session =>
      rw [session] at kept
      refine ⟨none, ?_⟩
      simpa [act] using kept.replied .failed (held_release_self source index)

end

/-- What every program upholds by itself, the sessions uphold in every run. -/
theorem upholds_of_run {specs : ℕ → RowSpec Value Error Result}
    {source target : LockedRow Value Error Result} (free : source.lock = none)
    (idle : ∀ index, (source.sessions index).snapshot = none)
    (upholds : ∀ index, Upholds (specs index) (source.sessions index).program none [])
    {labels : List (ℕ × RowEvent Value)} (run : Run Step source labels target) (index : ℕ) :
    ∃ own, Upholds (specs index) (target.sessions index).program own (acts index labels) := by
  have initially : ∀ index, ∃ own,
      Kept (specs index) (source.sessions index) (source.held index) [] own := by
    intro index
    refine ⟨none, by simp [held, free], upholds index, ?_⟩
    intro asked next snapshot started
    have waiting := (congrArg Session.snapshot started).symm.trans (idle index)
    cases waiting
  have kept := invariant_of_own
    (fun index session held done => ∃ own, Kept (specs index) session held done own)
    kept_of_step run initially index
  rcases kept with ⟨own, kept⟩
  exact ⟨own, kept.upholds⟩

/-- A session whose program has not ended keeps to what is allowed during it. -/
theorem during_or_after {spec : RowSpec Value Error Result}
    {program : Program (statements Value) Error Result} {own : Own Value}
    {done : List (RowAct Value)} (upholds : Upholds spec program own done) :
    spec.during done ∨ ∃ outcome, program = .ofExcept outcome ∧ spec.after outcome done := by
  cases program with
  | done result => exact Or.inr ⟨.ok result, rfl, upholds⟩
  | fail error => exact Or.inr ⟨.error error, rfl, upholds⟩
  | call asked next => exact Or.inl (upholds own done .answered).1

end Foundations.LockedRow
