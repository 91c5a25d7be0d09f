import Mercury.Core.Bytes
import Mercury.Foundations.RowPrograms

/-!
# Key packages on the row of a device

`KeyPackages.upload` and `KeyPackages.consume`, on the column `mls_key_package` of one row of
`devices`, and what each of them does to the row by itself.
-/

namespace Mercury.Persistence

open Foundations Foundations.LockedRow

inductive KeyPackageReply where
  /-- `:ok`. -/
  | uploaded
  | deviceNotFound
  | consumed (keyPackage : Bytes)
  | notFound

namespace KeyPackages

abbrev Queries (Result : Type) := Program (statements (Option Bytes)) Raise Result

def query (asked : Statement (Option Bytes)) : Queries asked.Answer :=
  @Program.perform (statements (Option Bytes)) Raise asked

/-- `Repo.update_all` outside of a transaction; the statement is one by itself. -/
def updateAll (write : Option Bytes → Option Bytes) : Queries ℕ := do
  let count : ℕ ← query (.update write)
  query .commit
  pure count

def upload (keyPackageBytes : Bytes) : Queries KeyPackageReply := do
  let count ← updateAll fun _ => some keyPackageBytes
  if 0 < count then pure .uploaded else pure .deviceNotFound

/-- `Repo.transaction`, with `Repo.rollback` as an error of its function. -/
def transaction {Result Reason : Type} (function : Queries (Except Reason Result)) :
    Queries (Except Reason Result) := do
  query .begin
  function.resume fun
    | .ok (.ok result) => do
        query .commit
        pure (.ok result)
    | .ok (.error reason) => do
        query .rollback
        pure (.error reason)
    | .error raised => (query .rollback).resume fun _ => .fail raised

/-- The function of the transaction in `consume`. -/
def consumeOne : Queries (Except Unit Bytes) := do
  let found : Option (Option Bytes) ← query (.selectForUpdate Option.isSome)
  match found.join with
  | none => pure (.error ())
  | some keyPackage => do
      let _ : ℕ ← query (.update fun _ => none)
      pure (.ok keyPackage)

def consume : Queries KeyPackageReply := do
  match ← transaction consumeOne with
  | .ok keyPackage => pure (.consumed keyPackage)
  | .error () => pure .notFound

/-! ## What they do to the row -/

/-- The row is not written. -/
def Unwritten (done : List (RowAct (Option Bytes))) : Prop :=
  ∀ value, .wrote value ∉ done

/-- An upload writes its package, if it returns `:ok`. -/
def uploadSpec (keyPackage : Bytes) : RowSpec (Option Bytes) Raise KeyPackageReply where
  during := Unwritten
  after
    | .ok .uploaded, done => ∃ found, done = [.locked found, .wrote (some keyPackage)]
    | _, done => Unwritten done

/-- A consume erases the package that it returns. -/
def consumeSpec : RowSpec (Option Bytes) Raise KeyPackageReply where
  during := Unwritten
  after
    | .ok (.consumed keyPackage), done => done = [.locked (some keyPackage), .wrote none]
    | _, done => Unwritten done

theorem unwritten_nil : Unwritten [] :=
  fun _ wrote => by cases wrote

theorem unwritten_locked (value : Option Bytes) : Unwritten [.locked value] :=
  fun _ wrote => by simp at wrote

theorem upholds_upload (keyPackage : Bytes) :
    Upholds (uploadSpec keyPackage) (upload keyPackage) none [] := by
  apply Upholds.update_
  · exact unwritten_nil
  · exact fun _ => unwritten_nil
  · apply Upholds.commit_unwritten
    · exact unwritten_nil
    · exact fun _ => unwritten_nil
    · exact unwritten_nil
  · exact unwritten_locked
  · exact fun value _ => unwritten_locked value
  · intro value
    apply Upholds.commit_
    · exact unwritten_locked value
    · exact fun _ => unwritten_locked value
    · exact ⟨value, rfl⟩

theorem upholds_rollback {own : Own (Option Bytes)} {done : List (RowAct (Option Bytes))}
    {next : Except Raise Unit → Queries KeyPackageReply} (unwritten : Unwritten done)
    (ends : ∀ answer, next answer = .done .notFound ∨ ∃ raised, next answer = .fail raised) :
    Upholds consumeSpec (.call .rollback next) own done := by
  have ended : ∀ answer, Upholds consumeSpec (next answer) none done := by
    intro answer
    rcases ends answer with same | ⟨raised, same⟩ <;> rw [same] <;> exact unwritten
  exact Upholds.rollback_ unwritten (fun _ => ended _) (ended _)

theorem upholds_consume : Upholds consumeSpec consume none [] := by
  apply Upholds.begin_
  · exact unwritten_nil
  · exact fun _ => unwritten_nil
  apply Upholds.selectForUpdate
  · exact unwritten_nil
  · intro raised
    exact upholds_rollback unwritten_nil fun answer => Or.inr ⟨raised, by cases answer <;> rfl⟩
  · apply upholds_rollback unwritten_nil
    rintro (raised | _)
    · exact Or.inr ⟨raised, rfl⟩
    · exact Or.inl rfl
  · exact unwritten_locked
  · intro value raised
    exact upholds_rollback (unwritten_locked value) fun answer =>
      Or.inr ⟨raised, by cases answer <;> rfl⟩
  · rintro (_ | keyPackage)
    · -- the package is gone since the snapshot
      apply upholds_rollback (unwritten_locked none)
      rintro (raised | _)
      · exact Or.inr ⟨raised, rfl⟩
      · exact Or.inl rfl
    · have unwritten := unwritten_locked (some keyPackage)
      apply Upholds.update_locked
      · exact unwritten
      · intro raised
        exact upholds_rollback unwritten fun answer => Or.inr ⟨raised, by cases answer <;> rfl⟩
      · apply Upholds.commit_
        · exact unwritten
        · exact fun _ => unwritten
        · rfl

end KeyPackages

end Mercury.Persistence
