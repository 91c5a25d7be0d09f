import Mercury.Foundations.Observation
import Mercury.Gateway.RowRuns

/-!
# The collector keeps up

A run of the garbage collector deletes at most ten thousand cursors, whichever of the
expired ones the database finds first. Each run either deletes all that have expired or a
full ten thousand; so once the collector has run often enough, for all the cursors there
were and were written meanwhile, of those that there were no old one is left.
-/

namespace Mercury.Gateway

open Foundations Foundations.Program Persistence

namespace GcWorker

/-- What a step adds to `total_cleaned`. -/
def cleaned : NodeLabel → ℕ
  | .collected _ deleted => deleted.length
  | _ => 0

def totalCleaned (labels : List NodeLabel) : ℕ :=
  (labels.map cleaned).sum

/-- The label is a run of the collector from this time on. -/
def RunsSince (now : ℕ) : NodeLabel → Bool
  | .collected time _ => now ≤ time
  | _ => false

/-- How often the collector has run from this time on. -/
def runsSince (now : ℕ) (labels : List NodeLabel) : ℕ :=
  labels.countP (RunsSince now)

section Deletes

variable {cutoff : ℕ} {cursors : KeyedTable CursorRow.key} {deleted : List CursorRow}

/-- A run that does not reach its bound deletes all that has expired. -/
theorem mem_of_deletes (deletes : Deletes cutoff cursors deleted)
    (below : deleted.length < maxDeletes) {row : CursorRow} (present : row ∈ cursors)
    (expired : row.updatedAt < cutoff) : row ∈ deleted := by
  rcases deletes with ⟨within, length⟩
  have all : deleted.length = (expiredCursors cutoff cursors).length := by omega
  have perm := within.perm_of_length_le all.ge
  exact perm.mem_iff.mpr (List.mem_filter.mpr ⟨present, decide_eq_true expired⟩)

/-- The rows that a run leaves, and those that it deletes. -/
theorem length_filter_deletes (deletes : Deletes cutoff cursors deleted) :
    deleted.length + (cursors.filter fun row => row ∉ deleted).rows.length =
      cursors.rows.length := by
  have distinct : cursors.rows.Nodup := cursors.unique.of_map
  have distinctDeleted : deleted.Nodup := by
    rcases deletes.1 with ⟨list, perm, sub⟩
    exact perm.nodup_iff.mp ((distinct.filter _).sublist sub)
  have same : (cursors.rows.filter fun row => row ∈ deleted).Perm deleted := by
    refine (List.perm_ext_iff_of_nodup (distinct.filter _) distinctDeleted).mpr fun row => ?_
    simp only [List.mem_filter, decide_eq_true_eq]
    refine ⟨fun both => both.2, fun gone => ⟨?_, gone⟩⟩
    exact (List.mem_filter.mp (deletes.1.subset gone)).1
  have split := List.length_eq_length_filter_add (l := cursors.rows) fun row => row ∈ deleted
  rw [split, same.length_eq]
  simp [KeyedTable.filter]

end Deletes

end GcWorker

/-! ## Writes -/

/-- The cursor that a command writes. -/
def Command.cursorWrite : Command → List CursorRow
  | .upsertCursor row => [row]
  | _ => []

/-- The cursor that a step writes. -/
def Node.cursorWrites (node : Node) : NodeLabel → List CursorRow
  | .worker tenantId pid (.performed _) =>
      ((node.workers tenantId pid).bind Worker.next).elim [] fun following =>
        following.command.cursorWrite
  | _ => []

theorem length_upsert_le {table : KeyedTable CursorRow.key} {row : CursorRow} :
    (table.upsert row).rows.length ≤ table.rows.length + 1 := by
  rw [KeyedTable.upsert, List.length_append, List.length_singleton]
  exact Nat.succ_le_succ (List.length_filter_le _ _)

theorem Stores.length_cursors_execute {stores : Stores} {moment : Moment} {command : Command} :
    (stores.execute moment command).2.cursors.rows.length ≤
      stores.cursors.rows.length + command.cursorWrite.length := by
  cases command with
  | upsertCursor row =>
      simp only [execute]
      split
      · exact length_upsert_le
      · exact Nat.le_add_right _ _
  | incr | setNew | insertUser | insertDevice =>
      simp only [execute]
      split <;> exact Nat.le_add_right _ _
  | insertMember =>
      simp only [execute]
      split
      · exact Nat.le_add_right _ _
      split <;> exact Nat.le_add_right _ _
  | insertReaction _ _ _ _ emoji => cases emoji <;> exact Nat.le_add_right _ _
  | _ => exact Nat.le_add_right _ _

/-! ## Steps -/

/-- No cursor is older than this, those written meanwhile apart. -/
def Stores.Fresh (cutoff : ℕ) (written : List CursorRow) (stores : Stores) : Prop :=
  ∀ row ∈ stores.cursors, cutoff ≤ row.updatedAt ∨ row ∈ written

theorem Stores.Fresh.append {cutoff : ℕ} {written more : List CursorRow} {stores : Stores}
    (fresh : stores.Fresh cutoff written) : stores.Fresh cutoff (written ++ more) :=
  fun row present => (fresh row present).imp_right (List.mem_append_left more)

namespace Node

variable {native : Native} {json : Json} {rate now : ℕ} {source node next : Node}
  {label : NodeLabel} {labels : List NodeLabel} {written : List CursorRow}

/-- What the step of a process does to the cursors. -/
theorem Step.cursors_of_worker {tenantId : Id16} {pid : ℕ} {event : WorkerEvent}
    (taken : Step native json rate node (.worker tenantId pid event) next) :
    next.stores.cursors.rows.length ≤ node.stores.cursors.rows.length +
        (node.cursorWrites (.worker tenantId pid event)).length ∧
      (node.stores.Fresh (now - GcWorker.cursorTtl) written →
        next.stores.Fresh (now - GcWorker.cursorTtl)
          (written ++ node.cursorWrites (.worker tenantId pid event))) := by
  rcases stores_workerStep taken with same | ⟨moment, worker, following, rfl, running, isNext,
    same⟩
  · rw [same]
    exact ⟨Nat.le_add_right _ _, fun fresh => fresh.append⟩
  · have writes : node.cursorWrites (.worker tenantId pid (.performed moment)) =
        following.command.cursorWrite := by
      simp only [cursorWrites, running, Option.bind_some, isNext, Option.elim_some]
    rw [same, writes]
    refine ⟨Stores.length_cursors_execute, fun fresh row present => ?_⟩
    rcases Stores.mem_cursors_execute present with old | upserts
    · exact fresh.append row old
    · refine Or.inr (List.mem_append_right _ ?_)
      rw [upserts]
      exact List.mem_singleton_self row

/-- A run of the collector. -/
theorem Step.cursors_of_collected {time : ℕ} {deleted : List CursorRow}
    (taken : Step native json rate node (.collected time deleted) next) :
    deleted.length + next.stores.cursors.rows.length = node.stores.cursors.rows.length ∧
      (node.stores.Fresh (now - GcWorker.cursorTtl) written →
        next.stores.Fresh (now - GcWorker.cursorTtl) written) ∧
      (now ≤ time → next.stores.Fresh (now - GcWorker.cursorTtl) written ∨
        GcWorker.maxDeletes ≤ deleted.length) := by
  simp only [Step, Node.step] at taken
  split at taken <;> cases taken
  next deletes =>
    refine ⟨GcWorker.length_filter_deletes deletes, fun fresh row present => ?_, fun since => ?_⟩
    · exact fresh row (KeyedTable.mem_filter.mp present).1
    · by_cases full : GcWorker.maxDeletes ≤ deleted.length
      · exact Or.inr full
      · refine Or.inl fun row present => Or.inl ?_
        rcases KeyedTable.mem_filter.mp present with ⟨held, kept⟩
        by_contra stale
        have gone := GcWorker.mem_of_deletes deletes (Nat.lt_of_not_le full) held (by omega)
        exact of_decide_eq_true kept gone

/-- What is left of the cursors of `source` and of those written after some steps. -/
structure Cleared (now : ℕ) (labels : List NodeLabel) (written : List CursorRow)
    (node source : Node) : Prop where
  counted : GcWorker.totalCleaned labels + node.stores.cursors.rows.length ≤
    source.stores.cursors.rows.length + written.length
  cleared : node.stores.Fresh (now - GcWorker.cursorTtl) written ∨
    GcWorker.maxDeletes * GcWorker.runsSince now labels ≤ GcWorker.totalCleaned labels

theorem cleared_refl : source.Cleared now [] [] source where
  counted := by simp [GcWorker.totalCleaned]
  cleared := Or.inr (by simp [GcWorker.runsSince])

theorem Cleared.step (cleared : node.Cleared now labels written source)
    (taken : Step native json rate node label next) :
    next.Cleared now (labels ++ [label]) (written ++ node.cursorWrites label) source := by
  have total : GcWorker.totalCleaned (labels ++ [label]) =
      GcWorker.totalCleaned labels + GcWorker.cleaned label := by
    simp [GcWorker.totalCleaned]
  have runs : GcWorker.runsSince now (labels ++ [label]) =
      GcWorker.runsSince now labels + if GcWorker.RunsSince now label then 1 else 0 := by
    simp [GcWorker.runsSince, List.countP_append, List.countP_singleton]
  have writes : (written ++ node.cursorWrites label).length =
      written.length + (node.cursorWrites label).length := List.length_append
  have counted := cleared.counted
  cases label with
  | worker tenantId pid event =>
      rcases @Step.cursors_of_worker native json rate now _ _ written _ _ _ taken with
        ⟨length, fresh⟩
      simp only [GcWorker.cleaned, GcWorker.RunsSince] at total runs
      refine ⟨by omega, ?_⟩
      rw [total, runs]
      exact cleared.cleared.imp_left fresh
  | consumed tenantHex applied =>
      have same : next.stores.cursors = node.stores.cursors := by
        rcases taken.consumed with ⟨arriving, _, rfl, rfl | ⟨key, rfl⟩⟩ <;> rfl
      simp only [GcWorker.cleaned, GcWorker.RunsSince] at total runs
      refine ⟨by rw [same]; omega, ?_⟩
      rw [total, runs]
      refine cleared.cleared.imp_left fun fresh row present => fresh.append row ?_
      rwa [same] at present
  | expired key =>
      cases taken
      simp only [GcWorker.cleaned, GcWorker.RunsSince] at total runs
      refine ⟨?_, ?_⟩
      · rw [total, writes]
        exact counted.trans (Nat.add_le_add_left (Nat.le_add_right _ _) _)
      · rw [total, runs]
        exact cleared.cleared.imp_left Stores.Fresh.append
  | collected time deleted =>
      rcases @Step.cursors_of_collected native json rate now _ _ written _ _ taken with
        ⟨length, fresh, clears⟩
      simp only [GcWorker.cleaned, GcWorker.RunsSince, decide_eq_true_eq] at total runs
      refine ⟨by omega, ?_⟩
      rcases cleared.cleared with held | many
      · exact Or.inl (fresh held).append
      · by_cases since : now ≤ time
        · refine (clears since).imp Stores.Fresh.append fun full => ?_
          rw [total, runs, if_pos since, Nat.mul_succ]
          exact Nat.add_le_add many full
        · rw [if_neg since] at runs
          refine Or.inr ?_
          rw [total, runs]
          exact many.trans (Nat.le_add_right _ _)

end Node

/-- From any state on, the cursors that the collector has deleted and those that are left are
no more than there were and were written; and once it has run since `now` as often as it takes
for all of these, each cursor that is left and is old at `now` was written meanwhile, by a
clock that was ninety days behind. -/
theorem collector_keeps_up (native : Native) (json : Json) (rate now : ℕ) {source target : Node}
    {labels : List NodeLabel} (run : Run (Node.Step native json rate) source labels target) :
    GcWorker.totalCleaned labels + target.stores.cursors.rows.length ≤
        source.stores.cursors.rows.length +
          (observed (Node.step native json rate) Node.cursorWrites source labels).length ∧
      (source.stores.cursors.rows.length +
          (observed (Node.step native json rate) Node.cursorWrites source labels).length <
            GcWorker.maxDeletes * GcWorker.runsSince now labels →
        ∀ row ∈ target.stores.cursors, now - GcWorker.cursorTtl ≤ row.updatedAt ∨
          row ∈ observed (Node.step native json rate) Node.cursorWrites source labels) := by
  have cleared : target.Cleared now labels
      (observed (Node.step native json rate) Node.cursorWrites source labels) source := by
    induction run with
    | refl => exact Node.cleared_refl
    | snoc earlier last ih =>
        rw [observed_snoc earlier]
        exact ih.step last
  refine ⟨cleared.counted, fun few => ?_⟩
  have counted := cleared.counted
  rcases cleared.cleared with fresh | many
  · exact fresh
  · omega

/-- A socket writes a cursor beside two old ones, the collector runs, and the socket moves its
cursor. -/
def keptUp : List NodeLabel :=
  connects (.replicate 9) (GcWorker.cursorTtl + 1) ++
    joins (.replicate 9) (numbered 0) (GcWorker.cursorTtl + 1) ++
      refreshes (.replicate 9) (GcWorker.cursorTtl + 1) ++
        .collected (GcWorker.cursorTtl + 1)
            [staleCursor (.replicate 1) 1, staleCursor (.replicate 1) 0] ::
          refreshes (.replicate 9) (GcWorker.cursorTtl + 2)

/-- The cursors that the database holds at first. -/
def twoStale : KeyedTable CursorRow.key :=
  ⟨[staleCursor (.replicate 1) 0, staleCursor (.replicate 1) 1], by decide⟩

theorem collector_keeps_up_once :
    ∃ target, Run (Node.Step (Capnp.native [] []) unusedJson 100)
        (Node.start (onlyCursors twoStale)) keptUp target ∧
      ∀ row ∈ target.stores.cursors, 1 ≤ row.updatedAt := by
  have played : (Run.play scripted (Node.start (onlyCursors twoStale)) keptUp).isSome = true := rfl
  rcases Option.isSome_iff_exists.mp played with ⟨target, reached⟩
  have recent : ∀ row ∈ observed scripted Node.cursorWrites (Node.start (onlyCursors twoStale))
      keptUp, 1 ≤ row.updatedAt := by decide
  have kept := collector_keeps_up (Capnp.native [] []) unusedJson 100 (GcWorker.cursorTtl + 1)
    (Run.of_play reached)
  refine ⟨target, Run.of_play reached, fun row present => ?_⟩
  rw [Nat.add_sub_cancel_left] at kept
  have few : 2 + (observed scripted Node.cursorWrites (Node.start (onlyCursors twoStale))
      keptUp).length <
        GcWorker.maxDeletes * GcWorker.runsSince (GcWorker.cursorTtl + 1) keptUp := by
    decide
  rcases kept.2 few row present with fresh | written
  · exact fresh
  · exact recent row written

end Mercury.Gateway
