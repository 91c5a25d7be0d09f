import Mercury.Crdt.MessageLog
import Mercury.Foundations.Run

/-!
# Runs of message logs

`MessageLog::append` and `merge` on the maps that any number of logs hold. No map
outgrows the bound, and a merge takes nothing away. An append overwrites the entry
of its clock and is refused by a full log even where it would change nothing, so a
log is append-only exactly where neither happens (`appendsOnly_iff`). Among logs
that agree, appending the entries after a clock is as good as a merge.
-/

namespace Mercury.Crdt

open Foundations

/-! ## Any number of logs -/

inductive LogOp (Index : Type) where
  | append (index : Index) (hlc : Hlc) (data : Bytes)
  /-- The other log is merged into the first. -/
  | merge (index other : Index)

namespace LogOp

variable {Index : Type} [DecidableEq Index]

def apply (logs : Index → LogEntries) : LogOp Index → Index → LogEntries
  | append index hlc data => Function.update logs index ((logs index).append hlc data).1
  | merge index other => Function.update logs index ((logs index).merge (logs other))

def Step (logs : Index → LogEntries) (op : LogOp Index) (next : Index → LogEntries) : Prop :=
  next = op.apply logs

/-- The logs that the operations lead to, all of them new at first. -/
def ReachedBy (ops : List (LogOp Index)) (logs : Index → LogEntries) : Prop :=
  Run Step (fun _ => MessageLog.new.entries) ops logs

end LogOp

namespace LogEntries

/-- `merge` keeps what there was, adds nothing but what the other has, and where it leaves
room, everything that the other has. -/
structure Conservative (entries other : LogEntries) : Prop where
  keeps : ∀ hlc data, entries.lookup hlc = some data →
    (entries.merge other).lookup hlc = some data
  adds : ∀ hlc data, (entries.merge other).lookup hlc = some data →
    entries.lookup hlc = some data ∨ other.lookup hlc = some data
  complete : (entries.merge other).keys.card < maxLogEntries →
    ∀ hlc, hlc ∈ other → hlc ∈ entries.merge other

theorem conservative (entries other : LogEntries) : Conservative entries other where
  keeps hlc data found := by
    rw [merge, BoundedUnion.lookup_fill_of_mem (Finmap.mem_of_lookup_eq_some found), found]
  adds hlc data found := BoundedUnion.lookup_fill_cases found
  complete room hlc present := by
    apply BoundedUnion.mem_fill_of_room room _ present
    rw [Finset.mem_sort, Finmap.mem_keys]
    exact present

theorem card_append_le {entries : LogEntries} (bounded : entries.keys.card ≤ maxLogEntries)
    (hlc : Hlc) (data : Bytes) : (entries.append hlc data).1.keys.card ≤ maxLogEntries := by
  rw [append_fst]
  exact BoundedUnion.card_insertWithin_le bounded hlc data

theorem card_merge_le {self : LogEntries} (bounded : self.keys.card ≤ maxLogEntries)
    (other : LogEntries) : (self.merge other).keys.card ≤ maxLogEntries :=
  BoundedUnion.card_fill_le bounded

end LogEntries

namespace LogOp

variable {Index : Type} [DecidableEq Index]

def Bounded (logs : Index → LogEntries) : Prop :=
  ∀ index, (logs index).keys.card ≤ maxLogEntries

theorem Bounded.step {logs next : Index → LogEntries} {op : LogOp Index}
    (bounded : Bounded logs) (taken : Step logs op next) : Bounded next := by
  intro index
  rw [taken]
  cases op with
  | append changed hlc data =>
      rw [apply, Function.update_apply]
      split
      · exact LogEntries.card_append_le (bounded changed) hlc data
      · exact bounded index
  | merge changed other =>
      rw [apply, Function.update_apply]
      split
      · exact LogEntries.card_merge_le (bounded changed) (logs other)
      · exact bounded index

theorem ReachedBy.bounded {ops : List (LogOp Index)} {logs : Index → LogEntries}
    (reached : ReachedBy ops logs) : Bounded logs :=
  Run.invariant (fun bounded taken => bounded.step taken) reached fun _ => MessageLog.new.bounded

/-- Among logs that start out new, none outgrows the bound, and every merge is conservative. -/
theorem bounded_conservative {ops : List (LogOp Index)} {logs : Index → LogEntries}
    (reached : ReachedBy ops logs) :
    (∀ index, (logs index).keys.card ≤ maxLogEntries) ∧
      ∀ into other, LogEntries.Conservative (logs into) (logs other) :=
  ⟨reached.bounded, fun into other => LogEntries.conservative (logs into) (logs other)⟩

/-- One log takes a message over from another. -/
theorem bounded_conservative_merged :
    let ops : List (LogOp Bool) := [append false (Hlc.now (.replicate 1) 5) [1], merge true false]
    let logs := (merge true false).apply
      ((append false (Hlc.now (.replicate 1) 5) [1]).apply fun _ => MessageLog.new.entries)
    ReachedBy ops logs ∧ (∀ index, (logs index).keys.card ≤ maxLogEntries) ∧
      ∀ into other, LogEntries.Conservative (logs into) (logs other) :=
  ⟨Run.snoc (Run.snoc Run.refl rfl) rfl,
    bounded_conservative (Run.snoc (Run.snoc Run.refl rfl) rfl)⟩

end LogOp

/-! ## Appending only -/

namespace LogEntries

variable {entries : LogEntries} {hlc : Hlc} {data : Bytes}

/-- An append fails and changes nothing, or adds its entry to what there was. An entry that
is there already is appended again without effect. -/
def AppendsOnly (entries : LogEntries) (hlc : Hlc) (data : Bytes) : Prop :=
  ((∃ error, entries.append hlc data = (entries, .error error)) ∨
    (entries.append hlc data).2 = .ok () ∧ (entries.append hlc data).1.lookup hlc = some data ∧
      ∀ other held, entries.lookup other = some held →
        (entries.append hlc data).1.lookup other = some held) ∧
  (entries.lookup hlc = some data → entries.append hlc data = (entries, .ok ()))

/-- An entry under the clock of an append is the same one where there is room, and another
one where there is none. -/
def Appendable (entries : LogEntries) (hlc : Hlc) (data : Bytes) : Prop :=
  hlc ∈ entries → (entries.lookup hlc = some data ↔ entries.keys.card < maxLogEntries)

theorem append_of_room (room : entries.keys.card < maxLogEntries) :
    entries.append hlc data = (entries.insert hlc data, .ok ()) :=
  if_neg (Nat.not_le_of_lt room)

theorem append_of_full (full : maxLogEntries ≤ entries.keys.card) :
    entries.append hlc data = (entries, .error (.logFull maxLogEntries)) :=
  if_pos full

theorem lookup_insert_of_appendable (appendable : entries.Appendable hlc data)
    (room : entries.keys.card < maxLogEntries) {other : Hlc} {held : Bytes}
    (found : entries.lookup other = some held) :
    (entries.insert hlc data).lookup other = some held := by
  by_cases same : other = hlc
  · subst other
    have own := (appendable (Finmap.mem_of_lookup_eq_some found)).mpr room
    rw [Finmap.lookup_insert, ← own, found]
  · rw [Finmap.lookup_insert_of_ne _ same, found]

theorem appendsOnly_of_appendable (appendable : entries.Appendable hlc data) :
    entries.AppendsOnly hlc data := by
  rcases Nat.lt_or_ge entries.keys.card maxLogEntries with room | full
  · rw [AppendsOnly, append_of_room room]
    refine ⟨Or.inr ⟨rfl, Finmap.lookup_insert _, ?_⟩, ?_⟩
    · intro other held found
      exact lookup_insert_of_appendable appendable room found
    · intro own
      have same : entries.insert hlc data = entries := by
        apply Finmap.ext_lookup
        intro other
        by_cases here : other = hlc
        · rw [here, Finmap.lookup_insert, own]
        · exact Finmap.lookup_insert_of_ne _ here
      rw [same]
  · rw [AppendsOnly, append_of_full full]
    refine ⟨Or.inl ⟨_, rfl⟩, ?_⟩
    intro own
    have := (appendable (Finmap.mem_of_lookup_eq_some own)).mp own
    omega

theorem appendable_of_appendsOnly (appendsOnly : entries.AppendsOnly hlc data) :
    entries.Appendable hlc data := by
  intro present
  constructor
  · intro own
    by_contra full
    have repeated := appendsOnly.2 own
    rw [append_of_full (Nat.le_of_not_lt full)] at repeated
    cases repeated
  · intro room
    rw [AppendsOnly, append_of_room room] at appendsOnly
    rcases appendsOnly.1 with ⟨error, failed⟩ | ⟨_, appended, kept⟩
    · cases congrArg Prod.snd failed
    · rcases Finmap.mem_iff.mp present with ⟨held, found⟩
      rw [found, ← kept hlc held found, appended]

end LogEntries

namespace LogOp

variable {Index : Type} [DecidableEq Index]

def Appendable (logs : Index → LogEntries) : LogOp Index → Prop
  | append index hlc data => (logs index).Appendable hlc data
  | merge _ _ => True

/-- An operation that keeps to it takes nothing away from any log. -/
theorem keeps_step {logs next : Index → LogEntries} {op : LogOp Index}
    (appendable : op.Appendable logs) (taken : Step logs op next) {index : Index} {hlc : Hlc}
    {data : Bytes} (found : (logs index).lookup hlc = some data) :
    (next index).lookup hlc = some data := by
  rw [taken]
  cases op with
  | append changed appended content =>
      rw [apply, Function.update_apply]
      split
      · next same =>
          subst same
          rcases Nat.lt_or_ge (logs index).keys.card maxLogEntries with room | full
          · rw [LogEntries.append_of_room room]
            exact LogEntries.lookup_insert_of_appendable appendable room found
          · rw [LogEntries.append_of_full full]
            exact found
      · exact found
  | merge changed other =>
      rw [apply, Function.update_apply]
      split
      · next same =>
          subst same
          exact (LogEntries.conservative _ _).keeps hlc data found
      · exact found

/-- A run of operations that keep to it takes nothing away from any log. -/
theorem keeps_run {ops : List (LogOp Index)} {logs target : Index → LogEntries}
    (run : Run (Guarded (fun logs op => op.Appendable logs) Step) logs ops target) {index : Index}
    {hlc : Hlc} {data : Bytes} (found : (logs index).lookup hlc = some data) :
    (target index).lookup hlc = some data := by
  induction run with
  | refl => exact found
  | snoc _ last ih => exact keeps_step last.1 last.2 ih

/-- An append keeps the log append-only exactly where `Appendable` admits it, whatever the log,
and runs of appends that it admits, and of merges, take nothing away from any log. -/
theorem appendsOnly_iff :
    (∀ (entries : LogEntries) (hlc : Hlc) (data : Bytes),
        entries.AppendsOnly hlc data ↔ entries.Appendable hlc data) ∧
      ∀ (ops : List (LogOp Index)) (logs target : Index → LogEntries),
        Run (Guarded (fun logs op => op.Appendable logs) Step) logs ops target →
          ∀ index hlc data, (logs index).lookup hlc = some data →
            (target index).lookup hlc = some data := by
  constructor
  · intro entries hlc data
    exact ⟨LogEntries.appendable_of_appendsOnly, LogEntries.appendsOnly_of_appendable⟩
  · intro ops logs target run index hlc data found
    exact keeps_run run found

/-- A second message under another clock leaves the first one in the log. -/
theorem append_keeps_first :
    let logs := (append () (Hlc.now (.replicate 1) 5) [1]).apply fun _ => MessageLog.new.entries
    ((append () (Hlc.now (.replicate 1) 6) [2]).apply logs ()).lookup (Hlc.now (.replicate 1) 5) =
      some [1] := by
  intro logs
  have first : (logs ()).lookup (Hlc.now (.replicate 1) 5) = some [1] := by
    simp [logs, apply, LogEntries.append, MessageLog.new, maxLogEntries]
  have appendable : (logs ()).Appendable (Hlc.now (.replicate 1) 6) [2] := by
    intro present
    simp [logs, apply, LogEntries.append, MessageLog.new, maxLogEntries, Hlc.now] at present
    exact absurd present Finmap.notMem_empty
  exact appendsOnly_iff.2 [append () (Hlc.now (.replicate 1) 6) [2]] logs _
    (Run.snoc Run.refl ⟨appendable, rfl⟩) () _ _ first

/-- A second append under one clock overwrites the first. -/
theorem appends_overwrite :
    ¬∀ (ops : List (LogOp Unit)) (logs : Unit → LogEntries), ReachedBy ops logs →
      ∀ hlc data, (logs ()).AppendsOnly hlc data := by
  intro keepsEntries
  have clock := Hlc.now (.replicate 1) 5
  have appendsOnly := keepsEntries [append () clock [1]] _ (Run.snoc Run.refl rfl) clock [2]
  have appendable := LogEntries.appendable_of_appendsOnly appendsOnly
  have small := BoundedUnion.card_insert_le (∅ : LogEntries) clock [1]
  simp [apply, LogEntries.append, LogEntries.Appendable, MessageLog.new, maxLogEntries]
    at appendable small
  omega

end LogOp

/-! ## Delta sync -/

namespace MessageLog

/-- The log after an append; an error leaves it as it was. -/
def afterAppend (log : MessageLog) (hlc : Hlc) (data : Bytes) : MessageLog :=
  match log.append hlc data with
  | .ok next => next
  | .error _ => log

/-- Every entry of a delta is appended, and errors are ignored. -/
def appendAll (log : MessageLog) (delta : List (Hlc × Bytes)) : MessageLog :=
  delta.foldl (fun log entry => log.afterAppend entry.1 entry.2) log

/-- Within the bound, the appends of the two models agree. -/
theorem entries_append (log : MessageLog) (hlc : Hlc) (data : Bytes) :
    LogEntries.append log.entries hlc data =
      ((log.afterAppend hlc data).entries, (log.append hlc data).map fun _ => ()) := by
  unfold afterAppend append LogEntries.append
  by_cases room : log.entries.keys.card < maxLogEntries
  · rw [dif_pos room, if_neg (Nat.not_le_of_lt room)]
    rfl
  · rw [dif_neg room, if_pos (Nat.le_of_not_lt room)]
    rfl

theorem entries_afterAppend (log : MessageLog) (hlc : Hlc) (data : Bytes) :
    (log.afterAppend hlc data).entries =
      BoundedUnion.insertWithin maxLogEntries log.entries hlc data := by
  rw [← LogEntries.append_fst, entries_append]

theorem entries_appendAll (log : MessageLog) (delta : List (Hlc × Bytes)) :
    (log.appendAll delta).entries =
      delta.foldl (fun entries entry =>
        BoundedUnion.insertWithin maxLogEntries entries entry.1 entry.2) log.entries := by
  induction delta generalizing log with
  | nil => rfl
  | cons entry rest ih =>
      rw [List.foldl_cons, ← entries_afterAppend, ← ih]
      rfl

theorem mem_entriesAfter {log : MessageLog} {since hlc : Hlc} {data : Bytes} :
    (hlc, data) ∈ log.entriesAfter since ↔ since < hlc ∧ log.entries.lookup hlc = some data := by
  simp only [entriesAfter, List.mem_filterMap, List.mem_filter, decide_eq_true_eq,
    Option.map_eq_some_iff, Prod.mk.injEq, mem_clocks]
  constructor
  · rintro ⟨clock, ⟨_, later⟩, held, found, rfl, rfl⟩
    exact ⟨later, found⟩
  · rintro ⟨later, found⟩
    exact ⟨hlc, ⟨Finmap.mem_of_lookup_eq_some found, later⟩, data, found, rfl, rfl⟩

/-- A log that has everything of `a` up to a clock takes the rest over entry by entry, in any
order and any number of times, as it would by a merge. -/
theorem appendAll_eq_merge (a b : MessageLog) (since : Hlc)
    (synced : ∀ hlc data, hlc ≤ since → a.entries.lookup hlc = some data →
      b.entries.lookup hlc = some data)
    (agree : Agree a b) (fits : (a.entries.keys ∪ b.entries.keys).card ≤ maxLogEntries)
    {delta : List (Hlc × Bytes)}
    (delivered : ∀ entry, entry ∈ delta ↔ entry ∈ a.entriesAfter since) :
    b.appendAll delta = b.merge a := by
  have fits' : (b.entries.keys ∪ a.entries.keys).card ≤ maxLogEntries :=
    Finset.union_comm a.entries.keys _ ▸ fits
  have within : BoundedUnion.Within b.entries (b.merge a).entries := by
    intro hlc data found
    rw [lookup_merge fits', found, Option.some_or]
  have theirs : ∀ hlc data, a.entries.lookup hlc = some data →
      (b.merge a).entries.lookup hlc = some data := by
    intro hlc data found
    rw [lookup_merge fits']
    rcases mine : b.entries.lookup hlc with _ | held
    · rw [Option.none_or, found]
    · rw [Option.some_or, agree hlc data held found mine]
  have deltaOf : ∀ entry ∈ delta, (b.merge a).entries.lookup entry.1 = some entry.2 := by
    rintro ⟨hlc, data⟩ entryMem
    exact theirs hlc data (mem_entriesAfter.mp ((delivered _).mp entryMem)).2
  apply ext
  apply Finmap.ext_lookup
  intro hlc
  rw [entries_appendAll, BoundedUnion.lookup_foldl_insertWithin (b.merge a).bounded within deltaOf]
  split
  · rfl
  · next undelivered =>
      rw [lookup_merge fits']
      rcases mine : b.entries.lookup hlc with _ | held
      · rcases found : a.entries.lookup hlc with _ | data
        · rfl
        · -- `a` has it and `b` lacks it, so it is after `since`
          have later : since < hlc := by
            apply lt_of_not_ge
            intro early
            rw [synced hlc data early found] at mine
            cases mine
          have listed := (delivered (hlc, data)).mpr (mem_entriesAfter.mpr ⟨later, found⟩)
          exact absurd (List.mem_map_of_mem listed) undelivered
      · rfl

theorem lookup_single {hlc other : Hlc} {data held : Bytes} :
    (single hlc data).entries.lookup other = some held ↔ other = hlc ∧ held = data := by
  constructor
  · intro found
    have present := Finmap.mem_of_lookup_eq_some found
    rw [single, Finmap.mem_singleton] at present
    subst present
    exact ⟨rfl, (Option.some.inj (Finmap.lookup_singleton_eq.symm.trans found)).symm⟩
  · rintro ⟨rfl, rfl⟩
    exact Finmap.lookup_singleton_eq

theorem appendAll_eq_merge_twice :
    let a := single (Hlc.now (.replicate 1) 6) [2]
    let b := single (Hlc.now (.replicate 1) 5) [1]
    b.appendAll [(Hlc.now (.replicate 1) 6, [2]), (Hlc.now (.replicate 1) 6, [2])] = b.merge a := by
  intro a b
  have after : Hlc.now (.replicate 1) 5 < Hlc.now (.replicate 1) 6 := by
    rw [Hlc.lt_iff]
    exact Or.inl (by decide)
  apply appendAll_eq_merge a b (Hlc.now (.replicate 1) 5)
  · intro hlc data early found
    rcases lookup_single.mp found with ⟨rfl, rfl⟩
    exact absurd after (not_lt_of_ge early)
  · intro hlc data other mine theirs
    rcases lookup_single.mp mine with ⟨rfl, rfl⟩
    exact absurd (lookup_single.mp theirs).1 after.ne'
  · refine (Finset.card_union_le _ _).trans ?_
    simp [a, b, single, maxLogEntries]
  · rintro ⟨hlc, data⟩
    rw [mem_entriesAfter]
    constructor
    · intro entryMem
      have same : (hlc, data) = (Hlc.now (.replicate 1) 6, [2]) := by simpa using entryMem
      cases same
      exact ⟨after, lookup_single.mpr ⟨rfl, rfl⟩⟩
    · rintro ⟨_, found⟩
      rcases lookup_single.mp found with ⟨rfl, rfl⟩
      simp

end MessageLog

end Mercury.Crdt
