import Mathlib.Data.Finset.Sort
import Mercury.Core.Hlc
import Mercury.Crdt.Mergeable
import Mercury.Foundations.BoundedUnion

/-!
# The message log

`MessageLog` of `mercury-crdt`, a bounded map from clocks to messages. A merge
keeps its own data where both logs have an entry, and stops when the log is full,
so the laws hold among logs that agree with each other and fit together
(`laws_iff_fitting`).
-/

namespace Mercury.Crdt

open Foundations

inductive CrdtError where
  | logFull (max : ℕ)
deriving DecidableEq

/-- Max entries per log. -/
def maxLogEntries : ℕ := 100000

structure MessageLog where
  entries : Finmap fun _ : Hlc => Bytes
  bounded : entries.keys.card ≤ maxLogEntries

namespace MessageLog

theorem ext {left right : MessageLog} (same : left.entries = right.entries) : left = right := by
  rcases left with ⟨entries, _⟩
  rcases right with ⟨otherEntries, _⟩
  subst same
  rfl

def new : MessageLog where
  entries := ∅
  bounded := by simp

/-- The clocks of a log, in the order in which a `BTreeMap` visits them. -/
def clocks (log : MessageLog) : List Hlc :=
  log.entries.keys.sort (· ≤ ·)

def len (log : MessageLog) : ℕ :=
  log.entries.keys.card

def isEmpty (log : MessageLog) : Bool :=
  log.len == 0

/-- Append a message; an error if the log is at capacity. -/
def append (log : MessageLog) (hlc : Hlc) (data : Bytes) : Except CrdtError MessageLog :=
  if room : log.entries.keys.card < maxLogEntries then
    .ok
      { entries := log.entries.insert hlc data
        bounded := by
          have subset : (log.entries.insert hlc data).keys ⊆ insert hlc log.entries.keys := by
            intro key present
            simpa [Finmap.mem_keys, Finmap.mem_insert] using present
          have := (Finset.card_le_card subset).trans (Finset.card_insert_le _ _)
          omega }
  else .error (.logFull maxLogEntries)

/-- Delta sync: the entries strictly after `since`. -/
def entriesAfter (log : MessageLog) (since : Hlc) : List (Hlc × Bytes) :=
  (log.clocks.filter fun hlc => since < hlc).filterMap fun hlc =>
    (log.entries.lookup hlc).map fun data => (hlc, data)

def latestHlc (log : MessageLog) : Option Hlc :=
  log.clocks.getLast?

def merge (self other : MessageLog) : MessageLog where
  entries := BoundedUnion.fill maxLogEntries other.entries other.clocks self.entries
  bounded := BoundedUnion.card_fill_le self.bounded

/-- The two logs hold the same data where both have an entry. -/
def Agree (left right : MessageLog) : Prop :=
  ∀ hlc data other, left.entries.lookup hlc = some data → right.entries.lookup hlc = some other →
    data = other

theorem mem_clocks {log : MessageLog} {hlc : Hlc} : hlc ∈ log.clocks ↔ hlc ∈ log.entries := by
  rw [clocks, Finset.mem_sort, Finmap.mem_keys]

/-- A merge keeps what the log had. -/
theorem lookup_merge_of_mem {self : MessageLog} (other : MessageLog) {hlc : Hlc}
    (present : hlc ∈ self.entries) :
    (self.merge other).entries.lookup hlc = self.entries.lookup hlc :=
  BoundedUnion.lookup_fill_of_mem present

theorem keys_subset_merge (self other : MessageLog) :
    self.entries.keys ⊆ (self.merge other).entries.keys := by
  intro hlc present
  rw [Finmap.mem_keys] at present ⊢
  exact BoundedUnion.mem_fill_of_mem present

/-- Where two logs fit together, the merge is their union. -/
theorem lookup_merge {self other : MessageLog}
    (fits : (self.entries.keys ∪ other.entries.keys).card ≤ maxLogEntries) (hlc : Hlc) :
    (self.merge other).entries.lookup hlc =
      (self.entries.lookup hlc).or (other.entries.lookup hlc) := by
  have looped := @BoundedUnion.lookup_fill _ _ _ maxLogEntries other.entries self.entries
    other.clocks fits hlc
  rw [merge, looped]
  by_cases present : hlc ∈ other.entries
  · rw [if_pos (mem_clocks.mpr present)]
  · rw [if_neg (mt mem_clocks.mp present), Finmap.lookup_eq_none.mpr present]

theorem keys_merge {self other : MessageLog}
    (fits : (self.entries.keys ∪ other.entries.keys).card ≤ maxLogEntries) :
    (self.merge other).entries.keys = self.entries.keys ∪ other.entries.keys := by
  ext hlc
  rw [Finset.mem_union, Finmap.mem_keys, Finmap.mem_keys, Finmap.mem_keys,
    ← Finmap.lookup_isSome, lookup_merge fits, Option.isSome_or, Bool.or_eq_true,
    Finmap.lookup_isSome, Finmap.lookup_isSome]

theorem merge_self (log : MessageLog) : log.merge log = log := by
  refine ext (Finmap.ext_lookup fun hlc => ?_)
  rw [lookup_merge (by rw [Finset.union_self]; exact log.bounded), Option.or_self]

theorem merge_comm {a b : MessageLog} (agree : Agree a b)
    (fits : (a.entries.keys ∪ b.entries.keys).card ≤ maxLogEntries) :
    a.merge b = b.merge a := by
  refine ext (Finmap.ext_lookup fun hlc => ?_)
  rw [lookup_merge fits, lookup_merge (Finset.union_comm a.entries.keys _ ▸ fits)]
  rcases mine : a.entries.lookup hlc with _ | data
  · rw [Option.none_or, Option.or_none]
  · rcases theirs : b.entries.lookup hlc with _ | other
    · rfl
    · rw [agree hlc data other mine theirs, Option.some_or]

theorem merge_assoc {a b c : MessageLog}
    (fits : (a.entries.keys ∪ b.entries.keys ∪ c.entries.keys).card ≤ maxLogEntries) :
    (a.merge b).merge c = a.merge (b.merge c) := by
  have ab : (a.entries.keys ∪ b.entries.keys).card ≤ maxLogEntries :=
    (Finset.card_le_card Finset.subset_union_left).trans fits
  have bc : (b.entries.keys ∪ c.entries.keys).card ≤ maxLogEntries := by
    refine (Finset.card_le_card ?_).trans fits
    exact Finset.union_subset_union_left Finset.subset_union_right
  refine ext (Finmap.ext_lookup fun hlc => ?_)
  rw [lookup_merge (by rw [keys_merge ab]; exact fits), lookup_merge ab,
    lookup_merge (by rw [keys_merge bc, ← Finset.union_assoc]; exact fits), lookup_merge bc,
    Option.or_assoc]

/-- Logs that commute agree. -/
theorem agree_of_comm {a b : MessageLog} (commutes : a.merge b = b.merge a) : Agree a b := by
  intro hlc data other mine theirs
  have left := lookup_merge_of_mem b (Finmap.mem_of_lookup_eq_some mine)
  have right := lookup_merge_of_mem a (Finmap.mem_of_lookup_eq_some theirs)
  rw [commutes, right, mine, theirs] at left
  exact (Option.some.inj left).symm

/-- Logs that commute and associate in every order hold, merged, all their entries. -/
theorem fits_of_laws {logs : Set MessageLog} (laws : MergeLaws merge logs) {a b c : MessageLog}
    (aMem : a ∈ logs) (bMem : b ∈ logs) (cMem : c ∈ logs) :
    (a.entries.keys ∪ b.entries.keys ∪ c.entries.keys).card ≤ maxLogEntries := by
  have reordered : (a.merge b).merge c = (a.merge c).merge b := by
    rw [laws.associative a aMem b bMem c cMem, laws.associative a aMem c cMem b bMem,
      laws.commutative b bMem c cMem]
  have first : a.entries.keys ⊆ ((a.merge b).merge c).entries.keys :=
    (keys_subset_merge a b).trans (keys_subset_merge _ c)
  have second : b.entries.keys ⊆ ((a.merge b).merge c).entries.keys := by
    rw [laws.commutative a aMem b bMem]
    exact (keys_subset_merge b a).trans (keys_subset_merge _ c)
  have third : c.entries.keys ⊆ ((a.merge b).merge c).entries.keys := by
    rw [reordered, laws.commutative a aMem c cMem]
    exact (keys_subset_merge c a).trans (keys_subset_merge _ b)
  exact (Finset.card_le_card (Finset.union_subset (Finset.union_subset first second) third)).trans
    ((a.merge b).merge c).bounded

/-- The laws hold among logs exactly when any of them agree on the clocks they share
and any three of them fit into one log. -/
theorem laws_iff_fitting (logs : Set MessageLog) :
    MergeLaws merge logs ↔
      ∀ a ∈ logs, ∀ b ∈ logs, ∀ c ∈ logs, Agree a b ∧
        (a.entries.keys ∪ b.entries.keys ∪ c.entries.keys).card ≤ maxLogEntries := by
  constructor
  · intro laws a aMem b bMem c cMem
    exact ⟨agree_of_comm (laws.commutative a aMem b bMem), fits_of_laws laws aMem bMem cMem⟩
  · intro coherent
    refine ⟨?_, ?_, ?_⟩
    · intro a aMem b bMem
      rcases coherent a aMem b bMem b bMem with ⟨agree, fits⟩
      rw [Finset.union_assoc, Finset.union_self] at fits
      exact merge_comm agree fits
    · intro a aMem b bMem c cMem
      exact merge_assoc (coherent a aMem b bMem c cMem).2
    · intro a _
      exact merge_self a

/-- The log of one message. -/
def single (hlc : Hlc) (data : Bytes) : MessageLog where
  entries := Finmap.singleton hlc data
  bounded := by simp [maxLogEntries]

/-- Two logs with different data under one clock each keep their own. -/
theorem laws_fail_on_collision : ¬MergeLaws merge Set.univ := by
  intro laws
  have agree := agree_of_comm (laws.commutative (single (Hlc.now (.replicate 1) 5) [1]) trivial
    (single (Hlc.now (.replicate 1) 5) [2]) trivial)
  have sameData := agree _ [1] [2] Finmap.lookup_singleton_eq Finmap.lookup_singleton_eq
  simp at sameData

end MessageLog

/-! ## The map of a log -/

/-- The map of a log, which the type leaves without a bound. -/
abbrev LogEntries := Finmap fun _ : Hlc => Bytes

namespace LogEntries

/-- `append`: the map afterwards and the result. -/
def append (entries : LogEntries) (hlc : Hlc) (data : Bytes) :
    LogEntries × Except CrdtError Unit :=
  if maxLogEntries ≤ entries.keys.card then (entries, .error (.logFull maxLogEntries))
  else (entries.insert hlc data, .ok ())

def merge (self other : LogEntries) : LogEntries :=
  BoundedUnion.fill maxLogEntries other (other.keys.sort (· ≤ ·)) self

theorem append_fst (entries : LogEntries) (hlc : Hlc) (data : Bytes) :
    (entries.append hlc data).1 = BoundedUnion.insertWithin maxLogEntries entries hlc data := by
  unfold append BoundedUnion.insertWithin
  split <;> rfl

end LogEntries

end Mercury.Crdt
