import Mathlib.Data.Prod.Lex
import Mercury.Core.Bytes

/-!
# The hybrid logical clock

`Hlc::now`, `Hlc::tick` and `Hlc::merge`, with the system clock reading as an
argument, and the order of clocks. What an operation does to a clock is said once
(`Advances`): the wall clock is the latest of the reading and of the clocks that
went into it, and the counter runs on from those that already had it.
-/

namespace Mercury

structure Hlc where
  wallClockMs : ℕ
  counter : ℕ
  nodeId : Id16
deriving DecidableEq

namespace Hlc

def now (nodeId : Id16) (reading : ℕ) : Hlc where
  wallClockMs := reading
  counter := 0
  nodeId := nodeId

/-- `Hlc::tick`; a `checked_add` guards the counter in every build. -/
def tick (reading : ℕ) (clock : Hlc) : Option Hlc :=
  if clock.wallClockMs < reading then
    some { clock with wallClockMs := reading, counter := 0 }
  else
    (Build.checked.increment 32 clock.counter).map fun counter =>
      { clock with counter := counter }

def maxWall (reading : ℕ) (clock remote : Hlc) : ℕ :=
  max (max reading clock.wallClockMs) remote.wallClockMs

/-- The counter that `Hlc::merge` moves to. -/
def mergedCounter (build : Build) (reading : ℕ) (clock remote : Hlc) : Option ℕ :=
  let wall := maxWall reading clock remote
  if wall = clock.wallClockMs ∧ wall = remote.wallClockMs then
    build.increment 32 (max clock.counter remote.counter)
  else if wall = clock.wallClockMs then
    build.increment 32 clock.counter
  else if wall = remote.wallClockMs then
    build.increment 32 remote.counter
  else
    some 0

def merge (build : Build) (reading : ℕ) (clock remote : Hlc) : Option Hlc :=
  (mergedCounter build reading clock remote).map fun counter =>
    { clock with wallClockMs := maxWall reading clock remote, counter := counter }

/-- `merge` fails only where a counter is at its bound. -/
theorem merge_of_lt (build : Build) (reading : ℕ) {clock remote : Hlc}
    (local_ : clock.counter + 1 < 2 ^ 32) (remote_ : remote.counter + 1 < 2 ^ 32) :
    ∃ counter, merge build reading clock remote =
      some { clock with wallClockMs := maxWall reading clock remote, counter := counter } := by
  have both : max clock.counter remote.counter + 1 < 2 ^ 32 := by omega
  unfold merge mergedCounter
  simp only [Build.increment_of_lt local_, Build.increment_of_lt remote_,
    Build.increment_of_lt both]
  split_ifs <;> exact ⟨_, rfl⟩

/-! ## The order of clocks -/

/-- `impl Ord for Hlc`. -/
def cmp (left right : Hlc) : Ordering :=
  ((compare left.wallClockMs right.wallClockMs).then
    (compare left.counter right.counter)).then (compareOfLessAndEq left.nodeId right.nodeId)

/-- The fields in the order in which `cmp` compares them. -/
def orderKey (clock : Hlc) : ℕ ×ₗ ℕ ×ₗ Id16 :=
  toLex (clock.wallClockMs, toLex (clock.counter, clock.nodeId))

theorem orderKey_injective : Function.Injective orderKey := by
  rintro ⟨leftWall, leftCounter, leftNode⟩ ⟨rightWall, rightCounter, rightNode⟩ same
  simpa [orderKey] using same

instance : LinearOrder Hlc :=
  LinearOrder.lift' orderKey orderKey_injective

theorem lt_iff {left right : Hlc} :
    left < right ↔ left.wallClockMs < right.wallClockMs ∨
      left.wallClockMs = right.wallClockMs ∧ (left.counter < right.counter ∨
        left.counter = right.counter ∧ left.nodeId < right.nodeId) := by
  have keys : left < right ↔ left.orderKey < right.orderKey := Iff.rfl
  rw [keys, orderKey, orderKey, Prod.Lex.toLex_lt_toLex, Prod.Lex.toLex_lt_toLex]

/-- The order is the one that `cmp` decides. -/
theorem cmp_eq_lt {left right : Hlc} : cmp left right = .lt ↔ left < right := by
  rw [lt_iff, cmp]
  simp only [Ordering.then_eq_lt, Ordering.then_eq_eq, compare_lt_iff_lt, compare_eq_iff_eq,
    compareOfLessAndEq_eq_lt]
  tauto

/-- The wall clocks and counters suffice to order two clocks. -/
theorem lt_of_counter {left right : Hlc} (wall : left.wallClockMs ≤ right.wallClockMs)
    (counter : left.wallClockMs = right.wallClockMs → left.counter < right.counter) :
    left < right := by
  rw [lt_iff]
  omega

/-! ## What an operation does to a clock -/

/-- `next` is what a clock becomes at `reading` from the clocks `inputs`. -/
structure Advances (reading : ℕ) (inputs : List Hlc) (next : Hlc) : Prop where
  reading_le : reading ≤ next.wallClockMs
  input_le : ∀ input ∈ inputs, input.wallClockMs ≤ next.wallClockMs
  wall : next.wallClockMs = reading ∨ ∃ input ∈ inputs, next.wallClockMs = input.wallClockMs
  later : ∀ input ∈ inputs, input.wallClockMs = next.wallClockMs → input.counter < next.counter
  counter : next.counter = 0 ∨
    ∃ input ∈ inputs, input.wallClockMs = next.wallClockMs ∧ next.counter = input.counter + 1

/-- A clock advances past everything that went into it. -/
theorem Advances.lt {reading : ℕ} {inputs : List Hlc} {next input : Hlc}
    (advances : Advances reading inputs next) (inputMem : input ∈ inputs) : input < next :=
  lt_of_counter (advances.input_le input inputMem) (advances.later input inputMem)

theorem advances_now (nodeId : Id16) (reading : ℕ) :
    Advances reading [] (now nodeId reading) where
  reading_le := Nat.le_refl _
  input_le := by simp
  wall := Or.inl rfl
  later := by simp
  counter := Or.inl rfl

theorem increment_checked {bits value next : ℕ}
    (incremented : Build.checked.increment bits value = some next) : next = value + 1 := by
  unfold Build.increment at incremented
  split at incremented
  · exact (Option.some.inj incremented).symm
  · cases incremented

theorem advances_tick {reading : ℕ} {clock next : Hlc} (ticked : tick reading clock = some next) :
    Advances reading [clock] next ∧ next.nodeId = clock.nodeId := by
  unfold tick at ticked
  split at ticked
  · next ahead =>
      cases ticked
      refine ⟨⟨?_, ?_, ?_, ?_, ?_⟩, rfl⟩ <;> simp <;> omega
  · next behind =>
      rcases Option.map_eq_some_iff.mp ticked with ⟨counter, incremented, rfl⟩
      cases increment_checked incremented
      refine ⟨⟨?_, ?_, ?_, ?_, ?_⟩, rfl⟩ <;> simp
      omega

theorem advances_merge {reading : ℕ} {clock remote next : Hlc}
    (merged : merge .checked reading clock remote = some next) :
    Advances reading [clock, remote] next ∧ next.nodeId = clock.nodeId := by
  rcases Option.map_eq_some_iff.mp merged with ⟨counter, counterEq, rfl⟩
  unfold mergedCounter at counterEq
  refine ⟨?_, rfl⟩
  have wall : maxWall reading clock remote =
      max (max reading clock.wallClockMs) remote.wallClockMs := rfl
  dsimp only at counterEq
  split_ifs at counterEq with both mine theirs
  · cases increment_checked counterEq
    refine ⟨?_, ?_, ?_, ?_, ?_⟩ <;> simp <;> omega
  · cases increment_checked counterEq
    refine ⟨?_, ?_, ?_, ?_, ?_⟩ <;> simp <;> omega
  · cases increment_checked counterEq
    refine ⟨?_, ?_, ?_, ?_, ?_⟩ <;> simp <;> omega
  · cases counterEq
    refine ⟨?_, ?_, ?_, ?_, ?_⟩ <;> simp <;> omega

/-- Below the bound of the counters the build makes no difference. -/
theorem merge_eq_checked (build : Build) (reading : ℕ) {clock remote : Hlc}
    (local_ : clock.counter + 1 < 2 ^ 32) (remote_ : remote.counter + 1 < 2 ^ 32) :
    merge build reading clock remote = merge .checked reading clock remote := by
  have both : max clock.counter remote.counter + 1 < 2 ^ 32 := by omega
  unfold merge mergedCounter
  simp only [Build.increment_of_lt local_, Build.increment_of_lt remote_,
    Build.increment_of_lt both]

/-- Where no counter overflows the build makes no difference. -/
theorem merge_of_checked {build : Build} {reading : ℕ} {clock remote next : Hlc}
    (merged : merge .checked reading clock remote = some next) :
    merge build reading clock remote = some next := by
  have same : ∀ value counter, Build.checked.increment 32 value = some counter →
      build.increment 32 value = some counter := by
    intro value counter incremented
    unfold Build.increment at incremented ⊢
    split at incremented
    · next fits => rw [if_pos fits, incremented]
    · cases incremented
  rcases Option.map_eq_some_iff.mp merged with ⟨counter, counterEq, rfl⟩
  refine Option.map_eq_some_iff.mpr ⟨counter, ?_, rfl⟩
  unfold mergedCounter at counterEq ⊢
  dsimp only at counterEq ⊢
  split_ifs at counterEq ⊢
  · exact same _ _ counterEq
  · exact same _ _ counterEq
  · exact same _ _ counterEq
  · exact counterEq

end Hlc

end Mercury
