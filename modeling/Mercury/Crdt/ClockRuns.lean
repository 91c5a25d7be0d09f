import Mathlib.Logic.Function.Basic
import Mathlib.Order.Bounds.Defs
import Mercury.Core.Hlc
import Mercury.Foundations.Causality
import Mercury.Foundations.Run

/-!
# Clocks over whole runs

Any number of nodes tick and merge their clocks, under system clock readings that
may go backward; the clock of any earlier event may be on its way to any node, any
number of times. Stamps grow along happening before (`stamp_lt_of_happensBefore`),
and a clock runs ahead of the system clocks by its counter only
(`wall_isGreatest_counter_le`).
-/

namespace Mercury.Crdt

open Foundations

/-- What a node does to its clock: a tick is a local event or a send, and a merge
names the event whose clock was received. -/
inductive ClockAction where
  | now
  | tick
  | merge (source : ℕ)
deriving DecidableEq

structure ClockEvent (Node : Type) where
  node : Node
  action : ClockAction
  reading : ℕ
  /-- The clock of the node after the event. -/
  stamp : Hlc

namespace ClockEvent

variable {Node : Type}

def source (event : ClockEvent Node) : Option ℕ :=
  match event.action with
  | .merge source => some source
  | _ => none

/-- The nodes and sources of clock events. -/
def kind (Node : Type) : EventKind (ClockEvent Node) Node where
  node := ClockEvent.node
  source := ClockEvent.source

end ClockEvent

/-- The clocks of the nodes, and the events so far. -/
structure Clocks (Node : Type) where
  clock : Node → Option Hlc
  events : List (ClockEvent Node)

variable {Node : Type} [DecidableEq Node]

namespace Clocks

def start : Clocks Node where
  clock _ := none
  events := []

def record (clocks : Clocks Node) (event : ClockEvent Node) : Clocks Node where
  clock := Function.update clocks.clock event.node (some event.stamp)
  events := clocks.events ++ [event]

end Clocks

inductive ClockStep (build : Build) (nodeId : Node → Id16) :
    Clocks Node → ClockEvent Node → Clocks Node → Prop where
  | now {clocks : Clocks Node} {node : Node} (reading : ℕ) (fresh : clocks.clock node = none) :
      ClockStep build nodeId clocks ⟨node, .now, reading, Hlc.now (nodeId node) reading⟩
        (clocks.record ⟨node, .now, reading, Hlc.now (nodeId node) reading⟩)
  | tick {clocks : Clocks Node} {node : Node} {reading : ℕ} {clock next : Hlc}
      (current : clocks.clock node = some clock) (ticked : Hlc.tick reading clock = some next) :
      ClockStep build nodeId clocks ⟨node, .tick, reading, next⟩
        (clocks.record ⟨node, .tick, reading, next⟩)
  | merge {clocks : Clocks Node} {node : Node} {reading source : ℕ} {clock next : Hlc}
      {sent : ClockEvent Node} (current : clocks.clock node = some clock)
      (sentAt : clocks.events[source]? = some sent)
      (merged : Hlc.merge build reading clock sent.stamp = some next) :
      ClockStep build nodeId clocks ⟨node, .merge source, reading, next⟩
        (clocks.record ⟨node, .merge source, reading, next⟩)

/-! ## What every run keeps -/

def stampAt (events : List (ClockEvent Node)) (position : ℕ) : Option Hlc :=
  events[position]?.map ClockEvent.stamp

/-- The last event of a node. -/
structure Latest (events : List (ClockEvent Node)) (node : Node) (position : ℕ) : Prop where
  mine : ∃ event, events[position]? = some event ∧ event.node = node
  last : ∀ later event, position < later → events[later]? = some event → event.node ≠ node

/-- An event whose clock advanced from the clocks of its direct predecessors. -/
structure Supported (events : List (ClockEvent Node)) (position : ℕ) (event : ClockEvent Node)
    (inputs : List ℕ) : Prop where
  grounded : (ClockEvent.kind Node).Grounded events position inputs
  advances : Hlc.Advances event.reading (inputs.filterMap (stampAt events)) event.stamp
  first : event.action = .now → inputs = []

structure Sound (nodeId : Node → Id16) (clocks : Clocks Node) : Prop where
  latest : ∀ node clock, clocks.clock node = some clock →
    ∃ position, Latest clocks.events node position ∧ stampAt clocks.events position = some clock
  absent : ∀ node, clocks.clock node = none → ∀ event ∈ clocks.events, event.node ≠ node
  supported : ∀ position event, clocks.events[position]? = some event →
    ∃ inputs, Supported clocks.events position event inputs
  nodeIds : ∀ event ∈ clocks.events, event.stamp.nodeId = nodeId event.node

omit [DecidableEq Node] in
theorem stampAt_append {events : List (ClockEvent Node)} {position : ℕ}
    (known : position < events.length) (event : ClockEvent Node) :
    stampAt (events ++ [event]) position = stampAt events position := by
  rw [stampAt, stampAt, List.getElem?_append_left known]

omit [DecidableEq Node] in
/-- An event of the longer record is an earlier one or the new one. -/
theorem eventAt_append {events : List (ClockEvent Node)} {event other : ClockEvent Node}
    {position : ℕ} (otherAt : (events ++ [event])[position]? = some other) :
    position < events.length ∧ events[position]? = some other ∨
      position = events.length ∧ other = event := by
  have bound := (List.getElem?_eq_some_iff.mp otherAt).1
  rw [List.length_append, List.length_singleton] at bound
  rcases Nat.lt_or_ge position events.length with old | new
  · rw [List.getElem?_append_left old] at otherAt
    exact Or.inl ⟨old, otherAt⟩
  · obtain rfl : position = events.length := by omega
    rw [List.getElem?_concat_length, Option.some.injEq] at otherAt
    exact Or.inr ⟨rfl, otherAt.symm⟩

omit [DecidableEq Node] in
theorem Latest.lt_length {events : List (ClockEvent Node)} {node : Node} {position : ℕ}
    (latest : Latest events node position) : position < events.length := by
  rcases latest.mine with ⟨event, eventAt, _⟩
  exact (List.getElem?_eq_some_iff.mp eventAt).1

omit [DecidableEq Node] in
/-- An event of the node comes before its latest one, or is it. -/
theorem Latest.mem_history {events : List (ClockEvent Node)} {node : Node} {position earlier : ℕ}
    (latest : Latest events node position) {event : ClockEvent Node}
    (eventAt : events[earlier]? = some event) (mine : event.node = node) :
    earlier ∈ (ClockEvent.kind Node).history events position := by
  rcases lt_trichotomy earlier position with before | rfl | after
  · rcases latest.mine with ⟨last, lastAt, lastMine⟩
    exact EventKind.mem_history_of_precedes
      ⟨before, event, last, eventAt, lastAt, Or.inl (mine.trans lastMine.symm)⟩
  · exact EventKind.mem_history_self
  · exact absurd mine (latest.last earlier event after eventAt)

omit [DecidableEq Node] in
theorem Supported.append {events : List (ClockEvent Node)} {position : ℕ}
    {event : ClockEvent Node} {inputs : List ℕ} (supported : Supported events position event inputs)
    (known : position < events.length) (new : ClockEvent Node) :
    Supported (events ++ [new]) position event inputs where
  grounded := supported.grounded.append known new
  advances := by
    have same : inputs.filterMap (stampAt (events ++ [new])) =
        inputs.filterMap (stampAt events) := by
      apply List.filterMap_congr
      intro input inputMem
      exact stampAt_append ((supported.grounded.input_lt inputMem).trans known) new
    rw [same]
    exact supported.advances
  first := supported.first

omit [DecidableEq Node] in
/-- The first event of a node has no predecessors. -/
theorem grounded_first {events : List (ClockEvent Node)} {event : ClockEvent Node}
    (fresh : ∀ other ∈ events, other.node ≠ event.node) (noSource : event.source = none) :
    (ClockEvent.kind Node).Grounded (events ++ [event]) events.length [] where
  precede := by simp
  cover := by
    rintro earlier ⟨before, first, second, firstAt, secondAt, linked⟩
    rw [List.getElem?_append_left before] at firstAt
    rw [List.getElem?_concat_length, Option.some.injEq] at secondAt
    subst second
    rcases linked with sameNode | source
    · exact absurd sameNode (fresh first (List.mem_of_getElem? firstAt))
    · exact absurd (noSource.symm.trans source) (by simp)

omit [DecidableEq Node] in
/-- The predecessors of a later event: the latest one of its node, and its source. -/
theorem grounded_next {events : List (ClockEvent Node)} {event : ClockEvent Node} {previous : ℕ}
    (latest : Latest events event.node previous)
    (known : ∀ source, event.source = some source → source < events.length) :
    (ClockEvent.kind Node).Grounded (events ++ [event]) events.length
      (previous :: event.source.toList) where
  precede := by
    intro input inputMem
    have newAt : (events ++ [event])[events.length]? = some event := List.getElem?_concat_length
    rcases List.mem_cons.mp inputMem with rfl | source
    · rcases latest.mine with ⟨last, lastAt, mine⟩
      refine ⟨latest.lt_length, last, event, ?_, newAt, Or.inl mine⟩
      rw [List.getElem?_append_left latest.lt_length, lastAt]
    · rw [Option.mem_toList] at source
      have below := known input source
      refine ⟨below, events[input], event, ?_, newAt, Or.inr source⟩
      rw [List.getElem?_append_left below, List.getElem?_eq_getElem below]
  cover := by
    rintro earlier ⟨before, first, second, firstAt, secondAt, linked⟩
    rw [List.getElem?_append_left before] at firstAt
    rw [List.getElem?_concat_length, Option.some.injEq] at secondAt
    subst second
    rcases linked with sameNode | source
    · refine ⟨previous, List.mem_cons_self .., ?_⟩
      exact EventKind.history_append_subset event (latest.mem_history firstAt sameNode)
    · refine ⟨earlier, List.mem_cons_of_mem _ ?_, EventKind.mem_history_self⟩
      exact Option.mem_toList.mpr source

section

variable {nodeId : Node → Id16} {clocks : Clocks Node} {event : ClockEvent Node}

/-- The new event is supported, and everything else stays as it is. -/
theorem Sound.record (sound : Sound nodeId clocks) {inputs : List ℕ}
    (supported : Supported (clocks.events ++ [event]) clocks.events.length event inputs)
    (stamped : event.stamp.nodeId = nodeId event.node) : Sound nodeId (clocks.record event) where
  latest node clock current := by
    by_cases mine : node = event.node
    · subst node
      simp only [Clocks.record, Function.update_self, Option.some.injEq] at current
      refine ⟨clocks.events.length, ⟨⟨event, List.getElem?_concat_length, rfl⟩, ?_⟩, ?_⟩
      · intro later other beyond otherAt
        rcases eventAt_append otherAt with ⟨known, _⟩ | ⟨same, _⟩ <;> omega
      · simp [stampAt, Clocks.record, current]
    · simp only [Clocks.record, Function.update_of_ne mine] at current
      rcases sound.latest node clock current with ⟨position, latest, stampEq⟩
      refine ⟨position, ⟨?_, ?_⟩, (stampAt_append latest.lt_length event).trans stampEq⟩
      · rcases latest.mine with ⟨last, lastAt, lastMine⟩
        exact ⟨last, (List.getElem?_append_left latest.lt_length).trans lastAt, lastMine⟩
      · intro later other beyond otherAt
        rcases eventAt_append otherAt with ⟨_, old⟩ | ⟨_, rfl⟩
        · exact latest.last later other beyond old
        · intro same
          exact mine same.symm
  absent node noClock other otherMem := by
    by_cases mine : node = event.node
    · subst node
      simp [Clocks.record] at noClock
    · simp only [Clocks.record, Function.update_of_ne mine] at noClock
      rcases List.mem_append.mp otherMem with old | new
      · exact sound.absent node noClock other old
      · rw [List.mem_singleton.mp new]
        intro same
        exact mine same.symm
  supported position other otherAt := by
    rcases eventAt_append otherAt with ⟨known, old⟩ | ⟨rfl, rfl⟩
    · rcases sound.supported position other old with ⟨earlier, supportedBy⟩
      exact ⟨earlier, supportedBy.append known event⟩
    · exact ⟨inputs, supported⟩
  nodeIds other otherMem := by
    rcases List.mem_append.mp otherMem with old | new
    · exact sound.nodeIds other old
    · rw [List.mem_singleton.mp new]
      exact stamped

omit [DecidableEq Node] in
/-- The node id of a clock is that of its node. -/
theorem Sound.nodeId_clock (sound : Sound nodeId clocks) {node : Node} {clock : Hlc}
    (current : clocks.clock node = some clock) : clock.nodeId = nodeId node := by
  rcases sound.latest node clock current with ⟨position, latest, stampEq⟩
  rcases latest.mine with ⟨last, lastAt, mine⟩
  rw [stampAt, lastAt, Option.map_some, Option.some.injEq] at stampEq
  subst clock
  rw [sound.nodeIds last (List.mem_of_getElem? lastAt), mine]

/-- Without overflow a step keeps the clocks sound. -/
theorem Sound.step (sound : Sound nodeId clocks) {next : Clocks Node}
    (step : ClockStep .checked nodeId clocks event next) : Sound nodeId next := by
  cases step with
  | now reading fresh =>
      exact @Sound.record _ _ nodeId _ _ sound []
        ⟨grounded_first (sound.absent _ fresh) rfl, Hlc.advances_now _ reading, fun _ => rfl⟩ rfl
  | @tick node reading clock ticked current advanced =>
      rcases sound.latest _ _ current with ⟨previous, latest, stampEq⟩
      rcases Hlc.advances_tick advanced with ⟨advances, sameNode⟩
      refine sound.record ⟨grounded_next latest (by simp [ClockEvent.source]), ?_, by simp⟩
        (sameNode.trans (sound.nodeId_clock current))
      simpa [ClockEvent.source, stampAt_append latest.lt_length, stampEq] using advances
  | @merge node reading source clock merged sent current sentAt mergeEq =>
      rcases sound.latest _ _ current with ⟨previous, latest, stampEq⟩
      rcases Hlc.advances_merge mergeEq with ⟨advances, sameNode⟩
      have known := (List.getElem?_eq_some_iff.mp sentAt).1
      have remote : stampAt clocks.events source = some sent.stamp := by
        rw [stampAt, sentAt, Option.map_some]
      refine sound.record ⟨grounded_next latest ?_, ?_, by simp⟩
        (sameNode.trans (sound.nodeId_clock current))
      · intro named namedEq
        cases namedEq
        exact known
      · simpa [ClockEvent.source, stampAt_append latest.lt_length, stampAt_append known, stampEq,
          remote] using advances

omit [DecidableEq Node] in
theorem sound_start : Sound nodeId (Clocks.start : Clocks Node) where
  latest _ _ current := by cases current
  absent _ _ _ eventMem := by cases eventMem
  supported _ _ eventAt := by simp [Clocks.start] at eventAt
  nodeIds _ eventMem := by cases eventMem

end

/-! ## Happening before -/

/-- `u32::MAX`, the bound of the counters. -/
def maxCounter : ℕ := 2 ^ 32 - 1

/-- Below the bound of the counters every build takes the checked step. -/
theorem checked_of_unsaturated {build : Build} {nodeId : Node → Id16} {clocks next : Clocks Node}
    {event : ClockEvent Node} (sound : Sound nodeId clocks)
    (unsaturated : ∀ earlier ∈ clocks.events, earlier.stamp.counter < maxCounter)
    (step : ClockStep build nodeId clocks event next) :
    ClockStep .checked nodeId clocks event next := by
  have small : ∀ counter, counter < maxCounter → counter + 1 < 2 ^ 32 := by
    intro counter below
    unfold maxCounter at below
    omega
  cases step with
  | now reading fresh => exact ClockStep.now reading fresh
  | tick current ticked => exact ClockStep.tick current ticked
  | merge current sentAt merged =>
      rcases sound.latest _ _ current with ⟨previous, latest, stampEq⟩
      rcases latest.mine with ⟨last, lastAt, _⟩
      rw [stampAt, lastAt, Option.map_some, Option.some.injEq] at stampEq
      rw [← stampEq, Hlc.merge_eq_checked build _
        (small _ (unsaturated last (List.mem_of_getElem? lastAt)))
        (small _ (unsaturated _ (List.mem_of_getElem? sentAt)))] at merged
      exact ClockStep.merge (stampEq ▸ current) sentAt merged

theorem events_of_step {build : Build} {nodeId : Node → Id16} {clocks next : Clocks Node}
    {event : ClockEvent Node} (step : ClockStep build nodeId clocks event next) :
    next.events = clocks.events ++ [event] := by
  cases step <;> rfl

theorem sound_of_unsaturated {build : Build} {nodeId : Node → Id16}
    {labels : List (ClockEvent Node)} {clocks : Clocks Node}
    (run : Run (ClockStep build nodeId) Clocks.start labels clocks)
    (unsaturated : ∀ event ∈ clocks.events, event.stamp.counter < maxCounter) :
    Sound nodeId clocks := by
  induction run with
  | refl => exact sound_start
  | @snoc middle target labels label _ last ih =>
      rw [events_of_step last] at unsaturated
      have before : ∀ event ∈ middle.events, event.stamp.counter < maxCounter :=
        fun event eventMem => unsaturated event (List.mem_append_left _ eventMem)
      exact (ih before).step (checked_of_unsaturated (ih before) before last)

omit [DecidableEq Node] in
theorem Sound.lt_of_happensBefore {nodeId : Node → Id16} {clocks : Clocks Node}
    (sound : Sound nodeId clocks) {earlier later : ℕ} {first second : ClockEvent Node}
    (firstAt : clocks.events[earlier]? = some first)
    (secondAt : clocks.events[later]? = some second)
    (before : (ClockEvent.kind Node).HappensBefore clocks.events earlier later) :
    first.stamp < second.stamp := by
  refine EventKind.lt_of_happensBefore ?_ before firstAt secondAt
  intro position event eventAt
  rcases sound.supported position event eventAt with ⟨inputs, supported⟩
  refine ⟨inputs, supported.grounded, fun input inputMem other otherAt => ?_⟩
  apply supported.advances.lt
  exact List.mem_filterMap.mpr ⟨input, inputMem, by rw [stampAt, otherAt, Option.map_some]⟩

omit [DecidableEq Node] in
/-- Two events with one stamp are the same event. -/
theorem Sound.eq_of_stamp_eq {nodeId : Node → Id16} (distinct : Function.Injective nodeId)
    {clocks : Clocks Node} (sound : Sound nodeId clocks) {left right : ℕ}
    {first second : ClockEvent Node} (firstAt : clocks.events[left]? = some first)
    (secondAt : clocks.events[right]? = some second) (same : first.stamp = second.stamp) :
    left = right := by
  have sameNode : first.node = second.node := by
    apply distinct
    rw [← sound.nodeIds first (List.mem_of_getElem? firstAt),
      ← sound.nodeIds second (List.mem_of_getElem? secondAt), same]
  rcases lt_trichotomy left right with before | equal | after
  · have grows := sound.lt_of_happensBefore firstAt secondAt
      (Relation.TransGen.single ⟨before, first, second, firstAt, secondAt, Or.inl sameNode⟩)
    exact absurd same grows.ne
  · exact equal
  · have grows := sound.lt_of_happensBefore secondAt firstAt
      (Relation.TransGen.single ⟨after, second, first, secondAt, firstAt, Or.inl sameNode.symm⟩)
    exact absurd same grows.ne'

/-- In a run that keeps the counters below their bound, stamps grow along happening
before, and no two events have the same stamp. -/
theorem stamp_lt_of_happensBefore (build : Build) {nodeId : Node → Id16}
    (distinct : Function.Injective nodeId) {labels : List (ClockEvent Node)}
    {clocks : Clocks Node} (run : Run (ClockStep build nodeId) Clocks.start labels clocks)
    (unsaturated : ∀ event ∈ clocks.events, event.stamp.counter < maxCounter)
    {left right : ℕ} {first second : ClockEvent Node}
    (firstAt : clocks.events[left]? = some first)
    (secondAt : clocks.events[right]? = some second) :
    ((ClockEvent.kind Node).HappensBefore clocks.events left right →
        first.stamp < second.stamp) ∧
      (left ≠ right → first.stamp ≠ second.stamp) := by
  have sound := sound_of_unsaturated run unsaturated
  constructor
  · exact sound.lt_of_happensBefore firstAt secondAt
  · intro different same
    exact different (sound.eq_of_stamp_eq distinct firstAt secondAt same)

/-- Two nodes. -/
def twoNodes (first : Bool) : Id16 :=
  .replicate (if first then 1 else 2)

theorem twoNodes_injective : Function.Injective twoNodes := by
  decide

/-- One node ticks while its system clock has gone back, and the other one receives
its clock. -/
def exchange : List (ClockEvent Bool) :=
  [⟨true, .now, 5, ⟨5, 0, twoNodes true⟩⟩, ⟨false, .now, 3, ⟨3, 0, twoNodes false⟩⟩,
    ⟨true, .tick, 4, ⟨5, 1, twoNodes true⟩⟩, ⟨false, .merge 2, 4, ⟨5, 2, twoNodes false⟩⟩]

def exchanged : Clocks Bool :=
  exchange.foldl Clocks.record Clocks.start

theorem run_exchange : Run (ClockStep .wrapping twoNodes) Clocks.start exchange exchanged :=
  Run.cons (ClockStep.now 5 rfl) (Run.cons (ClockStep.now 3 rfl)
    (Run.cons (ClockStep.tick rfl rfl) (Run.cons (ClockStep.merge rfl rfl rfl) Run.refl)))

/-- The tick at position 2 happens before the merge at position 3. -/
theorem stamp_lt_of_happensBefore_exchange : ∃ clocks,
    Run (ClockStep .wrapping twoNodes) Clocks.start exchange clocks ∧
      clocks.events = exchange ∧
      (ClockEvent.kind Bool).HappensBefore clocks.events 2 3 ∧
      (⟨5, 1, twoNodes true⟩ : Hlc) < ⟨5, 2, twoNodes false⟩ ∧
      (⟨5, 1, twoNodes true⟩ : Hlc) ≠ ⟨5, 2, twoNodes false⟩ := by
  have unsaturated : ∀ event ∈ exchanged.events, event.stamp.counter < maxCounter := by
    decide
  have firstAt : exchanged.events[2]? = some ⟨true, .tick, 4, ⟨5, 1, twoNodes true⟩⟩ := rfl
  have secondAt : exchanged.events[3]? = some ⟨false, .merge 2, 4, ⟨5, 2, twoNodes false⟩⟩ := rfl
  have ordered := stamp_lt_of_happensBefore .wrapping twoNodes_injective run_exchange unsaturated
    firstAt secondAt
  have received : (ClockEvent.kind Bool).Precedes exchanged.events 2 3 :=
    ⟨by omega, _, _, firstAt, secondAt, Or.inr rfl⟩
  have before := Relation.TransGen.single received
  exact ⟨exchanged, run_exchange, rfl, before, ordered.1 before, ordered.2 (by omega)⟩

/-! ## Drift -/

/-- The step increments no counter beyond `u32`. -/
def NoOverflow (clocks : Clocks Node) (event : ClockEvent Node) : Prop :=
  ∀ source, event.action = .merge source → ∀ clock, clocks.clock event.node = some clock →
    ∀ sent, clocks.events[source]? = some sent →
      ∃ next, Hlc.merge .checked event.reading clock sent.stamp = some next

/-- Without overflow every build takes the checked step. -/
theorem checked_of_noOverflow {build : Build} {nodeId : Node → Id16} {clocks next : Clocks Node}
    {event : ClockEvent Node} (noOverflow : NoOverflow clocks event)
    (step : ClockStep build nodeId clocks event next) :
    ClockStep .checked nodeId clocks event next := by
  cases step with
  | now reading fresh => exact ClockStep.now reading fresh
  | tick current ticked => exact ClockStep.tick current ticked
  | merge current sentAt merged =>
      rcases noOverflow _ rfl _ current _ sentAt with ⟨exact_, checked⟩
      rw [Hlc.merge_of_checked checked, Option.some.injEq] at merged
      exact ClockStep.merge current sentAt (merged ▸ checked)

namespace Clocks

/-- The causal history of the clock of a node: that of the events of the node. -/
def history (clocks : Clocks Node) (node : Node) : Set ℕ :=
  { earlier | ∃ position event, clocks.events[position]? = some event ∧ event.node = node ∧
    earlier ∈ (ClockEvent.kind Node).history clocks.events position }

/-- The system clock readings of some events. -/
def readings (clocks : Clocks Node) (positions : Set ℕ) : Set ℕ :=
  { reading | ∃ position ∈ positions, ∃ event, clocks.events[position]? = some event ∧
    event.reading = reading }

/-- The ticks and merges among some events after which the wall clock has a value. -/
def advancesAt (clocks : Clocks Node) (positions : Set ℕ) (wall : ℕ) : Set ℕ :=
  { position ∈ positions | ∃ event, clocks.events[position]? = some event ∧
    event.action ≠ .now ∧ event.stamp.wallClockMs = wall }

end Clocks

section

variable {nodeId : Node → Id16} {clocks : Clocks Node} {position : ℕ} {event : ClockEvent Node}

omit [DecidableEq Node] in
/-- The history of a clock is that of the latest event of its node. -/
theorem history_eq {node : Node} (latest : Latest clocks.events node position) :
    clocks.history node = (ClockEvent.kind Node).history clocks.events position := by
  ext earlier
  constructor
  · rintro ⟨other, otherEvent, otherAt, mine, before⟩
    exact Relation.ReflTransGen.trans before (latest.mem_history otherAt mine)
  · intro before
    rcases latest.mine with ⟨last, lastAt, mine⟩
    exact ⟨position, last, lastAt, mine, before⟩

omit [DecidableEq Node] in
theorem Sound.wall_isGreatest (sound : Sound nodeId clocks)
    (eventAt : clocks.events[position]? = some event) :
    IsGreatest (clocks.readings ((ClockEvent.kind Node).history clocks.events position))
      event.stamp.wallClockMs := by
  induction position using Nat.strong_induction_on generalizing event with
  | _ position ih =>
      rcases sound.supported position event eventAt with ⟨inputs, supported⟩
      have inputStamp : ∀ input ∈ inputs, ∀ other, clocks.events[input]? = some other →
          other.stamp ∈ inputs.filterMap (stampAt clocks.events) := by
        intro input inputMem other otherAt
        exact List.mem_filterMap.mpr ⟨input, inputMem, by rw [stampAt, otherAt, Option.map_some]⟩
      constructor
      · rcases supported.advances.wall with read | ⟨stamp, stampMem, wallEq⟩
        · exact ⟨position, EventKind.mem_history_self, event, eventAt, read.symm⟩
        · rcases List.mem_filterMap.mp stampMem with ⟨input, inputMem, stampEq⟩
          rcases Option.map_eq_some_iff.mp stampEq with ⟨other, otherAt, rfl⟩
          rcases (ih input (supported.grounded.input_lt inputMem) otherAt).1 with
            ⟨earlier, before, source, sourceAt, readingEq⟩
          refine ⟨earlier, ?_, source, sourceAt, readingEq.trans wallEq.symm⟩
          exact supported.grounded.mem_history.mpr (Or.inr ⟨input, inputMem, before⟩)
      · rintro reading ⟨earlier, before, source, sourceAt, rfl⟩
        rcases supported.grounded.mem_history.mp before with rfl | ⟨input, inputMem, within⟩
        · rw [eventAt, Option.some.injEq] at sourceAt
          subst source
          exact supported.advances.reading_le
        · rcases (supported.grounded.precede input inputMem).2 with ⟨other, _, otherAt, _⟩
          have below := (ih input (supported.grounded.input_lt inputMem) otherAt).2
            ⟨earlier, within, source, sourceAt, rfl⟩
          exact below.trans
            (supported.advances.input_le _ (inputStamp input inputMem other otherAt))

omit [DecidableEq Node] in
theorem Sound.counter_le (sound : Sound nodeId clocks)
    (eventAt : clocks.events[position]? = some event) :
    event.stamp.counter ≤
      (clocks.advancesAt ((ClockEvent.kind Node).history clocks.events position)
        event.stamp.wallClockMs).ncard := by
  induction position using Nat.strong_induction_on generalizing event with
  | _ position ih =>
      rcases sound.supported position event eventAt with ⟨inputs, supported⟩
      rcases supported.advances.counter with zero | ⟨stamp, stampMem, wallEq, counterEq⟩
      · omega
      · rcases List.mem_filterMap.mp stampMem with ⟨input, inputMem, stampEq⟩
        rcases Option.map_eq_some_iff.mp stampEq with ⟨other, otherAt, rfl⟩
        have below := ih input (supported.grounded.input_lt inputMem) otherAt
        have notNow : event.action ≠ .now := by
          intro now
          rw [supported.first now] at inputMem
          cases inputMem
        -- the event itself is one more of those that the input counted
        have fresh : position ∉ clocks.advancesAt
            ((ClockEvent.kind Node).history clocks.events input) other.stamp.wallClockMs := by
          rintro ⟨before, _⟩
          have := EventKind.le_of_mem_history before
          have := supported.grounded.input_lt inputMem
          omega
        have more : insert position (clocks.advancesAt
            ((ClockEvent.kind Node).history clocks.events input) other.stamp.wallClockMs) ⊆
            clocks.advancesAt ((ClockEvent.kind Node).history clocks.events position)
              event.stamp.wallClockMs := by
          rintro earlier (rfl | ⟨before, source, sourceAt, sourceAction, sourceWall⟩)
          · exact ⟨EventKind.mem_history_self, event, eventAt, notNow, rfl⟩
          · refine ⟨?_, source, sourceAt, sourceAction, sourceWall.trans wallEq⟩
            exact supported.grounded.mem_history.mpr (Or.inr ⟨input, inputMem, before⟩)
        have finite : ∀ position wall, Set.Finite (clocks.advancesAt
            ((ClockEvent.kind Node).history clocks.events position) wall) :=
          fun position wall => EventKind.finite_history.subset fun _ mem => mem.1
        have counted := Set.ncard_le_ncard more (finite _ _)
        rw [Set.ncard_insert_of_notMem fresh (finite _ _)] at counted
        omega

end

/-- In a run without counter overflow the wall clock of every clock is the greatest
system clock reading in its causal history, and its counter counts no more than the
ticks and merges there after which the wall clock had that value. -/
theorem wall_isGreatest_counter_le (build : Build) {nodeId : Node → Id16}
    {labels : List (ClockEvent Node)} {clocks : Clocks Node}
    (run : Run (Guarded NoOverflow (ClockStep build nodeId)) Clocks.start labels clocks)
    {node : Node} {clock : Hlc} (current : clocks.clock node = some clock) :
    IsGreatest (clocks.readings (clocks.history node)) clock.wallClockMs ∧
      clock.counter ≤ (clocks.advancesAt (clocks.history node) clock.wallClockMs).ncard := by
  have sound : Sound nodeId clocks := by
    refine Run.invariant (fun sound taken => ?_) run sound_start
    exact sound.step (checked_of_noOverflow taken.1 taken.2)
  rcases sound.latest node clock current with ⟨position, latest, stampEq⟩
  rcases Option.map_eq_some_iff.mp stampEq with ⟨event, eventAt, rfl⟩
  rw [history_eq latest]
  exact ⟨sound.wall_isGreatest eventAt, sound.counter_le eventAt⟩

theorem noOverflow_exchange :
    Run (Guarded NoOverflow (ClockStep .wrapping twoNodes)) Clocks.start exchange exchanged := by
  have local_ : ∀ {clocks : Clocks Bool} {event : ClockEvent Bool},
      event.source = none → NoOverflow clocks event := by
    rintro clocks event noSource source merges
    simp [ClockEvent.source, merges] at noSource
  refine Run.cons ⟨local_ rfl, ClockStep.now 5 rfl⟩ (Run.cons ⟨local_ rfl, ClockStep.now 3 rfl⟩
    (Run.cons ⟨local_ rfl, ClockStep.tick rfl rfl⟩
      (Run.cons ⟨?_, ClockStep.merge rfl rfl rfl⟩ Run.refl)))
  intro source merges clock current sent sentAt
  cases merges
  cases current
  cases sentAt
  exact ⟨_, rfl⟩

theorem wall_isGreatest_counter_le_exchange :
    IsGreatest (exchanged.readings (exchanged.history false)) 5 ∧
      2 ≤ (exchanged.advancesAt (exchanged.history false) 5).ncard :=
  wall_isGreatest_counter_le .wrapping noOverflow_exchange
    (rfl : exchanged.clock false = some ⟨5, 2, twoNodes false⟩)

end Mercury.Crdt
