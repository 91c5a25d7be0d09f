import Mercury.Crdt.CounterRuns
import Mercury.Crdt.LogRuns
import Mercury.Crdt.MergeLaws
import Mercury.Crdt.ObservedRemove
import Mercury.Crdt.ReactionCounts
import Mercury.Crdt.RegisterRuns
import Mercury.Foundations.Exchange

/-!
# Convergence

After any updates and merges the replicas only exchange snapshots. Replicas that have
heard of the same copies then hold the same state, and a state says exactly what the
copies that went into it said. A set so keeps a value where one copy still had it,
snapshots under way included; a counter that has heard of every replica counts the
increments of the whole run, and a register holds its latest write.
-/

namespace Mercury.Crdt

open Foundations Foundations.Replicated

/-- The semilattice of a merge that keeps the laws. -/
abbrev MergeLaws.lattice {State : Type} {merge : State → State → State}
    (laws : MergeLaws merge Set.univ) : SemilatticeSup State :=
  @SemilatticeSup.mk' State ⟨merge⟩ (fun a b => laws.commutative a trivial b trivial)
    (fun a b c => laws.associative a trivial b trivial c trivial)
    (fun a => laws.idempotent a trivial)

/-- Copies with the same sources are equal where the merge keeps the laws. -/
theorem MergeLaws.state_eq_of_sources {Replica Op Output State : Type} [DecidableEq Replica]
    {type : Replicated Replica Op Output State} (laws : MergeLaws type.merge Set.univ)
    {actions merges : List (Action Replica Op State)} {cluster : Cluster Replica Op Output State}
    {exchange : Exchange Replica Op Output State} (run : type.ReachedBy actions cluster)
    (exchanged : Run (Exchange.Step type) (Exchange.start cluster) merges exchange)
    {left right : Replica} (same : exchange.sources left = exchange.sources right) :
    (exchange.cluster.copy left).state = (exchange.cluster.copy right).state := by
  let _ := laws.lattice
  have gathers := Exchange.gathers_isLUB laws.lattice (fun _ _ => rfl) cluster
  have leftLUB := gathers.copy run.current exchanged left
  have rightLUB := gathers.copy run.current exchanged right
  rw [same] at leftLUB
  exact leftLUB.unique rightLUB

namespace OrSet

variable {T : Type} [DecidableEq T] {build : Build}

theorem gathers_dots (cluster : Cluster Id16 (SetOp T) (Option Dot) (OrSet T)) :
    Exchange.Gathers (replicated build T) cluster fun copy sources =>
      ∀ item : T × Dot, item.2 ∈ copy.state.dots item.1 ↔
        ∃ source ∈ sources, item.2 ∈ source.state.dots item.1 :=
  Exchange.gathers_union (fun set => { item : T × Dot | item.2 ∈ set.dots item.1 })
    (fun left right => by ext item; simp [replicated]) cluster

section Exchange

variable {actions merges : List (Action Id16 (SetOp T) (OrSet T))}
  {cluster : Cluster Id16 (SetOp T) (Option Dot) (OrSet T)}
  {exchange : Exchange Id16 (SetOp T) (Option Dot) (OrSet T)}

theorem contains_exchanged (current : ∀ replica, cluster.copy replica ∈ cluster.snapshots)
    (exchanged : Run (Exchange.Step (replicated build T)) (Exchange.start cluster) merges
      exchange) (replica : Id16) (value : T) :
    (exchange.cluster.copy replica).state.contains value = true ↔
      ∃ source ∈ exchange.sources replica, source.state.contains value = true := by
  have dots := (gathers_dots cluster).copy current exchanged replica
  simp only [contains_iff]
  constructor
  · rintro ⟨dot, held⟩
    rcases (dots (value, dot)).mp held with ⟨source, heard, sourceHolds⟩
    exact ⟨source, heard, dot, sourceHolds⟩
  · rintro ⟨source, heard, dot, sourceHolds⟩
    exact ⟨dot, (dots (value, dot)).mpr ⟨source, heard, sourceHolds⟩⟩

/-- After an exchange a set contains what its sources contained, and equal sources
make equal sets. -/
theorem sets_converge (run : (replicated build T).ReachedBy actions cluster)
    (exchanged : Run (Exchange.Step (replicated build T)) (Exchange.start cluster) merges
      exchange) :
    (replicated build T).ReachedBy (actions ++ merges) exchange.cluster ∧
      (∀ replica value, (exchange.cluster.copy replica).state.contains value = true ↔
        ∃ source ∈ exchange.sources replica, source.state.contains value = true) ∧
      ∀ left right, exchange.sources left = exchange.sources right →
        (exchange.cluster.copy left).state = (exchange.cluster.copy right).state := by
  refine ⟨Exchange.reachedBy run exchanged, contains_exchanged run.current exchanged, ?_⟩
  intro left right same
  exact MergeLaws.state_eq_of_sources OrSet.mergeLaws run exchanged same

end Exchange

/-- Nodes 1 and 2 add 7 and 8 and send each other their sets. -/
theorem sets_converge_traded :
    ∃ exchange : Exchange Id16 (SetOp ℕ) (Option Dot) (OrSet ℕ),
      (exchange.cluster.copy (.replicate 1)).state.contains 8 = true ∧
        (exchange.cluster.copy (.replicate 1)).state =
          (exchange.cluster.copy (.replicate 2)).state := by
  rcases guardedRun_play (replicated .checked ℕ) (fun _ _ _ => True)
    [.update (.replicate 1) (.add 7), .update (.replicate 2) (.add 8)] (by decide)
    with ⟨actions, run⟩
  rcases Exchange.exists_trade (replicated .checked ℕ) (ReachedBy.current run.of_guarded)
    (show Id16.replicate 1 ≠ .replicate 2 by decide)
    with ⟨merges, exchange, exchanged, atFirst, atSecond⟩
  rcases sets_converge run.of_guarded exchanged with ⟨_, contents, equal⟩
  refine ⟨exchange, ?_, equal _ _ (atFirst.trans atSecond.symm)⟩
  rw [contents, atFirst]
  exact ⟨_, Or.inr rfl, by decide⟩

end OrSet

namespace ReactionMap

variable {build : Build}

/-- The order of the entries makes no difference to the counts. -/
theorem counts_eq {map : ReactionMap} (left right : map.reactions.Iteration) :
    counts left = counts right := by
  have reordered : left.elements.Perm right.elements := by
    apply (List.perm_ext_iff_of_nodup left.nodup_elements right.nodup_elements).mpr
    intro reaction
    rw [left.mem_elements, right.mem_elements]
  have emojis := reordered.map Prod.snd
  apply Finmap.ext_lookup
  intro emoji
  simp only [counts, Tally.lookup_tally, emojis.mem_iff, emojis.count_eq]

/-- After an exchange the count of an emoji is the number of users who have it in one of the
sources, and equal sources make equal counts, whatever the order of the entries. -/
theorem reactions_converge
    {actions merges : List (Action Id16 (SetOp (Id16 × String)) (OrSet (Id16 × String)))}
    {cluster : Cluster Id16 (SetOp (Id16 × String)) (Option Dot) (OrSet (Id16 × String))}
    {exchange : Exchange Id16 (SetOp (Id16 × String)) (Option Dot) (OrSet (Id16 × String))}
    (run : (OrSet.replicated build (Id16 × String)).ReachedBy actions cluster)
    (exchanged : Run (Exchange.Step (OrSet.replicated build (Id16 × String)))
      (Exchange.start cluster) merges exchange) {replica : Id16} {map : ReactionMap}
    (isCopy : map.reactions = (exchange.cluster.copy replica).state)
    (counting : map.reactions.Iteration) :
    (∀ emoji, emoji ∈ counts counting ↔ ∃ user, ∃ source ∈ exchange.sources replica,
        source.state.contains (user, emoji) = true) ∧
      (∀ emoji count, (counts counting).lookup emoji = some count →
        {user | ∃ source ∈ exchange.sources replica,
          source.state.contains (user, emoji) = true}.encard = count) ∧
      ∀ other, exchange.sources other = exchange.sources replica →
        ∀ otherMap : ReactionMap, otherMap.reactions = (exchange.cluster.copy other).state →
          ∀ otherCounting : otherMap.reactions.Iteration,
            counts otherCounting = counts counting := by
  have contents := OrSet.contains_exchanged run.current exchanged replica
  rw [← isCopy] at contents
  refine ⟨fun emoji => ?_, fun emoji count counted => ?_, ?_⟩
  · simp only [← contents, counts, Tally.mem_tally, ← counting.mem_elements]
    simp
  · simp only [← contents]
    rw [counts, Tally.lookup_tally] at counted
    have users : {user | map.reactions.contains (user, emoji) = true}.encard =
        (counting.elements.map Prod.snd).count emoji :=
      encard_users_eq counting fun _ => Iff.rfl
    rw [users]
    split at counted
    · exact congrArg _ (Option.some.inj counted)
    · cases counted
  · intro other same otherMap isOther otherCounting
    have equal := MergeLaws.state_eq_of_sources OrSet.mergeLaws run exchanged same
    rw [← isCopy, ← isOther] at equal
    cases map
    cases otherMap
    cases equal
    exact counts_eq otherCounting counting

/-- User 5 reacts on node 1, users 5 and 6 on node 2, and the nodes send each other their maps. -/
theorem reactions_converge_traded :
    ∃ exchange : Exchange Id16 (SetOp (Id16 × String)) (Option Dot) (OrSet (Id16 × String)),
      ∀ map : ReactionMap,
        map.reactions = (exchange.cluster.copy (.replicate 1)).state →
          ∀ counting : map.reactions.Iteration, "x" ∈ counts counting := by
  rcases guardedRun_play (OrSet.replicated .checked (Id16 × String)) (fun _ _ _ => True)
    [.update (.replicate 1) (.add (.replicate 5, "x")),
      .update (.replicate 2) (.add (.replicate 5, "x")),
      .update (.replicate 2) (.add (.replicate 6, "x"))] (by decide)
    with ⟨actions, run⟩
  rcases Exchange.exists_trade (OrSet.replicated .checked (Id16 × String))
    (ReachedBy.current run.of_guarded) (show Id16.replicate 1 ≠ .replicate 2 by decide)
    with ⟨merges, exchange, exchanged, atFirst, _⟩
  refine ⟨exchange, fun map isCopy counting => ?_⟩
  apply ((reactions_converge run.of_guarded exchanged isCopy counting).1 "x").mpr
  rw [atFirst]
  exact ⟨.replicate 6, _, Or.inr rfl, by decide⟩

end ReactionMap

namespace GCounter

variable {build : Build}

/-- After an exchange a counter that has heard of every replica counts all increments. -/
theorem counters_converge {actions merges : List (Action Id16 Unit GCounter)}
    {cluster : Cluster Id16 Unit Unit GCounter} {exchange : Exchange Id16 Unit Unit GCounter}
    (run : (replicated build).ReachedBy actions cluster)
    (exchanged : Run (Exchange.Step (replicated build)) (Exchange.start cluster) merges exchange)
    (few : cluster.events.length < 2 ^ 64) (replica : Id16)
    (all : ∀ event ∈ cluster.events, cluster.copy event.origin ∈ exchange.sources replica) :
    (exchange.cluster.copy replica).state.value build = some cluster.events.length := by
  have counted := value_of_reachedBy (Exchange.reachedBy run exchanged)
    (by rw [Exchange.events_run exchanged]; exact few) replica
  rw [Exchange.history_eq_range run exchanged all, Finset.card_range] at counted
  exact counted

/-- Nodes 1 and 2 increment and send each other their counters. -/
theorem counters_converge_traded :
    ∃ exchange : Exchange Id16 Unit Unit GCounter,
      (exchange.cluster.copy (.replicate 1)).state.value .checked = some 2 := by
  let script : List (Instruction Id16 Unit) :=
    [.update (.replicate 1) (), .update (.replicate 2) ()]
  rcases guardedRun_play (replicated .checked) (fun _ _ _ => True) script (by decide)
    with ⟨actions, run⟩
  rcases Exchange.exists_trade (replicated .checked) (ReachedBy.current run.of_guarded)
    (show Id16.replicate 1 ≠ .replicate 2 by decide)
    with ⟨merges, exchange, exchanged, atFirst, _⟩
  refine ⟨exchange, counters_converge run.of_guarded exchanged (by decide) (.replicate 1) ?_⟩
  have origins : ∀ event ∈ (((Cluster.start (replicated .checked)).play (replicated .checked)
      (fun _ _ _ => True) script).get (by decide)).events,
      event.origin = .replicate 1 ∨ event.origin = .replicate 2 := by decide
  intro event eventMem
  rw [atFirst]
  rcases origins event eventMem with first | second
  · exact Or.inl (congrArg _ first)
  · exact Or.inr (congrArg _ second)

end GCounter

namespace LwwRegister

variable {Replica T : Type} [DecidableEq Replica] {initial : LwwRegister T}
  {clocks : Replica → Hlc}

/-- After an exchange the registers that have heard of every writer hold the latest write
of the whole run, and so the same. -/
theorem registers_converge (distinct : Function.Injective fun replica => (clocks replica).nodeId)
    {actions merges : List (Action Replica (Write T) (Writer T))}
    {cluster : Cluster Replica (Write T) Hlc (Writer T)}
    {exchange : Exchange Replica (Write T) Hlc (Writer T)}
    (run : (replicated initial clocks).ReachedBy actions cluster)
    (exchanged : Run (Exchange.Step (replicated initial clocks)) (Exchange.start cluster) merges
      exchange) (left right : Replica)
    (leftHeard : ∀ event ∈ cluster.events, cluster.copy event.origin ∈ exchange.sources left)
    (rightHeard : ∀ event ∈ cluster.events, cluster.copy event.origin ∈ exchange.sources right) :
    let all := written initial cluster.events (Finset.range cluster.events.length)
    (exchange.cluster.copy left).state.register ∈ all ∧
      (∀ write ∈ all,
        write.timestamp ≤ (exchange.cluster.copy left).state.register.timestamp) ∧
      (exchange.cluster.copy left).state.register =
        (exchange.cluster.copy right).state.register := by
  intro all
  rcases register_isLatest distinct (Exchange.reachedBy run exchanged) with ⟨latest, unique⟩
  have leftAll := Exchange.history_eq_range run exchanged leftHeard
  have rightAll := Exchange.history_eq_range run exchanged rightHeard
  have atLeft := latest left
  rw [leftAll, Exchange.events_run exchanged] at atLeft
  exact ⟨atLeft.1, atLeft.2, unique left right (leftAll.trans rightAll.symm)⟩

/-- Two replicas write, and the one whose system clock is behind takes the other's value. -/
theorem registers_converge_traded :
    ∃ (clocks : Bool → Hlc) (events : List (Event Bool (Write ℕ) Hlc))
      (exchange : Exchange Bool (Write ℕ) Hlc (Writer ℕ)),
      let all := written ⟨0, clocks false⟩ events (Finset.range events.length)
      (exchange.cluster.copy false).state.register ∈ all ∧
        (∀ write ∈ all,
          write.timestamp ≤ (exchange.cluster.copy false).state.register.timestamp) ∧
        (exchange.cluster.copy false).state.register =
          (exchange.cluster.copy true).state.register := by
  let clocks : Bool → Hlc := fun second => Hlc.now (if second then .replicate 1 else .replicate 0) 5
  let script : List (Instruction Bool (Write ℕ)) := [.update false ⟨1, 50⟩, .update true ⟨2, 10⟩]
  have distinct : Function.Injective fun replica => (clocks replica).nodeId := by
    intro left right same
    cases left <;> cases right <;> first | rfl | exact absurd same (by decide)
  rcases guardedRun_play (replicated ⟨0, clocks false⟩ clocks) (fun _ _ _ => True) script
    (by decide) with ⟨actions, run⟩
  rcases Exchange.exists_trade (replicated ⟨0, clocks false⟩ clocks)
    (ReachedBy.current run.of_guarded) (show false ≠ true by decide)
    with ⟨merges, exchange, exchanged, atFirst, atSecond⟩
  refine ⟨clocks, _, exchange, registers_converge distinct run.of_guarded exchanged false true
    ?_ ?_⟩
  · intro event _
    rw [atFirst]
    cases event.origin
    · exact Or.inl rfl
    · exact Or.inr rfl
  · intro event _
    rw [atSecond]
    cases event.origin
    · exact Or.inl rfl
    · exact Or.inr rfl

end LwwRegister

namespace MessageLog

/-- A clock and the message it is given to. -/
abbrev Append := Hlc × Bytes

/-- `MessageLog` replicated: an append is remembered by whether the log took it. -/
def replicated (Replica : Type) : Replicated Replica Append Bool MessageLog where
  initial := new
  update _ entry log := some (log.afterAppend entry.1 entry.2, (log.append entry.1 entry.2).isOk)
  merge := merge

variable {Replica : Type}

/-- The clocks that messages were appended under. -/
def clocksOf (events : List (Event Replica Append Bool)) : Finset Hlc :=
  (events.map fun event => event.op.1).toFinset

/-- One clock is never given to two messages. -/
def Determined (events : List (Event Replica Append Bool)) : Prop :=
  ∀ first ∈ events, ∀ second ∈ events, first.op.1 = second.op.1 → first.op.2 = second.op.2

instance (events : List (Event Replica Append Bool)) : Decidable (Determined events) :=
  inferInstanceAs (Decidable (∀ _ ∈ _, _))

/-- The log maps a clock to a message exactly where the history appends them. -/
def HoldsHistory (events : List (Event Replica Append Bool)) (copy : Copy MessageLog) : Prop :=
  (clocksOf events).card ≤ maxLogEntries → Determined events →
    ∀ hlc data, copy.state.entries.lookup hlc = some data ↔
      ∃ index ∈ copy.history, opAt events index = some (hlc, data)

theorem Determined.of_append {events : List (Event Replica Append Bool)}
    {event : Event Replica Append Bool} (determined : Determined (events ++ [event])) :
    Determined events :=
  fun first firstMem second secondMem =>
    determined first (List.mem_append_left _ firstMem) second (List.mem_append_left _ secondMem)

theorem clocksOf_append (events : List (Event Replica Append Bool))
    (event : Event Replica Append Bool) :
    clocksOf (events ++ [event]) = insert event.op.1 (clocksOf events) := by
  ext hlc
  simp [clocksOf]

theorem mem_clocksOf {events : List (Event Replica Append Bool)} {index : ℕ} {entry : Append}
    (performed : opAt events index = some entry) : entry.1 ∈ clocksOf events := by
  rcases Option.map_eq_some_iff.mp performed with ⟨event, eventAt, rfl⟩
  simp only [clocksOf, List.mem_toFinset, List.mem_map]
  exact ⟨event, List.mem_of_getElem? eventAt, rfl⟩

theorem Determined.eq {events : List (Event Replica Append Bool)}
    (determined : Determined events) {first second : ℕ} {hlc : Hlc} {data other : Bytes}
    (firstAt : opAt events first = some (hlc, data))
    (secondAt : opAt events second = some (hlc, other)) : data = other := by
  rcases Option.map_eq_some_iff.mp firstAt with ⟨left, leftAt, leftOp⟩
  rcases Option.map_eq_some_iff.mp secondAt with ⟨right, rightAt, rightOp⟩
  have same := determined left (List.mem_of_getElem? leftAt) right (List.mem_of_getElem? rightAt)
  rw [leftOp, rightOp] at same
  exact same rfl

/-- The clocks of a log that holds its history were all appended under. -/
theorem HoldsHistory.keys_subset {events : List (Event Replica Append Bool)}
    {copy : Copy MessageLog}
    (holds : ∀ hlc data, copy.state.entries.lookup hlc = some data ↔
      ∃ index ∈ copy.history, opAt events index = some (hlc, data)) :
    copy.state.entries.keys ⊆ clocksOf events := by
  intro hlc present
  rcases Finmap.mem_iff.mp (Finmap.mem_keys.mp present) with ⟨data, found⟩
  rcases (holds hlc data).mp found with ⟨index, _, performed⟩
  exact mem_clocksOf performed

theorem exists_performed {events : List (Event Replica Append Bool)} {history : Finset ℕ}
    (bounded : ∀ {index}, index ∈ history → index < events.length)
    (event : Event Replica Append Bool) (entry : Append) :
    (∃ index ∈ insert events.length history, opAt (events ++ [event]) index = some entry) ↔
      event.op = entry ∨ ∃ index ∈ history, opAt events index = some entry := by
  rw [Finset.exists_mem_insert, opAt_length, Option.some.injEq]
  apply or_congr_right
  apply exists_congr
  intro index
  apply and_congr_right
  intro seen
  rw [opAt_append events event (bounded seen)]

theorem or_eq_some_iff {left right : Option Bytes} {data : Bytes}
    (agree : ∀ mine theirs, left = some mine → right = some theirs → mine = theirs) :
    left.or right = some data ↔ left = some data ∨ right = some data := by
  rcases left with _ | mine
  · simp
  · constructor
    · exact Or.inl
    · rintro (found | found)
      · exact found
      · rw [Option.some_or, agree mine data rfl found]

theorem holdsHistory_inductive :
    (replicated Replica).Inductive (fun _ _ _ => True) HoldsHistory where
  initial := by
    intro _ _ hlc data
    simp [replicated, new]
  extend := by
    intro events copy event grounded holds few determined hlc data
    have fewBefore := (Finset.card_le_card (clocksOf_append events event ▸
      Finset.subset_insert event.op.1 (clocksOf events))).trans few
    rw [holds fewBefore determined.of_append hlc data]
    apply exists_congr
    intro index
    apply and_congr_right
    intro seen
    rw [opAt_append events event (grounded.bounded seen)]
  update := by
    intro events copy replica op state output grounded holds applied few determined hlc data
    cases applied
    let event : Event Replica Append Bool :=
      ⟨replica, op, (copy.state.append op.1 op.2).isOk, copy.history⟩
    rw [clocksOf_append] at few
    have before := holds ((Finset.card_le_card (Finset.subset_insert _ _)).trans few)
      determined.of_append
    rw [exists_performed grounded.bounded, entries_afterAppend]
    have same : ∀ held, copy.state.entries.lookup op.1 = some held → held = op.2 := by
      intro held found
      rcases (before op.1 held).mp found with ⟨index, seen, performed⟩
      have earlier := opAt_append events event (grounded.bounded seen)
      exact determined.eq (earlier.trans performed) (opAt_length events event)
    -- the bound counts this clock too, so a log without room has its entry already
    have fits : (copy.state.entries.insert op.1 op.2).keys.card ≤ maxLogEntries := by
      apply (Finset.card_le_card _).trans few
      intro key keyMem
      rw [Finmap.mem_keys, Finmap.mem_insert] at keyMem
      rcases keyMem with rfl | present
      · exact Finset.mem_insert_self _ _
      · exact Finset.mem_insert_of_mem
          (HoldsHistory.keys_subset before (Finmap.mem_keys.mpr present))
    have within : BoundedUnion.Within copy.state.entries
        (copy.state.entries.insert op.1 op.2) := by
      intro key held found
      by_cases here : key = op.1
      · subst key
        rw [Finmap.lookup_insert, same held found]
      · rw [Finmap.lookup_insert_of_ne _ here, found]
    rw [BoundedUnion.lookup_insertWithin fits within (Finmap.lookup_insert _)]
    by_cases here : hlc = op.1
    · subst hlc
      rw [if_pos rfl, Finmap.lookup_insert, Option.some.injEq]
      constructor
      · rintro rfl
        exact Or.inl rfl
      · rintro (now | earlier)
        · exact congrArg Prod.snd now
        · exact (same data ((before op.1 data).mpr earlier)).symm
    · rw [if_neg here, before hlc data]
      constructor
      · exact Or.inr
      · rintro (now | earlier)
        · exact absurd (congrArg Prod.fst now).symm here
        · exact earlier
  merge := by
    intro events copy other grounded otherGrounded holds otherHolds _ few determined hlc data
    have mine := holds few determined
    have theirs := otherHolds few determined
    have fits : (copy.state.entries.keys ∪ other.state.entries.keys).card ≤ maxLogEntries :=
      (Finset.card_le_card (Finset.union_subset (HoldsHistory.keys_subset mine)
        (HoldsHistory.keys_subset theirs))).trans few
    simp only [mergeCopies, replicated, lookup_merge fits, Finset.mem_union, or_and_right,
      exists_or, ← mine hlc data, ← theirs hlc data]
    apply or_eq_some_iff
    intro left right leftFound rightFound
    rcases (mine hlc left).mp leftFound with ⟨_, _, leftAt⟩
    rcases (theirs hlc right).mp rightFound with ⟨_, _, rightAt⟩
    exact determined.eq leftAt rightAt

/-- Logs hold the appends of their histories, so equal histories make equal logs. -/
theorem logs_hold_history [DecidableEq Replica] {actions : List (Action Replica Append MessageLog)}
    {cluster : Cluster Replica Append Bool MessageLog}
    (run : (replicated Replica).ReachedBy actions cluster)
    (few : (clocksOf cluster.events).card ≤ maxLogEntries)
    (determined : Determined cluster.events) :
    (∀ replica hlc data,
      (cluster.copy replica).state.entries.lookup hlc = some data ↔
        ∃ index ∈ (cluster.copy replica).history,
          opAt cluster.events index = some (hlc, data)) ∧
      ∀ left right, (cluster.copy left).history = (cluster.copy right).history →
        (cluster.copy left).state = (cluster.copy right).state := by
  have holds : ∀ replica hlc data,
      (cluster.copy replica).state.entries.lookup hlc = some data ↔
        ∃ index ∈ (cluster.copy replica).history,
          opAt cluster.events index = some (hlc, data) :=
    fun replica => holdsHistory_inductive.holds run.guarded replica few determined
  refine ⟨holds, ?_⟩
  intro left right same
  apply MessageLog.ext
  apply Finmap.ext_lookup
  intro hlc
  apply Option.ext
  intro data
  rw [holds left, holds right, same]

/-- One clock under which both replicas append the same message. -/
theorem logs_hold_history_appended :
    ∃ cluster : Cluster Bool Append Bool MessageLog,
      (∀ replica hlc data,
        (cluster.copy replica).state.entries.lookup hlc = some data ↔
          ∃ index ∈ (cluster.copy replica).history,
            opAt cluster.events index = some (hlc, data)) ∧
        ∀ left right, (cluster.copy left).history = (cluster.copy right).history →
          (cluster.copy left).state = (cluster.copy right).state := by
  let entry : Append := (Hlc.now (.replicate 1) 5, [1])
  let script : List (Instruction Bool Append) :=
    [.update false entry, .merge true 1, .update true entry]
  rcases guardedRun_play (replicated Bool) (fun _ _ _ => True) script (by decide)
    with ⟨actions, run⟩
  exact ⟨_, logs_hold_history run.of_guarded (by decide) (by decide)⟩

end MessageLog

end Mercury.Crdt
