import Mathlib.Algebra.Order.BigOperators.Group.Finset
import Mercury.Crdt.GCounter
import Mercury.Foundations.Replication

/-!
# Counting over whole runs

Replicas of a `GCounter` increment their own slots and merge snapshots of each
other, stale or repeated. Each slot counts the increments of its node in the
history of the copy, so the value counts all of them (`value_eq_card_history`).
-/

namespace Mercury.Crdt

open Foundations Foundations.Replicated

namespace GCounter

/-- `GCounter` replicated under node ids: a replica increments its own slot. -/
def replicated (build : Build) : Replicated Id16 Unit Unit GCounter where
  initial := GCounter.new
  update nodeId _ counter := (counter.increment build nodeId).map fun next => (next, ())
  merge := GCounter.merge

/-- Every slot counts the increments of its node in the history. -/
def CountsHistory (events : List (Event Id16 Unit Unit)) (copy : Copy GCounter) : Prop :=
  events.length < 2 ^ 64 → SeesOwn events →
    ∀ nodeId, copy.state.slot nodeId = (performedBy events copy.history nodeId).card

variable {build : Build}

theorem seesOwn_of_append {events : List (Event Id16 Unit Unit)} {event : Event Id16 Unit Unit}
    (seesOwn : SeesOwn (events ++ [event])) : SeesOwn events := by
  intro earlier later before known sameOrigin
  have seen := @seesOwn earlier later before (by simp; omega)
    (by rw [originAt_append (before.trans known), originAt_append known, sameOrigin])
  rwa [pastAt_append _ _ known] at seen

theorem card_history_le {events : List (Event Id16 Unit Unit)} {copy : Copy GCounter}
    (grounded : Grounded events copy) : copy.history.card ≤ events.length := by
  have subset : copy.history ⊆ Finset.range events.length :=
    fun index mem => Finset.mem_range.mpr (grounded.bounded mem)
  simpa using Finset.card_le_card subset

theorem countsHistory_inductive :
    (replicated build).Inductive (fun _ _ _ => True) CountsHistory where
  initial := by
    intro _ _ nodeId
    exact slot_new nodeId
  extend := by
    intro events copy event grounded counts few seesOwn nodeId
    rw [performedBy_append grounded.bounded]
    rw [List.length_append, List.length_singleton] at few
    exact counts (by omega) (seesOwn_of_append seesOwn) nodeId
  update := by
    intro events copy replica op state output grounded counts applied few seesOwn nodeId
    rw [List.length_append, List.length_singleton] at few
    have before := counts (by omega) (seesOwn_of_append seesOwn)
    have room : copy.state.slot replica + 1 < 2 ^ 64 := by
      have own := Finset.card_le_card
        (Finset.filter_subset (fun index => originAt events index = some replica) copy.history)
      have all := card_history_le grounded
      rw [before replica, performedBy]
      omega
    rcases Option.map_eq_some_iff.mp applied with ⟨next, incremented, same⟩
    cases same
    rw [card_performedBy_insert grounded.bounded, slot_increment incremented room, before nodeId]
  merge := by
    intro events copy other grounded otherGrounded counts otherCounts _ few seesOwn nodeId
    simp only [mergeCopies, replicated, slot_merge, counts few seesOwn nodeId,
      otherCounts few seesOwn nodeId]
    exact (card_performedBy_union seesOwn grounded otherGrounded nodeId).symm

/-- Slots that count a history add up to it. -/
theorem total_eq_card_history {events : List (Event Id16 Unit Unit)} {copy : Copy GCounter}
    (grounded : Grounded events copy)
    (counts : ∀ nodeId, copy.state.slot nodeId = (performedBy events copy.history nodeId).card) :
    copy.state.total = copy.history.card := by
  have known : ∀ index ∈ copy.history, ∃ nodeId, originAt events index = some nodeId := by
    intro index mem
    exact ⟨_, by rw [originAt, List.getElem?_eq_getElem (grounded.bounded mem), Option.map_some]⟩
  let origin : ℕ → Id16 := fun index => (originAt events index).getD (.replicate 0)
  have originEq : ∀ index ∈ copy.history, ∀ nodeId,
      origin index = nodeId ↔ originAt events index = some nodeId := by
    intro index mem nodeId
    rcases known index mem with ⟨actor, actorEq⟩
    simp [origin, actorEq]
  have slots : ∀ index ∈ copy.history, origin index ∈ copy.state.counts.keys := by
    intro index mem
    apply mem_keys_of_slot
    rw [counts, Finset.card_pos]
    exact ⟨index, Finset.mem_filter.mpr ⟨mem, (originEq index mem _).mp rfl⟩⟩
  rw [total, Finset.card_eq_sum_card_fiberwise slots]
  apply Finset.sum_congr rfl
  intro nodeId _
  rw [counts, performedBy]
  exact congrArg Finset.card
    (Finset.filter_congr fun index mem => (originEq index mem nodeId).symm)

/-- After fewer than `2 ^ 64` increments each value counts the history of its copy. -/
theorem value_of_reachedBy {actions : List (Action Id16 Unit GCounter)}
    {cluster : Cluster Id16 Unit Unit GCounter}
    (run : (replicated build).ReachedBy actions cluster)
    (few : cluster.events.length < 2 ^ 64) (replica : Id16) :
    (cluster.copy replica).state.value build = some (cluster.copy replica).history.card := by
  have grounded := run.guarded.grounded replica
  have counts := countsHistory_inductive.holds run.guarded replica few run.owns.seesOwn
  have counted := total_eq_card_history grounded counts
  have bound := card_history_le grounded
  rw [← counted]
  exact if_pos (by omega)

/-- The value counts every increment of the causal history once, and never decreases. -/
theorem value_counts_history {actions further : List (Action Id16 Unit GCounter)}
    {cluster next : Cluster Id16 Unit Unit GCounter}
    (run : (replicated build).ReachedBy actions cluster)
    (continued : Run (replicated build).Step cluster further next)
    (few : next.events.length < 2 ^ 64) (replica : Id16) :
    (cluster.copy replica).state.value build = some (cluster.copy replica).history.card ∧
      ∃ later, (next.copy replica).state.value build = some later ∧
        (cluster.copy replica).history.card ≤ later := by
  have grown := length_events_le_of_run continued
  have now := value_of_reachedBy run (by omega) replica
  have afterwards := value_of_reachedBy (Run.append run continued) few replica
  exact ⟨now, _, afterwards, Finset.card_le_card (history_subset_of_run continued replica)⟩

/-- Two nodes count, and node 2 merges the first copy of node 1 twice, then a newer one. -/
theorem value_counts_history_repeated : ∃ actions further cluster next,
    (replicated .checked).ReachedBy actions cluster ∧
      Run (replicated .checked).Step cluster further next ∧
      next.events.map Event.origin = [.replicate 1, .replicate 2, .replicate 1] ∧
      next.snapshots.map Copy.history =
        [∅, {0}, {1}, {0, 1}, {0, 2}, {0, 1}, {0, 1, 2}] ∧
      (cluster.copy (.replicate 2)).state.value .checked = some 2 ∧
      ∃ later, (next.copy (.replicate 2)).state.value .checked = some later ∧ 2 ≤ later := by
  let first : List (Instruction Id16 Unit) :=
    [.update (.replicate 1) (), .update (.replicate 2) (), .merge (.replicate 2) 1]
  let second : List (Instruction Id16 Unit) :=
    [.update (.replicate 1) (), .merge (.replicate 2) 1, .merge (.replicate 2) 4]
  rcases guardedRun_play (replicated .checked) (fun _ _ _ => True) first (by decide)
    with ⟨actions, run⟩
  rcases Cluster.exists_run_of_play (@Option.some_get _ ((((Cluster.start (replicated .checked)).play
      (replicated .checked) (fun _ _ _ => True) first).get (by decide)).play (replicated .checked)
      (fun _ _ _ => True) second) (by decide)).symm with ⟨further, continued⟩
  have few : 3 < 2 ^ 64 := by decide
  exact ⟨actions, further, _, _, run.of_guarded, continued.of_guarded, by decide, by decide,
    value_counts_history run.of_guarded continued.of_guarded few (.replicate 2)⟩

end GCounter

end Mercury.Crdt
