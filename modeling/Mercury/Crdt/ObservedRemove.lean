import Mercury.Crdt.ReactionMap
import Mercury.Foundations.Replication

/-!
# Adds and removes over whole runs

Replicas of an `ORSet` add under their own node id, remove, and merge snapshots.
An add of a value survives for as long as no remove of it that had seen the add
is in the history of the copy (`add_wins`). The converse fails: `merge` unites
the dots of both sides, so a stale snapshot brings back a dot that a remove had
observed. It holds in the runs whose merges never do that (`NoResurrection`).
-/

namespace Mercury.Crdt

open Foundations Foundations.Replicated

/-- The local operations of a replica. -/
inductive SetOp (T : Type) where
  | add (value : T)
  | remove (value : T)
deriving DecidableEq

/-- `ORSet<T>` replicated under node ids; an add is remembered by its dot. -/
def OrSet.replicated (build : Build) (T : Type) [DecidableEq T] :
    Replicated Id16 (SetOp T) (Option Dot) (OrSet T) where
  initial := OrSet.new
  update nodeId op set :=
    match op with
    | .add value => (set.add build value nodeId).map fun next => (next, set.nextDot build nodeId)
    | .remove value => some (set.remove value, none)
  merge := OrSet.merge

/-- `ReactionMap` replicated under node ids, on pairs of a user and an emoji. -/
def ReactionMap.replicated (build : Build) :
    Replicated Id16 (SetOp (Id16 × String)) (Option Dot) ReactionMap where
  initial := ReactionMap.new
  update nodeId op map :=
    match op with
    | .add (user, emoji) => (map.addReaction build user emoji nodeId).map fun next =>
        (next, map.reactions.nextDot build nodeId)
    | .remove (user, emoji) => some (map.removeReaction user emoji, none)
  merge := ReactionMap.merge

section Histories

variable {T : Type} [DecidableEq T]

/-- The record of the adds and removes of a run. -/
abbrev SetEvents (T : Type) := List (Event Id16 (SetOp T) (Option Dot))

/-- Some `remove(value)` of the history had observed the operation at `index`. -/
def Observed (events : SetEvents T) (history : Finset ℕ) (value : T) (index : ℕ) : Prop :=
  ∃ later ∈ history, opAt events later = some (.remove value) ∧ index ∈ pastAt events later

/-- The history contains an add of `value` that none of its removes had observed. -/
def HasLiveAdd (events : SetEvents T) (history : Finset ℕ) (value : T) : Prop :=
  ∃ index ∈ history, opAt events index = some (.add value) ∧
    ¬Observed events history value index

/-- Every add of `value` in the history was observed by a remove of it in the history. -/
def AllAddsObserved (events : SetEvents T) (history : Finset ℕ) (value : T) : Prop :=
  ∀ index ∈ history, opAt events index = some (.add value) → Observed events history value index

/-- Neither side of a merge still holds the dot of an add that some remove in the
history of either side had observed. -/
def NoResurrection : MergeGuard Id16 (SetOp T) (Option Dot) (OrSet T) :=
  fun events copy other => ∀ index ∈ copy.history ∪ other.history,
    match opAt events index, outputAt events index with
    | some (.add value), some (some dot) =>
        dot ∈ copy.state.dots value ∪ other.state.dots value →
          ¬Observed events (copy.history ∪ other.history) value index
    | _, _ => True

instance (events : SetEvents T) (history : Finset ℕ) (value : T) (index : ℕ) :
    Decidable (Observed events history value index) :=
  inferInstanceAs (Decidable (∃ _ ∈ _, _))

instance (events : SetEvents T) (history : Finset ℕ) (value : T) :
    Decidable (HasLiveAdd events history value) :=
  inferInstanceAs (Decidable (∃ _ ∈ _, _))

instance (events : SetEvents T) (history : Finset ℕ) (value : T) :
    Decidable (AllAddsObserved events history value) :=
  inferInstanceAs (Decidable (∀ _ ∈ _, _))

instance (events : SetEvents T) (copy other : Copy (OrSet T)) :
    Decidable (NoResurrection events copy other) :=
  @Finset.decidableDforallFinset _ _ _ fun index _ =>
    match opAt events index, outputAt events index with
    | some (.add _), some (some _) => inferInstanceAs (Decidable (_ → _))
    | some (.add _), some none => .isTrue trivial
    | some (.add _), none => .isTrue trivial
    | some (.remove _), _ => .isTrue trivial
    | none, _ => .isTrue trivial

omit [DecidableEq T] in
theorem Observed.mono {events : SetEvents T} {history larger : Finset ℕ} {value : T} {index : ℕ}
    (observed : Observed events history value index) (subset : history ⊆ larger) :
    Observed events larger value index := by
  rcases observed with ⟨later, laterMem, removed, seen⟩
  exact ⟨later, subset laterMem, removed, seen⟩

omit [DecidableEq T] in
theorem observed_append {events : SetEvents T} {history : Finset ℕ} {value : T} {index : ℕ}
    (bounded : ∀ {later}, later ∈ history → later < events.length)
    (event : Event Id16 (SetOp T) (Option Dot)) :
    Observed (events ++ [event]) history value index ↔ Observed events history value index := by
  apply exists_congr
  intro later
  apply and_congr_right
  intro laterMem
  rw [opAt_append events event (bounded laterMem), pastAt_append events event (bounded laterMem)]

omit [DecidableEq T] in
/-- Performing an operation adds an observer of the earlier ones exactly when it is
a remove of the value. -/
theorem observed_performed {events : SetEvents T} {copy : Copy (OrSet T)}
    (grounded : Grounded events copy) (replica : Id16) (op : SetOp T) (output : Option Dot)
    {value : T} {index : ℕ} :
    Observed (events ++ [⟨replica, op, output, copy.history⟩])
        (insert events.length copy.history) value index ↔
      (op = .remove value ∧ index ∈ copy.history) ∨
        Observed events copy.history value index := by
  constructor
  · rintro ⟨later, laterMem, removed, seen⟩
    rcases Finset.mem_insert.mp laterMem with rfl | earlier
    · left
      exact ⟨by simpa using removed, by simpa using seen⟩
    · right
      exact (observed_append grounded.bounded _).mp ⟨later, earlier, removed, seen⟩
  · rintro (⟨rfl, seen⟩ | observed)
    · exact ⟨events.length, Finset.mem_insert_self _ _, by simp, by simpa using seen⟩
    · exact ((observed_append grounded.bounded _).mpr observed).mono (Finset.subset_insert _ _)

end Histories

namespace OrSet

variable {T : Type} [DecidableEq T] {build : Build}

/-- What one local operation does to the dots, and what it is remembered by. -/
theorem update_cases {nodeId : Id16} {op : SetOp T} {set next : OrSet T} {output : Option Dot}
    (applied : (OrSet.replicated build T).update nodeId op set = some (next, output)) :
    (∃ value dot, op = .add value ∧ output = some dot ∧
      ∀ other, next.dots other =
        if other = value then insert dot (set.dots value) else set.dots other) ∨
    (∃ value, op = .remove value ∧ output = none ∧
      ∀ other, next.dots other = if other = value then ∅ else set.dots other) := by
  cases op with
  | add value =>
      simp only [replicated, Option.map_eq_some_iff, Prod.mk.injEq] at applied
      rcases applied with ⟨state, added, rfl, rfl⟩
      left
      rcases dots_add added value with ⟨dot, dotEq, _⟩
      refine ⟨value, dot, rfl, dotEq, ?_⟩
      intro other
      rcases dots_add added other with ⟨same, sameEq, dots⟩
      rw [dotEq, Option.some.injEq] at sameEq
      rw [sameEq]
      exact dots
  | remove value =>
      simp only [replicated, Option.some.injEq, Prod.mk.injEq] at applied
      rcases applied with ⟨rfl, rfl⟩
      right
      exact ⟨value, rfl, rfl, dots_remove set value⟩

/-- Every add that no remove of the history had observed still has its dot. -/
def KeepsLiveAdds (events : SetEvents T) (copy : Copy (OrSet T)) : Prop :=
  ∀ value, ∀ index ∈ copy.history, opAt events index = some (.add value) →
    ¬Observed events copy.history value index →
    ∃ dot, outputAt events index = some (some dot) ∧ dot ∈ copy.state.dots value

theorem keepsLiveAdds_inductive :
    (OrSet.replicated build T).Inductive (fun _ _ _ => True) KeepsLiveAdds where
  initial := by simp [KeepsLiveAdds]
  extend := by
    intro events copy event grounded keeps value index indexMem added live
    have recorded := grounded.bounded indexMem
    rw [opAt_append events event recorded] at added
    rw [observed_append grounded.bounded] at live
    rw [outputAt_append events event recorded]
    exact keeps value index indexMem added live
  update := by
    intro events copy replica op state output grounded keeps applied value index indexMem added live
    rw [observed_performed grounded, not_or] at live
    rcases Finset.mem_insert.mp indexMem with rfl | earlier
    · -- the add performed now
      rw [opAt_length, Option.some.injEq] at added
      change op = .add value at added
      subst op
      rcases update_cases applied with ⟨_, dot, opEq, rfl, dots⟩ | ⟨_, opEq, _⟩
      · cases opEq
        refine ⟨dot, outputAt_length _ _, ?_⟩
        rw [dots value, if_pos rfl]
        exact Finset.mem_insert_self _ _
      · cases opEq
    · have recorded := grounded.bounded earlier
      rw [opAt_append events _ recorded] at added
      rcases keeps value index earlier added live.2 with ⟨dot, outputEq, held⟩
      refine ⟨dot, by rw [outputAt_append events _ recorded]; exact outputEq, ?_⟩
      rcases update_cases applied with ⟨target, _, _, _, dots⟩ | ⟨target, rfl, _, dots⟩
      · rw [dots value]
        split
        · next same =>
            subst same
            exact Finset.mem_insert_of_mem held
        · exact held
      · rw [dots value, if_neg]
        · exact held
        · rintro rfl
          exact live.1 ⟨rfl, earlier⟩
  merge := by
    intro events copy other _ _ keeps otherKeeps _ value index indexMem added live
    have unseen : ∀ {history}, history ⊆ copy.history ∪ other.history →
        ¬Observed events history value index :=
      fun subset observed => live (observed.mono subset)
    rcases Finset.mem_union.mp indexMem with mine | theirs
    · rcases keeps value index mine added (unseen Finset.subset_union_left) with
        ⟨dot, outputEq, held⟩
      refine ⟨dot, outputEq, ?_⟩
      simp only [mergeCopies, replicated, dots_merge]
      exact Finset.mem_union_left _ held
    · rcases otherKeeps value index theirs added (unseen Finset.subset_union_right) with
        ⟨dot, outputEq, held⟩
      refine ⟨dot, outputEq, ?_⟩
      simp only [mergeCopies, replicated, dots_merge]
      exact Finset.mem_union_right _ held

/-- Every dot held for a value is the dot of an add of it that no remove of the
history had observed. -/
def HoldsLiveDots (events : SetEvents T) (copy : Copy (OrSet T)) : Prop :=
  ∀ value, ∀ dot ∈ copy.state.dots value, ∃ index ∈ copy.history,
    opAt events index = some (.add value) ∧ outputAt events index = some (some dot) ∧
      ¬Observed events copy.history value index

theorem holdsLiveDots_inductive :
    (OrSet.replicated build T).Inductive NoResurrection HoldsLiveDots where
  initial := by simp [HoldsLiveDots, replicated]
  extend := by
    intro events copy event grounded live value dot held
    rcases live value dot held with ⟨index, indexMem, added, outputEq, unseen⟩
    have recorded := grounded.bounded indexMem
    refine ⟨index, indexMem, ?_, ?_, ?_⟩
    · rw [opAt_append events event recorded]
      exact added
    · rw [outputAt_append events event recorded]
      exact outputEq
    · rw [observed_append grounded.bounded]
      exact unseen
  update := by
    intro events copy replica op state output grounded live applied value dot held
    -- a dot that was held before and survives the operation
    have survives : dot ∈ copy.state.dots value → op ≠ .remove value →
        ∃ index ∈ insert events.length copy.history,
          opAt (events ++ [⟨replica, op, output, copy.history⟩]) index = some (.add value) ∧
          outputAt (events ++ [⟨replica, op, output, copy.history⟩]) index = some (some dot) ∧
          ¬Observed (events ++ [⟨replica, op, output, copy.history⟩])
            (insert events.length copy.history) value index := by
      intro before notRemoved
      rcases live value dot before with ⟨index, indexMem, added, outputEq, unseen⟩
      have recorded := grounded.bounded indexMem
      refine ⟨index, Finset.mem_insert_of_mem indexMem, ?_, ?_, ?_⟩
      · rw [opAt_append events _ recorded]
        exact added
      · rw [outputAt_append events _ recorded]
        exact outputEq
      · rw [observed_performed grounded]
        rintro (⟨removed, _⟩ | observed)
        · exact notRemoved removed
        · exact unseen observed
    rcases update_cases applied with ⟨target, fresh, rfl, rfl, dots⟩ | ⟨target, rfl, _, dots⟩
    · rw [dots value] at held
      split at held
      · next same =>
          subst same
          rcases Finset.mem_insert.mp held with rfl | before
          · refine ⟨events.length, Finset.mem_insert_self _ _, by simp, by simp, ?_⟩
            rw [observed_performed grounded]
            rintro (⟨removed, _⟩ | ⟨later, _, _, seen⟩)
            · cases removed
            · have := grounded.earlier seen
              have := grounded.bounded ‹later ∈ copy.history›
              omega
          · exact survives before (by simp)
      · exact survives held (by simp)
    · rw [dots value] at held
      split at held
      · simp at held
      · next different =>
          apply survives held
          intro opEq
          cases opEq
          exact different rfl
  merge := by
    intro events copy other _ _ live otherLive guarded value dot held
    simp only [mergeCopies, replicated, dots_merge] at held
    have unseen : ∀ {index}, index ∈ copy.history ∪ other.history →
        opAt events index = some (.add value) → outputAt events index = some (some dot) →
        ¬Observed events (copy.history ∪ other.history) value index := by
      intro index indexMem added outputEq
      have admitted := guarded index indexMem
      rw [added, outputEq] at admitted
      exact admitted held
    rcases Finset.mem_union.mp held with mine | theirs
    · rcases live value dot mine with ⟨index, indexMem, added, outputEq, _⟩
      have joint := Finset.mem_union_left other.history indexMem
      exact ⟨index, joint, added, outputEq, unseen joint added outputEq⟩
    · rcases otherLive value dot theirs with ⟨index, indexMem, added, outputEq, _⟩
      have joint := Finset.mem_union_right copy.history indexMem
      exact ⟨index, joint, added, outputEq, unseen joint added outputEq⟩

/-- A merge that does not meet `NoResurrection` leaves a value in the set by the
dot of an add that a remove in the joint history had observed. -/
theorem merge_resurrects {events : SetEvents T} {copy other : Copy (OrSet T)}
    (violated : ¬NoResurrection events copy other) :
    ∃ value index, index ∈ copy.history ∪ other.history ∧
      opAt events index = some (.add value) ∧
      Observed events (copy.history ∪ other.history) value index ∧
      ∃ dot, outputAt events index = some (some dot) ∧
        dot ∈ (copy.state.merge other.state).dots value := by
  simp only [NoResurrection, not_forall] at violated
  rcases violated with ⟨index, indexMem, failed⟩
  rcases opEq : opAt events index with _ | (value | value)
  · simp [opEq] at failed
  · rcases outputEq : outputAt events index with _ | _ | dot
    · simp [opEq, outputEq] at failed
    · simp [opEq, outputEq] at failed
    · simp only [opEq, outputEq, Classical.not_imp, not_not] at failed
      refine ⟨value, index, indexMem, opEq, failed.2, dot, outputEq, ?_⟩
      rw [dots_merge]
      exact failed.1
  · simp [opEq] at failed

/-- Add wins: a value whose history has an add that no remove had observed is in the set. -/
theorem add_wins {actions : List (Action Id16 (SetOp T) (OrSet T))}
    {cluster : Cluster Id16 (SetOp T) (Option Dot) (OrSet T)}
    (run : (OrSet.replicated build T).ReachedBy actions cluster) (replica : Id16) (value : T)
    (live : HasLiveAdd cluster.events (cluster.copy replica).history value) :
    (cluster.copy replica).state.contains value = true := by
  rcases live with ⟨index, indexMem, added, unseen⟩
  have keeps := keepsLiveAdds_inductive.holds run.guarded replica
  rcases keeps value index indexMem added unseen with ⟨dot, _, held⟩
  exact contains_iff.mpr ⟨dot, held⟩

/-- Node 1 removes the add it knows of while node 2 adds concurrently, then merges. -/
theorem add_wins_concurrent : ∃ actions cluster,
    (OrSet.replicated .checked ℕ).ReachedBy actions cluster ∧
      (cluster.copy (.replicate 1)).state.contains 7 = true := by
  let script : List (Instruction Id16 (SetOp ℕ)) :=
    [.update (.replicate 1) (.add 7), .update (.replicate 2) (.add 7),
      .update (.replicate 1) (.remove 7), .merge (.replicate 1) 2]
  rcases guardedRun_play (OrSet.replicated .checked ℕ) (fun _ _ _ => True) script (by decide)
    with ⟨actions, run⟩
  exact ⟨actions, _, run.of_guarded, add_wins run.of_guarded (.replicate 1) 7 (by decide)⟩

theorem not_contains_of_allAddsObserved {actions : List (Action Id16 (SetOp T) (OrSet T))}
    {cluster : Cluster Id16 (SetOp T) (Option Dot) (OrSet T)}
    (run : (OrSet.replicated build T).GuardedRun NoResurrection actions cluster)
    (replica : Id16) (value : T)
    (observed : AllAddsObserved cluster.events (cluster.copy replica).history value) :
    (cluster.copy replica).state.contains value = false := by
  rw [← Bool.not_eq_true, contains_iff]
  rintro ⟨dot, held⟩
  rcases holdsLiveDots_inductive.holds run replica value dot held with
    ⟨index, indexMem, added, _, unseen⟩
  exact unseen (observed index indexMem added)

end OrSet

namespace ReactionMap

variable {build : Build}

/-- A reaction map runs as the set it wraps. -/
theorem simulation : Simulation (ReactionMap.replicated build)
    (OrSet.replicated build (Id16 × String)) ReactionMap.reactions where
  initial := rfl
  update := by
    intro replica op state next output applied
    cases op with
    | add reaction =>
        simp only [replicated, addReaction, Option.map_map, Option.map_eq_some_iff,
          Function.comp_apply, Prod.mk.injEq] at applied
        rcases applied with ⟨set, added, rfl, rfl⟩
        simp [OrSet.replicated, added]
    | remove reaction =>
        simp only [replicated, Option.some.injEq, Prod.mk.injEq] at applied
        rcases applied with ⟨rfl, rfl⟩
        rfl
  merge _ _ := rfl

/-- `NoResurrection`, for the sets inside two reaction maps. -/
def NoResurrection : MergeGuard Id16 (SetOp (Id16 × String)) (Option Dot) ReactionMap :=
  fun events copy other =>
    Crdt.NoResurrection events (copy.map reactions) (other.map reactions)

instance (events : SetEvents (Id16 × String)) (copy other : Copy ReactionMap) :
    Decidable (NoResurrection events copy other) :=
  inferInstanceAs (Decidable (Crdt.NoResurrection _ _ _))

theorem not_mem_of_allAddsObserved
    {actions : List (Action Id16 (SetOp (Id16 × String)) ReactionMap)}
    {cluster : Cluster Id16 (SetOp (Id16 × String)) (Option Dot) ReactionMap}
    (run : (ReactionMap.replicated build).GuardedRun NoResurrection actions cluster)
    (replica user : Id16) (emoji : String)
    (observed : AllAddsObserved cluster.events (cluster.copy replica).history (user, emoji)) :
    emoji ∉ (cluster.copy replica).state.userReactions user := by
  rw [mem_userReactions, Bool.not_eq_true]
  exact OrSet.not_contains_of_allAddsObserved (simulation.guardedRun run) replica (user, emoji)
    observed

end ReactionMap

/-- In a run whose merges never bring back an observed dot, a value or a reaction
all of whose adds were observed by removes is absent. -/
theorem observed_remove_stays (build : Build) (T : Type) [DecidableEq T] :
    (∀ actions cluster,
      (OrSet.replicated build T).GuardedRun NoResurrection actions cluster →
      ∀ replica value,
        AllAddsObserved cluster.events (cluster.copy replica).history value →
        (cluster.copy replica).state.contains value = false) ∧
    (∀ actions cluster,
      (ReactionMap.replicated build).GuardedRun ReactionMap.NoResurrection actions cluster →
      ∀ replica user emoji,
        AllAddsObserved cluster.events (cluster.copy replica).history (user, emoji) →
        emoji ∉ (cluster.copy replica).state.userReactions user) :=
  ⟨fun _ _ run => OrSet.not_contains_of_allAddsObserved run,
    fun _ _ run => ReactionMap.not_mem_of_allAddsObserved run⟩

/-- Node 1 adds and removes; node 2 merges the result. -/
private def removeScript {T : Type} (value : T) : List (Instruction Id16 (SetOp T)) :=
  [.update (.replicate 1) (.add value), .update (.replicate 1) (.remove value),
    .merge (.replicate 2) 2]

/-- Node 2 merges an add, node 1 removes it and then merges node 2's stale copy. -/
private def staleScript {T : Type} (value : T) : List (Instruction Id16 (SetOp T)) :=
  [.update (.replicate 1) (.add value), .merge (.replicate 2) 1,
    .update (.replicate 1) (.remove value), .merge (.replicate 1) 2]

theorem observed_remove_stays_merged :
    (∃ actions cluster,
      (OrSet.replicated .checked ℕ).GuardedRun NoResurrection actions cluster ∧
      0 ∈ (cluster.copy (.replicate 2)).history ∧
      (cluster.copy (.replicate 2)).state.contains 7 = false) ∧
    (∃ actions cluster,
      (ReactionMap.replicated .checked).GuardedRun ReactionMap.NoResurrection actions cluster ∧
      0 ∈ (cluster.copy (.replicate 2)).history ∧
      "+1" ∉ (cluster.copy (.replicate 2)).state.userReactions (.replicate 5)) := by
  constructor
  · rcases guardedRun_play (OrSet.replicated .checked ℕ) NoResurrection (removeScript 7)
      (by decide) with ⟨actions, run⟩
    exact ⟨actions, _, run, by decide,
      (observed_remove_stays .checked ℕ).1 actions _ run (.replicate 2) 7 (by decide)⟩
  · rcases guardedRun_play (ReactionMap.replicated .checked) ReactionMap.NoResurrection
      (removeScript (.replicate 5, "+1")) (by decide) with ⟨actions, run⟩
    exact ⟨actions, _, run, by decide,
      (observed_remove_stays .checked ℕ).2 actions _ run (.replicate 2) (.replicate 5) "+1"
        (by decide)⟩

/-- Without the condition on merges both fail, by the merge of one stale copy. -/
theorem observed_remove_undone :
    (¬∀ actions cluster, (OrSet.replicated .checked ℕ).ReachedBy actions cluster →
      ∀ replica value,
        AllAddsObserved cluster.events (cluster.copy replica).history value →
        (cluster.copy replica).state.contains value = false) ∧
    (¬∀ actions cluster, (ReactionMap.replicated .checked).ReachedBy actions cluster →
      ∀ replica user emoji,
        AllAddsObserved cluster.events (cluster.copy replica).history (user, emoji) →
        emoji ∉ (cluster.copy replica).state.userReactions user) := by
  constructor
  · intro stays
    rcases guardedRun_play (OrSet.replicated .checked ℕ) (fun _ _ _ => True) (staleScript 7)
      (by decide) with ⟨actions, run⟩
    have absent := stays actions _ run.of_guarded (.replicate 1) 7 (by decide)
    exact absurd absent (by decide)
  · intro stays
    rcases guardedRun_play (ReactionMap.replicated .checked) (fun _ _ _ => True)
      (staleScript (.replicate 5, "+1")) (by decide) with ⟨actions, run⟩
    have absent := stays actions _ run.of_guarded (.replicate 1) (.replicate 5) "+1" (by decide)
    exact absurd absent (by decide)

end Mercury.Crdt
