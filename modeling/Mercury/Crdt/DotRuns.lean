import Mercury.Crdt.ObservedRemove

/-!
# Dots over whole runs

No two adds of a run put the same dot into the entries. Every replica adds under its own
node id, and the sequence number it stores for itself counts its adds: a remove leaves it as
it is, and a merge brings no greater one from elsewhere (`Counted`).
-/

namespace Mercury.Crdt

open Foundations Foundations.Replicated

section Adds

variable {T : Type} [DecidableEq T]

/-- The number of adds `nodeId` has done. -/
def addsOf (events : SetEvents T) (nodeId : Id16) : ℕ :=
  events.countP fun event =>
    match event.op with
    | .add _ => decide (event.origin = nodeId)
    | .remove _ => false

/-- Two adds that are remembered by the same dot are one. -/
def DotsUnique (events : SetEvents T) : Prop :=
  ∀ first second value other, opAt events first = some (.add value) →
    opAt events second = some (.add other) →
    outputAt events first = outputAt events second → first = second

variable (events : SetEvents T) (replica : Id16) (output : Option Dot) (past : Finset ℕ)

omit [DecidableEq T] in
theorem addsOf_add (value : T) (nodeId : Id16) :
    addsOf (events ++ [⟨replica, .add value, output, past⟩]) nodeId =
      addsOf events nodeId + if replica = nodeId then 1 else 0 := by
  simp [addsOf, List.countP_append, List.countP_cons]

omit [DecidableEq T] in
@[simp]
theorem addsOf_remove (value : T) (nodeId : Id16) :
    addsOf (events ++ [⟨replica, .remove value, output, past⟩]) nodeId = addsOf events nodeId := by
  simp [addsOf, List.countP_append]

omit [DecidableEq T] in
theorem addsOf_le_append (event : Event Id16 (SetOp T) (Option Dot)) (nodeId : Id16) :
    addsOf events nodeId ≤ addsOf (events ++ [event]) nodeId := by
  simp [addsOf, List.countP_append]

omit [DecidableEq T] in
/-- An operation of the record with one more event is an earlier one or that event's. -/
theorem opAt_append_cases {events : SetEvents T} {event : Event Id16 (SetOp T) (Option Dot)}
    {index : ℕ} {op : SetOp T} (performed : opAt (events ++ [event]) index = some op) :
    index < events.length ∨ index = events.length ∧ event.op = op := by
  rcases lt_trichotomy index events.length with earlier | rfl | beyond
  · exact Or.inl earlier
  · rw [opAt_length, Option.some.injEq] at performed
    exact Or.inr ⟨rfl, performed⟩
  · have missing : (events ++ [event])[index]? = none := by simp; omega
    simp [opAt, missing] at performed

omit [DecidableEq T] in
/-- An event keeps the dots unique unless it repeats the dot of an add. -/
theorem DotsUnique.append {events : SetEvents T} (unique : DotsUnique events)
    {event : Event Id16 (SetOp T) (Option Dot)}
    (fresh : ∀ value, event.op = .add value → ∀ index earlier,
      opAt events index = some (.add earlier) → outputAt events index ≠ some event.output) :
    DotsUnique (events ++ [event]) := by
  intro first second value other firstAdded secondAdded same
  rcases opAt_append_cases firstAdded with firstEarlier | ⟨rfl, isAdd⟩
  · rw [opAt_append _ _ firstEarlier] at firstAdded
    rw [outputAt_append _ _ firstEarlier] at same
    rcases opAt_append_cases secondAdded with secondEarlier | ⟨rfl, isAdd⟩
    · rw [opAt_append _ _ secondEarlier] at secondAdded
      rw [outputAt_append _ _ secondEarlier] at same
      exact unique first second value other firstAdded secondAdded same
    · rw [outputAt_length] at same
      exact absurd same (fresh other isAdd first value firstAdded)
  · rcases opAt_append_cases secondAdded with secondEarlier | ⟨rfl, -⟩
    · rw [opAt_append _ _ secondEarlier] at secondAdded
      rw [outputAt_append _ _ secondEarlier, outputAt_length] at same
      exact absurd same.symm (fresh value isAdd second other secondAdded)
    · rfl

end Adds

namespace OrSet

variable {T : Type} [DecidableEq T] {build : Build}

/-- `next_seq[nodeId]`; no entry counts as 0. -/
def nextSeqOf (set : OrSet T) (nodeId : Id16) : ℕ :=
  EntrywiseJoin.entry set.nextSeq nodeId

/-- No dot of the set has a sequence number beyond the one stored for its node. -/
def DotsStored (set : OrSet T) : Prop :=
  ∀ value, ∀ dot ∈ set.dots value, dot.seq ≤ set.nextSeqOf dot.nodeId

omit [DecidableEq T] in
@[simp]
theorem nextSeqOf_new (nodeId : Id16) : (new : OrSet T).nextSeqOf nodeId = 0 := by
  simp [nextSeqOf, new, EntrywiseJoin.entry]

@[simp]
theorem nextSeqOf_remove (set : OrSet T) (value : T) (nodeId : Id16) :
    (set.remove value).nextSeqOf nodeId = set.nextSeqOf nodeId := rfl

@[simp]
theorem nextSeqOf_merge (self other : OrSet T) (nodeId : Id16) :
    (self.merge other).nextSeqOf nodeId = max (self.nextSeqOf nodeId) (other.nextSeqOf nodeId) := by
  simp [nextSeqOf, merge]

/-- With room for one more, an add counts on from the stored sequence number. -/
theorem add_spec {set next : OrSet T} {value : T} {nodeId : Id16}
    (added : set.add build value nodeId = some next)
    (room : set.nextSeqOf nodeId + 1 < 2 ^ 64) :
    set.nextDot build nodeId = some ⟨nodeId, set.nextSeqOf nodeId + 1⟩ ∧
      (∀ other, next.nextSeqOf other =
        if other = nodeId then set.nextSeqOf nodeId + 1 else set.nextSeqOf other) ∧
      ∀ other, next.dots other =
        if other = value then insert ⟨nodeId, set.nextSeqOf nodeId + 1⟩ (set.dots value)
        else set.dots other := by
  have dotEq : set.nextDot build nodeId = some ⟨nodeId, set.nextSeqOf nodeId + 1⟩ := by
    change (build.increment 64 (set.nextSeqOf nodeId)).map _ = _
    rw [Build.increment_of_lt room]
    rfl
  refine ⟨dotEq, ?_, ?_⟩
  · intro other
    simp only [add, dotEq, Option.map_some, Option.some.injEq] at added
    subst next
    by_cases same : other = nodeId
    · subst other
      simp [nextSeqOf, EntrywiseJoin.entry]
    · simp [nextSeqOf, EntrywiseJoin.entry, same, Finmap.lookup_insert_of_ne _ same]
  · intro other
    rcases dots_add added other with ⟨dot, same, dots⟩
    rw [dotEq, Option.some.injEq] at same
    subst dot
    exact dots

theorem DotsStored.add {set next : OrSet T} {value : T} {nodeId : Id16}
    (stored : set.DotsStored) (added : set.add build value nodeId = some next)
    (room : set.nextSeqOf nodeId + 1 < 2 ^ 64) : next.DotsStored := by
  rcases add_spec added room with ⟨-, seqs, dots⟩
  have grown : ∀ dot : Dot, dot.seq ≤ set.nextSeqOf dot.nodeId →
      dot.seq ≤ next.nextSeqOf dot.nodeId := by
    intro dot bound
    rw [seqs]
    split
    · next same =>
        rw [same] at bound
        omega
    · exact bound
  intro other dot held
  rw [dots] at held
  split at held
  · rcases Finset.mem_insert.mp held with rfl | before
    · rw [seqs, if_pos rfl]
    · exact grown dot (stored value dot before)
  · exact grown dot (stored other dot held)

theorem DotsStored.remove {set : OrSet T} (stored : set.DotsStored) (value : T) :
    (set.remove value).DotsStored := by
  intro other dot held
  rw [dots_remove] at held
  split at held
  · simp at held
  · exact stored other dot held

theorem DotsStored.merge {self other : OrSet T} (stored : self.DotsStored)
    (otherStored : other.DotsStored) : (self.merge other).DotsStored := by
  intro value dot held
  rw [dots_merge] at held
  rw [nextSeqOf_merge]
  rcases Finset.mem_union.mp held with mine | theirs
  · exact le_max_of_le_left (stored value dot mine)
  · exact le_max_of_le_right (otherStored value dot theirs)

/-- One of the copies ever held became another one by the add at `index`, which put in the dot. -/
def Places (snapshots : List (Copy (OrSet T))) (index : ℕ) (value : T) (dot : Dot) : Prop :=
  ∃ before ∈ snapshots, ∃ after ∈ snapshots, after.history = insert index before.history ∧
    dot ∉ before.state.dots value ∧ after.state.dots value = insert dot (before.state.dots value)

theorem Places.mono {snapshots more : List (Copy (OrSet T))} {index : ℕ} {value : T} {dot : Dot}
    (places : Places snapshots index value dot) (grows : snapshots ⊆ more) :
    Places more index value dot := by
  rcases places with ⟨before, beforeMem, after, afterMem, placed⟩
  exact ⟨before, grows beforeMem, after, grows afterMem, placed⟩

/-- What ties the sequence numbers of a cluster to its record: no copy ever held is ahead of
the adds done, and every replica's own number is exactly their count. -/
structure Counted (cluster : Cluster Id16 (SetOp T) (Option Dot) (OrSet T)) : Prop where
  current : ∀ replica, cluster.copy replica ∈ cluster.snapshots
  stored : ∀ copy ∈ cluster.snapshots, copy.state.DotsStored
  bounded : ∀ copy ∈ cluster.snapshots, ∀ nodeId,
    copy.state.nextSeqOf nodeId ≤ addsOf cluster.events nodeId
  own : ∀ replica,
    (cluster.copy replica).state.nextSeqOf replica = addsOf cluster.events replica
  remembered : ∀ index value, opAt cluster.events index = some (.add value) →
    ∃ dot, outputAt cluster.events index = some (some dot) ∧
      dot.seq ≤ addsOf cluster.events dot.nodeId ∧ Places cluster.snapshots index value dot
  unique : DotsUnique cluster.events

theorem counted_start : Counted (Cluster.start (OrSet.replicated build T)) where
  current := by simp [Cluster.start]
  stored := by simp [Cluster.start, replicated, DotsStored]
  bounded := by simp [Cluster.start, replicated]
  own := by simp [Cluster.start, replicated, addsOf]
  remembered := by simp [Cluster.start, opAt]
  unique := by
    intro first second value other added
    simp [Cluster.start, opAt] at added

section Steps

variable {cluster : Cluster Id16 (SetOp T) (Option Dot) (OrSet T)} {replica : Id16}

/-- Holding a copy that satisfies what `Counted` asks of copies. -/
theorem Counted.hold (counted : Counted cluster) {copy : Copy (OrSet T)}
    (stored : copy.state.DotsStored)
    (bounded : ∀ nodeId, copy.state.nextSeqOf nodeId ≤ addsOf cluster.events nodeId)
    (own : copy.state.nextSeqOf replica = addsOf cluster.events replica) :
    Counted (cluster.hold replica copy) where
  current := Cluster.current_hold counted.current
  stored := Cluster.forall_snapshots_hold counted.stored stored
  bounded := Cluster.forall_snapshots_hold counted.bounded bounded
  own := Cluster.forall_copy_hold
    (fun other (held : Copy (OrSet T)) =>
      held.state.nextSeqOf other = addsOf cluster.events other) own
    fun other _ => counted.own other
  remembered index value added := by
    rcases counted.remembered index value added with ⟨dot, outputEq, bound, places⟩
    exact ⟨dot, outputEq, bound, places.mono (List.subset_append_left _ _)⟩
  unique := counted.unique

theorem Counted.merge (counted : Counted cluster) {snapshot : Copy (OrSet T)}
    (held : snapshot ∈ cluster.snapshots) :
    Counted (cluster.hold replica
      ((OrSet.replicated build T).mergeCopies (cluster.copy replica) snapshot)) := by
  have mine := counted.current replica
  refine counted.hold ?_ ?_ ?_
  · exact (counted.stored _ mine).merge (counted.stored _ held)
  · intro nodeId
    simp only [mergeCopies, replicated, nextSeqOf_merge]
    exact max_le (counted.bounded _ mine nodeId) (counted.bounded _ held nodeId)
  · simp only [mergeCopies, replicated, nextSeqOf_merge]
    rw [counted.own replica]
    exact max_eq_left (counted.bounded _ held replica)

/-- What an event leaves true of the copies that are held already. -/
theorem Counted.bounded_append (counted : Counted cluster)
    (event : Event Id16 (SetOp T) (Option Dot)) {copy : Copy (OrSet T)}
    (held : copy ∈ cluster.snapshots) (nodeId : Id16) :
    copy.state.nextSeqOf nodeId ≤ addsOf (cluster.events ++ [event]) nodeId :=
  (counted.bounded copy held nodeId).trans (addsOf_le_append _ _ _)

/-- An earlier add is remembered as before. -/
theorem Counted.remembered_append (counted : Counted cluster)
    (event : Event Id16 (SetOp T) (Option Dot)) {index : ℕ} {value : T}
    (earlier : index < cluster.events.length)
    (added : opAt (cluster.events ++ [event]) index = some (.add value)) :
    ∃ dot, outputAt (cluster.events ++ [event]) index = some (some dot) ∧
      dot.seq ≤ addsOf cluster.events dot.nodeId ∧ Places cluster.snapshots index value dot := by
  rw [opAt_append _ _ earlier] at added
  rw [outputAt_append _ _ earlier]
  exact counted.remembered index value added

theorem Counted.remove (counted : Counted cluster) (value : T) :
    Counted ((cluster.record replica (.remove value) none).hold replica
      ⟨(cluster.copy replica).state.remove value,
        insert cluster.events.length (cluster.copy replica).history⟩) := by
  have recorded : Counted (cluster.record replica (.remove value) none) := by
    refine ⟨counted.current, counted.stored, ?_, ?_, ?_, ?_⟩
    · intro copy held nodeId
      exact counted.bounded_append _ held nodeId
    · intro other
      rw [Cluster.record, addsOf_remove]
      exact counted.own other
    · intro index added addedEq
      rcases opAt_append_cases addedEq with earlier | ⟨-, isRemove⟩
      · rcases counted.remembered_append _ earlier addedEq with ⟨dot, outputEq, bound, places⟩
        refine ⟨dot, outputEq, ?_, places⟩
        rw [Cluster.record, addsOf_remove]
        exact bound
      · cases isRemove
    · apply counted.unique.append
      intro _ isAdd
      cases isAdd
  have mine := counted.current replica
  refine recorded.hold ((counted.stored _ mine).remove value) ?_ ?_
  · intro nodeId
    exact recorded.bounded _ mine nodeId
  · exact recorded.own replica

theorem Counted.add (counted : Counted cluster) {value : T} {next : OrSet T}
    (added : (cluster.copy replica).state.add build value replica = some next)
    (room : addsOf cluster.events replica + 1 < 2 ^ 64) :
    Counted ((cluster.record replica (.add value)
        ((cluster.copy replica).state.nextDot build replica)).hold replica
      ⟨next, insert cluster.events.length (cluster.copy replica).history⟩) := by
  have mine := counted.current replica
  have counts := counted.own replica
  rw [← counts] at room
  have stored := (counted.stored _ mine).add added room
  have known := counted.stored _ mine value
  rcases add_spec added room with ⟨dotEq, seqs, dots⟩
  rw [dotEq]
  rw [counts] at seqs dots ⊢
  set dot : Dot := ⟨replica, addsOf cluster.events replica + 1⟩ with dotDef
  have grows := addsOf_add cluster.events replica (some dot) (cluster.copy replica).history value
  have mineGrows : ∀ nodeId, next.nextSeqOf nodeId ≤ addsOf (cluster.events ++
      [⟨replica, .add value, some dot, (cluster.copy replica).history⟩]) nodeId := by
    intro nodeId
    rw [grows, seqs]
    by_cases same : nodeId = replica
    · simp [same]
    · rw [if_neg same, if_neg fun equal => same equal.symm]
      exact counted.bounded _ mine nodeId
  refine ⟨Cluster.current_hold counted.current,
    Cluster.forall_snapshots_hold counted.stored stored,
    Cluster.forall_snapshots_hold (fun _ held => counted.bounded_append _ held) mineGrows,
    ?_, ?_, ?_⟩
  · refine Cluster.forall_copy_hold (fun other (held : Copy (OrSet T)) =>
      held.state.nextSeqOf other = addsOf (cluster.events ++ [_]) other) ?_ ?_
    · rw [grows, seqs, if_pos rfl, if_pos rfl]
    · intro other different
      rw [grows, if_neg different.symm]
      exact counted.own other
  · intro index one oneAdded
    rcases opAt_append_cases oneAdded with earlier | ⟨rfl, isAdd⟩
    · rcases counted.remembered_append _ earlier oneAdded with ⟨old, outputEq, bound, places⟩
      exact ⟨old, outputEq, bound.trans (addsOf_le_append _ _ _),
        places.mono (List.subset_append_left _ _)⟩
    · cases isAdd
      refine ⟨dot, outputAt_length _ _, ?_, ?_⟩
      · change dot.seq ≤ addsOf (cluster.events ++ [_]) dot.nodeId
        rw [grows, if_pos rfl]
      · refine ⟨_, List.mem_append_left _ mine, _, List.mem_append_right _
          (List.mem_singleton_self _), rfl, fun held => ?_, (dots value).trans (if_pos rfl)⟩
        -- what is in the entries already has a smaller sequence number
        have bound : dot.seq ≤ (cluster.copy replica).state.nextSeqOf replica := known dot held
        rw [counts] at bound
        exact absurd bound (Nat.not_le_of_lt (Nat.lt_succ_self _))
  · apply counted.unique.append
    intro _ _ index earlier earlierAdded same
    rcases counted.remembered index earlier earlierAdded with ⟨old, outputEq, bound, -⟩
    rw [outputEq, Option.some.injEq, Option.some.injEq] at same
    subst old
    simp only [dotDef] at bound
    omega

theorem addsOf_le_step {next : Cluster Id16 (SetOp T) (Option Dot) (OrSet T)}
    {action : Action Id16 (SetOp T) (OrSet T)}
    (step : (OrSet.replicated build T).Step cluster action next) (nodeId : Id16) :
    addsOf cluster.events nodeId ≤ addsOf next.events nodeId := by
  cases step with
  | update applied => exact addsOf_le_append _ _ _
  | merge held => exact le_refl _

theorem Counted.step {next : Cluster Id16 (SetOp T) (Option Dot) (OrSet T)}
    {action : Action Id16 (SetOp T) (OrSet T)} (counted : Counted cluster)
    (step : (OrSet.replicated build T).Step cluster action next)
    (few : ∀ nodeId, addsOf next.events nodeId < 2 ^ 64) : Counted next := by
  cases step with
  | @update replica op state output applied =>
      cases op with
      | add value =>
          simp only [replicated, Option.map_eq_some_iff, Prod.mk.injEq] at applied
          rcases applied with ⟨set, added, rfl, rfl⟩
          apply counted.add added
          have own := few replica
          change addsOf (cluster.events ++ [_]) replica < _ at own
          rw [addsOf_add, if_pos rfl] at own
          exact own
      | remove value =>
          simp only [replicated, Option.some.injEq, Prod.mk.injEq] at applied
          rcases applied with ⟨rfl, rfl⟩
          exact counted.remove value
  | merge held => exact counted.merge held

end Steps

theorem counted_of_reachedBy {actions : List (Action Id16 (SetOp T) (OrSet T))}
    {cluster : Cluster Id16 (SetOp T) (Option Dot) (OrSet T)}
    (run : (OrSet.replicated build T).ReachedBy actions cluster)
    (few : ∀ nodeId, addsOf cluster.events nodeId < 2 ^ 64) : Counted cluster := by
  refine run.invariant_within ?_ (fun before fewer step => before.step step fewer) counted_start few
  intro source label target step fewer nodeId
  exact (addsOf_le_step step nodeId).trans_lt (fewer nodeId)

/-- In a run of fewer than 2^64 adds each add puts a new dot into the entries of its replica, no
two adds the same one, and no dot of any copy ever held is beyond the sequence number stored
there or the adds of its node. -/
theorem dots_unique {actions : List (Action Id16 (SetOp T) (OrSet T))}
    {cluster : Cluster Id16 (SetOp T) (Option Dot) (OrSet T)}
    (run : (OrSet.replicated build T).ReachedBy actions cluster)
    (few : ∀ nodeId, addsOf cluster.events nodeId < 2 ^ 64) :
    DotsUnique cluster.events ∧
    (∀ index value, opAt cluster.events index = some (.add value) →
      ∃ dot, outputAt cluster.events index = some (some dot) ∧
        Places cluster.snapshots index value dot) ∧
    (∀ replica, cluster.copy replica ∈ cluster.snapshots) ∧
    ∀ copy ∈ cluster.snapshots, ∀ value, ∀ dot ∈ copy.state.dots value,
      dot.seq ≤ copy.state.nextSeqOf dot.nodeId ∧
        dot.seq ≤ addsOf cluster.events dot.nodeId := by
  have counted := counted_of_reachedBy run few
  refine ⟨counted.unique, ?_, counted.current, ?_⟩
  · intro index value added
    rcases counted.remembered index value added with ⟨dot, outputEq, -, places⟩
    exact ⟨dot, outputEq, places⟩
  · intro copy held value dot dotMem
    have stored := counted.stored copy held value dot dotMem
    exact ⟨stored, stored.trans (counted.bounded copy held dot.nodeId)⟩

/-- Node 1 adds, removes and adds again, node 2 merges a stale copy and adds. -/
theorem dots_unique_readded : ∃ actions cluster,
    (OrSet.replicated .checked ℕ).ReachedBy actions cluster ∧
      cluster.events.map (fun event => (event.op, event.output)) =
        [(.add 7, some ⟨.replicate 1, 1⟩), (.remove 7, none), (.add 7, some ⟨.replicate 1, 2⟩),
          (.add 7, some ⟨.replicate 2, 1⟩)] ∧
      (cluster.copy (.replicate 1)).state.dots 7 = {⟨.replicate 1, 2⟩} ∧
      (cluster.copy (.replicate 2)).state.dots 7 = {⟨.replicate 1, 1⟩, ⟨.replicate 2, 1⟩} ∧
      DotsUnique cluster.events ∧
      ∃ dot, outputAt cluster.events 3 = some (some dot) ∧ Places cluster.snapshots 3 7 dot := by
  let script : List (Instruction Id16 (SetOp ℕ)) :=
    [.update (.replicate 1) (.add 7), .update (.replicate 1) (.remove 7),
      .update (.replicate 1) (.add 7), .merge (.replicate 2) 1, .update (.replicate 2) (.add 7)]
  rcases guardedRun_play (OrSet.replicated .checked ℕ) (fun _ _ _ => True) script (by decide)
    with ⟨actions, run⟩
  have unique := dots_unique run.of_guarded fun nodeId =>
    lt_of_le_of_lt List.countP_le_length (by decide)
  exact ⟨actions, _, run.of_guarded, by decide, by decide, by decide, unique.1,
    unique.2.1 3 7 (by decide)⟩

end OrSet

end Mercury.Crdt
