import Mathlib.Order.Bounds.Basic
import Mercury.Foundations.Replication

/-!
# Exchanging snapshots once the updates have stopped

From some moment on the replicas of a cluster only merge, still snapshots that are
stale, lost, reordered and repeated, those taken before that moment included. Each
copy is kept together with the copies of that moment that went into it, its sources.
A cluster cannot see the sources: they are added to its merges and leave them as they
are (`Step.erase`, `exists_lift`). Where merging is a join, a copy is the least upper
bound of its sources, whatever was merged in which order.
-/

namespace Foundations

universe u

namespace Replicated

variable {Replica Op Output State : Type u}

theorem ReachedBy.current [DecidableEq Replica] {type : Replicated Replica Op Output State}
    {actions : List (Action Replica Op State)} {cluster : Cluster Replica Op Output State}
    (run : type.ReachedBy actions cluster) (replica : Replica) :
    cluster.copy replica ∈ cluster.snapshots := by
  induction run generalizing replica with
  | refl => simp [Cluster.start]
  | snoc _ last current =>
      cases last with
      | update => exact Cluster.current_hold current replica
      | merge => exact Cluster.current_hold current replica

/-- A snapshot, and the copies that went into it. -/
structure Letter (State : Type u) where
  copy : Copy State
  sources : Set (Copy State)

/-- A cluster that only merges. -/
structure Exchange (Replica Op Output State : Type u) where
  cluster : Cluster Replica Op Output State
  sources : Replica → Set (Copy State)
  letters : List (Letter State)

namespace Exchange

variable (type : Replicated Replica Op Output State)

/-- At first every copy is its own source. -/
def start (cluster : Cluster Replica Op Output State) : Exchange Replica Op Output State where
  cluster := cluster
  sources replica := {cluster.copy replica}
  letters := cluster.snapshots.map fun copy => ⟨copy, {copy}⟩

variable [DecidableEq Replica]

/-- Replica `replica` merges `letter`. -/
def receive (exchange : Exchange Replica Op Output State) (replica : Replica)
    (letter : Letter State) : Exchange Replica Op Output State :=
  let merged := type.mergeCopies (exchange.cluster.copy replica) letter.copy
  let sources := exchange.sources replica ∪ letter.sources
  { cluster := exchange.cluster.hold replica merged
    sources := Function.update exchange.sources replica sources
    letters := exchange.letters ++ [⟨merged, sources⟩] }

inductive Step : Exchange Replica Op Output State → Action Replica Op State →
    Exchange Replica Op Output State → Prop where
  | receive {exchange : Exchange Replica Op Output State} {replica : Replica}
      {letter : Letter State} (sent : letter ∈ exchange.letters) :
      Step exchange (.merge replica letter.copy) (exchange.receive type replica letter)

/-- The letters are the snapshots, and every replica holds what one of them says. -/
structure Carries (exchange : Exchange Replica Op Output State) : Prop where
  letters : exchange.letters.map Letter.copy = exchange.cluster.snapshots
  current : ∀ replica, ⟨exchange.cluster.copy replica, exchange.sources replica⟩ ∈ exchange.letters

variable {type} {cluster : Cluster Replica Op Output State}
  {exchange next : Exchange Replica Op Output State} {actions : List (Action Replica Op State)}

omit [DecidableEq Replica] in
theorem carries_start (current : ∀ replica, cluster.copy replica ∈ cluster.snapshots) :
    (start cluster).Carries where
  letters := by
    rw [start, List.map_map]
    exact List.map_id' _
  current replica := List.mem_map.mpr ⟨_, current replica, rfl⟩

theorem Carries.step {action : Action Replica Op State} (carries : exchange.Carries)
    (step : Step type exchange action next) : next.Carries := by
  cases step with
  | @receive replica letter sent =>
      constructor
      · simp [receive, Cluster.hold, carries.letters]
      · intro other
        by_cases same : other = replica
        · subst other
          simp [receive, Cluster.hold]
        · simpa [receive, Cluster.hold, Function.update_of_ne same] using
            Or.inl (carries.current other)

theorem Carries.run (carries : exchange.Carries) (run : Run (Step type) exchange actions next) :
    next.Carries :=
  Run.invariant (fun carries step => carries.step step) run carries

/-! ## The exchanges are the runs that only merge -/

theorem Step.erase {action : Action Replica Op State} (carries : exchange.Carries)
    (step : Step type exchange action next) :
    type.Step exchange.cluster action next.cluster := by
  cases step with
  | @receive replica letter sent =>
      apply Replicated.Step.merge
      rw [← carries.letters]
      exact List.mem_map_of_mem sent

theorem erase_run (carries : exchange.Carries) (run : Run (Step type) exchange actions next) :
    Run type.Step exchange.cluster actions next.cluster := by
  induction run with
  | refl => exact Run.refl
  | snoc earlier last ih => exact Run.snoc ih (last.erase (carries.run earlier))

/-- The actions of a run that updates nothing. -/
def MergesOnly (actions : List (Action Replica Op State)) : Prop :=
  ∀ action ∈ actions, ∃ replica snapshot, action = .merge replica snapshot

/-- Sources can be given to the copies of every run that only merges. -/
theorem exists_lift {target : Cluster Replica Op Output State} (carries : exchange.Carries)
    (run : Run type.Step exchange.cluster actions target) (merges : MergesOnly actions) :
    ∃ next, Run (Step type) exchange actions next ∧ next.cluster = target := by
  induction run with
  | refl => exact ⟨exchange, Run.refl, rfl⟩
  | @snoc middle target labels label _ last ih =>
      rcases ih fun action mem => merges action (List.mem_append_left _ mem) with
        ⟨before, earlier, rfl⟩
      rcases merges label (by simp) with ⟨replica, snapshot, rfl⟩
      cases last with
      | merge held =>
          rw [← (carries.run earlier).letters] at held
          rcases List.mem_map.mp held with ⟨letter, sent, rfl⟩
          exact ⟨before.receive type replica letter, Run.snoc earlier (.receive sent), rfl⟩

/-! ## What is true of the sources is true of the copies -/

/-- A relation between a copy and its sources that merging keeps. -/
structure Gathers (type : Replicated Replica Op Output State)
    (cluster : Cluster Replica Op Output State)
    (gathered : Copy State → Set (Copy State) → Prop) : Prop where
  single : ∀ copy ∈ cluster.snapshots, gathered copy {copy}
  merge : ∀ {copy other sources others}, gathered copy sources → gathered other others →
    gathered (type.mergeCopies copy other) (sources ∪ others)

theorem Gathers.letters {gathered : Copy State → Set (Copy State) → Prop}
    (gathers : Gathers type cluster gathered)
    (current : ∀ replica, cluster.copy replica ∈ cluster.snapshots)
    (run : Run (Step type) (start cluster) actions exchange) :
    ∀ letter ∈ exchange.letters, gathered letter.copy letter.sources := by
  induction run with
  | refl =>
      intro letter letterMem
      rcases List.mem_map.mp letterMem with ⟨copy, copyMem, rfl⟩
      exact gathers.single copy copyMem
  | @snoc before next _ _ earlier last ih =>
      cases last with
      | @receive replica letter sent =>
          have own := ih _ (((carries_start current).run earlier).current replica)
          intro other otherMem
          rcases List.mem_append.mp otherMem with old | new
          · exact ih other old
          · cases List.mem_singleton.mp new
            exact gathers.merge own (ih letter sent)

/-- Every replica's copy is related to its sources at the end of an exchange. -/
theorem Gathers.copy {gathered : Copy State → Set (Copy State) → Prop}
    (gathers : Gathers type cluster gathered)
    (current : ∀ replica, cluster.copy replica ∈ cluster.snapshots)
    (run : Run (Step type) (start cluster) actions exchange) (replica : Replica) :
    gathered (exchange.cluster.copy replica) (exchange.sources replica) :=
  gathers.letters current run _ (((carries_start current).run run).current replica)

omit [DecidableEq Replica] in
/-- A history unites the histories of the sources. -/
theorem gathers_histories (type : Replicated Replica Op Output State)
    (cluster : Cluster Replica Op Output State) :
    Gathers type cluster fun copy sources =>
      ∀ index, index ∈ copy.history ↔ ∃ source ∈ sources, index ∈ source.history where
  single copy _ index := by simp
  merge := by
    intro copy other sources others left right index
    simp only [mergeCopies, Finset.mem_union, left index, right index, Set.mem_union, or_and_right,
      exists_or]

omit [DecidableEq Replica] in
/-- What merging unites, a copy has of its sources. -/
theorem gathers_union {Item : Type u} (view : State → Set Item)
    (unites : ∀ left right, view (type.merge left right) = view left ∪ view right)
    (cluster : Cluster Replica Op Output State) :
    Gathers type cluster fun copy sources =>
      ∀ item, item ∈ view copy.state ↔ ∃ source ∈ sources, item ∈ view source.state where
  single copy _ item := by simp
  merge := by
    intro copy other sources others left right item
    simp only [mergeCopies, unites, Set.mem_union, left item, right item, or_and_right, exists_or]

omit [DecidableEq Replica] in
/-- Where merging joins, a copy is the least upper bound of its sources. -/
theorem gathers_isLUB (lattice : SemilatticeSup State)
    (joins : ∀ left right, type.merge left right = left ⊔ right)
    (cluster : Cluster Replica Op Output State) :
    Gathers type cluster fun copy sources => IsLUB (Copy.state '' sources) copy.state where
  single copy _ := by
    rw [Set.image_singleton]
    exact isLUB_singleton
  merge := by
    intro copy other sources others left right
    rw [Set.image_union, mergeCopies, joins]
    exact left.union right

/-! ## The history of a replica that has heard of all -/

theorem events_run (run : Run (Step type) exchange actions next) :
    next.cluster.events = exchange.cluster.events := by
  induction run with
  | refl => rfl
  | snoc _ last ih =>
      cases last with
      | receive => exact ih

/-- An exchange goes on a run of the replicas. -/
theorem reachedBy {earlier : List (Action Replica Op State)}
    (reached : type.ReachedBy earlier cluster)
    (run : Run (Step type) (start cluster) actions exchange) :
    type.ReachedBy (earlier ++ actions) exchange.cluster :=
  Run.append reached (erase_run (carries_start reached.current) run)

/-- A replica that has heard of all that performed an operation has the whole record in
its history. -/
theorem history_eq_range {earlier : List (Action Replica Op State)}
    (reached : type.ReachedBy earlier cluster)
    (run : Run (Step type) (start cluster) actions exchange) {replica : Replica}
    (all : ∀ event ∈ cluster.events, cluster.copy event.origin ∈ exchange.sources replica) :
    (exchange.cluster.copy replica).history = Finset.range cluster.events.length := by
  ext index
  rw [Finset.mem_range]
  constructor
  · intro seen
    have recorded := ((reachedBy reached run).guarded.grounded replica).bounded seen
    rw [events_run run] at recorded
    exact recorded
  · intro performed
    apply ((gathers_histories type cluster).copy reached.current run replica index).mpr
    have origin : originAt cluster.events index = some cluster.events[index].origin := by
      simp [originAt, List.getElem?_eq_getElem performed]
    exact ⟨_, all _ (List.getElem_mem performed), reached.owns.holdsOwn origin⟩

/-- Two replicas that send each other their copies have the same sources. -/
theorem exists_trade (type : Replicated Replica Op Output State)
    (current : ∀ replica, cluster.copy replica ∈ cluster.snapshots) {left right : Replica}
    (different : left ≠ right) :
    ∃ merges exchange, Run (Step type) (start cluster) merges exchange ∧
      exchange.sources left = {cluster.copy left, cluster.copy right} ∧
      exchange.sources right = {cluster.copy left, cluster.copy right} := by
  have sent : ∀ replica, ⟨cluster.copy replica, {cluster.copy replica}⟩ ∈
      (start cluster).letters := (carries_start current).current
  have first : Step type (start cluster) (.merge left (cluster.copy right))
      ((start cluster).receive type left ⟨cluster.copy right, {cluster.copy right}⟩) :=
    .receive (sent right)
  have kept : ⟨cluster.copy left, {cluster.copy left}⟩ ∈ ((start cluster).receive type left
      ⟨cluster.copy right, {cluster.copy right}⟩).letters :=
    List.mem_append_left _ (sent left)
  have second : Step type ((start cluster).receive type left _) (.merge right (cluster.copy left))
      (((start cluster).receive type left _).receive type right _) := .receive kept
  refine ⟨_, _, Run.snoc (Run.snoc Run.refl first) second, ?_, ?_⟩
  · simp [receive, start, Function.update_of_ne different, Set.pair_comm]
  · simp [receive, start, Function.update_of_ne different.symm, Set.pair_comm]

end Exchange

end Replicated

end Foundations
