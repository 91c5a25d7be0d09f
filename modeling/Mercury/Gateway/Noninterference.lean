import Mercury.Foundations.Unwinding
import Mercury.Gateway.Access
import Mercury.Gateway.Isolation

/-!
# Tenants do not interfere

Two runs of a node in which the steps about a tenant agree, whatever frames the
sockets of the other tenants send, push the same frames to the tenant's sockets
and leave the same data behind. Only sync cursors that are old enough for a run of
the collector meanwhile are not covered: it bounds its deletions over all tenants.
-/

namespace Mercury.Gateway

open Foundations Persistence

variable {native : Native} {json : Json} {rate : ℕ} {tenantId : Id16}

/-- The steps about a tenant. Of the collector it sees only when it runs. -/
def NodeLabel.seenBy (tenantId : Id16) : NodeLabel → Option NodeLabel
  | .worker other pid event => if other = tenantId then some (.worker other pid event) else none
  | .consumed tenantHex applied =>
      if Base.decode16 tenantHex = some tenantId.val then some (.consumed tenantHex applied)
      else none
  | .expired key => if OwnedName tenantId.val key then some (.expired key) else none
  | .collected now _ => some (.collected now [])

/-! ## The consumer and the collector -/

theorem invalidatedKey_owned {type tenantHex targetHex key : Bytes}
    (isKey : invalidatedKey type tenantHex targetHex = some key) :
    ∃ id, Base.decode16 tenantHex = some id ∧ OwnedName id key := by
  unfold invalidatedKey at isKey
  split at isKey
  · next id target idEq targetEq =>
      refine ⟨id, idEq, ?_⟩
      split at isKey
      · cases isKey
        exact ownedName_cacheKey .recent id target
      split at isKey
      · cases isKey
        exact ownedName_cacheKey .user id target
      split at isKey
      · cases isKey
        exact ownedName_cacheKey .members id target
      · cases isKey
  · cases isKey

namespace Stores

variable {stores : Stores} {since later cutoff : ℕ}

theorem view_view_of_le (older : since ≤ later) :
    (stores.view tenantId since).view tenantId later = stores.view tenantId later := by
  simp only [view, ownedEntries_ownedEntries, KeyedTable.filter_filter_self]
  rw [KeyedTable.filter_filter_of_imp]
  intro row _ keeps
  have kept := of_decide_eq_true keeps
  exact decide_eq_true ⟨kept.1, older.trans kept.2⟩

/-- The collector deletes no cursor that is new enough. -/
theorem view_collected {deleted : List CursorRow}
    (deletes : GcWorker.Deletes cutoff stores.cursors deleted) (newer : cutoff ≤ since) :
    { stores with cursors := stores.cursors.filter fun row => row ∉ deleted }.view tenantId since =
      stores.view tenantId since := by
  simp only [view]
  rw [KeyedTable.filter_filter_of_imp]
  intro row _ keeps
  have kept := of_decide_eq_true keeps
  apply decide_eq_true
  intro rowDeleted
  have expired := (List.mem_filter.mp (deletes.1.subset rowDeleted)).2
  simp only [decide_eq_true_eq] at expired
  omega

end Stores

namespace Node

variable {node next : Node}

theorem restrict_consume {publication : Publication} {applied : Bool} :
    ((node.restrict tenantId).consume publication applied).restrict tenantId =
      (node.consume publication applied).restrict tenantId := by
  unfold consume
  split
  · split
    · split
      · exact restrict_withStores (Stores.view_setRedis _ _)
      · exact restrict_restrict
    · exact restrict_restrict
  · exact restrict_restrict

/-- An invalidation for another tenant leaves the tenant's entries alone. -/
theorem restrict_consume_of_ne {publication : Publication} {applied : Bool} {tenantHex : Bytes}
    (names : publication.tenantHex = some tenantHex)
    (foreign : Base.decode16 tenantHex ≠ some tenantId.val) :
    (node.consume publication applied).restrict tenantId = node.restrict tenantId := by
  unfold consume
  unfold Publication.tenantHex at names
  split
  · next type hex target isInvalidation =>
      rw [isInvalidation] at names
      cases names
      split
      · next key isKey =>
          split
          · refine restrict_withView (Stores.view_setRedis_of_not fun owned => ?_)
            rcases invalidatedKey_owned isKey with ⟨id, idEq, named⟩
            exact foreign (idEq.trans (congrArg some (named.unique owned)))
          · rfl
      · rfl
  · rfl

theorem concerns_of_tenantHex {publication : Publication} {tenantHex : Bytes}
    (names : publication.tenantHex = some tenantHex) (tenant : Bytes) :
    publication.Concerns tenant ↔ Base.decode16 tenantHex = some tenant := by
  rcases publication with ⟨subject, message⟩
  cases message with
  | cacheInvalidation type hex target =>
      cases names
      exact Iff.rfl
  | message => cases names
  | syncFanout => cases names

/-- What the tenant sees of the node after the collector has run. -/
def afterCollection (tenantId : Id16) (now : ℕ) (node : Node) : Node :=
  { node with
    stores := node.stores.view tenantId (max node.collected (now - GcWorker.cursorTtl))
    collected := max node.collected (now - GcWorker.cursorTtl) }

theorem restrict_collected {now : ℕ} {deleted : List CursorRow}
    (steps : Step native json rate node (.collected now deleted) next) :
    next.restrict tenantId = (node.restrict tenantId).afterCollection tenantId now := by
  simp only [Step, step] at steps
  split at steps <;> cases steps
  next deletes =>
    have newer := le_max_right node.collected (now - GcWorker.cursorTtl)
    have older := le_max_left node.collected (now - GcWorker.cursorTtl)
    simp only [restrict, afterCollection, Stores.view_collected deletes newer,
      Stores.view_view_of_le older]

/-- A step that is not about the tenant leaves its part of the node alone. -/
theorem restrict_of_unseen {label : NodeLabel} (isolated : node.Isolated)
    (steps : Step native json rate node label next) (unseen : label.seenBy tenantId = none) :
    next.restrict tenantId = node.restrict tenantId := by
  cases label with
  | worker other pid event =>
      refine restrict_workerStep_of_ne ?_ isolated steps
      rintro rfl
      simp [NodeLabel.seenBy] at unseen
  | consumed tenantHex applied =>
      have foreign : Base.decode16 tenantHex ≠ some tenantId.val := by
        intro own
        simp [NodeLabel.seenBy, own] at unseen
      simp only [Step, step] at steps
      split at steps
      · cases steps
      · split at steps <;> cases steps
        next publication rest arriving names =>
          refine (restrict_consume_of_ne names foreign).trans (restrict_withArriving ?_)
          rw [arriving, List.filter_cons_of_neg]
          simpa [concerns_of_tenantHex names] using foreign
  | expired key =>
      cases steps
      refine restrict_withView (Stores.view_setRedis_of_not fun owned => ?_)
      simp [NodeLabel.seenBy, owned] at unseen
  | collected now deleted => cases unseen

/-- A step about the tenant can be told from its part of the node. -/
theorem restrict_of_seen {label : NodeLabel} (isolated : node.Isolated)
    (steps : Step native json rate node label next) (seen : label.seenBy tenantId = some label)
    (uncollected : ∀ now deleted, label ≠ .collected now deleted) :
    ((node.restrict tenantId).step native json rate label).map (restrict tenantId) =
      some (next.restrict tenantId) := by
  cases label with
  | worker other pid event =>
      have own : other = tenantId := by
        by_contra different
        simp [NodeLabel.seenBy, different] at seen
      subst own
      simp only [step]
      rw [workerStep_restrict isolated, show node.workerStep native json rate other pid event =
        some next from steps, Option.map_some]
  | consumed tenantHex applied =>
      have own : Base.decode16 tenantHex = some tenantId.val := by
        by_contra foreign
        simp [NodeLabel.seenBy, foreign] at seen
      simp only [Step, step] at steps
      split at steps
      · cases steps
      · split at steps <;> cases steps
        next publication rest arriving names =>
          have concerns : publication.Concerns tenantId.val :=
            (concerns_of_tenantHex names _).mpr own
          have first : (node.restrict tenantId).arriving =
              publication :: rest.filter fun publication => publication.Concerns tenantId.val := by
            simp only [restrict, arriving]
            exact List.filter_cons_of_pos (decide_eq_true concerns)
          simp only [step, first, names, if_true, Option.map_some, Option.some.injEq]
          exact @restrict_consume tenantId { node with arriving := rest } publication applied
  | expired key =>
      cases steps
      simp only [step, Option.map_some, Option.some.injEq]
      exact restrict_withStores (Stores.view_setRedis _ _)
  | collected now deleted => exact absurd rfl (uncollected now deleted)

/-- A label that is seen is seen as it is, the collector's deletions apart. -/
theorem seenBy_eq_some {label what : NodeLabel} (seen : label.seenBy tenantId = some what) :
    (what = label ∧ ∀ now deleted, label ≠ .collected now deleted) ∨
      ∃ now deleted, what = .collected now [] ∧ label = .collected now deleted := by
  cases label with
  | collected now deleted =>
      cases seen
      exact Or.inr ⟨now, deleted, rfl, rfl⟩
  | _ =>
      left
      simp only [NodeLabel.seenBy] at seen
      split at seen <;> cases seen
      exact ⟨rfl, fun _ _ => NodeLabel.noConfusion⟩

/-- What a tenant sees of a node depends only on the steps that it sees. -/
theorem unwinding : Unwinding (Step native json rate) Isolated (restrict tenantId)
    (NodeLabel.seenBy tenantId) where
  preserved isolated steps := isolated.step steps
  silent isolated steps unseen := restrict_of_unseen isolated steps unseen
  consistent := by
    intro left right label other leftTarget rightTarget what leftIsolated rightIsolated alike
      leftSteps rightSteps seen otherSeen
    rcases seenBy_eq_some seen with ⟨rfl, uncollected⟩ | ⟨now, deleted, rfl, rfl⟩
    · rcases seenBy_eq_some otherSeen with ⟨rfl, _⟩ | ⟨now, deleted, rfl, _⟩
      · have leftSees := restrict_of_seen leftIsolated leftSteps seen uncollected
        have rightSees := restrict_of_seen rightIsolated rightSteps seen uncollected
        rw [alike, rightSees] at leftSees
        exact (Option.some.inj leftSees).symm
      · exact absurd rfl (uncollected now [])
    · rcases seenBy_eq_some otherSeen with ⟨rfl, uncollected⟩ | ⟨otherNow, others, sameNow, rfl⟩
      · exact absurd rfl (uncollected now [])
      · cases sameNow
        rw [restrict_collected leftSteps, restrict_collected rightSteps, alike]

/-! ## The collector from a state on -/

/-- The node, with another cutoff of the collector to go on from. -/
def collectedTo (cutoff : ℕ) (node : Node) : Node :=
  { node with collected := cutoff }

/-- Nothing but the collector looks at its cutoff. -/
theorem perform_collectedTo {other : Id16} {pid cutoff : ℕ} {moment : Moment} {command : Command} :
    (node.collectedTo cutoff).perform other pid moment command =
      ((node.perform other pid moment command).1,
        (node.perform other pid moment command).2.collectedTo cutoff) := by
  cases command with
  | natsPublish subject message =>
      refine Prod.ext rfl ?_
      simp only [perform]
      split <;> rfl
  | time | generateId | setting | track | updatePresence => rfl
  | startTask | subscribe | unsubscribe => rfl
  | broadcast | broadcastFrom => rfl
  | _ =>
      refine Prod.ext rfl ?_
      simp only [perform, collectedTo]
      split <;> rfl

theorem workerStep_collectedTo {other : Id16} {pid cutoff : ℕ} {event : WorkerEvent}
    (steps : node.workerStep native json rate other pid event = some next) :
    (node.collectedTo cutoff).workerStep native json rate other pid event =
      some (next.collectedTo cutoff) := by
  cases event with
  | performed moment =>
      rcases Option.map_eq_some_iff.mp steps with ⟨following, isNext, rfl⟩
      refine Option.map_eq_some_iff.mpr ⟨following, isNext, ?_⟩
      simp only [perform_collectedTo]
      rfl
  | ended =>
      cases steps
      rfl
  | checked =>
      simp only [workerStep, collectedTo] at steps ⊢
      split at steps
      · split at steps <;> cases steps
        · rfl
        · rfl
      · cases steps
  | connected | received | answered | delivered | started =>
      simp only [workerStep, collectedTo] at steps ⊢
      split at steps <;> cases steps
      rfl

/-- The cutoff of a run of the collector. -/
def cutoffOf : NodeLabel → ℕ
  | .collected now _ => now - GcWorker.cursorTtl
  | _ => 0

/-- The newest cutoff of the collector in these steps. -/
def newestCutoff (labels : List NodeLabel) : ℕ :=
  labels.foldl (fun newest label => max newest (cutoffOf label)) 0

theorem Step.collectedTo {label : NodeLabel} {cutoff : ℕ}
    (steps : Step native json rate node label next) :
    Step native json rate (node.collectedTo cutoff) label
      (next.collectedTo (max cutoff (cutoffOf label))) := by
  cases label with
  | worker other pid event =>
      simp only [cutoffOf, Nat.max_zero]
      exact workerStep_collectedTo steps
  | consumed tenantHex applied =>
      simp only [Step, step, Node.collectedTo, cutoffOf, Nat.max_zero] at steps ⊢
      split at steps
      · cases steps
      split at steps <;> cases steps
      next publication rest arriving names =>
        rw [if_pos names]
        refine congrArg some ?_
        unfold consume
        split
        · split
          · split <;> rfl
          · rfl
        · rfl
  | expired key =>
      cases steps
      simp only [cutoffOf, Nat.max_zero]
      rfl
  | collected now deleted =>
      simp only [Step, step, Node.collectedTo] at steps ⊢
      split at steps <;> cases steps
      next deletes => exact if_pos deletes

/-- A run, with the cutoffs that the collector has in it. -/
theorem run_collectedTo {source target : Node} {labels : List NodeLabel}
    (run : Run (Step native json rate) source labels target) :
    Run (Step native json rate) (source.collectedTo 0) labels
      (target.collectedTo (newestCutoff labels)) := by
  induction run with
  | refl => exact Run.refl
  | snoc earlier last ih =>
      rw [newestCutoff, List.foldl_append]
      exact ih.snoc last.collectedTo

end Node

/-- Whatever the other tenants do from a reachable state on, the tenant's sockets are
pushed the same frames, the tenant keeps the same rows and cache entries, cursors older
than the newest cutoff since then apart, and the same is published about it. No two
tenants share a key of the cache or a topic. -/
theorem tenant_noninterference (native : Native) (json : Json) (rate : ℕ) (tenantId : Id16)
    (stores : Stores) {earlier leftLabels rightLabels : List NodeLabel} {source left right : Node}
    (reached : Run (Node.Step native json rate) (Node.start stores) earlier source)
    (leftRun : Run (Node.Step native json rate) source leftLabels left)
    (rightRun : Run (Node.Step native json rate) source rightLabels right)
    (agree : leftLabels.filterMap (NodeLabel.seenBy tenantId) =
      rightLabels.filterMap (NodeLabel.seenBy tenantId)) :
    left.pushed tenantId = right.pushed tenantId ∧
      Node.newestCutoff leftLabels = Node.newestCutoff rightLabels ∧
      left.stores.view tenantId (Node.newestCutoff leftLabels) =
        right.stores.view tenantId (Node.newestCutoff leftLabels) ∧
      left.published.filter (fun publication => publication.Concerns tenantId.val) =
        right.published.filter (fun publication => publication.Concerns tenantId.val) ∧
      (∀ (kind otherKind : CacheKind) (tenant otherTenant id otherId : Bytes),
        cacheKey kind tenant id = cacheKey otherKind otherTenant otherId →
          kind = otherKind ∧ tenant = otherTenant ∧ id = otherId) ∧
      ∀ subscription ∈ left.subscriptions, ∀ (owner : Id16) (channelId : Bytes),
        subscription.topic = channelTopic owner.val channelId ∨
            subscription.topic = presenceTopic owner.val channelId →
          subscription.tenantId = owner := by
  have unwinding := @Node.unwinding native json rate tenantId
  have isolated := unwinding.invariant reached (Node.isolated_start stores)
  have isolatedFrom : (source.collectedTo 0).Isolated :=
    ⟨isolated.workers, isolated.pending, isolated.subscriptions⟩
  have same := unwinding.noninterference (Node.run_collectedTo leftRun)
    (Node.run_collectedTo rightRun) isolatedFrom isolatedFrom rfl agree
  have pushed := congrArg (fun node => node.pushed tenantId) same
  simp only [Node.pushed_restrict] at pushed
  have collected : Node.newestCutoff leftLabels = Node.newestCutoff rightLabels :=
    congrArg Node.collected same
  have stored : left.stores.view tenantId (Node.newestCutoff leftLabels) =
      right.stores.view tenantId (Node.newestCutoff rightLabels) := congrArg Node.stores same
  refine ⟨pushed, collected, stored.trans (by rw [collected]), congrArg Node.published same, ?_, ?_⟩
  · intro kind otherKind tenant otherTenant id otherId sameKey
    exact cacheKey_injective sameKey
  · intro subscription subscribed owner channelId names
    have owned := (unwinding.invariant leftRun isolated).subscriptions subscribed
    rcases names with named | named
    · rw [named] at owned
      exact Subtype.ext (owned.unique (ownedName_channelTopic _ _))
    · rw [named] at owned
      exact Subtype.ext (owned.unique (ownedName_presenceTopic _ _))

/-! ## Scripts -/

def scripted : Node → NodeLabel → Option Node :=
  Node.step (Capnp.native [] []) unusedJson 100

/-- A process performs that many commands at this time, and answers. -/
def finishes (tenantId : Id16) (time count : ℕ) : List NodeLabel :=
  List.replicate count (.worker tenantId 0 (.performed ⟨time, [], true, .carried⟩)) ++
    [.worker tenantId 0 .answered]

/-- A socket connects, and its device is known. -/
def connects (tenantId : Id16) (time : ℕ) : List NodeLabel :=
  .worker tenantId 0 (.connected (.replicate 2) (.replicate 3)) :: finishes tenantId time 4

/-- The socket joins the presence topic of a channel. -/
def joins (tenantId channelId : Id16) (time : ℕ) : List NodeLabel :=
  .worker tenantId 0 (.received (Sdk.joinFrame 1 (presenceOf channelId))) ::
    finishes tenantId time 1

/-- The socket sends a `sync:cursor` on the topic it joined first. -/
def refreshes (tenantId : Id16) (time : ℕ) : List NodeLabel :=
  .worker tenantId 0 (.received (Sdk.pushFrame 2 1 Event.syncCursor [])) ::
    finishes tenantId time 2

/-- The reply to a join is the same when another tenant joins its channel of the same id. -/
theorem noninterference_of_joins :
    ∃ left right : Node,
      Run.play scripted (Node.start (onlyCursors .empty))
          (connects (.replicate 1) 5 ++ joins (.replicate 1) (.replicate 7) 5) = some left ∧
        Run.play scripted (Node.start (onlyCursors .empty))
          (connects (.replicate 9) 5 ++ connects (.replicate 1) 5 ++
            joins (.replicate 9) (.replicate 7) 5 ++ joins (.replicate 1) (.replicate 7) 5) =
              some right ∧
        left.pushed (.replicate 1) = right.pushed (.replicate 1) ∧
        left.pushed (.replicate 1) = [(0, []), (0, [[3, 1, 0, 0, 0, 1, 0, 0]])] := by
  have leftPlayed : (Run.play scripted (Node.start (onlyCursors .empty))
      (connects (.replicate 1) 5 ++ joins (.replicate 1) (.replicate 7) 5)).map
        (fun node => node.pushed (.replicate 1)) =
      some [(0, []), (0, [[3, 1, 0, 0, 0, 1, 0, 0]])] := rfl
  have rightPlayed : (Run.play scripted (Node.start (onlyCursors .empty))
      (connects (.replicate 9) 5 ++ connects (.replicate 1) 5 ++
        joins (.replicate 9) (.replicate 7) 5 ++ joins (.replicate 1) (.replicate 7) 5)).isSome =
      true := rfl
  rcases Option.map_eq_some_iff.mp leftPlayed with ⟨left, leftAt, pushed⟩
  rcases Option.isSome_iff_exists.mp rightPlayed with ⟨right, rightAt⟩
  have same := tenant_noninterference (Capnp.native [] []) unusedJson 100 (.replicate 1)
    (onlyCursors .empty) Run.refl (Run.of_play leftAt) (Run.of_play rightAt) rfl
  exact ⟨left, right, leftAt, rightAt, same.1, pushed⟩

/-! ## The bound of the collector -/

/-- The id of the channel with this number. -/
def numbered (number : ℕ) : Id16 :=
  ⟨littleEndian 16 number, length_littleEndian 16 number⟩

/-- A cursor that was last updated at the epoch. -/
def staleCursor (tenantId : Id16) (number : ℕ) : CursorRow where
  tenantId := tenantId
  userId := .replicate 2
  deviceId := .replicate 3
  channelId := numbered number
  lastHlcWall := 0
  lastHlcCounter := 0
  lastHlcNode := [0]
  updatedAt := 0

/-- As many cursors of the second tenant as the collector deletes at a time. -/
def crowd : List CursorRow :=
  (List.range GcWorker.maxDeletes).map (staleCursor (.replicate 9))

theorem numbered_injective {left right : ℕ} (leftFits : left < GcWorker.maxDeletes)
    (rightFits : right < GcWorker.maxDeletes) (same : numbered left = numbered right) :
    left = right := by
  have fits : GcWorker.maxDeletes ≤ 256 ^ 16 := by decide
  have bytes : littleEndian 16 left = littleEndian 16 right := congrArg Subtype.val same
  rw [← fromLittleEndian_littleEndian (leftFits.trans_le fits), bytes,
    fromLittleEndian_littleEndian (rightFits.trans_le fits)]

/-- The stale cursors of the second tenant, and one of the first. -/
def crowded : KeyedTable CursorRow.key where
  rows := crowd ++ [staleCursor (.replicate 1) 0]
  unique := by
    rw [List.map_append, List.nodup_append]
    refine ⟨?_, by simp, ?_⟩
    · rw [crowd, List.map_map]
      refine List.Nodup.map_on ?_ List.nodup_range
      intro left leftMem right rightMem same
      rw [List.mem_range] at leftMem rightMem
      exact numbered_injective leftMem rightMem (congrArg (fun key => key.2.2.2) same)
    · intro key keyMem other otherMem same
      rcases List.mem_map.mp keyMem with ⟨row, rowMem, rfl⟩
      rcases List.mem_map.mp rowMem with ⟨number, _, rfl⟩
      rw [List.map_singleton, List.mem_singleton] at otherMem
      subst otherMem
      have tenants : Id16.replicate 9 = Id16.replicate 1 := congrArg Prod.fst same
      exact absurd tenants (by decide)

/-- The cursor that a `sync:cursor` of the second tenant leaves behind. -/
def freshCursor : CursorRow :=
  { staleCursor (.replicate 9) 0 with updatedAt := GcWorker.cursorTtl + 1 }

theorem crowd_eq : crowd = staleCursor (.replicate 9) 0 ::
    (List.range 9999).map fun number => staleCursor (.replicate 9) (number + 1) := by
  have succ : GcWorker.maxDeletes = 9999 + 1 := rfl
  rw [crowd, succ, List.range_succ_eq_map, List.map_cons, List.map_map]
  rfl

theorem notMem_crowd (number : ℕ) : staleCursor (.replicate 1) number ∉ crowd := by
  intro inCrowd
  rcases List.mem_map.mp inCrowd with ⟨other, _, same⟩
  have tenants : Id16.replicate 9 = Id16.replicate 1 := congrArg CursorRow.tenantId same
  exact absurd tenants (by decide)

theorem length_crowd : crowd.length = GcWorker.maxDeletes := by
  rw [crowd, List.length_map, List.length_range]

theorem updatedAt_crowded {row : CursorRow} (rowMem : row ∈ crowded) : row.updatedAt = 0 := by
  rcases List.mem_append.mp rowMem with inCrowd | alone
  · rcases List.mem_map.mp inCrowd with ⟨number, _, rfl⟩
    rfl
  · rw [List.mem_singleton.mp alone]
    rfl

theorem rows_crowded : crowded.rows = crowd ++ [staleCursor (.replicate 1) 0] :=
  rfl

theorem expired_crowded :
    GcWorker.expiredCursors 1 crowded = crowd ++ [staleCursor (.replicate 1) 0] := by
  unfold GcWorker.expiredCursors
  rw [← rows_crowded, List.filter_eq_self]
  intro row rowMem
  rw [updatedAt_crowded (KeyedTable.mem_def.mpr rowMem)]
  rfl

theorem rows_refreshed : (crowded.upsert freshCursor).rows =
    crowd.tail ++ [staleCursor (.replicate 1) 0] ++ [freshCursor] := by
  have others : ∀ row ∈ crowd.tail, row.key ≠ freshCursor.key := by
    intro row rowMem same
    rw [crowd_eq, List.tail_cons] at rowMem
    rcases List.mem_map.mp rowMem with ⟨number, numberMem, rfl⟩
    have bound : number < 9999 := List.mem_range.mp numberMem
    have fits : number + 1 < GcWorker.maxDeletes := Nat.succ_lt_succ bound
    have zero := numbered_injective fits (Nat.zero_lt_of_lt fits)
      (congrArg (fun key => key.2.2.2) same)
    omega
  have alone : (staleCursor (.replicate 1) 0).key ≠ freshCursor.key := by decide
  have first : (staleCursor (.replicate 9) 0).key = freshCursor.key := rfl
  have split : crowded.rows = staleCursor (.replicate 9) 0 ::
      (crowd.tail ++ [staleCursor (.replicate 1) 0]) := by
    rw [rows_crowded, crowd_eq, List.tail_cons, List.cons_append]
  simp only [KeyedTable.upsert, split]
  rw [List.filter_cons_of_neg (by simp [first]), List.filter_eq_self.mpr]
  intro row rowMem
  rcases List.mem_append.mp rowMem with inCrowd | last
  · simp [others row inCrowd]
  · rw [List.mem_singleton.mp last]
    simp [alone]

theorem expired_refreshed : GcWorker.expiredCursors 1 (crowded.upsert freshCursor) =
    crowd.tail ++ [staleCursor (.replicate 1) 0] := by
  unfold GcWorker.expiredCursors
  rw [rows_refreshed, List.filter_append, List.filter_cons_of_neg (by decide), List.filter_nil,
    List.append_nil, List.filter_eq_self]
  intro row rowMem
  rw [updatedAt_crowded]
  · rfl
  · rcases List.mem_append.mp rowMem with inCrowd | last
    · exact List.mem_append_left _ (List.mem_of_mem_tail inCrowd)
    · exact List.mem_append_right _ last

/-- The label of a run of the collector that deletes the first expired cursors of the table. -/
def collects (now : ℕ) (cursors : KeyedTable CursorRow.key) : NodeLabel :=
  .collected now
    ((GcWorker.expiredCursors (now - GcWorker.cursorTtl) cursors).take GcWorker.maxDeletes)

theorem step_collects {native : Native} {json : Json} {rate now : ℕ} {node : Node}
    {cursors : KeyedTable CursorRow.key} (holds : node.stores.cursors = cursors) :
    ∃ next, Node.Step native json rate node (collects now cursors) next ∧
      next.stores.cursors = cursors.filter fun row =>
        row ∉ (GcWorker.expiredCursors (now - GcWorker.cursorTtl) cursors).take
          GcWorker.maxDeletes := by
  subst holds
  refine ⟨_, if_pos ⟨(List.take_sublist _ _).subperm, List.length_take⟩, rfl⟩

/-- Whether the collector deletes an expired cursor of a tenant depends on the cursors of
the others: a `sync:cursor` of another tenant that makes one of them fresh makes room. -/
theorem interference_by_refresh :
    ∃ left right : Node,
      Run (Node.Step (Capnp.native [] []) unusedJson 100) (Node.start (onlyCursors crowded))
          (connects (.replicate 9) (GcWorker.cursorTtl + 1) ++
            joins (.replicate 9) (numbered 0) (GcWorker.cursorTtl + 1) ++
              [collects (GcWorker.cursorTtl + 1) crowded]) left ∧
        Run (Node.Step (Capnp.native [] []) unusedJson 100) (Node.start (onlyCursors crowded))
          (connects (.replicate 9) (GcWorker.cursorTtl + 1) ++
            joins (.replicate 9) (numbered 0) (GcWorker.cursorTtl + 1) ++
              refreshes (.replicate 9) (GcWorker.cursorTtl + 1) ++
                [collects (GcWorker.cursorTtl + 1) (crowded.upsert freshCursor)]) right ∧
        staleCursor (.replicate 1) 0 ∈ left.stores.cursors ∧
        staleCursor (.replicate 1) 0 ∉ right.stores.cursors := by
  have leftPlayed : ∀ cursors : KeyedTable CursorRow.key,
      (Run.play scripted (Node.start (onlyCursors cursors))
        (connects (.replicate 9) (GcWorker.cursorTtl + 1) ++
          joins (.replicate 9) (numbered 0) (GcWorker.cursorTtl + 1))).map
            (fun node => node.stores.cursors) = some cursors := fun _ => rfl
  have rightPlayed : ∀ cursors : KeyedTable CursorRow.key,
      (Run.play scripted (Node.start (onlyCursors cursors))
        (connects (.replicate 9) (GcWorker.cursorTtl + 1) ++
          joins (.replicate 9) (numbered 0) (GcWorker.cursorTtl + 1) ++
            refreshes (.replicate 9) (GcWorker.cursorTtl + 1))).map
              (fun node => node.stores.cursors) = some (cursors.upsert freshCursor) :=
    fun _ => rfl
  rcases Option.map_eq_some_iff.mp (leftPlayed crowded) with ⟨leftBefore, leftAt, leftCursors⟩
  rcases Option.map_eq_some_iff.mp (rightPlayed crowded) with ⟨rightBefore, rightAt, rightCursors⟩
  rcases step_collects leftCursors with ⟨left, leftCollects, leftAfter⟩
  rcases step_collects rightCursors with ⟨right, rightCollects, rightAfter⟩
  refine ⟨left, right, Run.snoc (Run.of_play leftAt) leftCollects,
    Run.snoc (Run.of_play rightAt) rightCollects, ?_, ?_⟩
  · rw [leftAfter, Nat.add_sub_cancel_left, expired_crowded, ← length_crowd, List.take_left,
      KeyedTable.mem_filter]
    have kept : staleCursor (.replicate 1) 0 ∈ crowded :=
      List.mem_append_right _ List.mem_cons_self
    exact ⟨kept, decide_eq_true (notMem_crowd 0)⟩
  · have length : (crowd.tail ++ [staleCursor (.replicate 1) 0]).length = GcWorker.maxDeletes := by
      rw [List.length_append, List.length_tail, length_crowd]
      rfl
    rw [rightAfter, Nat.add_sub_cancel_left, expired_refreshed,
      List.take_of_length_le length.le, KeyedTable.mem_filter]
    intro kept
    have notDeleted := of_decide_eq_true kept.2
    exact notDeleted (List.mem_append_right _ List.mem_cons_self)

end Mercury.Gateway
