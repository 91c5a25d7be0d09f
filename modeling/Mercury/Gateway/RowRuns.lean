import Mercury.Gateway.Noninterference
import Mercury.Gateway.Revocation
import Mercury.Gateway.RowOrigins
import Mercury.Gateway.Sessions

/-!
# Members, key packages, cursors and heartbeats over whole runs

What a node holds after any run, for any interleaving of its sockets and tasks, any
failures of the stores and any runs of the consumer and of the collector. No role is
gained, and only holders of a role end memberships; the key packages that are fetched for
a user were sent by the user's sockets; a cursor is where a socket of its device moved it,
and only the collector takes one away; an idle socket has missed fewer than three checks.
-/

namespace Mercury.Gateway

open Foundations Foundations.Program Persistence

variable {native : Native} {json : Json} {rate : ℕ} {stores : Stores} {node : Node}
  {labels : List NodeLabel}

/-! ## Members -/

/-- No generated id is the id of a channel that was there from the start. -/
def FreshIds (stores : Stores) (labels : List NodeLabel) : Prop :=
  ∀ moment, Momentary labels moment → ∀ row ∈ stores.channels, row.channelId.val ≠ moment.id

/-- A membership that was not there from the start has no role, and its user asked for it
with an id that was generated for a channel that existed. One that was there is there
until somebody with a role removes it. -/
theorem members_accounted (native : Native) (json : Json) (rate : ℕ)
    (run : Run (Node.Step native json rate) (Node.start stores) labels node) :
    (∀ row ∈ node.stores.members, MemberKnown stores (supplyOf labels) labels row) ∧
      (∀ row ∈ stores.members, row ∈ node.stores.members ∨ RemovedByAdmin stores labels row) ∧
      (FreshIds stores labels → ∀ row ∈ node.stores.members, row ∈ stores.members) := by
  have rows := (Node.traced_run run).rows
  refine ⟨rows.members, rows.removals, fun fresh row present => ?_⟩
  rcases rows.members row present with old | ⟨_, ⟨moment, momentary, isId⟩, channelMem, _⟩
  · exact old
  · exact absurd isId.symm (fresh moment momentary _ channelMem)

/-- Stores of which only the members matter: user 2, and user 5 with a role. -/
def staffed : Stores :=
  { onlyCursors .empty with members := joinedStore.table }

/-- User 5 connects, joins the channel and removes user 2. -/
def removal : List NodeLabel :=
  .worker (.replicate 1) 0 (.connected (.replicate 5) (.replicate 3)) ::
    finishes (.replicate 1) 5 4 ++
  .worker (.replicate 1) 0 (.received joinOf) :: finishes (.replicate 1) 5 8 ++
  .worker (.replicate 1) 0 (.received removeOf) :: finishes (.replicate 1) 5 4

theorem members_accounted_removal :
    ∃ node, Run (Node.Step removeNative unusedJson 100) (Node.start staffed) removal node ∧
      node.stores.members.rows = [⟨.replicate 1, .replicate 7, .replicate 5, 1⟩] ∧
      RemovedByAdmin staffed removal ⟨.replicate 1, .replicate 7, .replicate 2, 0⟩ := by
  have played : (Run.play (Node.step removeNative unusedJson 100) (Node.start staffed)
      removal).map (fun node => node.stores.members.rows) =
        some [⟨.replicate 1, .replicate 7, .replicate 5, 1⟩] := rfl
  rcases Option.map_eq_some_iff.mp played with ⟨node, reached, rows⟩
  have accounted := members_accounted removeNative unusedJson 100 (Run.of_play reached)
  refine ⟨node, Run.of_play reached, rows, ?_⟩
  rcases accounted.2.1 ⟨.replicate 1, .replicate 7, .replicate 2, 0⟩ List.mem_cons_self with
    kept | removed
  · rw [KeyedTable.mem_def, rows, List.mem_singleton] at kept
    exact absurd (congrArg MemberRow.role kept) (by decide)
  · exact removed

/-! ## Key packages -/

/-- No two users connect with the same device of a tenant, nor one with a device that is
another's. -/
structure OwnDevices (stores : Stores) (labels : List NodeLabel) : Prop where
  connected : ∀ tenantId userId otherUser deviceId, Connected labels tenantId userId deviceId →
    Connected labels tenantId otherUser deviceId → userId = otherUser
  known : ∀ row ∈ stores.devices, ∀ userId,
    Connected labels row.tenantId userId row.deviceId → userId = row.userId

/-- Where devices are not shared, the key package of a row is the row's user's. -/
theorem RowsFrom.keyPackage_own {supply : Supply} {now : Stores} {row : DeviceRow}
    {keyPackage : Bytes} (rows : RowsFrom native stores supply labels now)
    (own : OwnDevices stores labels) (present : row ∈ now.devices)
    (held : row.mlsKeyPackage = some keyPackage) :
    (∃ earlier ∈ stores.devices, earlier.tenantId = row.tenantId ∧
      earlier.userId = row.userId ∧ earlier.mlsKeyPackage = some keyPackage) ∨
      ∃ deviceId data, Sent labels row.tenantId row.userId deviceId data ∧
        (Frame.parse data).Uploads native keyPackage := by
  have known := rows.devices row present
  rcases rows.keyPackages row present keyPackage held with
    ⟨earlier, earlierMem, sameKey, package⟩ | ⟨userId, data, sent, uploads⟩
  · refine Or.inl ⟨earlier, earlierMem, congrArg Prod.fst sameKey, ?_, package⟩
    rcases known with ⟨first, firstMem, firstKey, sameUser⟩ | connected
    · rw [KeyedTable.eq_of_key_eq earlierMem firstMem (sameKey.trans firstKey.symm), sameUser]
    · have tenant : earlier.tenantId = row.tenantId := congrArg Prod.fst sameKey
      have device : earlier.deviceId = row.deviceId := congrArg Prod.snd sameKey
      rw [← tenant, ← device] at connected
      exact (own.known earlier earlierMem _ connected).symm
  · have sameUser : userId = row.userId := by
      rcases known with ⟨first, firstMem, firstKey, sameUser⟩ | connected
      · have tenant : first.tenantId = row.tenantId := congrArg Prod.fst firstKey
        have device : first.deviceId = row.deviceId := congrArg Prod.snd firstKey
        have connected := sent.connected
        rw [← tenant, ← device] at connected
        exact (own.known first firstMem _ connected).trans sameUser
      · exact own.connected _ _ _ _ sent.connected connected
    exact Or.inr ⟨row.deviceId, data, sameUser ▸ sent, uploads⟩

/-- The key packages that are fetched for a user were the user's from the start, or
sockets of the user sent them. -/
theorem fetched_key_packages_own (native : Native) (json : Json) (rate : ℕ)
    {tenantId userId : Id16} {moments : ℕ → Moment} {keyPackages : List Bytes}
    (run : Run (Node.Step native json rate) (Node.start stores) labels node)
    (own : OwnDevices stores labels)
    (fetched : (node.stores.run (KeyPackages.fetch tenantId.val userId.val) moments).outcome =
      .ok keyPackages) :
    ∀ keyPackage ∈ keyPackages,
      (∃ row ∈ stores.devices, row.tenantId = tenantId ∧ row.userId = userId ∧
        row.mlsKeyPackage = some keyPackage) ∨
      ∃ deviceId data, Sent labels tenantId userId deviceId data ∧
        (Frame.parse data).Uploads native keyPackage := by
  have rows := (Node.traced_run run).rows
  intro keyPackage keyPackageMem
  have selected : (node.stores.devices.rows.filter fun row =>
      row.tenantId = tenantId ∧ row.userId = userId).filterMap DeviceRow.mlsKeyPackage =
        keyPackages := by
    simp only [KeyPackages.fetch, Id16.ofBytes_val] at fetched
    rw [Stores.run_send rfl] at fetched
    have answered : (moments 0).fate.answer (.selectKeyPackages tenantId userId)
        (node.stores.execute (moments 0) (.selectKeyPackages tenantId userId)).1 =
          .ok keyPackages := fetched
    exact Except.ok.inj (Fate.answer_eq_ok answered fun _ => rfl)
  rw [← selected, List.mem_filterMap] at keyPackageMem
  rcases keyPackageMem with ⟨row, rowMem, held⟩
  rcases List.mem_filter.mp rowMem with ⟨present, wanted⟩
  rcases of_decide_eq_true wanted with ⟨rfl, rfl⟩
  exact rows.keyPackage_own own present held

/-- A decoder for the key package 9. -/
def keyNative : Native :=
  { Capnp.native [] [] with
    mlsKeyPackageDecode := fun bytes =>
      .ok (if bytes = Capnp.message [] [[9]] then .ok [9] else .error Capnp.failure) }

/-- The socket sends its key package on the topic it joined first. -/
def uploads : List NodeLabel :=
  .worker (.replicate 1) 0
      (.received (Sdk.pushFrame 2 1 Event.mlsKeyPackage (Capnp.message [] [[9]]))) ::
    finishes (.replicate 1) 5 2

/-- User 2 sends a key package. -/
def ownUpload : List NodeLabel :=
  connects (.replicate 1) 5 ++ joins (.replicate 1) (.replicate 7) 5 ++ uploads

theorem connected_ownUpload {tenantId userId deviceId : Id16}
    (connected : Connected ownUpload tenantId userId deviceId) : userId = .replicate 2 := by
  rcases connected with ⟨pid, labelMem⟩
  simp only [ownUpload, connects, joins, uploads, finishes, List.mem_append, List.mem_cons,
    List.mem_replicate, NodeLabel.worker.injEq, WorkerEvent.connected.injEq, reduceCtorEq,
    and_false, or_false, List.not_mem_nil] at labelMem
  exact labelMem.2.2.1

theorem fetched_key_packages_own_uploaded :
    ∃ node, Run (Node.Step keyNative unusedJson 100) (Node.start (onlyCursors .empty)) ownUpload
        node ∧
      (node.stores.run (KeyPackages.fetch (Id16.replicate 1).val (Id16.replicate 2).val)
        fun _ => carriedOut).outcome = .ok [[9]] ∧
      ∃ deviceId data, Sent ownUpload (.replicate 1) (.replicate 2) deviceId data ∧
        (Frame.parse data).Uploads keyNative [9] := by
  have played : (Run.play (Node.step keyNative unusedJson 100) (Node.start (onlyCursors .empty))
      ownUpload).map (fun node => (node.stores.run (KeyPackages.fetch (Id16.replicate 1).val
        (Id16.replicate 2).val) fun _ => carriedOut).outcome) = some (.ok [[9]]) := rfl
  rcases Option.map_eq_some_iff.mp played with ⟨node, reached, fetched⟩
  have own : OwnDevices (onlyCursors .empty) ownUpload := by
    constructor
    · intro tenantId userId otherUser deviceId first second
      rw [connected_ownUpload first, connected_ownUpload second]
    · rintro row ⟨⟩
  refine ⟨node, Run.of_play reached, fetched, ?_⟩
  rcases fetched_key_packages_own keyNative unusedJson 100 (Run.of_play reached) own fetched [9]
    (List.mem_singleton_self _) with ⟨row, rowMem, _⟩ | sent
  · cases rowMem
  · exact sent

/-! ## Cursors -/

/-- The collector took away a cursor of this key, which was not updated for long. -/
def Collected (labels : List NodeLabel) (key : CursorKey) : Prop :=
  ∃ now deleted lost, .collected now deleted ∈ labels ∧ lost ∈ deleted ∧ lost.key = key ∧
    lost.updatedAt + GcWorker.cursorTtl < now

theorem Collected.append {label : NodeLabel} {key : CursorKey} (collected : Collected labels key) :
    Collected (labels ++ [label]) key := by
  rcases collected with ⟨now, deleted, lost, labelMem, rest⟩
  exact ⟨now, deleted, lost, List.mem_append_left _ labelMem, rest⟩

/-- A step leaves a cursor its row or a newer one, or is a run of the collector. -/
theorem Node.Step.cursor {next : Node} {label : NodeLabel} {row : CursorRow}
    (taken : Node.Step native json rate node label next) (present : row ∈ node.stores.cursors) :
    (∃ later ∈ next.stores.cursors, later.key = row.key) ∨ Collected [label] row.key := by
  cases label with
  | worker tenantId pid event =>
      rcases Node.stores_workerStep taken with same | ⟨moment, _, following, _, _, _, same⟩
      · exact Or.inl ⟨row, same ▸ present, rfl⟩
      · rw [same]
        exact Or.inl (Stores.cursor_of_execute present)
  | consumed tenantHex applied =>
      rcases taken.consumed with ⟨arriving, _, rfl, rfl | ⟨key, rfl⟩⟩ <;>
        exact Or.inl ⟨row, present, rfl⟩
  | expired key =>
      cases taken
      exact Or.inl ⟨row, present, rfl⟩
  | collected now deleted =>
      simp only [Node.Step, Node.step] at taken
      split at taken <;> cases taken
      next deletes =>
        by_cases gone : row ∈ deleted
        · have expired := List.mem_filter.mp (deletes.1.subset gone)
          have old := of_decide_eq_true expired.2
          exact Or.inr ⟨now, deleted, row, List.mem_singleton_self _, gone, rfl, by omega⟩
        · exact Or.inl ⟨row, KeyedTable.mem_filter.mpr ⟨present, decide_eq_true gone⟩, rfl⟩

/-- A cursor has a row from then on, unless the collector takes one away that was not
updated for ninety days. -/
theorem cursors_kept (native : Native) (json : Json) (rate : ℕ) {source : Node} {row : CursorRow}
    (run : Run (Node.Step native json rate) source labels node)
    (present : row ∈ source.stores.cursors) :
    (∃ later ∈ node.stores.cursors, later.key = row.key) ∨ Collected labels row.key := by
  induction run with
  | refl => exact Or.inl ⟨row, present, rfl⟩
  | @snoc middle target earlier last run taken ih =>
      rcases ih with ⟨held, heldMem, sameKey⟩ | collected
      · rcases taken.cursor heldMem with ⟨later, laterMem, later_key⟩ | ⟨now, deleted, lost, isLast,
          lostMem, lostKey, old⟩
        · exact Or.inl ⟨later, laterMem, later_key.trans sameKey⟩
        · refine Or.inr ⟨now, deleted, lost, List.mem_append_right _ isLast, lostMem, ?_, old⟩
          exact lostKey.trans sameKey
      · exact Or.inr collected.append

/-- Every cursor was there from the start, or a socket of its own device moved it to the
clock that it has. It has a row from then on, unless the collector takes one away that was
not updated for ninety days. -/
theorem cursors_accounted (native : Native) (json : Json) (rate : ℕ) {source : Node}
    {earlier later : List NodeLabel}
    (reached : Run (Node.Step native json rate) (Node.start stores) earlier source)
    (run : Run (Node.Step native json rate) source later node) :
    ∀ row ∈ source.stores.cursors,
      (row ∈ stores.cursors ∨ CursorSent (supplyOf earlier) earlier row) ∧
        ((∃ newer ∈ node.stores.cursors, newer.key = row.key) ∨ Collected later row.key) := by
  have rows := (Node.traced_run reached).rows
  intro row present
  exact ⟨rows.cursors row present, cursors_kept native json rate run present⟩

/-- A cursor that a `sync:cursor` moved, and that the collector takes away later. -/
theorem cursors_accounted_collected :
    ∃ source node row,
      Run (Node.Step (Capnp.native [] []) unusedJson 100) (Node.start (onlyCursors .empty))
          (connects (.replicate 1) 5 ++ joins (.replicate 1) (.replicate 7) 5 ++
            refreshes (.replicate 1) 5) source ∧
        Run (Node.Step (Capnp.native [] []) unusedJson 100) source
          [.collected (GcWorker.cursorTtl + 6) [row]] node ∧
        (∃ data, Sent (connects (.replicate 1) 5 ++ joins (.replicate 1) (.replicate 7) 5 ++
          refreshes (.replicate 1) 5) (.replicate 1) (.replicate 2) (.replicate 3) data ∧
            (Frame.parse data).MovesCursor 0 0) ∧
        Collected [.collected (GcWorker.cursorTtl + 6) [row]] row.key := by
  let row : CursorRow :=
    ⟨.replicate 1, .replicate 2, .replicate 3, .replicate 7, 0, 0, [0], 5⟩
  have played : (Run.play scripted (Node.start (onlyCursors .empty))
      (connects (.replicate 1) 5 ++ joins (.replicate 1) (.replicate 7) 5 ++
        refreshes (.replicate 1) 5)).map (fun node => node.stores.cursors.rows) =
          some [row] := rfl
  rcases Option.map_eq_some_iff.mp played with ⟨source, reached, rows⟩
  have present : row ∈ source.stores.cursors := by
    rw [KeyedTable.mem_def, rows]
    exact List.mem_singleton_self row
  have deletes : GcWorker.Deletes (GcWorker.cursorTtl + 6 - GcWorker.cursorTtl)
      source.stores.cursors [row] := by
    unfold GcWorker.Deletes GcWorker.expiredCursors
    rw [rows]
    exact ⟨List.Subperm.refl _, rfl⟩
  have collects : ∃ node, Node.Step (Capnp.native [] []) unusedJson 100 source
      (.collected (GcWorker.cursorTtl + 6) [row]) node ∧
        node.stores.cursors = source.stores.cursors.filter fun other => other ∉ [row] :=
    ⟨_, if_pos deletes, rfl⟩
  rcases collects with ⟨node, step, left⟩
  have taken := Run.cons step Run.refl
  have accounted := cursors_accounted (Capnp.native [] []) unusedJson 100 (Run.of_play reached)
    taken row present
  refine ⟨source, node, row, Run.of_play reached, taken, ?_, ?_⟩
  · rcases accounted.1 with old | sent
    · cases old
    · exact sent.2
  · rcases accounted.2 with ⟨newer, newerMem, sameKey⟩ | collected
    · rw [left] at newerMem
      rcases KeyedTable.mem_filter.mp newerMem with ⟨held, kept⟩
      rw [KeyedTable.mem_def, rows, List.mem_singleton] at held
      subst held
      simp at kept
    · exact collected

/-! ## Sockets -/

/-- An idle socket is the one that was connected, and has missed the checks since its last
heartbeat, fewer than three; the third one stops it. -/
theorem idle_socket_alive (native : Native) (json : Json) (rate : ℕ) {tenantId : Id16} {pid : ℕ}
    {socket : Socket} (run : Run (Node.Step native json rate) (Node.start stores) labels node)
    (idle : node.workers tenantId pid = some (.idle socket)) :
    socket.tenantId = tenantId ∧
      connectedAs tenantId pid labels = some (socket.userId, socket.deviceId) ∧
      socket.missedHeartbeats = missedChecks tenantId pid labels ∧
      missedChecks tenantId pid labels < 3 ∧
      ∀ next, Node.Step native json rate node (.worker tenantId pid .checked) next →
        (next.workers tenantId pid = none ↔ missedChecks tenantId pid labels = 2) := by
  have speaks : socket.SpeaksFor labels tenantId pid :=
    (Node.traced_run run).attributed tenantId pid _ idle
  have few := speaks.few
  rw [speaks.missed] at few
  refine ⟨speaks.tenant, speaks.identity, speaks.missed, few, fun next taken => ?_⟩
  rw [← speaks.missed]
  simp only [Node.Step, Node.step, Node.workerStep, idle] at taken
  by_cases last : socket.missedHeartbeats = 2
  · have stops : socket.heartbeatCheck = none := by simp [Socket.heartbeatCheck, last]
    rw [stops] at taken
    cases taken
    simp [Node.remove, Node.setWorker, Node.setMailbox, last]
  · have below := speaks.few
    have survives : socket.heartbeatCheck =
        some { socket with missedHeartbeats := socket.missedHeartbeats + 1 } :=
      if_neg (by omega)
    rw [survives] at taken
    cases taken
    simp [Node.setWorker, last]

/-- A socket that missed two checks, which the next one stops. -/
theorem idle_socket_alive_checked :
    ∃ node socket, Run (Node.Step (Capnp.native [] []) unusedJson 100)
        (Node.start (onlyCursors .empty))
        (connects (.replicate 1) 5 ++ List.replicate 2 (.worker (.replicate 1) 0 .checked)) node ∧
      node.workers (.replicate 1) 0 = some (.idle socket) ∧ socket.missedHeartbeats = 2 ∧
        ∀ next, Node.Step (Capnp.native [] []) unusedJson 100 node
            (.worker (.replicate 1) 0 .checked) next → next.workers (.replicate 1) 0 = none := by
  let socket : Socket :=
    { Socket.init (.replicate 1) (.replicate 2) (.replicate 3) with missedHeartbeats := 2 }
  have played : (Run.play scripted (Node.start (onlyCursors .empty)) (connects (.replicate 1) 5 ++
      List.replicate 2 (.worker (.replicate 1) 0 .checked))).map
        (fun node => node.workers (.replicate 1) 0) = some (some (.idle socket)) := rfl
  rcases Option.map_eq_some_iff.mp played with ⟨node, reached, idle⟩
  have alive := idle_socket_alive (Capnp.native [] []) unusedJson 100 (Run.of_play reached) idle
  refine ⟨node, socket, Run.of_play reached, idle, alive.2.2.1, fun next taken => ?_⟩
  exact (alive.2.2.2.2 next taken).mpr rfl

end Mercury.Gateway
