import Mercury.Gateway.NodeHistory

/-!
# Where the rows of members, devices and cursors come from

What the tables of a node hold after any run is traced back to what the sockets sent.
Nobody gets a role in a channel, and a membership ends by the frame of a user that had a
role from the start; a device was connected, and its key package and its cursors were
sent by its own sockets.
-/

namespace Mercury.Gateway

open Foundations Foundations.Program Persistence

/-! ## What a command does to the rows -/

namespace Stores

variable {stores : Stores} {moment : Moment} {command : Command}

@[simp]
theorem channels_execute : (stores.execute moment command).2.channels = stores.channels := by
  cases command with
  | incr =>
      simp only [execute]
      split <;> rfl
  | insertReaction _ _ _ _ emoji => cases emoji <;> rfl
  | insertMember =>
      simp only [execute]
      split
      · rfl
      split <;> rfl
  | upsertCursor =>
      simp only [execute]
      split <;> rfl
  | setNew =>
      simp only [execute]
      split <;> rfl
  | insertUser | insertDevice =>
      simp only [execute]
      split <;> rfl
  | _ => rfl

theorem mem_members_execute {row : MemberRow}
    (present : row ∈ (stores.execute moment command).2.members) :
    row ∈ stores.members ∨
      command = .insertMember row.tenantId row.channelId row.userId row.role ∧
        (⟨row.tenantId, row.channelId⟩ : ChannelRow) ∈ stores.channels.rows := by
  cases command with
  | incr =>
      simp only [execute] at present
      split at present <;> exact Or.inl present
  | insertReaction _ _ _ _ emoji => cases emoji <;> exact Or.inl present
  | insertMember tenantId channelId userId role =>
      simp only [execute] at present
      split at present
      · exact Or.inl present
      split at present
      · next known =>
          rcases KeyedTable.mem_upsert.mp present with ⟨held, _⟩ | rfl
          · exact Or.inl held
          · exact Or.inr ⟨rfl, known.1⟩
      · exact Or.inl present
  | deleteMember => exact Or.inl (KeyedTable.mem_filter.mp present).1
  | upsertCursor | setNew | insertUser | insertDevice =>
      simp only [execute] at present
      split at present <;> exact Or.inl present
  | _ => exact Or.inl present

theorem member_of_execute {row : MemberRow} (present : row ∈ stores.members) :
    row ∈ (stores.execute moment command).2.members ∨
      command = .deleteMember row.tenantId row.channelId row.userId := by
  cases command with
  | incr =>
      simp only [execute]
      split <;> exact Or.inl present
  | insertReaction _ _ _ _ emoji => cases emoji <;> exact Or.inl present
  | insertMember tenantId channelId userId role =>
      simp only [execute]
      split
      · exact Or.inl present
      next unknown =>
      split
      · refine Or.inl (KeyedTable.mem_upsert.mpr (Or.inl ⟨present, fun same => unknown ?_⟩))
        exact List.mem_map.mpr ⟨row, present, same⟩
      · exact Or.inl present
  | deleteMember tenantId channelId userId =>
      by_cases wanted : row.tenantId = tenantId ∧ row.channelId = channelId ∧ row.userId = userId
      · rcases wanted with ⟨rfl, rfl, rfl⟩
        exact Or.inr rfl
      · exact Or.inl (KeyedTable.mem_filter.mpr ⟨present, decide_eq_true wanted⟩)
  | upsertCursor | setNew | insertUser | insertDevice =>
      simp only [execute]
      split <;> exact Or.inl present
  | _ => exact Or.inl present

theorem mem_cursors_execute {row : CursorRow}
    (present : row ∈ (stores.execute moment command).2.cursors) :
    row ∈ stores.cursors ∨ command = .upsertCursor row := by
  cases command with
  | incr =>
      simp only [execute] at present
      split at present <;> exact Or.inl present
  | insertReaction _ _ _ _ emoji => cases emoji <;> exact Or.inl present
  | insertMember =>
      simp only [execute] at present
      split at present
      · exact Or.inl present
      split at present <;> exact Or.inl present
  | upsertCursor written =>
      simp only [execute] at present
      split at present
      · rcases KeyedTable.mem_upsert.mp present with ⟨held, _⟩ | rfl
        · exact Or.inl held
        · exact Or.inr rfl
      · exact Or.inl present
  | setNew | insertUser | insertDevice =>
      simp only [execute] at present
      split at present <;> exact Or.inl present
  | _ => exact Or.inl present

/-- A cursor goes on having a row, its own or a newer one. -/
theorem cursor_of_execute {row : CursorRow} (present : row ∈ stores.cursors) :
    ∃ later ∈ (stores.execute moment command).2.cursors, later.key = row.key := by
  cases command with
  | incr =>
      simp only [execute]
      split <;> exact ⟨row, present, rfl⟩
  | insertReaction _ _ _ _ emoji => cases emoji <;> exact ⟨row, present, rfl⟩
  | insertMember =>
      simp only [execute]
      split
      · exact ⟨row, present, rfl⟩
      split <;> exact ⟨row, present, rfl⟩
  | upsertCursor written =>
      simp only [execute]
      split
      · by_cases same : row.key = written.key
        · exact ⟨written, KeyedTable.mem_upsert_self _ _, same.symm⟩
        · exact ⟨row, KeyedTable.mem_upsert.mpr (Or.inl ⟨present, same⟩), rfl⟩
      · exact ⟨row, present, rfl⟩
  | setNew | insertUser | insertDevice =>
      simp only [execute]
      split <;> exact ⟨row, present, rfl⟩
  | _ => exact ⟨row, present, rfl⟩

theorem mem_devices_execute {row : DeviceRow}
    (present : row ∈ (stores.execute moment command).2.devices) :
    row ∈ stores.devices ∨ command = .insertDevice row ∨
      ∃ earlier ∈ stores.devices, ∃ keyPackage,
        command = .updateKeyPackage row.tenantId row.deviceId keyPackage ∧
          row = { earlier with mlsKeyPackage := some keyPackage } := by
  cases command with
  | incr =>
      simp only [execute] at present
      split at present <;> exact Or.inl present
  | insertReaction _ _ _ _ emoji => cases emoji <;> exact Or.inl present
  | insertMember =>
      simp only [execute] at present
      split at present
      · exact Or.inl present
      split at present <;> exact Or.inl present
  | upsertCursor | setNew | insertUser =>
      simp only [execute] at present
      split at present <;> exact Or.inl present
  | insertDevice inserted =>
      simp only [execute] at present
      split at present
      · unfold KeyedTable.insertNew at present
        split at present
        · exact Or.inl present
        · rcases KeyedTable.mem_upsert.mp present with ⟨held, _⟩ | rfl
          · exact Or.inl held
          · exact Or.inr (Or.inl rfl)
      · exact Or.inl present
  | updateKeyPackage tenantId deviceId keyPackage =>
      rcases List.mem_map.mp present with ⟨earlier, held, rfl⟩
      unfold DeviceRow.withKeyPackage
      split
      · next same =>
          rcases same with ⟨rfl, rfl⟩
          exact Or.inr (Or.inr ⟨earlier, held, keyPackage, rfl, rfl⟩)
      · exact Or.inl held
  | _ => exact Or.inl present

end Stores

/-! ## Where the rows come from -/

section Origins

variable (native : Native) (stores : Stores) (supply : Supply) (labels : List NodeLabel)

/-- The membership was there from the start, or it is one without a role that its user
asked for, in a channel whose id was generated once more. -/
def MemberKnown (row : MemberRow) : Prop :=
  row ∈ stores.members ∨
    row.role = 0 ∧ supply.minted row.channelId.val ∧
      (⟨row.tenantId, row.channelId⟩ : ChannelRow) ∈ stores.channels.rows ∧
        ∃ deviceId data, Sent labels row.tenantId row.userId deviceId data ∧
          (Frame.parse data).Creates

/-- Somebody who had a role above zero from the start sent the removal. -/
def RemovedByAdmin (row : MemberRow) : Prop :=
  ∃ userId deviceId data, Sent labels row.tenantId userId deviceId data ∧
    (Frame.parse data).Removes row.userId.val ∧
      ∃ role, 1 ≤ role ∧ stores.HasRole row.tenantId.val row.channelId.val userId.val role

/-- The device was there from the start, or a socket of its user was connected. -/
def DeviceKnown (row : DeviceRow) : Prop :=
  (∃ earlier ∈ stores.devices, earlier.key = row.key ∧ earlier.userId = row.userId) ∨
    Connected labels row.tenantId row.userId row.deviceId

/-- The key package was there from the start, or a socket of the device sent it. -/
def KeyPackageSent (row : DeviceRow) (keyPackage : Bytes) : Prop :=
  (∃ earlier ∈ stores.devices, earlier.key = row.key ∧
    earlier.mlsKeyPackage = some keyPackage) ∨
      ∃ userId data, Sent labels row.tenantId userId row.deviceId data ∧
        (Frame.parse data).Uploads native keyPackage

/-- A socket of the device moved its cursor here, at a time that was shown. -/
def CursorSent (row : CursorRow) : Prop :=
  supply.shown row.updatedAt ∧ ∃ data, Sent labels row.tenantId row.userId row.deviceId data ∧
    (Frame.parse data).MovesCursor row.lastHlcWall row.lastHlcCounter

/-- Every row that belongs to somebody is an old one or comes from the labels. -/
structure RowsFrom (now : Stores) : Prop where
  channels : now.channels = stores.channels
  members : ∀ row ∈ now.members, MemberKnown stores supply labels row
  removals : ∀ row ∈ stores.members, row ∈ now.members ∨ RemovedByAdmin stores labels row
  devices : ∀ row ∈ now.devices, DeviceKnown stores labels row
  keyPackages : ∀ row ∈ now.devices, ∀ keyPackage, row.mlsKeyPackage = some keyPackage →
    KeyPackageSent native stores labels row keyPackage
  cursors : ∀ row ∈ now.cursors, row ∈ stores.cursors ∨ CursorSent supply labels row

end Origins

section Origins

variable {native : Native} {stores now : Stores} {supply : Supply}
  {labels : List NodeLabel} {label : NodeLabel} {tenantId : Id16} {moment : Moment}
  {command : Command}

theorem RowsFrom.start : RowsFrom native stores supply [] stores where
  channels := rfl
  members _ present := Or.inl present
  removals _ present := Or.inl present
  devices row present := Or.inl ⟨row, present, rfl, rfl⟩
  keyPackages row present _ held := Or.inl ⟨row, present, rfl, held⟩
  cursors _ present := Or.inl present

theorem MemberKnown.append {row : MemberRow} (known : MemberKnown stores supply labels row) :
    MemberKnown stores supply (labels ++ [label]) row := by
  rcases known with old | ⟨noRole, isMinted, channelMem, deviceId, data, sent, creates⟩
  · exact Or.inl old
  · exact Or.inr ⟨noRole, isMinted, channelMem, deviceId, data, sent.append, creates⟩

theorem DeviceKnown.append {row : DeviceRow} (known : DeviceKnown stores labels row) :
    DeviceKnown stores (labels ++ [label]) row :=
  known.imp_right Connected.append

theorem KeyPackageSent.append {row : DeviceRow} {keyPackage : Bytes}
    (sent : KeyPackageSent native stores labels row keyPackage) :
    KeyPackageSent native stores (labels ++ [label]) row keyPackage := by
  rcases sent with old | ⟨userId, data, sent, uploads⟩
  · exact Or.inl old
  · exact Or.inr ⟨userId, data, sent.append, uploads⟩

theorem RemovedByAdmin.append {row : MemberRow} (removed : RemovedByAdmin stores labels row) :
    RemovedByAdmin stores (labels ++ [label]) row := by
  rcases removed with ⟨userId, deviceId, data, sent, rest⟩
  exact ⟨userId, deviceId, data, sent.append, rest⟩

theorem CursorSent.append {row : CursorRow} (sent : CursorSent supply labels row) :
    CursorSent supply (labels ++ [label]) row := by
  rcases sent with ⟨isShown, data, sent, moves⟩
  exact ⟨isShown, data, sent.append, moves⟩

theorem RowsFrom.append (rows : RowsFrom native stores supply labels now) :
    RowsFrom native stores supply (labels ++ [label]) now where
  channels := rows.channels
  members row present := (rows.members row present).append
  removals row present := (rows.removals row present).imp_right RemovedByAdmin.append
  devices row present := (rows.devices row present).append
  keyPackages row present keyPackage held := (rows.keyPackages row present keyPackage held).append
  cursors row present := (rows.cursors row present).imp_right CursorSent.append

/-- Fewer cursors, and the same rows otherwise. -/
theorem RowsFrom.restrict {next : Stores} (rows : RowsFrom native stores supply labels now)
    (channels : next.channels = now.channels) (members : next.members = now.members)
    (devices : next.devices = now.devices) (cursors : ∀ row ∈ next.cursors, row ∈ now.cursors) :
    RowsFrom native stores supply labels next where
  channels := channels.trans rows.channels
  members row present := rows.members row (members ▸ present)
  removals row present := (rows.removals row present).imp_left fun held => members.symm ▸ held
  devices row present := rows.devices row (devices ▸ present)
  keyPackages row present := rows.keyPackages row (devices ▸ present)
  cursors row present := rows.cursors row (cursors row present)

theorem RowsFrom.setRedis {key : Bytes} {entry : Option Entry}
    (rows : RowsFrom native stores supply labels now) :
    RowsFrom native stores supply labels (now.setRedis key entry) :=
  rows.restrict rfl rfl rfl fun _ held => held

/-! ### One command -/

theorem WrittenBy.member {tid channelId userId : Id16} {role : ℕ}
    (written : WrittenBy native stores supply labels tenantId
      (.insertMember tid channelId userId role)) :
    role = 0 ∧ supply.minted channelId.val ∧
      ∃ deviceId data, Sent labels tid userId deviceId data ∧ (Frame.parse data).Creates := by
  cases written with
  | harmless harmless => exact harmless.elim
  | connection user device connected provisions => exact provisions.elim
  | frame user device data sent writes =>
      rcases writes with ⟨rfl, rfl, noRole, creates, isMinted⟩
      exact ⟨noRole, isMinted, device, data, sent, creates⟩

theorem WrittenBy.removed {row : MemberRow}
    (written : WrittenBy native stores supply labels tenantId
      (.deleteMember row.tenantId row.channelId row.userId)) :
    RemovedByAdmin stores labels row := by
  cases written with
  | harmless harmless => exact harmless.elim
  | connection user device connected provisions => exact provisions.elim
  | frame user device data sent writes =>
      rcases writes with ⟨own, removes, admin⟩
      rw [← own] at sent
      exact ⟨user, device, data, sent, removes, admin⟩

theorem WrittenBy.cursor {row : CursorRow}
    (written : WrittenBy native stores supply labels tenantId (.upsertCursor row)) :
    CursorSent supply labels row := by
  cases written with
  | harmless harmless => exact harmless.elim
  | connection user device connected provisions => exact provisions.elim
  | frame user device data sent writes =>
      rcases writes with ⟨tenant, rfl, rfl, moves, isShown⟩
      rw [← tenant] at sent
      exact ⟨isShown, data, sent, moves⟩

theorem WrittenBy.device {row : DeviceRow}
    (written : WrittenBy native stores supply labels tenantId (.insertDevice row)) :
    Connected labels row.tenantId row.userId row.deviceId ∧ row.mlsKeyPackage = none := by
  cases written with
  | harmless harmless => exact harmless.elim
  | frame user device data sent writes => exact writes.elim
  | connection user device connected provisions =>
      rcases provisions with ⟨tenant, rfl, rfl, none⟩
      rw [← tenant] at connected
      exact ⟨connected, none⟩

theorem WrittenBy.keyPackage {tid deviceId : Id16} {keyPackage : Bytes}
    (written : WrittenBy native stores supply labels tenantId
      (.updateKeyPackage tid deviceId keyPackage)) :
    ∃ userId data, Sent labels tid userId deviceId data ∧
      (Frame.parse data).Uploads native keyPackage := by
  cases written with
  | harmless harmless => exact harmless.elim
  | connection user device connected provisions => exact provisions.elim
  | frame user device data sent writes =>
      rcases writes with ⟨tenant, rfl, uploads⟩
      rw [← tenant] at sent
      exact ⟨user, data, sent, uploads⟩

/-- A command that its process was given a reason for keeps the rows accounted for. -/
theorem RowsFrom.execute (rows : RowsFrom native stores supply labels now)
    (written : WrittenBy native stores supply labels tenantId command) :
    RowsFrom native stores supply labels (now.execute moment command).2 where
  channels := Stores.channels_execute.trans rows.channels
  members row present := by
    rcases Stores.mem_members_execute present with held | ⟨rfl, channelMem⟩
    · exact rows.members row held
    · rcases written.member with ⟨noRole, isMinted, sends⟩
      rw [rows.channels] at channelMem
      exact Or.inr ⟨noRole, isMinted, channelMem, sends⟩
  removals row present := by
    rcases rows.removals row present with held | removed
    · rcases @Stores.member_of_execute now moment command row held with kept | rfl
      · exact Or.inl kept
      · exact Or.inr written.removed
    · exact Or.inr removed
  devices row present := by
    rcases Stores.mem_devices_execute present with held | rfl | ⟨earlier, held, keyPackage, _, rfl⟩
    · exact rows.devices row held
    · exact Or.inr written.device.1
    · exact rows.devices earlier held
  keyPackages row present keyPackage held := by
    rcases Stores.mem_devices_execute present with
      rowMem | rfl | ⟨earlier, earlierMem, uploaded, rfl, rfl⟩
    · exact rows.keyPackages row rowMem keyPackage held
    · rw [written.device.2] at held
      cases held
    · cases held
      exact Or.inr written.keyPackage
  cursors row present := by
    rcases Stores.mem_cursors_execute present with held | rfl
    · exact rows.cursors row held
    · exact Or.inr written.cursor

end Origins

/-! ## Whole runs -/

/-- The answer of a command that reaches the stores is theirs, where it has no error reply. -/
theorem Fate.answer_eq_ok {fate : Fate} {command : Command}
    {answer : Except Raise command.Answer} {result : command.Answer}
    (answered : fate.answer command answer = .ok result)
    (noReply : ∀ reason, refusal reason command = none) : answer = .ok result := by
  unfold Fate.answer at answered
  split at answered
  · exact answered
  · rw [noReply] at answered
    cases answered
  · cases answered

namespace Node

variable {native : Native} {json : Json} {rate : ℕ} {stores : Stores} {node next : Node}
  {supply : Supply} {labels : List NodeLabel} {label : NodeLabel} {tenantId : Id16}
  {pid : ℕ} {moment : Moment} {command : Command}

/-- A command leaves the stores alone or does to them what it does. -/
theorem perform_stores :
    (node.perform tenantId pid moment command).2.stores = node.stores ∨
      (node.perform tenantId pid moment command).2.stores =
        (node.stores.execute moment command).2 := by
  cases command with
  | time | generateId | setting | track | updatePresence => exact Or.inl rfl
  | startTask | subscribe | unsubscribe | broadcast | broadcastFrom => exact Or.inl rfl
  | natsPublish =>
      simp only [perform]
      split <;> exact Or.inl rfl
  | _ =>
      simp only [perform]
      split
      · exact Or.inr rfl
      · exact Or.inl rfl

theorem perform_answers (rows : RowsFrom native stores supply labels node.stores)
    (contains : supply.Contains moment) :
    AnswersCommand stores supply ⟨command, (node.perform tenantId pid moment command).1⟩ where
  roles tid channelId userId role admin taken := by
    rcases Performed.mk.inj taken with ⟨rfl, answered⟩
    have found := Fate.answer_eq_ok (eq_of_heq answered) fun _ => rfl
    simp only [Stores.execute, Except.ok.injEq, Option.map_eq_some_iff] at found
    rcases found with ⟨row, isRow, rfl⟩
    have wanted := List.find?_some isRow
    simp only [decide_eq_true_eq] at wanted
    rcases wanted with ⟨rfl, rfl, rfl⟩
    rcases rows.members row (List.mem_of_find?_eq_some isRow) with old | ⟨noRole, _⟩
    · exact ⟨row, old, rfl, rfl, rfl, rfl⟩
    · omega
  minted channelId taken := by
    rcases Performed.mk.inj taken with ⟨rfl, answered⟩
    cases eq_of_heq answered
    exact contains.minted
  shown now taken := by
    rcases Performed.mk.inj taken with ⟨rfl, answered⟩
    cases eq_of_heq answered
    exact contains.shown

/-- The stores change by the command that a process performs. -/
theorem stores_workerStep {event : WorkerEvent}
    (steps : node.workerStep native json rate tenantId pid event = some next) :
    next.stores = node.stores ∨ ∃ moment worker following, event = .performed moment ∧
      node.workers tenantId pid = some worker ∧ worker.next = some following ∧
        next.stores = (node.stores.execute moment following.command).2 := by
  cases event with
  | connected | received | answered | delivered =>
      simp only [workerStep] at steps
      split at steps <;> cases steps
      exact Or.inl rfl
  | started =>
      simp only [workerStep] at steps
      split at steps <;> cases steps
      exact Or.inl rfl
  | checked =>
      simp only [workerStep] at steps
      split at steps
      · split at steps <;> cases steps <;> exact Or.inl rfl
      · cases steps
  | ended =>
      cases steps
      exact Or.inl rfl
  | performed moment =>
      rcases Option.map_eq_some_iff.mp steps with ⟨following, isNext, rfl⟩
      rcases Option.bind_eq_some_iff.mp isNext with ⟨worker, running, isNext⟩
      rcases perform_stores with same | same
      · exact Or.inl same
      · exact Or.inr ⟨moment, worker, following, rfl, running, isNext, same⟩

/-- Every process and every row of the node comes from the labels. -/
structure Traced (native : Native) (stores : Stores) (supply : Supply)
    (labels : List NodeLabel) (node : Node) : Prop where
  attributed : node.Attributed native stores supply labels
  rows : RowsFrom native stores supply labels node.stores

theorem Traced.start : (Node.start stores).Traced native stores supply [] where
  attributed _ _ _ present := by cases present
  rows := RowsFrom.start

theorem Traced.step (traced : node.Traced native stores supply labels)
    (contains : ∀ tenantId pid moment, label = .worker tenantId pid (.performed moment) →
      supply.Contains moment)
    (steps : Step native json rate node label next) :
    next.Traced native stores supply (labels ++ [label]) where
  attributed := traced.attributed.step (fun tenantId pid moment isLabel _ =>
    perform_answers traced.rows (contains tenantId pid moment isLabel)) steps
  rows := by
    cases label with
    | worker tenantId pid event =>
        rcases stores_workerStep steps with same | ⟨moment, worker, following, -, running, isNext,
          same⟩
        · exact same ▸ traced.rows.append
        · have written := ((traced.attributed _ _ _ running).next isNext).1
          exact same ▸ (traced.rows.execute written).append
    | consumed tenantHex applied =>
        rcases steps.consumed with ⟨arriving, _, rfl, rfl | ⟨key, rfl⟩⟩
        · exact traced.rows.append
        · exact traced.rows.setRedis.append
    | expired key =>
        cases steps
        exact traced.rows.setRedis.append
    | collected now deleted =>
        simp only [Step, Node.step] at steps
        split at steps <;> cases steps
        apply RowsFrom.append
        apply traced.rows.restrict
        · rfl
        · rfl
        · rfl
        · intro row held
          exact (KeyedTable.mem_filter.mp held).1

theorem traced_run_of_contains
    (run : Run (Step native json rate) (Node.start stores) labels node)
    (contains : ∀ moment, Momentary labels moment → supply.Contains moment) :
    node.Traced native stores supply labels := by
  induction run with
  | refl => exact Traced.start
  | snoc earlier last ih =>
      have before := ih fun moment momentary => contains moment momentary.append
      apply before.step _ last
      rintro tenantId pid moment rfl
      exact contains moment ⟨tenantId, pid, by simp⟩

theorem traced_run (run : Run (Step native json rate) (Node.start stores) labels node) :
    node.Traced native stores (supplyOf labels) labels :=
  traced_run_of_contains run fun _ => contains_supplyOf

end Node

end Mercury.Gateway
