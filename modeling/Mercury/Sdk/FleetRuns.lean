import Mercury.Foundations.Run
import Mercury.Sdk.CyclePages

/-!
# What a sync cycle delivers

The cursor of a device is a clock of the server, and messages carry the clock of their sender. As
long as no message is stored late, every message up to a cursor is in the local store, and a
cycle that completes delivers what had been accepted before it started.
-/

namespace Mercury.Sdk

open Gateway Foundations Foundations.Program Persistence

/-! ## The fleet -/

section Invariant

variable {fleet : Fleet} {state target : FleetState} {cycle : SyncCycle}

/-- What holds of a cycle: while it is running it has found what it should, and once it is done
it has delivered what was due. -/
structure CycleHolds (fleet : Fleet) (state : FleetState) (cycle : SyncCycle) : Prop where
  comes : ∃ rounds, (fleet.syncChannel cycle.owner rounds).Comes cycle.past cycle.rest
  due : ∀ msg ∈ cycle.due, msg ∈ fleet.messages state.table
  frame : ∀ frame, cycle.frame = some frame → (∃ topic, frame.Joined fleet topic) ∧
    (nodeHandleIn fleet.native frame.data frame.socket).Comes frame.made frame.rest
  found : cycle.rest.ended = false → CycleFound fleet state cycle
  delivers : ∀ count, cycle.rest = .done count →
    ∀ msg ∈ cycle.due, (state.devices cycle.owner).Holds fleet.name msg

/-- The invariant: a local store holds messages of the channel only, and each of them that is not
later than the cursor. -/
structure FleetHolds (fleet : Fleet) (state : FleetState) : Prop where
  channel : ChannelHolds fleet state.table state.accepted
  gateway : InBuckets state.gateway
  stores : ∀ device, ∀ held ∈ (state.devices device).messages,
    ∃ msg ∈ fleet.messages state.table, localMessage (pulledMessage fleet.name msg) = held
  cursors : ∀ device, (state.devices device).cursor.getD 0 < 256 ^ 8 ∧
    state.Covers fleet device ((state.devices device).cursor.getD 0)
  cycles : ∀ pid cycle, state.cycles pid = some cycle → CycleHolds fleet state cycle

theorem CycleHolds.grows {pid : ℕ} (holds : CycleHolds fleet state cycle)
    (present : state.cycles pid = some cycle)
    (grows : Grows fleet (state.Fresh fleet) state target) :
    CycleHolds fleet target cycle where
  comes := holds.comes
  due msg msgMem := grows.messages _ (holds.due msg msgMem)
  frame := holds.frame
  found running := grows.found (fun _ new => new.cycles pid cycle present running)
    (holds.found running)
  delivers count done msg msgMem := grows.stores _ _ (holds.delivers count done msg msgMem)

/-- A step that only changes what it has to account for. -/
theorem FleetHolds.next (holds : FleetHolds fleet state)
    (grows : Grows fleet (state.Fresh fleet) state target)
    (channel : ChannelHolds fleet target.table target.accepted)
    (gateway : InBuckets target.gateway)
    (stores : ∀ device, ∀ held ∈ (target.devices device).messages,
      held ∈ (state.devices device).messages ∨
        ∃ msg ∈ fleet.messages target.table, localMessage (pulledMessage fleet.name msg) = held)
    (cursors : ∀ device, (target.devices device).cursor = (state.devices device).cursor ∨
      (target.devices device).cursor.getD 0 < 256 ^ 8 ∧
        target.Covers fleet device ((target.devices device).cursor.getD 0))
    (cycles : ∀ pid cycle, target.cycles pid = some cycle →
      state.cycles pid = some cycle ∨ CycleHolds fleet target cycle) :
    FleetHolds fleet target where
  channel := channel
  gateway := gateway
  stores device held heldMem := by
    rcases stores device held heldMem with old | new
    · rcases holds.stores device held old with ⟨msg, msgMem, same⟩
      exact ⟨msg, grows.messages msg msgMem, same⟩
    · exact new
  cursors device := by
    rcases cursors device with same | new
    · rw [same]
      exact ⟨(holds.cursors device).1,
        grows.covers (holds.cursors device).2 fun _ new => new.cursors device⟩
    · exact new
  cycles pid cycle present := by
    rcases cycles pid cycle present with old | new
    · exact (holds.cycles pid cycle old).grows old grows
    · exact new

theorem cycles_setCycle {pid other : ℕ} {current : SyncCycle}
    (present : (state.setCycle pid cycle).cycles other = some current) :
    current = cycle ∨ state.cycles other = some current := by
  by_cases same : other = pid
  · subst other
    simp only [FleetState.setCycle, Function.update_self, Option.some.injEq] at present
    exact Or.inl present.symm
  · simp only [FleetState.setCycle, Function.update_of_ne same] at present
    exact Or.inr present

/-- A step of a cycle that leaves the channel and the devices as they are. -/
theorem FleetHolds.setCycle {pid : ℕ} (holds : FleetHolds fleet state)
    (holdsCycle : CycleHolds fleet state cycle) : FleetHolds fleet (state.setCycle pid cycle) :=
  have grows : ∀ fresh, Grows fleet fresh state (state.setCycle pid cycle) := fun _ =>
    ⟨fun _ msgMem => msgMem, fun _ _ heldMem => heldMem, fun _ msgMem => Or.inl msgMem⟩
  holds.next (grows _) holds.channel holds.gateway
    (fun _ _ heldMem => Or.inl heldMem) (fun _ => Or.inl rfl) fun other current present => by
      rcases cycles_setCycle present with rfl | old
      · exact Or.inr ⟨holdsCycle.comes, holdsCycle.due, holdsCycle.frame,
          fun running => (grows fun _ => False).found nofun (holdsCycle.found running),
          holdsCycle.delivers⟩
      · exact Or.inl old

/-- Between two steps of the gateway on the channel, the gateway may do anything else. -/
theorem FleetHolds.setGateway {gateway : Gateway.System MessageTable}
    (holds : FleetHolds fleet state) (inBuckets : InBuckets gateway)
    (same : gateway.store = state.table) :
    FleetHolds fleet { state with gateway := gateway } := by
  have messages : fleet.messages gateway.store = fleet.messages state.table := by rw [same]
  have channel : ChannelHolds fleet gateway.store state.accepted := same ▸ holds.channel
  have grows : Grows fleet (state.Fresh fleet) state { state with gateway := gateway } := by
    refine ⟨fun msg msgMem => ?_, fun _ _ heldMem => heldMem, fun msg msgMem => Or.inl ?_⟩
    · exact messages.symm ▸ msgMem
    · exact messages ▸ msgMem
  exact holds.next grows channel inBuckets (fun _ _ heldMem => Or.inl heldMem)
    (fun _ => Or.inl rfl) fun _ _ present => Or.inl present

/-! ### Commands to the stores -/

/-- A command to the stores on a timely label. -/
theorem FleetHolds.stored {label : FleetLabel} {taken : Performed node Raise}
    {gateway : Gateway.System MessageTable} (holds : FleetHolds fleet state)
    (timely : fleet.Timely state label) (legible : fleet.Legible label)
    (command : label.command = some taken)
    (answers : AnswersFrom state.table taken gateway.store)
    (within : WritesWithin InBucket taken.call) (inBuckets : InBuckets gateway) :
    FleetHolds fleet
      { state with
        gateway := gateway
        accepted := fleet.acceptedIn label ++ state.accepted } := by
  have accepted : fleet.acceptedIn label = fleet.accepts taken := by
    rw [Fleet.acceptedIn, command]
    rfl
  rw [accepted]
  rcases @ChannelHolds.answered _ _ _ _ _ (state.Fresh fleet) holds.channel answers within
    (fun row answer same owned => (legible row answer (command.trans (congrArg some same))
      owned).2)
    (fun row answer same owned => (timely.inserts row answer
      (command.trans (congrArg some same)) owned).imp_right fun new => ⟨new.id, new⟩) with
    ⟨channel, keeps, comes⟩
  exact holds.next ⟨keeps, fun _ _ heldMem => heldMem, comes⟩ channel inBuckets
    (fun _ _ heldMem => Or.inl heldMem) (fun _ => Or.inl rfl) fun _ _ present => Or.inl present

theorem AnswersFrom.unchanged {table stored : MessageTable} {taken : Performed node Raise}
    (answers : AnswersFrom table taken stored)
    (noInsert : ∀ row, taken.call ≠ .inl (.insertMessage row)) : stored = table := by
  rcases answers.step with _ | _ | _
  · exact absurd rfl (noInsert _)
  · rfl
  · rfl

/-! ### Calls of a cycle -/

/-- The store of a device after a call of a cycle: it has grown by messages of the channel, and
its cursor does not pass a message that it does not hold. -/
structure StoreGrows (fleet : Fleet) (state : FleetState) (device : ℕ) (target : DeviceState) :
    Prop where
  keeps : ∀ held ∈ (state.devices device).messages, held ∈ target.messages
  comes : ∀ held ∈ target.messages, held ∈ (state.devices device).messages ∨
    ∃ msg ∈ fleet.messages state.table, localMessage (pulledMessage fleet.name msg) = held
  cursor : target.cursor = (state.devices device).cursor ∨
    target.cursor.getD 0 < 256 ^ 8 ∧ state.Covers fleet device (target.cursor.getD 0)

theorem StoreGrows.refl {device : ℕ} : StoreGrows fleet state device (state.devices device) :=
  ⟨fun _ heldMem => heldMem, fun _ heldMem => Or.inl heldMem, Or.inl rfl⟩

theorem devices_setDevice {device other : ℕ} {after : DeviceState} :
    ((state.setDevice device after).devices other) =
      if other = device then after else state.devices other := by
  exact Function.update_apply _ _ _ _

theorem StoreGrows.grows {device : ℕ} {after : DeviceState} {fresh : Message → Prop}
    (storeGrows : StoreGrows fleet state device after) :
    Grows fleet fresh state (state.setDevice device after) where
  messages _ msgMem := msgMem
  stores other held heldMem := by
    rw [devices_setDevice]
    split
    · next same => exact storeGrows.keeps held (same ▸ heldMem)
    · exact heldMem
  comes _ msgMem := Or.inl msgMem

theorem FleetHolds.setDevice {device : ℕ} {after : DeviceState} (holds : FleetHolds fleet state)
    (storeGrows : StoreGrows fleet state device after) :
    FleetHolds fleet (state.setDevice device after) := by
  apply holds.next storeGrows.grows holds.channel holds.gateway _ _
    (fun _ _ present => Or.inl present)
  · intro other held heldMem
    rw [devices_setDevice] at heldMem
    split at heldMem
    · next same =>
        rw [same]
        exact storeGrows.comes held heldMem
    · exact Or.inl heldMem
  · intro other
    by_cases same : other = device
    · subst other
      rw [devices_setDevice, if_pos rfl]
      have grows : Grows fleet (fun _ => False) state (state.setDevice device after) :=
        storeGrows.grows
      exact storeGrows.cursor.imp_right fun moved => ⟨moved.1, grows.covers moved.2 nofun⟩
    · rw [devices_setDevice, if_neg same]
      exact Or.inl rfl

/-- What a cycle writes is a message of the channel. -/
theorem CycleFound.pulledIn {stored : StoredMessage} (found : CycleFound fleet state cycle)
    (pulled : PulledIn fleet.codec fleet.name cycle.past stored) :
    ∃ msg ∈ fleet.messages state.table, stored = pulledMessage fleet.name msg := by
  rcases pulled with ⟨topic, since, data, result, delta, pushMem, readEq, deltaMem, rfl⟩
  rcases found.pulled topic since data pushMem with ⟨page, wall, pageEq, isPage⟩
  rw [readEq] at pageEq
  cases pageEq
  rcases List.mem_map.mp deltaMem with ⟨msg, msgMem, rfl⟩
  exact ⟨msg, isPage.held msg msgMem, rfl⟩

/-- The keys of the local store tell the messages of the channel apart. -/
theorem eq_of_keyPath_eq {left right : Message}
    (same : LocalStore.keyPath (localMessage (pulledMessage fleet.name left)) =
      LocalStore.keyPath (localMessage (pulledMessage fleet.name right))) :
    left.messageId = right.messageId :=
  bytesToHex_injective (congrArg (fun key => (ofLex key).2) same)

/-- A call of a cycle that the device carries out. -/
theorem storeGrows_after {asked : Device.Call} {rounds : ℕ} (holds : FleetHolds fleet state)
    (found : CycleFound fleet state cycle)
    (asks : (fleet.syncChannel cycle.owner rounds).Asks cycle.past asked)
    (evicts : ∀ channelId, asked = .evictOldMessages channelId →
      LocalStore.count (state.devices cycle.owner).messages (ascii channelId) ≤
        LocalStore.maxMessagesPerChannel) :
    StoreGrows fleet state cycle.owner ((state.devices cycle.owner).after asked) := by
  unfold DeviceState.after
  split
  · exact ⟨fun _ heldMem => heldMem, fun _ heldMem => Or.inl heldMem,
      Or.inr (found.covers_wall asks)⟩
  · rcases found.pulledIn (asks_writeMessage asks) with ⟨msg, msgMem, rfl⟩
    refine ⟨fun held heldMem => ?_, fun held heldMem => ?_, Or.inl rfl⟩
    · -- what it replaces is the same message
      rcases holds.stores cycle.owner held heldMem with ⟨other, otherMem, rfl⟩
      by_cases same : other.messageId = msg.messageId
      · rw [holds.channel.distinct other otherMem msg msgMem same]
        exact LocalStore.mem_writeMessage.mpr (Or.inr rfl)
      · exact LocalStore.mem_writeMessage.mpr
          (Or.inl ⟨heldMem, fun sameKey => same (eq_of_keyPath_eq sameKey)⟩)
    · rcases LocalStore.mem_writeMessage.mp heldMem with ⟨old, -⟩ | rfl
      · exact Or.inl old
      · exact Or.inr ⟨msg, msgMem, rfl⟩
  · rw [LocalStore.evictOldMessages, if_pos (evicts _ rfl)]
    exact StoreGrows.refl
  · exact StoreGrows.refl

/-- A cycle about whose calls enough is known. -/
theorem CycleHolds.of_found (comes : ∃ rounds, (fleet.syncChannel cycle.owner rounds).Comes
      cycle.past cycle.rest)
    (due : ∀ msg ∈ cycle.due, msg ∈ fleet.messages state.table)
    (frame : ∀ frame, cycle.frame = some frame → (∃ topic, frame.Joined fleet topic) ∧
      (nodeHandleIn fleet.native frame.data frame.socket).Comes frame.made frame.rest)
    (found : CycleFound fleet state cycle) : CycleHolds fleet state cycle := by
  refine ⟨comes, due, frame, fun _ => found, fun count done => ?_⟩
  rcases comes with ⟨rounds, comes⟩
  rw [done] at comes
  exact found.delivers comes.performs_done due

/-- A cycle that has gone on after a call. -/
theorem CycleHolds.after {asked : Device.Call} {answer : Except Thrown (Device.Answer asked)}
    {next : Except Thrown (Device.Answer asked) → Script SyncCount}
    (holds : CycleHolds fleet state cycle) (waits : cycle.rest = .call asked next)
    (found : CycleFound fleet state (cycle.after ⟨asked, answer⟩ (next answer))) :
    CycleHolds fleet state (cycle.after ⟨asked, answer⟩ (next answer)) := by
  rcases holds.comes with ⟨rounds, comes⟩
  rw [waits] at comes
  exact CycleHolds.of_found ⟨rounds, comes.snoc⟩ holds.due nofun found

theorem CycleHolds.running {asked : Device.Call}
    {next : Except Thrown (Device.Answer asked) → Script SyncCount}
    (holds : CycleHolds fleet state cycle) (waits : cycle.rest = .call asked next) :
    CycleFound fleet state cycle :=
  holds.found (by rw [waits]; rfl)

/-! ### Steps -/

theorem FleetHolds.began {pid device rounds : ℕ} (holds : FleetHolds fleet state) :
    FleetHolds fleet (state.setCycle pid
      ⟨device, state.accepted, 0, [], fleet.syncChannel device rounds, none⟩) := by
  apply holds.setCycle
  apply CycleHolds.of_found ⟨rounds, Comes.start _⟩ holds.channel.accepted
  · rintro frame ⟨⟩
  · exact ⟨by simp, by simp, by simp, by simp⟩

theorem FleetHolds.performed {pid : ℕ} {asked : Device.Call}
    {answer : Except Thrown (Device.Answer asked)}
    {next : Except Thrown (Device.Answer asked) → Script SyncCount} {after : DeviceState}
    (holds : FleetHolds fleet state) (present : state.cycles pid = some cycle)
    (waits : cycle.rest = .call asked next)
    (carries : (state.devices cycle.owner).Carries ⟨asked, answer⟩ after)
    (evicts : ∀ channelId, asked = .evictOldMessages channelId →
      LocalStore.count (state.devices cycle.owner).messages (ascii channelId) ≤
        LocalStore.maxMessagesPerChannel) :
    FleetHolds fleet ((state.setDevice cycle.owner after).setCycle pid
      (cycle.after ⟨asked, answer⟩ (next answer))) := by
  have holdsCycle := holds.cycles pid cycle present
  have storeGrows : StoreGrows fleet state cycle.owner after := by
    rcases carries.effect with rfl | ⟨rfl, -⟩
    · rcases holdsCycle.comes with ⟨rounds, comes⟩
      rw [waits] at comes
      exact storeGrows_after holds (holdsCycle.running waits) ⟨next, comes⟩ evicts
    · exact StoreGrows.refl
  have carried := holds.setDevice storeGrows
  have holdsAfter := carried.cycles pid cycle present
  apply carried.setCycle
  apply holdsAfter.after waits
  apply (holdsAfter.running waits).after
  · intro channelId cursor same
    have cursorEq := carries.reads channelId cursor same
    have grows : Grows fleet (fun _ => False) state (state.setDevice cycle.owner after) :=
      storeGrows.grows
    rw [cursorEq]
    exact (holds.cursors cycle.owner).imp_right fun covers => grows.covers covers nofun
  · rintro topic since data ⟨⟩
    exact absurd rfl (carries.own _ _ _)
  · rintro stored ⟨⟩
    rcases carries.effect with rfl | ⟨-, thrown, failed⟩
    · rw [devices_setDevice, if_pos rfl]
      exact LocalStore.mem_writeMessage.mpr (Or.inr rfl)
    · cases failed

theorem FleetHolds.asked {pid : ℕ} {topic payload : Bytes} {event : Byte}
    {next : Except Thrown Bytes → Script SyncCount} {frame : PushedFrame}
    (holds : FleetHolds fleet state) (present : state.cycles pid = some cycle)
    (waits : cycle.rest = .call (.push topic event payload) next)
    (joined : frame.Joined fleet topic)
    (starts : frame.made = [] ∧ frame.rest = nodeHandleIn fleet.native frame.data frame.socket) :
    FleetHolds fleet (state.setCycle pid { cycle with frame := some frame }) := by
  have holdsCycle := holds.cycles pid cycle present
  have found := holdsCycle.running waits
  have asking : CycleFound fleet state { cycle with frame := some frame } := by
    refine ⟨found.cursor, ?_, found.writes, ?_⟩
    · intro topic since data pushed
      rcases found.pulled topic since data pushed with ⟨page, wall, readEq, isPage⟩
      exact ⟨page, wall, readEq, isPage.later rfl le_rfl⟩
    · rintro other ⟨⟩ isRequest
      refine ⟨?_, ?_, ?_, ⟨[], Nat.zero_le _, ?_⟩, ?_⟩ <;> simp [starts.1, Fleet.readIn]
  apply holds.setCycle
  refine CycleHolds.of_found holdsCycle.comes holdsCycle.due ?_ asking
  rintro other ⟨⟩
  refine ⟨⟨topic, joined⟩, ?_⟩
  rw [starts.1, starts.2]
  exact Comes.start _

theorem FleetHolds.rejected {pid : ℕ} {topic payload : Bytes} {event : Byte}
    {next : Except Thrown Bytes → Script SyncCount} {thrown : Thrown}
    (holds : FleetHolds fleet state) (present : state.cycles pid = some cycle)
    (waits : cycle.rest = .call (.push topic event payload) next) :
    FleetHolds fleet (state.setCycle pid
      (cycle.after ⟨.push topic event payload, .error thrown⟩ (next (.error thrown)))) := by
  have holdsCycle := holds.cycles pid cycle present
  apply holds.setCycle
  apply holdsCycle.after waits
  apply (holdsCycle.running waits).after
  · rintro channelId cursor ⟨⟩
  · rintro other since data ⟨⟩
  · rintro stored ⟨⟩

theorem FleetHolds.lost {pid socketPid : ℕ} {topic payload : Bytes} {event : Byte}
    {next : Except Thrown Bytes → Script SyncCount} {thrown : Thrown} {frame : PushedFrame}
    (holds : FleetHolds fleet state) (present : state.cycles pid = some cycle)
    (waits : cycle.rest = .call (.push topic event payload) next)
    (handling : cycle.frame = some frame) :
    FleetHolds fleet
      { state.setCycle pid
          (cycle.after ⟨.push topic event payload, .error thrown⟩ (next (.error thrown))) with
        gateway := state.gateway.set socketPid
          (some (.handling frame.socket frame.data frame.rest)) } := by
  have comes := ((holds.cycles pid cycle present).frame frame handling).2
  apply (holds.rejected present waits).setGateway
  · apply holds.gateway.set
    rintro process ⟨⟩
    exact comes.ensures nodeHandleIn_keepsBuckets
  · rfl

theorem FleetHolds.answered {pid : ℕ} {topic data : Bytes} {frame : PushedFrame}
    {next : Except Thrown Bytes → Script SyncCount} {reaction : Reaction}
    (holds : FleetHolds fleet state) (present : state.cycles pid = some cycle)
    (waits : cycle.rest = .call (.push topic frame.event frame.payload) next)
    (handling : cycle.frame = some frame) (handled : frame.rest = .done reaction)
    (pushed : reaction.pushed = [replyFrame frame.ref frame.topicId statusOk data]) :
    FleetHolds fleet (state.setCycle pid
      (cycle.after ⟨.push topic frame.event frame.payload, .ok data⟩ (next (.ok data)))) := by
  have holdsCycle := holds.cycles pid cycle present
  have found := holdsCycle.running waits
  rcases holdsCycle.frame frame handling with ⟨⟨joinedTopic, joined⟩, comes⟩
  rw [handled] at comes
  apply holds.setCycle
  apply holdsCycle.after waits
  apply found.after
  · rintro channelId cursor ⟨⟩
  · intro other since replied same
    have isRequest : frame.event = Event.syncRequest ∧
        frame.payload = Channel.syncPayload since 100 ∧ data = replied := by
      injection same with asked answer
      injection asked with topicEq eventEq payloadEq
      exact ⟨eventEq, payloadEq, by subst_vars; simpa using answer⟩
    rcases isRequest with ⟨isRequest, payload, rfl⟩
    exact (found.request frame handling isRequest).pulled joined holds.channel.legible isRequest
      payload comes.performs_done pushed
  · rintro stored ⟨⟩

theorem FleetHolds.stepGateway {label : SystemLabel} {gateway : Gateway.System MessageTable}
    (holds : FleetHolds fleet state) (timely : fleet.Timely state (.gateway label))
    (legible : fleet.Legible (.gateway label))
    (step : SystemStep fleet.native AnswersFrom state.gateway label gateway) :
    FleetHolds fleet
      { state with
        gateway := gateway
        accepted := fleet.acceptedIn (.gateway label) ++ state.accepted } := by
  rcases holds.gateway.step step with ⟨inBuckets, ⟨silent, same⟩ | ⟨pid, process, taken, rfl,
    answers, within⟩⟩
  · have none : fleet.acceptedIn (.gateway label) = [] := by
      cases label with
      | performed pid process taken => exact absurd rfl (silent pid process taken)
      | _ => rfl
    rw [none]
    exact holds.setGateway inBuckets same
  · exact holds.stored timely legible rfl answers within inBuckets

/-- A command for a sync request, on a timely label. -/
theorem RequestFound.stepHandled {pid : ℕ} {frame : PushedFrame} {asked : node.Call}
    {answer : Except Raise (node.Answer asked)} {rest : Program node Raise Reaction}
    (timely : fleet.Timely state (.handled pid ⟨asked, answer⟩))
    (present : state.cycles pid = some cycle) (handling : cycle.frame = some frame)
    (isRequest : frame.event = Event.syncRequest)
    (answers : AnswersFrom state.table ⟨asked, answer⟩ target.table)
    (bucketed : Bucketed target.table fleet.tenantId.val fleet.channelId)
    (held : ∀ msg ∈ cycle.due, msg ∈ fleet.messages target.table)
    (found : RequestFound fleet target cycle frame) :
    RequestFound fleet target (cycle.handle frame ⟨asked, answer⟩ rest)
      { frame with made := frame.made ++ [⟨asked, answer⟩], rest := rest } := by
  have requests : ∀ taken, (⟨asked, answer⟩ : Performed node Raise) = taken →
      state.Requests cycle frame taken (.handled pid ⟨asked, answer⟩) :=
    fun taken same => ⟨pid, congrArg _ same, present, handling, isRequest⟩
  have unchanged : ∀ taken, (⟨asked, answer⟩ : Performed node Raise) = taken →
      (∀ row, taken.call ≠ .inl (.insertMessage row)) → target.table = state.table := by
    rintro taken rfl noInsert
    exact answers.unchanged noInsert
  apply found.handle isRequest bucketed _ _ _ held _
  · intro now same
    exact timely.starts cycle frame now (requests _ same)
  · intro bucketId limit rows same
    rw [unchanged _ same nofun]
    exact answers.selects _ _ _ _ _ same
  · intro bucketId limit reply same
    rw [unchanged _ same nofun]
    exact timely.reads cycle frame bucketId limit reply (requests _ same)
  · intro now reads
    refine ⟨fits_of_exact (answers.clock now reads), ?_⟩
    have same : target.table = state.table := by
      rcases reads with same | same
      · exact unchanged _ same nofun
      · exact unchanged _ same nofun
    rw [same]
    exact timely.merges cycle frame _ now (requests _ rfl) reads

theorem FleetHolds.handled {pid : ℕ} {frame : PushedFrame} {asked : node.Call}
    {answer : Except Raise (node.Answer asked)}
    {next : Except Raise (node.Answer asked) → Program node Raise Reaction}
    {stored : MessageTable} (holds : FleetHolds fleet state)
    (timely : fleet.Timely state (.handled pid ⟨asked, answer⟩))
    (legible : fleet.Legible (.handled pid ⟨asked, answer⟩))
    (present : state.cycles pid = some cycle) (handling : cycle.frame = some frame)
    (handles : frame.rest = .call asked next)
    (answers : AnswersFrom state.table ⟨asked, answer⟩ stored) :
    FleetHolds fleet
      { state.setCycle pid (cycle.handle frame ⟨asked, answer⟩ (next answer)) with
        gateway := { state.gateway with
          pending := startedTasks ⟨asked, answer⟩ ++ state.gateway.pending
          store := stored }
        accepted := fleet.acceptedIn (.handled pid ⟨asked, answer⟩) ++ state.accepted } := by
  have comes := ((holds.cycles pid cycle present).frame frame handling).2
  rw [handles] at comes
  have within : WritesWithin InBucket asked := (comes.ensures nodeHandleIn_keepsBuckets).1
  have after := @FleetHolds.stored _ _ _ _ { state.gateway with
    pending := startedTasks ⟨asked, answer⟩ ++ state.gateway.pending
    store := stored } holds timely legible rfl answers within
      ⟨holds.gateway.workers, holds.gateway.tasks within⟩
  have holdsCycle := after.cycles pid cycle present
  apply after.setCycle
  refine ⟨holdsCycle.comes, holdsCycle.due, ?_, fun running => ?_, holdsCycle.delivers⟩
  · rintro other ⟨⟩
    rcases (holdsCycle.frame frame handling).1 with ⟨topic, joined⟩
    exact ⟨⟨topic, joined.tenant, joined.refFits, joined.topicFits, joined.entry⟩, comes.snoc⟩
  · have found := holdsCycle.found running
    have reachedLe : cycle.reached ≤
        (cycle.handle frame ⟨asked, answer⟩ (next answer)).reached := by
      unfold SyncCycle.handle
      split
      · exact le_max_left _ _
      · exact le_rfl
    refine ⟨fun channelId cursor read => ?_, fun topic since data pushed => ?_, found.writes, ?_⟩
    · rcases found.cursor channelId cursor read with ⟨fits, reached, covers⟩
      exact ⟨fits, reached.trans reachedLe, covers⟩
    · rcases found.pulled topic since data pushed with ⟨page, wall, readEq, isPage⟩
      exact ⟨page, wall, readEq, isPage.later rfl reachedLe⟩
    · rintro other ⟨⟩ isRequest
      exact RequestFound.stepHandled timely present handling isRequest answers
        after.channel.bucketed holdsCycle.due (found.request frame handling isRequest)

/-- Every timely step keeps the invariant. -/
theorem FleetHolds.step {label : FleetLabel} (holds : FleetHolds fleet state)
    (timely : fleet.Timely state label) (legible : fleet.Legible label)
    (taken : FleetStep fleet state label target) : FleetHolds fleet target := by
  cases taken with
  | gateway step => exact holds.stepGateway timely legible step
  | began => exact holds.began
  | @performed pid cycle asked answer next after present waits carries =>
      exact holds.performed present waits carries fun channelId same =>
        timely.evicts pid cycle channelId (same ▸ answer) (by subst same; rfl) present
  | asked present waits silent joined => exact holds.asked present waits joined ⟨rfl, rfl⟩
  | handled present waits handles answers =>
      exact holds.handled timely legible present waits handles answers
  | answered present waits handling handled pushed =>
      exact holds.answered present waits handling handled pushed
  | unsent present waits => exact holds.rejected present waits
  | lost present waits handling => exact holds.lost present waits handling

end Invariant

end Mercury.Sdk
