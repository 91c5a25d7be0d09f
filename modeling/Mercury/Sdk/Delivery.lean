import Mercury.Sdk.TransportSteps

/-!
# Broadcasts reach callbacks of their topic

Ids are numbers of one connection, while the tables outlive connections, and
`resolveDeferredBindings` takes any key that starts with the topic's name. A
callback registered by name is invoked for its own topic as long as no id comes
to denote another topic than that of a callback bound under it
(`never_misdelivered`).
-/

namespace Mercury.Sdk

open Foundations Gateway

/-! ## Ids and the callbacks bound under them -/

/-- `topicId` denotes `topic` on an open connection. -/
def System.Denotes (system : System) (topicId : ℕ) (topic : Bytes) : Prop :=
  ∃ connection ∈ system.connections, connection.phase = .opened ∧
    topicAt connection.told topicId = some topic

/-- The callbacks bound by name under an id are for the topic that the id denotes. -/
structure System.Apart (system : System) : Prop where
  bound : ∀ topicId topic, system.Denotes topicId topic →
    ∀ event, ∀ callback ∈ system.transport.topicBindings topicId event,
      callback.byName = true → callback.topic = some topic
  untold : ∀ connection ∈ system.connections, connection.phase = .connecting →
    connection.told = []
  delivered : ∀ delivery ∈ system.deliveries, ∀ callback ∈ delivery.invoked,
    callback.byName = true → callback.topic = some delivery.topic

/-- Whether a step keeps callbacks and ids of different topics apart: an id found by
`onByName` denotes no other topic, and when a join reply arrives, the callbacks bound
under its id and the deferred callbacks that it resolves are for its topic, and no
other open connection uses the id for another topic. -/
def System.KeepsApart (system : System) : Action → Prop
  | .onByName topic _ =>
      ∀ topicId, system.transport.topicNameToId topic = some topicId →
        ∀ other, system.Denotes topicId other → other = topic
  | .deliver socket =>
      ∀ connection, system.connections[socket]? = some connection →
        connection.phase = .opened →
        ∀ ref topicId topic, connection.incoming.head? = some (.joined ref topicId topic) →
          (∀ event, ∀ callback ∈ system.transport.topicBindings topicId event,
            callback.byName = true → callback.topic = some topic) ∧
          (system.transport.pendingReplies ref ≠ none →
            ∀ entry ∈ system.transport.deferredBindings, HasPrefix topic entry.1 →
              ∀ callback ∈ entry.2, callback.byName = true → callback.topic = some topic ∧
                ∀ other, system.Denotes topicId other → other = topic)
  | _ => True

namespace System

variable {system next : System} {throws : Registration → Bytes → Bool}

theorem Continues.denotes (continues : system.Continues next) (apart : system.Apart)
    {topicId : ℕ} {topic : Bytes} (denotes : next.Denotes topicId topic) :
    system.Denotes topicId topic := by
  rcases denotes with ⟨later, laterMem, isOpen, told⟩
  rcases continues.opened apart.untold laterMem isOpen with
    none | ⟨connection, connectionMem, was, same⟩
  · rw [none] at told
    unfold topicAt at told
    split at told <;> simp at told
  · exact ⟨connection, connectionMem, was, same ▸ told⟩

/-- A step that tells no topic and binds only callbacks of what their ids denote. -/
theorem Apart.of_continues (apart : system.Apart) (continues : system.Continues next)
    (deliveries : next.deliveries = system.deliveries)
    (bindings : ∀ topicId event, ∀ callback ∈ next.transport.topicBindings topicId event,
      callback ∈ system.transport.topicBindings topicId event ∨ callback.byName = false ∨
        ∀ topic, system.Denotes topicId topic → callback.topic = some topic) :
    next.Apart where
  bound topicId topic denotes event callback callbackMem byName := by
    have before := continues.denotes apart denotes
    rcases bindings topicId event callback callbackMem with old | unnamed | own
    · exact apart.bound topicId topic before event callback old byName
    · rw [unnamed] at byName
      cases byName
    · exact own topic before
  untold := continues.untold apart.untold
  delivered := by
    rw [deliveries]
    exact apart.delivered

/-! ### Bindings -/

theorem mem_topicBindings_off {transport : Transport Registration} {offId offEvent : ℕ}
    {topicId event : ℕ} {callback : Registration}
    (bound : callback ∈ (transport.off offId offEvent).topicBindings topicId event) :
    callback ∈ transport.topicBindings topicId event := by
  unfold Transport.off at bound
  by_cases sameId : topicId = offId
  · subst topicId
    by_cases sameEvent : event = offEvent
    · subst event
      simp at bound
    · simpa [sameEvent] using bound
  · simpa [sameId] using bound

theorem mem_invocations {data : Bytes} {callbacks : List Registration} {callback : Registration}
    (invoked : callback ∈ invocations throws data callbacks) : callback ∈ callbacks := by
  induction callbacks with
  | nil => exact invoked
  | cons first rest ih =>
      unfold invocations at invoked
      split at invoked
      · rw [List.mem_singleton.mp invoked]
        exact List.mem_cons_self
      · rcases List.mem_cons.mp invoked with rfl | later
        · exact List.mem_cons_self
        · exact List.mem_cons_of_mem _ (ih later)

/-! ### Arriving messages -/

/-- What an id denotes after a message has arrived. -/
theorem denotes_deliver {socket : ℕ} {connection : Connection} {message : ServerMessage}
    (found : system.connections[socket]? = some connection) (isOpen : connection.phase = .opened)
    (first : connection.incoming.head? = some message) {topicId : ℕ} {topic : Bytes}
    (denotes : (system.deliver throws socket message).Denotes topicId topic) :
    system.Denotes topicId topic ∨
      topicId = connection.told.length + 1 ∧ message.tells = [topic] := by
  rcases denotes with ⟨later, laterMem, laterOpen, told⟩
  rcases mem_onConnection laterMem with ⟨other, _, otherAt⟩ | ⟨before, beforeAt, rfl⟩
  · exact Or.inl ⟨later, List.mem_of_getElem? otherAt, laterOpen, told⟩
  · cases beforeAt.symm.trans found
    rw [(Connection.receive_spec first).2.1] at told
    rcases message.tells_cases with quiet | ⟨ref, newId, newTopic, rfl⟩
    · rw [quiet, List.append_nil] at told
      exact Or.inl ⟨connection, List.mem_of_getElem? found, isOpen, told⟩
    · rw [ServerMessage.tells, topicAt_append] at told
      split at told
      · next newest => exact Or.inr ⟨newest, by rw [ServerMessage.tells, Option.some.inj told]⟩
      · exact Or.inl ⟨connection, List.mem_of_getElem? found, isOpen, told⟩

theorem Apart.untold_deliver {socket : ℕ} {connection : Connection} {message : ServerMessage}
    (apart : system.Apart) (found : system.connections[socket]? = some connection)
    (isOpen : connection.phase = .opened)
    (first : connection.incoming.head? = some message) :
    ∀ later ∈ (system.deliver throws socket message).connections, later.phase = .connecting →
      later.told = [] := by
  intro later laterMem connecting
  rcases mem_onConnection laterMem with ⟨other, _, otherAt⟩ | ⟨before, beforeAt, rfl⟩
  · exact apart.untold later (List.mem_of_getElem? otherAt) connecting
  · cases beforeAt.symm.trans found
    rw [(Connection.receive_spec first).2.2, isOpen] at connecting
    cases connecting

/-- A broadcast invokes what is bound under its id. -/
theorem Apart.deliver_broadcast {socket : ℕ} {connection : Connection} {topicId : ℕ}
    {topic : Bytes} {event : Byte} {payload : Bytes} (apart : system.Apart)
    (found : system.connections[socket]? = some connection) (isOpen : connection.phase = .opened)
    (first : connection.incoming.head? = some (.broadcast topicId topic event payload)) :
    (system.deliver throws socket (.broadcast topicId topic event payload)).Apart := by
  have handled := Transport.handleMessage_broadcast topicId event payload system.transport
  refine ⟨?_, apart.untold_deliver found isOpen first, ?_⟩
  · intro otherId other denotes
    have unchanged : (system.deliver throws socket
        (.broadcast topicId topic event payload)).transport = system.transport := by
      simp only [deliver, ServerMessage.encode, handled]
    rw [unchanged]
    rcases denotes_deliver found isOpen first denotes with before | ⟨_, tells⟩
    · exact apart.bound otherId other before
    · simp [ServerMessage.tells] at tells
  · intro delivery deliveryMem callback invoked byName
    rcases List.mem_append.mp deliveryMem with old | new
    · exact apart.delivered delivery old callback invoked byName
    · simp only [System.delivery, ServerMessage.encode, handled, List.mem_singleton] at new
      subst delivery
      rcases (Connection.receive_spec first).1 with ⟨current, idFits⟩
      have bound := mem_invocations invoked
      rw [Nat.mod_eq_of_lt idFits] at bound
      exact apart.bound topicId topic
        ⟨connection, List.mem_of_getElem? found, isOpen, topicAt_of_idOf current⟩
        event.val callback bound byName

/-- The reply to an accepted join keeps ids and callbacks apart where the callbacks under
its id and those it resolves are for its topic. -/
theorem Apart.deliver_joined {socket : ℕ} {connection : Connection} {ref topicId : ℕ}
    {topic : Bytes} (apart : system.Apart)
    (tracked : Tracked True system.transport system.inFlight) (fits : RefsFit system)
    (keeps : system.KeepsApart (.deliver socket))
    (found : system.connections[socket]? = some connection) (isOpen : connection.phase = .opened)
    (first : connection.incoming.head? = some (.joined ref topicId topic)) :
    (system.deliver throws socket (.joined ref topicId topic)).Apart := by
  rcases keeps connection found isOpen ref topicId topic first with ⟨bound, resolved⟩
  rcases (Connection.receive_spec first).1 with ⟨number, _, _⟩
  have joined := @joined_deliver system throws _ _ _ _ _ _ tracked fits found first
  refine ⟨?_, apart.untold_deliver found isOpen first, ?_⟩
  · intro otherId other denotes event callback callbackMem byName
    have told : system.Denotes otherId other ∨ otherId = topicId ∧ other = topic := by
      rcases denotes_deliver found isOpen first denotes with before | ⟨newest, tells⟩
      · exact Or.inl before
      · rw [ServerMessage.tells, List.singleton_inj] at tells
        exact Or.inr ⟨newest.trans number.symm, tells.symm⟩
    have bindings : callback ∈ system.transport.topicBindings otherId event ∨
        otherId = topicId ∧ callback.topic = some topic ∧
          ∀ other, system.Denotes topicId other → other = topic := by
      rcases joined with ⟨waiting, after⟩ | ⟨_, _, unchanged⟩
      · rw [after.bindings, List.mem_append] at callbackMem
        rcases callbackMem with old | new
        · exact Or.inl old
        · split at new
          · next sameId =>
              rcases Transport.mem_resolved.mp new with ⟨entry, entryMem, prefixed, _, mem⟩
              exact Or.inr ⟨sameId, resolved (by simp [waiting]) entry entryMem prefixed
                callback mem byName⟩
          · cases new
      · rw [unchanged] at callbackMem
        exact Or.inl callbackMem
    rcases bindings with old | ⟨rfl, own, apartId⟩
    · rcases told with before | ⟨rfl, rfl⟩
      · exact apart.bound otherId other before event callback old byName
      · exact bound event callback old byName
    · rcases told with before | ⟨_, rfl⟩
      · rw [apartId other before]
        exact own
      · exact own
  · intro delivery deliveryMem
    rcases List.mem_append.mp deliveryMem with old | new
    · exact apart.delivered delivery old
    · simp [System.delivery] at new

/-- A step that keeps ids and callbacks apart. -/
theorem Apart.step {action : Action} (apart : system.Apart)
    (tracked : Tracked True system.transport system.inFlight) (fits : RefsFit system)
    (keeps : system.KeepsApart action) (taken : Step throws system action next) :
    next.Apart := by
  cases effect_of_step tracked fits taken with
  | quiet quiet =>
      apply apart.of_continues quiet.continues quiet.deliveries
      rw [quiet.routes.topicBindings]
      intro _ _ _ old
      exact Or.inl old
  | disconnect continues =>
      refine apart.of_continues continues ?_ ?_
      · unfold System.disconnect
        dsimp only
        split <;> rfl
      · intro topicId event callback callbackMem
        unfold System.disconnect at callbackMem
        dsimp only at callbackMem
        split at callbackMem <;> exact Or.inl callbackMem
  | on topicId event =>
      refine apart.of_continues Continues.refl rfl ?_
      intro otherId otherEvent callback callbackMem
      simp only [System.on, Transport.on_topicBindings, List.mem_append] at callbackMem
      rcases callbackMem with old | new
      · exact Or.inl old
      · split at new
        · rw [List.mem_singleton.mp new]
          exact Or.inr (Or.inl rfl)
        · cases new
  | onByName topic event =>
      refine apart.of_continues Continues.refl rfl ?_
      intro otherId otherEvent callback callbackMem
      rcases known : system.transport.topicNameToId topic with _ | existing
      · simp only [System.onByName, Transport.onByName, known] at callbackMem
        exact Or.inl callbackMem
      · simp only [System.onByName, Transport.onByName, known, Transport.on_topicBindings,
          List.mem_append] at callbackMem
        rcases callbackMem with old | new
        · exact Or.inl old
        · split at new
          · next same =>
              rw [List.mem_singleton.mp new]
              refine Or.inr (Or.inr fun other denotes => ?_)
              rw [keeps existing known other (same.1 ▸ denotes)]
          · cases new
  | off topicId event =>
      exact apart.of_continues Continues.refl rfl fun _ _ _ old =>
        Or.inl (mem_topicBindings_off old)
  | rejoined _ rejoins continues =>
      rcases opened_spec rejoins with ⟨transport, _, deliveries⟩
      apply apart.of_continues continues deliveries
      rw [transport]
      intro _ _ _ old
      exact Or.inl (Transport.mem_topicBindings_rejoin old)
  | joined found isOpen first =>
      exact apart.deliver_joined tracked fits keeps found isOpen first
  | broadcast found isOpen first => exact apart.deliver_broadcast found isOpen first

theorem apart_start : start.Apart where
  bound := by
    rintro topicId topic ⟨connection, connectionMem, _⟩
    simp [start] at connectionMem
  untold := by simp [start]
  delivered := by simp [start]

end System

/-- A broadcast only invokes callbacks registered by name that are for its topic. -/
def System.NoMisdelivery (system : System) : Prop :=
  ∀ delivery ∈ system.deliveries, ∀ callback ∈ delivery.invoked,
    callback.byName = true → callback.topic = some delivery.topic

/-- The steps whose next refs fit and that keep callbacks and ids apart. -/
def System.Admits (system : System) (action : Action) : Prop :=
  system.RefsFit ∧ system.KeepsApart action

/-- In a run that keeps callbacks and ids of different topics apart, no callback is
invoked for another topic than the one it was registered for by name. -/
theorem never_misdelivered {throws : Registration → Bytes → Bool} {actions : List Action}
    {system : System}
    (run : Run (Guarded System.Admits (System.Step throws)) System.start actions system) :
    system.NoMisdelivery := by
  have kept := @Run.invariant _ _ _
    (fun system : System => Tracked True system.transport system.inFlight ∧ system.Apart)
    (fun kept admitted => ⟨System.tracked_step kept.1 (fun _ => trivial) admitted.1.1 admitted.2,
      kept.2.step kept.1 admitted.1.1 admitted.1.2 admitted.2⟩)
    _ _ _ run ⟨System.tracked_start, System.apart_start⟩
  exact kept.2.delivered

/-- A callback registered before the join is invoked for a broadcast of its topic. -/
theorem never_misdelivered_deferred : ∃ system : System,
    system.deliveries = [⟨0, ascii "channel:01", 2, [7],
      [⟨0, some (ascii "channel:01"), true, 2⟩], 1⟩] ∧ system.NoMisdelivery := by
  let topic := ascii "channel:01"
  have run : ∃ system, system.deliveries = [⟨0, topic, 2, [7], [⟨0, some topic, true, 2⟩], 1⟩] ∧
      Run (Guarded System.Admits (System.Step fun _ _ => false)) System.start
        [.connect, .opened 0, .onByName topic 2, .join topic, .answer 0 .accept, .deliver 0,
          .broadcast 0 topic 2 [7], .deliver 0] system := by
    refine ⟨_, ?_, Run.cons ⟨⟨by decide, trivial⟩, rfl⟩ <|
      Run.cons ⟨⟨by decide, trivial⟩, rfl⟩ <| Run.cons ⟨⟨by decide, ?_⟩, rfl⟩ <|
      Run.cons ⟨⟨by decide, trivial⟩, rfl⟩ <| Run.cons ⟨⟨by decide, trivial⟩, rfl⟩ <|
      Run.cons ⟨⟨by decide, ?_⟩, rfl⟩ <| Run.cons ⟨⟨by decide, trivial⟩, rfl⟩ <|
      Run.cons ⟨⟨by decide, ?_⟩, rfl⟩ Run.refl⟩
    · decide
    · intro topicId known
      cases known
    · intro connection found isOpen ref topicId topic first
      cases found
      cases first
      refine ⟨fun event callback bound => (by cases bound), ?_⟩
      intro _ entry entryMem prefixed callback callbackMem byName
      cases List.mem_singleton.mp entryMem
      cases List.mem_singleton.mp callbackMem
      refine ⟨rfl, ?_⟩
      rintro other ⟨connection, connectionMem, _, told⟩
      cases List.mem_singleton.mp connectionMem
      cases told
    · intro connection found isOpen ref topicId topic first
      cases found
      cases first
  rcases run with ⟨system, deliveries, run⟩
  exact ⟨system, deliveries, never_misdelivered run⟩

/-! ## Where the condition fails -/

namespace System

variable {system next : System} {throws : Registration → Bytes → Bool}

/-- Some callback is bound under an id that denotes another topic than its own, so that
the next broadcast of its event there invokes it. -/
def Exposed (system : System) : Prop :=
  ∃ topicId topic, system.Denotes topicId topic ∧
    ∃ event, ∃ callback ∈ system.transport.topicBindings topicId event,
      callback.byName = true ∧ callback.topic ≠ some topic

/-- An arriving message takes away nothing that an id denotes. -/
theorem denotes_of_deliver {socket : ℕ} {connection : Connection} {message : ServerMessage}
    (found : system.connections[socket]? = some connection)
    (first : connection.incoming.head? = some message) {topicId : ℕ} {topic : Bytes}
    (denotes : system.Denotes topicId topic ∨ connection.phase = .opened ∧
      topicId = connection.told.length + 1 ∧ message.tells = [topic]) :
    (system.deliver throws socket message).Denotes topicId topic := by
  have arrived : connection.receive ∈ (system.deliver throws socket message).connections := by
    apply List.mem_of_getElem? (i := socket)
    simp [deliver, onConnection, found]
  rcases Connection.receive_spec first with ⟨_, told, phase⟩
  rcases denotes with ⟨other, otherMem, isOpen, otherTold⟩ | ⟨isOpen, newest, tells⟩
  · rcases List.getElem?_of_mem otherMem with ⟨index, otherAt⟩
    by_cases same : socket = index
    · subst index
      cases otherAt.symm.trans found
      refine ⟨_, arrived, phase.trans isOpen, ?_⟩
      rw [told]
      rcases message.tells_cases with quiet | ⟨ref, newId, newTopic, rfl⟩
      · rwa [quiet, List.append_nil]
      · have known : topicId ≤ connection.told.length := by
          unfold topicAt at otherTold
          split at otherTold
          · cases otherTold
          · have := (List.getElem?_eq_some_iff.mp otherTold).1
            omega
        rw [ServerMessage.tells, topicAt_append, if_neg (by omega), otherTold]
    · refine ⟨other, List.mem_of_getElem? (i := index) ?_, isOpen, otherTold⟩
      simp [deliver, onConnection, same, otherAt]
  · refine ⟨_, arrived, phase.trans isOpen, ?_⟩
    rw [told, tells, topicAt_append, if_pos newest]

/-- A step that does not keep callbacks and ids apart exposes a callback. -/
theorem exposed_of_not_keepsApart {action : Action}
    (tracked : Tracked True system.transport system.inFlight) (fits : RefsFit system)
    (taken : Step throws system action next) (broken : ¬system.KeepsApart action) :
    next.Exposed := by
  cases action with
  | onByName topic event =>
      cases taken
      simp only [KeepsApart, not_forall] at broken
      rcases broken with ⟨existing, known, other, denotes, different⟩
      refine ⟨existing, other, denotes, event,
        ⟨system.registrations.length, some topic, true, event⟩, ?_, rfl, ?_⟩
      · simp [System.onByName, Transport.onByName, known, Transport.on_topicBindings]
      · intro same
        exact different (Option.some.inj same).symm
  | deliver socket =>
      simp only [KeepsApart, not_forall] at broken
      rcases broken with ⟨connection, found, isOpen, ref, topicId, topic, first, broken⟩
      rcases Option.bind_eq_some_iff.mp taken with ⟨_, sameFound, delivered⟩
      cases sameFound.symm.trans found
      rw [if_pos isOpen, first] at delivered
      cases delivered
      have told := @denotes_of_deliver system throws _ _ _ found first topicId topic
        (Or.inr ⟨isOpen, (Connection.receive_spec first).1.1, rfl⟩)
      rcases @joined_deliver system throws _ _ _ _ _ _ tracked fits found first with
        ⟨waiting, after⟩ | ⟨_, forgot, unchanged⟩
      · rcases not_and_or.mp broken with stale | stolen
        · simp only [not_forall] at stale
          rcases stale with ⟨event, callback, bound, byName, other⟩
          refine ⟨topicId, topic, told, event, callback, ?_, byName, other⟩
          rw [after.bindings]
          exact List.mem_append_left _ bound
        · simp only [not_forall] at stolen
          rcases stolen with ⟨_, entry, entryMem, prefixed, callback, mem, byName, broken⟩
          have bound : callback ∈ (system.deliver throws socket
              (.joined ref topicId topic)).transport.topicBindings topicId (keyEvent entry.1) := by
            rw [after.bindings, if_pos rfl]
            exact List.mem_append_right _
              (Transport.mem_resolved.mpr ⟨entry, entryMem, prefixed, rfl, mem⟩)
          rcases not_and_or.mp broken with other | shared
          · exact ⟨topicId, topic, told, _, callback, bound, byName, other⟩
          · simp only [not_forall] at shared
            rcases shared with ⟨other, denotes, different⟩
            by_cases own : callback.topic = some topic
            · refine ⟨topicId, other, denotes_of_deliver found first (Or.inl denotes), _,
                callback, bound, byName, ?_⟩
              rw [own]
              intro same
              exact different (Option.some.inj same).symm
            · exact ⟨topicId, topic, told, _, callback, bound, byName, own⟩
      · rcases not_and_or.mp broken with stale | stolen
        · simp only [not_forall] at stale
          rcases stale with ⟨event, callback, bound, byName, other⟩
          refine ⟨topicId, topic, told, event, callback, ?_, byName, other⟩
          rw [unchanged]
          exact bound
        · exact absurd (fun waiting => absurd forgot waiting) stolen
  | _ => exact absurd trivial broken

end System

/-- After a disconnect the first topic of the next connection gets the id, and with it the
callbacks, of the first topic of the last one. -/
theorem misdelivered_after_disconnect :
    ¬∀ actions system, Run (System.Step fun _ _ => false) System.start actions system →
      system.NoMisdelivery := by
  intro never
  let first := ascii "channel:01"
  let second := ascii "channel:02"
  let script : List Action :=
    [.connect, .opened 0, .join first, .answer 0 .accept, .deliver 0, .onByName first 2,
      .disconnect, .connect, .opened 1, .join second, .answer 1 .accept, .deliver 1,
      .broadcast 1 second 2 [7], .deliver 1]
  have outcome : (Run.play (System.step fun _ _ => false) System.start script).map
      System.deliveries = some [⟨1, second, 2, [7], [⟨0, some first, true, 2⟩], 1⟩] := by decide
  rcases Option.map_eq_some_iff.mp outcome with ⟨system, played, deliveries⟩
  have kept := never script system (Run.of_play played)
    ⟨1, second, 2, [7], [⟨0, some first, true, 2⟩], 1⟩ (by simp [deliveries])
    ⟨0, some first, true, 2⟩ (by simp) rfl
  exact absurd kept (by decide)

end Mercury.Sdk
