import Mathlib.Tactic.IntervalCases
import Mercury.Sdk.TransportSteps

/-!
# Callbacks across a reconnect

A callback waits in `deferredBindings` while its topic has no id, and is bound under
the id once there is one. The reconnect deletes what is bound under the old ids, and
nothing puts it back, so callbacks come through a reconnect only while their topic
has no id (`invoked_once`).
-/

namespace Mercury.Sdk

open Foundations Gateway

/-! ## Counting callbacks -/

section Counting

variable {Key Item : Type} [DecidableEq Item] {entries : List (Key × List Item)} {item : Item}

theorem count_flatMap_filter_of_kept {keep : Key × List Item → Bool}
    (kept : ∀ entry ∈ entries, item ∈ entry.2 → keep entry = true) :
    ((entries.filter keep).flatMap Prod.snd).count item =
      (entries.flatMap Prod.snd).count item := by
  induction entries with
  | nil => rfl
  | cons entry rest ih =>
      have later := ih fun other otherMem => kept other (List.mem_cons_of_mem _ otherMem)
      rw [List.filter_cons]
      split
      · rw [List.flatMap_cons, List.flatMap_cons, List.count_append, List.count_append, later]
      · next dropped =>
          have absent : item ∉ entry.2 := fun mem => dropped (kept entry List.mem_cons_self mem)
          rw [later, List.flatMap_cons, List.count_append, List.count_eq_zero_of_not_mem absent,
            Nat.zero_add]

theorem count_flatMap_filter_of_dropped {keep : Key × List Item → Bool}
    (dropped : ∀ entry ∈ entries, item ∈ entry.2 → keep entry = false) :
    ((entries.filter keep).flatMap Prod.snd).count item = 0 := by
  rw [List.count_eq_zero]
  intro mem
  rcases List.mem_flatMap.mp mem with ⟨entry, entryMem, itemMem⟩
  rcases List.mem_filter.mp entryMem with ⟨known, kept⟩
  rw [dropped entry known itemMem] at kept
  cases kept

end Counting

theorem count_pushDeferred (key : Bytes) (callback other : Registration)
    (entries : List (Bytes × List Registration)) :
    ((Transport.pushDeferred key callback entries).flatMap Prod.snd).count other =
      (entries.flatMap Prod.snd).count other + if other = callback then 1 else 0 := by
  have single : List.count other [callback] = if other = callback then 1 else 0 := by
    by_cases same : other = callback
    · subst other
      simp
    · simp [same, Ne.symm same]
  induction entries with
  | nil => simpa [Transport.pushDeferred] using single
  | cons entry rest ih =>
      unfold Transport.pushDeferred
      split
      · simp only [List.flatMap_cons, List.count_append, single]
        omega
      · simp only [List.flatMap_cons, List.count_append, ih]
        omega

/-- An entry after a callback is deferred holds what an entry of its key held, and the callback. -/
theorem mem_pushDeferred {key : Bytes} {callback other : Registration}
    {entries : List (Bytes × List Registration)} {entry : Bytes × List Registration}
    (entryMem : entry ∈ Transport.pushDeferred key callback entries) (mem : other ∈ entry.2) :
    (∃ old ∈ entries, old.1 = entry.1 ∧ other ∈ old.2) ∨ other = callback ∧ entry.1 = key := by
  induction entries with
  | nil =>
      cases List.mem_singleton.mp entryMem
      exact Or.inr ⟨List.mem_singleton.mp mem, rfl⟩
  | cons first rest ih =>
      unfold Transport.pushDeferred at entryMem
      split at entryMem
      · next same =>
          rcases List.mem_cons.mp entryMem with rfl | later
          · rcases List.mem_append.mp mem with old | new
            · exact Or.inl ⟨first, List.mem_cons_self, rfl, old⟩
            · exact Or.inr ⟨List.mem_singleton.mp new, same⟩
          · exact Or.inl ⟨entry, List.mem_cons_of_mem _ later, rfl, mem⟩
      · rcases List.mem_cons.mp entryMem with rfl | later
        · exact Or.inl ⟨_, List.mem_cons_self, rfl, mem⟩
        · rcases ih later with ⟨old, oldMem, same⟩ | new
          · exact Or.inl ⟨old, List.mem_cons_of_mem _ oldMem, same⟩
          · exact Or.inr new

/-- A loop in which only the last callback may throw invokes all of them. -/
theorem invocations_eq {throws : Registration → Bytes → Bool} {data : Bytes}
    {callbacks : List Registration}
    (returns : ∀ callback ∈ callbacks.dropLast, throws callback data = false) :
    invocations throws data callbacks = callbacks := by
  induction callbacks with
  | nil => rfl
  | cons first rest ih =>
      cases rest with
      | nil => simp [invocations]
      | cons second rest =>
          rw [List.dropLast_cons_cons] at returns
          rw [invocations, if_neg (by simp [returns first List.mem_cons_self]),
            ih fun callback callbackMem => returns callback (List.mem_cons_of_mem _ callbackMem)]

/-! ## Where a callback is kept -/

/-- `callback` is kept once, at the place where the next broadcast or join finds it. -/
structure Placed (transport : Transport Registration) (callback : Registration) (topic : Bytes) :
    Prop where
  bound : ∀ topicId event, (transport.topicBindings topicId event).count callback =
    if transport.topicNameToId topic = some topicId ∧ event = callback.event then 1 else 0
  waiting : (transport.deferredBindings.flatMap Prod.snd).count callback =
    if transport.topicNameToId topic = none then 1 else 0

/-- Deferred callbacks stand under the key of their topic and event. -/
def Keyed (transport : Transport Registration) : Prop :=
  ∀ entry ∈ transport.deferredBindings, ∀ callback ∈ entry.2,
    ∃ topic, callback.topic = some topic ∧ entry.1 = bindingKey topic callback.event

/-- What the reconnect deletes may not be registered for a topic. -/
def Forgettable (transport : Transport Registration) (topic : Bytes) : Prop :=
  ∀ topicId, transport.topicNameToId topic = some topicId →
    ∀ event, ∀ callback ∈ transport.topicBindings topicId event, callback.topic = none

namespace Placed

variable {transport next : Transport Registration} {callback : Registration} {topic : Bytes}

theorem of_routes (placed : Placed transport callback topic)
    (routes : Transport.SameRoutes transport next) : Placed next callback topic where
  bound := by
    rw [routes.topicBindings, routes.topicNameToId]
    exact placed.bound
  waiting := by
    rw [routes.deferredBindings, routes.topicNameToId]
    exact placed.waiting

theorem mem_bound (placed : Placed transport callback topic) {topicId : ℕ}
    (mapped : transport.topicNameToId topic = some topicId) :
    callback ∈ transport.topicBindings topicId callback.event := by
  rw [← List.one_le_count_iff, placed.bound, if_pos ⟨mapped, rfl⟩]

/-- Forgetting a topic whose id holds no callback for a topic keeps the others in place. -/
theorem forget (placed : Placed transport callback topic) (own : callback.topic = some topic)
    {forgotten : Bytes} (empty : Forgettable transport forgotten) :
    Placed (transport.forget forgotten) callback topic := by
  rcases known : transport.topicNameToId forgotten with _ | oldId
  · apply placed.of_routes
    unfold Transport.forget
    simp only [known]
    constructor <;> rfl
  · have absent : ∀ event, callback ∉ transport.topicBindings oldId event := by
      intro event mem
      have none := empty oldId known event callback mem
      rw [own] at none
      cases none
    have different : topic ≠ forgotten := by
      rintro rfl
      exact absent _ (placed.mem_bound known)
    have elsewhere : transport.topicNameToId topic ≠ some oldId :=
      fun mapped => absent _ (placed.mem_bound mapped)
    constructor
    · intro topicId event
      unfold Transport.forget
      simp only [known, Function.update_of_ne different]
      by_cases same : topicId = oldId
      · subst topicId
        simp [elsewhere]
      · rw [Function.update_of_ne same]
        exact placed.bound topicId event
    · unfold Transport.forget
      simp only [known, Function.update_of_ne different]
      exact placed.waiting

/-- Joining changes no route. -/
theorem join (placed : Placed transport callback topic) (joined : Bytes) :
    Placed (transport.join joined).1 callback topic :=
  placed.of_routes (by constructor <;> rfl)

theorem forgettable_forget {forgotten : Bytes} (empty : Forgettable transport topic) :
    Forgettable (transport.forget forgotten) topic := by
  intro topicId mapped event bound boundMem
  rcases known : transport.topicNameToId forgotten with _ | oldId
  · unfold Transport.forget at mapped boundMem
    simp only [known] at mapped boundMem
    exact empty topicId mapped event bound boundMem
  · unfold Transport.forget at mapped boundMem
    simp only [known] at mapped boundMem
    by_cases same : topic = forgotten
    · subst topic
      simp at mapped
    · rw [Function.update_of_ne same] at mapped
      by_cases sameId : topicId = oldId
      · subst topicId
        simp at boundMem
      · rw [Function.update_of_ne sameId] at boundMem
        exact empty topicId mapped event bound boundMem

theorem rejoin {topics : List Bytes} (placed : Placed transport callback topic)
    (own : callback.topic = some topic) (empty : ∀ other ∈ topics, Forgettable transport other) :
    Placed (transport.rejoin topics).1 callback topic := by
  induction topics generalizing transport with
  | nil => exact placed
  | cons first rest ih =>
      have forgot := placed.forget own (empty first List.mem_cons_self)
      apply ih (forgot.join first)
      intro other otherMem
      exact forgettable_forget (empty other (List.mem_cons_of_mem _ otherMem))

/-- Another callback registered under an id leaves `callback` where it is. -/
theorem on_other (placed : Placed transport callback topic) {other : Registration}
    (different : callback ≠ other) (topicId event : ℕ) :
    Placed (transport.on topicId event other) callback topic where
  bound otherId otherEvent := by
    rw [Transport.on_topicBindings, List.count_append, placed.bound]
    have none : List.count callback (if otherId = topicId ∧ otherEvent = event then [other]
        else []) = 0 := by
      split
      · simp [Ne.symm different]
      · rfl
    rw [none]
    rfl
  waiting := placed.waiting

theorem onByName_other (placed : Placed transport callback topic) {other : Registration}
    (different : callback ≠ other) (name : Bytes) (event : ℕ) :
    Placed (transport.onByName name event other) callback topic := by
  rcases known : transport.topicNameToId name with _ | existing
  · simp only [Transport.onByName, known]
    refine ⟨placed.bound, ?_⟩
    dsimp only
    rw [count_pushDeferred, if_neg different, placed.waiting]
    rfl
  · simp only [Transport.onByName, known]
    exact placed.on_other different existing event

/-- What was nowhere is bound once by `on`. -/
theorem on_new (unknown : ∀ topicId event, callback ∉ transport.topicBindings topicId event)
    (undeferred : callback ∉ transport.deferredBindings.flatMap Prod.snd) {topicId : ℕ}
    (mapped : transport.topicNameToId topic = some topicId) :
    Placed (transport.on topicId callback.event callback) callback topic where
  bound otherId event := by
    have same : (transport.on topicId callback.event callback).topicNameToId topic =
        some topicId := mapped
    rw [Transport.on_topicBindings, List.count_append,
      List.count_eq_zero_of_not_mem (unknown otherId event), Nat.zero_add, same]
    by_cases here : otherId = topicId ∧ event = callback.event
    · rw [if_pos here, if_pos ⟨congrArg some here.1.symm, here.2⟩]
      simp
    · rw [if_neg here, if_neg fun other => here ⟨(Option.some.inj other.1).symm, other.2⟩]
      rfl
  waiting := by
    have same : (transport.on topicId callback.event callback).topicNameToId topic ≠ none := by
      simp [Transport.on, mapped]
    rw [if_neg same]
    exact List.count_eq_zero_of_not_mem undeferred

theorem onByName_new (unknown : ∀ topicId event, callback ∉ transport.topicBindings topicId event)
    (undeferred : callback ∉ transport.deferredBindings.flatMap Prod.snd) :
    Placed (transport.onByName topic callback.event callback) callback topic := by
  rcases known : transport.topicNameToId topic with _ | existing
  · simp only [Transport.onByName, known]
    constructor
    · intro topicId event
      dsimp only
      rw [List.count_eq_zero_of_not_mem (unknown topicId event), known]
      simp
    · dsimp only
      rw [count_pushDeferred, List.count_eq_zero_of_not_mem undeferred, known]
      simp
  · simp only [Transport.onByName, known]
    exact on_new unknown undeferred known

/-- The callbacks that a join reply resolves for an event: those that wait for the topic. -/
theorem count_resolved (own : callback.topic = some topic) (keyed : Keyed transport)
    (event : ℕ) :
    (Transport.resolved topic event transport.deferredBindings).count callback =
      if event = callback.event then
        (transport.deferredBindings.flatMap Prod.snd).count callback
      else 0 := by
  have key : ∀ entry ∈ transport.deferredBindings, callback ∈ entry.2 →
      entry.1 = bindingKey topic callback.event := by
    intro entry entryMem mem
    rcases keyed entry entryMem callback mem with ⟨other, otherEq, keyEq⟩
    cases otherEq.symm.trans own
    exact keyEq
  unfold Transport.resolved
  split
  · next same =>
      apply count_flatMap_filter_of_kept
      intro entry entryMem mem
      rw [key entry entryMem mem, keyEvent_bindingKey]
      simp [hasPrefix_bindingKey, same]
  · next different =>
      apply count_flatMap_filter_of_dropped
      intro entry entryMem mem
      rw [key entry entryMem mem, keyEvent_bindingKey]
      simp [Ne.symm different]

/-- The reply to a join of the callback's own topic. -/
theorem joined_own (placed : Placed transport callback topic) (own : callback.topic = some topic)
    (keyed : Keyed transport) {topicId : ℕ}
    (after : System.Joined transport next topicId topic)
    (kept : ∀ old, transport.topicNameToId topic = some old → old ≠ topicId →
      ∀ event, ∀ bound ∈ transport.topicBindings old event, bound.topic ≠ some topic) :
    Placed next callback topic := by
  have mapped : next.topicNameToId topic = some topicId := by
    rw [after.nameToId, Function.update_self]
  constructor
  · intro otherId event
    rw [after.bindings, List.count_append, placed.bound, mapped]
    have new : (if otherId = topicId then
        Transport.resolved topic event transport.deferredBindings else []).count callback =
        if otherId = topicId ∧ event = callback.event ∧ transport.topicNameToId topic = none
        then 1 else 0 := by
      by_cases sameId : otherId = topicId
      · rw [if_pos sameId, count_resolved own keyed, placed.waiting]
        by_cases sameEvent : event = callback.event <;> simp [sameId, sameEvent]
      · simp [sameId]
    rw [new]
    rcases known : transport.topicNameToId topic with _ | old
    · by_cases here : otherId = topicId ∧ event = callback.event
      · simp [here.1, here.2]
      · rw [if_neg (by simp), if_neg fun other => here ⟨other.1, other.2.1⟩,
          if_neg fun other => here ⟨(Option.some.inj other.1).symm, other.2⟩]
    · have unmoved : old = topicId := by
        by_contra moved
        exact kept old known moved _ callback (placed.mem_bound known) own
      subst old
      simp
  · rw [after.deferred, mapped, if_neg (by simp)]
    apply count_flatMap_filter_of_dropped
    intro entry entryMem mem
    rcases keyed entry entryMem callback mem with ⟨other, otherEq, keyEq⟩
    cases otherEq.symm.trans own
    simp [keyEq, hasPrefix_bindingKey]

/-- The reply to a join of another topic that does not take the callback along. -/
theorem joined_other (placed : Placed transport callback topic)
    (own : callback.topic = some topic) {topicId : ℕ} {name : Bytes}
    (after : System.Joined transport next topicId name) (different : topic ≠ name)
    (takes : ∀ entry ∈ transport.deferredBindings, HasPrefix name entry.1 →
      ∀ taken ∈ entry.2, taken.topic = some name) :
    Placed next callback topic := by
  have spared : ∀ entry ∈ transport.deferredBindings, callback ∈ entry.2 →
      ¬HasPrefix name entry.1 := by
    intro entry entryMem mem prefixed
    have taken := takes entry entryMem prefixed callback mem
    rw [own, Option.some.injEq] at taken
    exact different taken
  have unresolved : ∀ event,
      callback ∉ Transport.resolved name event transport.deferredBindings := by
    intro event mem
    rcases Transport.mem_resolved.mp mem with ⟨entry, entryMem, prefixed, _, callbackMem⟩
    exact spared entry entryMem callbackMem prefixed
  have mapped : next.topicNameToId topic = transport.topicNameToId topic := by
    rw [after.nameToId, Function.update_of_ne different]
  constructor
  · intro otherId event
    rw [after.bindings, List.count_append, placed.bound, mapped]
    split_ifs <;> simp [List.count_eq_zero_of_not_mem (unresolved event)]
  · rw [after.deferred, mapped, ← placed.waiting]
    apply count_flatMap_filter_of_kept
    intro entry entryMem mem
    simp [spared entry entryMem mem]

end Placed

/-! ## Every callback in its place -/

namespace System

/-- A broadcast that has arrived invoked every callback registered for its topic and event
by then exactly once. -/
def InvokedOnce (system : System) (delivery : Delivery) : Prop :=
  ∀ callback ∈ system.registrations, callback.number < delivery.registered →
    callback.topic = some delivery.topic → callback.event = delivery.event.val →
      delivery.invoked.count callback = 1

/-- Every broadcast that has arrived did so. -/
def InvokesOnce (system : System) : Prop :=
  ∀ delivery ∈ system.deliveries, system.InvokedOnce delivery

/-- Every callback registered for a topic is in its place, and every id that an open
connection has been told is the one that the transport knows. -/
structure Routed (system : System) : Prop where
  placed : ∀ callback ∈ system.registrations, ∀ topic, callback.topic = some topic →
    Placed system.transport callback topic
  keyed : Keyed system.transport
  bound : ∀ topicId event, ∀ callback ∈ system.transport.topicBindings topicId event,
    callback ∈ system.registrations
  deferred : ∀ entry ∈ system.transport.deferredBindings, ∀ callback ∈ entry.2,
    callback ∈ system.registrations
  numbered : ∀ callback ∈ system.registrations, callback.number < system.registrations.length
  untold : ∀ connection ∈ system.connections, connection.phase = .connecting →
    connection.told = []
  mapped : ∀ connection ∈ system.connections, connection.phase = .opened →
    ∀ topic topicId, idOf connection.told topic = some topicId →
      system.transport.topicNameToId topic = some topicId
  recorded : ∀ delivery ∈ system.deliveries, delivery.registered ≤ system.registrations.length
  invoked : system.InvokesOnce

/-- Whether a step of a run without `off` and `disconnect` loses no callback: a reconnect
forgets no id that a callback is bound under or that another open connection still uses;
a join reply gives no new id to a topic with bound callbacks, takes along no deferred
callbacks of other topics and joins no topic on a second open connection; and of the
callbacks of a broadcast at most the last one throws. -/
def KeepsCallbacks (throws : Registration → Bytes → Bool) (system : System) : Action → Prop
  | .off _ _ => False
  | .disconnect => False
  | .opened socket =>
      ∀ connection, system.connections[socket]? = some connection → connection.rejoins = true →
        ∀ topic ∈ system.transport.joinedTopics, Forgettable system.transport topic ∧
          ∀ other ∈ system.connections, other.phase = .opened → topic ∉ other.told
  | .deliver socket =>
      ∀ connection, system.connections[socket]? = some connection →
        connection.phase = .opened →
        (∀ ref topicId topic, connection.incoming.head? = some (.joined ref topicId topic) →
          (∀ old, system.transport.topicNameToId topic = some old → old ≠ topicId →
            ∀ event, ∀ callback ∈ system.transport.topicBindings old event,
              callback.topic ≠ some topic) ∧
          (∀ entry ∈ system.transport.deferredBindings, HasPrefix topic entry.1 →
            ∀ callback ∈ entry.2, callback.topic = some topic) ∧
          ∀ index other, index ≠ socket → system.connections[index]? = some other →
            other.phase = .opened → topic ∉ other.told) ∧
        ∀ topicId topic event payload,
          connection.incoming.head? = some (.broadcast topicId topic event payload) →
            ∀ callback ∈ (system.transport.topicBindings topicId event.val).dropLast,
              throws callback payload = false
  | _ => True

variable {system next : System} {throws : Registration → Bytes → Bool}

theorem Routed.quiet (routed : system.Routed) (quiet : system.Quiet next) : next.Routed where
  placed := by
    rw [quiet.registrations]
    intro callback callbackMem topic own
    exact (routed.placed callback callbackMem topic own).of_routes quiet.routes
  keyed := by
    unfold Keyed
    rw [quiet.routes.deferredBindings]
    exact routed.keyed
  bound := by
    rw [quiet.routes.topicBindings, quiet.registrations]
    exact routed.bound
  deferred := by
    rw [quiet.routes.deferredBindings, quiet.registrations]
    exact routed.deferred
  numbered := by
    rw [quiet.registrations]
    exact routed.numbered
  untold := quiet.continues.untold routed.untold
  mapped := by
    intro later laterMem isOpen topic topicId told
    rw [quiet.routes.topicNameToId]
    rcases quiet.continues.opened routed.untold laterMem isOpen with
      none | ⟨connection, connectionMem, was, same⟩
    · rw [none, idOf_eq_none (by simp)] at told
      cases told
    · exact routed.mapped connection connectionMem was topic topicId (same ▸ told)
  recorded := by
    rw [quiet.deliveries, quiet.registrations]
    exact routed.recorded
  invoked := by
    unfold InvokesOnce InvokedOnce
    rw [quiet.deliveries, quiet.registrations]
    exact routed.invoked

/-- A new callback is in no table yet. -/
theorem Routed.unknown (routed : system.Routed) {callback : Registration}
    (fresh : callback.number = system.registrations.length) :
    callback ∉ system.registrations ∧
      (∀ topicId event, callback ∉ system.transport.topicBindings topicId event) ∧
      callback ∉ system.transport.deferredBindings.flatMap Prod.snd := by
  have new : callback ∉ system.registrations := by
    intro known
    have := routed.numbered callback known
    omega
  refine ⟨new, ?_, ?_⟩
  · intro topicId event bound
    exact new (routed.bound topicId event callback bound)
  · intro waiting
    rcases List.mem_flatMap.mp waiting with ⟨entry, entryMem, mem⟩
    exact new (routed.deferred entry entryMem callback mem)

/-- A registration that puts the new callback into its place and moves no other. -/
theorem Routed.register (routed : system.Routed) {callback : Registration}
    {transport : Transport Registration}
    (fresh : callback.number = system.registrations.length)
    (sameIds : transport.topicNameToId = system.transport.topicNameToId)
    (others : ∀ other topic, other ≠ callback → Placed system.transport other topic →
      Placed transport other topic)
    (own : ∀ topic, callback.topic = some topic → Placed transport callback topic)
    (keyed : Keyed transport)
    (bound : ∀ topicId event, ∀ other ∈ transport.topicBindings topicId event,
      other ∈ system.transport.topicBindings topicId event ∨ other = callback)
    (deferred : ∀ entry ∈ transport.deferredBindings, ∀ other ∈ entry.2,
      (∃ old ∈ system.transport.deferredBindings, other ∈ old.2) ∨ other = callback) :
    Routed { system with
      transport := transport
      registrations := system.registrations ++ [callback] } where
  placed := by
    intro other otherMem topic otherOwn
    rcases List.mem_append.mp otherMem with old | new
    · refine others other topic ?_ (routed.placed other old topic otherOwn)
      rintro rfl
      exact (routed.unknown fresh).1 old
    · cases List.mem_singleton.mp new
      exact own topic otherOwn
  keyed := keyed
  bound topicId event other otherMem := by
    rcases bound topicId event other otherMem with old | rfl
    · exact List.mem_append_left _ (routed.bound topicId event other old)
    · exact List.mem_append_right _ (List.mem_singleton.mpr rfl)
  deferred entry entryMem other otherMem := by
    rcases deferred entry entryMem other otherMem with ⟨old, oldMem, mem⟩ | rfl
    · exact List.mem_append_left _ (routed.deferred old oldMem other mem)
    · exact List.mem_append_right _ (List.mem_singleton.mpr rfl)
  numbered := by
    intro other otherMem
    rw [List.length_append, List.length_singleton]
    rcases List.mem_append.mp otherMem with old | new
    · exact Nat.lt_succ_of_lt (routed.numbered other old)
    · rw [List.mem_singleton.mp new, fresh]
      omega
  untold := routed.untold
  mapped := by
    dsimp only
    rw [sameIds]
    exact routed.mapped
  recorded := by
    intro delivery deliveryMem
    rw [List.length_append]
    exact Nat.le_add_right_of_le (routed.recorded delivery deliveryMem)
  invoked := by
    intro delivery deliveryMem other otherMem earlier
    rcases List.mem_append.mp otherMem with old | new
    · exact routed.invoked delivery deliveryMem other old earlier
    · have := routed.recorded delivery deliveryMem
      rw [List.mem_singleton.mp new, fresh] at earlier
      omega

theorem Routed.on (routed : system.Routed) (topicId event : ℕ) :
    (system.on topicId event).Routed := by
  have fresh : (⟨system.registrations.length, system.topicOf topicId, false, event⟩ :
      Registration).number = system.registrations.length := rfl
  refine routed.register fresh rfl ?_ ?_ ?_ ?_ ?_
  · intro other topic different placed
    exact placed.on_other different topicId event
  · intro topic own
    rcases routed.unknown fresh with ⟨_, unbound, undeferred⟩
    apply Placed.on_new unbound undeferred
    have named : system.topicOf topicId = some topic := own
    exact of_decide_eq_true (Option.filter_eq_some_iff.mp named).2
  · exact routed.keyed
  · intro otherId otherEvent other otherMem
    rw [Transport.on_topicBindings, List.mem_append] at otherMem
    rcases otherMem with old | new
    · exact Or.inl old
    · split at new
      · exact Or.inr (List.mem_singleton.mp new)
      · cases new
  · intro entry entryMem other otherMem
    exact Or.inl ⟨entry, entryMem, otherMem⟩

theorem Routed.onByName (routed : system.Routed) (topic : Bytes) (event : ℕ) :
    (system.onByName topic event).Routed := by
  have fresh : (⟨system.registrations.length, some topic, true, event⟩ :
      Registration).number = system.registrations.length := rfl
  refine routed.register fresh ?_ ?_ ?_ ?_ ?_ ?_
  · unfold Transport.onByName
    split <;> rfl
  · intro other otherTopic different placed
    exact placed.onByName_other different topic event
  · intro otherTopic own
    cases own
    rcases routed.unknown fresh with ⟨_, unbound, undeferred⟩
    exact Placed.onByName_new unbound undeferred
  · rcases known : system.transport.topicNameToId topic with _ | existing
    · simp only [Transport.onByName, known]
      intro entry entryMem other otherMem
      rcases mem_pushDeferred entryMem otherMem with ⟨old, oldMem, sameKey, mem⟩ | ⟨rfl, key⟩
      · rw [← sameKey]
        exact routed.keyed old oldMem other mem
      · exact ⟨topic, rfl, key⟩
    · simp only [Transport.onByName, known]
      exact routed.keyed
  · rcases known : system.transport.topicNameToId topic with _ | existing
    · simp only [Transport.onByName, known]
      intro _ _ other otherMem
      exact Or.inl otherMem
    · simp only [Transport.onByName, known]
      intro otherId otherEvent other otherMem
      rw [Transport.on_topicBindings, List.mem_append] at otherMem
      rcases otherMem with old | new
      · exact Or.inl old
      · split at new
        · exact Or.inr (List.mem_singleton.mp new)
        · cases new
  · rcases known : system.transport.topicNameToId topic with _ | existing
    · simp only [Transport.onByName, known]
      intro entry entryMem other otherMem
      rcases mem_pushDeferred entryMem otherMem with ⟨old, oldMem, _, mem⟩ | ⟨same, _⟩
      · exact Or.inl ⟨old, oldMem, mem⟩
      · exact Or.inr same
    · simp only [Transport.onByName, known]
      intro entry entryMem other otherMem
      exact Or.inl ⟨entry, entryMem, otherMem⟩

theorem Routed.untold_deliver (routed : system.Routed) {socket : ℕ} {connection : Connection}
    {message : ServerMessage} (found : system.connections[socket]? = some connection)
    (isOpen : connection.phase = .opened) (first : connection.incoming.head? = some message) :
    ∀ later ∈ (system.deliver throws socket message).connections, later.phase = .connecting →
      later.told = [] := by
  intro later laterMem connecting
  rcases mem_onConnection laterMem with ⟨other, _, otherAt⟩ | ⟨before, beforeAt, rfl⟩
  · exact routed.untold later (List.mem_of_getElem? otherAt) connecting
  · cases beforeAt.symm.trans found
    rw [(Connection.receive_spec first).2.2, isOpen] at connecting
    cases connecting

/-- A broadcast on a told id invokes what the transport binds under the topic. -/
theorem Routed.broadcast (routed : system.Routed) {socket : ℕ} {connection : Connection}
    {topicId : ℕ} {topic : Bytes} {event : Byte} {payload : Bytes}
    (found : system.connections[socket]? = some connection) (isOpen : connection.phase = .opened)
    (first : connection.incoming.head? = some (.broadcast topicId topic event payload))
    (returns : ∀ callback ∈ (system.transport.topicBindings topicId event.val).dropLast,
      throws callback payload = false) :
    (system.deliver throws socket (.broadcast topicId topic event payload)).Routed := by
  have handled := Transport.handleMessage_broadcast topicId event payload system.transport
  have unchanged : (system.deliver throws socket
      (.broadcast topicId topic event payload)).transport = system.transport := by
    simp only [deliver, ServerMessage.encode, handled]
  rcases (Connection.receive_spec first).1 with ⟨current, idFits⟩
  have connectionMem := List.mem_of_getElem? found
  have mapped := routed.mapped connection connectionMem isOpen topic topicId current
  refine ⟨?_, ?_, ?_, ?_, routed.numbered, routed.untold_deliver found isOpen first, ?_, ?_, ?_⟩
  · rw [unchanged]
    exact routed.placed
  · rw [unchanged]
    exact routed.keyed
  · rw [unchanged]
    exact routed.bound
  · rw [unchanged]
    exact routed.deferred
  · rw [unchanged]
    intro later laterMem laterOpen
    rcases mem_onConnection laterMem with ⟨other, _, otherAt⟩ | ⟨before, beforeAt, rfl⟩
    · exact routed.mapped later (List.mem_of_getElem? otherAt) laterOpen
    · cases beforeAt.symm.trans found
      have told : connection.receive.told = connection.told :=
        (Connection.receive_spec first).2.1.trans (List.append_nil _)
      rw [told]
      exact routed.mapped connection connectionMem isOpen
  · intro delivery deliveryMem
    rcases List.mem_append.mp deliveryMem with old | new
    · exact routed.recorded delivery old
    · simp only [System.delivery, List.mem_singleton] at new
      subst delivery
      exact Nat.le_refl _
  · intro delivery deliveryMem callback callbackMem earlier own ownEvent
    rcases List.mem_append.mp deliveryMem with old | new
    · exact routed.invoked delivery old callback callbackMem earlier own ownEvent
    · simp only [System.delivery, ServerMessage.encode, handled, List.mem_singleton,
        Nat.mod_eq_of_lt idFits] at new
      subst delivery
      dsimp only at own ownEvent ⊢
      rw [invocations_eq returns, (routed.placed callback callbackMem topic own).bound,
        if_pos ⟨mapped, ownEvent.symm⟩]

/-- A join reply moves the waiting callbacks of its topic under the id. -/
theorem Routed.joined (routed : system.Routed) {socket : ℕ} {connection : Connection}
    {ref topicId : ℕ} {topic : Bytes}
    (tracked : Tracked False system.transport system.inFlight) (fits : RefsFit system)
    (keeps : system.KeepsCallbacks throws (.deliver socket))
    (found : system.connections[socket]? = some connection) (isOpen : connection.phase = .opened)
    (first : connection.incoming.head? = some (.joined ref topicId topic)) :
    (system.deliver throws socket (.joined ref topicId topic)).Routed := by
  rcases (keeps connection found isOpen).1 ref topicId topic first with ⟨kept, takes, alone⟩
  rcases (Connection.receive_spec first).1 with ⟨number, _, _⟩
  rcases @joined_deliver system throws _ _ _ _ _ _ tracked fits found first with
    ⟨_, after⟩ | ⟨impossible, _⟩
  · have noDelivery : (system.deliver throws socket (.joined ref topicId topic)).deliveries =
        system.deliveries := by
      simp [deliver, delivery]
    refine ⟨?_, ?_, ?_, ?_, routed.numbered, routed.untold_deliver found isOpen first, ?_, ?_, ?_⟩
    · intro callback callbackMem name own
      have placed := routed.placed callback callbackMem name own
      by_cases same : name = topic
      · subst name
        exact placed.joined_own own routed.keyed after kept
      · exact placed.joined_other own after same takes
    · intro entry entryMem
      rw [after.deferred] at entryMem
      exact routed.keyed entry (List.mem_filter.mp entryMem).1
    · intro otherId event callback callbackMem
      rw [after.bindings, List.mem_append] at callbackMem
      rcases callbackMem with old | new
      · exact routed.bound otherId event callback old
      · split at new
        · rcases Transport.mem_resolved.mp new with ⟨entry, entryMem, _, _, mem⟩
          exact routed.deferred entry entryMem callback mem
        · cases new
    · intro entry entryMem
      rw [after.deferred] at entryMem
      exact routed.deferred entry (List.mem_filter.mp entryMem).1
    · intro later laterMem laterOpen name nameId told
      rw [after.nameToId]
      rcases mem_onConnection laterMem with ⟨other, different, otherAt⟩ | ⟨before, beforeAt, rfl⟩
      · have unlike : name ≠ topic := by
          rintro rfl
          rw [idOf_eq_none (alone other later different otherAt laterOpen)] at told
          cases told
        rw [Function.update_of_ne unlike]
        exact routed.mapped later (List.mem_of_getElem? otherAt) laterOpen name nameId told
      · cases beforeAt.symm.trans found
        rw [(Connection.receive_spec first).2.1, ServerMessage.tells, idOf_append] at told
        split at told
        · next same =>
            subst name
            rw [Function.update_self, number]
            exact told
        · next different =>
            rw [Function.update_of_ne (Ne.symm different)]
            exact routed.mapped connection (List.mem_of_getElem? found) isOpen name nameId told
    · rw [noDelivery]
      exact routed.recorded
    · unfold InvokesOnce
      rw [noDelivery]
      exact routed.invoked
  · exact impossible.elim

/-- A reconnect that forgets no callback keeps all of them in place. -/
theorem Routed.rejoined (routed : system.Routed) {socket : ℕ} {connection : Connection}
    (keeps : system.KeepsCallbacks throws (.opened socket))
    (found : system.connections[socket]? = some connection) (rejoins : connection.rejoins = true)
    (continues : system.Continues (system.opened socket connection)) :
    (system.opened socket connection).Routed := by
  have forgets := keeps connection found rejoins
  rcases @opened_spec system socket _ rejoins with ⟨transport, registrations, deliveries⟩
  have deferred := Transport.rejoin_deferredBindings system.transport.joinedTopics system.transport
  refine ⟨?_, ?_, ?_, ?_, ?_, continues.untold routed.untold, ?_, ?_, ?_⟩
  · rw [registrations, transport]
    intro callback callbackMem topic own
    exact (routed.placed callback callbackMem topic own).rejoin own fun other otherMem =>
      (forgets other otherMem).1
  · unfold Keyed
    rw [transport, deferred]
    exact routed.keyed
  · rw [registrations, transport]
    exact fun topicId event callback callbackMem =>
      routed.bound topicId event callback (Transport.mem_topicBindings_rejoin callbackMem)
  · rw [registrations, transport, deferred]
    exact routed.deferred
  · rw [registrations]
    exact routed.numbered
  · rw [transport]
    intro later laterMem isOpen topic topicId told
    rcases continues.opened routed.untold laterMem isOpen with
      none | ⟨before, beforeMem, was, same⟩
    · rw [none, idOf_eq_none (by simp)] at told
      cases told
    · rw [same] at told
      have unjoined : topic ∉ system.transport.joinedTopics := by
        intro joined
        rw [idOf_eq_none ((forgets topic joined).2 before beforeMem was)] at told
        cases told
      rw [Transport.rejoin_topicNameToId unjoined]
      exact routed.mapped before beforeMem was topic topicId told
  · rw [registrations, deliveries]
    exact routed.recorded
  · unfold InvokesOnce InvokedOnce
    rw [registrations, deliveries]
    exact routed.invoked

/-- A step that loses no callback. -/
theorem Routed.step {action : Action} (routed : system.Routed)
    (tracked : Tracked False system.transport system.inFlight) (fits : RefsFit system)
    (keeps : system.KeepsCallbacks throws action) (taken : Step throws system action next) :
    next.Routed := by
  cases effect_of_step tracked fits taken with
  | quiet quiet => exact routed.quiet quiet
  | disconnect => exact keeps.elim
  | on topicId event => exact routed.on topicId event
  | onByName topic event => exact routed.onByName topic event
  | off => exact keeps.elim
  | rejoined found rejoins continues => exact routed.rejoined keeps found rejoins continues
  | joined found isOpen first => exact routed.joined tracked fits keeps found isOpen first
  | broadcast found isOpen first =>
      exact routed.broadcast found isOpen first ((keeps _ found isOpen).2 _ _ _ _ first)

theorem routed_start : start.Routed where
  placed := by simp [start]
  keyed := by
    intro entry entryMem
    simp [start, Transport.new] at entryMem
  bound := by simp [start, Transport.new]
  deferred := by simp [start, Transport.new]
  numbered := by simp [start]
  untold := by simp [start]
  mapped := by simp [start]
  recorded := by simp [start]
  invoked := by simp [InvokesOnce, start]

/-- The steps whose next refs fit and that lose no callback. -/
def AdmitsKeeping (throws : Registration → Bytes → Bool) (system : System) (action : Action) :
    Prop :=
  system.RefsFit ∧ system.KeepsCallbacks throws action

end System

/-- In a run that loses no callback, a broadcast that arrives, on the first connection or
after any number of reconnects, invokes every callback of its topic and event once. -/
theorem invoked_once {throws : Registration → Bytes → Bool} {actions : List Action}
    {system : System}
    (run : Run (Guarded (System.AdmitsKeeping throws) (System.Step throws)) System.start actions
      system) : system.InvokesOnce := by
  have kept := @Run.invariant _ _ _
    (fun system : System => Tracked False system.transport system.inFlight ∧ system.Routed)
    (fun kept admitted => ⟨System.tracked_step kept.1
        (fun same => by rw [same] at admitted; exact admitted.1.2) admitted.1.1 admitted.2,
      kept.2.step kept.1 admitted.1.1 admitted.1.2 admitted.2⟩)
    _ _ _ run ⟨System.tracked_start, System.routed_start⟩
  exact kept.2.invoked

/-- The first join of a topic, on the only open connection. -/
theorem System.keepsCallbacks_joined {system : System} {throws : Registration → Bytes → Bool}
    {socket ref topicId : ℕ} {topic : Bytes}
    (head : system.connections[socket]?.map (fun connection => connection.incoming.head?) =
      some (some (.joined ref topicId topic)))
    (unknown : system.transport.topicNameToId topic = none)
    (takes : ∀ entry ∈ system.transport.deferredBindings, ∀ callback ∈ entry.2,
      callback.topic = some topic)
    (alone : ∀ index, index ≠ socket →
      system.connections[index]?.map Connection.phase ≠ some .opened) :
    system.KeepsCallbacks throws (.deliver socket) := by
  intro connection found isOpen
  rw [found] at head
  have first := Option.some.inj head
  refine ⟨?_, ?_⟩
  · intro otherRef otherId other otherFirst
    cases first.symm.trans otherFirst
    refine ⟨?_, fun entry entryMem _ => takes entry entryMem, ?_⟩
    · intro old known
      rw [unknown] at known
      cases known
    · intro index other different otherAt otherOpen
      refine absurd ?_ (alone index different)
      rw [otherAt, Option.map_some, otherOpen]
  · intro otherId other event payload otherFirst
    cases first.symm.trans otherFirst

/-- A callback registered between the reconnect and its join reply is invoked, on the
connection that the reconnect made. -/
theorem invoked_once_deferred : ∃ system : System,
    system.deliveries = [⟨1, ascii "channel:01", 2, [7],
      [⟨0, some (ascii "channel:01"), true, 2⟩], 1⟩] ∧ system.InvokesOnce := by
  let topic := ascii "channel:01"
  let quiet : Registration → Bytes → Bool := fun _ _ => false
  let script : List Action :=
    [.connect, .opened 0, .join topic, .answer 0 .accept, .deliver 0, .lost 0, .timer,
      .opened 1, .onByName topic 2, .answer 1 .accept, .deliver 1, .broadcast 1 topic 2 [7],
      .deliver 1]
  have outcome : (Run.play (System.step quiet) System.start script).map System.deliveries =
      some [⟨1, topic, 2, [7], [⟨0, some topic, true, 2⟩], 1⟩] := by decide
  have fits : ∀ count < 13, ((Run.play (System.step quiet) System.start
      (script.take count)).all fun system => decide system.RefsFit) = true := by decide
  rcases Option.map_eq_some_iff.mp outcome with ⟨system, played, deliveries⟩
  refine ⟨system, deliveries, @invoked_once quiet script system
    (Run.guarded_of_play played ?_)⟩
  intro count action actionAt middle reached
  have bound : count < 13 := (List.getElem?_eq_some_iff.mp actionAt).1
  have fit := fits count bound
  rw [reached] at fit
  refine ⟨of_decide_eq_true fit, ?_⟩
  have seen : ∀ {Seen : Type} (view : System → Seen) {value : Seen},
      (Run.play (System.step quiet) System.start (script.take count)).map view = some value →
        view middle = value := by
    intro Seen view value shown
    rw [reached] at shown
    exact Option.some.inj shown
  interval_cases count <;> cases actionAt <;> try exact trivial
  · intro connection found rejoins
    have fresh : middle.connections[0]?.map Connection.rejoins = some false :=
      seen (fun system => system.connections[0]?.map Connection.rejoins) (by decide)
    rw [found, Option.map_some, rejoins] at fresh
    cases fresh
  · refine @System.keepsCallbacks_joined middle quiet 0 1 1 topic
      (seen (fun system => system.connections[0]?.map fun connection =>
        connection.incoming.head?) (by decide))
      (seen (fun system => system.transport.topicNameToId topic) (by decide)) ?_ ?_
    · have none : middle.transport.deferredBindings = [] :=
        seen (fun system => system.transport.deferredBindings) (by decide)
      simp [none]
    · have single : middle.connections.length = 1 :=
        seen (fun system => system.connections.length) (by decide)
      intro index different isOpen
      rw [List.getElem?_eq_none (by omega)] at isOpen
      cases isOpen
  · intro connection found rejoins name joined
    have joinedTopics : middle.transport.joinedTopics = [topic] :=
      seen (fun system => system.transport.joinedTopics) (by decide)
    have mapped : middle.transport.topicNameToId topic = some 1 :=
      seen (fun system => system.transport.topicNameToId topic) (by decide)
    have unbound : ∀ event, middle.transport.topicBindings 1 event = [] := by
      intro event
      refine seen (fun system => system.transport.topicBindings 1 event) ?_
      simp only [script, topic, quiet, List.take]
      rfl
    have phases : middle.connections.map Connection.phase = [.closed, .connecting] :=
      seen (fun system => system.connections.map Connection.phase) (by decide)
    refine ⟨?_, ?_⟩
    · intro topicId known event callback bound
      rw [joinedTopics, List.mem_singleton] at joined
      subst name
      cases mapped.symm.trans known
      rw [unbound] at bound
      cases bound
    · intro other otherMem isOpen
      have phase := @List.mem_map_of_mem _ _ _ _ Connection.phase otherMem
      rw [phases, isOpen] at phase
      exact absurd phase (by decide)
  · refine @System.keepsCallbacks_joined middle quiet 1 2 1 topic
      (seen (fun system => system.connections[1]?.map fun connection =>
        connection.incoming.head?) (by decide))
      (seen (fun system => system.transport.topicNameToId topic) (by decide)) ?_ ?_
    · have waiting : middle.transport.deferredBindings =
          [(bindingKey topic 2, [⟨0, some topic, true, 2⟩])] :=
        seen (fun system => system.transport.deferredBindings) (by decide)
      simp [waiting]
    · have phases : middle.connections.map Connection.phase = [.closed, .opened] :=
        seen (fun system => system.connections.map Connection.phase) (by decide)
      intro index different isOpen
      rw [← List.getElem?_map, phases] at isOpen
      rcases index with _ | _ | beyond
      · cases isOpen
      · exact different rfl
      · cases isOpen
  · intro connection found isOpen
    have head : middle.connections[1]?.map (fun connection => connection.incoming.head?) =
        some (some (.broadcast 1 topic 2 [7])) :=
      seen (fun system => system.connections[1]?.map fun connection =>
        connection.incoming.head?) (by decide)
    rw [found] at head
    have first := Option.some.inj head
    refine ⟨?_, fun _ _ _ _ _ callback _ => rfl⟩
    intro ref topicId name joined
    cases first.symm.trans joined

/-! ## A callback that is lost -/

/-- `topic` was joined before the connection was lost, and again by the reconnect. -/
def System.Rejoined (system : System) (socket : ℕ) (topic : Bytes) : Prop :=
  ∃ connection, system.connections[socket]? = some connection ∧ connection.rejoins = true ∧
    topic ∈ connection.told ∧
    ∃ earlier before, earlier < socket ∧ system.connections[earlier]? = some before ∧
      before.phase = .closed ∧ topic ∈ before.told

/-- The callback that a channel registers after its join is bound under the id that the
reconnect forgets, and is invoked by no broadcast after it. -/
theorem lost_after_rejoin :
    ¬∀ actions system, Run (System.Step fun _ _ => false) System.start actions system →
      (∀ action ∈ actions, action ≠ .disconnect ∧ ∀ topicId event, action ≠ .off topicId event) →
        ∀ delivery ∈ system.deliveries, system.Rejoined delivery.socket delivery.topic →
          system.InvokedOnce delivery := by
  intro always
  let topic := ascii "channel:01"
  let script : List Action :=
    [.connect, .opened 0, .join topic, .answer 0 .accept, .deliver 0, .onByName topic 2,
      .lost 0, .timer, .opened 1, .answer 1 .accept, .deliver 1, .broadcast 1 topic 2 [7],
      .deliver 1]
  have outcome : (Run.play (System.step fun _ _ => false) System.start script).map
      System.deliveries = some [⟨1, topic, 2, [7], [], 1⟩] := by decide
  rcases Option.map_eq_some_iff.mp outcome with ⟨system, played, deliveries⟩
  have seen : ∀ {Seen : Type} (view : System → Seen) {value : Seen},
      (Run.play (System.step fun _ _ => false) System.start script).map view = some value →
        view system = value := by
    intro Seen view value shown
    rw [played] at shown
    exact Option.some.inj shown
  have connections : system.connections.map (fun connection =>
      (connection.phase, connection.rejoins, connection.told)) =
        [(.closed, false, [topic]), (.opened, true, [topic])] :=
    seen (fun system => system.connections.map fun connection =>
      (connection.phase, connection.rejoins, connection.told)) (by decide)
  have registered : (⟨0, some topic, true, 2⟩ : Registration) ∈ system.registrations := by
    have all : system.registrations = [⟨0, some topic, true, 2⟩] :=
      seen System.registrations (by decide)
    rw [all]
    exact List.mem_singleton.mpr rfl
  have rejoined : system.Rejoined 1 topic := by
    rcases List.map_eq_cons_iff.mp connections with ⟨lost, rest, all, lostSeen, restSeen⟩
    rcases List.map_eq_singleton_iff.mp restSeen with ⟨again, rfl, againSeen⟩
    simp only [Prod.mk.injEq] at lostSeen againSeen
    refine ⟨again, by rw [all]; rfl, againSeen.2.1, ?_, 0, lost, by omega, by rw [all]; rfl,
      lostSeen.1, ?_⟩
    · rw [againSeen.2.2]
      exact List.mem_singleton.mpr rfl
    · rw [lostSeen.2.2]
      exact List.mem_singleton.mpr rfl
  have invoked := always script system (Run.of_play played) (by simp [script])
    ⟨1, topic, 2, [7], [], 1⟩ (by simp [deliveries]) rejoined _ registered (by decide) rfl rfl
  exact absurd invoked (by decide)

end Mercury.Sdk
