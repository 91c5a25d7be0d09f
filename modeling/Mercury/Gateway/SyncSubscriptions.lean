import Mercury.Gateway.Connections

/-!
# The sync subscriptions of a node

All devices of a user share one entry of the sync consumer. The first subscribe
makes it and any unsubscribe takes it away, also while other devices are still
connected. Where that does not happen, the consumer has exactly one NATS
subscription for each user with a connected socket, once all casts are handled
(`subscribed_iff_online`).
-/

namespace Mercury.Gateway

open Foundations

theorem userSubject_injective {left right : Id16 × Id16}
    (same : userSubject left = userSubject right) : left = right := by
  rcases left with ⟨leftTenant, leftUser⟩
  rcases right with ⟨rightTenant, rightUser⟩
  simp only [userSubject, syncSubject, List.append_assoc] at same
  have sameLength : (Base.encode16 leftTenant.val).length =
      (Base.encode16 rightTenant.val).length := by
    rw [Base.length_encode16, Base.length_encode16, leftTenant.property, rightTenant.property]
  rcases List.append_inj (List.append_cancel_left same) sameLength with ⟨tenants, users⟩
  have sameTenant := Subtype.ext (Base.encode16_injective tenants)
  have sameUser := Subtype.ext (Base.encode16_injective (List.append_cancel_left users))
  rw [sameTenant, sameUser]

/-! ## The consumer -/

namespace SyncConsumer

/-- The consumer has an entry for the user. -/
def Subscribed (consumer : SyncConsumer) (user : Id16 × Id16) : Prop :=
  ∃ sid, consumer.subscriptions user = some sid

/-- The entries of the consumer are the subscriptions that NATS holds. -/
structure Consistent (consumer : SyncConsumer) : Prop where
  entry : ∀ user sid, consumer.subscriptions user = some sid →
    consumer.subjects sid = some (userSubject user)
  owned : ∀ sid subject, consumer.subjects sid = some subject →
    ∃ user, consumer.subscriptions user = some sid ∧ subject = userSubject user
  fresh : ∀ sid, consumer.nextSid ≤ sid → consumer.subjects sid = none

variable {consumer : SyncConsumer} {user other : Id16 × Id16}

theorem consistent_start : start.Consistent where
  entry _ _ found := by cases found
  owned _ _ found := by cases found
  fresh _ _ := rfl

theorem Consistent.user_eq (consistent : consumer.Consistent) {sid : ℕ}
    (left : consumer.subscriptions user = some sid)
    (right : consumer.subscriptions other = some sid) : user = other :=
  userSubject_injective (Option.some.inj
    ((consistent.entry user sid left).symm.trans (consistent.entry other sid right)))

theorem subscribed_subscribe :
    (consumer.handleCast (.subscribe user)).Subscribed other ↔
      other = user ∨ consumer.Subscribed other := by
  simp only [handleCast]
  split
  · next sid found =>
      refine ⟨Or.inr, ?_⟩
      rintro (rfl | subscribed)
      · exact ⟨sid, found⟩
      · exact subscribed
  · by_cases same : other = user
    · simp [Subscribed, same]
    · simp [Subscribed, same]

theorem subscribed_unsubscribe :
    (consumer.handleCast (.unsubscribe user)).Subscribed other ↔
      other ≠ user ∧ consumer.Subscribed other := by
  simp only [handleCast]
  split
  · next absent =>
      refine ⟨fun subscribed => ⟨?_, subscribed⟩, And.right⟩
      rintro rfl
      rcases subscribed with ⟨sid, found⟩
      simp [absent] at found
  · by_cases same : other = user
    · simp [Subscribed, same]
    · simp [Subscribed, same]

/-- A new subscription has a sid of its own. -/
theorem Consistent.subscribe (consistent : consumer.Consistent)
    (absent : consumer.subscriptions user = none) :
    Consistent
      { subscriptions := Function.update consumer.subscriptions user (some consumer.nextSid)
        subjects := Function.update consumer.subjects consumer.nextSid (some (userSubject user))
        nextSid := consumer.nextSid + 1 } where
  entry other sid found := by
    by_cases same : other = user
    · subst same
      simp only [Function.update_self, Option.some.injEq] at found
      subst found
      exact Function.update_self _ _ _
    · simp only [Function.update_of_ne same] at found
      have held := consistent.entry other sid found
      have older : sid ≠ consumer.nextSid := by
        rintro rfl
        simp [consistent.fresh] at held
      exact (Function.update_of_ne older _ _).trans held
  owned sid subject found := by
    by_cases same : sid = consumer.nextSid
    · subst same
      simp only [Function.update_self, Option.some.injEq] at found
      exact ⟨user, Function.update_self _ _ _, found.symm⟩
    · simp only [Function.update_of_ne same] at found
      rcases consistent.owned sid subject found with ⟨owner, entry, isSubject⟩
      have different : owner ≠ user := by
        rintro rfl
        simp [absent] at entry
      exact ⟨owner, (Function.update_of_ne different _ _).trans entry, isSubject⟩
  fresh sid newer := by
    have older : consumer.nextSid < sid := newer
    exact (Function.update_of_ne (Nat.ne_of_gt older) _ _).trans
      (consistent.fresh sid (Nat.le_of_lt older))

theorem Consistent.unsubscribe (consistent : consumer.Consistent) {sid : ℕ}
    (found : consumer.subscriptions user = some sid) :
    Consistent
      { consumer with
        subscriptions := Function.update consumer.subscriptions user none
        subjects := Function.update consumer.subjects sid none } where
  entry other otherSid otherFound := by
    have different : other ≠ user := by
      rintro rfl
      simp at otherFound
    simp only [Function.update_of_ne different] at otherFound
    have otherSidNe : otherSid ≠ sid := by
      rintro rfl
      exact different (consistent.user_eq otherFound found)
    simp only [Function.update_of_ne otherSidNe]
    exact consistent.entry other otherSid otherFound
  owned otherSid subject held := by
    have otherSidNe : otherSid ≠ sid := by
      rintro rfl
      simp at held
    simp only [Function.update_of_ne otherSidNe] at held
    rcases consistent.owned otherSid subject held with ⟨owner, entry, isSubject⟩
    have different : owner ≠ user := by
      rintro rfl
      exact otherSidNe (Option.some.inj (entry.symm.trans found))
    exact ⟨owner, (Function.update_of_ne different _ _).trans entry, isSubject⟩
  fresh otherSid newer := by
    by_cases same : otherSid = sid
    · subst same
      exact Function.update_self _ _ _
    · simp only [Function.update_of_ne same]
      exact consistent.fresh otherSid newer

theorem Consistent.handleCast (consistent : consumer.Consistent) (cast : SyncCast) :
    (consumer.handleCast cast).Consistent := by
  cases cast with
  | subscribe user =>
      simp only [SyncConsumer.handleCast]
      split
      · exact consistent
      · next absent => exact consistent.subscribe absent
  | unsubscribe user =>
      simp only [SyncConsumer.handleCast]
      split
      · exact consistent
      · next sid found => exact consistent.unsubscribe found

end SyncConsumer

/-! ## The sockets of a user -/

namespace Connections

variable {world next : Connections} {pid : ℕ} {key : ConnectionKey} {user : Id16 × Id16}

/-- A socket of the user is connected: the consumer was told, and not yet of its end. -/
def Online (world : Connections) (user : Id16 × Id16) (pid : ℕ) : Prop :=
  ∃ key : ConnectionKey, key.user = user ∧
    (world.sockets pid = some (key, .connected) ∨ world.sockets pid = some (key, .leaving))

/-- When an unsubscribe is handled, every other connected socket of the user has its
subscribe still to be handled. -/
def DropsAlone (world : Connections) : ConnectionLabel → Prop
  | .handled pid => ∀ user later, world.casts pid = .unsubscribe user :: later →
      ∀ other, other ≠ pid → world.Online user other → world.casts other ≠ []
  | _ => True

/-- What a socket has told the consumer. -/
def told : Option (ConnectionKey × ConnectionPhase) → List SyncCast
  | none => []
  | some (_, .starting) => []
  | some (key, .connected) => [.subscribe key.user]
  | some (key, .leaving) => [.subscribe key.user]
  | some (key, .ended) => [.subscribe key.user, .unsubscribe key.user]

/-- The consumer has handled the subscribe of the socket, and no unsubscribe. -/
def Holds (world : Connections) (user : Id16 × Id16) (pid : ℕ) : Prop :=
  world.Online user pid ∧ world.casts pid = [] ∨
    world.casts pid = [.unsubscribe user]

/-- What every run keeps in which no entry is dropped that another socket needs. -/
structure Followed (world : Connections) : Prop where
  order : ∀ pid, world.casts pid <:+ told (world.sockets pid)
  served : ∀ user pid, world.Online user pid → world.casts pid = [] →
    world.consumer.Subscribed user
  held : ∀ user, world.consumer.Subscribed user → ∃ pid, world.Holds user pid
  consistent : world.consumer.Consistent

theorem followed_start : Followed start where
  order _ := List.suffix_refl []
  served _ _ online := by
    rcases online with ⟨key, -, absent | absent⟩ <;> cases absent
  held _ subscribed := by
    rcases subscribed with ⟨sid, found⟩
    cases found
  consistent := SyncConsumer.consistent_start

/-- The phase of a socket that is online. -/
theorem told_of_online (online : world.Online user pid) :
    told (world.sockets pid) = [.subscribe user] := by
  rcases online with ⟨key, rfl, present | present⟩ <;> rw [present] <;> rfl

theorem online_congr (same : next.sockets pid = world.sockets pid) :
    next.Online user pid ↔ world.Online user pid := by
  rw [Online, Online, same]

/-- A step of the socket `pid` that the consumer does not see. -/
theorem Followed.of_socket (followed : world.Followed)
    (sameSockets : ∀ other, other ≠ pid → next.sockets other = world.sockets other)
    (sameCasts : ∀ other, other ≠ pid → next.casts other = world.casts other)
    (sameConsumer : next.consumer = world.consumer)
    (order : next.casts pid <:+ told (next.sockets pid))
    (served : ∀ user, next.Online user pid → next.casts pid = [] →
      world.Online user pid ∧ world.casts pid = [])
    (held : ∀ user, world.Holds user pid → next.Holds user pid) : Followed next where
  order other := by
    by_cases same : other = pid
    · exact same ▸ order
    · rw [sameSockets other same, sameCasts other same]
      exact followed.order other
  served user other online quiet := by
    rw [sameConsumer]
    by_cases same : other = pid
    · subst same
      rcases served user online quiet with ⟨wasOnline, wasQuiet⟩
      exact followed.served user other wasOnline wasQuiet
    · rw [online_congr (sameSockets other same)] at online
      exact followed.served user other online (sameCasts other same ▸ quiet)
  held user subscribed := by
    rw [sameConsumer] at subscribed
    rcases followed.held user subscribed with ⟨other, holds⟩
    refine ⟨other, ?_⟩
    by_cases same : other = pid
    · subst same
      exact held user holds
    · rwa [Holds, online_congr (sameSockets other same), sameCasts other same]
  consistent := sameConsumer ▸ followed.consistent

theorem casts_handle_self {cast : SyncCast} {later : List SyncCast} :
    (world.handle pid cast later).casts pid = later :=
  Function.update_self _ _ _

theorem casts_handle_of_ne {cast : SyncCast} {later : List SyncCast} {other : ℕ}
    (different : other ≠ pid) :
    (world.handle pid cast later).casts other = world.casts other :=
  Function.update_of_ne different _ _

theorem consumer_handle {cast : SyncCast} {later : List SyncCast} :
    (world.handle pid cast later).consumer = world.consumer.handleCast cast :=
  rfl

/-- What a socket holds, a cast of another one leaves alone. -/
theorem holds_handle_of_ne {cast : SyncCast} {later : List SyncCast} {other : ℕ}
    (different : other ≠ pid) :
    (world.handle pid cast later).Holds user other ↔ world.Holds user other := by
  rw [Holds, Holds, casts_handle_of_ne different]
  exact Iff.rfl


theorem Followed.order_handle (followed : world.Followed) {cast : SyncCast}
    {later : List SyncCast} (waiting : world.casts pid = cast :: later) (other : ℕ) :
    (world.handle pid cast later).casts other <:+ told (world.sockets other) := by
  have order := followed.order other
  by_cases same : other = pid
  · subst same
    rw [waiting] at order
    rw [casts_handle_self]
    exact (List.suffix_cons cast later).trans order
  · rwa [casts_handle_of_ne same]

/-- A subscribe that is handled leaves its socket with the entry. -/
theorem Followed.handle_subscribe (followed : world.Followed) {later : List SyncCast}
    (waiting : world.casts pid = .subscribe user :: later)
    (holds : (world.handle pid (.subscribe user) later).Holds user pid)
    (own : ∀ other, world.Online other pid → other = user) :
    (world.handle pid (.subscribe user) later).Followed where
  order := followed.order_handle waiting
  served other otherPid online quiet := by
    apply SyncConsumer.subscribed_subscribe.mpr
    by_cases same : otherPid = pid
    · subst same
      exact Or.inl (own other online)
    · have wasQuiet : world.casts otherPid = [] := casts_handle_of_ne same ▸ quiet
      exact Or.inr (followed.served other otherPid online wasQuiet)
  held other subscribed := by
    rcases SyncConsumer.subscribed_subscribe.mp subscribed with rfl | before
    · exact ⟨pid, holds⟩
    · rcases followed.held other before with ⟨holder, held⟩
      have different : holder ≠ pid := by
        rintro rfl
        simp [Holds, waiting] at held
      exact ⟨holder, (holds_handle_of_ne different).mpr held⟩
  consistent := by
    rw [consumer_handle]
    exact followed.consistent.handleCast _

/-- An unsubscribe that is handled takes the entry from no other socket. -/
theorem Followed.handle_unsubscribe (followed : world.Followed)
    (waiting : world.casts pid = [.unsubscribe user])
    (ended : ∀ other, ¬world.Online other pid)
    (alone : ∀ other, other ≠ pid → world.Online user other → world.casts other ≠ []) :
    (world.handle pid (.unsubscribe user) []).Followed where
  order := followed.order_handle waiting
  served other otherPid online quiet := by
    apply SyncConsumer.subscribed_unsubscribe.mpr
    have different : otherPid ≠ pid := by
      rintro rfl
      exact ended other online
    have wasQuiet : world.casts otherPid = [] := casts_handle_of_ne different ▸ quiet
    refine ⟨?_, followed.served other otherPid online wasQuiet⟩
    rintro rfl
    exact alone otherPid different online wasQuiet
  held other subscribed := by
    rcases SyncConsumer.subscribed_unsubscribe.mp subscribed with ⟨otherUser, before⟩
    rcases followed.held other before with ⟨holder, held⟩
    have different : holder ≠ pid := by
      rintro rfl
      simp only [Holds, waiting] at held
      rcases held with ⟨-, empty⟩ | same
      · cases empty
      · cases same
        exact otherUser rfl
    exact ⟨holder, (holds_handle_of_ne different).mpr held⟩
  consistent := by
    rw [consumer_handle]
    exact followed.consistent.handleCast _

theorem online_unique {other : Id16 × Id16} (left : world.Online user pid)
    (right : world.Online other pid) : other = user := by
  have same := (told_of_online right).symm.trans (told_of_online left)
  cases same
  rfl

theorem not_online_of_ended {key : ConnectionKey}
    (present : world.sockets pid = some (key, .ended)) : ¬world.Online user pid := by
  rintro ⟨other, -, found | found⟩ <;> simp [present] at found

theorem online_iff {key : ConnectionKey}
    (present : world.sockets pid = some (key, .connected) ∨
      world.sockets pid = some (key, .leaving)) : world.Online user pid ↔ key.user = user := by
  constructor
  · intro online
    exact online_unique online ⟨key, rfl, present⟩
  · rintro rfl
    exact ⟨key, rfl, present⟩

/-- The next cast of a socket: the subscribe of a socket that is online or has ended, or
the unsubscribe of one that has ended. -/
theorem Followed.next_cast (followed : world.Followed) {cast : SyncCast}
    {later : List SyncCast} (waiting : world.casts pid = cast :: later) :
    ∃ user, cast = .subscribe user ∧ later = [] ∧ world.Online user pid ∨
      (∀ other, ¬world.Online other pid) ∧
        (cast = .subscribe user ∧ later = [.unsubscribe user] ∨
          cast = .unsubscribe user ∧ later = []) := by
  have order := followed.order pid
  rw [waiting] at order
  rcases present : world.sockets pid with _ | ⟨key, phase⟩
  · simp [present, told] at order
  · refine ⟨key.user, ?_⟩
    cases phase with
    | starting => simp [present, told] at order
    | connected =>
        simp only [present, told, List.suffix_cons_iff, List.cons.injEq, List.suffix_nil,
          reduceCtorEq, or_false] at order
        exact Or.inl ⟨order.1, order.2, key, rfl, Or.inl present⟩
    | leaving =>
        simp only [present, told, List.suffix_cons_iff, List.cons.injEq, List.suffix_nil,
          reduceCtorEq, or_false] at order
        exact Or.inl ⟨order.1, order.2, key, rfl, Or.inr present⟩
    | ended =>
        simp only [present, told, List.suffix_cons_iff, List.cons.injEq, List.suffix_nil,
          reduceCtorEq, or_false] at order
        exact Or.inr ⟨fun other => not_online_of_ended present, order⟩

/-- The consumer handles a cast of `pid`. -/
theorem Followed.handle (followed : world.Followed) {cast : SyncCast} {later : List SyncCast}
    (waiting : world.casts pid = cast :: later)
    (alone : world.DropsAlone (.handled pid)) : (world.handle pid cast later).Followed := by
  rcases followed.next_cast waiting with
    ⟨user, ⟨rfl, rfl, online⟩ | ⟨ended, ⟨rfl, rfl⟩ | ⟨rfl, rfl⟩⟩⟩
  · exact followed.handle_subscribe waiting (Or.inl ⟨online, casts_handle_self⟩)
      fun other otherOnline => online_unique online otherOnline
  · exact followed.handle_subscribe waiting (Or.inr casts_handle_self)
      fun other online => absurd online (ended other)
  · exact followed.handle_unsubscribe waiting ended (alone user [] waiting)

/-- A socket that has told the consumer nothing holds no entry. -/
theorem Followed.quiet_of_told (followed : world.Followed)
    (silent : told (world.sockets pid) = []) :
    world.casts pid = [] ∧ ∀ user, ¬world.Online user pid ∧ ¬world.Holds user pid := by
  have order := followed.order pid
  rw [silent, List.suffix_nil] at order
  have notOnline : ∀ user, ¬world.Online user pid := by
    intro user online
    simp [told_of_online online] at silent
  refine ⟨order, fun user => ⟨notOnline user, ?_⟩⟩
  rintro (⟨online, -⟩ | waiting)
  · exact notOnline user online
  · simp [order] at waiting

theorem Followed.step {label : ConnectionLabel} (followed : world.Followed)
    (step : Guarded DropsAlone ConnectionStep world label next) : Followed next := by
  rcases step with ⟨alone, step⟩
  cases step with
  | @registered pid key free =>
      rcases @quiet_of_told world pid followed (by rw [free]; rfl) with ⟨quiet, silent⟩
      refine @of_socket world (world.register pid key) pid followed
        (fun other different => Function.update_of_ne different _ _) (fun _ _ => rfl) rfl ?_ ?_ ?_
      · exact quiet ▸ List.nil_suffix
      · rintro user ⟨other, -, found | found⟩ - <;> simp [register, enter] at found
      · intro user holds
        exact absurd holds (silent user).2
  | @subscribed pid key present =>
      rcases @quiet_of_told world pid followed (by rw [present]; rfl) with ⟨quiet, silent⟩
      refine @of_socket world (world.subscribe pid key) pid followed
        (fun other different => Function.update_of_ne different _ _)
        (fun other different => Function.update_of_ne different _ _) rfl ?_ ?_ ?_
      · simp [subscribe, setCasts, enter, quiet, told]
      · intro user online empty
        simp [subscribe, setCasts] at empty
      · intro user holds
        exact absurd holds (silent user).2
  | @unregistered pid key present =>
      have order := followed.order pid
      have sameOnline : ∀ user, (world.unregister pid key).Online user pid ↔
          world.Online user pid := by
        intro user
        rw [@online_iff world pid user key (Or.inl present)]
        exact online_iff (Or.inr (Function.update_self _ _ _))
      refine @of_socket world (world.unregister pid key) pid followed
        (fun other different => Function.update_of_ne different _ _) (fun _ _ => rfl) rfl ?_ ?_ ?_
      · have told_ : told ((world.unregister pid key).sockets pid) =
            told (some (key, .connected)) := by
          simp [unregister, enter, told]
        rw [told_, ← present]
        exact order
      · intro user online quiet
        exact ⟨(sameOnline user).mp online, quiet⟩
      · rintro user (⟨online, quiet⟩ | waiting)
        · exact Or.inl ⟨(sameOnline user).mpr online, quiet⟩
        · exact Or.inr waiting
  | @unsubscribed pid key present =>
      have order := followed.order pid
      rw [present] at order
      have online : ∀ user, world.Online user pid ↔ key.user = user :=
        fun user => online_iff (Or.inr present)
      have ended : ∀ user, ¬(world.unsubscribe pid key).Online user pid :=
        fun user => @not_online_of_ended (world.unsubscribe pid key) pid user key
          (Function.update_self _ _ _)
      have castsNext : (world.unsubscribe pid key).casts pid =
          world.casts pid ++ [.unsubscribe key.user] := Function.update_self _ _ _
      refine @of_socket world (world.unsubscribe pid key) pid followed
        (fun other different => Function.update_of_ne different _ _)
        (fun other different => Function.update_of_ne different _ _) rfl ?_ ?_ ?_
      · rw [castsNext]
        have told_ : told ((world.unsubscribe pid key).sockets pid) =
            told (some (key, .leaving)) ++ [.unsubscribe key.user] := by
          simp [unsubscribe, setCasts, enter, told]
        rw [told_]
        exact List.suffix_append_self_iff.mpr order
      · intro user nextOnline
        exact absurd nextOnline (ended user)
      · rintro user (⟨wasOnline, quiet⟩ | waiting)
        · cases (online user).mp wasOnline
          exact Or.inr (by rw [castsNext, quiet]; rfl)
        · rw [waiting] at order
          simp [told, List.suffix_cons_iff] at order
  | handled waiting => exact followed.handle waiting alone

/-- Once all casts are handled, the consumer is subscribed for the users that are online. -/
theorem Followed.subscribed_iff (followed : world.Followed) (quiet : ∀ pid, world.casts pid = [])
    (user : Id16 × Id16) :
    (∃ sid, world.consumer.subjects sid = some (userSubject user)) ↔
      ∃ pid, world.Online user pid := by
  constructor
  · rintro ⟨sid, subscribed⟩
    rcases followed.consistent.owned sid _ subscribed with ⟨owner, entry, same⟩
    cases userSubject_injective same
    rcases followed.held user ⟨sid, entry⟩ with ⟨pid, ⟨online, -⟩ | waiting⟩
    · exact ⟨pid, online⟩
    · simp [quiet] at waiting
  · rintro ⟨pid, online⟩
    rcases followed.served user pid online (quiet pid) with ⟨sid, entry⟩
    exact ⟨sid, followed.consistent.entry user sid entry⟩

/-- Two subscriptions to one subject are one. -/
theorem Followed.sid_unique (followed : world.Followed) {left right : ℕ}
    (leftHeld : world.consumer.subjects left = some (userSubject user))
    (rightHeld : world.consumer.subjects right = some (userSubject user)) : left = right := by
  rcases followed.consistent.owned left _ leftHeld with ⟨leftOwner, leftEntry, leftSame⟩
  rcases followed.consistent.owned right _ rightHeld with ⟨rightOwner, rightEntry, rightSame⟩
  cases userSubject_injective (leftSame.symm.trans rightSame)
  exact Option.some.inj (leftEntry.symm.trans rightEntry)

/-- In every run in which no unsubscribe is handled while another connected socket of the
user has its subscribe handled: once all casts are handled, the consumer is subscribed for
exactly the users with a connected socket, and once for each. -/
theorem subscribed_iff_online {labels : List ConnectionLabel} {world : Connections}
    (run : Run (Guarded DropsAlone ConnectionStep) start labels world)
    (quiet : ∀ pid, world.casts pid = []) (user : Id16 × Id16) :
    ((∃ sid, world.consumer.subjects sid = some (userSubject user)) ↔
        ∃ pid, world.Online user pid) ∧
      ∀ left right, world.consumer.subjects left = some (userSubject user) →
        world.consumer.subjects right = some (userSubject user) → left = right := by
  have followed : Followed world :=
    run.invariant (fun followed step => Followed.step followed step) followed_start
  exact ⟨followed.subscribed_iff quiet user, fun left right => followed.sid_unique⟩

/-- An unsubscribe that is handled while another connected socket of the user has its
subscribe handled leaves that one without a subscription. -/
theorem not_subscribed_of_drop {label : ConnectionLabel}
    (step : ConnectionStep world label next) (notAlone : ¬world.DropsAlone label) :
    ∃ user pid, next.Online user pid ∧ next.casts pid = [] ∧ ¬next.consumer.Subscribed user := by
  cases step with
  | @handled pid cast later waiting =>
      simp only [DropsAlone, not_forall, not_not] at notAlone
      rcases notAlone with ⟨user, rest, drops, other, different, online, quiet⟩
      cases waiting.symm.trans drops
      refine ⟨user, other, online, (casts_handle_of_ne different).trans quiet, ?_⟩
      rw [consumer_handle, SyncConsumer.subscribed_unsubscribe]
      intro both
      exact both.1 rfl
  | _ => exact absurd trivial notAlone

/-! ### Two devices of a user -/

/-- A socket starts, and its subscribe is handled. -/
def connect (world : Connections) (pid : ℕ) (key : ConnectionKey) : Connections :=
  ((world.register pid key).subscribe pid key).handle pid (.subscribe key.user) []

theorem casts_subscribe (quiet : world.casts pid = []) :
    ((world.register pid key).subscribe pid key).casts pid = [.subscribe key.user] := by
  simp [subscribe, setCasts, enter, register, quiet]

theorem quiet_connect (quiet : ∀ pid, world.casts pid = []) (other : ℕ) :
    (world.connect pid key).casts other = [] := by
  by_cases same : other = pid
  · simp [connect, handle, setCasts, same]
  · simp [connect, handle, subscribe, register, setCasts, enter, same, quiet]

theorem run_connect (free : world.sockets pid = none) (quiet : world.casts pid = []) :
    Run (Guarded DropsAlone ConnectionStep) world
      ([] ++ [.registered pid key] ++ [.subscribed pid] ++ [.handled pid])
      (world.connect pid key) := by
  have registers := @ConnectionStep.registered world pid key free
  have subscribes := @ConnectionStep.subscribed (world.register pid key) pid key
    (Function.update_self _ _ _)
  have handles := ConnectionStep.handled (@casts_subscribe world pid key quiet)
  refine ((Run.refl.snoc ⟨trivial, registers⟩).snoc ⟨trivial, subscribes⟩).snoc ⟨?_, handles⟩
  intro user later drops
  cases (casts_subscribe quiet).symm.trans drops

/-- Two devices of one user have connected, and the first one has left again. -/
def firstLeft : Connections :=
  let both := (start.connect 0 (deviceKey 3)).connect 1 (deviceKey 4)
  (both.unregister 0 (deviceKey 3)).unsubscribe 0 (deviceKey 3)

theorem run_firstLeft : ∃ labels, Run ConnectionStep start labels firstLeft := by
  have first := @run_connect start 0 (deviceKey 3) rfl rfl
  have second := @run_connect (start.connect 0 (deviceKey 3)) 1 (deviceKey 4) rfl rfl
  have unregisters := @ConnectionStep.unregistered
    ((start.connect 0 (deviceKey 3)).connect 1 (deviceKey 4)) 0 (deviceKey 3) rfl
  have unsubscribes := @ConnectionStep.unsubscribed
    (((start.connect 0 (deviceKey 3)).connect 1 (deviceKey 4)).unregister 0 (deviceKey 3)) 0
    (deviceKey 3) rfl
  exact ⟨_, ((first.append second).of_guarded.snoc unregisters).snoc unsubscribes⟩

/-- The entries of the consumer are the subscriptions that NATS holds, in every run. -/
theorem consistent_of_run {labels : List ConnectionLabel} {world : Connections}
    (run : Run ConnectionStep start labels world) : world.consumer.Consistent := by
  induction run with
  | refl => exact SyncConsumer.consistent_start
  | snoc _ step consistent =>
      cases step with
      | handled waiting => exact consistent.handleCast _
      | _ => exact consistent

/-- The unsubscribe of the first device drops the subscription that the second one needs. -/
theorem unsubscribed_while_online :
    ¬∀ (labels : List ConnectionLabel) (world : Connections) (user : Id16 × Id16),
      Run ConnectionStep start labels world → (∀ pid, world.casts pid = []) →
        ((∃ sid, world.consumer.subjects sid = some (userSubject user)) ↔
            ∃ pid, world.Online user pid) ∧
          ∀ left right, world.consumer.subjects left = some (userSubject user) →
            world.consumer.subjects right = some (userSubject user) → left = right := by
  intro exactly
  rcases run_firstLeft with ⟨labels, run⟩
  have drops := @ConnectionStep.handled firstLeft 0 (.unsubscribe (deviceKey 3).user) [] rfl
  have notAlone : ¬firstLeft.DropsAlone (.handled 0) := by
    intro alone
    exact alone (deviceKey 3).user [] rfl 1 (by decide) ⟨deviceKey 4, rfl, Or.inl rfl⟩ rfl
  have quiet : ∀ pid, (firstLeft.handle 0 (.unsubscribe (deviceKey 3).user) []).casts pid = [] := by
    intro pid
    by_cases same : pid = 0
    · rw [same, casts_handle_self]
    · rw [casts_handle_of_ne same, firstLeft]
      refine (Function.update_of_ne same _ _).trans ?_
      exact quiet_connect (quiet_connect fun _ => rfl) pid
  rcases not_subscribed_of_drop drops notAlone with ⟨user, pid, online, -, dropped⟩
  rcases (exactly _ _ user (run.snoc drops) quiet).1.mpr ⟨pid, online⟩ with ⟨sid, held⟩
  rcases (consistent_of_run (run.snoc drops)).owned sid _ held with ⟨owner, entry, same⟩
  cases userSubject_injective same
  exact dropped ⟨sid, entry⟩

/-- One device leaves, and its unsubscribe is handled while the subscribe of another one of the
user, which has connected, is still to be handled. -/
theorem subscribed_iff_online_of_two :
    ∃ labels world, Run (Guarded DropsAlone ConnectionStep) start labels world ∧
      world.sockets 0 = some (deviceKey 3, .ended) ∧
      world.sockets 1 = some (deviceKey 4, .connected) ∧
        (((∃ sid, world.consumer.subjects sid = some (userSubject (deviceKey 3).user)) ↔
            ∃ pid, world.Online (deviceKey 3).user pid) ∧
          ∀ left right, world.consumer.subjects left = some (userSubject (deviceKey 3).user) →
            world.consumer.subjects right = some (userSubject (deviceKey 3).user) →
              left = right) := by
  have run : ∃ labels world, Run (Guarded DropsAlone ConnectionStep) start labels world ∧
      world.sockets 0 = some (deviceKey 3, .ended) ∧
      world.sockets 1 = some (deviceKey 4, .connected) ∧ ∀ pid, world.casts pid = [] := by
    refine Run.exists_cons (.intro (@ConnectionStep.registered _ 0 (deviceKey 3) rfl) trivial) ?_
    refine Run.exists_cons (.intro (@ConnectionStep.subscribed _ 0 (deviceKey 3) rfl) trivial) ?_
    refine Run.exists_cons (.intro (@ConnectionStep.handled _ 0 _ [] rfl) ?_) ?_
    · rintro user later ⟨⟩
    refine Run.exists_cons (.intro (@ConnectionStep.unregistered _ 0 (deviceKey 3) rfl) trivial) ?_
    refine Run.exists_cons (.intro (@ConnectionStep.unsubscribed _ 0 (deviceKey 3) rfl) trivial) ?_
    refine Run.exists_cons (.intro (@ConnectionStep.registered _ 1 (deviceKey 4) rfl) trivial) ?_
    refine Run.exists_cons (.intro (@ConnectionStep.subscribed _ 1 (deviceKey 4) rfl) trivial) ?_
    refine Run.exists_cons (.intro (@ConnectionStep.handled _ 0 _ [] rfl) ?_) ?_
    · -- only device 1 is online, and its subscribe waits
      rintro user later - other different ⟨key, -, present⟩
      by_cases second : other = 1
      · subst second
        exact List.cons_ne_nil _ _
      · simp [subscribe, register, unsubscribe, unregister, handle, setCasts, enter, start, second,
          different] at present
    refine Run.exists_cons (.intro (@ConnectionStep.handled _ 1 _ [] rfl) ?_) ?_
    · rintro user later ⟨⟩
    refine ⟨[], _, Run.refl, rfl, rfl, fun pid => ?_⟩
    by_cases first : pid = 0
    · subst first
      rfl
    · by_cases second : pid = 1
      · subst second
        rfl
      · simp [subscribe, register, unsubscribe, unregister, handle, setCasts, enter, start, first,
          second]
  rcases run with ⟨labels, world, run, left, stays, quiet⟩
  exact ⟨labels, world, run, left, stays, subscribed_iff_online run quiet (deviceKey 3).user⟩

end Connections

end Mercury.Gateway
