import Mathlib.Algebra.Order.Group.Nat
import Mathlib.Data.List.Range
import Mercury.Foundations.ExpiringCounter
import Mercury.Gateway.Storage
import Mercury.Gateway.Tenancy

/-!
# The rate limiter

Calls of `RateLimiter.allow?` for any users, one after the other, on a cache that
carries out each pipeline of `INCR` and `EXPIRE`. A call renews the deadline of the
counter that it finds, so no window of a second allows more than the rate
(`allowed_in_window`), but a burst of calls that never pauses for a second is counted
as a whole, however long it is (`allowed_iff_no_long_burst`).
-/

namespace Mercury.Gateway.RateLimiter

open Foundations Foundations.Program Persistence

def defaultRate : ℕ := 100

/-- `allow?`, where `configured` is the `default_rate` of the application's environment. -/
def isAllowed (configured : Option ℕ) (tenantId userId : Bytes) : Stored Bool :=
  Cache.rateCheck tenantId userId (configured.getD defaultRate)

/-! ## Calls on a cache -/

/-- The second of `EXPIRE`, in milliseconds. -/
def lifetime : ℕ := 1000

/-- The greatest integer of Redis, beyond which `INCR` is an error. -/
def maxInteger : ℕ := 2 ^ 63 - 1

/-- The counters of the cache, and its clock in milliseconds. -/
structure RateCache where
  counters : Bytes → Option (Counter ℕ)
  now : ℕ

/-- The cache carries out a pipeline of `INCR` and `EXPIRE` at `now`. -/
inductive Counted (expiry : Expiry) (now : ℕ) : (Bytes → Option (Counter ℕ)) →
    Performed commands Raise → (Bytes → Option (Counter ℕ)) → Prop where
  | incr {counters : Bytes → Option (Counter ℕ)} {key : Bytes} :
      Counted expiry now counters
        ⟨.incr key,
          .ok (.ok (Counter.reply maxInteger (Counter.found expiry now (counters key))))⟩
        (Function.update counters key
          (some (Counter.after expiry maxInteger lifetime now (counters key))))

/-- A call of `allow?`, when it was and what it returned. -/
structure AllowCall where
  tenantId : Bytes
  userId : Bytes
  time : ℕ
  allowed : Bool
deriving DecidableEq

/-- A call is made and returns. -/
structure AllowStep (expiry : Expiry) (configured : Option ℕ) (cache : RateCache)
    (call : AllowCall) (target : RateCache) : Prop where
  notEarlier : cache.now ≤ call.time
  now : target.now = call.time
  returns : ∃ made,
    (isAllowed configured call.tenantId call.userId).Performs made (.ok call.allowed) ∧
      Run (Counted expiry call.time) cache.counters made target.counters

def AllowCall.IsOf (tenantId userId : Bytes) (call : AllowCall) : Prop :=
  call.tenantId = tenantId ∧ call.userId = userId

instance (tenantId userId : Bytes) (call : AllowCall) : Decidable (call.IsOf tenantId userId) :=
  inferInstanceAs (Decidable (_ ∧ _))

/-- The calls of one user. -/
def callsOf (tenantId userId : Bytes) (calls : List AllowCall) : List AllowCall :=
  calls.filter fun call => call.IsOf tenantId userId

def timesOf (tenantId userId : Bytes) (calls : List AllowCall) : List ℕ :=
  (callsOf tenantId userId calls).map AllowCall.time

section

variable {expiry : Expiry} {configured : Option ℕ} {cache source target : RateCache}
  {call : AllowCall} {calls : List AllowCall}

/-- What a call does to the counters, and what it returns. -/
theorem AllowStep.spec (step : AllowStep expiry configured cache call target) :
    let counter := cache.counters (Cache.rateKey call.tenantId call.userId)
    target.counters = Function.update cache.counters (Cache.rateKey call.tenantId call.userId)
        (some (Counter.after expiry maxInteger lifetime call.time counter)) ∧
      call.allowed = (Counter.reply maxInteger (Counter.found expiry call.time counter)).any
        fun count => count ≤ configured.getD defaultRate := by
  rcases step.returns with ⟨made, performs, run⟩
  rcases performs with ⟨answer, later, rfl, performs⟩
  rcases run.uncons with ⟨middle, counted, run⟩
  cases counted with
  | incr =>
      refine And.symm ⟨?_, ?_⟩
      · generalize Counter.reply maxInteger _ = reply at performs ⊢
        rcases reply with _ | count
        · exact Except.ok.inj performs.2
        · exact Except.ok.inj performs.2
      · have ends : later = [] := by
          generalize Counter.reply maxInteger _ = reply at performs
          rcases reply with _ | count
          · exact performs.1
          · exact performs.1
        subst ends
        exact run.nil.symm

/-- A call, from what it finds. -/
theorem exists_step (expiry : Expiry) (configured : Option ℕ) (cache : RateCache)
    (tenantId userId : Bytes) {now : ℕ} (notEarlier : cache.now ≤ now) :
    ∃ allowed target,
      AllowStep expiry configured cache ⟨tenantId, userId, now, allowed⟩ target := by
  let counter := cache.counters (Cache.rateKey tenantId userId)
  refine ⟨(Counter.reply maxInteger (Counter.found expiry now counter)).any
    fun count => count ≤ configured.getD defaultRate, ⟨_, now⟩, notEarlier, rfl, _, ?_,
    Run.refl.snoc (@Counted.incr expiry now cache.counters (Cache.rateKey tenantId userId))⟩
  refine ⟨_, [], rfl, ?_⟩
  generalize Counter.reply maxInteger _ = reply
  rcases reply with _ | count
  · exact ⟨rfl, rfl⟩
  · exact ⟨rfl, rfl⟩

/-! ## The calls of one user -/

/-- A call, as what its increase says about it. -/
def verdict (rate : ℕ) (increase : Increase ℕ) : ℕ × Bool :=
  (increase.time, increase.reply.any fun count => count ≤ rate)

variable {tenantId userId : Bytes}

/-- The calls of a user are the increases of the user's counter. -/
structure Tracked (expiry : Expiry) (rate : ℕ) (tenantId userId : Bytes)
    (counter : Option (Counter ℕ)) (calls : List AllowCall) (cache : RateCache) : Prop where
  kept : cache.counters (Cache.rateKey tenantId userId) =
    Counter.afterAll expiry maxInteger lifetime counter (timesOf tenantId userId calls)
  verdicts : (callsOf tenantId userId calls).map (fun call => (call.time, call.allowed)) =
    (Counter.increases expiry maxInteger lifetime counter (timesOf tenantId userId calls)).map
      (verdict rate)
  sorted : (timesOf tenantId userId calls).Pairwise (· ≤ ·)
  passed : ∀ call ∈ calls, call.time ≤ cache.now

theorem Tracked.step {counter : Option (Counter ℕ)}
    (tracked : Tracked expiry (configured.getD defaultRate) tenantId userId counter calls cache)
    (step : AllowStep expiry configured cache call target) :
    Tracked expiry (configured.getD defaultRate) tenantId userId counter (calls ++ [call])
      target := by
  rcases step.spec with ⟨counters, allowed⟩
  have passed : ∀ other ∈ calls ++ [call], other.time ≤ target.now := by
    intro other otherMem
    rw [step.now]
    rcases List.mem_append.mp otherMem with earlier | same
    · exact (tracked.passed other earlier).trans step.notEarlier
    · exact le_of_eq (congrArg AllowCall.time (List.mem_singleton.mp same))
  by_cases own : call.IsOf tenantId userId
  · have times : timesOf tenantId userId (calls ++ [call]) =
        timesOf tenantId userId calls ++ [call.time] := by
      simp [timesOf, callsOf, own]
    have same : Cache.rateKey call.tenantId call.userId = Cache.rateKey tenantId userId := by
      rw [own.1, own.2]
    rw [same] at counters allowed
    refine ⟨?_, ?_, ?_, passed⟩
    · rw [counters, times, Counter.afterAll_append_singleton, Function.update_self,
        tracked.kept]
    · rw [times, Counter.increases_append, List.map_append, ← tracked.verdicts,
        ← tracked.kept, callsOf, List.filter_append, List.map_append]
      simp [callsOf, own, verdict, allowed, Counter.increases]
    · rw [times]
      refine List.pairwise_append.mpr ⟨tracked.sorted, List.pairwise_singleton .., ?_⟩
      intro time timeMem now nowMem
      rcases List.mem_map.mp timeMem with ⟨other, otherMem, rfl⟩
      rw [List.mem_singleton.mp nowMem]
      exact (tracked.passed other (List.mem_filter.mp otherMem).1).trans step.notEarlier
  · have foreign : callsOf tenantId userId (calls ++ [call]) = callsOf tenantId userId calls := by
      simp [callsOf, own]
    have sameTimes : timesOf tenantId userId (calls ++ [call]) = timesOf tenantId userId calls := by
      rw [timesOf, foreign, timesOf]
    refine ⟨?_, ?_, ?_, passed⟩
    · rw [counters, Function.update_of_ne, tracked.kept, sameTimes]
      intro same
      rcases @cacheKey_injective .rate .rate _ _ _ _ same with ⟨-, tenant, user⟩
      exact own ⟨tenant.symm, user.symm⟩
    · rw [foreign, sameTimes, tracked.verdicts]
    · rw [sameTimes]
      exact tracked.sorted

theorem tracked_of_run (run : Run (AllowStep expiry configured) source calls target) :
    Tracked expiry (configured.getD defaultRate) tenantId userId
      (source.counters (Cache.rateKey tenantId userId)) calls target := by
  induction run with
  | refl => exact ⟨rfl, rfl, List.Pairwise.nil, by simp⟩
  | snoc _ last ih => exact ih.step last

/-- In every half-open window of a second, at most as many calls of a user as the rate
are allowed. -/
theorem allowed_in_window (run : Run (AllowStep expiry configured) source calls target)
    (tenantId userId : Bytes) (start : ℕ) :
    calls.countP (fun call => call.IsOf tenantId userId ∧ call.allowed ∧
      start ≤ call.time ∧ call.time < start + 1000) ≤ configured.getD defaultRate := by
  have tracked := @tracked_of_run _ _ _ _ _ tenantId userId run
  let inWindow : ℕ × Bool → Bool := fun call =>
    call.2 ∧ start ≤ call.1 ∧ call.1 < start + 1000
  calc calls.countP (fun call => call.IsOf tenantId userId ∧ call.allowed ∧
        start ≤ call.time ∧ call.time < start + 1000)
      = (callsOf tenantId userId calls).countP
          (fun call => inWindow (call.time, call.allowed)) := by
        rw [callsOf, List.countP_filter]
        apply List.countP_congr
        intro call _
        simp [inWindow, and_comm, and_assoc]
    _ = ((Counter.increases expiry maxInteger lifetime _ (timesOf tenantId userId calls)).map
          (verdict (configured.getD defaultRate))).countP inWindow := by
        rw [← tracked.verdicts, List.countP_map]
        rfl
    _ = (Counter.increases expiry maxInteger lifetime _ (timesOf tenantId userId calls)).countP
          (fun increase => Counter.IsSmall (configured.getD defaultRate) start (start + lifetime)
            increase) := by
        rw [List.countP_map]
        apply List.countP_congr
        intro increase _
        refine Iff.trans decide_eq_true_iff (Iff.trans ?_ decide_eq_true_iff.symm)
        exact ⟨fun ⟨small, late, early⟩ => ⟨late, early, small⟩,
          fun ⟨late, early, small⟩ => ⟨small, late, early⟩⟩
    _ ≤ configured.getD defaultRate := Counter.countP_isSmall_le tracked.sorted _ start

/-- All calls of a user whose counter was not there before are allowed exactly where no
burst of them is longer than the rate. -/
theorem Tracked.allowed_iff {rate : ℕ}
    (tracked : Tracked expiry rate tenantId userId none calls cache) :
    (∀ call ∈ calls, call.tenantId = tenantId → call.userId = userId → call.allowed) ↔
      ∀ burst, burst <:+: timesOf tenantId userId calls →
        burst.IsChain (Counter.Linked expiry lifetime) → burst.length ≤ min rate maxInteger := by
  refine Iff.trans ?_ Counter.replies_small_iff
  calc (∀ call ∈ calls, call.tenantId = tenantId → call.userId = userId → call.allowed)
      ↔ ∀ call ∈ (callsOf tenantId userId calls).map fun call => (call.time, call.allowed),
          call.2 = true := by
        rw [List.forall_mem_map]
        refine ⟨fun allowed call own => ?_, fun allowed call callMem tenant user =>
          allowed call (List.mem_filter.mpr ⟨callMem, decide_eq_true ⟨tenant, user⟩⟩)⟩
        rcases List.mem_filter.mp own with ⟨callMem, isOf⟩
        exact allowed call callMem (of_decide_eq_true isOf).1 (of_decide_eq_true isOf).2
    _ ↔ ∀ increase ∈ Counter.increases expiry maxInteger lifetime none
            (timesOf tenantId userId calls), (verdict rate increase).2 = true := by
        rw [tracked.verdicts, List.forall_mem_map]

/-- From a user's first call on, all of the user's calls are allowed exactly where no
burst of them, each within a second of the one before, is longer than the rate. -/
theorem allowed_iff_no_long_burst (run : Run (AllowStep expiry configured) source calls target)
    (tenantId userId : Bytes)
    (first : source.counters (Cache.rateKey tenantId userId) = none) :
    (∀ call ∈ calls, call.tenantId = tenantId → call.userId = userId → call.allowed) ↔
      ∀ burst, burst <:+: timesOf tenantId userId calls →
        burst.IsChain (fun before now => ¬expiry.Gone (before + 1000) now) →
          burst.length ≤ min (configured.getD defaultRate) maxInteger := by
  have tracked := @tracked_of_run _ _ _ _ _ tenantId userId run
  rw [first] at tracked
  exact tracked.allowed_iff

/-! ## Steady calls -/

/-- No calls have been made. -/
def RateCache.start : RateCache where
  counters _ := none
  now := 0

theorem exists_run (expiry : Expiry) (configured : Option ℕ) (tenantId userId : Bytes)
    {times : List ℕ} (cache : RateCache) (sorted : times.Pairwise (· ≤ ·))
    (later : ∀ time ∈ times, cache.now ≤ time) :
    ∃ calls target, Run (AllowStep expiry configured) cache calls target ∧
      timesOf tenantId userId calls = times := by
  induction times generalizing cache with
  | nil => exact ⟨[], cache, Run.refl, rfl⟩
  | cons now rest ih =>
      rcases exists_step expiry configured cache tenantId userId (later now (by simp)) with
        ⟨allowed, middle, step⟩
      rcases List.pairwise_cons.mp sorted with ⟨first, sorted⟩
      rcases ih middle sorted (fun time timeMem => step.now ▸ first time timeMem) with
        ⟨calls, target, run, timesEq⟩
      refine ⟨_, target, Run.cons step run, ?_⟩
      rw [timesOf, callsOf, List.filter_cons_of_pos (by simp [AllowCall.IsOf]), List.map_cons]
      exact congrArg (now :: ·) timesEq

/-- A call every ten milliseconds, for a second. -/
def steadyTimes : List ℕ :=
  (List.range 101).map fun count => 10 * count

theorem steadyTimes_linked :
    steadyTimes.IsChain (Counter.Linked .afterDeadline lifetime) := by
  refine (List.isChain_map _).mpr ((List.isChain_range_succ _ 100).mpr fun count _ gone => ?_)
  have late : 10 * count + 1000 < 10 * (count + 1) := gone
  omega

/-- A user who makes a call every ten milliseconds, never more than the default rate in a
second, is denied. -/
theorem steady_calls_denied :
    ¬∀ (calls : List AllowCall) (target : RateCache) (tenantId userId : Bytes),
      Run (AllowStep .afterDeadline none) RateCache.start calls target →
        (∀ start, (timesOf tenantId userId calls).countP
          (fun time => start ≤ time ∧ time < start + 1000) ≤ defaultRate) →
        ∀ call ∈ calls, call.tenantId = tenantId → call.userId = userId → call.allowed := by
  intro slowAllowed
  let tenantId := (Id16.replicate 1).val
  let userId := (Id16.replicate 2).val
  rcases exists_run .afterDeadline none tenantId userId .start
    (show steadyTimes.Pairwise (· ≤ ·) by decide) (fun time _ => Nat.zero_le time) with
    ⟨calls, target, run, times⟩
  have spread : ∀ start, steadyTimes.countP
      (fun time => start ≤ time ∧ time < start + 1000) ≤ defaultRate := by
    intro start
    refine Nat.le_of_lt_succ (lt_of_le_of_ne List.countP_le_length fun all => ?_)
    have within := List.countP_eq_length.mp all
    have first := of_decide_eq_true (within 0 (by decide))
    have last := of_decide_eq_true (within 1000 (by decide))
    omega
  have tracked : Tracked .afterDeadline defaultRate tenantId userId none calls target :=
    tracked_of_run run
  have allowed := slowAllowed calls target tenantId userId run (times ▸ spread)
  have short := tracked.allowed_iff.mp allowed steadyTimes (times ▸ List.infix_rfl)
    steadyTimes_linked
  exact absurd short (by decide)

/-- Two calls half a second apart, at a rate of one call. -/
theorem allowed_in_window_of_two :
    ∃ calls target, Run (AllowStep .afterDeadline (some 1)) RateCache.start calls target ∧
      timesOf (Id16.replicate 1).val (Id16.replicate 2).val calls = [0, 500] ∧
        calls.countP (fun call => call.IsOf (Id16.replicate 1).val (Id16.replicate 2).val ∧
          call.allowed ∧ 0 ≤ call.time ∧ call.time < 0 + 1000) ≤ 1 := by
  rcases exists_run .afterDeadline (some 1) (Id16.replicate 1).val (Id16.replicate 2).val .start
    (show [0, 500].Pairwise (· ≤ ·) by decide) (fun time _ => Nat.zero_le time) with
    ⟨calls, target, run, times⟩
  exact ⟨calls, target, run, times, allowed_in_window run _ _ 0⟩

/-- A hundred calls ten milliseconds apart, a pause of two seconds, and a hundred more. -/
def pausedTimes : List ℕ :=
  (List.range 100).map (fun count => 10 * count) ++
    (List.range 100).map fun count => 3000 + 10 * count

/-- A burst of these calls does not go beyond the pause. -/
theorem length_burst_le {burst : List ℕ} (isInfix : burst <:+: pausedTimes)
    (linked : burst.IsChain fun before now => ¬Expiry.afterDeadline.Gone (before + 1000) now) :
    burst.length ≤ 100 := by
  rcases isInfix with ⟨before, after, times⟩
  have total : before.length + burst.length + after.length = 200 := by
    have lengths := congrArg List.length times
    rwa [List.length_append, List.length_append] at lengths
  by_contra long
  have inBurst : ∀ position, before.length ≤ position →
      position < before.length + burst.length →
        burst[position - before.length]? = pausedTimes[position]? := by
    intro position low high
    rw [← times, List.getElem?_append_left (by rw [List.length_append]; exact high),
      List.getElem?_append_right low]
  have last : burst[99 - before.length]? = some 990 := inBurst 99 (by omega) (by omega)
  have next : burst[99 - before.length + 1]? = some 3000 := by
    rw [← Nat.sub_add_comm (by omega)]
    exact inBurst 100 (by omega) (by omega)
  rcases List.getElem?_eq_some_iff.mp last with ⟨_, lastEq⟩
  rcases List.getElem?_eq_some_iff.mp next with ⟨nextLt, nextEq⟩
  have together := List.isChain_iff_getElem.mp linked _ nextLt
  rw [lastEq, nextEq] at together
  exact together (by decide)

/-- At the default rate all of these calls are allowed. -/
theorem allowed_of_pause :
    ∃ calls target, Run (AllowStep .afterDeadline none) RateCache.start calls target ∧
      timesOf (Id16.replicate 1).val (Id16.replicate 2).val calls = pausedTimes ∧
        ∀ call ∈ calls, call.tenantId = (Id16.replicate 1).val →
          call.userId = (Id16.replicate 2).val → call.allowed := by
  rcases exists_run .afterDeadline none (Id16.replicate 1).val (Id16.replicate 2).val .start
    (show pausedTimes.Pairwise (· ≤ ·) by decide +kernel) (fun time _ => Nat.zero_le time) with
    ⟨calls, target, run, times⟩
  refine ⟨calls, target, run, times, ?_⟩
  apply (allowed_iff_no_long_burst run _ _ rfl).mpr
  intro burst isInfix linked
  rw [times] at isInfix
  exact length_burst_le isInfix linked

end

end Mercury.Gateway.RateLimiter
