import Mathlib.Algebra.Order.Monoid.Unbundled.Basic
import Mathlib.Data.Finset.Card
import Mathlib.Data.List.Chain
import Mathlib.Data.List.Infix
import Mathlib.Data.List.Nodup
import Mathlib.Order.Interval.Finset.Nat

/-!
# Counters that expire

A counter that is increased and given a new deadline in one step, and that is gone
once its deadline has passed. Between two increases that are closer than the
lifetime it does not expire, so its replies grow, and few of them are small
(`countP_isSmall_le`). Its reply is the length of the burst that ends there,
of increases each of which finds the counter that the one before has left
(`replies_small_iff`).
-/

namespace Foundations

variable {Time : Type} [LinearOrder Time]

/-- When a counter is gone: at its deadline, or only after it. -/
inductive Expiry where
  | atDeadline
  | afterDeadline
deriving DecidableEq

def Expiry.Gone (expiry : Expiry) (deadline now : Time) : Prop :=
  match expiry with
  | .atDeadline => deadline ≤ now
  | .afterDeadline => deadline < now

instance (expiry : Expiry) (deadline now : Time) : Decidable (expiry.Gone deadline now) :=
  match expiry with
  | .atDeadline => inferInstanceAs (Decidable (deadline ≤ now))
  | .afterDeadline => inferInstanceAs (Decidable (deadline < now))

theorem Expiry.Gone.le {expiry : Expiry} {deadline now : Time} (gone : expiry.Gone deadline now) :
    deadline ≤ now := by
  cases expiry with
  | atDeadline => exact gone
  | afterDeadline => exact le_of_lt gone

structure Counter (Time : Type) where
  value : ℕ
  deadline : Time

/-- An increase: when it was, and the value it replied, unless the counter was at its maximum. -/
structure Increase (Time : Type) where
  time : Time
  reply : Option ℕ

namespace Counter

/-- The value that is found at `now`. -/
def found (expiry : Expiry) (now : Time) : Option (Counter Time) → ℕ
  | none => 0
  | some counter => if expiry.Gone counter.deadline now then 0 else counter.value

/-- The reply to an increase that finds `value`. -/
def reply (maximum value : ℕ) : Option ℕ :=
  if value < maximum then some (value + 1) else none

/-- The value that an increase leaves where it finds `value`. -/
def increased (maximum value : ℕ) : ℕ :=
  if value < maximum then value + 1 else value

theorem le_increased {maximum value : ℕ} : value ≤ increased maximum value := by
  unfold increased
  split <;> omega

theorem increased_le_succ (maximum value : ℕ) : increased maximum value ≤ value + 1 := by
  unfold increased
  split <;> omega

theorem increased_eq_of_reply {maximum value replied : ℕ}
    (some : reply maximum value = some replied) :
    replied = value + 1 ∧ increased maximum value = value + 1 := by
  unfold reply at some
  unfold increased
  split at some
  · next below => exact ⟨(Option.some.inj some).symm, if_pos below⟩
  · cases some

variable [Add Time] (expiry : Expiry) (maximum : ℕ) (lifetime : Time)

/-- The counter after an increase at `now`. -/
def after (now : Time) (counter : Option (Counter Time)) : Counter Time where
  value := increased maximum (found expiry now counter)
  deadline := now + lifetime

/-- The increases at the given times, in this order. -/
def increases : Option (Counter Time) → List Time → List (Increase Time)
  | _, [] => []
  | counter, now :: later =>
      ⟨now, reply maximum (found expiry now counter)⟩ ::
        increases (some (after expiry maximum lifetime now counter)) later

/-- The counter after increases at the given times. -/
def afterAll (counter : Option (Counter Time)) (times : List Time) : Option (Counter Time) :=
  times.foldl (fun counter now => some (after expiry maximum lifetime now counter)) counter

variable {expiry maximum lifetime} {counter : Option (Counter Time)}

theorem increases_append (earlier later : List Time) :
    increases expiry maximum lifetime counter (earlier ++ later) =
      increases expiry maximum lifetime counter earlier ++
        increases expiry maximum lifetime (afterAll expiry maximum lifetime counter earlier)
          later := by
  induction earlier generalizing counter with
  | nil => rfl
  | cons now rest ih =>
      simp only [List.cons_append, increases, ih]
      rfl

theorem afterAll_append_singleton (earlier : List Time) (now : Time) :
    afterAll expiry maximum lifetime counter (earlier ++ [now]) =
      some (after expiry maximum lifetime now
        (afterAll expiry maximum lifetime counter earlier)) := by
  simp [afterAll]

theorem map_time_increases (times : List Time) :
    (increases expiry maximum lifetime counter times).map Increase.time = times := by
  induction times generalizing counter with
  | nil => rfl
  | cons now later ih => simp only [increases, List.map_cons, ih]

theorem reply_pos {times : List Time} {increase : Increase Time}
    (increaseMem : increase ∈ increases expiry maximum lifetime counter times) (replied : ℕ)
    (replies : increase.reply = some replied) : 0 < replied := by
  induction times generalizing counter with
  | nil => cases increaseMem
  | cons now later ih =>
      rcases List.mem_cons.mp increaseMem with rfl | laterMem
      · have next := (increased_eq_of_reply replies).1
        omega
      · exact ih laterMem

/-! ## Growing replies -/

section Grows

variable [AddRightMono Time]

/-- Until its deadline a counter only grows. -/
theorem lt_of_mem_increases {times : List Time} {kept : Counter Time}
    (lives : ∀ now ∈ times, kept.deadline ≤ now + lifetime) (sorted : times.Pairwise (· ≤ ·))
    {increase : Increase Time} {replied : ℕ}
    (increaseMem : increase ∈ increases expiry maximum lifetime (some kept) times)
    (early : increase.time < kept.deadline) (replies : increase.reply = some replied) :
    kept.value < replied := by
  induction times generalizing kept with
  | nil => cases increaseMem
  | cons now later ih =>
      rcases List.pairwise_cons.mp sorted with ⟨first, sorted⟩
      have notLater : now ≤ increase.time := by
        have timeMem : increase.time ∈ now :: later := by
          rw [← map_time_increases (now :: later)]
          exact List.mem_map_of_mem increaseMem
        rcases List.mem_cons.mp timeMem with same | later
        · exact le_of_eq same.symm
        · exact first _ later
      have present : found expiry now (some kept) = kept.value :=
        if_neg fun gone => absurd (gone.le.trans notLater) (not_le_of_gt early)
      rcases List.mem_cons.mp increaseMem with rfl | increaseMem
      · rw [present] at replies
        have next := (increased_eq_of_reply replies).1
        omega
      · have grown : kept.value ≤ (after expiry maximum lifetime now (some kept)).value := by
          rw [after, present]
          exact le_increased
        refine lt_of_le_of_lt grown (ih ?_ sorted increaseMem ?_)
        · intro other otherMem
          exact add_le_add_left (first other otherMem) lifetime
        · exact early.trans_le (lives now (by simp))

/-- Of two increases within the lifetime, the later one replies more. -/
theorem pairwise_increases {times : List Time} (sorted : times.Pairwise (· ≤ ·)) :
    (increases expiry maximum lifetime counter times).Pairwise fun first second =>
      second.time < first.time + lifetime → ∀ left ∈ first.reply, ∀ right ∈ second.reply,
        left < right := by
  induction times generalizing counter with
  | nil => exact List.Pairwise.nil
  | cons now later ih =>
      rcases List.pairwise_cons.mp sorted with ⟨first, sorted⟩
      refine List.pairwise_cons.mpr ⟨?_, ih sorted⟩
      intro second secondMem early left leftEq right rightEq
      have next := increased_eq_of_reply leftEq
      refine lt_of_le_of_lt ?_ (lt_of_mem_increases ?_ sorted secondMem early rightEq)
      · rw [after, next.2, next.1]
      · intro other otherMem
        exact add_le_add_left (first other otherMem) lifetime

/-- The increase is from `start` on and before `stop`, and replies at most `limit`. -/
def IsSmall (limit : ℕ) (start stop : Time) (increase : Increase Time) : Prop :=
  start ≤ increase.time ∧ increase.time < stop ∧ increase.reply.any fun replied => replied ≤ limit

instance (limit : ℕ) (start stop : Time) (increase : Increase Time) :
    Decidable (IsSmall limit start stop increase) :=
  inferInstanceAs (Decidable (_ ∧ _ ∧ _))

/-- In every window of the length of the lifetime, at most `limit` increases reply at
most `limit`. -/
theorem countP_isSmall_le {times : List Time} (sorted : times.Pairwise (· ≤ ·))
    (limit : ℕ) (start : Time) :
    (increases expiry maximum lifetime counter times).countP
      (fun increase => IsSmall limit start (start + lifetime) increase) ≤ limit := by
  rw [List.countP_eq_length_filter]
  let small := (increases expiry maximum lifetime counter times).filter
    fun increase => IsSmall limit start (start + lifetime) increase
  have small_of_mem : ∀ increase ∈ small, start ≤ increase.time ∧
      increase.time < start + lifetime ∧ ∃ replied ≤ limit, increase.reply = some replied := by
    intro increase increaseMem
    have kept := (List.mem_filter.mp increaseMem).2
    simp only [IsSmall, decide_eq_true_eq, Option.any_eq_true] at kept
    rcases kept with ⟨late, early, replied, replies, isSmall⟩
    exact ⟨late, early, replied, isSmall, replies⟩
  have positive : ∀ increase ∈ small, ∀ replied, increase.reply = some replied → 0 < replied := by
    intro increase increaseMem
    exact reply_pos (List.mem_filter.mp increaseMem).1
  have grows : (small.map fun increase => increase.reply.getD 0).Pairwise (· < ·) := by
    refine List.pairwise_map.mpr (List.Pairwise.imp_of_mem ?_
      (List.Pairwise.filter _ (pairwise_increases sorted)))
    intro first second firstMem secondMem growing
    rcases small_of_mem first firstMem with ⟨late, -, left, -, leftEq⟩
    rcases small_of_mem second secondMem with ⟨-, early, right, -, rightEq⟩
    have near : second.time < first.time + lifetime :=
      early.trans_le (add_le_add_left late lifetime)
    simpa [leftEq, rightEq] using growing near left leftEq right rightEq
  have within : ∀ value ∈ small.map fun increase => increase.reply.getD 0,
      value ∈ Finset.Icc 1 limit := by
    intro value valueMem
    rcases List.mem_map.mp valueMem with ⟨increase, increaseMem, rfl⟩
    rcases small_of_mem increase increaseMem with ⟨-, -, replied, isSmall, replies⟩
    rw [replies, Option.getD_some, Finset.mem_Icc]
    exact ⟨positive increase increaseMem replied replies, isSmall⟩
  have distinct : (small.map fun increase => increase.reply.getD 0).Nodup :=
    grows.imp fun less => ne_of_lt less
  calc small.length = (small.map fun increase => increase.reply.getD 0).toFinset.card := by
        rw [List.toFinset_card_of_nodup distinct, List.length_map]
    _ ≤ (Finset.Icc 1 limit).card :=
        Finset.card_le_card fun value valueMem => within value (List.mem_toFinset.mp valueMem)
    _ = limit := by rw [Nat.card_Icc, Nat.add_sub_cancel]

end Grows

/-! ## Bursts -/

/-- An increase at `now` finds the counter that one at `before` has left. -/
def Linked (expiry : Expiry) (lifetime before now : Time) : Prop :=
  ¬expiry.Gone (before + lifetime) now

instance (expiry : Expiry) (lifetime before now : Time) :
    Decidable (Linked expiry lifetime before now) :=
  inferInstanceAs (Decidable (¬_))

/-- What an increase at `now` finds after increases at the given times. -/
def foundAfter (expiry : Expiry) (maximum : ℕ) (lifetime : Time) (times : List Time)
    (now : Time) : ℕ :=
  found expiry now (afterAll expiry maximum lifetime none times)

theorem foundAfter_append_singleton (earlier : List Time) (before now : Time) :
    foundAfter expiry maximum lifetime (earlier ++ [before]) now =
      if expiry.Gone (before + lifetime) now then 0
      else increased maximum (foundAfter expiry maximum lifetime earlier before) := by
  rw [foundAfter, afterAll_append_singleton]
  rfl

theorem mem_increases {times : List Time} {increase : Increase Time} :
    increase ∈ increases expiry maximum lifetime none times ↔
      ∃ earlier now later, times = earlier ++ now :: later ∧
        increase = ⟨now, reply maximum (foundAfter expiry maximum lifetime earlier now)⟩ := by
  constructor
  · intro increaseMem
    rcases List.mem_iff_append.mp increaseMem with ⟨before, behind, split⟩
    have times_eq := congrArg (List.map Increase.time) split
    rw [map_time_increases, List.map_append, List.map_cons] at times_eq
    refine ⟨_, _, _, times_eq, ?_⟩
    rw [times_eq, increases_append] at split
    have lengths : (increases expiry maximum lifetime none
        (before.map Increase.time)).length = before.length := by
      rw [← List.length_map Increase.time, map_time_increases, List.length_map]
    exact (List.cons.inj (List.append_inj split lengths).2).1.symm
  · rintro ⟨earlier, now, later, rfl, rfl⟩
    rw [increases_append]
    exact List.mem_append_right _ (List.mem_cons_self ..)

theorem isChain_concat {burst : List Time} {before now : Time} :
    (burst ++ [before] ++ [now]).IsChain (Linked expiry lifetime) ↔
      (burst ++ [before]).IsChain (Linked expiry lifetime) ∧
        Linked expiry lifetime before now := by
  rw [List.append_assoc, List.singleton_append, List.isChain_append_cons_cons]
  simp

/-- An increase finds no more than the increases of the burst that it ends. -/
theorem exists_burst (maximum : ℕ) (earlier : List Time) (now : Time) :
    ∃ burst, burst <:+ earlier ∧ (burst ++ [now]).IsChain (Linked expiry lifetime) ∧
      foundAfter expiry maximum lifetime earlier now ≤ burst.length := by
  induction earlier using List.reverseRecOn generalizing now with
  | nil => exact ⟨[], List.suffix_rfl, .singleton now, Nat.le_refl 0⟩
  | append_singleton earlier before ih =>
      rw [foundAfter_append_singleton]
      split
      · exact ⟨[], List.nil_suffix, .singleton now, Nat.le_refl 0⟩
      · next linked =>
          rcases ih before with ⟨burst, suffix, chain, found⟩
          refine ⟨burst ++ [before], List.suffix_concat_iff.mpr (Or.inr ⟨burst, rfl, suffix⟩),
            isChain_concat.mpr ⟨chain, linked⟩, ?_⟩
          have step :=
            increased_le_succ maximum (foundAfter expiry maximum lifetime earlier before)
          rw [List.length_append, List.length_singleton]
          omega

/-- Below the maximum, an increase finds as much as any burst that it ends. -/
theorem length_burst_le {earlier burst : List Time} {now : Time} (suffix : burst <:+ earlier)
    (chain : (burst ++ [now]).IsChain (Linked expiry lifetime))
    (below : foundAfter expiry maximum lifetime earlier now < maximum) :
    burst.length ≤ foundAfter expiry maximum lifetime earlier now := by
  induction earlier using List.reverseRecOn generalizing burst now with
  | nil =>
      rw [List.suffix_nil.mp suffix]
      exact Nat.zero_le _
  | append_singleton earlier before ih =>
      rcases List.suffix_concat_iff.mp suffix with rfl | ⟨rest, rfl, shorter⟩
      · exact Nat.zero_le _
      rcases isChain_concat.mp chain with ⟨chain, linked⟩
      rw [foundAfter_append_singleton, if_neg linked] at below ⊢
      rcases Nat.lt_or_ge (foundAfter expiry maximum lifetime earlier before) maximum with
        less | atMaximum
      · have longer := ih shorter chain less
        rw [increased, if_pos less, List.length_append, List.length_singleton]
        exact Nat.succ_le_succ longer
      · rw [increased, if_neg (Nat.not_lt.mpr atMaximum)] at below
        exact absurd below (Nat.not_lt.mpr atMaximum)

/-- All increases reply at most `limit` exactly where no burst is longer. -/
theorem replies_small_iff {limit : ℕ} {times : List Time} :
    (∀ increase ∈ increases expiry maximum lifetime none times,
        increase.reply.any fun replied => replied ≤ limit) ↔
      ∀ burst, burst <:+: times → burst.IsChain (Linked expiry lifetime) →
        burst.length ≤ min limit maximum := by
  constructor
  · rintro small burst ⟨front, behind, rfl⟩ chain
    rcases List.eq_nil_or_concat burst with rfl | ⟨rest, now, rfl⟩
    · exact Nat.zero_le _
    rw [List.concat_eq_append] at chain small ⊢
    have replied := small _ (mem_increases.mpr ⟨front ++ rest, now, behind, by simp, rfl⟩)
    rcases Nat.lt_or_ge (foundAfter expiry maximum lifetime (front ++ rest) now) maximum with
      below | atMaximum
    · have longest := length_burst_le (List.suffix_append front rest) chain below
      simp only [reply, if_pos below, Option.any_some, decide_eq_true_eq] at replied
      rw [List.length_append, List.length_singleton, le_min_iff]
      omega
    · simp [reply, Nat.not_lt.mpr atMaximum] at replied
  · intro short increase increaseMem
    rcases mem_increases.mp increaseMem with ⟨earlier, now, later, rfl, rfl⟩
    rcases exists_burst maximum earlier now with ⟨burst, ⟨front, rfl⟩, chain, found⟩
    have bound := short _ ⟨front, later, by simp⟩ chain
    rw [List.length_append, List.length_singleton, le_min_iff] at bound
    have below : foundAfter expiry maximum lifetime (front ++ burst) now < maximum := by
      omega
    simp only [reply, if_pos below, Option.any_some, decide_eq_true_eq]
    omega

end Counter

end Foundations
