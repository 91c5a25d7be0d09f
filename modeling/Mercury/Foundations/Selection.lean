import Mathlib.Data.List.Nodup
import Mathlib.Data.List.Sort

/-!
# The first elements of a list by an order

What it means that a list holds the first so many elements of another one, in order and
each once, and when a prefix of a sorted part of the whole is such a list.
-/

namespace Foundations

universe u v

/-- Lists with the same images are the same where the elements are told by their images. -/
theorem eq_of_map_eq {α : Type u} {β : Type v} {view : α → β} {left right : List α}
    (told : ∀ first ∈ left, ∀ second ∈ right, view first = view second → first = second)
    (same : left.map view = right.map view) : left = right := by
  induction left generalizing right with
  | nil => exact (List.map_eq_nil_iff.mp same.symm).symm
  | cons head tail ih =>
      rcases right with _ | ⟨other, others⟩
      · cases same
      simp only [List.map_cons, List.cons.injEq] at same
      have heads := told head List.mem_cons_self other List.mem_cons_self same.1
      have tails := ih (fun first firstMem second secondMem =>
        told first (List.mem_cons_of_mem _ firstMem) second (List.mem_cons_of_mem _ secondMem))
        same.2
      rw [heads, tails]

variable {α : Type u} {before : α → α → Prop} {count : ℕ} {all chosen sorted : List α}

/-- `chosen` lists the first `count` elements of `all` by the order `before`, each once. -/
structure FirstBy (before : α → α → Prop) (count : ℕ) (all chosen : List α) : Prop where
  nodup : chosen.Nodup
  within : chosen ⊆ all
  length : chosen.length = min count all.length
  sorted : chosen.Pairwise before
  first : ∀ taken ∈ chosen, ∀ other ∈ all, other ∉ chosen → before taken other

/-- Where enough elements of a sorted list are early, its first ones are. -/
theorem forall_take_of_le_countP {early : α → Prop} [DecidablePred early]
    (closed : ∀ first second, before first second → early second → early first)
    (isSorted : sorted.Pairwise before) (enough : count ≤ sorted.countP fun other => early other) :
    ∀ taken ∈ sorted.take count, early taken := by
  induction sorted generalizing count with
  | nil => simp
  | cons head tail ih =>
      rw [List.pairwise_cons] at isSorted
      cases count with
      | zero => simp
      | succ count =>
          by_cases headEarly : early head
          · rw [List.countP_cons_of_pos (by simpa using headEarly)] at enough
            intro taken takenMem
            rcases List.mem_cons.mp takenMem with rfl | takenMem
            · exact headEarly
            · exact ih isSorted.2 (by omega) taken takenMem
          · -- nothing behind the head is early either
            have none : (head :: tail).countP (fun other => early other) = 0 := by
              apply List.countP_eq_zero.mpr
              intro other otherMem
              rcases List.mem_cons.mp otherMem with rfl | otherMem
              · simpa using headEarly
              · simpa using fun otherEarly =>
                  headEarly (closed _ _ (isSorted.1 other otherMem) otherEarly)
            omega

/-- If the first ones are early and there are so many, enough are early. -/
theorem le_countP_of_forall_take {early : α → Prop} [DecidablePred early]
    (long : count ≤ sorted.length) (allEarly : ∀ taken ∈ sorted.take count, early taken) :
    count ≤ sorted.countP fun other => early other := by
  have counted : (sorted.take count).countP (fun other => early other) =
      (sorted.take count).length :=
    List.countP_eq_length.mpr fun taken takenMem => by simpa using allEarly taken takenMem
  have le : (sorted.take count).countP (fun other => early other) ≤
      sorted.countP fun other => early other := (List.take_sublist count sorted).countP_le
  rw [counted, List.length_take] at le
  omega

/-! ### The order of two elements -/

/-- Of two elements of a list one comes before the other. -/
theorem pair_sublist_or {first second : α} {list : List α} (firstMem : first ∈ list)
    (secondMem : second ∈ list) (apart : first ≠ second) :
    [first, second].Sublist list ∨ [second, first].Sublist list := by
  rcases List.mem_iff_append.mp firstMem with ⟨earlier, later, rfl⟩
  rcases List.mem_append.mp secondMem with inEarlier | inRest
  · right
    have left := List.singleton_sublist.mpr inEarlier
    exact left.append (List.singleton_sublist.mpr List.mem_cons_self)
  · rcases List.mem_cons.mp inRest with same | inLater
    · exact absurd same.symm apart
    · left
      exact ((List.singleton_sublist.mpr inLater).cons_cons first).trans
        (List.sublist_append_right _ _)

/-- Not both, where nothing is repeated. -/
theorem not_pair_sublist {first second : α} {list : List α} (distinct : list.Nodup)
    (forward : [first, second].Sublist list) : ¬[second, first].Sublist list := by
  intro backward
  induction list with
  | nil => simp at forward
  | cons head tail ih =>
      rcases List.nodup_cons.mp distinct with ⟨fresh, distinct⟩
      rw [List.sublist_cons_iff] at forward backward
      rcases forward with forward | ⟨rest, same, later⟩
      · rcases backward with backward | ⟨rest, same, later⟩
        · exact ih distinct forward backward
        · simp only [List.cons.injEq] at same
          exact fresh (same.1 ▸ forward.subset (by simp))
      · simp only [List.cons.injEq] at same
        rcases same with ⟨rfl, rfl⟩
        rcases backward with backward | ⟨rest, same, -⟩
        · exact fresh (backward.subset (by simp))
        · simp only [List.cons.injEq] at same
          exact fresh (same.1 ▸ later.subset List.mem_cons_self)

/-- Two lists that repeat nothing, one within the other, and an element outside. -/
theorem length_lt_of_not_mem (distinct : sorted.Nodup) (within : sorted ⊆ all) {other : α}
    (otherMem : other ∈ all) (outside : other ∉ sorted) : sorted.length < all.length := by
  have larger : (other :: sorted).Nodup := List.nodup_cons.mpr ⟨outside, distinct⟩
  have included : other :: sorted ⊆ all := List.cons_subset.mpr ⟨otherMem, within⟩
  exact (List.subperm_of_subset larger included).length_le

/-- The length of a part without repetition is that of the whole exactly if it has all of it. -/
theorem length_eq_iff (distinct : sorted.Nodup) (within : sorted ⊆ all) (allDistinct : all.Nodup) :
    sorted.length = all.length ↔ all ⊆ sorted := by
  constructor
  · intro same other otherMem
    by_contra outside
    have := length_lt_of_not_mem distinct within otherMem outside
    omega
  · intro whole
    have le := (List.subperm_of_subset distinct within).length_le
    have ge := (List.subperm_of_subset allDistinct whole).length_le
    omega

/-- A prefix of a sorted part is the first elements of the whole exactly if it is as long, and
the elements outside the part have that many of the part before them. -/
theorem firstBy_take_iff (trans : ∀ first second third, before first second →
    before second third → before first third) [∀ other, DecidablePred (before · other)]
    (isSorted : sorted.Pairwise before) (distinct : sorted.Nodup) (within : sorted ⊆ all) :
    FirstBy before count all (sorted.take count) ↔
      min count sorted.length = min count all.length ∧
        ∀ other ∈ all, other ∉ sorted → count ≤ sorted.countP (before · other) := by
  have prefixSorted := isSorted.sublist (List.take_sublist count sorted)
  have prefixDistinct := distinct.sublist (List.take_sublist count sorted)
  constructor
  · intro isFirst
    have lengths : min count sorted.length = min count all.length := by
      rw [← isFirst.length, List.length_take]
    refine ⟨lengths, ?_⟩
    intro other otherMem outside
    have longer := length_lt_of_not_mem distinct within otherMem outside
    apply le_countP_of_forall_take (by omega)
    intro taken takenMem
    have notTaken : other ∉ sorted.take count := fun mem => outside (List.mem_of_mem_take mem)
    exact isFirst.first taken takenMem other otherMem notTaken
  · rintro ⟨lengths, enough⟩
    refine ⟨prefixDistinct, ?_, ?_, prefixSorted, ?_⟩
    · intro other otherMem
      exact within (List.mem_of_mem_take otherMem)
    · rw [List.length_take]
      exact lengths
    · intro taken takenMem other otherMem notTaken
      by_cases inside : other ∈ sorted
      · -- an element of the part that is not taken comes later in it
        rw [← List.take_append_drop count sorted, List.mem_append] at inside
        have split := isSorted
        rw [← List.take_append_drop count sorted, List.pairwise_append] at split
        rcases inside with mem | later
        · exact absurd mem notTaken
        · exact split.2.2 taken takenMem other later
      · exact @forall_take_of_le_countP α before count sorted (before · other) _
          (fun first second => trans first second other) isSorted
          (enough other otherMem inside) taken takenMem

/-- The place of an element of an ordered list is the number of those that precede it. -/
theorem mem_take_iff_countP {precedes : α → α → Prop} [DecidableRel precedes]
    (asymm : ∀ first second, precedes first second → ¬precedes second first) {list : List α}
    (ordered : list.Pairwise precedes) {item : α} (itemMem : item ∈ list) :
    item ∈ list.take count ↔ list.countP (fun other => precedes other item) < count := by
  induction list generalizing count with
  | nil => cases itemMem
  | cons head tail ih =>
      rw [List.pairwise_cons] at ordered
      rcases List.mem_cons.mp itemMem with rfl | inTail
      · have none : (item :: tail).countP (fun other => precedes other item) = 0 := by
          apply List.countP_eq_zero.mpr
          intro other otherMem
          rcases List.mem_cons.mp otherMem with rfl | otherMem
          · simpa using fun before => asymm _ _ before before
          · simpa using asymm _ _ (ordered.1 other otherMem)
        rw [none]
        cases count with
        | zero => simp
        | succ count => simp
      · have before := ordered.1 item inTail
        have apart : item ≠ head := fun same => asymm _ _ before (same ▸ before)
        rw [List.countP_cons_of_pos (by simpa using before)]
        cases count with
        | zero => simp
        | succ count =>
            rw [List.take_succ_cons, List.mem_cons, or_iff_right apart, ih ordered.2 inTail]
            omega

/-- A prefix of a part is the first elements of the whole exactly if it is as long, and what it
holds comes before all that follows it in the part and all outside the part. -/
theorem firstBy_prefix_iff {part : List α} (distinct : part.Nodup) (within : part ⊆ all) :
    FirstBy before count all (part.take count) ↔
      min count part.length = min count all.length ∧
        (∀ taken ∈ part.take count, ∀ other, [taken, other].Sublist part →
          before taken other) ∧
        ∀ taken ∈ part.take count, ∀ other ∈ all, other ∉ part → before taken other := by
  have prefixDistinct := distinct.sublist (List.take_sublist count part)
  have parts := List.take_append_drop count part
  constructor
  · intro isFirst
    refine ⟨by rw [← isFirst.length, List.length_take], ?_, ?_⟩
    · intro taken takenMem other behind
      by_cases otherTaken : other ∈ part.take count
      · have apart : taken ≠ other := by
          have pair := distinct.sublist behind
          simpa using pair
        rcases pair_sublist_or takenMem otherTaken apart with forward | backward
        · exact isFirst.sorted.forall_sublist forward
        · exact absurd (backward.trans (List.take_sublist count part))
            (not_pair_sublist distinct behind)
      · exact isFirst.first taken takenMem other (within (behind.subset (by simp))) otherTaken
    · intro taken takenMem other otherMem outside
      exact isFirst.first taken takenMem other otherMem
        fun mem => outside (List.mem_of_mem_take mem)
  · rintro ⟨lengths, inside, outside⟩
    refine ⟨prefixDistinct, fun other mem => within (List.mem_of_mem_take mem), ?_, ?_, ?_⟩
    · rw [List.length_take]
      exact lengths
    · apply List.pairwise_of_forall_sublist
      intro first second behind
      exact inside first (behind.subset (by simp)) second
        (behind.trans (List.take_sublist count part))
    · intro taken takenMem other otherMem notTaken
      by_cases inPart : other ∈ part
      · apply inside taken takenMem other
        rw [← parts, List.mem_append] at inPart
        rw [← parts]
        exact (List.singleton_sublist.mpr takenMem).append
          (List.singleton_sublist.mpr (inPart.resolve_left notTaken))
      · exact outside taken takenMem other otherMem inPart

/-- The first elements of a list are those of its images, where these tell them apart. -/
theorem firstBy_map_iff {β : Type v} {earlier : β → β → Prop} {view : α → β}
    (told : ∀ first ∈ all, ∀ second ∈ all, view first = view second → first = second)
    (within : chosen ⊆ all) :
    FirstBy earlier count (all.map view) (chosen.map view) ↔
      FirstBy (fun first second => earlier (view first) (view second)) count all chosen := by
  have mem_chosen : ∀ other ∈ all, (view other ∈ chosen.map view ↔ other ∈ chosen) := by
    intro other otherMem
    rw [List.mem_map]
    constructor
    · rintro ⟨same, sameMem, viewEq⟩
      rwa [← told same (within sameMem) other otherMem viewEq]
    · intro mem
      exact ⟨other, mem, rfl⟩
  constructor
  · intro isFirst
    refine ⟨isFirst.nodup.of_map _, within, ?_, List.pairwise_map.mp isFirst.sorted, ?_⟩
    · simpa using isFirst.length
    · intro taken takenMem other otherMem notTaken
      exact isFirst.first _ (List.mem_map_of_mem takenMem) _ (List.mem_map_of_mem otherMem)
        fun mem => notTaken ((mem_chosen other otherMem).mp mem)
  · intro isFirst
    refine ⟨?_, List.map_subset view within, ?_, List.pairwise_map.mpr isFirst.sorted, ?_⟩
    · exact isFirst.nodup.map_on fun first firstMem second secondMem =>
        told first (within firstMem) second (within secondMem)
    · simpa using isFirst.length
    · intro taken takenMem other otherMem notTaken
      rcases List.mem_map.mp takenMem with ⟨first, firstMem, rfl⟩
      rcases List.mem_map.mp otherMem with ⟨second, secondMem, rfl⟩
      exact isFirst.first first firstMem second secondMem
        fun mem => notTaken ((mem_chosen second secondMem).mpr mem)

/-- Two sorted lists share one of their first elements, where one element of the first prefix is
in the second list too, the second list has nothing before it that the first has not, and the
elements that tie with it stand in the same order in both. -/
theorem exists_mem_both_prefixes [DecidableRel before] [Std.Total before] [IsTrans α before]
    {left right : List α} {middle : α} (positive : 0 < count) (leftDistinct : left.Nodup)
    (rightDistinct : right.Nodup) (taken : middle ∈ (left.insertionSort before).take count)
    (kept : middle ∈ right) (known : ∀ other ∈ right, before other middle → other ∈ left)
    (ties : ∀ other ∈ right, before other middle → before middle other → other ≠ middle →
      [middle, other].Sublist right ∨ [other, middle].Sublist left) :
    ∃ shared ∈ (left.insertionSort before).take count,
      shared ∈ (right.insertionSort before).take count := by
  have leftPerm := List.perm_insertionSort before left
  have rightPerm := List.perm_insertionSort before right
  have leftSorted : (left.insertionSort before).Pairwise before :=
    List.pairwise_insertionSort _ _
  have rightSorted : (right.insertionSort before).Pairwise before :=
    List.pairwise_insertionSort _ _
  -- the first of the second list
  rcases headEq : right.insertionSort before with _ | ⟨head, tail⟩
  · rw [← rightPerm.mem_iff, headEq] at kept
    cases kept
  have headMem : head ∈ right := rightPerm.mem_iff.mp (headEq ▸ List.mem_cons_self)
  have headFirst : head ∈ (head :: tail).take count := by
    rcases count with _ | count
    · omega
    · exact List.mem_cons_self
  refine ⟨head, ?_, headFirst⟩
  have headBefore : before head middle := by
    rw [headEq, List.pairwise_cons] at rightSorted
    rw [← rightPerm.mem_iff, headEq] at kept
    rcases List.mem_cons.mp kept with rfl | inTail
    · rcases Std.Total.total (r := before) middle middle with tied | tied <;> exact tied
    · exact rightSorted.1 middle inTail
  by_contra notTaken
  have inLeft := leftPerm.mem_iff.mpr (known head headMem headBefore)
  rw [← List.take_append_drop count (left.insertionSort before), List.mem_append] at inLeft
  have behind := inLeft.resolve_left notTaken
  have forward : [middle, head].Sublist (left.insertionSort before) := by
    rw [← List.take_append_drop count (left.insertionSort before)]
    exact (List.singleton_sublist.mpr taken).append (List.singleton_sublist.mpr behind)
  have apart : head ≠ middle := fun same => notTaken (same ▸ taken)
  have middleBefore : before middle head := leftSorted.forall_sublist forward
  rcases ties head headMem headBefore middleBefore apart with inRight | inLeft
  · -- then the middle is before the head of the sorted list
    have sublist := List.pair_sublist_insertionSort middleBefore inRight
    rw [headEq] at sublist
    have distinct : (head :: tail).Nodup := headEq ▸ rightPerm.nodup_iff.mpr rightDistinct
    rcases List.sublist_cons_iff.mp sublist with inTail | ⟨rest, same, -⟩
    · exact (List.nodup_cons.mp distinct).1 (inTail.subset (by simp))
    · simp only [List.cons.injEq] at same
      exact apart same.1.symm
  · have backward := List.pair_sublist_insertionSort headBefore inLeft
    exact not_pair_sublist (leftPerm.nodup_iff.mpr leftDistinct) forward backward

end Foundations
