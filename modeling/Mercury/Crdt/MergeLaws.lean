import Mercury.Crdt.GCounter
import Mercury.Crdt.Mergeable
import Mercury.Crdt.ReactionMap

/-!
# Types that keep the laws of `Mergeable`

The merges of `GCounter`, `ORSet` and `ReactionMap` join finite maps entry by
entry, so they keep the laws for all values, with the empty and zero entries that
a merge leaves behind.
-/

namespace Mercury.Crdt

open Foundations

theorem GCounter.mergeLaws : MergeLaws GCounter.merge Set.univ where
  commutative a _ b _ := congrArg GCounter.mk (EntrywiseJoin.join_comm a.counts b.counts)
  associative a _ b _ c _ :=
    congrArg GCounter.mk (EntrywiseJoin.join_assoc a.counts b.counts c.counts)
  idempotent a _ := congrArg GCounter.mk (EntrywiseJoin.join_self a.counts)

theorem OrSet.mergeLaws {T : Type} [DecidableEq T] :
    MergeLaws (OrSet.merge : OrSet T → OrSet T → OrSet T) Set.univ where
  commutative a _ b _ := congrArg₂ OrSet.mk (EntrywiseJoin.join_comm a.entries b.entries)
    (EntrywiseJoin.join_comm a.nextSeq b.nextSeq)
  associative a _ b _ c _ :=
    congrArg₂ OrSet.mk (EntrywiseJoin.join_assoc a.entries b.entries c.entries)
      (EntrywiseJoin.join_assoc a.nextSeq b.nextSeq c.nextSeq)
  idempotent a _ := congrArg₂ OrSet.mk (EntrywiseJoin.join_self a.entries)
    (EntrywiseJoin.join_self a.nextSeq)

theorem ReactionMap.mergeLaws : MergeLaws ReactionMap.merge Set.univ where
  commutative a _ b _ := congrArg ReactionMap.mk
    (OrSet.mergeLaws.commutative a.reactions trivial b.reactions trivial)
  associative a _ b _ c _ := congrArg ReactionMap.mk
    (OrSet.mergeLaws.associative a.reactions trivial b.reactions trivial c.reactions trivial)
  idempotent a _ := congrArg ReactionMap.mk (OrSet.mergeLaws.idempotent a.reactions trivial)

/-- The three types keep the laws for all their values. -/
theorem counter_set_reactions_mergeLaws :
    MergeLaws GCounter.merge Set.univ ∧
      (∀ (T : Type) [DecidableEq T],
        MergeLaws (OrSet.merge : OrSet T → OrSet T → OrSet T) Set.univ) ∧
      MergeLaws ReactionMap.merge Set.univ :=
  ⟨GCounter.mergeLaws, fun _ _ => OrSet.mergeLaws, ReactionMap.mergeLaws⟩

end Mercury.Crdt
