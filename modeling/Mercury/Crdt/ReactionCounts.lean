import Mathlib.Data.Set.Card
import Mercury.Crdt.ReactionMap
import Mercury.Foundations.Tally

/-!
# Counting reactions

`ReactionMap::counts`, `user_reactions` and `is_empty`, each a loop over the entries
of a `HashMap`. The order in which a loop visits the entries is arbitrary, and the
loops may take different ones; they agree all the same (`counts_userReactions`).
-/

namespace Mercury.Crdt

open Foundations

namespace OrSet

variable {T : Type} [DecidableEq T]

/-- The keys of the entries, in the order in which a loop visits them. -/
structure Iteration (set : OrSet T) where
  keys : List T
  nodup : keys.Nodup
  complete : ∀ value, value ∈ keys ↔ value ∈ set.entries

instance (set : OrSet T) : Nonempty set.Iteration :=
  ⟨⟨set.entries.keys.toList, Finset.nodup_toList _, fun value => by
    rw [Finset.mem_toList, Finmap.mem_keys]⟩⟩

namespace Iteration

variable {set : OrSet T} (iteration : set.Iteration)

/-- `elements`: the keys whose dots are not empty. -/
def elements : List T :=
  iteration.keys.filter fun value => set.contains value

def len : ℕ :=
  iteration.elements.length

def isEmpty : Bool :=
  iteration.len == 0

theorem mem_elements {value : T} : value ∈ iteration.elements ↔ set.contains value = true := by
  simp only [elements, List.mem_filter, and_iff_right_iff_imp, iteration.complete]
  intro present
  have listed := OrSet.mem_elements.mpr present
  simp only [OrSet.elements, Finset.mem_filter, Finmap.mem_keys] at listed
  exact listed.1

theorem nodup_elements : iteration.elements.Nodup :=
  iteration.nodup.filter _

/-- The order makes no difference to the length. -/
theorem len_eq : iteration.len = set.len := by
  have same : iteration.elements.toFinset = set.elements := by
    ext value
    rw [List.mem_toFinset, mem_elements, OrSet.mem_elements]
  rw [len, OrSet.len, ← same, List.toFinset_card_of_nodup iteration.nodup_elements]

theorem isEmpty_eq : iteration.isEmpty = set.isEmpty := by
  rw [isEmpty, OrSet.isEmpty, len_eq]

theorem isEmpty_iff : iteration.isEmpty = true ↔ iteration.elements = [] := by
  simp [isEmpty, len]

end Iteration

end OrSet

namespace ReactionMap

variable {map : ReactionMap} (iteration : map.reactions.Iteration)

/-- `counts`, in one order of the entries. -/
def counts : Finmap fun _ : String => ℕ :=
  Tally.tally (iteration.elements.map Prod.snd)

/-- `user_reactions`, in one order of the entries. -/
def listedReactions (user : Id16) : List String :=
  (iteration.elements.filter fun reaction => reaction.1 = user).map Prod.snd

theorem mem_listedReactions {user : Id16} {emoji : String} :
    emoji ∈ listedReactions iteration user ↔ map.reactions.contains (user, emoji) = true := by
  rw [← iteration.mem_elements]
  simp [listedReactions]

theorem toFinset_listedReactions (user : Id16) :
    (listedReactions iteration user).toFinset = map.userReactions user := by
  ext emoji
  rw [List.mem_toFinset, mem_listedReactions, mem_userReactions]

/-- An emoji is listed once for a user, however many dots it has. -/
theorem nodup_listedReactions (user : Id16) : (listedReactions iteration user).Nodup := by
  apply List.Nodup.map_on
  · rintro ⟨leftUser, left⟩ leftMem ⟨rightUser, right⟩ rightMem same
    simp only [List.mem_filter, decide_eq_true_eq] at leftMem rightMem same
    rw [leftMem.2, rightMem.2, same]
  · exact iteration.nodup_elements.filter _

/-- The users with `emoji`, in the order of the entries. -/
def reactors (emoji : String) : List Id16 :=
  (iteration.elements.filter fun reaction => reaction.2 = emoji).map Prod.fst

theorem mem_reactors {user : Id16} {emoji : String} :
    user ∈ reactors iteration emoji ↔ map.reactions.contains (user, emoji) = true := by
  rw [← iteration.mem_elements]
  simp [reactors]

theorem nodup_reactors (emoji : String) : (reactors iteration emoji).Nodup := by
  apply List.Nodup.map_on
  · rintro ⟨left, leftEmoji⟩ leftMem ⟨right, rightEmoji⟩ rightMem same
    simp only [List.mem_filter, decide_eq_true_eq] at leftMem rightMem same
    rw [leftMem.2, rightMem.2, same]
  · exact iteration.nodup_elements.filter _

theorem length_reactors (emoji : String) :
    (reactors iteration emoji).length = (iteration.elements.map Prod.snd).count emoji := by
  rw [reactors, List.length_map, List.count, List.countP_map, List.countP_eq_length_filter]
  rfl

/-- The count of an emoji is the number of its users. -/
theorem encard_users_eq {emoji : String} {users : Set Id16}
    (own : ∀ user, user ∈ users ↔ map.reactions.contains (user, emoji) = true) :
    users.encard = (iteration.elements.map Prod.snd).count emoji := by
  have listed : users = ((reactors iteration emoji).toFinset : Set Id16) := by
    ext user
    rw [List.coe_toFinset, Set.mem_ofPred_eq, mem_reactors, own]
  rw [listed, Set.encard_coe_eq_coe_finsetCard,
    List.toFinset_card_of_nodup (nodup_reactors iteration emoji), length_reactors]

/-- What `counts`, `user_reactions` and `is_empty` say of any map, each in its own order
of the entries. -/
theorem counts_userReactions (map : ReactionMap)
    (counting checking : map.reactions.Iteration) (listing : Id16 → map.reactions.Iteration) :
    (∀ emoji, emoji ∈ counts counting ↔
        ∃ user, emoji ∈ listedReactions (listing user) user) ∧
      (∀ emoji count, (counts counting).lookup emoji = some count →
        {user | emoji ∈ listedReactions (listing user) user}.encard = count) ∧
      (∀ user, (listedReactions (listing user) user).Nodup) ∧
      (checking.isEmpty = true ↔ counts counting = ∅) := by
  refine ⟨?_, ?_, ?_, ?_⟩
  · intro emoji
    simp only [counts, Tally.mem_tally, mem_listedReactions, ← counting.mem_elements]
    simp
  · intro emoji count counted
    rw [counts, Tally.lookup_tally] at counted
    have users : {user | emoji ∈ listedReactions (listing user) user}.encard =
        (counting.elements.map Prod.snd).count emoji :=
      encard_users_eq counting fun user => mem_listedReactions (listing user)
    rw [users]
    split at counted
    · exact congrArg _ (Option.some.inj counted)
    · cases counted
  · intro user
    exact nodup_listedReactions (listing user) user
  · rw [counts, Tally.tally_eq_empty, List.map_eq_nil_iff, ← counting.isEmpty_iff,
      checking.isEmpty_eq, counting.isEmpty_eq]

end ReactionMap

end Mercury.Crdt
