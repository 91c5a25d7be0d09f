import Mathlib.Data.Set.Basic

/-!
# The laws of `Mergeable`

The trait states them for all values of a type. Here they are relative to a
collection of values, since some types keep them only where certain values do
not meet.
-/

namespace Mercury.Crdt

/-- The laws of `Mergeable`, for the merges among `values`. -/
structure MergeLaws {State : Type} (merge : State → State → State) (values : Set State) :
    Prop where
  commutative : ∀ a ∈ values, ∀ b ∈ values, merge a b = merge b a
  associative : ∀ a ∈ values, ∀ b ∈ values, ∀ c ∈ values,
    merge (merge a b) c = merge a (merge b c)
  idempotent : ∀ a ∈ values, merge a a = a

end Mercury.Crdt
