import Mathlib.Data.List.Perm.Basic

/-!
# Operations that can be reordered and repeated

A list of operations that commute with each other leads to the same state in every order. If each
of them does nothing a second time, so does the list.
-/

namespace Foundations

universe u v

variable {State : Type u} {Operation : Type v} {apply : State → Operation → State}
  {operations : List Operation}

/-- Operations that change nothing can be left out. -/
theorem foldl_fixed {state : State}
    (fixed : ∀ operation ∈ operations, apply state operation = state) :
    operations.foldl apply state = state := by
  induction operations with
  | nil => rfl
  | cons first later ih =>
      rw [List.foldl_cons, fixed first List.mem_cons_self]
      exact ih fun operation operationMem => fixed operation (List.mem_cons_of_mem _ operationMem)

section Repeated

variable (commute : ∀ first ∈ operations, ∀ second ∈ operations, ∀ state,
    apply (apply state first) second = apply (apply state second) first)
  (idempotent : ∀ operation ∈ operations, ∀ state,
    apply (apply state operation) operation = apply state operation)

include commute idempotent

/-- An operation of the list changes nothing after it. -/
theorem apply_foldl {operation : Operation} (operationMem : operation ∈ operations)
    (state : State) :
    apply (operations.foldl apply state) operation = operations.foldl apply state := by
  rcases List.mem_iff_append.mp operationMem with ⟨earlier, later, rfl⟩
  have moved : (earlier ++ operation :: later).Perm (earlier ++ later ++ [operation]) := by
    rw [List.append_assoc]
    exact (List.perm_append_singleton operation later).symm.append_left earlier
  have folded := moved.foldl_eq' (fun first firstMem second secondMem base =>
    commute first firstMem second secondMem base) state
  rw [folded, List.foldl_append, List.foldl_cons, List.foldl_nil]
  exact idempotent operation operationMem _

/-- Operations that are repeated change nothing. -/
theorem foldl_foldl (state : State) :
    operations.foldl apply (operations.foldl apply state) = operations.foldl apply state :=
  foldl_fixed fun _ operationMem => apply_foldl commute idempotent operationMem state

end Repeated

end Foundations
