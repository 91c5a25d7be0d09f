import Mathlib.Data.List.Forall2

/-!
# Passes that end early

A pass over a list makes a value of each item and collects the values, the last first. An
item may be rejected, which ends the pass without the values, or raise an error.
-/

namespace Foundations

variable {Item Value Error : Type}

def collectWhile (step : Item → Except Error (Option Value)) :
    List Item → List Value → Except Error (Option (List Value))
  | [], acc => .ok (some acc)
  | item :: later, acc =>
      match step item with
      | .ok (some value) => collectWhile step later (value :: acc)
      | .ok none => .ok none
      | .error error => .error error

/-- The items make these values. -/
abbrev Makes (step : Item → Except Error (Option Value)) : List Item → List Value → Prop :=
  List.Forall₂ fun item value => step item = .ok (some value)

variable {step : Item → Except Error (Option Value)}

theorem Makes.collectWhile {items : List Item} {values : List Value}
    (makes : Makes step items values) (later : List Item) (acc : List Value) :
    collectWhile step (items ++ later) acc =
      Foundations.collectWhile step later (values.reverse ++ acc) := by
  induction makes generalizing acc with
  | nil => rfl
  | cons made _ ih =>
      rw [List.cons_append, Foundations.collectWhile, made]
      dsimp only
      rw [ih, List.reverse_cons, List.append_assoc, List.singleton_append]

/-- A pass ends with values only where every item makes one. -/
theorem collectWhile_eq_some {items : List Item} {acc out : List Value} :
    collectWhile step items acc = .ok (some out) ↔
      ∃ values, Makes step items values ∧ out = values.reverse ++ acc := by
  constructor
  · induction items generalizing acc with
    | nil =>
        intro collected
        cases collected
        exact ⟨[], .nil, rfl⟩
    | cons item later ih =>
        intro collected
        rw [collectWhile] at collected
        split at collected
        · next value made =>
            rcases ih collected with ⟨values, makes, rfl⟩
            exact ⟨value :: values, .cons made makes, by simp⟩
        · cases collected
        · cases collected
  · rintro ⟨values, makes, rfl⟩
    have collected := makes.collectWhile [] acc
    rwa [List.append_nil] at collected

/-- A pass ends without values only where an item is rejected, and those before it make some. -/
theorem collectWhile_eq_none {items : List Item} {acc : List Value} :
    collectWhile step items acc = .ok none ↔
      ∃ before item after values, items = before ++ item :: after ∧ Makes step before values ∧
        step item = .ok none := by
  constructor
  · induction items generalizing acc with
    | nil => intro collected; cases collected
    | cons item later ih =>
        intro collected
        rw [collectWhile] at collected
        split at collected
        · next value made =>
            rcases ih collected with ⟨before, rejected, after, values, rfl, makes, isNone⟩
            exact ⟨item :: before, rejected, after, value :: values, rfl, .cons made makes, isNone⟩
        · next isNone => exact ⟨[], item, later, [], rfl, .nil, isNone⟩
        · cases collected
  · rintro ⟨before, item, after, values, rfl, makes, isNone⟩
    rw [makes.collectWhile, collectWhile, isNone]

end Foundations
