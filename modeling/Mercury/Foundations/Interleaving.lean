import Mathlib.Data.List.Basic
import Mercury.Foundations.Execution

/-!
# Programs that take turns

Any number of programs share a world. A step lets one of them perform its next call;
between two calls of a program the others may perform any number of theirs.
-/

namespace Foundations

structure Pool (face : Interface) (Error Result World : Type) where
  world : World
  programs : List (Program face Error Result)

namespace Program

variable {face : Interface} {Error Result : Type}

def ended : Program face Error Result → Bool
  | done _ => true
  | fail _ => true
  | call _ _ => false

@[simp]
theorem ended_ofExcept (outcome : Except Error Result) :
    (ofExcept outcome : Program face Error Result).ended = true := by
  rcases outcome with error | result <;> rfl

end Program

namespace Pool

variable {face : Interface} {Error Result World Input : Type}
  (environment : Environment face Error World Input)

/-- The program behind `before` performs its next call, on some input. -/
inductive Step :
    Pool face Error Result World → ℕ × Input → Pool face Error Result World → Prop where
  | performed {world : World} {before after : List (Program face Error Result)} {input : Input}
      {asked : face.Call} {next : Except Error (face.Answer asked) → Program face Error Result} :
      Step ⟨world, before ++ .call asked next :: after⟩ (before.length, input)
        ⟨(environment input world asked).2,
          before ++ next (environment input world asked).1 :: after⟩

variable {environment}

/-- How many programs have calls to perform. -/
def unfinished (pool : Pool face Error Result World) : ℕ :=
  pool.programs.countP fun program => !program.ended

theorem unfinished_split {world : World} {before after : List (Program face Error Result)}
    {program : Program face Error Result} :
    unfinished ⟨world, before ++ program :: after⟩ =
      before.countP (fun program => !program.ended) +
        after.countP (fun program => !program.ended) + if program.ended then 0 else 1 := by
  rw [unfinished, List.countP_append, List.countP_cons]
  cases program.ended <;> simp [Nat.add_assoc]

/-- A program runs to its end while the others wait. -/
theorem run_alone (program : Program face Error Result) (inputs : ℕ → Input) (world : World)
    (before after : List (Program face Error Result)) :
    ∃ labels, Run (Step environment) ⟨world, before ++ program :: after⟩ labels
      ⟨(program.execute environment inputs world).world,
        before ++ .ofExcept (program.execute environment inputs world).outcome :: after⟩ := by
  induction program generalizing inputs world with
  | done result => exact ⟨[], Run.refl⟩
  | fail error => exact ⟨[], Run.refl⟩
  | call asked next ih =>
      rcases ih (environment (inputs 0) world asked).1 (dropInputs 1 inputs)
        (environment (inputs 0) world asked).2 with ⟨labels, run⟩
      exact ⟨(before.length, inputs 0) :: labels, Run.cons Step.performed run⟩

end Pool

end Foundations
