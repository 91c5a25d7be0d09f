import Mercury.Foundations.Program

/-!
# Executions in a given environment

An environment answers a call from its state and an input. With a stream of inputs
a program has one execution: the calls that it performs, its outcome, and the state
that it leaves.
-/

namespace Foundations

/-- How a call is answered in a state, and the state after it. -/
abbrev Environment (face : Interface) (Error World Input : Type) :=
  Input → World → (asked : face.Call) → Except Error (face.Answer asked) × World

structure Execution (face : Interface) (Error Result World : Type) where
  made : List (Performed face Error)
  outcome : Except Error Result
  world : World

/-- A stream of inputs without the first ones. -/
def dropInputs {Input : Type} (count : ℕ) (inputs : ℕ → Input) : ℕ → Input :=
  fun index => inputs (index + count)

namespace Program

variable {face : Interface} {Error Result Other World Input : Type}
  (environment : Environment face Error World Input)

def execute : Program face Error Result → (ℕ → Input) → World →
    Execution face Error Result World
  | done result, _, world => ⟨[], .ok result, world⟩
  | fail error, _, world => ⟨[], .error error, world⟩
  | call asked next, inputs, world =>
      let performed := environment (inputs 0) world asked
      let later := (next performed.1).execute (dropInputs 1 inputs) performed.2
      ⟨⟨asked, performed.1⟩ :: later.made, later.outcome, later.world⟩

/-- A step of the environment on some input. -/
def Answers (world : World) (taken : Performed face Error) (target : World) : Prop :=
  ∃ input, environment input world taken.call = (taken.answer, target)

variable {environment} {inputs : ℕ → Input} {world : World}

theorem performs_execute (program : Program face Error Result) (inputs : ℕ → Input)
    (world : World) :
    program.Performs (program.execute environment inputs world).made
      (program.execute environment inputs world).outcome := by
  induction program generalizing inputs world with
  | done => exact ⟨rfl, rfl⟩
  | fail => exact ⟨rfl, rfl⟩
  | call asked next ih => exact ⟨_, _, rfl, ih _ _ _⟩

/-- An execution is a run of its environment. -/
theorem run_execute (program : Program face Error Result) (inputs : ℕ → Input) (world : World) :
    Run (Answers environment) world (program.execute environment inputs world).made
      (program.execute environment inputs world).world := by
  induction program generalizing inputs world with
  | done => exact Run.refl
  | fail => exact Run.refl
  | call asked next ih => exact Run.cons ⟨inputs 0, rfl⟩ (ih _ _ _)

/-- Every call is answered in some state, on one of the inputs. -/
theorem answer_of_mem_execute (Good : Input → Prop) {program : Program face Error Result}
    (good : ∀ index, Good (inputs index)) {taken : Performed face Error}
    (takenMem : taken ∈ (program.execute environment inputs world).made) :
    ∃ input source, Good input ∧ taken.answer = (environment input source taken.call).1 := by
  induction program generalizing inputs world with
  | done => cases takenMem
  | fail => cases takenMem
  | call asked next ih =>
      rcases List.mem_cons.mp takenMem with rfl | later
      · exact ⟨inputs 0, world, good 0, rfl⟩
      · exact ih _ (fun index => good (index + 1)) later

theorem execute_resume (program : Program face Error Result)
    (next : Except Error Result → Program face Error Other) (inputs : ℕ → Input)
    (world : World) :
    (program.resume next).execute environment inputs world =
      let first := program.execute environment inputs world
      let later := (next first.outcome).execute environment
        (dropInputs first.made.length inputs) first.world
      ⟨first.made ++ later.made, later.outcome, later.world⟩ := by
  induction program generalizing inputs world with
  | done => rfl
  | fail => rfl
  | call asked rest ih =>
      simp only [resume, execute, ih, List.cons_append, List.length_cons]
      rfl

theorem execute_perform {asked : face.Call} {answer : Except Error (face.Answer asked)}
    {after : World} (performed : environment (inputs 0) world asked = (answer, after)) :
    (perform asked).execute environment inputs world = ⟨[⟨asked, answer⟩], answer, after⟩ := by
  simp only [perform, execute, performed]
  rcases answer with error | answer <;> rfl

/-- A sequence whose first program succeeds. -/
theorem execute_bind {program : Program face Error Result} {made : List (Performed face Error)}
    {result : Result} {after : World} (next : Result → Program face Error Other)
    (first : program.execute environment inputs world = ⟨made, .ok result, after⟩) :
    (program >>= next).execute environment inputs world =
      let later := (next result).execute environment (dropInputs made.length inputs) after
      ⟨made ++ later.made, later.outcome, later.world⟩ := by
  refine (execute_resume program _ inputs world).trans ?_
  rw [first]

theorem execute_bind_error {program : Program face Error Result}
    {made : List (Performed face Error)} {error : Error} {after : World}
    (next : Result → Program face Error Other)
    (first : program.execute environment inputs world = ⟨made, .error error, after⟩) :
    (program >>= next).execute environment inputs world = ⟨made, .error error, after⟩ := by
  refine (execute_resume program _ inputs world).trans ?_
  rw [first]
  simp [execute]

theorem execute_rescue {program : Program face Error Result}
    {made : List (Performed face Error)} {result : Result} {after : World}
    (handler : Error → Program face Error Result)
    (first : program.execute environment inputs world = ⟨made, .ok result, after⟩) :
    (program.rescue handler).execute environment inputs world = ⟨made, .ok result, after⟩ := by
  refine (execute_resume program _ inputs world).trans ?_
  rw [first]
  simp [execute]

/-- A failure that is rescued. -/
theorem execute_rescue_error {program : Program face Error Result}
    {made : List (Performed face Error)} {error : Error} {after : World}
    (handler : Error → Program face Error Result)
    (first : program.execute environment inputs world = ⟨made, .error error, after⟩) :
    (program.rescue handler).execute environment inputs world =
      let later := (handler error).execute environment (dropInputs made.length inputs) after
      ⟨made ++ later.made, later.outcome, later.world⟩ := by
  refine (execute_resume program _ inputs world).trans ?_
  rw [first]

/-- An execution on inputs that are `Good` of which every call with its answer is `permitted`,
under an invariant with which calls are answered as `admitted`, and which every call that is
`allowed` preserves. -/
theorem execute_ensures {Good : Input → Prop} {Invariant : World → Prop}
    {admitted permitted : Performed face Error → Prop} {allowed : face.Call → Prop}
    {program : Program face Error Result} {post : Except Error Result → Prop}
    (ensured : program.Ensures admitted allowed post)
    (answered : ∀ {input source asked}, Good input → Invariant source →
      permitted ⟨asked, (environment input source asked).1⟩ →
        admitted ⟨asked, (environment input source asked).1⟩)
    (preserved : ∀ {input source asked}, Good input → Invariant source → allowed asked →
      permitted ⟨asked, (environment input source asked).1⟩ →
        Invariant (environment input source asked).2)
    (good : ∀ index, Good (inputs index)) (initially : Invariant world)
    (guarded : ∀ taken ∈ (program.execute environment inputs world).made, permitted taken) :
    post (program.execute environment inputs world).outcome ∧
      Invariant (program.execute environment inputs world).world := by
  induction program generalizing inputs world with
  | done result => exact ⟨ensured, initially⟩
  | fail error => exact ⟨ensured, initially⟩
  | call asked next ih =>
      rcases List.forall_mem_cons.mp guarded with ⟨first, later⟩
      exact ih _ (ensured.2 _ (answered (good 0) initially first)) (fun index => good (index + 1))
        (preserved (good 0) initially ensured.1 first) later

end Program

end Foundations
