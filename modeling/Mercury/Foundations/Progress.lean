import Mercury.Foundations.Program

/-!
# Programs on their way

What a program has performed so far, and what it has still to do. A sequence that has come
to a call is still in its first program, or has performed that one and is in the rest.
-/

namespace Foundations.Program

variable {face : Interface} {Error Result Other : Type}

/-- After `calls` the program has `rest` still to do. -/
def Comes : Program face Error Result → List (Performed face Error) →
    Program face Error Result → Prop
  | done result, calls, rest => calls = [] ∧ rest = done result
  | fail error, calls, rest => calls = [] ∧ rest = fail error
  | call asked next, calls, rest =>
      calls = [] ∧ rest = call asked next ∨
        ∃ answer later, calls = ⟨asked, answer⟩ :: later ∧ (next answer).Comes later rest

/-- After `calls` the program asks for a call. -/
def Asks (program : Program face Error Result) (calls : List (Performed face Error))
    (asked : face.Call) : Prop :=
  ∃ next, program.Comes calls (call asked next)

namespace Comes

variable {program rest : Program face Error Result} {calls later : List (Performed face Error)}

theorem start (program : Program face Error Result) : program.Comes [] program := by
  cases program with
  | done => exact ⟨rfl, rfl⟩
  | fail => exact ⟨rfl, rfl⟩
  | call => exact Or.inl ⟨rfl, rfl⟩

theorem snoc {asked : face.Call} {answer : Except Error (face.Answer asked)}
    {next : Except Error (face.Answer asked) → Program face Error Result}
    (comes : program.Comes calls (call asked next)) :
    program.Comes (calls ++ [⟨asked, answer⟩]) (next answer) := by
  induction program generalizing calls with
  | done => cases comes.2
  | fail => cases comes.2
  | call first rest ih =>
      rcases comes with ⟨rfl, same⟩ | ⟨reply, later, rfl, comes⟩
      · cases same
        exact Or.inr ⟨answer, [], rfl, start _⟩
      · exact Or.inr ⟨reply, _, rfl, ih reply comes⟩

/-- What the rest performs, the program performs after what it has performed already. -/
theorem performs {outcome : Except Error Result} (comes : program.Comes calls rest)
    (continues : rest.Performs later outcome) : program.Performs (calls ++ later) outcome := by
  induction program generalizing calls with
  | done =>
      rcases comes with ⟨rfl, rfl⟩
      exact continues
  | fail =>
      rcases comes with ⟨rfl, rfl⟩
      exact continues
  | call asked next ih =>
      rcases comes with ⟨rfl, rfl⟩ | ⟨answer, middle, rfl, comes⟩
      · exact continues
      · exact ⟨answer, _, rfl, ih answer comes⟩

theorem performs_done {result : Result} (comes : program.Comes calls (done result)) :
    program.Performs calls (.ok result) := by
  have performed := comes.performs (show (done result : Program face Error Result).Performs [] _
    from ⟨rfl, rfl⟩)
  rwa [List.append_nil] at performed

/-- What a program ensures however it is answered, the rest of it ensures. -/
theorem ensures {allowed : face.Call → Prop} {post : Except Error Result → Prop}
    (comes : program.Comes calls rest)
    (ensured : program.Ensures (fun _ => True) allowed post) :
    rest.Ensures (fun _ => True) allowed post := by
  induction program generalizing calls with
  | done =>
      rw [comes.2]
      exact ensured
  | fail =>
      rw [comes.2]
      exact ensured
  | call asked next ih =>
      rcases comes with ⟨-, rfl⟩ | ⟨answer, later, -, comes⟩
      · exact ensured
      · exact ih answer comes (ensured.2 answer trivial)

end Comes

namespace Asks

variable {calls : List (Performed face Error)} {asked : face.Call}

theorem resume {program : Program face Error Result}
    {next : Except Error Result → Program face Error Other}
    (asks : (program.resume next).Asks calls asked) :
    program.Asks calls asked ∨ ∃ first later outcome, calls = first ++ later ∧
      program.Performs first outcome ∧ (next outcome).Asks later asked := by
  induction program generalizing calls with
  | done result => exact Or.inr ⟨[], calls, .ok result, rfl, ⟨rfl, rfl⟩, asks⟩
  | fail error => exact Or.inr ⟨[], calls, .error error, rfl, ⟨rfl, rfl⟩, asks⟩
  | call command rest ih =>
      rcases asks with ⟨after, ⟨rfl, same⟩ | ⟨answer, made, rfl, comes⟩⟩
      · cases same
        exact Or.inl ⟨rest, Or.inl ⟨rfl, rfl⟩⟩
      · rcases ih answer ⟨after, comes⟩ with ⟨rest, inFirst⟩ |
          ⟨first, later, outcome, rfl, performs, asks⟩
        · exact Or.inl ⟨rest, Or.inr ⟨answer, made, rfl, inFirst⟩⟩
        · exact Or.inr ⟨_, later, outcome, rfl, ⟨answer, first, rfl, performs⟩, asks⟩

theorem bind {program : Program face Error Result} {next : Result → Program face Error Other}
    (asks : (program >>= next).Asks calls asked) :
    program.Asks calls asked ∨ ∃ first later result, calls = first ++ later ∧
      program.Performs first (.ok result) ∧ (next result).Asks later asked := by
  rcases asks.resume with inFirst | ⟨first, later, raised | result, split, performs, asks⟩
  · exact Or.inl inFirst
  · rcases asks with ⟨after, comes⟩
    cases comes.2
  · exact Or.inr ⟨first, later, result, split, performs, asks⟩

theorem perform {command : face.Call}
    (asks : (Program.perform command : Program face Error _).Asks calls asked) :
    calls = [] ∧ asked = command := by
  rcases asks with ⟨after, ⟨rfl, same⟩ | ⟨raised | answer, made, rfl, comes⟩⟩
  · cases same
    exact ⟨rfl, rfl⟩
  · cases comes.2
  · cases comes.2

theorem allowed {program : Program face Error Result} {allowed : face.Call → Prop}
    {post : Except Error Result → Prop} (asks : program.Asks calls asked)
    (ensured : program.Ensures (fun _ => True) allowed post) : allowed asked := by
  rcases asks with ⟨after, comes⟩
  exact (comes.ensures ensured).1

end Asks

end Foundations.Program
