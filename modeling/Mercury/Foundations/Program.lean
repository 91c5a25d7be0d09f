import Mercury.Foundations.Run

/-!
# Programs that call their environment

A program is a tree of calls, each with a continuation for every answer; a call
may also raise. What a program does is the list of calls it performs with their
answers, and its outcome. `Ensures` reads a program once for every way its calls
may be answered; `Ensures.through` carries the result through programs that
implement the calls.
-/

namespace Foundations

/-- The calls a program may perform, each with the type of its answer. -/
structure Interface where
  Call : Type
  Answer : Call → Type

/-- Two sets of calls side by side. -/
abbrev Interface.sum (left right : Interface) : Interface where
  Call := left.Call ⊕ right.Call
  Answer := Sum.elim left.Answer right.Answer

inductive Program (face : Interface) (Error Result : Type) where
  | done (result : Result)
  | fail (error : Error)
  | call (asked : face.Call)
      (next : Except Error (face.Answer asked) → Program face Error Result)

/-- A performed call, with its answer. -/
structure Performed (face : Interface) (Error : Type) where
  call : face.Call
  answer : Except Error (face.Answer call)

namespace Program

variable {face lower : Interface} {Error Result Other : Type}

/-- `program`, and then `next` on its outcome. -/
def resume (program : Program face Error Result)
    (next : Except Error Result → Program face Error Other) : Program face Error Other :=
  match program with
  | done result => next (.ok result)
  | fail error => next (.error error)
  | call asked rest => call asked fun answer => (rest answer).resume next

instance : Monad (Program face Error) where
  pure := done
  bind program next :=
    program.resume fun
      | .ok result => next result
      | .error error => fail error

def perform (asked : face.Call) : Program face Error (face.Answer asked) :=
  call asked fun
    | .ok answer => done answer
    | .error error => fail error

/-- `program`, with `handler` in the place of a failure. -/
def rescue (program : Program face Error Result)
    (handler : Error → Program face Error Result) : Program face Error Result :=
  program.resume fun
    | .ok result => done result
    | .error error => handler error

def ofExcept : Except Error Result → Program face Error Result
  | .ok result => done result
  | .error error => fail error

/-- `program`, with every call carried out by its implementation. -/
def through (implementation : (asked : face.Call) → Program lower Error (face.Answer asked)) :
    Program face Error Result → Program lower Error Result
  | done result => done result
  | fail error => fail error
  | call asked next =>
      (implementation asked).resume fun answer => (next answer).through implementation

/-- `program` may perform `calls`, in this order and with these answers, and end in `outcome`. -/
def Performs : Program face Error Result → List (Performed face Error) →
    Except Error Result → Prop
  | done result, calls, outcome => calls = [] ∧ outcome = .ok result
  | fail error, calls, outcome => calls = [] ∧ outcome = .error error
  | call asked next, calls, outcome =>
      ∃ answer later, calls = ⟨asked, answer⟩ :: later ∧ (next answer).Performs later outcome

/-- `program` performs only `allowed` calls and ends in an outcome of `post`, in
whatever way of those that are `admitted` its calls are answered. -/
def Ensures (admitted : Performed face Error → Prop) (allowed : face.Call → Prop) :
    Program face Error Result → (Except Error Result → Prop) → Prop
  | done result, post => post (.ok result)
  | fail error, post => post (.error error)
  | call asked next, post =>
      allowed asked ∧
        ∀ answer, admitted ⟨asked, answer⟩ → (next answer).Ensures admitted allowed post

/-- The calls and the outcome when every call is answered by `answers`. -/
def runWith (answers : (asked : face.Call) → Except Error (face.Answer asked)) :
    Program face Error Result → List (Performed face Error) × Except Error Result
  | done result => ([], .ok result)
  | fail error => ([], .error error)
  | call asked next =>
      let later := (next (answers asked)).runWith answers
      (⟨asked, answers asked⟩ :: later.1, later.2)

theorem performs_runWith (answers : (asked : face.Call) → Except Error (face.Answer asked))
    (program : Program face Error Result) :
    program.Performs (program.runWith answers).1 (program.runWith answers).2 := by
  induction program with
  | done => exact ⟨rfl, rfl⟩
  | fail => exact ⟨rfl, rfl⟩
  | call asked next ih => exact ⟨_, _, rfl, ih (answers asked)⟩

theorem answer_of_mem_runWith {answers : (asked : face.Call) → Except Error (face.Answer asked)}
    {program : Program face Error Result} {taken : Performed face Error}
    (takenMem : taken ∈ (program.runWith answers).1) : taken.answer = answers taken.call := by
  induction program with
  | done => simp [runWith] at takenMem
  | fail => simp [runWith] at takenMem
  | call asked next ih =>
      rcases List.mem_cons.mp takenMem with rfl | later
      · rfl
      · exact ih (answers asked) later

namespace Ensures

variable {admitted : Performed face Error → Prop} {allowed : face.Call → Prop}

theorem mono {weaker : face.Call → Prop} {program : Program face Error Result}
    {post later : Except Error Result → Prop}
    (ensured : program.Ensures admitted allowed post)
    (weaken : ∀ asked, allowed asked → weaker asked)
    (implies : ∀ outcome, post outcome → later outcome) :
    program.Ensures admitted weaker later := by
  induction program with
  | done result => exact implies _ ensured
  | fail error => exact implies _ ensured
  | call asked next ih =>
      exact ⟨weaken asked ensured.1, fun answer granted => ih answer (ensured.2 answer granted)⟩

theorem post_mono {program : Program face Error Result} {post later : Except Error Result → Prop}
    (ensured : program.Ensures admitted allowed post)
    (implies : ∀ outcome, post outcome → later outcome) :
    program.Ensures admitted allowed later :=
  ensured.mono (fun _ permitted => permitted) implies

theorem and {other : face.Call → Prop} {program : Program face Error Result}
    {left right : Except Error Result → Prop} (first : program.Ensures admitted allowed left)
    (second : program.Ensures admitted other right) :
    program.Ensures admitted (fun asked => allowed asked ∧ other asked)
      fun outcome => left outcome ∧ right outcome := by
  induction program with
  | done result => exact ⟨first, second⟩
  | fail error => exact ⟨first, second⟩
  | call asked next ih =>
      exact ⟨⟨first.1, second.1⟩, fun answer granted =>
        ih answer (first.2 answer granted) (second.2 answer granted)⟩

@[simp]
theorem resume {program : Program face Error Result}
    {next : Except Error Result → Program face Error Other}
    {post : Except Error Other → Prop} :
    (program.resume next).Ensures admitted allowed post ↔
      program.Ensures admitted allowed fun outcome =>
        (next outcome).Ensures admitted allowed post := by
  induction program with
  | done result => exact Iff.rfl
  | fail error => exact Iff.rfl
  | call asked rest ih =>
      exact and_congr_right' (forall_congr' fun answer => imp_congr_right fun _ => ih answer)

@[simp]
theorem pure {result : Result} {post : Except Error Result → Prop} :
    (Pure.pure result : Program face Error Result).Ensures admitted allowed post ↔
      post (.ok result) :=
  Iff.rfl

@[simp]
theorem fail {error : Error} {post : Except Error Result → Prop} :
    (Program.fail error : Program face Error Result).Ensures admitted allowed post ↔
      post (.error error) :=
  Iff.rfl

/-- The rule of sequence: a failure skips the second program. -/
@[simp]
theorem bind {program : Program face Error Result} {next : Result → Program face Error Other}
    {post : Except Error Other → Prop} :
    (program >>= next).Ensures admitted allowed post ↔
      program.Ensures admitted allowed fun
        | .ok result => (next result).Ensures admitted allowed post
        | .error error => post (.error error) := by
  refine resume.trans ⟨fun ensured => ensured.post_mono ?_, fun ensured => ensured.post_mono ?_⟩ <;>
    rintro (error | result) holds <;> exact holds

@[simp]
theorem perform {asked : face.Call} {post : Except Error (face.Answer asked) → Prop} :
    (Program.perform asked : Program face Error _).Ensures admitted allowed post ↔
      allowed asked ∧ ∀ answer, admitted ⟨asked, answer⟩ → post answer := by
  refine and_congr_right' (forall_congr' ?_)
  rintro (error | answer) <;> exact Iff.rfl

@[simp]
theorem rescue {program : Program face Error Result}
    {handler : Error → Program face Error Result} {post : Except Error Result → Prop} :
    (program.rescue handler).Ensures admitted allowed post ↔
      program.Ensures admitted allowed fun
        | .ok result => post (.ok result)
        | .error error => (handler error).Ensures admitted allowed post := by
  refine resume.trans ⟨fun ensured => ensured.post_mono ?_, fun ensured => ensured.post_mono ?_⟩ <;>
    rintro (error | result) holds <;> exact holds

@[simp]
theorem ofExcept {outcome : Except Error Result} {post : Except Error Result → Prop} :
    (Program.ofExcept outcome : Program face Error Result).Ensures admitted allowed post ↔
      post outcome := by
  rcases outcome with error | result <;> exact Iff.rfl

theorem through {implementation : (asked : face.Call) → Program lower Error (face.Answer asked)}
    {admittedBelow : Performed lower Error → Prop} {allowedBelow : lower.Call → Prop}
    {program : Program face Error Result} {post : Except Error Result → Prop}
    (ensured : program.Ensures admitted allowed post)
    (implemented : ∀ asked, allowed asked →
      (implementation asked).Ensures admittedBelow allowedBelow
        fun answer => admitted ⟨asked, answer⟩) :
    (program.through implementation).Ensures admittedBelow allowedBelow post := by
  induction program with
  | done result => exact ensured
  | fail error => exact ensured
  | call asked next ih =>
      exact resume.mpr ((implemented asked ensured.1).post_mono
        fun answer granted => ih answer (ensured.2 answer granted))

theorem any {program : Program face Error Result} :
    program.Ensures admitted (fun _ => True) fun _ => True := by
  induction program with
  | done => trivial
  | fail => trivial
  | call asked next ih => exact ⟨trivial, fun answer _ => ih answer⟩

/-- A sequence whose outcome does not matter. -/
theorem seq {program : Program face Error Result} {next : Result → Program face Error Other}
    (first : program.Ensures admitted allowed fun _ => True)
    (later : ∀ result, (next result).Ensures admitted allowed fun _ => True) :
    (program >>= next).Ensures admitted allowed fun _ => True := by
  refine bind.mpr (first.post_mono ?_)
  rintro (error | result) -
  · trivial
  · exact later result

/-- A call whose answer does not matter. -/
theorem ask {asked : face.Call} (permitted : allowed asked) :
    (Program.perform asked : Program face Error _).Ensures admitted allowed fun _ => True :=
  perform.mpr ⟨permitted, fun _ _ => trivial⟩

/-- What holds of the calls and the outcome of an execution whose answers are admitted. -/
theorem of_performs {program : Program face Error Result} {post : Except Error Result → Prop}
    (ensured : program.Ensures admitted allowed post)
    {calls : List (Performed face Error)} {outcome : Except Error Result}
    (performs : program.Performs calls outcome) (granted : ∀ taken ∈ calls, admitted taken) :
    (∀ taken ∈ calls, allowed taken.call) ∧ post outcome := by
  induction program generalizing calls with
  | done result =>
      rcases performs with ⟨rfl, rfl⟩
      exact ⟨by simp, ensured⟩
  | fail error =>
      rcases performs with ⟨rfl, rfl⟩
      exact ⟨by simp, ensured⟩
  | call asked next ih =>
      rcases performs with ⟨answer, later, rfl, performs⟩
      rw [List.forall_mem_cons] at granted
      rcases ih answer (ensured.2 answer granted.1) performs granted.2 with ⟨permitted, holds⟩
      exact ⟨List.forall_mem_cons.mpr ⟨ensured.1, permitted⟩, holds⟩

end Ensures

section Through

variable {implementation : (asked : face.Call) → Program lower Error (face.Answer asked)}

theorem resume_resume {Last : Type} (program : Program face Error Result)
    (first : Except Error Result → Program face Error Other)
    (second : Except Error Other → Program face Error Last) :
    (program.resume first).resume second =
      program.resume fun outcome => (first outcome).resume second := by
  induction program with
  | done => rfl
  | fail => rfl
  | call asked rest ih => exact congrArg (call asked) (funext ih)

theorem through_resume (program : Program face Error Result)
    (next : Except Error Result → Program face Error Other) :
    (program.resume next).through implementation =
      (program.through implementation).resume fun outcome =>
        (next outcome).through implementation := by
  induction program with
  | done => rfl
  | fail => rfl
  | call asked rest ih =>
      simp only [resume, through, ih, resume_resume]

theorem through_bind (program : Program face Error Result)
    (next : Result → Program face Error Other) :
    (program >>= next).through implementation =
      program.through implementation >>= fun result => (next result).through implementation := by
  refine (through_resume program _).trans (congrArg _ (funext ?_))
  rintro (error | result) <;> rfl

theorem through_rescue (program : Program face Error Result)
    (handler : Error → Program face Error Result) :
    (program.rescue handler).through implementation =
      (program.through implementation).rescue fun error =>
        (handler error).through implementation := by
  refine (through_resume program _).trans (congrArg _ (funext ?_))
  rintro (error | result) <;> rfl

theorem bind_bind {Last : Type} (program : Program face Error Result)
    (first : Result → Program face Error Other) (second : Other → Program face Error Last) :
    program >>= first >>= second = program >>= fun result => first result >>= second := by
  refine (resume_resume program _ _).trans (congrArg _ (funext ?_))
  rintro (error | result) <;> rfl

theorem resume_eq_self (program : Program face Error Result)
    {next : Except Error Result → Program face Error Result}
    (same : ∀ outcome, next outcome = ofExcept outcome) : program.resume next = program := by
  induction program with
  | done result => exact same _
  | fail error => exact same _
  | call asked rest ih => exact congrArg (call asked) (funext ih)

theorem through_perform (asked : face.Call) :
    (perform asked : Program face Error _).through implementation = implementation asked := by
  apply resume_eq_self _
  rintro (error | answer) <;> rfl

theorem through_through {lowest : Interface} (program : Program face Error Result)
    (next : (asked : lower.Call) → Program lowest Error (lower.Answer asked)) :
    (program.through implementation).through next =
      program.through fun asked => (implementation asked).through next := by
  induction program with
  | done => rfl
  | fail => rfl
  | call asked rest ih => simp only [through, through_resume, ih]

/-- Calls that are carried out as themselves. -/
theorem through_self (program : Program face Error Result) : program.through perform = program := by
  induction program with
  | done => rfl
  | fail => rfl
  | call asked rest ih =>
      refine congrArg (call asked) (funext ?_)
      rintro (error | answer)
      · exact ih _
      · exact ih _

end Through

/-! ### Programs that return -/

/-- The program performs `allowed` calls only, and returns where these are answered. -/
def Completes (allowed : face.Call → Prop) (program : Program face Error Result) : Prop :=
  program.Ensures (fun taken => allowed taken.call → ∃ reply, taken.answer = .ok reply) allowed
    fun outcome => ∃ result, outcome = .ok result

namespace Completes

variable {allowed : face.Call → Prop} {lowerAllowed : lower.Call → Prop}

theorem pure (result : Result) : Completes allowed (Pure.pure result : Program face Error Result) :=
  ⟨result, rfl⟩

theorem perform {asked : face.Call} (permitted : allowed asked) :
    Completes allowed (Program.perform asked : Program face Error _) :=
  Ensures.perform.mpr ⟨permitted, fun _ replies => replies permitted⟩

theorem bind {program : Program face Error Result} {next : Result → Program face Error Other}
    (first : program.Completes allowed) (later : ∀ result, (next result).Completes allowed) :
    (program >>= next).Completes allowed := by
  refine Ensures.bind.mpr (Ensures.post_mono first ?_)
  rintro _ ⟨result, rfl⟩
  exact later result

theorem through {implementation : (asked : face.Call) → Program lower Error (face.Answer asked)}
    {program : Program face Error Result} (completes : program.Completes allowed)
    (implemented : ∀ asked, allowed asked → (implementation asked).Completes lowerAllowed) :
    (program.through implementation).Completes lowerAllowed :=
  Ensures.through completes fun asked permitted =>
    (implemented asked permitted).post_mono fun _ returned _ => returned

end Completes

/-! ### What a program may do -/

/-- Some execution of `program` performs `taken`. -/
def Reaches (program : Program face Error Result) (taken : Performed face Error) : Prop :=
  ∃ calls outcome, program.Performs calls outcome ∧ taken ∈ calls

/-- Some execution of `program` ends in `outcome`. -/
def Ends (program : Program face Error Result) (outcome : Except Error Result) : Prop :=
  ∃ calls, program.Performs calls outcome

theorem Performs.resume {program : Program face Error Result}
    {next : Except Error Result → Program face Error Other}
    {calls later : List (Performed face Error)} {outcome : Except Error Result}
    {final : Except Error Other} (first : program.Performs calls outcome)
    (second : (next outcome).Performs later final) :
    (program.resume next).Performs (calls ++ later) final := by
  induction program generalizing calls with
  | done =>
      rcases first with ⟨rfl, rfl⟩
      exact second
  | fail =>
      rcases first with ⟨rfl, rfl⟩
      exact second
  | call asked rest ih =>
      rcases first with ⟨answer, rest, rfl, first⟩
      exact ⟨answer, rest ++ later, rfl, ih answer first⟩

theorem Performs.bind {program : Program face Error Result}
    {next : Result → Program face Error Other} {calls later : List (Performed face Error)}
    {result : Result} {final : Except Error Other} (first : program.Performs calls (.ok result))
    (second : (next result).Performs later final) :
    (program >>= next).Performs (calls ++ later) final :=
  first.resume second

/-- A program whose result is passed on, performs the same calls. -/
theorem Performs.map {program : Program face Error Result} {passed : Result → Other}
    {calls : List (Performed face Error)} {outcome : Except Error Result}
    (performs : program.Performs calls outcome) :
    (program >>= fun result => pure (passed result)).Performs calls (outcome.map passed) := by
  rw [← List.append_nil calls]
  apply performs.resume
  rcases outcome with raised | result
  · exact ⟨rfl, rfl⟩
  · exact ⟨rfl, rfl⟩

/-- The calls of a sequence are those of its first program and those of the rest. -/
theorem Performs.of_resume {program : Program face Error Result}
    {next : Except Error Result → Program face Error Other}
    {calls : List (Performed face Error)} {final : Except Error Other}
    (performs : (program.resume next).Performs calls final) :
    ∃ first later outcome, calls = first ++ later ∧ program.Performs first outcome ∧
      (next outcome).Performs later final := by
  induction program generalizing calls with
  | done result => exact ⟨[], calls, .ok result, rfl, ⟨rfl, rfl⟩, performs⟩
  | fail error => exact ⟨[], calls, .error error, rfl, ⟨rfl, rfl⟩, performs⟩
  | call asked rest ih =>
      rcases performs with ⟨answer, made, rfl, performs⟩
      rcases ih answer performs with ⟨first, later, outcome, rfl, performed, continues⟩
      exact ⟨_, later, outcome, rfl, ⟨answer, first, rfl, performed⟩, continues⟩

/-- A sequence that succeeds, succeeds in both parts. -/
theorem Performs.of_bind {program : Program face Error Result}
    {next : Result → Program face Error Other} {calls : List (Performed face Error)}
    {final : Other} (performs : (program >>= next).Performs calls (.ok final)) :
    ∃ first later result, calls = first ++ later ∧ program.Performs first (.ok result) ∧
      (next result).Performs later (.ok final) := by
  rcases performs.of_resume with ⟨first, later, raised | result, split, performed, continues⟩
  · cases continues.2
  · exact ⟨first, later, result, split, performed, continues⟩

theorem Performs.of_perform {asked : face.Call} {calls : List (Performed face Error)}
    {result : face.Answer asked}
    (performs : (Program.perform asked : Program face Error _).Performs calls (.ok result)) :
    calls = [⟨asked, .ok result⟩] := by
  rcases performs with ⟨raised | answer, later, rfl, rest⟩
  · cases rest.2
  · rcases rest with ⟨rfl, resultEq⟩
    cases resultEq
    rfl

theorem Ends.resume {program : Program face Error Result}
    {next : Except Error Result → Program face Error Other} {outcome : Except Error Result}
    {final : Except Error Other} (first : program.Ends outcome)
    (second : (next outcome).Ends final) : (program.resume next).Ends final := by
  rcases first with ⟨calls, first⟩
  rcases second with ⟨later, second⟩
  exact ⟨_, first.resume second⟩

theorem Ends.bind {program : Program face Error Result}
    {next : Result → Program face Error Other} {result : Result}
    {final : Except Error Other} (first : program.Ends (.ok result))
    (second : (next result).Ends final) : (program >>= next).Ends final :=
  first.resume second

theorem Ends.perform {asked : face.Call} (answer : face.Answer asked) :
    (Program.perform asked : Program face Error _).Ends (.ok answer) :=
  ⟨_, .ok answer, [], rfl, rfl, rfl⟩

theorem Reaches.perform {asked : face.Call} (answer : face.Answer asked) :
    (Program.perform asked : Program face Error _).Reaches ⟨asked, .ok answer⟩ :=
  ⟨_, .ok answer, ⟨.ok answer, [], rfl, rfl, rfl⟩, by simp⟩

/-- What a program ensures of its calls holds of whatever it may perform. -/
theorem Ensures.of_reaches {allowed : face.Call → Prop} {program : Program face Error Result}
    {post : Except Error Result → Prop} {taken : Performed face Error}
    (ensured : program.Ensures (fun _ => True) allowed post) (reaches : program.Reaches taken) :
    allowed taken.call := by
  rcases reaches with ⟨calls, outcome, performs, takenMem⟩
  exact (ensured.of_performs performs fun _ _ => trivial).1 taken takenMem

/-- What the first program may perform, the sequence may perform. -/
theorem Reaches.resume_left [Inhabited Error] {program : Program face Error Result}
    {next : Except Error Result → Program face Error Other} {taken : Performed face Error}
    (reaches : program.Reaches taken) : (program.resume next).Reaches taken := by
  rcases reaches with ⟨calls, outcome, performs, takenMem⟩
  exact ⟨_, _, performs.resume (performs_runWith (fun _ => .error default) (next outcome)),
    List.mem_append_left _ takenMem⟩

theorem Reaches.resume_right {program : Program face Error Result}
    {next : Except Error Result → Program face Error Other} {outcome : Except Error Result}
    {taken : Performed face Error} (first : program.Ends outcome)
    (reaches : (next outcome).Reaches taken) : (program.resume next).Reaches taken := by
  rcases first with ⟨calls, first⟩
  rcases reaches with ⟨later, final, performs, takenMem⟩
  exact ⟨_, _, first.resume performs, List.mem_append_right _ takenMem⟩

theorem Reaches.bind_left [Inhabited Error] {program : Program face Error Result}
    {next : Result → Program face Error Other} {taken : Performed face Error}
    (reaches : program.Reaches taken) : (program >>= next).Reaches taken :=
  reaches.resume_left

theorem Reaches.bind_right {program : Program face Error Result}
    {next : Result → Program face Error Other} {result : Result}
    {taken : Performed face Error} (first : program.Ends (.ok result))
    (reaches : (next result).Reaches taken) : (program >>= next).Reaches taken :=
  Reaches.resume_right first reaches

end Program

end Foundations
