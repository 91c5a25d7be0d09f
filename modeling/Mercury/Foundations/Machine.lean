import Mathlib.Data.List.Basic

/-!
# Machines that answer calls

A machine answers each call with an output, and two machines that are related by a
simulation give the same outputs for every sequence of calls.
-/

namespace Foundations

universe u v w

structure Machine (Call : Type u) (Output : Type v) where
  State : Type w
  start : State
  step : State → Call → State × Output

namespace Machine

variable {Call : Type u} {Output : Type v}

section Runs

variable (machine : Machine Call Output)

def afterFrom (state : machine.State) (calls : List Call) : machine.State :=
  calls.foldl (fun state call => (machine.step state call).1) state

def outputsFrom (state : machine.State) : List Call → List Output
  | [] => []
  | call :: rest =>
      (machine.step state call).2 :: outputsFrom (machine.step state call).1 rest

/-- The state after the calls. -/
def after (calls : List Call) : machine.State :=
  machine.afterFrom machine.start calls

/-- The outputs of the calls. -/
def outputs (calls : List Call) : List Output :=
  machine.outputsFrom machine.start calls

variable {machine}

theorem afterFrom_invariant {Invariant : machine.State → Prop}
    (preserved : ∀ {state} call, Invariant state → Invariant (machine.step state call).1)
    {state : machine.State} (initially : Invariant state) (calls : List Call) :
    Invariant (machine.afterFrom state calls) := by
  induction calls generalizing state with
  | nil => exact initially
  | cons call rest ih => exact ih (preserved call initially)

end Runs

/-- `relates` is kept by every call, and the outputs are the same. -/
structure Simulation (concrete abstract : Machine Call Output)
    (relates : concrete.State → abstract.State → Prop) : Prop where
  start : relates concrete.start abstract.start
  step : ∀ {state other} call, relates state other →
    relates (concrete.step state call).1 (abstract.step other call).1 ∧
      (concrete.step state call).2 = (abstract.step other call).2

namespace Simulation

variable {concrete abstract : Machine Call Output}
  {relates : concrete.State → abstract.State → Prop}

theorem from_related (simulates : Simulation concrete abstract relates)
    {state : concrete.State} {other : abstract.State} (related : relates state other)
    (calls : List Call) :
    relates (concrete.afterFrom state calls) (abstract.afterFrom other calls) ∧
      concrete.outputsFrom state calls = abstract.outputsFrom other calls := by
  induction calls generalizing state other with
  | nil => exact ⟨related, rfl⟩
  | cons call rest ih =>
      rcases simulates.step call related with ⟨next, sameOutput⟩
      rcases ih next with ⟨last, sameOutputs⟩
      refine ⟨last, ?_⟩
      rw [outputsFrom, outputsFrom, sameOutput, sameOutputs]

theorem after (simulates : Simulation concrete abstract relates) (calls : List Call) :
    relates (concrete.after calls) (abstract.after calls) :=
  (simulates.from_related simulates.start calls).1

theorem outputs (simulates : Simulation concrete abstract relates) (calls : List Call) :
    concrete.outputs calls = abstract.outputs calls :=
  (simulates.from_related simulates.start calls).2

end Simulation

end Machine

end Foundations
