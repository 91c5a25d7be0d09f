import Mercury.Foundations.Execution
import Mercury.Gateway.Stores

/-!
# Frames on the stores

What a socket's frame does to the stores when nothing else happens meanwhile: the
commands of its program, one after the other, each with what the outside contributes
to it.
-/

namespace Mercury.Gateway

open Foundations Foundations.Program Persistence

/-- The answer to a command, and the stores after it. What is no command to the stores
leaves them alone. -/
def Stores.perform (moment : Moment) (stores : Stores) :
    (command : Command) → Except Raise command.Answer × Stores
  | .time => (.ok moment.time, stores)
  | .generateId => (.ok moment.id, stores)
  | .setting => (.ok moment.setting, stores)
  | .natsPublish subject message =>
      (moment.fate.answer (.natsPublish subject message) (.ok (.ok ())), stores)
  | .startTask _ => (.ok (), stores)
  | .subscribe _ => (.ok (), stores)
  | .unsubscribe _ => (.ok (), stores)
  | .broadcast .. => (.ok (), stores)
  | .broadcastFrom .. => (.ok (), stores)
  | .track .. => (.ok (), stores)
  | .updatePresence .. => (.ok (), stores)
  | command =>
      let executed := stores.execute moment command
      (moment.fate.answer command executed.1,
        if moment.fate.applies then executed.2 else stores)

/-- The execution of a program on the stores, with a moment for each of its commands. -/
def Stores.run {Result : Type} (stores : Stores) (program : Stored Result)
    (moments : ℕ → Moment) : Execution commands Raise Result Stores :=
  program.execute Stores.perform moments stores

/-- The commands that the database can refuse by an exception. -/
def MayRaise : Command → Prop
  | .insertMember .. => True
  | .upsertCursor _ => True
  | _ => False

namespace Stores

variable {stores after : Stores} {moments : ℕ → Moment} {Result Other : Type} {command : Command}

theorem perform_del {moment : Moment} {key : Bytes} (carried : moment.fate = .carried) :
    Stores.perform moment stores (.del key) = (.ok (.ok ()), stores.setRedis key none) := by
  simp [Stores.perform, carried, Fate.answer, Fate.applies, Stores.execute]

theorem run_pure (result : Result) :
    stores.run (pure result) moments = ⟨[], .ok result, stores⟩ :=
  rfl

theorem run_send {answer : Except Raise command.Answer}
    (performed : Stores.perform (moments 0) stores command = (answer, after)) :
    stores.run (send command) moments = ⟨[⟨command, answer⟩], answer, after⟩ :=
  execute_perform performed

/-- A command that succeeds, and what follows it. -/
theorem run_send_bind {answer : command.Answer} (next : command.Answer → Stored Result)
    (performed : Stores.perform (moments 0) stores command = (.ok answer, after)) :
    stores.run (send command >>= next) moments =
      let later := after.run (next answer) (dropInputs 1 moments)
      ⟨⟨command, .ok answer⟩ :: later.made, later.outcome, later.world⟩ :=
  execute_bind next (run_send performed)

theorem run_send_bind_error {error : Raise} (next : command.Answer → Stored Result)
    (performed : Stores.perform (moments 0) stores command = (.error error, after)) :
    stores.run (send command >>= next) moments =
      ⟨[⟨command, .error error⟩], .error error, after⟩ :=
  execute_bind_error next (run_send performed)

theorem run_bind {program : Stored Result} {made : List (Performed commands Raise)}
    {result : Result} (next : Result → Stored Other)
    (first : stores.run program moments = ⟨made, .ok result, after⟩) :
    stores.run (program >>= next) moments =
      let later := after.run (next result) (dropInputs made.length moments)
      ⟨made ++ later.made, later.outcome, later.world⟩ :=
  execute_bind next first

theorem run_bind_error {program : Stored Result} {made : List (Performed commands Raise)}
    {error : Raise} (next : Result → Stored Other)
    (first : stores.run program moments = ⟨made, .error error, after⟩) :
    stores.run (program >>= next) moments = ⟨made, .error error, after⟩ :=
  execute_bind_error next first

theorem run_rescue {program : Stored Result} {made : List (Performed commands Raise)}
    {result : Result} (handler : Raise → Stored Result)
    (first : stores.run program moments = ⟨made, .ok result, after⟩) :
    stores.run (program.rescue handler) moments = ⟨made, .ok result, after⟩ :=
  execute_rescue handler first

/-- A failure that is rescued without a command. -/
theorem run_rescue_error {program : Stored Result} {made : List (Performed commands Raise)}
    {error : Raise} {handler : Raise → Stored Result} {result : Result}
    (handled : handler error = pure result)
    (first : stores.run program moments = ⟨made, .error error, after⟩) :
    stores.run (program.rescue handler) moments = ⟨made, .ok result, after⟩ := by
  refine (execute_rescue_error handler first).trans ?_
  rw [handled]
  exact congrArg (Execution.mk · _ _) (List.append_nil made)

/-- A command leaves the stores alone, or does to them what it does where it is carried out. -/
theorem perform_after (moment : Moment) (stores : Stores) (command : Command) :
    (stores.perform moment command).2 = stores ∨
      (stores.perform moment command).2 = (stores.execute moment command).2 := by
  cases command <;> first
    | exact Or.inl rfl
    | by_cases applies : moment.fate.applies
      · exact Or.inr (if_pos applies)
      · exact Or.inl (if_neg applies)

/-- A command that is carried out is answered. -/
theorem perform_replies {moment : Moment} (carried : moment.fate = .carried)
    (surely : ¬MayRaise command) :
    ∃ reply, (stores.perform moment command).1 = .ok reply := by
  rcases moment with ⟨time, id, setting, fate⟩
  cases carried
  cases command with
  | insertMember => exact absurd trivial surely
  | upsertCursor => exact absurd trivial surely
  | incr key =>
      simp only [perform, Fate.answer, execute]
      split <;> exact ⟨_, rfl⟩
  | insertReaction tid cid mid uid emoji => cases emoji <;> exact ⟨_, rfl⟩
  | insertUser row =>
      simp only [perform, Fate.answer, execute]
      split <;> exact ⟨_, rfl⟩
  | insertDevice row =>
      simp only [perform, Fate.answer, execute]
      split <;> exact ⟨_, rfl⟩
  | _ => exact ⟨_, rfl⟩

/-- The rule of executions on the stores: an invariant under which commands are answered as
`admitted`, and which every command that is `allowed` preserves, as far as each is `permitted`
with its answer. -/
theorem run_ensures (Good : Moment → Prop) (permitted : Performed commands Raise → Prop)
    {Holds : Stores → Prop} {admitted : Performed commands Raise → Prop}
    {allowed : Command → Prop} {program : Stored Result} {post : Except Raise Result → Prop}
    (ensured : program.Ensures admitted allowed post)
    (answered : ∀ {moment source command}, Good moment → Holds source →
      permitted ⟨command, (Stores.perform moment source command).1⟩ →
        admitted ⟨command, (Stores.perform moment source command).1⟩)
    (preserved : ∀ {moment source command}, Good moment → Holds source → allowed command →
      permitted ⟨command, (Stores.perform moment source command).1⟩ →
        Holds (Stores.perform moment source command).2)
    (good : ∀ index, Good (moments index)) (initially : Holds stores)
    (guarded : ∀ taken ∈ (stores.run program moments).made, permitted taken) :
    post (stores.run program moments).outcome ∧ Holds (stores.run program moments).world :=
  execute_ensures ensured answered preserved good initially guarded

/-- What every command carried out preserves, a program preserves. -/
theorem run_preserves {Holds : Stores → Prop}
    (preserved : ∀ {moment source command}, Holds source →
      Holds (Stores.execute moment source command).2) (program : Stored Result)
    (initially : Holds stores) : Holds (stores.run program moments).world := by
  have any : program.Ensures (fun _ => True) (fun _ => True) fun _ => True := Ensures.any
  refine (run_ensures (fun _ => True) (fun _ => True) any (fun _ _ _ => trivial) ?_
    (fun _ => trivial) initially fun _ _ => trivial).2
  intro moment source command _ holds _ _
  rcases perform_after moment source command with same | executed
  · rwa [same]
  · rw [executed]
    exact preserved holds

end Stores

/-- The user has a row in the channel. -/
def Stores.HasMember (stores : Stores) (tenantId channelId userId : Id16) : Prop :=
  ∃ role, (⟨tenantId, channelId, userId, role⟩ : MemberRow) ∈ stores.members

/-! ## One activity after the other -/

/-- What a node does from start to end: a connection, a frame or a task. -/
inductive Activity where
  | connects (tenantId userId deviceId : Id16)
  | handles (socket : Socket) (data : Bytes)
  | runs (task : BackgroundTask)

def Activity.program (native : Native) (json : Json) (rate : ℕ) : Activity → Stored Unit
  | .connects tenantId userId deviceId => do
      let _ ← initSocket tenantId userId deviceId
  | .handles socket data => do
      let _ ← storedHandleIn native json rate data socket
  | .runs task => storedRunTask json rate task

/-- A step of the stores while the activities of the node wait for each other. -/
inductive SerialLabel where
  | performed (activity : Activity) (made : List (Performed commands Raise))
  | expired (key : Bytes)

inductive SerialStep (native : Native) (json : Json) (rate : ℕ) :
    Stores → SerialLabel → Stores → Prop where
  | performed {stores : Stores} {activity : Activity} {moments : ℕ → Moment} :
      SerialStep native json rate stores
        (.performed activity (stores.run (activity.program native json rate) moments).made)
        (stores.run (activity.program native json rate) moments).world
  | expired {stores : Stores} {key : Bytes} :
      SerialStep native json rate stores (.expired key) (stores.setRedis key none)

end Mercury.Gateway
