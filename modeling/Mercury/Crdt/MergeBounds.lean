import Mercury.Core.Hlc

/-!
# Merging at the bound of the counters

`Hlc::merge` adds one to a counter that may come from the network. In a build without
overflow checks the greatest counter becomes 0, and the merged clock is not after the
clock that had it. Everywhere else it is after both clocks, or `merge` panics.
-/

namespace Mercury.Hlc

/-- A merge that does not panic leaves a clock after both that went into it, by its wall
clock and counter alone. -/
def MergesForward (build : Build) (reading : ℕ) (clock remote : Hlc) : Prop :=
  ∀ next, merge build reading clock remote = some next → ∀ input ∈ [clock, remote],
    input < next ∧ (input.wallClockMs < next.wallClockMs ∨
      input.wallClockMs = next.wallClockMs ∧ input.counter < next.counter)

/-- The counters that belong to the latest wall clock are not the greatest of a `u32`. -/
def HasRoom (reading : ℕ) (clock remote : Hlc) : Prop :=
  ∀ input ∈ [clock, remote], input.wallClockMs = maxWall reading clock remote →
    input.counter + 1 < 2 ^ 32

theorem increment_wrapping (bits value : ℕ) :
    ∃ next, Build.wrapping.increment bits value = some next ∧ next < 2 ^ bits := by
  unfold Build.increment
  split
  · next fits => exact ⟨_, rfl, fits⟩
  · exact ⟨_, rfl, Nat.mod_lt _ (Nat.two_pow_pos bits)⟩

/-- Without overflow checks `merge` never panics, and its counter is a `u32`. -/
theorem merge_wrapping (reading : ℕ) (clock remote : Hlc) :
    ∃ next, merge .wrapping reading clock remote = some next ∧
      next.wallClockMs = maxWall reading clock remote ∧ next.counter < 2 ^ 32 := by
  have counted : ∃ counter, mergedCounter .wrapping reading clock remote = some counter ∧
      counter < 2 ^ 32 := by
    unfold mergedCounter
    dsimp only
    split_ifs
    · exact increment_wrapping 32 _
    · exact increment_wrapping 32 _
    · exact increment_wrapping 32 _
    · exact ⟨0, rfl, by decide⟩
  rcases counted with ⟨counter, counterEq, fits⟩
  exact ⟨_, by rw [merge, counterEq]; rfl, rfl, fits⟩

/-- Where there is room the build makes no difference. -/
theorem HasRoom.merge_eq {build : Build} {reading : ℕ} {clock remote : Hlc}
    (room : HasRoom reading clock remote) :
    merge build reading clock remote = merge .checked reading clock remote := by
  have mine : maxWall reading clock remote = clock.wallClockMs → clock.counter + 1 < 2 ^ 32 :=
    fun latest => room clock (by simp) latest.symm
  have theirs : maxWall reading clock remote = remote.wallClockMs →
      remote.counter + 1 < 2 ^ 32 :=
    fun latest => room remote (by simp) latest.symm
  unfold merge mergedCounter
  dsimp only
  split_ifs with both first second
  · have fits : max clock.counter remote.counter + 1 < 2 ^ 32 := by
      have := mine both.1
      have := theirs both.2
      omega
    rw [Build.increment_of_lt fits, Build.increment_of_lt fits]
  · rw [Build.increment_of_lt (mine first), Build.increment_of_lt (mine first)]
  · rw [Build.increment_of_lt (theirs second), Build.increment_of_lt (theirs second)]
  · rfl

theorem mergesForward_checked (reading : ℕ) (clock remote : Hlc) :
    MergesForward .checked reading clock remote := by
  intro next merged input inputMem
  have advances := (advances_merge merged).1
  refine ⟨advances.lt inputMem, ?_⟩
  rcases (advances.input_le input inputMem).lt_or_eq with before | same
  · exact Or.inl before
  · exact Or.inr ⟨same, advances.later input inputMem same⟩

/-- A clock at the bound comes out no later than it went in. -/
theorem not_mergesForward {reading : ℕ} {clock remote : Hlc}
    (full : ¬HasRoom reading clock remote) : ¬MergesForward .wrapping reading clock remote := by
  simp only [HasRoom, not_forall] at full
  rcases full with ⟨input, inputMem, latest, bound⟩
  intro forward
  rcases merge_wrapping reading clock remote with ⟨next, merged, wall, fits⟩
  rcases (forward next merged input inputMem).2 with before | ⟨-, later⟩
  · omega
  · omega

/-- `merge` moves forward exactly in builds that check for overflow, and where no counter of
the latest wall clock is the greatest. -/
theorem mergesForward_iff (build : Build) (reading : ℕ) (clock remote : Hlc) :
    MergesForward build reading clock remote ↔
      build = .checked ∨ HasRoom reading clock remote := by
  constructor
  · intro forward
    cases build with
    | checked => exact Or.inl rfl
    | wrapping =>
        by_contra neither
        exact not_mergesForward (fun room => neither (Or.inr room)) forward
  · rintro (rfl | room)
    · exact mergesForward_checked reading clock remote
    · intro next merged
      rw [room.merge_eq] at merged
      exact mergesForward_checked reading clock remote next merged

/-- A client sends the greatest counter with a clock that is ahead. -/
theorem merge_not_forward :
    ¬∀ (build : Build) (reading : ℕ) (clock remote : Hlc),
      MergesForward build reading clock remote := by
  intro mergesForward
  have forward := mergesForward .wrapping 1000 ⟨1000, 0, .replicate 1⟩
    ⟨2000, 2 ^ 32 - 1, .replicate 1⟩
  refine not_mergesForward (fun room => ?_) forward
  exact absurd (room ⟨2000, 2 ^ 32 - 1, .replicate 1⟩ (by simp) rfl) (by decide)

end Mercury.Hlc
