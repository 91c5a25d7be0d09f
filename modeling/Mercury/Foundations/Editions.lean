import Mathlib.Data.List.Nodup
import Mathlib.Logic.Relation
import Mathlib.Order.Lattice
import Mercury.Foundations.Run

/-!
# Versions that one party makes and others take over

Parties that hold versions of one object. A party founds the object, edits the version that
it holds, takes over an edit of the version that it holds, or adopts the version that an
edit led to, whatever it held. Nothing decides between two edits of one version. Where one
party makes them all, the versions are a chain, and all parties are somewhere on it. Where
two parties hold different edits of one version, neither takes over what the other makes,
ever again.
-/

namespace Foundations

universe u v

structure Edit (Version : Type v) where
  source : Version
  target : Version

/-- The versions that the parties hold, and the edits that were made. -/
structure Edited (Party : Type u) (Version : Type v) where
  version : Party → Option Version
  edits : List (Edit Version)

namespace Edited

inductive Action (Party : Type u) where
  | found (party : Party)
  | edit (party : Party)
  | takeOver (party : Party)
  | adopt (party : Party)

variable {Party : Type u} {Version : Type v}

def start : Edited Party Version where
  version _ := none
  edits := []

open Classical in
noncomputable def hold (state : Edited Party Version) (party : Party) (version : Version) :
    Edited Party Version :=
  { state with
    version := fun holder => if holder = party then some version else state.version holder }

/-- `Founds` are the first versions, and `Edits` the edits that can be made. -/
inductive Step (Founds : Version → Prop) (Edits : Version → Version → Prop) :
    Edited Party Version → Action Party → Edited Party Version → Prop where
  | found {state : Edited Party Version} {party : Party} {first : Version}
      (free : state.version party = none) (founds : Founds first) :
      Step Founds Edits state (.found party) (state.hold party first)
  | edit {state : Edited Party Version} {party : Party} {source target : Version}
      (holds : state.version party = some source) (edits : Edits source target) :
      Step Founds Edits state (.edit party)
        { state.hold party target with edits := ⟨source, target⟩ :: state.edits }
  | takeOver {state : Edited Party Version} {party : Party} {edit : Edit Version}
      (made : edit ∈ state.edits) (holds : state.version party = some edit.source) :
      Step Founds Edits state (.takeOver party) (state.hold party edit.target)
  | adopt {state : Edited Party Version} {party : Party} {edit : Edit Version}
      (made : edit ∈ state.edits) :
      Step Founds Edits state (.adopt party) (state.hold party edit.target)

variable {Founds : Version → Prop} {Edits : Version → Version → Prop}
  {state next : Edited Party Version} {action : Action Party} {actions : List (Action Party)}

/-- What a party holds after it has moved is the new version or an old one. -/
theorem version_hold_cases {party other : Party} {version held : Version}
    (holds : (state.hold party version).version other = some held) :
    other = party ∧ held = version ∨ other ≠ party ∧ state.version other = some held := by
  by_cases same : other = party
  · subst same
    left
    simp only [hold, if_pos, Option.some.injEq] at holds
    exact ⟨rfl, holds.symm⟩
  · right
    simp only [hold, if_neg same] at holds
    exact ⟨same, holds⟩

@[simp]
theorem version_hold_self (party : Party) (version : Version) :
    (state.hold party version).version party = some version :=
  if_pos rfl

@[simp]
theorem version_hold_of_ne {party other : Party} (version : Version) (different : other ≠ party) :
    (state.hold party version).version other = state.version other :=
  if_neg different

def Action.party : Action Party → Party
  | .found party => party
  | .edit party => party
  | .takeOver party => party
  | .adopt party => party

/-- Only the party that acts moves. -/
theorem Step.version_of_ne (taken : Step Founds Edits state action next) {other : Party}
    (different : other ≠ action.party) : next.version other = state.version other := by
  cases taken with
  | found => exact version_hold_of_ne _ different
  | edit => exact version_hold_of_ne _ different
  | takeOver => exact version_hold_of_ne _ different
  | adopt => exact version_hold_of_ne _ different

theorem Step.edits_subset (taken : Step Founds Edits state action next) :
    state.edits ⊆ next.edits := by
  cases taken with
  | found => exact List.Subset.refl _
  | edit => exact List.subset_cons_self _ _
  | takeOver => exact List.Subset.refl _
  | adopt => exact List.Subset.refl _

/-! ## What all versions have in common -/

/-- The versions that are held or that edits led to are good, and the edits could be made. -/
structure AllGood (Edits : Version → Version → Prop) (Good : Version → Prop)
    (state : Edited Party Version) : Prop where
  held : ∀ party version, state.version party = some version → Good version
  made : ∀ edit ∈ state.edits, Edits edit.source edit.target ∧ Good edit.target

section AllGood

variable {Good : Version → Prop}

theorem AllGood.hold (good : state.AllGood Edits Good) (party : Party) {version : Version}
    (isGood : Good version) : (state.hold party version).AllGood Edits Good := by
  refine ⟨fun other held holds => ?_, good.made⟩
  rcases version_hold_cases holds with ⟨_, rfl⟩ | ⟨_, before⟩
  · exact isGood
  · exact good.held other held before

theorem AllGood.step (founded : ∀ version, Founds version → Good version)
    (edited : ∀ source target, Good source → Edits source target → Good target)
    (good : state.AllGood Edits Good) (taken : Step Founds Edits state action next) :
    next.AllGood Edits Good := by
  cases taken with
  | found free founds => exact good.hold _ (founded _ founds)
  | edit holds edits =>
      have isGood := edited _ _ (good.held _ _ holds) edits
      refine ⟨(good.hold _ isGood).held, fun made madeMem => ?_⟩
      rcases List.mem_cons.mp madeMem with rfl | earlier
      · exact ⟨edits, isGood⟩
      · exact good.made made earlier
  | takeOver made holds => exact good.hold _ (good.made _ made).2
  | adopt made => exact good.hold _ (good.made _ made).2

theorem allGood_start : (start : Edited Party Version).AllGood Edits Good :=
  ⟨by simp [start], by simp [start]⟩

end AllGood

/-! ## One editor -/

/-- The editor founds and edits, and the others take over and adopt. -/
def Action.ByEditor (editor : Party) : Action Party → Prop
  | .found party => party = editor
  | .edit party => party = editor
  | .takeOver _ => True
  | .adopt party => party ≠ editor

/-- The versions are a chain, the last one is the editor's, and the stages tell them apart. -/
structure Chained (stage : Version → ℕ) (editor : Party) (state : Edited Party Version)
    (chain : List Version) : Prop where
  ascending : chain.Pairwise fun earlier later => stage earlier < stage later
  last : state.version editor = chain.getLast?
  held : ∀ party version, state.version party = some version → version ∈ chain
  made : ∀ edit ∈ state.edits, edit.target ∈ chain ∧ stage edit.source < stage edit.target

section OneEditor

variable {stage : Version → ℕ} {editor : Party} {chain : List Version}

theorem Chained.le_last (chained : state.Chained stage editor chain) {version last : Version}
    (versionMem : version ∈ chain) (holds : state.version editor = some last) :
    stage version ≤ stage last := by
  have ascending := chained.ascending
  have isLast := chained.last.symm.trans holds
  rcases List.getLast?_eq_some_iff.mp isLast with ⟨before, rfl⟩
  rcases List.mem_append.mp versionMem with earlier | same
  · exact Nat.le_of_lt ((List.pairwise_append.mp ascending).2.2 version earlier last (by simp))
  · simp [List.mem_singleton.mp same]

theorem Chained.eq_of_stage_eq (chained : state.Chained stage editor chain)
    {left right : Version} (leftMem : left ∈ chain) (rightMem : right ∈ chain)
    (same : stage left = stage right) : left = right := by
  have distinct : (chain.map stage).Nodup :=
    List.pairwise_map.mpr (chained.ascending.imp Nat.ne_of_lt)
  exact List.inj_on_of_nodup_map distinct leftMem rightMem same

/-- Somebody who is not the editor moves to a version of the chain. -/
theorem Chained.hold (chained : state.Chained stage editor chain) {party : Party}
    (other : party ≠ editor) {version : Version} (versionMem : version ∈ chain) :
    (state.hold party version).Chained stage editor chain := by
  refine ⟨chained.ascending, ?_, fun holder held holds => ?_, chained.made⟩
  · rw [version_hold_of_ne version other.symm]
    exact chained.last
  · rcases version_hold_cases holds with ⟨_, rfl⟩ | ⟨_, before⟩
    · exact versionMem
    · exact chained.held holder held before

theorem Chained.step (advances : ∀ source target, Edits source target → stage source < stage target)
    (chained : state.Chained stage editor chain) (byEditor : action.ByEditor editor)
    (taken : Step Founds Edits state action next) :
    ∃ longer, next.Chained stage editor longer := by
  cases taken with
  | @found _ first free founds =>
      cases byEditor
      have empty : chain = [] := List.getLast?_eq_none_iff.mp (chained.last.symm.trans free)
      subst empty
      refine ⟨[first], List.pairwise_singleton _ _, by simp, fun party held holds => ?_, ?_⟩
      · rcases version_hold_cases holds with ⟨_, rfl⟩ | ⟨_, before⟩
        · exact List.mem_singleton_self _
        · exact absurd (chained.held party held before) List.not_mem_nil
      · intro edit made
        exact absurd (chained.made edit made).1 List.not_mem_nil
  | @edit _ source target holds edits =>
      cases byEditor
      have later := advances source target edits
      refine ⟨chain ++ [target], ?_, by simp, fun party held holds => ?_, ?_⟩
      · apply List.pairwise_append.mpr
        refine ⟨chained.ascending, List.pairwise_singleton _ _, ?_⟩
        intro earlier earlierMem last lastMem
        have before := chained.le_last earlierMem holds
        rw [List.mem_singleton.mp lastMem]
        omega
      · rcases version_hold_cases holds with ⟨_, rfl⟩ | ⟨_, before⟩
        · simp
        · exact List.mem_append_left _ (chained.held party held before)
      · intro made madeMem
        rcases List.mem_cons.mp madeMem with rfl | earlier
        · exact ⟨by simp, later⟩
        · exact (chained.made made earlier).imp_left (List.mem_append_left _)
  | @takeOver party edit made holds =>
      rcases chained.made edit made with ⟨targetMem, later⟩
      refine ⟨chain, chained.hold ?_ targetMem⟩
      -- the editor would have to be behind its own edit
      rintro rfl
      have atMost := chained.le_last targetMem holds
      omega
  | adopt made => exact ⟨chain, chained.hold byEditor (chained.made _ made).1⟩

theorem chained_start : (start : Edited Party Version).Chained stage editor [] :=
  ⟨List.Pairwise.nil, rfl, by simp [start], by simp [start]⟩

/-- Where one party makes all edits, every party is on the editor's chain. -/
theorem chained_run (advances : ∀ source target, Edits source target → stage source < stage target)
    (run : Run (Step Founds Edits) start actions state)
    (byEditor : ∀ action ∈ actions, action.ByEditor editor) :
    ∃ chain, state.Chained stage editor chain := by
  induction run with
  | refl => exact ⟨[], chained_start⟩
  | snoc earlier last ih =>
      rcases ih fun action actionMem => byEditor action (List.mem_append_left _ actionMem) with
        ⟨chain, chained⟩
      exact chained.step advances (byEditor _ (by simp)) last

end OneEditor

/-! ## Two editors of one version -/

/-- Neither version comes from the other. -/
def Apart (Edits : Version → Version → Prop) (left right : Version) : Prop :=
  ¬ Relation.ReflTransGen Edits left right ∧ ¬ Relation.ReflTransGen Edits right left

section Apart

variable {left right : Party} {held other target : Version}

theorem Apart.symm (apart : Apart Edits held other) : Apart Edits other held :=
  ⟨apart.2, apart.1⟩

theorem Apart.ne (apart : Apart Edits held other) : held ≠ other := by
  rintro rfl
  exact apart.1 .refl

/-- An edit does not lead closer, where a version comes from one version only. -/
theorem Apart.edit (parents : ∀ first second target, Edits first target → Edits second target →
      first = second)
    (apart : Apart Edits held other) (edits : Edits held target) : Apart Edits target other := by
  refine ⟨fun reached => apart.1 (.head edits reached), fun reached => ?_⟩
  rcases Relation.ReflTransGen.cases_tail reached with same | ⟨before, earlier, last⟩
  · subst same
    exact apart.1 (.single edits)
  · rw [parents before held target last edits] at earlier
    exact apart.2 earlier

/-- Different versions of one stage lie apart. -/
theorem apart_of_stage_eq {stage : Version → ℕ}
    (advances : ∀ source target, Edits source target → stage source < stage target)
    (same : stage held = stage other) (different : held ≠ other) : Apart Edits held other := by
  have later : ∀ {source target}, Relation.ReflTransGen Edits source target →
      source = target ∨ stage source < stage target := by
    intro source target reached
    induction reached with
    | refl => exact Or.inl rfl
    | tail _ last ih =>
        have advanced := advances _ _ last
        rcases ih with rfl | before
        · exact Or.inr advanced
        · exact Or.inr (Nat.lt_trans before advanced)
  refine ⟨fun reached => ?_, fun reached => ?_⟩
  · rcases later reached with equal | before
    · exact different equal
    · omega
  · rcases later reached with equal | before
    · exact different equal.symm
    · omega

/-- The parties hold versions that lie apart. -/
def Split (Edits : Version → Version → Prop) (left right : Party) (state : Edited Party Version) :
    Prop :=
  ∃ held other, state.version left = some held ∧ state.version right = some other ∧
    Apart Edits held other

theorem Split.symm (split : state.Split Edits left right) : state.Split Edits right left := by
  rcases split with ⟨held, other, leftHolds, rightHolds, apart⟩
  exact ⟨other, held, rightHolds, leftHolds, apart.symm⟩

/-- A party that edits or takes over stays apart from one that does not move. -/
theorem Split.hold (parents : ∀ first second target, Edits first target → Edits second target →
      first = second)
    (different : left ≠ right) (split : state.Split Edits left right) {source : Version}
    (holds : state.version left = some source) (edits : Edits source target) :
    (state.hold left target).Split Edits left right := by
  rcases split with ⟨held, other, leftHolds, rightHolds, apart⟩
  cases leftHolds.symm.trans holds
  refine ⟨target, other, version_hold_self _ _, ?_, apart.edit parents edits⟩
  rw [version_hold_of_ne target different.symm]
  exact rightHolds

/-- A third party may move anywhere. -/
theorem Split.hold_other {party : Party} (notLeft : left ≠ party) (notRight : right ≠ party)
    (split : state.Split Edits left right) (version : Version) :
    (state.hold party version).Split Edits left right := by
  rcases split with ⟨held, other, leftHolds, rightHolds, apart⟩
  refine ⟨held, other, ?_, ?_, apart⟩
  · rw [version_hold_of_ne version notLeft]
    exact leftHolds
  · rw [version_hold_of_ne version notRight]
    exact rightHolds

theorem Split.moved (parents : ∀ first second target, Edits first target → Edits second target →
      first = second)
    (different : left ≠ right) (split : state.Split Edits left right) {party : Party}
    {source : Version} (holds : state.version party = some source) (edits : Edits source target) :
    (state.hold party target).Split Edits left right := by
  by_cases isLeft : party = left
  · subst isLeft
    exact split.hold parents different holds edits
  · by_cases isRight : party = right
    · subst isRight
      exact (split.symm.hold parents different.symm holds edits).symm
    · exact split.hold_other (Ne.symm isLeft) (Ne.symm isRight) target

theorem Split.step (parents : ∀ first second target, Edits first target → Edits second target →
      first = second)
    (different : left ≠ right) (made : ∀ edit ∈ state.edits, Edits edit.source edit.target)
    (split : state.Split Edits left right) (leftStays : action ≠ .adopt left)
    (rightStays : action ≠ .adopt right) (taken : Step Founds Edits state action next) :
    next.Split Edits left right := by
  cases taken with
  | found free founds =>
      rcases split with ⟨held, other, leftHolds, rightHolds, apart⟩
      apply Split.hold_other
      · rintro rfl
        cases free.symm.trans leftHolds
      · rintro rfl
        cases free.symm.trans rightHolds
      · exact ⟨held, other, leftHolds, rightHolds, apart⟩
  | edit holds edits => exact split.moved parents different holds edits
  | takeOver isMade holds => exact split.moved parents different holds (made _ isMade)
  | adopt isMade =>
      apply split.hold_other
      · rintro rfl
        exact leftStays rfl
      · rintro rfl
        exact rightStays rfl

/-- Parties that are split stay so, unless one of them adopts a version. -/
theorem split_run (parents : ∀ first second target, Edits first target → Edits second target →
      first = second)
    (different : left ≠ right) {source : Edited Party Version}
    (made : source.AllGood Edits fun _ => True) (split : source.Split Edits left right)
    (stay : ∀ action ∈ actions, action ≠ .adopt left ∧ action ≠ .adopt right)
    (run : Run (Step Founds Edits) source actions state) : state.Split Edits left right := by
  have both : state.AllGood Edits (fun _ => True) ∧ state.Split Edits left right := by
    induction run with
    | refl => exact ⟨made, split⟩
    | snoc _ last ih =>
        rcases ih fun action actionMem => stay action (List.mem_append_left _ actionMem) with
          ⟨madeBefore, splitBefore⟩
        rcases stay _ (List.mem_append_right _ (List.mem_singleton_self _)) with
          ⟨leftStays, rightStays⟩
        refine ⟨madeBefore.step (fun _ _ => trivial) (fun _ _ _ _ => trivial) last, ?_⟩
        have madeEdits := fun edit isMade => (madeBefore.made edit isMade).1
        exact splitBefore.step parents different madeEdits leftStays rightStays last
  exact both.2

end Apart

end Edited

end Foundations
