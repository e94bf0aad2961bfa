import HeadFinder.Proofs.Discovery.Tour
import HeadFinder.Proofs.Join

/-! # A tour without a directory

When one directory is gone from the answers, whatever the revision, the tour leaves out
what lies strictly below it, and nothing else (`tour_without`): steps only go down, and the
path of a listing tells the names it was reached by.
-/
namespace HeadFinder.Discovery
open Text

/-- Whether names strictly go on from others. -/
def Beyond (names more : List String) : Prop :=
  names <+: more ∧ names ≠ more

instance (names more : List String) : Decidable (Beyond names more) :=
  inferInstanceAs (Decidable (_ ∧ _))

/-- What lies one name below is beyond what the place above is or lies beyond. -/
theorem beyond_concat {names more : List String} {name : String} :
    Beyond names (more ++ [name]) ↔ names = more ∨ Beyond names more := by
  unfold Beyond
  rw [List.prefix_concat_iff]
  constructor
  · rintro ⟨rfl | hmore, hne⟩
    · exact absurd rfl hne
    · by_cases heq : names = more
      · exact Or.inl heq
      · exact Or.inr ⟨hmore, heq⟩
  · have hlonger : ∀ names : List String, names <+: more → names ≠ more ++ [name] := by
      rintro names hmore rfl
      have := hmore.length_le
      rw [List.length_append, List.length_singleton] at this
      omega
    rintro (rfl | ⟨hmore, -⟩)
    · exact ⟨Or.inr (List.prefix_refl _), hlonger _ (List.prefix_refl _)⟩
    · exact ⟨Or.inr hmore, hlonger _ hmore⟩

theorem Beyond.of_prefix {names more further : List String} (h : Beyond names more)
    (hfurther : more <+: further) : Beyond names further := by
  refine ⟨h.1.trans hfurther, ?_⟩
  rintro rfl
  exact h.2 (h.1.eq_of_length_le hfurther.length_le)

/-- The names of the directory that a step is about. -/
def Step.names : Step → List String
  | offer _ names _ => names
  | enter place => place.names

/-- The answers, but for a path where there is nothing at any revision. -/
def without (path : String) (answer : String → Revision → Except Failure Node) :
    String → Revision → Except Failure Node :=
  fun asked revision =>
    if asked = path then .error (.nodeMissing asked revision) else answer asked revision

variable {answer : String → Revision → Except Failure Node} {accepts : Probe → Bool}
variable {quest : Quest} {place : Place}

/-- A step goes down by one name. -/
theorem names_of_mem_stepsAt {step : Step} (h : step ∈ stepsAt answer quest place) :
    ∃ child, child ∈ childrenOf
        (answer (Path.join (quest.base :: place.names)) place.revision).toOption ∧
      step.names = place.names ++ [child.name] := by
  obtain ⟨pattern, wanted, child, hchild, -, hdoes⟩ := of_mem_stepsAt h
  refine ⟨child, (mem_subdirectories.mp hchild).1, ?_⟩
  cases hdoes <;> rfl

/-- A tour stays below its place. -/
theorem names_prefix_of_mem_tour {levels : Nat} {step : Step}
    (h : step ∈ tour answer quest levels place) : place.names <+: step.names := by
  induction levels generalizing place with
  | zero =>
    obtain rfl := List.mem_singleton.mp h
    exact List.prefix_refl _
  | succ levels ih =>
    rcases mem_tour_succ.mp h with rfl | ⟨next, hnext, hstep⟩
    · exact List.prefix_refl _
    · obtain ⟨child, -, hnames⟩ := names_of_mem_stepsAt hnext
      have hbelow : place.names <+: next.names := hnames ▸ List.prefix_append _ _
      cases next with
      | offer pattern names child =>
        rw [List.mem_singleton.mp hstep]
        exact hbelow
      | enter below => exact hbelow.trans (ih hstep)

/-- What is ahead of a step stays below the directory that the step is about. -/
theorem names_prefix_of_mem_ahead {levels : Nat} {next step : Step}
    (h : step ∈ next.ahead (tour answer quest levels)) : next.names <+: step.names := by
  cases next with
  | offer pattern names child =>
    obtain rfl := List.mem_singleton.mp h
    exact List.prefix_refl _
  | enter below => exact names_prefix_of_mem_tour h

section Plain
variable (hplain : ∀ path revision, ∀ child ∈ childrenOf (answer path revision).toOption,
  Plain child.name)
include hplain

theorem plain_of_mem_stepsAt {step : Step} (hplace : ∀ name ∈ place.names, Plain name)
    (h : step ∈ stepsAt answer quest place) : ∀ name ∈ step.names, Plain name := by
  obtain ⟨child, hchild, hnames⟩ := names_of_mem_stepsAt h
  rw [hnames]
  exact plain_concat hplace (hplain _ _ child hchild)

/-- Plain names lead a tour to plain names. -/
theorem plain_of_mem_tour {levels : Nat} {step : Step}
    (hplace : ∀ name ∈ place.names, Plain name) (h : step ∈ tour answer quest levels place) :
    ∀ name ∈ step.names, Plain name := by
  induction levels generalizing place with
  | zero =>
    rw [tour, List.mem_singleton] at h
    rw [h]
    exact hplace
  | succ levels ih =>
    rcases mem_tour_succ.mp h with rfl | ⟨next, hnext, hstep⟩
    · exact hplace
    · have hbelow := plain_of_mem_stepsAt hplain hplace hnext
      cases next with
      | offer pattern names child =>
        rw [List.mem_singleton.mp hstep]
        exact hbelow
      | enter below => exact ih hbelow hstep

/-- **Without a directory, the tour is what does not lie strictly below it.**  By induction
on the levels, from a place that does not lie there itself. -/
theorem tour_without {gone : List String} (hgone : ∀ name ∈ gone, Plain name) (levels : Nat)
    (hplace : ∀ name ∈ place.names, Plain name) (hnot : ¬ Beyond gone place.names) :
    tour (without (Path.join (quest.base :: gone)) answer) quest levels place =
      (tour answer quest levels place).filter fun step => ¬ Beyond gone step.names := by
  have hkept : ∀ (step : Step) (rest : List Step), ¬ Beyond gone step.names →
      (step :: rest).filter (fun step => ¬ Beyond gone step.names) =
        step :: rest.filter fun step => ¬ Beyond gone step.names :=
    fun step rest hnot => List.filter_cons_of_pos (decide_eq_true hnot)
  induction levels generalizing place with
  | zero => rw [tour, tour, hkept (.enter place) [] hnot, List.filter_nil]
  | succ levels ih =>
    rw [tour, tour, hkept (.enter place) _ hnot, List.cons.injEq]
    refine ⟨rfl, ?_⟩
    rw [List.filter_flatMap]
    by_cases heq : gone = place.names
    · -- This is the directory: nothing is listed, and everything ahead lies beyond it.
      have hnone : stepsAt (without (Path.join (quest.base :: gone)) answer) quest place = [] := by
        unfold stepsAt without
        rw [if_pos (by rw [heq])]
        exact steps_nil quest place
      rw [hnone, List.flatMap_nil]
      symm
      rw [List.flatMap_eq_nil_iff]
      intro next hnext
      rw [List.filter_eq_nil_iff]
      intro step hstep
      obtain ⟨child, -, hnames⟩ := names_of_mem_stepsAt hnext
      have hbeyond : Beyond gone next.names := by
        rw [hnames]
        exact beyond_concat.mpr (Or.inl heq)
      simpa using hbeyond.of_prefix (names_prefix_of_mem_ahead hstep)
    · have hsame : stepsAt (without (Path.join (quest.base :: gone)) answer) quest place =
          stepsAt answer quest place := by
        unfold stepsAt without
        rw [if_neg fun hpath => heq (Path.join_injective hplace hgone hpath).symm]
      rw [hsame]
      refine List.flatMap_congr fun next hnext => ?_
      have hbelow := plain_of_mem_stepsAt hplain hplace hnext
      have hnotBelow : ¬ Beyond gone next.names := by
        obtain ⟨child, -, hnames⟩ := names_of_mem_stepsAt hnext
        rw [hnames, beyond_concat, not_or]
        exact ⟨heq, hnot⟩
      cases next with
      | offer pattern names child =>
        exact (hkept _ [] hnotBelow).symm
      | enter below => exact ih hbelow hnotBelow

end Plain

/-- The heads of steps that do not lie beyond some names are the heads that do not. -/
theorem headsOf_filter {steps : List Step} {gone : List String}
    (hsteps : ∀ step ∈ steps, ∀ name ∈ step.names, Plain name) :
    headsOf accepts quest (steps.filter fun step => ¬ Beyond gone step.names) =
      (headsOf accepts quest steps).filter fun head => ¬ Beyond gone (Path.segments head.name) := by
  unfold headsOf
  rw [List.filterMap_filter, List.filter_filterMap]
  refine List.filterMap_congr fun step hstep => ?_
  cases step with
  | enter place =>
    exact ite_self none
  | offer pattern names child =>
    have hname : Path.segments (candidate quest names child).head.name = names :=
      Path.segments_intercalate (hsteps _ hstep)
    simp only [Step.head?, Step.names]
    by_cases haccepts : accepts (candidate quest names child) = true
    · rw [if_pos haccepts, Option.filter_some, hname]
      rfl
    · rw [if_neg haccepts, Option.filter_none]
      exact ite_self none

end HeadFinder.Discovery
