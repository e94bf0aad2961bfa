import HeadFinder.Proofs.Discovery.Course
import HeadFinder.Proofs.Discovery.Heads

/-! # The tour of a search

If every listing is answered by fixed answers and the receiver never has enough, the
steps that a search takes are known beforehand: `tour` lists them, entries and offers in
turn.  It says nothing of sessions, and criteria have no part in it; they only turn down
some of the offers.  The accepted ones are the heads below the place that the tour starts
from (`mem_heads_tour`).
-/
namespace HeadFinder

/-- The step that an event puts on record. -/
def Event.step? : Event → Option Discovery.Step
  | entered place => some (.enter place)
  | offered pattern names child => some (.offer pattern names child)
  | _ => none

namespace Discovery

/-- What follows on a step, given what follows on an entry. -/
def Step.ahead (inner : Place → List Step) : Step → List Step
  | offer pattern names child => [offer pattern names child]
  | enter place => inner place

/-- The head that an offer leads to, if its candidate is accepted. -/
def Step.head? (accepts : Probe → Bool) (quest : Quest) : Step → Option Head
  | offer _ names child =>
    if accepts (candidate quest names child) then some (candidate quest names child).head else none
  | enter _ => none

/-- What a place has to offer, by the answers. -/
def stepsAt (answer : String → Revision → Except Failure Node) (quest : Quest) (place : Place) :
    List Step :=
  steps quest place
    (childrenOf (answer (Path.join (quest.base :: place.names)) place.revision).toOption)

/-- The steps of a search from a place on, at most `levels` deep. -/
def tour (answer : String → Revision → Except Failure Node) (quest : Quest) :
    Nat → Place → List Step
  | 0, place => [.enter place]
  | levels + 1, place =>
    .enter place :: (stepsAt answer quest place).flatMap (Step.ahead (tour answer quest levels))

/-- The tour of a whole search. -/
def Quest.tour (quest : Quest) (answer : String → Revision → Except Failure Node) : List Step :=
  Discovery.tour answer quest (levelsBelow quest.includes .root) .root

/-- The heads of some steps, in order. -/
def headsOf (accepts : Probe → Bool) (quest : Quest) (steps : List Step) : List Head :=
  steps.filterMap (Step.head? accepts quest)

variable {answer : String → Revision → Except Failure Node} {accepts : Probe → Bool}
variable {quest : Quest} {place : Place}

theorem mem_headsOf {head : Head} {steps : List Step} :
    head ∈ headsOf accepts quest steps ↔ ∃ step ∈ steps, step.head? accepts quest = some head :=
  List.mem_filterMap

theorem mem_tour_succ {levels : Nat} {step : Step} :
    step ∈ tour answer quest (levels + 1) place ↔
      step = .enter place ∨
        ∃ next ∈ stepsAt answer quest place, step ∈ next.ahead (tour answer quest levels) := by
  rw [tour, List.mem_cons, List.mem_flatMap]

/-- A step for an answered listing goes to a child directory of it. -/
theorem of_mem_stepsAt {step : Step} (h : step ∈ stepsAt answer quest place) :
    ∃ pattern wanted child,
      child ∈ subdirectories (answer (Path.join (quest.base :: place.names)) place.revision) ∧
        Fits quest place pattern wanted child ∧ Does place pattern wanted child step := by
  obtain ⟨pattern, wanted, child, hmem, hfits, hdoes⟩ := of_mem_steps h
  exact ⟨pattern, wanted, child, mem_subdirectories.mpr ⟨hmem, hfits.directory⟩, hfits, hdoes⟩

/-- A tour starts with its place. -/
theorem enter_mem_tour (levels : Nat) (place : Place) :
    .enter place ∈ tour answer quest levels place := by
  cases levels with
  | zero => exact List.mem_cons_self ..
  | succ levels => exact List.mem_cons_self ..

/-- Where a tour enters a place with levels left, it also enters the places of the steps
from there. -/
theorem enter_mem_tour_of_step {levels : Nat} {start next : Place}
    (h : .enter place ∈ tour answer quest levels start)
    (hlevels : place.matched.length < start.matched.length + levels)
    (hnext : .enter next ∈ stepsAt answer quest place) :
    .enter next ∈ tour answer quest levels start := by
  induction levels generalizing start with
  | zero =>
    cases List.mem_singleton.mp h
    exact absurd hlevels (Nat.lt_irrefl _)
  | succ levels ih =>
    rw [mem_tour_succ] at h ⊢
    rcases h with heq | ⟨step, hstep, hahead⟩
    · cases heq
      exact Or.inr ⟨_, hnext, enter_mem_tour levels next⟩
    · refine Or.inr ⟨step, hstep, ?_⟩
      obtain ⟨pattern, wanted, child, -, -, hdoes⟩ := of_mem_stepsAt hstep
      cases hdoes with
      | offer => cases List.mem_singleton.mp hahead
      | enter =>
        refine ih hahead ?_
        show place.matched.length < (start.matched ++ [wanted]).length + levels
        rw [List.length_append, List.length_singleton]
        omega

/-- An offer leads to the one head that `HeadOf` says. -/
theorem head?_offer {pattern : Pattern} {names : List String} {child : Child} {head : Head} :
    (Step.offer pattern names child).head? accepts quest = some head ↔
      HeadOf answer accepts quest (.offer pattern names child) head := by
  simp only [Step.head?, HeadOf]
  by_cases haccepts : accepts (candidate quest names child) = true
  · rw [if_pos haccepts, Option.some.injEq, and_iff_right haccepts]
    exact eq_comm
  · rw [if_neg haccepts]
    exact iff_of_false (fun h => nomatch h) (fun h => haccepts h.1)

/-- The heads of the tour from a place are those of its steps. -/
theorem mem_heads_tour_succ {levels : Nat} {head : Head} :
    head ∈ headsOf accepts quest (tour answer quest (levels + 1) place) ↔
      ∃ next ∈ stepsAt answer quest place,
        head ∈ headsOf accepts quest (next.ahead (tour answer quest levels)) := by
  simp only [mem_headsOf, mem_tour_succ]
  constructor
  · rintro ⟨step, rfl | ⟨next, hnext, hstep⟩, hhead⟩
    · cases hhead
    · exact ⟨next, hnext, step, hstep, hhead⟩
  · rintro ⟨next, hnext, step, hstep, hhead⟩
    exact ⟨step, Or.inr ⟨next, hnext, hstep⟩, hhead⟩

/-- **The heads of a tour are the heads below its place**, when the levels suffice for
every pattern and no listing that is known repeats a name. -/
theorem mem_heads_tour {Known : List String → Revision → Prop}
    (hdistinct : ∀ names revision, Known names revision →
      ((childrenOf (answer (Path.join (quest.base :: names)) revision).toOption).map
        Child.name).Nodup)
    (hdescends : ∀ names revision child, Known names revision →
      child ∈ subdirectories (answer (Path.join (quest.base :: names)) revision) →
        Known (names ++ [child.name]) child.revision)
    {levels : Nat}
    (hlevels : ∀ pattern ∈ quest.includes, pattern.length ≤ place.matched.length + levels)
    (hknown : Known place.names place.revision) {head : Head} :
    head ∈ headsOf accepts quest (tour answer quest levels place) ↔
      HeadBelow answer accepts quest place head := by
  induction levels generalizing place with
  | zero => exact iff_of_false List.not_mem_nil (not_headBelow hlevels)
  | succ levels ih =>
    rw [mem_heads_tour_succ, headBelow_iff_step (hdistinct place.names place.revision hknown)]
    refine exists_congr fun step => and_congr_right fun hstep => ?_
    obtain ⟨pattern, wanted, child, hchild, -, hdoes⟩ := of_mem_stepsAt hstep
    cases hdoes with
    | offer =>
      rw [mem_headsOf, ← head?_offer]
      simp only [Step.ahead, List.mem_singleton, exists_eq_left]
    | enter =>
      have hbelow : ∀ pattern ∈ quest.includes,
          pattern.length ≤ (place.below wanted child).matched.length + levels := by
        intro pattern hpattern
        have := hlevels pattern hpattern
        show pattern.length ≤ (place.matched ++ [wanted]).length + levels
        rw [List.length_append, List.length_singleton]
        omega
      exact ih hbelow (hdescends place.names place.revision child hknown hchild)

end Discovery
end HeadFinder
