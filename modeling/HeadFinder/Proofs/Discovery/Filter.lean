import HeadFinder.Proofs.Discovery.Isolation

/-! # Criteria are filters

Demands decide which candidates become heads and nothing else: the tour of a search does
not depend on them.  So a search with demands reports, in the same order, those heads of
the search without any that meet them, and what a head has below it may be looked up at
the one revision that was the youngest, although each candidate is asked about at its own.
-/
namespace HeadFinder

namespace Acceptance

/-- A conjunction whose members may be left out holds when those that are there do. -/
theorem holds_ofMembers (found : String → Bool) (members : List (Option Acceptance)) :
    (ofMembers members).holds found = members.all fun member => member.all (holds found) := by
  rw [ofMembers, holds]
  induction members with
  | nil => rw [List.filterMap_nil, allHold, List.all_nil]
  | cons member rest ih =>
    cases member with
    | none => exact ih
    | some acceptance =>
      show allHold found (acceptance :: rest.filterMap id) = _
      rw [allHold, ih, List.all_cons, Option.all_some]

/-- Whether a head below a base meets demands, by what a history has below it at one
revision. -/
def meetsAt (history : History) (revision : Revision) (base : String) (acceptance : Acceptance)
    (head : Head) : Bool :=
  acceptance.holds fun path => history.stands (Path.join [base, head.name, path]) revision

end Acceptance

namespace Discovery
open Access

variable {accepts : Probe → Bool} {quest : Quest}

/-- A tour does not depend on the demands. -/
theorem tour_demanding (answer : String → Revision → Except Failure Node)
    (demands : Option Acceptance) (levels : Nat) (place : Place) :
    tour answer (quest.demanding demands) levels place = tour answer quest levels place := by
  induction levels generalizing place with
  | zero => rfl
  | succ levels ih =>
    have hahead : tour answer (quest.demanding demands) levels = tour answer quest levels :=
      funext ih
    rw [tour, tour, hahead]
    rfl

/-- If acceptance can be told from the head, the heads of some steps are filtered by it. -/
theorem headsOf_eq_filter {keeps : Head → Bool}
    (h : ∀ names child, accepts (candidate quest names child) =
      keeps (candidate quest names child).head) (steps : List Step) :
    headsOf accepts quest steps = (headsOf (fun _ => true) quest steps).filter keeps := by
  unfold headsOf
  rw [List.filter_filterMap]
  refine List.filterMap_congr fun step _ => ?_
  cases step with
  | enter place => rfl
  | offer pattern names child =>
    simp only [Step.head?, if_true, Option.filter_some, h]

/-- The heads that a search of an archive reports are those that its tour offers and the
demands accept. -/
theorem heads_search_archive {ρ : Type} {history : History} (hpinned : history.Pinned)
    (hclean : history.current.Clean) (quest : Quest) (demands : Option Acceptance)
    {receiver : Receiver ρ} (hobserving : ∀ wants, receiver.observing wants = true)
    (archive : Archive) (wants : ρ) :
    let run := (search Archive.remote receiver (quest.demanding demands)).perform
      (Session.start (archive.holding history) wants)
    run.1 = .ok true ∧ Event.heads run.2.account =
      headsOf (meets history history.youngest demands) quest
        (quest.tour fun path _ => history.node path history.youngest) := by
  have hserves : Serves ρ Archive.remote (quest.demanding demands)
      (fun path _ => history.node path history.youngest)
      (meets history history.youngest demands) (Reached history quest.base)
      (fun archive => archive.history = history) := archive_serves ρ hpinned hclean demands rfl
  obtain ⟨goOn, hresult, rfl, -, hgrew⟩ := Ends.perform_ok
    (search_completes hserves hobserving (Or.inl ⟨rfl, rfl⟩)
      (Session.start (archive.holding history) wants) rfl)
  refine ⟨hresult, hgrew.of_start.2.heads.trans ?_⟩
  unfold Quest.tour
  rw [tour_demanding]
  rfl

/-- What a candidate is asked about below it can be told from its head. -/
theorem meets_candidate (history : History) (revision : Revision) (acceptance : Acceptance)
    (names : List String) (child : Child) :
    meets history revision (some acceptance) (candidate quest names child) =
      acceptance.meetsAt history revision quest.base (candidate quest names child).head := by
  simp only [meets, Acceptance.meetsAt, candidate, Probe.head, Path.join_cons_join,
    List.cons_append, List.nil_append]

/-- **Criteria act as filters on the final tree.**  Let an archive have come about by changes
that name no path with an empty segment, and let the receiver never have enough.  Then a
search with demands ends as one without any does, and it reports, in the same order, just
those heads of the other that meet the demands by what stands below them at the youngest
revision.  For a conjunction these are the heads that meet all of its members that have
not been left out. -/
theorem search_filters {ρ : Type} (changes : List Change)
    (hclean : ∀ change ∈ changes, change.Clean) (archive : Archive) (receiver : Receiver ρ)
    (hobserving : ∀ wants, receiver.observing wants = true) (quest : Quest)
    (acceptance : Acceptance) (members : List (Option Acceptance)) (wants : ρ) :
    let history := History.empty.after changes
    let run := fun demands => (search Archive.remote receiver (quest.demanding demands)).perform
      (Session.start (archive.holding history) wants)
    let meets := fun (demand : Acceptance) head =>
      demand.meetsAt history history.youngest quest.base head
    (∀ demands, (run demands).1 = .ok true) ∧
      Event.heads (run (some acceptance)).2.account =
        (Event.heads (run none).2.account).filter (meets acceptance) ∧
      Event.heads (run (some (.ofMembers members))).2.account =
        (Event.heads (run none).2.account).filter fun head =>
          members.all fun member => member.all (meets · head) := by
  intro history run meets
  have hpinned : history.Pinned := History.pinned_after changes History.pinned_empty
  have hcleanHistory : history.current.Clean := History.clean_after hclean History.clean_empty
  have hrun := fun demands =>
    heads_search_archive hpinned hcleanHistory quest demands hobserving archive wants
  have hfilter : ∀ demand : Acceptance, Event.heads (run (some demand)).2.account =
      (Event.heads (run none).2.account).filter (meets demand) := by
    intro demand
    rw [(hrun (some demand)).2, (hrun none).2,
      headsOf_eq_filter (meets_candidate history history.youngest demand)]
    rfl
  refine ⟨fun demands => (hrun demands).1, hfilter acceptance, ?_⟩
  rw [hfilter]
  refine List.filter_congr fun head _ => ?_
  exact Acceptance.holds_ofMembers _ members

/-- Two branches, one of which has sources; the other is touched again later. -/
def forking : List Change :=
  [⟨["branches/fix/src", "branches/old"], [], [], none⟩, ⟨[], ["branches/old/notes"], [], some 7⟩]

theorem search_filters_forking :
    let history := History.empty.after forking
    let run := fun demands => (search Archive.remote Receiver.collecting
      (branches.demanding demands)).perform
        (Session.start (Archive.empty.holding history) Roster.empty)
    Event.heads (run none).2.account =
        [⟨"branches/old", 2, some 7⟩, ⟨"branches/fix", 1, some 1000⟩] ∧
      Event.heads (run (some (.ofMembers [none, some (.required .any ["doc", "src"])]))).2.account =
        [⟨"branches/fix", 1, some 1000⟩] := by
  intro history run
  have hclean : ∀ change ∈ forking, change.Clean := by decide
  have hall : Event.heads (run none).2.account =
      [⟨"branches/old", 2, some 7⟩, ⟨"branches/fix", 1, some 1000⟩] := by decide +kernel
  obtain ⟨-, -, hfiltered⟩ := search_filters forking hclean Archive.empty Receiver.collecting
    (fun _ => rfl) branches (.required .all []) [none, some (.required .any ["doc", "src"])]
    Roster.empty
  constructor
  · exact hall
  · rw [hfiltered, hall]
    decide +kernel

end Discovery
end HeadFinder
