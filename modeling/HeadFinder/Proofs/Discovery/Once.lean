import HeadFinder.Proofs.Discovery.Account
import HeadFinder.Proofs.Discovery.Fixed
import HeadFinder.Proofs.Join

/-! # What a search does once

A search enters no pair of segments and names twice, yet a directory may match the
beginnings of several patterns, and then it is listed for each of them, and what lies below
is offered and reported again.  So a search lists, offers and reports once if no directory
is reached through different segments (`search_lists_once`), and a search that completes its
tour does so only then (`unambiguous_of_nodup`).  Wildcards in last segments do not lead to
different segments on the way (`unambiguous_of_literal`).
-/
namespace HeadFinder

namespace Event

/-- The path that an event lists. -/
def listing? : Event → Option String
  | listed path _ _ => some path
  | _ => none

/-- The name of the candidate that an event puts to the criterion. -/
def candidate? : Event → Option String
  | judged probe => some probe.name
  | _ => none

end Event

namespace Discovery
open Text

/-! ## Which places are visited -/

section Visited
variable (answer : String → Revision → Except Failure Node) (quest : Quest)

/-- The places that fixed answers lead a search to. -/
inductive Visited : Place → Prop
  | root : Visited .root
  | down {place : Place} {pattern : Pattern} {wanted : String} {child : Child} :
      Visited place →
      child ∈ subdirectories (answer (Path.join (quest.base :: place.names)) place.revision) →
      Fits quest place pattern wanted child → pattern ≠ place.matched ++ [wanted] →
      Visited (place.below wanted child)

/-- No directory is reached through different segments. -/
def Unambiguous : Prop :=
  ∀ place place', Visited answer quest place → Visited answer quest place' →
    place.names = place'.names → place.matched = place'.matched

/-- What is known of a step: it enters a visited place, or it offers a child of one. -/
def Sighted : Step → Prop
  | .enter place => Visited answer quest place
  | .offer pattern names child => ∃ place wanted, Visited answer quest place ∧
      child ∈ subdirectories (answer (Path.join (quest.base :: place.names)) place.revision) ∧
      pattern = place.matched ++ [wanted] ∧ names = place.names ++ [child.name]

/-- The listings on record have these answers. -/
def Recorded (events : List Event) : Prop :=
  ∀ path revision outcome, .listed path revision outcome ∈ events →
    outcome = answer path revision

end Visited

section Literal
variable {answer : String → Revision → Except Failure Node} {quest : Quest}

/-- If wildcards stand in last segments only, the segments on the way are the names. -/
theorem unambiguous_of_literal
    (hliteral : ∀ pattern ∈ quest.includes, ∀ segment ∈ pattern.dropLast,
      Glob.isWild segment = false) : Unambiguous answer quest := by
  have hnames : ∀ place, Visited answer quest place → place.matched = place.names := by
    intro place hplace
    induction hplace with
    | root => rfl
    | @down place pattern wanted child _ _ hfits hne ih =>
      obtain ⟨rest, hrest⟩ := hfits.goesOn
      -- The segment is not the last one, for the pattern goes on.
      have hmem : wanted ∈ pattern.dropLast := by
        rcases List.eq_nil_or_concat rest with rfl | ⟨more, last, rfl⟩
        · rw [List.append_nil] at hrest
          exact absurd hrest.symm hne
        · rw [← hrest, List.concat_eq_append, ← List.append_assoc, List.dropLast_concat]
          simp
      have hnamed := hfits.named
      rw [Glob.matchesName, hliteral pattern hfits.asked wanted hmem, if_neg Bool.false_ne_true,
        decide_eq_true_iff] at hnamed
      show place.matched ++ [wanted] = place.names ++ [child.name]
      rw [ih, hnamed]
  intro place place' hplace hplace' heq
  rw [hnames place hplace, hnames place' hplace', heq]

end Literal

section Sighted
variable {answer : String → Revision → Except Failure Node} {quest : Quest} {place : Place}

/-- The steps for a visited place are sighted. -/
theorem sighted_of_mem_stepsAt (hplace : Visited answer quest place) {step : Step}
    (h : step ∈ stepsAt answer quest place) : Sighted answer quest step := by
  obtain ⟨pattern, wanted, child, hchild, hfits, hdoes⟩ := of_mem_stepsAt h
  cases hdoes with
  | offer heq => exact ⟨place, wanted, hplace, hchild, heq, rfl⟩
  | enter hne => exact hplace.down hchild hfits hne

theorem Offering.steps {pattern : Pattern} {names : List String} {child : Child}
    {events : List Event} (h : Offering quest pattern names child events) :
    events.filterMap Event.step? = [.offer pattern names child] := by
  cases h with
  | @intro asked told hasked htold =>
    show Step.offer pattern names child :: (asked ++ told).filterMap Event.step? = _
    rw [List.filterMap_append, hasked.steps]
    rcases htold with rfl | rfl <;> rfl

/-- **Whatever the criterion and the receiver, a search only goes where the answers lead
it.** -/
theorem Course.sighted {steps : List Step} {events : List Event} (h : Course quest steps events)
    (hrecorded : Recorded answer events) (hsteps : ∀ step ∈ steps, Sighted answer quest step) :
    ∀ step ∈ events.filterMap Event.step?, Sighted answer quest step := by
  induction h with
  | done => exact fun _ h => nomatch h
  | skip h ih => exact ih hrecorded fun step hstep => hsteps step (List.mem_cons_of_mem _ hstep)
  | offer hoffering h ih =>
    intro step hstep
    rw [List.filterMap_append, hoffering.steps] at hstep
    rcases List.mem_append.mp hstep with hstep | hstep
    · rw [List.mem_singleton.mp hstep]
      exact hsteps _ (List.mem_cons_self ..)
    · exact ih (fun path revision outcome hlisted =>
        hrecorded path revision outcome (List.mem_append_right _ hlisted))
        (fun step hstep => hsteps step (List.mem_cons_of_mem _ hstep)) step hstep
  | @enter place outcome rest inner later hinner h ihinner ih =>
    have hplace : Visited answer quest place := hsteps _ (List.mem_cons_self ..)
    have houtcome := hrecorded _ _ _ (List.mem_cons_of_mem _ (List.mem_cons_self ..))
    have hlater : ∀ event, event ∈ inner ++ later → event ∈ Event.entered place ::
        .listed (Path.join (quest.base :: place.names)) place.revision outcome ::
          (inner ++ later) :=
      fun event hevent => List.mem_cons_of_mem _ (List.mem_cons_of_mem _ hevent)
    intro step hstep
    -- The place itself, what its recorded listing leads to, and the other steps.
    have hcases : step = .enter place ∨ step ∈ inner.filterMap Event.step? ∨
        step ∈ later.filterMap Event.step? := by
      rw [← List.mem_append, ← List.filterMap_append]
      exact List.mem_cons.mp hstep
    rcases hcases with rfl | hstep | hstep
    · exact hplace
    · refine ihinner (fun path revision outcome hlisted => hrecorded path revision outcome
        (hlater _ (List.mem_append_left _ hlisted))) (fun next hnext => ?_) step hstep
      rw [houtcome] at hnext
      exact sighted_of_mem_stepsAt hplace hnext
    · exact ih (fun path revision outcome hlisted => hrecorded path revision outcome
        (hlater _ (List.mem_append_right _ hlisted)))
        (fun next hnext => hsteps next (List.mem_cons_of_mem _ hnext)) step hstep

end Sighted

/-! ## Listings, candidates and heads by the places they come from -/

/-- What is listed are the entered places, and what is judged or reported are offered
directories, each at most once for each offer. -/
structure Marked (quest : Quest) (events : List Event) : Prop where
  listings : events.filterMap Event.listing? =
    (events.filterMap Event.entry?).map fun mark => Path.join (quest.base :: mark.2)
  candidates : (events.filterMap Event.candidate?).Sublist
    ((events.filterMap Event.offer?).map fun mark => "/".intercalate mark.2)
  heads : ((Event.heads events).map Head.name).Sublist
    ((events.filterMap Event.offer?).map fun mark => "/".intercalate mark.2)

section Marked
variable {quest : Quest}

theorem Marked.append {first second : List Event} (h : Marked quest first)
    (h' : Marked quest second) : Marked quest (first ++ second) where
  listings := by
    rw [List.filterMap_append, List.filterMap_append, List.map_append, h.listings, h'.listings]
  candidates := by
    rw [List.filterMap_append, List.filterMap_append, List.map_append]
    exact h.candidates.append h'.candidates
  heads := by
    rw [Event.heads_append, List.filterMap_append, List.map_append, List.map_append]
    exact h.heads.append h'.heads

theorem Offering.marked {pattern : Pattern} {names : List String} {child : Child}
    {events : List Event} (h : Offering quest pattern names child events) :
    Marked quest events := by
  obtain ⟨hentries, hoffers⟩ := h.marks
  cases h with
  | @intro asked told hasked htold =>
    have hlistings : asked.filterMap Event.listing? = [] :=
      List.eq_nil_of_sublist_nil (hasked.filterMap_sublist fun _ _ _ => rfl)
    have hcandidates : (asked.filterMap Event.candidate?).Sublist ["/".intercalate names] :=
      hasked.filterMap_sublist fun _ _ _ => rfl
    have htoldNone : told.filterMap Event.listing? = [] ∧ told.filterMap Event.candidate? = [] := by
      rcases htold with rfl | rfl <;> exact ⟨rfl, rfl⟩
    refine ⟨?_, ?_, ?_⟩
    · rw [hentries]
      show (asked ++ told).filterMap Event.listing? = []
      rw [List.filterMap_append, hlistings, htoldNone.1]
      rfl
    · rw [hoffers]
      show ((asked ++ told).filterMap Event.candidate?).Sublist ["/".intercalate names]
      rw [List.filterMap_append, htoldNone.2, List.append_nil]
      exact hcandidates
    · rw [hoffers]
      show ((Event.heads (asked ++ told)).map Head.name).Sublist ["/".intercalate names]
      rw [Event.heads_append, hasked.heads]
      rcases htold with rfl | rfl
      · exact List.nil_sublist _
      · exact List.Sublist.refl _

theorem Course.marked {steps : List Step} {events : List Event} (h : Course quest steps events) :
    Marked quest events := by
  induction h with
  | done => exact ⟨rfl, List.Sublist.refl _, List.Sublist.refl _⟩
  | skip h ih => exact ih
  | offer hoffering h ih => exact hoffering.marked.append ih
  | @enter place outcome rest inner later hinner h ihinner ih =>
    have hentered : Marked quest [.entered place,
        .listed (Path.join (quest.base :: place.names)) place.revision outcome] :=
      ⟨rfl, List.Sublist.refl _, List.Sublist.refl _⟩
    exact hentered.append (ihinner.append ih)

end Marked

/-! ## Once, if no directory is ambiguous -/

section Once
variable {answer : String → Revision → Except Failure Node} {quest : Quest}

theorem Visited.plain
    (hplain : ∀ path revision, ∀ child ∈ childrenOf (answer path revision).toOption,
      Plain child.name)
    {place : Place} (h : Visited answer quest place) : ∀ name ∈ place.names, Plain name := by
  induction h with
  | root => exact fun _ h => nomatch h
  | down _ hchild _ _ ih => exact plain_concat ih (hplain _ _ _ (mem_subdirectories.mp hchild).1)

/-- An entry on record is that of a visited place. -/
theorem visited_of_entry {events : List Event}
    (hsighted : ∀ step ∈ events.filterMap Event.step?, Sighted answer quest step)
    {mark : Pattern × List String} (h : mark ∈ events.filterMap Event.entry?) :
    ∃ place, Visited answer quest place ∧ mark = (place.matched, place.names) := by
  obtain ⟨event, hevent, hmark⟩ := List.mem_filterMap.mp h
  cases event with
  | entered place =>
    cases hmark
    exact ⟨place, hsighted _ (List.mem_filterMap.mpr ⟨_, hevent, rfl⟩), rfl⟩
  | _ => cases hmark

/-- An offer on record is made from a visited place. -/
theorem visited_of_offer {events : List Event}
    (hsighted : ∀ step ∈ events.filterMap Event.step?, Sighted answer quest step)
    {mark : Pattern × List String} (h : mark ∈ events.filterMap Event.offer?) :
    ∃ place child, Visited answer quest place ∧
      child ∈ subdirectories (answer (Path.join (quest.base :: place.names)) place.revision) ∧
      mark = (place.matched, place.names ++ [child.name]) := by
  obtain ⟨event, hevent, hmark⟩ := List.mem_filterMap.mp h
  cases event with
  | offered pattern names child =>
    cases hmark
    obtain ⟨place, wanted, hplace, hchild, rfl, rfl⟩ :=
      hsighted _ (List.mem_filterMap.mpr ⟨_, hevent, rfl⟩)
    exact ⟨place, child, hplace, hchild, by rw [List.dropLast_concat]⟩
  | _ => cases hmark

/-- Answers that are always given to listings are the ones on record. -/
theorem search_records {σ ρ : Type} {remote : Remote σ}
    (hanswer : ∀ path revision state, (remote.list path revision state).outcome =
      answer path revision) (receiver : Receiver ρ) (quest : Quest) (session : Session σ ρ)
    (h : Recorded answer session.account) :
    Recorded answer ((search remote receiver quest).perform session).2.account := by
  have hconcat : ∀ account event, Recorded answer account →
      (∀ path revision outcome, event = .listed path revision outcome →
        outcome = answer path revision) → Recorded answer (account ++ [event]) := by
    intro account event haccount hevent path revision outcome hlisted
    rcases List.mem_append.mp hlisted with hlisted | hlisted
    · exact haccount path revision outcome hlisted
    · exact hevent path revision outcome (List.mem_singleton.mp hlisted).symm
  have hkeeps : remote.Keeps fun _ account => Recorded answer account := by
    refine ⟨?_, ?_, ?_⟩
    · intro path revision state account haccount
      refine hconcat account _ haccount fun asked at' outcome hlisted => ?_
      cases hlisted
      exact hanswer path revision state
    · intro path revision state account haccount
      exact hconcat account _ haccount fun _ _ _ hlisted => nomatch hlisted
    · intro state account event haside haccount
      refine hconcat account event haccount fun path revision outcome hlisted => ?_
      rw [hlisted] at haside
      cases haside
  exact search_keeps hkeeps receiver quest session h

/-- **Once, unless directories are ambiguous.**  Let a remote answer every listing as a
fixed function of the path and the revision says, with plain names only.  If the patterns
reach no directory through different segments, then, whatever the criterion and the
receiver, no path is listed twice, no candidate is put to the criterion twice and no head
is reported twice. -/
theorem search_lists_once {σ ρ : Type} (remote : Remote σ) (receiver : Receiver ρ)
    (quest : Quest) (answer : String → Revision → Except Failure Node) (state : σ) (wants : ρ)
    (hanswer : ∀ path revision state, (remote.list path revision state).outcome =
      answer path revision)
    (hplain : ∀ path revision, ∀ child ∈ childrenOf (answer path revision).toOption,
      Plain child.name)
    (honce : Unambiguous answer quest) :
    let account := ((search remote receiver quest).perform (Session.start state wants)).2.account
    (account.filterMap Event.listing?).Nodup ∧ (account.filterMap Event.candidate?).Nodup ∧
      ((Event.heads account).map Head.name).Nodup := by
  intro account
  have hcourse : Course quest [.enter .root] account :=
    (search_follows_course remote receiver quest (Session.start state wants)).of_start.2
  have hrecorded : Recorded answer account :=
    search_records hanswer receiver quest (Session.start state wants) fun _ _ _ h => nomatch h
  have hsighted := hcourse.sighted hrecorded fun step hstep => by
    rw [List.mem_singleton.mp hstep]
    exact Visited.root
  have hapart := hcourse.apart_root
  have hmarked := hcourse.marked
  -- A path tells the names, and the names tell the segments.
  have hentries : ((account.filterMap Event.entry?).map fun mark =>
      Path.join (quest.base :: mark.2)).Nodup := by
    refine hapart.entries_nodup.map_on fun mark hmark mark' hmark' heq => ?_
    obtain ⟨place, hplace, rfl⟩ := visited_of_entry hsighted hmark
    obtain ⟨place', hplace', rfl⟩ := visited_of_entry hsighted hmark'
    have hnames := Path.join_injective (hplace.plain hplain) (hplace'.plain hplain) heq
    exact Prod.ext (honce place place' hplace hplace' hnames) hnames
  have hoffers : ((account.filterMap Event.offer?).map fun mark =>
      "/".intercalate mark.2).Nodup := by
    refine hapart.offers_nodup.map_on fun mark hmark mark' hmark' heq => ?_
    obtain ⟨place, child, hplace, hchild, rfl⟩ := visited_of_offer hsighted hmark
    obtain ⟨place', child', hplace', hchild', rfl⟩ := visited_of_offer hsighted hmark'
    have hsegments := congrArg Path.segments heq
    rw [Path.segments_intercalate (plain_concat (hplace.plain hplain)
        (hplain _ _ child (mem_subdirectories.mp hchild).1)),
      Path.segments_intercalate (plain_concat (hplace'.plain hplain)
        (hplain _ _ child' (mem_subdirectories.mp hchild').1))] at hsegments
    exact Prod.ext (honce place place' hplace hplace' (List.append_inj' hsegments rfl).1) hsegments
  rw [hmarked.listings]
  exact ⟨hentries, hmarked.candidates.nodup hoffers, hmarked.heads.nodup hoffers⟩

/-- Two patterns that overlap in their last segments. -/
def neighbours : Quest :=
  ⟨"", [["trunk", "*"], ["trunk", "x"]], [], none, defaultChannel⟩

theorem search_lists_once_neighbours :
    let account := ((search (Remote.ofAnswers lines linesKind) Receiver.collecting
      neighbours).perform (Session.start () Roster.empty)).2.account
    (account.filterMap Event.listing?).Nodup ∧
      (Event.heads account).map Head.name = ["trunk/y", "trunk/x"] := by
  have hliteral : ∀ pattern ∈ neighbours.includes, ∀ segment ∈ pattern.dropLast,
      Glob.isWild segment = false := by decide
  exact ⟨(search_lists_once (Remote.ofAnswers lines linesKind) Receiver.collecting neighbours lines
    () Roster.empty (fun _ _ _ => rfl) plain_lines (unambiguous_of_literal hliteral)).1, rfl⟩

/-- The trunk is found under `*` as well as under its own name: it is listed for either, and
the first line is judged and reported again. -/
theorem search_lists_twice_overlap :
    let account := ((search (Remote.ofAnswers lines linesKind) Receiver.collecting
      (overlap.demanding (some (.allOf [])))).perform (Session.start () Roster.empty)).2.account
    (Remote.ofAnswers lines linesKind).Fixed lines linesKind ∧
      (∀ path revision, ∀ child ∈ childrenOf (lines path revision).toOption, Plain child.name) ∧
      ¬ (account.filterMap Event.listing?).Nodup ∧
      ¬ (account.filterMap Event.candidate?).Nodup ∧
      ¬ ((Event.heads account).map Head.name).Nodup := by
  intro account
  have hlistings : account.filterMap Event.listing? = ["", "trunk", "trunk"] := rfl
  have hcandidates : account.filterMap Event.candidate? = ["trunk/x", "trunk/x", "trunk/y"] := rfl
  have hheads : (Event.heads account).map Head.name = ["trunk/x", "trunk/x", "trunk/y"] := rfl
  rw [hlistings, hcandidates, hheads]
  exact ⟨fixed_lines, plain_lines, by decide, by decide, by decide⟩

end Once

/-! ## Only then -/

section Unambiguous
variable {answer : String → Revision → Except Failure Node} {quest : Quest}

/-- A tour of a whole search enters every place that the answers lead to. -/
theorem Visited.mem_tour
    (hdistinct : ∀ path revision,
      ((childrenOf (answer path revision).toOption).map Child.name).Nodup)
    {place : Place} (h : Visited answer quest place) : .enter place ∈ quest.tour answer := by
  induction h with
  | root => exact enter_mem_tour _ _
  | @down place pattern wanted child _ hchild hfits hne ih =>
    have hlength : (place.matched ++ [wanted]).length < pattern.length :=
      Nat.lt_of_le_of_ne hfits.goesOn.length_le fun heq =>
        hne (hfits.goesOn.eq_of_length heq).symm
    have hlevels := length_le_levelsBelow hfits.asked
    refine enter_mem_tour_of_step ih ?_
      (enter_mem_steps (hdistinct _ _) (mem_subdirectories.mp hchild).1 hfits hne)
    rw [List.length_append, List.length_singleton] at hlength
    omega

/-- **Only unambiguous quests.**  A search that completes its tour lists no path twice only
if no directory is reached through different segments. -/
theorem unambiguous_of_nodup {σ ρ : Type} {remote : Remote σ} {receiver : Receiver ρ}
    {kind : String → Revision → Kind} (hfixed : remote.Fixed answer kind)
    (hobserving : ∀ wants, receiver.observing wants = true) (quest : Quest)
    (demands : Option Acceptance) (state : σ) (wants : ρ)
    (h : (((search remote receiver (quest.demanding demands)).perform
      (Session.start state wants)).2.account.filterMap Event.listing?).Nodup) :
    Unambiguous answer (quest.demanding demands) := by
  obtain ⟨-, -, htours⟩ := hfixed.completes hobserving quest demands state wants
  have hcourse := (search_follows_course remote receiver (quest.demanding demands)
    (Session.start state wants)).of_start.2
  generalize ((search remote receiver (quest.demanding demands)).perform
    (Session.start state wants)).2.account = events at h htours hcourse
  rw [hcourse.marked.listings] at h
  have hentry : ∀ place, Visited answer (quest.demanding demands) place →
      (place.matched, place.names) ∈ events.filterMap Event.entry? := by
    intro place hplace
    have hstep := hplace.mem_tour hfixed.distinct
    rw [← htours.steps] at hstep
    obtain ⟨event, hevent, hentered⟩ := List.mem_filterMap.mp hstep
    cases event with
    | entered =>
      cases hentered
      exact List.mem_filterMap.mpr ⟨_, hevent, rfl⟩
    | _ => cases hentered
  intro place place' hplace hplace' hnames
  have hmarks := List.inj_on_of_nodup_map h (hentry place hplace) (hentry place' hplace')
    (by rw [hnames])
  exact congrArg Prod.fst hmarks

end Unambiguous

end Discovery
end HeadFinder
