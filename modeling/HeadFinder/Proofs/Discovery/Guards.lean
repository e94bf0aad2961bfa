import HeadFinder.Proofs.Discovery.Account
import HeadFinder.Proofs.Discovery.Conduct
import HeadFinder.Proofs.Discovery.Service
import HeadFinder.Receiver

/-! # The guards of a search

A search never looks again at what it relies on: that the names of its place match the
segments, that a pattern it follows goes on there, and that it comes to an end without
being cut off.  `guarded` looks at all of this on every call and does something else where
it fails.  Whatever that is, the guarded search is the search (`search_guarded`): what
carries the induction is that each entry uses up one segment of a pattern, so the tree that
is searched does not matter.
-/
namespace HeadFinder

/-- The failures that an inquiry can come to: its own, and what it makes of the answers that
the remote can give. -/
def Inquiry.Raises {σ : Type} (remote : Remote σ) (cause : Failure) : Inquiry → Prop
  | verdict _ => False
  | failure own => own = cause
  | note _ _ next => next.Raises remote cause
  | check path revision next =>
    ∃ state, (next (remote.check path revision state).outcome).Raises remote cause

open Access in
theorem Inquiry.run_raises {σ ρ : Type} (remote : Remote σ) (channel : String)
    (inquiry : Inquiry) (session : Session σ ρ) :
    Ends (inquiry.run remote channel) session (fun _ _ => True)
      (fun cause _ => inquiry.Raises remote cause) := by
  induction inquiry generalizing session with
  | verdict accepted => trivial
  | failure own => exact ends_throw.mpr rfl
  | note level text next ih =>
    rw [Inquiry.run, ends_bind, ends_note]
    exact ih _
  | check path revision next ih =>
    rw [Inquiry.run, ends_bind, Access.check, ends_attempt_call]
    exact (ih _ _).mono (fun _ _ h => h) (fun _ _ h => ⟨session.remote, h⟩)

namespace Discovery
open Access
variable {σ ρ : Type} {remote : Remote σ} {receiver : Receiver ρ} {quest : Quest}

/-! ## Where failures come from -/

/-- The remote answers a listing with this failure, or the criterion comes to it. -/
def Quest.Suffers (quest : Quest) (remote : Remote σ) (cause : Failure) : Prop :=
  (∃ path revision state, (remote.list path revision state).outcome = .error cause) ∨
    ∃ criterion account probe, quest.criterion = some criterion ∧
      (criterion account probe).Raises remote cause

theorem judge_suffers (probe : Probe) (session : Session σ ρ) :
    Ends (judge remote quest probe) session (fun _ _ => True)
      (fun cause _ => quest.Suffers remote cause) := by
  cases hcriterion : quest.criterion with
  | none => exact (ends_judge_none hcriterion).mpr trivial
  | some criterion =>
    rw [ends_judge_some hcriterion]
    exact (Inquiry.run_raises remote quest.channel _ _).mono (fun _ _ h => h)
      (fun _ _ h => Or.inr ⟨criterion, session.account, probe, hcriterion, h⟩)

theorem offer_suffers (receiver : Receiver ρ) (pattern : Pattern) (names : List String)
    (child : Child) (session : Session σ ρ) :
    Ends (offer remote receiver quest pattern names child) session (fun _ _ => True)
      (fun cause _ => quest.Suffers remote cause) := by
  rw [ends_offer]
  refine (judge_suffers _ _).mono (fun accepted _ _ => ?_) (fun _ _ h => h)
  cases accepted <;> trivial

theorem listing_suffers (place : Place) (session : Session σ ρ) :
    Ends (listing remote quest place) session (fun _ _ => True)
      (fun cause _ => quest.Suffers remote cause) := by
  rw [ends_listing]
  cases hanswered : answered remote quest place session.remote with
  | ok node => trivial
  | error cause =>
    dsimp only
    split
    · trivial
    · exact Or.inl ⟨_, _, _, hanswered⟩

/-- **A search has no failures of its own**: it ends with one of its remote or of its
criterion. -/
theorem search_suffers (remote : Remote σ) (receiver : Receiver ρ) (quest : Quest)
    (session : Session σ ρ) :
    Ends (search remote receiver quest) session (fun _ _ => True)
      (fun cause _ => quest.Suffers remote cause) := by
  have hconduct : Conduct remote receiver quest (fun _ _ => True)
      (fun cause _ _ => quest.Suffers remote cause) :=
    ⟨fun _ => trivial, fun _ _ => trivial, fun _ h => h,
      fun pattern names child session _ => offer_suffers receiver pattern names child session,
      fun place session _ => listing_suffers place session⟩
  exact ends_search.mpr ((hconduct.visit _ .root session).mono (fun _ _ h => h.2)
    (fun _ _ h => h.2))

/-! ## The guarded search -/

/-- Every pattern that is followed from a place has a segment to go on with. -/
def Place.GoesOn (place : Place) (includes : List Pattern) : Prop :=
  ∀ pattern ∈ Pattern.members (Pattern.group includes place.matched),
    place.matched.length < pattern.length

instance (place : Place) : Decidable place.Aligned :=
  inferInstanceAs (Decidable (_ ∧ _))

instance (place : Place) (includes : List Pattern) : Decidable (place.GoesOn includes) :=
  inferInstanceAs (Decidable (∀ _ ∈ _, _))

theorem Place.goesOn (place : Place) (includes : List Pattern) : place.GoesOn includes :=
  fun _ hpattern => (Pattern.mem_members_group.mp hpattern).2.2

/-- Looks for heads as `visit` does, with guards: `alarm` is what is done instead when more
than `calls` calls stand inside one another, when the names of a place do not match its
segments, and when a pattern ends where its next segment is to be read. -/
def guarded (remote : Remote σ) (receiver : Receiver ρ) (quest : Quest)
    (alarm : Access σ ρ Bool) : Nat → Place → Access σ ρ Bool
  | 0, _ => alarm
  | calls + 1, place =>
    if place.Aligned then do
      if !(← Access.observing receiver) then return false
      let node ← listing remote quest place
      if place.GoesOn quest.includes then
        follow remote receiver quest (guarded remote receiver quest alarm calls)
          (steps quest place (childrenOf node))
      else alarm
    else alarm

/-- Some pattern goes on behind a place that is entered on purpose. -/
theorem EntryWarrant.exists_longer {account : List Event} {place : Place}
    (h : EntryWarrant quest account place) :
    ∃ pattern ∈ quest.includes, place.matched.length < pattern.length := by
  obtain ⟨pattern, hpattern, hstart, hne⟩ := h.leadsOn
  exact ⟨pattern, hpattern,
    Nat.lt_of_le_of_ne hstart.length_le fun heq => hne (hstart.eq_of_length heq)⟩

/-- Entries from an aligned place are aligned and one segment longer, and some pattern goes
on behind them. -/
theorem of_enter_mem_steps {place next : Place} {children : List Child}
    (haligned : place.Aligned) (h : .enter next ∈ steps quest place children) :
    next.Aligned ∧ next.matched.length = place.matched.length + 1 ∧
      ∃ pattern ∈ quest.includes, next.matched.length < pattern.length := by
  let listed : Except Failure Node := .ok ⟨.directory, place.revision, some children⟩
  have hstep : .enter next ∈ steps quest place (childrenOf listed.toOption) := h
  have hwarrant : EntryWarrant quest _ next := warranted_of_mem_steps [] [] "" haligned hstep
  exact ⟨⟨hwarrant.aligned, hwarrant.covered⟩,
    (atDepth_of_mem_steps ⟨rfl, haligned.1.symm⟩ h).1, hwarrant.exists_longer⟩

/-- Where every pattern has ended there are no steps. -/
theorem steps_eq_nil {place : Place}
    (h : ∀ pattern ∈ quest.includes, pattern.length ≤ place.matched.length)
    (children : List Child) : steps quest place children = [] := by
  refine List.eq_nil_iff_forall_not_mem.mpr fun step hstep => ?_
  obtain ⟨pattern, wanted, child, -, hfits, -⟩ := of_mem_steps hstep
  have hlen := hfits.goesOn.length_le
  rw [List.length_append, List.length_singleton] at hlen
  have := h pattern hfits.asked
  omega

theorem follow_congr {enter enter' : Place → Access σ ρ Bool} {steps : List Step}
    (h : ∀ place, .enter place ∈ steps → enter place = enter' place) :
    follow remote receiver quest enter steps = follow remote receiver quest enter' steps := by
  induction steps with
  | nil => rfl
  | cons step rest ih =>
    have hrest := ih fun place hplace => h place (List.mem_cons_of_mem _ hplace)
    cases step with
    | offer pattern names child => rw [follow, follow, hrest]
    | enter place => rw [follow, follow, hrest, h place (List.mem_cons_self ..)]

/-- **From an aligned place the guards never raise the alarm**, and the levels do not cut the
search off, once both reach as far as the patterns.  By induction on the calls: an entry
uses up one segment of a pattern that goes on behind it. -/
theorem guarded_eq_visit (alarm : Access σ ρ Bool) {calls levels : Nat} {place : Place}
    (haligned : place.Aligned) (hpos : 0 < calls)
    (hcalls : ∀ pattern ∈ quest.includes, pattern.length ≤ place.matched.length + calls)
    (hlevels : ∀ pattern ∈ quest.includes, pattern.length ≤ place.matched.length + levels) :
    guarded remote receiver quest alarm calls place =
      visit remote receiver quest levels place := by
  induction calls generalizing levels place with
  | zero => exact absurd hpos (Nat.lt_irrefl _)
  | succ calls ih =>
    rw [guarded, if_pos haligned, visit]
    simp only [if_pos (place.goesOn quest.includes)]
    cases levels with
    | zero => simp only [steps_eq_nil hlevels, follow]
    | succ levels =>
      have hfollow : ∀ children, follow remote receiver quest
          (guarded remote receiver quest alarm calls) (steps quest place children) =
          follow remote receiver quest (visit remote receiver quest levels)
            (steps quest place children) := by
        refine fun children => follow_congr fun next hnext => ?_
        obtain ⟨hnextAligned, hlen, pattern, hpattern, hlt⟩ := of_enter_mem_steps haligned hnext
        have hreach := hcalls pattern hpattern
        refine ih hnextAligned (by omega) (fun other hother => ?_) (fun other hother => ?_)
        · have := hcalls other hother
          omega
        · have := hlevels other hother
          omega
      simp only [hfollow]

/-- The places that a search enters are aligned, their patterns go on, and below the root they
are shorter than some pattern. -/
theorem Course.guarded_root {events : List Event} (h : Course quest [.enter .root] events)
    {place : Place} (hplace : .entered place ∈ events) :
    place.Aligned ∧ place.GoesOn quest.includes ∧
      (place = .root ∨ ∃ pattern ∈ quest.includes, place.matched.length < pattern.length) := by
  obtain ⟨earlier, later, hevents⟩ := List.append_of_mem hplace
  have hjustified : Justified quest ([] ++ earlier) (.entered place) :=
    h.accountable_root earlier _ later hevents
  rcases hjustified with ⟨-, rfl⟩ | hwarrant
  · exact ⟨Place.aligned_root, Place.goesOn _ _, Or.inl rfl⟩
  · exact ⟨⟨hwarrant.aligned, hwarrant.covered⟩, Place.goesOn _ _, Or.inr hwarrant.exists_longer⟩

/-- **A search never needs its guards.**  Whatever is done when the alarm is raised, and with
no more calls inside one another than the longest pattern has segments (the first call is
made in any case), the guarded search is the search: for every remote, receiver and quest,
and from every session.  So the names of every place that is entered match its segments, the
patterns that are followed there go on, and below the root some pattern is longer still.  A
search that fails has its failure from the remote or from its criterion. -/
theorem search_guarded (remote : Remote σ) (receiver : Receiver ρ) (quest : Quest) :
    (∀ alarm, guarded remote receiver quest alarm
        ((quest.includes.map List.length).foldl max 1) .root = search remote receiver quest) ∧
      ∀ session : Session σ ρ,
        let run := (search remote receiver quest).perform session
        (∃ events, run.2.account = session.account ++ events ∧
          ∀ place, .entered place ∈ events →
            place.Aligned ∧ place.GoesOn quest.includes ∧
              (place = .root ∨
                ∃ pattern ∈ quest.includes, place.matched.length < pattern.length)) ∧
        ∀ cause, run.1 = .error cause → quest.Suffers remote cause := by
  refine ⟨fun alarm => ?_, fun session => ⟨?_, fun cause hfailed => ?_⟩⟩
  · obtain ⟨hpos, hlongest⟩ := le_foldl_max (quest.includes.map List.length) 1
    refine (guarded_eq_visit alarm Place.aligned_root hpos (fun pattern hpattern => ?_)
      fun pattern => length_le_levelsBelow : _ = visit _ _ _ (levelsBelow quest.includes .root) _)
    have := hlongest pattern.length (List.mem_map_of_mem hpattern)
    omega
  · obtain ⟨events, haccount, -, hcourse⟩ := search_follows_course remote receiver quest session
    exact ⟨events, haccount, fun place => hcourse.guarded_root⟩
  · rcases (search_suffers remote receiver quest session).performed with
      ⟨_, hdone, -⟩ | ⟨other, hother, hsuffers⟩
    · cases hfailed.symm.trans hdone
    · cases hfailed.symm.trans hother
      exact hsuffers

/-- Every directory holds itself, without a name. -/
def mirrors : Remote Unit where
  connect _ _ := ⟨.ok (), (), []⟩
  list _ _ _ := ⟨.ok ⟨.directory, 0, some [⟨"", .directory, 0, none⟩]⟩, (), []⟩
  check _ _ _ := ⟨.ok .directory, (), []⟩
  identify _ := ⟨.ok "", (), []⟩
  locate _ _ := ⟨.ok "", (), []⟩
  disconnect := id

/-- Patterns with an end at every depth down to three. -/
def winding : Quest :=
  ⟨"", [[], ["*"], ["*", "*", "*"]], [], none, defaultChannel⟩

theorem search_guarded_mirrors :
    let session := Session.start () Roster.empty
    let run := (search mirrors Receiver.collecting winding).perform session
    run.1 = .ok true ∧
      run.2.account.filterMap Event.entry? =
        [([], []), (["*"], [""]), (["*", "*"], ["", ""])] ∧
      (guarded mirrors Receiver.collecting winding (throw .misplaced) 3 .root).perform session =
        run ∧
      ∀ place, .entered place ∈ run.2.account → place.Aligned ∧ place.GoesOn winding.includes := by
  intro session run
  obtain ⟨hguarded, hruns⟩ := search_guarded mirrors Receiver.collecting winding
  obtain ⟨⟨events, haccount, hplaces⟩, -⟩ := hruns session
  have hevents : run.2.account = events := haccount
  have hcalls : (winding.includes.map List.length).foldl max 1 = 3 := rfl
  rw [hcalls] at hguarded
  refine ⟨rfl, rfl, by rw [hguarded], ?_⟩
  rw [hevents]
  exact fun place hplace => ⟨(hplaces place hplace).1, (hplaces place hplace).2.1⟩

end Discovery
end HeadFinder
