import HeadFinder.Proofs.Discovery.Tour

/-! # Searches that complete their tour

`Serves` is what has to be known of a remote for some fixed answers to be what a search
goes by.  The answers need to be right only for directories that the search may get to,
so that the remote may change elsewhere.  A search that is served and whose receiver never
has enough takes the steps of its tour, one after the other, and reports the accepted ones
(`search_completes`).
-/
namespace HeadFinder.Discovery
open Access

/-- The criterion of a quest, if it has one, is the predicate `accepts`: however a
session stands, it comes to that verdict and does not fail. -/
def Quest.GoesBy {σ : Type} (ρ : Type) (remote : Remote σ) (quest : Quest)
    (accepts : Probe → Bool) : Prop :=
  match quest.criterion with
  | none => ∀ probe, accepts probe = true
  | some criterion => ∀ account probe (session : Session σ ρ),
    Ends ((criterion account probe).run remote quest.channel) session
      (fun accepted _ => accepted = accepts probe) (fun _ _ => False)

/-- What a remote must do for the answers to be what a search goes by.  Only the
directories of `Known` are ever listed; the remote is only called while it is
`Calm`, and stays so. -/
structure Serves {σ : Type} (ρ : Type) (remote : Remote σ) (quest : Quest)
    (answer : String → Revision → Except Failure Node) (accepts : Probe → Bool)
    (Known : List String → Revision → Prop) (Calm : σ → Prop) : Prop where
  /-- The remote stays calm when a known directory is listed. -/
  steady : ∀ (place : Place) state, Known place.names place.revision → Calm state →
    Calm (remote.list (Path.join (quest.base :: place.names)) place.revision state).state
  /-- The children that it lists are those of the answer. -/
  faithful : ∀ (place : Place) state, Known place.names place.revision → Calm state →
    childrenOf (answered remote quest place state).toOption =
      childrenOf (answer (Path.join (quest.base :: place.names)) place.revision).toOption
  /-- It fails for want of a node only. -/
  present : ∀ (place : Place) state failure, Known place.names place.revision → Calm state →
    answered remote quest place state = .error failure → failure.isMissing = true
  /-- No directory has two children of one name. -/
  distinct : ∀ names revision, Known names revision →
    ((childrenOf (answer (Path.join (quest.base :: names)) revision).toOption).map
      Child.name).Nodup
  /-- The child directories are known too. -/
  descends : ∀ names revision child, Known names revision →
    child ∈ subdirectories (answer (Path.join (quest.base :: names)) revision) →
      Known (names ++ [child.name]) child.revision
  /-- They are judged as `accepts` says. -/
  judged : ∀ names revision child (session : Session σ ρ), Known names revision →
    child ∈ subdirectories (answer (Path.join (quest.base :: names)) revision) →
    Calm session.remote →
      Ends (judge remote quest (candidate quest (names ++ [child.name]) child)) session
        (fun accepted after =>
          accepted = accepts (candidate quest (names ++ [child.name]) child) ∧ Calm after.remote)
        (fun _ _ => False)

/-- The events put these steps on record, and report the accepted ones. -/
structure Tours (accepts : Probe → Bool) (quest : Quest) (itinerary : List Step)
    (events : List Event) : Prop where
  steps : events.filterMap Event.step? = itinerary
  heads : Event.heads events = headsOf accepts quest itinerary

/-- From `session` the action goes on, with the remote still calm, and it takes these
steps. -/
def Completes {σ ρ : Type} (receiver : Receiver ρ) (Calm : σ → Prop) (accepts : Probe → Bool)
    (quest : Quest) (itinerary : List Step) (action : Access σ ρ Bool) (session : Session σ ρ) :
    Prop :=
  Ends action session
    (fun goOn after => goOn = true ∧ Calm after.remote ∧
      session.Grew receiver (Tours accepts quest itinerary) after)
    (fun _ _ => False)

theorem Inquired.steps {probe : Probe} {events : List Event} (h : Inquired probe events) :
    events.filterMap Event.step? = [] :=
  List.eq_nil_of_sublist_nil (h.filterMap_sublist fun _ _ _ => rfl)

section
variable {σ ρ : Type} {remote : Remote σ} {receiver : Receiver ρ} {quest : Quest}
variable {answer : String → Revision → Except Failure Node} {accepts : Probe → Bool}
variable {Known : List String → Revision → Prop} {Calm : σ → Prop}

theorem Tours.append {first second : List Step} {events more : List Event}
    (h : Tours accepts quest first events) (h' : Tours accepts quest second more) :
    Tours accepts quest (first ++ second) (events ++ more) where
  steps := by rw [List.filterMap_append, h.steps, h'.steps]
  heads := by rw [Event.heads_append, h.heads, h'.heads, headsOf, headsOf, headsOf,
    List.filterMap_append]

/-- What an offer puts on record is the offer, and its head if it was accepted. -/
theorem tours_offer {pattern : Pattern} {names : List String} {child : Child}
    {asked : List Event} (hasked : Inquired (candidate quest names child) asked) :
    Tours accepts quest [.offer pattern names child] (.offered pattern names child :: (asked ++
      if accepts (candidate quest names child) then
        [.reported (candidate quest names child).head] else [])) where
  steps := by
    show Step.offer pattern names child :: _ = _
    rw [List.filterMap_append, hasked.steps]
    split <;> rfl
  heads := by
    show Event.heads (asked ++ _) = _
    rw [Event.heads_append, hasked.heads]
    unfold headsOf
    simp only [List.filterMap_cons, List.filterMap_nil, Step.head?]
    split <;> rfl

theorem Quest.GoesBy.judge (h : quest.GoesBy ρ remote accepts) (probe : Probe)
    (session : Session σ ρ) :
    Ends (judge remote quest probe) session (fun accepted _ => accepted = accepts probe)
      (fun _ _ => False) := by
  unfold Quest.GoesBy at h
  cases hcriterion : quest.criterion with
  | none =>
    rw [hcriterion] at h
    rw [ends_judge_none hcriterion]
    exact (h probe).symm
  | some criterion =>
    rw [hcriterion] at h
    rw [ends_judge_some hcriterion]
    exact h session.account probe _

/-- An offer reports the head of its candidate or, if that is not accepted, none. -/
theorem offer_completes (hobserving : ∀ wants, receiver.observing wants = true)
    {pattern : Pattern} {names : List String} {child : Child} (session : Session σ ρ)
    (hcalm : Calm session.remote)
    (hjudged : ∀ session : Session σ ρ, Calm session.remote →
      Ends (judge remote quest (candidate quest names child)) session
        (fun accepted after =>
          accepted = accepts (candidate quest names child) ∧ Calm after.remote)
        (fun _ _ => False)) :
    Completes receiver Calm accepts quest [.offer pattern names child]
      (offer remote receiver quest pattern names child) session := by
  unfold Completes
  rw [ends_offer]
  have hasked := hjudged ((session.record (.offered pattern names child)).note ⟨.info,
    quest.channel, "Checking candidate branch " ++ (candidate quest names child).root ++ "@" ++
      toString (candidate quest names child).revision⟩) hcalm
  refine (hasked.and (judge_grew receiver _ _)).mono ?_ (fun _ _ h => h.1.elim)
  rintro accepted after ⟨⟨haccepted, hafter⟩, events, haccount, hheard, hinquired⟩
  have htours : Tours accepts quest [.offer pattern names child] _ := tours_offer hinquired
  have haccount' : after.account =
      session.account ++ (.offered pattern names child :: events) := by
    rw [haccount]
    exact List.append_assoc ..
  rw [← haccepted] at htours
  cases accepted with
  | true =>
    refine ⟨hobserving _, hafter, _, ?_, ?_, htours⟩
    · show after.account ++ [_] = _
      rw [haccount', List.append_assoc]
      rfl
    · show receiver.report _ after.receiver = _
      rw [hheard, ← List.cons_append, Receiver.hear_append]
      rfl
  | false =>
    refine ⟨rfl, hafter, _, ?_, ?_, htours⟩
    · show after.account = _
      rw [haccount', if_neg Bool.false_ne_true, List.append_nil]
    · show after.receiver = _
      rw [hheard, if_neg Bool.false_ne_true, List.append_nil]
      rfl

/-- Steps are taken in turn when each is taken with what is ahead of it. -/
theorem follow_completes {enter : Place → Access σ ρ Bool} {inner : Place → List Step}
    (steps : List Step)
    (htake : ∀ step ∈ steps, ∀ session : Session σ ρ, Calm session.remote →
      Completes receiver Calm accepts quest (step.ahead inner)
        (take remote receiver quest enter step) session)
    (session : Session σ ρ) (hcalm : Calm session.remote) :
    Completes receiver Calm accepts quest (steps.flatMap (Step.ahead inner))
      (follow remote receiver quest enter steps) session := by
  induction steps generalizing session with
  | nil => exact ends_follow_nil.mpr ⟨rfl, hcalm, Session.Grew.refl ⟨rfl, rfl⟩ session⟩
  | cons step rest ih =>
    unfold Completes
    rw [ends_follow_cons]
    refine (htake step (List.mem_cons_self ..) session hcalm).mono ?_ (fun _ _ h => h)
    rintro goOn after ⟨rfl, hafter, hgrew⟩
    rw [if_pos rfl]
    have hrest := ih (fun step hstep => htake step (List.mem_cons_of_mem _ hstep)) after hafter
    refine hrest.mono ?_ (fun _ _ h => h)
    rintro goOn last ⟨rfl, hlast, hgrew'⟩
    rw [List.flatMap_cons]
    exact ⟨rfl, hlast, hgrew.trans hgrew' fun _ _ => Tours.append⟩

/-- What the listing of a known directory does: it is on record, and the children
it offers are those of the answer. -/
theorem listing_completes (receiver : Receiver ρ)
    (hserves : Serves ρ remote quest answer accepts Known Calm) {place : Place}
    (hknown : Known place.names place.revision) (session : Session σ ρ)
    (hcalm : Calm session.remote) :
    Ends (listing remote quest place) session
      (fun node after =>
        steps quest place (childrenOf node) = stepsAt answer quest place ∧
        Calm after.remote ∧
        session.Grew receiver (Tours accepts quest [.enter place]) after)
      (fun _ _ => False) := by
  rw [ends_listing]
  have hfaithful := hserves.faithful place session.remote hknown hcalm
  have hsteady := hserves.steady place session.remote hknown hcalm
  have hgrew : session.Grew receiver (Tours accepts quest [.enter place])
      (entering remote quest place session) :=
    ⟨_, account_entering, rfl, rfl, rfl⟩
  cases hanswered : answered remote quest place session.remote with
  | ok node =>
    rw [hanswered] at hfaithful
    exact ⟨congrArg (steps quest place) hfaithful, hsteady, hgrew⟩
  | error failure =>
    have hmissing := hserves.present place session.remote failure hknown hcalm hanswered
    rw [hanswered] at hfaithful
    dsimp only
    rw [if_pos hmissing]
    exact ⟨congrArg (steps quest place) hfaithful, hsteady, hgrew⟩

/-- **A visit takes the steps of its tour.**  By induction on the levels: every step for
the listing of a known directory is a child of it, so it is judged or entered as a known
one. -/
theorem visit_completes (hserves : Serves ρ remote quest answer accepts Known Calm)
    (hobserving : ∀ wants, receiver.observing wants = true) (levels : Nat) (place : Place)
    (hknown : Known place.names place.revision) (session : Session σ ρ)
    (hcalm : Calm session.remote) :
    Completes receiver Calm accepts quest (tour answer quest levels place)
      (visit remote receiver quest levels place) session := by
  induction levels generalizing place session with
  | zero =>
    unfold Completes
    rw [ends_visit_zero, if_pos (hobserving _)]
    refine (listing_completes receiver hserves hknown session hcalm).mono ?_ (fun _ _ h => h)
    rintro node after ⟨-, hafter, hgrew⟩
    exact ⟨rfl, hafter, hgrew⟩
  | succ levels ih =>
    unfold Completes
    rw [ends_visit_succ, if_pos (hobserving _)]
    refine (listing_completes receiver hserves hknown session hcalm).mono ?_ (fun _ _ h => h)
    rintro node after ⟨hsteps, hafter, hgrew⟩
    rw [hsteps]
    have htake : ∀ step ∈ stepsAt answer quest place, ∀ session : Session σ ρ,
        Calm session.remote →
        Completes receiver Calm accepts quest (step.ahead (tour answer quest levels))
          (take remote receiver quest (visit remote receiver quest levels) step) session := by
      intro step hstep session hcalm
      obtain ⟨pattern, wanted, child, hchild, -, hdoes⟩ := of_mem_stepsAt hstep
      cases hdoes with
      | offer =>
        exact offer_completes hobserving session hcalm fun session hcalm =>
          hserves.judged place.names place.revision child session hknown hchild hcalm
      | enter =>
        exact ih (place.below wanted child)
          (hserves.descends place.names place.revision child hknown hchild) session hcalm
    refine (follow_completes _ htake after hafter).mono ?_ (fun _ _ h => h)
    rintro goOn last ⟨rfl, hlast, hgrew'⟩
    exact ⟨rfl, hlast, hgrew.trans hgrew' fun _ _ => Tours.append⟩

/-- A fold with `max` is above its start and above every element. -/
theorem le_foldl_max (numbers : List Nat) (start : Nat) :
    start ≤ numbers.foldl max start ∧ ∀ n ∈ numbers, n ≤ numbers.foldl max start := by
  induction numbers generalizing start with
  | nil => exact ⟨Nat.le_refl _, fun _ h => nomatch h⟩
  | cons first rest ih =>
    obtain ⟨hstart, hrest⟩ := ih (max start first)
    refine ⟨Nat.le_trans (Nat.le_max_left ..) hstart, fun n hn => ?_⟩
    rcases List.mem_cons.mp hn with rfl | hn
    · exact Nat.le_trans (Nat.le_max_right ..) hstart
    · exact hrest n hn

/-- The levels below the root suffice for every pattern. -/
theorem length_le_levelsBelow {pattern : Pattern} {includes : List Pattern}
    (h : pattern ∈ includes) :
    pattern.length ≤ Place.root.matched.length + levelsBelow includes .root := by
  have := (le_foldl_max (includes.map List.length) 0).2 _ (List.mem_map_of_mem h)
  unfold levelsBelow
  omega

/-- **A search from a known root takes the steps of its tour.** -/
theorem search_completes (hserves : Serves ρ remote quest answer accepts Known Calm)
    (hobserving : ∀ wants, receiver.observing wants = true) (hroot : Known [] Revision.latest)
    (session : Session σ ρ) (hcalm : Calm session.remote) :
    Completes receiver Calm accepts quest (quest.tour answer) (search remote receiver quest)
      session :=
  ends_search.mpr (visit_completes hserves hobserving _ .root hroot session hcalm)

/-- Answers that are always given serve every search: nothing has to be known of a
directory, and no state is to be avoided. -/
theorem serves_of_fixed
    (hanswer : ∀ path revision state, (remote.list path revision state).outcome =
      answer path revision)
    (hmissing : ∀ path revision failure, answer path revision = .error failure →
      failure.isMissing = true)
    (hdistinct : ∀ path revision,
      ((childrenOf (answer path revision).toOption).map Child.name).Nodup)
    (haccepts : quest.GoesBy ρ remote accepts) :
    Serves ρ remote quest answer accepts (fun _ _ => True) (fun _ => True) := by
  refine ⟨fun _ _ _ _ => trivial, ?_, ?_, fun names revision _ => hdistinct _ revision,
    fun _ _ _ _ _ => trivial, ?_⟩
  · intro place state _ _
    rw [answered, hanswer]
  · intro place state failure _ _ hanswered
    rw [answered, hanswer] at hanswered
    exact hmissing _ _ failure hanswered
  · intro names revision child session _ _ _
    exact (haccepts.judge _ session).mono (fun _ _ h => ⟨h, trivial⟩) (fun _ _ h => h)

end

end HeadFinder.Discovery
