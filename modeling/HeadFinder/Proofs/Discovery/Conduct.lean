import HeadFinder.Proofs.Discovery.Warrant

/-! # How a search conducts itself

What every offer and every listing of a search keeps, the whole search keeps: `Conduct`
names what has to be known of the two, and the induction over steps and levels is done
here once (`Conduct.visit`).  On the way it turns out that a search goes on for exactly
as long as its receiver is observing.  The first law won in this way is that nothing at
all is put on record while the receiver is not observing; all that a receiver may
expect of a search follows from it (`searchFrom_heeds`).
-/
namespace HeadFinder.Discovery
open Access

variable {σ ρ : Type} {remote : Remote σ} {receiver : Receiver ρ} {quest : Quest}

/-! ## From offers and listings to searches -/

/-- How a search may change a session: what an offer or a listing does is `Good`, or it
fails and is `Bad`.  Both are only made while the receiver is observing.  Good changes
add up, and a bad one may come after them. -/
structure Conduct (remote : Remote σ) (receiver : Receiver ρ) (quest : Quest)
    (Good : Session σ ρ → Session σ ρ → Prop)
    (Bad : Failure → Session σ ρ → Session σ ρ → Prop) : Prop where
  rest : ∀ session, Good session session
  goOn : ∀ {first second last}, Good first second → Good second last → Good first last
  fail : ∀ {first second last failure}, Good first second → Bad failure second last →
    Bad failure first last
  offer : ∀ pattern names child session, receiver.observing session.receiver = true →
    Ends (offer remote receiver quest pattern names child) session
      (fun _ => Good session) (fun failure => Bad failure session)
  listing : ∀ place session, receiver.observing session.receiver = true →
    Ends (listing remote quest place) session
      (fun _ => Good session) (fun failure => Bad failure session)

/-- After an offer the search goes on if the receiver is observing. -/
theorem offer_heeds (pattern : Pattern) (names : List String) (child : Child)
    (session : Session σ ρ) (h : receiver.observing session.receiver = true) :
    Ends (offer remote receiver quest pattern names child) session
      (fun goOn after => goOn = receiver.observing after.receiver)
      (fun _ after => receiver.observing after.receiver = true) := by
  -- A criterion does not touch the receiver.
  have hkept : ∀ after, (session.record (.offered pattern names child)).Grew receiver
      (Inquired (candidate quest names child)) after →
      receiver.observing after.receiver = true := by
    rintro after ⟨events, -, hheard, hasked⟩
    rw [hheard, Receiver.hear_of_silent hasked.heads]
    exact h
  rw [ends_offer]
  refine (judge_grew receiver ..).mono ?_ (fun _ after hgrew => hkept after hgrew)
  intro accepted after hgrew
  cases accepted with
  | true => rfl
  | false => exact (hkept after hgrew).symm

/-- A listing does not touch the receiver. -/
theorem listing_heeds (receiver : Receiver ρ) (place : Place) (session : Session σ ρ) :
    Ends (listing remote quest place) session
      (fun _ after => after.receiver = session.receiver)
      (fun _ after => after.receiver = session.receiver) := by
  have hkept : ∀ outcome (after : Session σ ρ), session.Grew receiver
      (fun events => events = [.entered place,
        .listed (Path.join (quest.base :: place.names)) place.revision outcome]) after →
      after.receiver = session.receiver := by
    rintro outcome after ⟨events, -, hheard, rfl⟩
    exact hheard
  exact (listing_grew receiver place session).mono
    (fun _ after ⟨outcome, _, hgrew⟩ => hkept outcome after hgrew)
    (fun _ after ⟨outcome, hgrew⟩ => hkept outcome after hgrew)

section Rule
variable {Good : Session σ ρ → Session σ ρ → Prop}
variable {Bad : Failure → Session σ ρ → Session σ ρ → Prop}

/-- Steps are good when each entry is. -/
theorem Conduct.follow (h : Conduct remote receiver quest Good Bad)
    {enter : Place → Access σ ρ Bool}
    (henter : ∀ place session, Ends (enter place) session
      (fun goOn after => goOn = receiver.observing after.receiver ∧ Good session after)
      (fun failure after => receiver.observing after.receiver = true ∧
        Bad failure session after))
    (steps : List Step) (session : Session σ ρ)
    (hobserving : receiver.observing session.receiver = true) :
    Ends (follow remote receiver quest enter steps) session
      (fun goOn after => goOn = receiver.observing after.receiver ∧ Good session after)
      (fun failure after => receiver.observing after.receiver = true ∧
        Bad failure session after) := by
  induction steps generalizing session with
  | nil => exact ends_follow_nil.mpr ⟨hobserving.symm, h.rest session⟩
  | cons step rest ih =>
    have htake : Ends (take remote receiver quest enter step) session
        (fun goOn after => goOn = receiver.observing after.receiver ∧ Good session after)
        (fun failure after => receiver.observing after.receiver = true ∧
          Bad failure session after) := by
      cases step with
      | offer pattern names child =>
        exact (offer_heeds pattern names child session hobserving).and
          (h.offer pattern names child session hobserving)
      | enter place => exact henter place session
    rw [ends_follow_cons]
    refine htake.mono ?_ (fun _ _ hbad => hbad)
    rintro goOn after ⟨hgoOn, hgood⟩
    cases goOn with
    | false => exact ⟨hgoOn, hgood⟩
    | true =>
      exact (ih after hgoOn.symm).mono
        (fun _ last ⟨hlast, hgood'⟩ => ⟨hlast, h.goOn hgood hgood'⟩)
        (fun _ last ⟨hlast, hbad⟩ => ⟨hlast, h.fail hgood hbad⟩)

/-- **A visit is good when offers and listings are**, and it goes on for exactly as long
as the receiver is observing.  By induction on the levels. -/
theorem Conduct.visit (h : Conduct remote receiver quest Good Bad) (levels : Nat)
    (place : Place) (session : Session σ ρ) :
    Ends (visit remote receiver quest levels place) session
      (fun goOn after => goOn = receiver.observing after.receiver ∧ Good session after)
      (fun failure after => receiver.observing after.receiver = true ∧
        Bad failure session after) := by
  by_cases hobserving : receiver.observing session.receiver = true
  · have hlisting := (listing_heeds receiver place session).and
      (h.listing place session hobserving)
    cases levels with
    | zero =>
      rw [ends_visit_zero, if_pos hobserving]
      exact hlisting.mono
        (fun _ after ⟨hkept, hgood⟩ => ⟨by rw [hkept, hobserving], hgood⟩)
        (fun _ after ⟨hkept, hbad⟩ => ⟨by rw [hkept, hobserving], hbad⟩)
    | succ levels =>
      rw [ends_visit_succ, if_pos hobserving]
      refine hlisting.mono ?_ (fun _ after ⟨hkept, hbad⟩ => ⟨by rw [hkept, hobserving], hbad⟩)
      rintro node after ⟨hkept, hgood⟩
      have hafter : receiver.observing after.receiver = true := by rw [hkept, hobserving]
      exact (h.follow (h.visit levels) (steps quest place (childrenOf node)) after hafter).mono
        (fun _ last ⟨hlast, hgood'⟩ => ⟨hlast, h.goOn hgood hgood'⟩)
        (fun _ last ⟨hlast, hbad⟩ => ⟨hlast, h.fail hgood hbad⟩)
  · have hsated : receiver.observing session.receiver = false := by simpa using hobserving
    have hnothing : false = receiver.observing session.receiver ∧ Good session session :=
      ⟨hsated.symm, h.rest session⟩
    cases levels with
    | zero => rw [ends_visit_zero, if_neg hobserving]; exact hnothing
    | succ levels => rw [ends_visit_succ, if_neg hobserving]; exact hnothing

/-- A search from a place visits it, unless it is misplaced. -/
theorem ends_searchFrom {place : Place} {session : Session σ ρ}
    {done : Bool → Session σ ρ → Prop} {failed : Failure → Session σ ρ → Prop} :
    Ends (searchFrom remote receiver quest place) session done failed ↔
      (place.Aligned → Ends (Discovery.visit remote receiver quest
        (levelsBelow quest.includes place) place) session done failed) ∧
      (¬ place.Aligned → failed .misplaced session) := by
  unfold searchFrom Place.Aligned
  by_cases hlen : place.matched.length = place.names.length
  · by_cases hcovers : Pattern.covers place.matched place.names = true
    · simp [hlen, hcovers]
    · simp [hlen, hcovers, ends_bind, ends_throw]
  · simp [hlen, ends_bind, ends_throw]

end Rule

/-! ## Nothing happens unless the receiver is observing -/

/-- Each of the events comes while the receiver, which has heard of those before it, is
observing. -/
def Heeded (receiver : Receiver ρ) (wants : ρ) (events : List Event) : Prop :=
  ∀ before event after, events = before ++ event :: after →
    receiver.observing (receiver.hear before wants) = true

theorem Heeded.nil {wants : ρ} : Heeded receiver wants [] := by
  intro before event after h
  simp at h

theorem Heeded.append {wants : ρ} {first second : List Event}
    (hfirst : Heeded receiver wants first)
    (hsecond : Heeded receiver (receiver.hear first wants) second) :
    Heeded receiver wants (first ++ second) := by
  intro before event after h
  rcases List.append_eq_append_iff.mp h with ⟨more, hbefore, hrest⟩ | ⟨more, hfirst', hrest⟩
  · -- The event is one of the second part.
    rw [hbefore, Receiver.hear_append]
    exact hsecond more event after hrest
  · cases more with
    | nil =>
      rw [List.append_nil] at hfirst'
      rw [← hfirst']
      exact hsecond [] event after (by simpa using hrest.symm)
    | cons other more =>
      obtain ⟨rfl, -⟩ := List.cons.inj hrest
      exact hfirst before event more hfirst'

/-- Nothing comes after events that leave the receiver with enough. -/
theorem Heeded.eq_nil_of_sated {wants : ρ} {before after : List Event}
    (h : Heeded receiver wants (before ++ after))
    (hsated : receiver.observing (receiver.hear before wants) = false) : after = [] := by
  cases after with
  | nil => rfl
  | cons event after => cases (h before event after rfl).symm.trans hsated

/-- Where no head is reported, the receiver stays as it is. -/
theorem Heeded.of_silent {wants : ρ} {events : List Event}
    (hobserving : receiver.observing wants = true) (h : Event.heads events = []) :
    Heeded receiver wants events := by
  intro before event after heq
  have hbefore : Event.heads before = [] := by
    rw [heq, Event.heads_append, List.append_eq_nil_iff] at h
    exact h.1
  rw [Receiver.hear_of_silent hbefore]
  exact hobserving

theorem Offering.heeded {pattern : Pattern} {names : List String} {child : Child} {wants : ρ}
    {events : List Event} (h : Offering quest pattern names child events)
    (hobserving : receiver.observing wants = true) : Heeded receiver wants events := by
  cases h with
  | @intro asked told hasked htold =>
    have hsilent : Event.heads (.offered pattern names child :: asked) = [] := hasked.heads
    refine Heeded.append (.of_silent hobserving hsilent) ?_
    rw [Receiver.hear_of_silent hsilent]
    rcases htold with rfl | rfl
    · exact .nil
    · intro before event after heq
      have hbefore : before = [] := by
        cases before with
        | nil => rfl
        | cons => simp at heq
      rw [hbefore]
      exact hobserving

/-- Offers and listings are only put on record while the receiver is observing. -/
theorem conduct_heeded (remote : Remote σ) (receiver : Receiver ρ) (quest : Quest) :
    Conduct remote receiver quest
      (fun before after => before.Grew receiver (Heeded receiver before.receiver) after)
      (fun _ before after => before.Grew receiver (Heeded receiver before.receiver) after) := by
  have htrans : ∀ {first second last : Session σ ρ},
      first.Grew receiver (Heeded receiver first.receiver) second →
      second.Grew receiver (Heeded receiver second.receiver) last →
      first.Grew receiver (Heeded receiver first.receiver) last := by
    rintro first second last ⟨events, haccount, hheard, hheeded⟩ ⟨more, haccount', hheard', hheeded'⟩
    refine ⟨events ++ more, ?_, ?_, hheeded.append (hheard ▸ hheeded')⟩
    · rw [haccount', haccount, List.append_assoc]
    · rw [hheard', hheard, Receiver.hear_append]
  refine ⟨fun session => Session.Grew.refl .nil session, htrans, htrans, ?_, ?_⟩
  · intro pattern names child session hobserving
    exact (offer_grew pattern names child session).mono
      (fun _ _ h => h.mono fun _ hevents => hevents.heeded hobserving)
      (fun _ _ h => h.mono fun _ hevents => hevents.heeded hobserving)
  · intro place session hobserving
    have hlisted : ∀ outcome events, events = [Event.entered place,
        .listed (Path.join (quest.base :: place.names)) place.revision outcome] →
        Heeded receiver session.receiver events := by
      rintro outcome events rfl
      exact .of_silent hobserving rfl
    exact (listing_grew receiver place session).mono
      (fun _ _ ⟨outcome, _, h⟩ => h.mono (hlisted outcome))
      (fun _ _ ⟨outcome, h⟩ => h.mono (hlisted outcome))

/-- A search from a place that is not misplaced goes on for as long as the receiver is
observing, and puts nothing on record after that. -/
theorem searchFrom_heeded (remote : Remote σ) (receiver : Receiver ρ) (quest : Quest)
    {place : Place} (haligned : place.Aligned) (session : Session σ ρ) :
    Ends (searchFrom remote receiver quest place) session
      (fun goOn after => goOn = receiver.observing after.receiver ∧
        session.Grew receiver (Heeded receiver session.receiver) after)
      (fun _ after => receiver.observing after.receiver = true ∧
        session.Grew receiver (Heeded receiver session.receiver) after) :=
  ends_searchFrom.mpr ⟨fun _ => (conduct_heeded remote receiver quest).visit _ place session,
    fun h => absurd haligned h⟩

theorem search_heeded (remote : Remote σ) (receiver : Receiver ρ) (quest : Quest)
    (session : Session σ ρ) :
    Ends (search remote receiver quest) session
      (fun goOn after => goOn = receiver.observing after.receiver ∧
        session.Grew receiver (Heeded receiver session.receiver) after)
      (fun _ after => receiver.observing after.receiver = true ∧
        session.Grew receiver (Heeded receiver session.receiver) after) :=
  searchFrom_heeded remote receiver quest Place.aligned_root session

/-- An action that goes on as long as the receiver is observing, and only fails while it
is, tells at its end whether the receiver is. -/
theorem told_of_ends {action : Access σ ρ Bool} {session : Session σ ρ}
    {done : Bool → Session σ ρ → Prop} {failed : Failure → Session σ ρ → Prop}
    (h : Ends action session
      (fun goOn after => goOn = receiver.observing after.receiver ∧ done goOn after)
      (fun failure after => receiver.observing after.receiver = true ∧ failed failure after)) :
    (∀ goOn, (action.perform session).1 = .ok goOn →
      goOn = receiver.observing (action.perform session).2.receiver) ∧
    (receiver.observing (action.perform session).2.receiver = false →
      (action.perform session).1 = .ok false) := by
  rcases h.performed with ⟨value, hvalue, hgoOn, -⟩ | ⟨failure, hfailure, hobserving, -⟩
  · refine ⟨fun goOn hrun => ?_, fun hsated => ?_⟩
    · cases hrun.symm.trans hvalue
      exact hgoOn
    · rw [hvalue, hgoOn, hsated]
  · refine ⟨fun goOn hrun => ?_, fun hsated => ?_⟩
    · cases hrun.symm.trans hfailure
    · cases hsated.symm.trans hobserving

/-- A misplaced search does nothing. -/
theorem searchFrom_misplaced (remote : Remote σ) (receiver : Receiver ρ) (quest : Quest)
    {place : Place} (h : ¬ place.Aligned) (session : Session σ ρ) :
    ((searchFrom remote receiver quest place).perform session).1 = .error .misplaced ∧
      ((searchFrom remote receiver quest place).perform session).2 = session := by
  have hends : Ends (searchFrom remote receiver quest place) session (fun _ _ => False)
      (fun failure after => failure = .misplaced ∧ after = session) :=
    ends_searchFrom.mpr ⟨fun haligned => absurd haligned h, fun _ => ⟨rfl, rfl⟩⟩
  rcases hends.performed with ⟨_, -, hfalse⟩ | ⟨failure, hfailure, rfl, hsession⟩
  · exact hfalse.elim
  · exact ⟨hfailure, hsession⟩

/-- **A search heeds its receiver.**  From wherever and whenever a search starts, and
however it ends, a head is only reported while the receiver is observing; when the
receiver has had enough with it, nothing at all follows and the search ends at once,
with `false`.  A receiver that is not observing to begin with sees nothing happen.  A
search that ends without a failure tells whether the receiver is observing then. -/
theorem searchFrom_heeds (remote : Remote σ) (receiver : Receiver ρ) (quest : Quest)
    (place : Place) (session : Session σ ρ) :
    let run := (searchFrom remote receiver quest place).perform session
    ∃ events, run.2.account = session.account ++ events ∧
      run.2.receiver = receiver.hear events session.receiver ∧
      (∀ before head after, events = before ++ .reported head :: after →
        receiver.observing (receiver.hear before session.receiver) = true ∧
        (receiver.observing (receiver.report head (receiver.hear before session.receiver)) =
          false → after = [] ∧ run.1 = .ok false)) ∧
      (receiver.observing session.receiver = false →
        events = [] ∧ (place.Aligned → run.1 = .ok false)) ∧
      ∀ goOn, run.1 = .ok goOn → goOn = receiver.observing run.2.receiver := by
  intro run
  by_cases haligned : place.Aligned
  · have hsearch := searchFrom_heeded remote receiver quest haligned session
    obtain ⟨htold, hsated⟩ := told_of_ends hsearch
    obtain ⟨events, haccount, hheard, hheeded⟩ : session.Grew receiver
        (Heeded receiver session.receiver) run.2 :=
      (hsearch.mono (fun _ _ h => h.2) (fun _ _ h => h.2)).perform
    refine ⟨events, haccount, hheard, ?_, ?_, htold⟩
    · intro before head after heq
      refine ⟨hheeded before (.reported head) after heq, fun henough => ?_⟩
      rw [List.append_cons] at heq
      rw [heq] at hheeded hheard
      have henough' : receiver.observing
          (receiver.hear (before ++ [.reported head]) session.receiver) = false := by
        rw [Receiver.hear_append]
        exact henough
      have hafter : after = [] := hheeded.eq_nil_of_sated henough'
      rw [hafter, List.append_nil] at hheard
      exact ⟨hafter, hsated (hheard ▸ henough')⟩
    · intro hnever
      rw [← List.nil_append events] at hheeded
      have hevents : events = [] := hheeded.eq_nil_of_sated hnever
      rw [hevents] at hheard
      exact ⟨hevents, fun _ => hsated (hheard ▸ hnever)⟩
  · obtain ⟨hrun, hsession⟩ := searchFrom_misplaced remote receiver quest haligned session
    have hsession : run.2 = session := hsession
    refine ⟨[], by rw [hsession, List.append_nil], by rw [hsession]; rfl, ?_, ?_, ?_⟩
    · intro before head after heq
      simp at heq
    · exact fun _ => ⟨rfl, fun h => absurd h haligned⟩
    · intro goOn hgoOn
      cases hgoOn.symm.trans hrun

end HeadFinder.Discovery
