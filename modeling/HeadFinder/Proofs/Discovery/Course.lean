import HeadFinder.Proofs.Discovery.Ends
import HeadFinder.Proofs.Discovery.Steps

/-! # The course of a search

`Course` is a grammar of accounts: it says what may come onto record while some
steps are taken, whatever the remote answers, whatever the criterion asks and
whenever the receiver has had enough.  A search follows it
(`search_follows_course`), however it ends, so that what every course has in
common holds of every run.
-/
namespace HeadFinder

/-- An element of a list with a new last one is that one or was there before. -/
theorem append_cons_of_concat {α : Type} {as before after : List α} {last a : α}
    (h : as ++ [last] = before ++ a :: after) :
    (before = as ∧ a = last ∧ after = []) ∨ ∃ more, as = before ++ a :: more := by
  rcases List.eq_nil_or_concat after with rfl | ⟨more, other, rfl⟩
  · obtain ⟨hbefore, hlast⟩ := List.append_inj' h rfl
    exact Or.inl ⟨hbefore.symm, (List.cons.inj hlast).1.symm, rfl⟩
  · rw [List.concat_eq_append, ← List.cons_append, ← List.append_assoc] at h
    exact Or.inr ⟨more, (List.append_inj' h rfl).1⟩

/-- A question about one path. -/
def Event.IsCheck : Event → Prop
  | checked .. => True
  | _ => False

/-- What a receiver has become once it has heard of some events. -/
def Receiver.hear {ρ : Type} (receiver : Receiver ρ) (events : List Event) (wants : ρ) : ρ :=
  events.foldl (fun wants event =>
    match event with
    | .reported head => receiver.report head wants
    | _ => wants) wants

namespace Event

/-- The head that an event reports. -/
def head? : Event → Option Head
  | reported head => some head
  | _ => none

/-- The heads reported in an account, in order. -/
def heads (events : List Event) : List Head :=
  events.filterMap head?

theorem heads_append (first second : List Event) :
    heads (first ++ second) = heads first ++ heads second :=
  List.filterMap_append

theorem mem_heads {head : Head} {events : List Event} :
    head ∈ heads events ↔ .reported head ∈ events := by
  unfold heads
  rw [List.mem_filterMap]
  constructor
  · rintro ⟨event, hevent, hhead⟩
    cases event <;> simp [head?] at hhead
    rwa [← hhead]
  · intro h
    exact ⟨_, h, rfl⟩

end Event

/-- A receiver has heard of the heads, one after the other, and of nothing else. -/
theorem Receiver.hear_eq_foldl {ρ : Type} (receiver : Receiver ρ) (events : List Event)
    (wants : ρ) :
    receiver.hear events wants =
      (Event.heads events).foldl (fun wants head => receiver.report head wants) wants := by
  induction events generalizing wants with
  | nil => rfl
  | cons event events ih => cases event <;> exact ih _

theorem Receiver.hear_append {ρ : Type} (receiver : Receiver ρ) (first second : List Event)
    (wants : ρ) :
    receiver.hear (first ++ second) wants = receiver.hear second (receiver.hear first wants) :=
  List.foldl_append

theorem Receiver.hear_of_silent {ρ : Type} {receiver : Receiver ρ} {events : List Event}
    (h : Event.heads events = []) (wants : ρ) : receiver.hear events wants = wants := by
  rw [hear_eq_foldl, h]
  rfl

namespace Session
variable {σ ρ : Type} {receiver : Receiver ρ}

/-- The account has been continued, the receiver has heard what was added and
nothing else, and what was added satisfies `P`. -/
def Grew (receiver : Receiver ρ) (P : List Event → Prop) (before after : Session σ ρ) : Prop :=
  ∃ events, after.account = before.account ++ events ∧
    after.receiver = receiver.hear events before.receiver ∧ P events

theorem Grew.refl {P : List Event → Prop} (h : P []) (session : Session σ ρ) :
    Grew receiver P session session :=
  ⟨[], (List.append_nil _).symm, rfl, h⟩

theorem Grew.trans {P Q R : List Event → Prop} {a b c : Session σ ρ} (hab : Grew receiver P a b)
    (hbc : Grew receiver Q b c) (h : ∀ first second, P first → Q second → R (first ++ second)) :
    Grew receiver R a c := by
  obtain ⟨first, hb, hheard, hfirst⟩ := hab
  obtain ⟨second, hc, hheard', hsecond⟩ := hbc
  refine ⟨first ++ second, ?_, ?_, h first second hfirst hsecond⟩
  · rw [hc, hb, List.append_assoc]
  · rw [hheard', hheard]
    exact List.foldl_append.symm

theorem Grew.mono {P Q : List Event → Prop} {a b : Session σ ρ} (h : Grew receiver P a b)
    (hPQ : ∀ events, P events → Q events) : Grew receiver Q a b := by
  obtain ⟨events, hb, hheard, hP⟩ := h
  exact ⟨events, hb, hheard, hPQ events hP⟩

/-- What a new session has come to is all in its account. -/
theorem Grew.of_start {state : σ} {wants : ρ} {P : List Event → Prop} {after : Session σ ρ}
    (h : (Session.start state wants).Grew receiver P after) :
    after.receiver = receiver.hear after.account wants ∧ P after.account := by
  obtain ⟨events, haccount, hheard, hP⟩ := h
  have hevents : after.account = events := haccount
  rw [hevents]
  exact ⟨hheard, hP⟩

end Session

/-- Nothing but questions. -/
def Checks (events : List Event) : Prop :=
  ∀ event ∈ events, event.IsCheck

theorem Checks.nil : Checks [] :=
  fun _ h => nomatch h

theorem Checks.append {first second : List Event} (hfirst : Checks first)
    (hsecond : Checks second) : Checks (first ++ second) :=
  fun event h => (List.mem_append.mp h).elim (hfirst event) (hsecond event)

/-- What takes no notice of questions finds nothing in them. -/
theorem Checks.filterMap_eq_nil {α : Type} {f : Event → Option α} {events : List Event}
    (h : Checks events)
    (hf : ∀ path revision outcome, f (.checked path revision outcome) = none) :
    events.filterMap f = [] := by
  rw [List.filterMap_eq_nil_iff]
  intro event hevent
  have hcheck := h event hevent
  cases event with
  | checked path revision outcome => exact hf path revision outcome
  | _ => exact hcheck.elim

open Access in
/-- An inquiry puts nothing but questions on record. -/
theorem Inquiry.run_grew {σ ρ : Type} (remote : Remote σ) (receiver : Receiver ρ)
    (channel : String) (inquiry : Inquiry) (session : Session σ ρ) :
    Ends (inquiry.run remote channel) session (fun _ => session.Grew receiver Checks)
      (fun _ => session.Grew receiver Checks) := by
  induction inquiry generalizing session with
  | verdict accepted => exact Session.Grew.refl .nil session
  | failure cause => exact Session.Grew.refl .nil session
  | note level text next ih =>
    rw [Inquiry.run, ends_bind, ends_note]
    exact ih _
  | check path revision next ih =>
    rw [Inquiry.run, ends_bind, Access.check, ends_attempt_call]
    have hasked : session.Grew receiver Checks
        (called (.checked path revision) (remote.check path revision session.remote) session) :=
      ⟨[_], rfl, rfl, fun event h => by rw [List.mem_singleton.mp h]; trivial⟩
    exact (ih _ _).mono (fun _ _ h => hasked.trans h fun _ _ => Checks.append)
      (fun _ _ h => hasked.trans h fun _ _ => Checks.append)

namespace Discovery
open Access

/-- What comes onto record when a candidate is put to the criterion: nothing when
there is none, and else the candidate and the questions about it. -/
def Inquired (probe : Probe) (events : List Event) : Prop :=
  events = [] ∨ ∃ checks, events = .judged probe :: checks ∧ Checks checks

/-- What takes no notice of questions finds at most the candidate. -/
theorem Inquired.filterMap_sublist {α : Type} {f : Event → Option α} {probe : Probe}
    {events : List Event} (h : Inquired probe events)
    (hf : ∀ path revision outcome, f (.checked path revision outcome) = none) :
    (events.filterMap f).Sublist ([Event.judged probe].filterMap f) := by
  rcases h with rfl | ⟨checks, rfl, hchecks⟩
  · exact List.nil_sublist _
  · rw [← List.singleton_append, List.filterMap_append, hchecks.filterMap_eq_nil hf,
      List.append_nil]

/-- An inquiry reports nothing. -/
theorem Inquired.heads {probe : Probe} {events : List Event} (h : Inquired probe events) :
    Event.heads events = [] :=
  List.eq_nil_of_sublist_nil (h.filterMap_sublist fun _ _ _ => rfl)

/-- What comes onto record about one offered child: it is put to the criterion, and
its head is reported unless it was turned down. -/
inductive Offering (quest : Quest) (pattern : Pattern) (names : List String) (child : Child) :
    List Event → Prop
  | intro {asked told : List Event} : Inquired (candidate quest names child) asked →
      told = [] ∨ told = [.reported (candidate quest names child).head] →
      Offering quest pattern names child (.offered pattern names child :: (asked ++ told))

/-- What may come onto record while steps are taken.  A step may leave no trace:
the receiver may have had enough. -/
inductive Course (quest : Quest) : List Step → List Event → Prop
  | done : Course quest [] []
  | skip {step : Step} {rest : List Step} {later : List Event} :
      Course quest rest later → Course quest (step :: rest) later
  | offer {pattern : Pattern} {names : List String} {child : Child} {rest : List Step}
      {events later : List Event} :
      Offering quest pattern names child events → Course quest rest later →
      Course quest (.offer pattern names child :: rest) (events ++ later)
  | enter {place : Place} {outcome : Except Failure Node} {rest : List Step}
      {inner later : List Event} :
      Course quest (steps quest place (childrenOf outcome.toOption)) inner →
      Course quest rest later →
      Course quest (.enter place :: rest)
        (.entered place :: .listed (Path.join (quest.base :: place.names)) place.revision outcome ::
          (inner ++ later))

namespace Course
variable {quest : Quest}

theorem nothing (steps : List Step) : Course quest steps [] := by
  induction steps with
  | nil => exact .done
  | cons step rest ih => exact .skip ih

theorem nil_inv {events : List Event} (h : Course quest [] events) : events = [] := by
  cases h
  rfl

/-- One step and then the others. -/
theorem cons {step : Step} {rest : List Step} {events later : List Event}
    (h : Course quest [step] events) (hrest : Course quest rest later) :
    Course quest (step :: rest) (events ++ later) := by
  cases h with
  | skip h =>
    rw [h.nil_inv]
    exact .skip hrest
  | offer hoffer h =>
    rw [h.nil_inv, List.append_nil]
    exact .offer hoffer hrest
  | enter hinner h =>
    rw [h.nil_inv, List.append_nil]
    exact .enter hinner hrest

end Course

variable {σ ρ : Type} {remote : Remote σ} {receiver : Receiver ρ} {quest : Quest}

theorem judge_grew (receiver : Receiver ρ) (probe : Probe) (session : Session σ ρ) :
    Ends (judge remote quest probe) session (fun _ => session.Grew receiver (Inquired probe))
      (fun _ => session.Grew receiver (Inquired probe)) := by
  cases hcriterion : quest.criterion with
  | none =>
    rw [ends_judge_none hcriterion]
    exact Session.Grew.refl (Or.inl rfl) session
  | some criterion =>
    rw [ends_judge_some hcriterion]
    have hjudged : session.Grew receiver (fun events => events = [.judged probe])
        (session.record (.judged probe)) := ⟨_, rfl, rfl, rfl⟩
    have hjoin : ∀ first second, first = [Event.judged probe] → Checks second →
        Inquired probe (first ++ second) := by
      intro first second hfirst hsecond
      rw [hfirst]
      exact Or.inr ⟨second, rfl, hsecond⟩
    exact (Inquiry.run_grew ..).mono (fun _ _ h => hjudged.trans h hjoin)
      (fun _ _ h => hjudged.trans h hjoin)

/-- An offer puts an offering on record, however it ends. -/
theorem offer_grew (pattern : Pattern) (names : List String) (child : Child)
    (session : Session σ ρ) :
    Ends (offer remote receiver quest pattern names child) session
      (fun _ => session.Grew receiver (Offering quest pattern names child))
      (fun _ => session.Grew receiver (Offering quest pattern names child)) := by
  rw [ends_offer]
  -- Once the criterion has been asked, only the report of the head may follow.
  have hoffering : ∀ told (after last : Session σ ρ),
      ((session.record (.offered pattern names child)).Grew receiver
        (Inquired (candidate quest names child)) after) →
      told = [] ∨ told = [.reported (candidate quest names child).head] →
      last.account = after.account ++ told →
      last.receiver = receiver.hear told after.receiver →
      session.Grew receiver (Offering quest pattern names child) last := by
    intro told after last hasked htold haccount hheard
    have hoffered : session.Grew receiver (fun events => events = [.offered pattern names child])
        (session.record (.offered pattern names child)) := ⟨_, rfl, rfl, rfl⟩
    refine (hoffered.trans (hasked.trans ⟨told, haccount, hheard, htold⟩
      (R := fun events => ∃ asked told, events = asked ++ told ∧
        Inquired (candidate quest names child) asked ∧
        (told = [] ∨ told = [.reported (candidate quest names child).head]))
      fun asked told h h' => ⟨asked, told, rfl, h, h'⟩) ?_)
    rintro first second hfirst ⟨asked, told, hsecond, hinquired, htold⟩
    rw [hfirst, hsecond]
    show Offering quest pattern names child (.offered pattern names child :: (asked ++ told))
    exact .intro hinquired htold
  refine (judge_grew receiver ..).mono ?_ ?_
  · intro accepted after hasked
    cases accepted with
    | true => exact hoffering _ after _ hasked (Or.inr rfl) rfl rfl
    | false => exact hoffering [] after _ hasked (Or.inl rfl) (List.append_nil _).symm rfl
  · intro failure after hasked
    exact hoffering [] after _ hasked (Or.inl rfl) (List.append_nil _).symm rfl

theorem offer_follows_course (pattern : Pattern) (names : List String) (child : Child)
    (session : Session σ ρ) :
    Ends (offer remote receiver quest pattern names child) session
      (fun _ => session.Grew receiver (Course quest [.offer pattern names child]))
      (fun _ => session.Grew receiver (Course quest [.offer pattern names child])) := by
  have hcourse : ∀ events, Offering quest pattern names child events →
      Course quest [.offer pattern names child] events := by
    intro events hevents
    have := Course.offer hevents .done
    rwa [List.append_nil] at this
  exact (offer_grew pattern names child session).mono (fun _ _ h => h.mono hcourse)
    (fun _ _ h => h.mono hcourse)

/-- Steps follow the course when each entry does. -/
theorem follow_follows_course {enter : Place → Access σ ρ Bool}
    (henter : ∀ place session, Ends (enter place) session
      (fun _ => session.Grew receiver (Course quest [.enter place]))
      (fun _ => session.Grew receiver (Course quest [.enter place])))
    (steps : List Step) (session : Session σ ρ) :
    Ends (follow remote receiver quest enter steps) session
      (fun _ => session.Grew receiver (Course quest steps))
      (fun _ => session.Grew receiver (Course quest steps)) := by
  induction steps generalizing session with
  | nil => exact ends_follow_nil.mpr (Session.Grew.refl .done session)
  | cons step rest ih =>
    have htake : Ends (take remote receiver quest enter step) session
        (fun _ => session.Grew receiver (Course quest [step]))
        (fun _ => session.Grew receiver (Course quest [step])) := by
      cases step with
      | offer pattern names child => exact offer_follows_course pattern names child session
      | enter place => exact henter place session
    -- When the receiver has had enough, the remaining steps leave no trace.
    have hlast : ∀ after, session.Grew receiver (Course quest [step]) after →
        session.Grew receiver (Course quest (step :: rest)) after := by
      intro after h
      refine h.mono fun events hevents => ?_
      have := hevents.cons (Course.nothing rest)
      rwa [List.append_nil] at this
    have hjoin : ∀ first second, Course quest [step] first → Course quest rest second →
        Course quest (step :: rest) (first ++ second) := fun _ _ => Course.cons
    rw [ends_follow_cons]
    refine htake.mono ?_ (fun _ after h => hlast after h)
    intro goOn after h
    cases goOn with
    | true =>
      exact (ih after).mono (fun _ _ h' => h.trans h' hjoin) (fun _ _ h' => h.trans h' hjoin)
    | false => exact hlast after h

/-- A listing is put on record, and the children it offers are those of the
recorded outcome. -/
theorem listing_grew (receiver : Receiver ρ) (place : Place) (session : Session σ ρ) :
    Ends (listing remote quest place) session
      (fun node after => ∃ outcome : Except Failure Node,
        childrenOf node = childrenOf outcome.toOption ∧
        session.Grew receiver (fun events => events = [.entered place,
          .listed (Path.join (quest.base :: place.names)) place.revision outcome]) after)
      (fun _ after => ∃ outcome : Except Failure Node,
        session.Grew receiver (fun events => events = [.entered place,
          .listed (Path.join (quest.base :: place.names)) place.revision outcome]) after) := by
  rw [ends_listing]
  have haccount : (entering remote quest place session).account = _ := account_entering
  cases hanswered : answered remote quest place session.remote with
  | ok node =>
    rw [hanswered] at haccount
    exact ⟨.ok node, rfl, _, haccount, rfl, rfl⟩
  | error failure =>
    rw [hanswered] at haccount
    dsimp only
    split
    · exact ⟨.error failure, rfl, _, haccount, rfl, rfl⟩
    · exact ⟨.error failure, _, haccount, rfl, rfl⟩

/-- An entry: the place, its listing, and the steps that the listing leads to. -/
theorem Course.single {place : Place} {outcome : Except Failure Node} {inner : List Event}
    (h : Course quest (steps quest place (childrenOf outcome.toOption)) inner) :
    Course quest [.enter place] ([.entered place,
      .listed (Path.join (quest.base :: place.names)) place.revision outcome] ++ inner) := by
  have := Course.enter h .done
  rwa [List.append_nil] at this

/-- An entry may stop after the listing. -/
theorem Course.bare {place : Place} {outcome : Except Failure Node} {events : List Event}
    (h : events = [.entered place,
      .listed (Path.join (quest.base :: place.names)) place.revision outcome]) :
    Course quest [.enter place] events := by
  have hlisting : Course quest (steps quest place (childrenOf outcome.toOption)) [] :=
    Course.nothing _
  have := Course.single hlisting
  rwa [List.append_nil, ← h] at this

theorem visit_follows_course (levels : Nat) (place : Place) (session : Session σ ρ) :
    Ends (visit remote receiver quest levels place) session
      (fun _ => session.Grew receiver (Course quest [.enter place]))
      (fun _ => session.Grew receiver (Course quest [.enter place])) := by
  induction levels generalizing place session with
  | zero =>
    rw [ends_visit_zero]
    split
    · exact (listing_grew receiver place session).mono
        (fun _ _ ⟨_, _, h⟩ => h.mono fun _ => Course.bare)
        (fun _ _ ⟨_, h⟩ => h.mono fun _ => Course.bare)
    · exact Session.Grew.refl (Course.nothing _) session
  | succ levels ih =>
    rw [ends_visit_succ]
    split
    · refine (listing_grew receiver place session).mono ?_
        (fun _ _ ⟨_, h⟩ => h.mono fun _ => Course.bare)
      intro node after ⟨outcome, hchildren, hlisted⟩
      have hjoin : ∀ first second, first = [.entered place,
          .listed (Path.join (quest.base :: place.names)) place.revision outcome] →
          Course quest (steps quest place (childrenOf node)) second →
          Course quest [.enter place] (first ++ second) := by
        intro first second hfirst hsecond
        rw [hfirst]
        exact Course.single (hchildren ▸ hsecond)
      exact (follow_follows_course ih (steps quest place (childrenOf node)) after).mono
        (fun _ _ h => hlisted.trans h hjoin) (fun _ _ h => hlisted.trans h hjoin)
    · exact Session.Grew.refl (Course.nothing _) session

/-- **Every search follows the course of its root**, however it ends. -/
theorem search_follows_course (remote : Remote σ) (receiver : Receiver ρ) (quest : Quest)
    (session : Session σ ρ) :
    session.Grew receiver (Course quest [.enter .root])
      ((search remote receiver quest).perform session).2 :=
  Ends.perform (ends_search.mpr (visit_follows_course _ .root session))

end Discovery
end HeadFinder
