import HeadFinder.Proofs.Discovery.Abort
import HeadFinder.Proofs.Project.Ends
import HeadFinder.Receiver

/-! # The sessions of a project

Whatever a project is asked to do, in whatever order and with whatever luck, each operation
opens at most one session and closes it as the last thing that it does (`Disciplined`).
Looking for heads fails with the failure that ended the session, as it is (`Blames`).  The
identity of the repository is asked for until it has been told once, and is known from then
on (`Identifies`).

`grew_connected` says what is on record of a session, for any action that is performed in
it; the operations differ only in what they do in between.
-/
namespace HeadFinder

deriving instance DecidableEq for Event

namespace Event

/-- Neither the opening of a session nor its end. -/
def InSession : Event → Prop
  | connected .. => False
  | disconnected => False
  | _ => True

/-- An event of a search. -/
def OfSearch : Event → Prop
  | connected .. => False
  | identified _ => False
  | located .. => False
  | disconnected => False
  | _ => True

/-- The failure that an event puts on record and that keeps a project from looking on for
heads. -/
def ending? : Event → Option Failure
  | connected _ (.error failure) => some failure
  | located _ (.error failure) => some failure
  | event => event.fatal?

theorem OfSearch.inSession {event : Event} (h : event.OfSearch) : event.InSession := by
  cases event with
  | connected | identified | located | disconnected => exact h.elim
  | _ => trivial

theorem OfSearch.ending?_eq {event : Event} (h : event.OfSearch) :
    event.ending? = event.fatal? := by
  cases event with
  | connected | located => exact h.elim
  | _ => rfl

end Event

/-! ## What a search puts on record -/

/-- What events say about the failure with which something ended, if with any: a failure that
they tell is that one, and if it was `strict`, they do tell it.  What a question tells counts
only then. -/
structure Blames (strict : Prop) (tells : Event → Option Failure) (ended : Option Failure)
    (events : List Event) : Prop where
  ends : ∀ event ∈ events, strict ∨ ¬ event.IsCheck →
    ∀ failure, tells event = some failure → ended = some failure
  told : strict → ∀ failure, ended = some failure → ∃ event ∈ events, tells event = some failure

namespace Blames
variable {strict : Prop} {tells tells' : Event → Option Failure} {ended : Option Failure}
  {first second events : List Event}

theorem quiet (h : ∀ event ∈ events, tells event = none) : Blames strict tells none events :=
  ⟨fun event hevent _ _ htells => (nomatch (h event hevent).symm.trans htells),
    fun _ _ hended => nomatch hended⟩

theorem last {event : Event} {failure : Failure} (h : tells event = some failure) :
    Blames strict tells (some failure) [event] := by
  refine ⟨fun other hother _ cause hcause => ?_, fun _ cause hcause => ?_⟩
  · rw [List.mem_singleton.mp hother] at hcause
    exact h.symm.trans hcause
  · exact ⟨event, List.mem_singleton_self _, h.trans hcause⟩

theorem append (hfirst : Blames strict tells none first)
    (hsecond : Blames strict tells ended second) : Blames strict tells ended (first ++ second) := by
  refine ⟨fun event hevent hplain failure htells => ?_, fun hstrict failure hended => ?_⟩
  · rcases List.mem_append.mp hevent with hevent | hevent
    · exact nomatch hfirst.ends event hevent hplain failure htells
    · exact hsecond.ends event hevent hplain failure htells
  · obtain ⟨event, hevent, htells⟩ := hsecond.told hstrict failure hended
    exact ⟨event, List.mem_append_right _ hevent, htells⟩

theorem append_quiet (hfirst : Blames strict tells ended first)
    (hsecond : ∀ event ∈ second, tells event = none) :
    Blames strict tells ended (first ++ second) := by
  refine ⟨fun event hevent hplain failure htells => ?_, fun hstrict failure hended => ?_⟩
  · rcases List.mem_append.mp hevent with hevent | hevent
    · exact hfirst.ends event hevent hplain failure htells
    · exact nomatch (hsecond event hevent).symm.trans htells
  · obtain ⟨event, hevent, htells⟩ := hfirst.told hstrict failure hended
    exact ⟨event, List.mem_append_left _ hevent, htells⟩

theorem congr (h : Blames strict tells ended events)
    (hsame : ∀ event ∈ events, tells' event = tells event) :
    Blames strict tells' ended events := by
  refine ⟨fun event hevent hplain failure htells => ?_, fun hstrict failure hended => ?_⟩
  · exact h.ends event hevent hplain failure ((hsame event hevent).symm.trans htells)
  · obtain ⟨event, hevent, htells⟩ := h.told hstrict failure hended
    exact ⟨event, hevent, (hsame event hevent).trans htells⟩

/-- What comes before the only fatal event tells nothing. -/
theorem of_aborted {failure : Failure} (h : Aborted failure events) :
    Blames strict Event.fatal? (some failure) events := by
  obtain ⟨before, event, rfl, hsound, hevent⟩ := h
  exact (quiet hsound).append (last hevent)

end Blames

/-- Two things that are known of what was added to an account. -/
theorem Session.Grew.and {σ ρ : Type} {session after : Session σ ρ} {receiver : Receiver ρ}
    {P Q : List Event → Prop} (hP : session.Grew receiver P after)
    (hQ : session.Grew receiver Q after) :
    session.Grew receiver (fun events => P events ∧ Q events) after := by
  obtain ⟨events, haccount, hheard, hevents⟩ := hP
  obtain ⟨events', haccount', -, hevents'⟩ := hQ
  have hsame : events' = events := List.append_cancel_left (haccount'.symm.trans haccount)
  exact ⟨events, haccount, hheard, hevents, hsame ▸ hevents'⟩

namespace Discovery
open Access
variable {σ ρ : Type} {remote : Remote σ} {receiver : Receiver ρ} {quest : Quest}

section Offering
variable {pattern : Pattern} {names : List String} {child : Child} {events : List Event}

theorem Offering.ofSearch (h : Offering quest pattern names child events) :
    ∀ event ∈ events, event.OfSearch ∧ (event.IsCheck ∨ event.fatal? = none) := by
  have hchecks : ∀ {checks : List Event}, Checks checks →
      ∀ event ∈ checks, event.OfSearch ∧ (event.IsCheck ∨ event.fatal? = none) := by
    intro checks hchecks event hevent
    have hcheck := hchecks event hevent
    refine ⟨?_, Or.inl hcheck⟩
    cases event with
    | checked path revision outcome => trivial
    | _ => exact hcheck.elim
  cases h with
  | intro hasked htold =>
    refine List.forall_mem_cons.mpr ⟨⟨trivial, Or.inr rfl⟩, List.forall_mem_append.mpr ⟨?_, ?_⟩⟩
    · rcases hasked with rfl | ⟨checks, rfl, hinquired⟩
      · exact fun _ h => nomatch h
      · exact List.forall_mem_cons.mpr ⟨⟨trivial, Or.inr rfl⟩, hchecks hinquired⟩
    · rcases htold with rfl | rfl
      · exact fun _ h => nomatch h
      · exact List.forall_mem_singleton.mpr ⟨trivial, Or.inr rfl⟩

/-- Where the criterion may pass over failures, an offer tells nothing. -/
theorem Offering.blames (h : Offering quest pattern names child events) (hstrict : ¬ quest.Strict)
    (ended : Option Failure) : Blames quest.Strict Event.fatal? ended events := by
  refine ⟨fun event hevent hplain failure hfatal => ?_, fun h => absurd h hstrict⟩
  have hquiet := (h.ofSearch event hevent).2.resolve_left (hplain.resolve_left hstrict)
  cases hquiet.symm.trans hfatal

end Offering

/-- **A search neither opens a session nor ends one**, nor asks for an identity or a path. -/
theorem Course.ofSearch {steps : List Step} {events : List Event} (h : Course quest steps events) :
    ∀ event ∈ events, event.OfSearch := by
  induction h with
  | done => exact fun _ h => nomatch h
  | skip _ ih => exact ih
  | offer hoffer _ ih =>
    exact List.forall_mem_append.mpr ⟨fun event hevent => (hoffer.ofSearch event hevent).1, ih⟩
  | enter _ _ ihInner ihLater =>
    exact List.forall_mem_cons.mpr ⟨trivial, List.forall_mem_cons.mpr ⟨trivial,
      List.forall_mem_append.mpr ⟨ihInner, ihLater⟩⟩⟩

/-- **A search puts events of its own on record, and ends with the failure that they tell.** -/
theorem search_blames (remote : Remote σ) (receiver : Receiver ρ) (quest : Quest)
    (session : Session σ ρ) :
    Ends (search remote receiver quest) session
      (fun _ => session.Grew receiver fun events => (∀ event ∈ events, event.OfSearch) ∧
        Blames quest.Strict Event.fatal? none events)
      (fun failure => session.Grew receiver fun events => (∀ event ∈ events, event.OfSearch) ∧
        Blames quest.Strict Event.fatal? (some failure) events) := by
  have hconduct : Conduct remote receiver quest
      (fun before after => before.Grew receiver (Blames quest.Strict Event.fatal? none) after)
      (fun failure before after => before.Grew receiver
        (Blames quest.Strict Event.fatal? (some failure)) after) := by
    refine ⟨fun session => Session.Grew.refl (Blames.quiet Sound.nil) session,
      fun h h' => h.trans h' fun _ _ => Blames.append,
      fun h h' => h.trans h' fun _ _ => Blames.append, ?_, ?_⟩
    · intro pattern names child session _
      by_cases hstrict : quest.Strict
      · exact (offer_aborts hstrict pattern names child session).mono
          (fun _ _ h => h.mono fun _ => Blames.quiet)
          (fun _ _ h => h.mono fun _ => Blames.of_aborted)
      · exact (offer_grew pattern names child session).mono
          (fun _ _ h => h.mono fun _ hevents => hevents.blames hstrict _)
          (fun _ _ h => h.mono fun _ hevents => hevents.blames hstrict _)
    · intro place session _
      exact (listing_aborts receiver place session).mono
        (fun _ _ h => h.mono fun _ => Blames.quiet)
        (fun _ _ h => h.mono fun _ => Blames.of_aborted)
  have hblames := hconduct.visit (levelsBelow quest.includes .root) .root session
  have hcourse : Ends (visit remote receiver quest (levelsBelow quest.includes .root) .root)
      session _ _ := visit_follows_course _ .root session
  rw [ends_search]
  -- How the visit goes is known by now; its own steps do not matter.
  generalize visit remote receiver quest (levelsBelow quest.includes .root) .root = visiting
    at hblames hcourse ⊢
  exact (hcourse.and hblames).mono
    (fun _ _ h => (h.1.mono fun _ => Course.ofSearch).and h.2.2)
    (fun _ _ h => (h.1.mono fun _ => Course.ofSearch).and h.2.2)

end Discovery

/-! ## What a session puts on record -/

namespace Access
variable {σ ρ α : Type} {remote : Remote σ} {session : Session σ ρ} {receiver : Receiver ρ}

/-- What is known of either end of an action is known of its outcome. -/
theorem Ends.of_outcome {action : Access σ ρ α} {R : Except Failure α → Session σ ρ → Prop}
    (h : Ends action session (fun value => R (.ok value)) (fun failure => R (.error failure))) :
    R (action.perform session).1 (action.perform session).2 := by
  rcases h.performed with ⟨value, hvalue, hR⟩ | ⟨failure, hfailure, hR⟩
  · rw [hvalue]
    exact hR
  · rw [hfailure]
    exact hR

/-- An action ends with its outcome. -/
theorem ends_outcome (action : Access σ ρ α) (session : Session σ ρ) :
    Ends action session (fun value _ => (action.perform session).1 = .ok value)
      (fun failure _ => (action.perform session).1 = .error failure) := by
  unfold Ends perform
  cases action session with
  | ok value after => rfl
  | error failure after => rfl

/-- A call puts itself on record. -/
theorem grew_call {event : Except Failure α → Event} {query : σ → Reply σ α}
    (hsilent : ∀ outcome, (event outcome).head? = none) (receiver : Receiver ρ)
    (session : Session σ ρ) :
    Ends (call event query) session
      (fun value => session.Grew receiver fun events => events = [event (.ok value)])
      (fun failure => session.Grew receiver fun events => events = [event (.error failure)]) := by
  have hcalled : session.Grew receiver
      (fun events => events = [event (query session.remote).outcome])
      (called event (query session.remote) session) := by
    refine ⟨_, rfl, ?_, rfl⟩
    refine (Receiver.hear_of_silent ?_ _).symm
    rw [Event.heads, List.filterMap_cons, hsilent]
    rfl
  rw [ends_call]
  cases houtcome : (query session.remote).outcome with
  | ok answer => rwa [houtcome] at hcalled
  | error failure => rwa [houtcome] at hcalled

/-- What comes onto record of a session: its opening, what is done in it and its end. -/
def enclosed (url : String) (calls : List Event) : List Event :=
  .connected url (.ok ()) :: (calls ++ [.disconnected])

/-- **What is on record of an action in a session of its own**: the refusal to open one, or
what the action puts on record between the opening of the session and its end. -/
theorem grew_connected {url : String} {action : Access σ ρ α} {P : α → List Event → Prop}
    {Q : Failure → List Event → Prop}
    (h : ∀ opened, Ends action opened (fun value => opened.Grew receiver (P value))
      (fun failure => opened.Grew receiver (Q failure))) (session : Session σ ρ) :
    Ends (connected remote url action) session
      (fun value => session.Grew receiver fun events =>
        ∃ calls, events = enclosed url calls ∧ P value calls)
      (fun failure => session.Grew receiver fun events =>
        events = [.connected url (.error failure)] ∨
          ∃ calls, events = enclosed url calls ∧ Q failure calls) := by
  rw [ends_connected]
  refine (grew_call (fun _ => rfl) receiver session).mono ?_ (fun _ _ h => h.mono fun _ => Or.inl)
  intro _ opened hopened
  have hclosed : ∀ {R : List Event → Prop} {after : Session σ ρ}, opened.Grew receiver R after →
      session.Grew receiver (fun events => ∃ calls, events = enclosed url calls ∧ R calls)
        (left remote after) := by
    intro R after hafter
    have hleft : after.Grew receiver (fun events => events = [.disconnected])
        (left remote after) := ⟨_, rfl, rfl, rfl⟩
    refine hopened.trans (hafter.trans hleft
      (R := fun events => ∃ calls, events = calls ++ [.disconnected] ∧ R calls) ?_) ?_
    · rintro calls last hcalls rfl
      exact ⟨calls, rfl, hcalls⟩
    · rintro first last rfl ⟨calls, rfl, hcalls⟩
      exact ⟨calls, rfl, hcalls⟩
  exact (h opened).mono (fun _ _ h => hclosed h) (fun _ _ h => (hclosed h).mono fun _ => Or.inr)

end Access

namespace Project
open Access
variable {σ ρ : Type} {remote : Remote σ} {receiver : Receiver ρ} {project : Project}

/-- What an operation may put on record: nothing, the refusal to open a session, or a session
that is opened once, is ended once, and is ended last. -/
inductive Disciplined (url : String) : List Event → Prop
  | idle : Disciplined url []
  | refused (failure : Failure) : Disciplined url [.connected url (.error failure)]
  | session {calls : List Event} (h : ∀ event ∈ calls, event.InSession) :
      Disciplined url (enclosed url calls)

/-- The criterion passes over no failure. -/
def Strict (project : Project) : Prop :=
  ∀ criterion account probe, project.criterion = some criterion →
    (criterion account probe).Strict

theorem blames_enclosed {strict : Prop} {ended : Option Failure} {url : String}
    {calls : List Event} (h : Blames strict Event.ending? ended calls) :
    Blames strict Event.ending? ended (enclosed url calls) := by
  have hclosed : Blames strict Event.ending? ended (calls ++ [.disconnected]) :=
    h.append_quiet (List.forall_mem_singleton.mpr rfl)
  exact (Blames.quiet (List.forall_mem_singleton.mpr rfl)).append hclosed

/-- What is done in the session in which a project looks for its heads: its path is found,
and then they are searched for. -/
def looking (remote : Remote σ) (receiver : Receiver ρ) (project : Project) : Access σ ρ Unit := do
  let base ← locate remote project.base
  discard <| Discovery.search remote receiver (project.quest base)

theorem grew_looking (receiver : Receiver ρ) (opened : Session σ ρ) :
    Ends (project.looking remote receiver) opened
      (fun _ => opened.Grew receiver fun events => (∀ event ∈ events, event.InSession) ∧
        Blames project.Strict Event.ending? none events)
      (fun failure => opened.Grew receiver fun events => (∀ event ∈ events, event.InSession) ∧
        Blames project.Strict Event.ending? (some failure) events) := by
  unfold looking
  rw [ends_bind]
  refine (grew_call (fun _ => rfl) receiver opened).mono ?_ ?_
  · intro base located hlocated
    rw [ends_discard]
    have hsearched : ∀ {ended : Option Failure} {after : Session σ ρ},
        located.Grew receiver (fun events => (∀ event ∈ events, event.OfSearch) ∧
          Blames project.Strict Event.fatal? ended events) after →
        opened.Grew receiver (fun events => (∀ event ∈ events, event.InSession) ∧
          Blames project.Strict Event.ending? ended events) after := by
      intro ended after hafter
      refine hlocated.trans hafter ?_
      rintro first second rfl ⟨hsearch, hblames⟩
      refine ⟨List.forall_mem_append.mpr ⟨List.forall_mem_singleton.mpr trivial,
        fun event hevent => (hsearch event hevent).inSession⟩, ?_⟩
      exact (Blames.quiet (List.forall_mem_singleton.mpr rfl)).append
        (hblames.congr fun event hevent => (hsearch event hevent).ending?_eq)
    have hblames := Discovery.search_blames remote receiver (project.quest base) located
    generalize Discovery.search remote receiver (project.quest base) = searching
      at hblames ⊢
    exact hblames.mono (fun _ _ => hsearched) (fun _ _ => hsearched)
  · intro failure after hafter
    refine hafter.mono ?_
    rintro events rfl
    exact ⟨List.forall_mem_singleton.mpr trivial, Blames.last rfl⟩

/-- **Looking for heads takes one session, and fails as that session does.** -/
theorem grew_fetch (receiver : Receiver ρ) (session : Session σ ρ) :
    Ends (project.fetch remote receiver) session
      (fun _ => session.Grew receiver fun events => Disciplined project.base events ∧
        Blames project.Strict Event.ending? none events)
      (fun failure => session.Grew receiver fun events => Disciplined project.base events ∧
        Blames project.Strict Event.ending? (some failure) events) := by
  rw [ends_fetch]
  refine (grew_connected (grew_looking receiver) (session.note project.opening)).mono ?_ ?_
  · intro _ after hafter
    refine Session.Grew.mono hafter ?_
    rintro events ⟨calls, rfl, hcalls, hblames⟩
    exact ⟨.session hcalls, blames_enclosed hblames⟩
  · intro failure after hafter
    have hgrown : session.Grew receiver (fun events => Disciplined project.base events ∧
        Blames project.Strict Event.ending? (some failure) events) after := by
      refine Session.Grew.mono hafter ?_
      rintro events (rfl | ⟨calls, rfl, hcalls, hblames⟩)
      · exact ⟨.refused failure, Blames.last rfl⟩
      · exact ⟨.session hcalls, blames_enclosed hblames⟩
    cases failure.isRemote with
    | true => exact hgrown
    | false => exact hgrown

/-- What is done in the session in which a head is looked up: two calls at most. -/
theorem grew_lookup (receiver : Receiver ρ) (name : String) (opened : Session σ ρ) :
    Ends (do
        let base ← locate remote project.base
        match ← attempt (list remote (Path.join [base, name]) Revision.latest) with
        | .ok node => pure node
        | .error failure => throw (if failure.isMissing then .headMissing name else failure)) opened
      (fun _ => opened.Grew receiver fun events => ∀ event ∈ events, event.InSession)
      (fun _ => opened.Grew receiver fun events => ∀ event ∈ events, event.InSession) := by
  have hcall : ∀ {event : Event} {before after : Session σ ρ},
      before.Grew receiver (fun events => events = [event]) after → event.InSession →
      before.Grew receiver (fun events => ∀ event ∈ events, event.InSession) after := by
    intro event before after hafter hevent
    refine hafter.mono ?_
    rintro events rfl
    exact List.forall_mem_singleton.mpr hevent
  rw [ends_bind]
  refine (grew_call (fun _ => rfl) receiver opened).mono ?_ (fun _ _ hafter => hcall hafter trivial)
  intro base located hlocated
  have hjoin : ∀ {after : Session σ ρ},
      located.Grew receiver (fun events => ∀ event ∈ events, event.InSession) after →
      opened.Grew receiver (fun events => ∀ event ∈ events, event.InSession) after := fun hafter =>
    (hcall hlocated trivial).trans hafter fun _ _ hfirst hsecond =>
      List.forall_mem_append.mpr ⟨hfirst, hsecond⟩
  rw [ends_bind, ends_attempt]
  refine (grew_call (fun _ => rfl) receiver located).mono ?_ ?_
  · intro node listed hlisted
    exact hjoin (hcall hlisted trivial)
  · intro failure listed hlisted
    exact hjoin (hcall hlisted trivial)

/-- **What comes out of the session comes out of the operation**, be it a failure or not. -/
theorem outcome_fetch (remote : Remote σ) (receiver : Receiver ρ) (project : Project)
    (session : Session σ ρ) :
    ((project.fetch remote receiver).perform session).1 =
      ((connected remote project.base (project.looking remote receiver)).perform
        (session.note project.opening)).1 := by
  have hfetch : Ends (project.fetch remote receiver) session
      (fun value _ => ((connected remote project.base (project.looking remote receiver)).perform
        (session.note project.opening)).1 = .ok value)
      (fun failure _ => ((connected remote project.base (project.looking remote receiver)).perform
        (session.note project.opening)).1 = .error failure) :=
    ends_fetch.mpr (ends_outcome _ _)
  rcases hfetch.performed with ⟨value, hvalue, hsame⟩ | ⟨failure, hfailure, hsame⟩
  · rw [hvalue, hsame]
  · rw [hfailure, hsame]

/-- Looking up a head takes one session. -/
theorem grew_fetchHead (receiver : Receiver ρ) (name : String) (session : Session σ ρ) :
    Ends (project.fetchHead remote name) session
      (fun _ => session.Grew receiver (Disciplined project.base))
      (fun _ => session.Grew receiver (Disciplined project.base)) := by
  have henclosed : ∀ {after : Session σ ρ}, session.Grew receiver (fun events =>
      ∃ calls, events = enclosed project.base calls ∧ ∀ event ∈ calls, event.InSession) after →
      session.Grew receiver (Disciplined project.base) after := by
    intro after hafter
    refine hafter.mono ?_
    rintro events ⟨calls, rfl, hcalls⟩
    exact .session hcalls
  rw [ends_fetchHead]
  refine (grew_connected (grew_lookup receiver name) (session.note project.opening)).mono ?_ ?_
  · intro node after hafter
    split
    · exact henclosed hafter
    · exact henclosed hafter
  · intro failure after hafter
    refine Session.Grew.mono hafter ?_
    rintro events (rfl | ⟨calls, rfl, hcalls⟩)
    · exact .refused failure
    · exact .session hcalls

/-- What comes of asking for the identity of the repository.  Once it is known, nothing
happens.  Until then it is asked for in a session, and a remote failure leaves it unknown. -/
def Identifies (url : String) : Option String → Except Failure (Option String) → List Event → Prop
  | some identity, outcome, events => outcome = .ok (some identity) ∧ events = []
  | none, outcome, events =>
    (∃ identity, outcome = .ok (some identity) ∧
      events = enclosed url [.identified (.ok identity)]) ∨
    ∃ failure, outcome = (if failure.isRemote then .ok none else .error failure) ∧
      (events = [.connected url (.error failure)] ∨
        events = enclosed url [.identified (.error failure)])

theorem Identifies.disciplined {url : String} {known : Option String}
    {outcome : Except Failure (Option String)} {events : List Event}
    (h : Identifies url known outcome events) : Disciplined url events := by
  cases known with
  | some identity =>
    rw [h.2]
    exact .idle
  | none =>
    have hasked : ∀ outcome, ∀ event ∈ [Event.identified outcome], event.InSession := fun _ =>
      List.forall_mem_singleton.mpr trivial
    rcases h with ⟨identity, -, rfl⟩ | ⟨failure, -, rfl | rfl⟩
    · exact .session (hasked _)
    · exact .refused failure
    · exact .session (hasked _)

/-- What was known is told. -/
theorem Identifies.or_eq {url : String} {known told : Option String} {events : List Event}
    (h : Identifies url known (.ok told) events) : known.or told = told := by
  cases known with
  | some identity => exact (Except.ok.inj h.1).symm
  | none => rfl

/-- **The identity of the repository is asked for until it is known**, and a project only
changes by getting to know it. -/
theorem grew_identified (receiver : Receiver ρ) (session : Session σ ρ) :
    Ends (project.identified remote) session
      (fun asked => session.Grew receiver fun events =>
        asked = { project with identity := asked.identity } ∧
        Identifies project.base project.identity (.ok asked.identity) events)
      (fun failure => session.Grew receiver
        (Identifies project.base project.identity (.error failure))) := by
  obtain ⟨base, includes, excludes, criterion, identity⟩ := project
  rw [ends_identified]
  cases identity with
  | some identity => exact Session.Grew.refl ⟨rfl, rfl, rfl⟩ session
  | none =>
    have hasking : Ends (connected remote base (identify remote)) session
        (fun identity => session.Grew receiver fun events =>
          ∃ calls, events = enclosed base calls ∧ calls = [.identified (.ok identity)])
        (fun failure => session.Grew receiver fun events =>
          events = [.connected base (.error failure)] ∨
            ∃ calls, events = enclosed base calls ∧ calls = [.identified (.error failure)]) :=
      grew_connected (fun opened => grew_call (fun _ => rfl) receiver opened) session
    refine Eq.mpr (if_neg Bool.false_ne_true) (hasking.mono ?_ ?_)
    · intro identity after hafter
      refine hafter.mono ?_
      rintro events ⟨calls, rfl, rfl⟩
      exact ⟨rfl, Or.inl ⟨identity, rfl, rfl⟩⟩
    · intro failure after hafter
      have hfailed : session.Grew receiver (fun events =>
          events = [.connected base (.error failure)] ∨
            events = enclosed base [.identified (.error failure)]) after := by
        refine hafter.mono ?_
        rintro events (hrefused | ⟨calls, rfl, rfl⟩)
        · exact Or.inl hrefused
        · exact Or.inr rfl
      cases hremote : failure.isRemote with
      | true =>
        refine Session.Grew.mono hfailed fun events hevents =>
          ⟨rfl, Or.inr ⟨failure, ?_, hevents⟩⟩
        rw [if_pos hremote]
      | false =>
        refine Session.Grew.mono hfailed fun events hevents => Or.inr ⟨failure, ?_, hevents⟩
        rw [if_neg (by rw [hremote]; decide)]

/-! ## One operation after the other -/

/-- What a project can be asked for: its heads, one head, or the identity of its
repository. -/
inductive Operation where
  | fetch {ρ : Type} (receiver : Receiver ρ) (wants : ρ)
  | fetchHead (name : String)
  | identify

/-- What comes of an operation. -/
inductive Answer where
  | fetched (outcome : Except Failure Unit)
  | found (outcome : Except Failure Head)
  | identity (outcome : Except Failure (Option String))
deriving DecidableEq

/-- An operation that has been carried out: its answer, and what it put on record. -/
structure Turn where
  answer : Answer
  account : List Event
deriving DecidableEq

/-- The identity that a turn has told, if it was asked for. -/
def Turn.identity? : Turn → Option String
  | ⟨.identity (.ok told), _⟩ => told
  | _ => none

/-- Carries out an operation, with a session of its own to keep an account of it.  It leaves
the project, which may have got to know its identity, and the remote. -/
def Operation.carryOut (remote : Remote σ) (project : Project) (state : σ) :
    Operation → Turn × Project × σ
  | fetch receiver wants =>
    let run := (project.fetch remote receiver).perform (Session.start state wants)
    (⟨.fetched run.1, run.2.account⟩, project, run.2.remote)
  | fetchHead name =>
    let run := (project.fetchHead remote name).perform (Session.start state ())
    (⟨.found run.1, run.2.account⟩, project, run.2.remote)
  | identify =>
    let run := (project.identified remote).perform (Session.start state ())
    (⟨.identity (run.1.map Project.identity), run.2.account⟩, run.1.toOption.getD project,
      run.2.remote)

/-- Carries out operations one after the other. -/
def turns (remote : Remote σ) : Project → σ → List Operation → List Turn
  | _, _, [] => []
  | project, state, operation :: rest =>
    let done := operation.carryOut remote project state
    done.1 :: turns remote done.2.1 done.2.2 rest

/-- The failure of an outcome. -/
def failureOf {α : Type} : Except Failure α → Option Failure
  | .ok _ => none
  | .error failure => some failure

/-- What holds of each turn, given the identity that was known before. -/
structure Turn.Orderly (project : Project) (known : Option String) (turn : Turn) : Prop where
  disciplined : Disciplined project.base turn.account
  fetched : ∀ outcome, turn.answer = .fetched outcome →
    Blames project.Strict Event.ending? (failureOf outcome) turn.account
  identity : ∀ outcome, turn.answer = .identity outcome →
    Identifies project.base known outcome turn.account

/-- A receiver that does not take notice of anything. -/
def deaf : Receiver Unit :=
  ⟨fun _ wants => wants, fun _ => true⟩

/-- **Each operation is orderly**, and changes nothing about the project but that it may
get to know the identity of the repository. -/
theorem carryOut_orderly (remote : Remote σ) (project : Project) (state : σ)
    (operation : Operation) :
    let done := operation.carryOut remote project state
    done.1.Orderly project project.identity ∧
      done.2.1 = { project with identity := project.identity.or done.1.identity? } := by
  cases operation with
  | fetch receiver wants =>
    have hfetch : Ends (project.fetch remote receiver) (Session.start state wants) _ _ :=
      grew_fetch receiver _
    have hgrown := Ends.of_outcome
      (R := fun outcome => (Session.start state wants).Grew receiver fun events =>
        Disciplined project.base events ∧
          Blames project.Strict Event.ending? (failureOf outcome) events) hfetch
    obtain ⟨hdisciplined, hblames⟩ := hgrown.of_start.2
    refine ⟨⟨hdisciplined, fun outcome houtcome => ?_, (fun _ houtcome => nomatch houtcome)⟩,
      by simp [Operation.carryOut, Turn.identity?]⟩
    cases houtcome
    exact hblames
  | fetchHead name =>
    have hfound : Ends (project.fetchHead remote name) (Session.start state ()) _ _ :=
      grew_fetchHead deaf name _
    refine ⟨⟨hfound.perform.of_start.2, (fun _ houtcome => nomatch houtcome),
      (fun _ houtcome => nomatch houtcome)⟩, by simp [Operation.carryOut, Turn.identity?]⟩
  | identify =>
    have hasked : Ends (project.identified remote) (Session.start state ()) _ _ :=
      grew_identified deaf _
    rcases hasked.performed with ⟨asked, hasked, hgrown⟩ | ⟨failure, hfailure, hgrown⟩
    · obtain ⟨hsame, hidentifies⟩ := hgrown.of_start.2
      refine ⟨⟨hidentifies.disciplined, (fun _ houtcome => nomatch houtcome),
        fun outcome houtcome => ?_⟩, ?_⟩
      · cases houtcome
        rw [hasked]
        exact hidentifies
      · simp only [Operation.carryOut, hasked, Except.map, Except.toOption, Option.getD_some,
          Turn.identity?, hidentifies.or_eq]
        exact hsame
    · have hidentifies := hgrown.of_start.2
      refine ⟨⟨hidentifies.disciplined, (fun _ houtcome => nomatch houtcome),
        fun outcome houtcome => ?_⟩, ?_⟩
      · cases houtcome
        rw [hfailure]
        exact hidentifies
      · simp [Operation.carryOut, hfailure, Except.map, Except.toOption, Turn.identity?]

/-- Every turn of a project is orderly, given what it knew at first and was told since. -/
theorem turns_orderly (remote : Remote σ) (operations : List Operation) (project : Project)
    (state : σ) (before : List Turn) (turn : Turn) (after : List Turn)
    (h : turns remote project state operations = before ++ turn :: after) :
    turn.Orderly project (project.identity.or (before.findSome? Turn.identity?)) := by
  induction operations generalizing project state before with
  | nil => cases before <;> cases h
  | cons operation rest ih =>
    obtain ⟨horderly, hproject⟩ := carryOut_orderly remote project state operation
    cases before with
    | nil =>
      obtain ⟨rfl, -⟩ := List.cons.inj h
      rw [List.findSome?_nil, Option.or_none]
      exact horderly
    | cons first before =>
      obtain ⟨rfl, hrest⟩ := List.cons.inj h
      have hturn := ih _ _ before hrest
      rw [hproject] at hturn
      generalize operation.carryOut remote project state = done at hturn
      have hknown : (project.identity.or done.1.identity?).or (before.findSome? Turn.identity?) =
          project.identity.or ((done.1 :: before).findSome? Turn.identity?) := by
        rw [Option.or_assoc, List.findSome?_cons]
        cases done.1.identity? <;> rfl
      exact hknown ▸ ⟨hturn.disciplined, hturn.fetched, hturn.identity⟩

/-- **A project keeps its sessions in order.**  Whatever it is asked to do, one operation
after the other, and whatever the remote answers and the receivers want, each operation opens
at most one session, ends it once, and does nothing in it after that.  What comes out of the
session in which heads are looked for comes out of the operation; so the failure of a call
does that is not due to a missing directory, and that the criterion does not pass over.  The
identity of the repository is asked for, in a session, until it has been told, and is told
without a session from then on; while the remote fails, none is told. -/
theorem sessions_orderly (remote : Remote σ) (address : String)
    (includes excludes : Option String) (criterion : Option Criterion) (state : σ)
    (operations : List Operation) :
    let project := ofAddress address includes excludes criterion
    (∀ before turn after, turns remote project state operations = before ++ turn :: after →
      turn.Orderly project (before.findSome? Turn.identity?)) ∧
    ∀ (ρ : Type) (receiver : Receiver ρ) (session : Session σ ρ),
      ((project.fetch remote receiver).perform session).1 =
        ((connected remote project.base (project.looking remote receiver)).perform
          (session.note project.opening)).1 := by
  intro project
  exact ⟨turns_orderly remote operations project state,
    fun ρ receiver session => outcome_fetch remote receiver project session⟩

/-- A remote that refuses the first session and all listings. -/
def fickle : Remote Nat where
  connect url count :=
    ⟨if count = 0 then .error (.noRepository url) else .ok (), count + 1, []⟩
  list _ _ count := ⟨.error (.refused "busy"), count + 1, []⟩
  check _ _ count := ⟨.ok .absent, count + 1, []⟩
  identify count := ⟨.ok "a5c2", count + 1, []⟩
  locate _ count := ⟨.ok "", count + 1, []⟩
  disconnect count := count + 1

/-- Operations for it, with the identity asked for in between. -/
def requests : List Operation :=
  [.identify, .fetch .collecting .empty, .identify, .fetchHead "trunk", .identify]

theorem sessions_orderly_fickle :
    let project := ofAddress "http://h/r" none none none
    let refused : Turn :=
      ⟨.identity (.ok none), [.connected project.base (.error (.noRepository project.base))]⟩
    let failed : Turn := ⟨.fetched (.error (.refused "busy")), enclosed project.base
      [.located project.base (.ok ""), .entered .root,
        .listed "" Revision.latest (.error (.refused "busy"))]⟩
    let told : Turn :=
      ⟨.identity (.ok (some "a5c2")), enclosed project.base [.identified (.ok "a5c2")]⟩
    let found : Turn := ⟨.found (.error (.refused "busy")), enclosed project.base
      [.located project.base (.ok ""),
        .listed "trunk" Revision.latest (.error (.refused "busy"))]⟩
    let known : Turn := ⟨.identity (.ok (some "a5c2")), []⟩
    turns fickle project 0 requests = [refused, failed, told, found, known] ∧
      failed.Orderly project none ∧ known.Orderly project (some "a5c2") := by
  intro project refused failed told found known
  have hturns : turns fickle project 0 requests = [refused, failed, told, found, known] := by
    decide +kernel
  have horderly := (sessions_orderly fickle "http://h/r" none none none 0 requests).1
  exact ⟨hturns, horderly [refused] failed [told, found, known] hturns,
    horderly [refused, failed, told, found] known [] hturns⟩

end Project
end HeadFinder
