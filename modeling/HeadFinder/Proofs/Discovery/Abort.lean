import HeadFinder.Proofs.Acceptance
import HeadFinder.Proofs.Discovery.Conduct

/-! # How a search fails

A failure of the remote is fatal to a search, but for a directory that is gone.  If the
criterion passes over no failure, a search that succeeds has no fatal event on record,
and a search that fails has exactly one, at the end of its account and with the failure it
ends with (`search_aborts`).
-/
namespace HeadFinder

/-- The failure that an event puts on record and that ends a search. -/
def Event.fatal? : Event → Option Failure
  | listed _ _ (.error failure) => if failure.isMissing then none else some failure
  | checked _ _ (.error failure) => some failure
  | _ => none

/-- None of the events is fatal. -/
def Sound (events : List Event) : Prop :=
  ∀ event ∈ events, event.fatal? = none

/-- The last of the events is the only fatal one. -/
def Aborted (failure : Failure) (events : List Event) : Prop :=
  ∃ before event, events = before ++ [event] ∧ Sound before ∧ event.fatal? = some failure

theorem Sound.nil : Sound [] :=
  fun _ h => nomatch h

theorem Sound.singleton {event : Event} (h : event.fatal? = none) : Sound [event] := by
  intro other hother
  rw [List.mem_singleton.mp hother]
  exact h

theorem Sound.append {first second : List Event} (hfirst : Sound first) (hsecond : Sound second) :
    Sound (first ++ second) :=
  fun event h => (List.mem_append.mp h).elim (hfirst event) (hsecond event)

theorem Sound.append_aborted {failure : Failure} {first second : List Event}
    (hfirst : Sound first) (hsecond : Aborted failure second) :
    Aborted failure (first ++ second) := by
  obtain ⟨before, event, rfl, hbefore, hevent⟩ := hsecond
  exact ⟨first ++ before, event, (List.append_assoc ..).symm, hfirst.append hbefore, hevent⟩

theorem aborted_singleton {failure : Failure} {event : Event} (h : event.fatal? = some failure) :
    Aborted failure [event] :=
  ⟨[], event, rfl, Sound.nil, h⟩

/-- A fatal event of aborted ones is the last, and tells the failure. -/
theorem Aborted.eq_last {failure cause : Failure} {before after : List Event} {event : Event}
    (h : Aborted failure (before ++ event :: after)) (hevent : event.fatal? = some cause) :
    after = [] ∧ failure = cause := by
  obtain ⟨sound, last, heq, hsound, hlast⟩ := h
  rcases append_cons_of_concat heq.symm with ⟨-, rfl, hafter⟩ | ⟨more, rfl⟩
  · exact ⟨hafter, Option.some.inj (hlast.symm.trans hevent)⟩
  · cases (hsound event (by simp)).symm.trans hevent

section Inquiry
open Access
variable {σ ρ : Type} {remote : Remote σ} {receiver : Receiver ρ}

/-- A strict inquiry fails at the first question that does. -/
theorem Inquiry.run_aborts (receiver : Receiver ρ) (channel : String) {inquiry : Inquiry}
    (h : inquiry.Strict) (session : Session σ ρ) :
    Ends (inquiry.run remote channel) session (fun _ => session.Grew receiver Sound)
      (fun failure => session.Grew receiver (Aborted failure)) := by
  induction inquiry generalizing session with
  | verdict accepted => exact Session.Grew.refl .nil session
  | failure cause => exact h.elim
  | note level text next ih =>
    rw [Inquiry.run, ends_bind, ends_note]
    exact ih h _
  | check path revision next ih =>
    rw [Inquiry.run, ends_bind, Access.check, ends_attempt_call]
    have hasked : session.Grew receiver
        (fun events => events =
          [.checked path revision (remote.check path revision session.remote).outcome])
        (called (.checked path revision) (remote.check path revision session.remote) session) :=
      ⟨_, rfl, rfl, rfl⟩
    cases houtcome : (remote.check path revision session.remote).outcome with
    | ok kind =>
      rw [houtcome] at hasked
      have hsound := hasked.mono fun events (hevents : events = _) =>
        hevents ▸ Sound.singleton rfl
      exact (ih _ (h.2 kind) _).mono
        (fun _ _ hafter => hsound.trans hafter fun _ _ => Sound.append)
        (fun _ _ hafter => hsound.trans hafter fun _ _ => Sound.append_aborted)
    | error cause =>
      rw [houtcome] at hasked
      rw [h.1 cause, Inquiry.run, ends_throw]
      exact hasked.mono fun events hevents => hevents ▸ aborted_singleton rfl

end Inquiry

namespace Discovery
open Access

/-- The criterion passes over no failure. -/
def Quest.Strict (quest : Quest) : Prop :=
  ∀ criterion account probe, quest.criterion = some criterion →
    (criterion account probe).Strict

/-- Demands pass over no failure. -/
theorem strict_of_demands {quest : Quest} {demands : Option Acceptance}
    (h : quest.criterion = demands.map Acceptance.criterion) : quest.Strict := by
  intro criterion account probe hcriterion
  obtain ⟨acceptance, -, rfl⟩ := Option.map_eq_some_iff.mp (h.symm.trans hcriterion)
  exact acceptance.ask_strict probe

variable {σ ρ : Type} {remote : Remote σ} {receiver : Receiver ρ} {quest : Quest}

theorem judge_aborts (receiver : Receiver ρ) (hstrict : quest.Strict) (probe : Probe)
    (session : Session σ ρ) :
    Ends (judge remote quest probe) session (fun _ => session.Grew receiver Sound)
      (fun failure => session.Grew receiver (Aborted failure)) := by
  cases hcriterion : quest.criterion with
  | none =>
    rw [ends_judge_none hcriterion]
    exact Session.Grew.refl .nil session
  | some criterion =>
    rw [ends_judge_some hcriterion]
    have hjudged : session.Grew receiver Sound (session.record (.judged probe)) :=
      ⟨_, rfl, rfl, .singleton rfl⟩
    exact (Inquiry.run_aborts receiver quest.channel (hstrict _ _ _ hcriterion) _).mono
      (fun _ _ h => hjudged.trans h fun _ _ => Sound.append)
      (fun _ _ h => hjudged.trans h fun _ _ => Sound.append_aborted)

theorem offer_aborts (hstrict : quest.Strict) (pattern : Pattern) (names : List String)
    (child : Child) (session : Session σ ρ) :
    Ends (offer remote receiver quest pattern names child) session
      (fun _ => session.Grew receiver Sound)
      (fun failure => session.Grew receiver (Aborted failure)) := by
  have hoffered : session.Grew receiver Sound (session.record (.offered pattern names child)) :=
    ⟨_, rfl, rfl, .singleton rfl⟩
  rw [ends_offer]
  refine (judge_aborts receiver hstrict (candidate quest names child) _).mono ?_ ?_
  · intro accepted after hjudged
    have hasked : session.Grew receiver Sound after :=
      hoffered.trans hjudged fun _ _ => Sound.append
    cases accepted with
    | true =>
      have hreported : after.Grew receiver Sound
          { (after.note ⟨.info, quest.channel, "Met criteria"⟩).record
              (.reported (candidate quest names child).head) with
            receiver := receiver.report (candidate quest names child).head after.receiver } :=
        ⟨_, rfl, rfl, .singleton rfl⟩
      exact hasked.trans hreported fun _ _ => Sound.append
    | false => exact hasked
  · exact fun _ _ h => hoffered.trans h fun _ _ => Sound.append_aborted

theorem listing_aborts (receiver : Receiver ρ) (place : Place) (session : Session σ ρ) :
    Ends (listing remote quest place) session (fun _ => session.Grew receiver Sound)
      (fun failure => session.Grew receiver (Aborted failure)) := by
  have hentered : Sound [Event.entered place] := .singleton rfl
  have hlisted : session.Grew receiver
      (fun events => events = [.entered place, .listed (Path.join (quest.base :: place.names))
        place.revision (answered remote quest place session.remote)])
      (entering remote quest place session) := ⟨_, account_entering, rfl, rfl⟩
  rw [ends_listing]
  cases hanswered : answered remote quest place session.remote with
  | ok node =>
    rw [hanswered] at hlisted
    exact hlisted.mono fun _ h => h ▸ hentered.append (.singleton rfl)
  | error failure =>
    rw [hanswered] at hlisted
    dsimp only
    split
    · rename_i hmissing
      exact hlisted.mono fun _ h => h ▸ hentered.append (.singleton (if_pos hmissing))
    · rename_i hmissing
      exact hlisted.mono fun _ h =>
        h ▸ hentered.append_aborted (aborted_singleton (if_neg hmissing))

/-- **A search fails at the first fatal event**, and with the failure that it puts on
record; a search that succeeds has met none. -/
theorem search_aborts (remote : Remote σ) (receiver : Receiver ρ) (hstrict : quest.Strict)
    (session : Session σ ρ) :
    Ends (search remote receiver quest) session (fun _ => session.Grew receiver Sound)
      (fun failure => session.Grew receiver (Aborted failure)) := by
  have hconduct : Conduct remote receiver quest
      (fun before after => before.Grew receiver Sound after)
      (fun failure before after => before.Grew receiver (Aborted failure) after) :=
    ⟨fun session => Session.Grew.refl .nil session,
      fun h h' => h.trans h' fun _ _ => Sound.append,
      fun h h' => h.trans h' fun _ _ => Sound.append_aborted,
      fun pattern names child session _ => offer_aborts hstrict pattern names child session,
      fun place session _ => listing_aborts receiver place session⟩
  exact ends_search.mpr ((hconduct.visit _ .root session).mono (fun _ _ h => h.2)
    (fun _ _ h => h.2))

end Discovery
end HeadFinder
