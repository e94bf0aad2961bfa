import HeadFinder.Proofs.Discovery.Conduct
import HeadFinder.Proofs.Discovery.Parting

/-! # What a remote keeps between its state and the record

A search touches a remote by its calls only, and puts each of them on record.  So a
relation between the state of the remote and the account that every call keeps, and
that does not mind the other events, is kept by the whole search (`search_keeps`).
With it the record can be trusted: answers that a remote always gives are the ones that
are on record, and a remote that counts its calls has counted those on record.
-/
namespace HeadFinder

/-- A relation between the states of a remote and accounts that every call of the remote
keeps, and that goes by the calls alone. -/
structure Remote.Keeps {σ : Type} (remote : Remote σ) (Fit : σ → List Event → Prop) : Prop where
  list : ∀ path revision state account, Fit state account →
    let reply := remote.list path revision state
    Fit reply.state (account ++ [.listed path revision reply.outcome])
  check : ∀ path revision state account, Fit state account →
    let reply := remote.check path revision state
    Fit reply.state (account ++ [.checked path revision reply.outcome])
  aside : ∀ state account event, event.query? = none → Fit state account →
    Fit state (account ++ [event])

/-- The state of the remote fits the account of the session. -/
def Session.Fits {σ ρ : Type} (Fit : σ → List Event → Prop) (session : Session σ ρ) : Prop :=
  Fit session.remote session.account

open Access in
theorem Inquiry.run_keeps {σ ρ : Type} {remote : Remote σ} {Fit : σ → List Event → Prop}
    (h : remote.Keeps Fit) (channel : String) (inquiry : Inquiry) (session : Session σ ρ)
    (hfit : session.Fits Fit) :
    Ends (inquiry.run remote channel) session (fun _ after => after.Fits Fit)
      (fun _ after => after.Fits Fit) := by
  induction inquiry generalizing session with
  | verdict accepted => exact hfit
  | failure cause => exact hfit
  | note level text next ih =>
    rw [Inquiry.run, ends_bind, ends_note]
    exact ih _ hfit
  | check path revision next ih =>
    rw [Inquiry.run, ends_bind, Access.check, ends_attempt_call]
    exact ih _ _ (h.check path revision session.remote session.account hfit)

namespace Discovery
open Access

section Keeps
variable {σ ρ : Type} {remote : Remote σ} {receiver : Receiver ρ} {quest : Quest}
variable {Fit : σ → List Event → Prop}

theorem judge_keeps (h : remote.Keeps Fit) (probe : Probe) (session : Session σ ρ)
    (hfit : session.Fits Fit) :
    Ends (judge remote quest probe) session (fun _ after => after.Fits Fit)
      (fun _ after => after.Fits Fit) := by
  cases hcriterion : quest.criterion with
  | none =>
    rw [ends_judge_none hcriterion]
    exact hfit
  | some criterion =>
    rw [ends_judge_some hcriterion]
    exact Inquiry.run_keeps h quest.channel _ _ (h.aside _ _ _ rfl hfit)

theorem offer_keeps (h : remote.Keeps Fit) (receiver : Receiver ρ) (pattern : Pattern)
    (names : List String) (child : Child) (session : Session σ ρ) (hfit : session.Fits Fit) :
    Ends (offer remote receiver quest pattern names child) session
      (fun _ after => after.Fits Fit) (fun _ after => after.Fits Fit) := by
  rw [ends_offer]
  refine (judge_keeps h (candidate quest names child) _ ?_).mono ?_ (fun _ _ hafter => hafter)
  · exact h.aside session.remote session.account (.offered pattern names child) rfl hfit
  · intro accepted after hafter
    cases accepted with
    | true => exact h.aside after.remote after.account (.reported _) rfl hafter
    | false => exact hafter

theorem listing_keeps (h : remote.Keeps Fit) (place : Place) (session : Session σ ρ)
    (hfit : session.Fits Fit) :
    Ends (listing remote quest place) session (fun _ after => after.Fits Fit)
      (fun _ after => after.Fits Fit) := by
  have hentering : (entering remote quest place session).Fits Fit :=
    h.list _ place.revision session.remote _ (h.aside _ _ (.entered place) rfl hfit)
  rw [ends_listing]
  cases answered remote quest place session.remote with
  | ok node => exact hentering
  | error failure =>
    dsimp only
    split <;> exact hentering

/-- **What every call keeps, a search keeps**, however it ends. -/
theorem search_keeps (h : remote.Keeps Fit) (receiver : Receiver ρ) (quest : Quest)
    (session : Session σ ρ) (hfit : session.Fits Fit) :
    ((search remote receiver quest).perform session).2.Fits Fit := by
  have hconduct : Conduct remote receiver quest
      (fun before after => before.Fits Fit → after.Fits Fit)
      (fun _ before after => before.Fits Fit → after.Fits Fit) := by
    refine ⟨fun _ hfit => hfit, fun hfirst hsecond hfit => hsecond (hfirst hfit),
      fun hfirst hsecond hfit => hsecond (hfirst hfit), ?_, ?_⟩
    · exact fun pattern names child session _ =>
        .intro_imp (offer_keeps h receiver pattern names child session)
    · exact fun place session _ => .intro_imp (listing_keeps h place session)
  have hvisit := hconduct.visit (levelsBelow quest.includes .root) .root session
  have hsearch : Ends (search remote receiver quest) session
      (fun _ after => session.Fits Fit → after.Fits Fit)
      (fun _ after => session.Fits Fit → after.Fits Fit) :=
    ends_search.mpr (hvisit.mono (fun _ _ h => h.2) (fun _ _ h => h.2))
  exact hsearch.perform hfit

end Keeps

end Discovery

/-! ## Replies on record -/

namespace Query

/-- The entry for a question that gets the answer of fixed ones. -/
def told (answer : String → Revision → Except Failure Node) (kind : String → Revision → Kind) :
    Query → Event
  | list path revision => .listed path revision (answer path revision)
  | check path revision => .checked path revision (.ok (kind path revision))

/-- The entry for a question that fails. -/
def failed (failure : Failure) : Query → Event
  | list path revision => .listed path revision (.error failure)
  | check path revision => .checked path revision (.error failure)

end Query

namespace Event

/-- The number of questions in an account. -/
def questions (events : List Event) : Nat :=
  events.countP (·.query?.isSome)

theorem questions_append (first second : List Event) :
    questions (first ++ second) = questions first + questions second :=
  List.countP_append

theorem questions_cons {event : Event} {query : Query} (h : event.query? = some query)
    (events : List Event) : questions (event :: events) = questions events + 1 := by
  unfold questions
  rw [List.countP_cons, h]
  rfl

theorem questions_concat {event : Event} {query : Query} (h : event.query? = some query)
    (events : List Event) : questions (events ++ [event]) = questions events + 1 := by
  rw [questions_append, questions_cons h]
  rfl

theorem questions_concat_aside {event : Event} (h : event.query? = none) (events : List Event) :
    questions (events ++ [event]) = questions events := by
  rw [questions_append]
  unfold questions
  rw [List.countP_singleton, h]
  rfl

/-- A question is known by its number. -/
theorem eq_of_questions {before before' rest rest' : List Event} {event event' : Event}
    {query query' : Query} (heq : before ++ event :: rest = before' ++ event' :: rest')
    (h : event.query? = some query) (h' : event'.query? = some query')
    (hnumber : questions before = questions before') :
    before = before' ∧ event = event' ∧ rest = rest' := by
  rcases List.append_eq_append_iff.mp heq with ⟨more, hbefore, hrest⟩ | ⟨more, hbefore, hrest⟩
  · cases more with
    | nil =>
      obtain ⟨hevent, hrest⟩ := List.cons.inj hrest
      exact ⟨by rw [hbefore, List.append_nil], hevent, hrest⟩
    | cons other more =>
      -- The one question would be among those before the other.
      obtain ⟨rfl, -⟩ := List.cons.inj hrest
      rw [hbefore, questions_append, questions_cons h] at hnumber
      omega
  · cases more with
    | nil =>
      obtain ⟨hevent, hrest⟩ := List.cons.inj hrest
      exact ⟨by rw [hbefore, List.append_nil], hevent.symm, hrest.symm⟩
    | cons other more =>
      obtain ⟨rfl, -⟩ := List.cons.inj hrest
      rw [hbefore, questions_append, questions_cons h'] at hnumber
      omega

end Event

/-- Every question on record has got the reply that is due to it, given how many
questions went before. -/
def Replied (reply : Nat → Query → Event) (account : List Event) : Prop :=
  ∀ before event after query, account = before ++ event :: after → event.query? = some query →
    event = reply (Event.questions before) query

namespace Replied
variable {reply reply' : Nat → Query → Event} {account account' : List Event}

theorem nil : Replied reply [] := by
  intro before event after query h
  simp at h

theorem concat (h : Replied reply account) {event : Event}
    (hevent : ∀ query, event.query? = some query →
      event = reply (Event.questions account) query) : Replied reply (account ++ [event]) := by
  intro before other after query heq hquery
  rcases append_cons_of_concat heq with ⟨rfl, rfl, -⟩ | ⟨more, haccount⟩
  · exact hevent query hquery
  · exact h before other more query haccount hquery

/-- Where accounts fork, other replies are due. -/
theorem of_forked (h : Replied reply account) (h' : Replied reply' account')
    (hforked : Forked account account') : ∃ before query rest rest',
      account = before ++ reply (Event.questions before) query :: rest ∧
      account' = before ++ reply' (Event.questions before) query :: rest' ∧
      (reply (Event.questions before) query).query? = some query ∧
      reply (Event.questions before) query ≠ reply' (Event.questions before) query := by
  obtain ⟨before, event, event', rest, rest', query, rfl, rfl, hquery, hquery', hne⟩ := hforked
  have hevent := h before event rest query rfl hquery
  have hevent' := h' before event' rest' query rfl hquery'
  refine ⟨before, query, rest, rest', ?_⟩
  rw [← hevent, ← hevent']
  exact ⟨rfl, rfl, hquery, hne⟩

end Replied

/-- Answers that a remote always gives are the ones that are on record. -/
theorem Remote.keeps_replied {σ : Type} {remote : Remote σ}
    {answer : String → Revision → Except Failure Node} {kind : String → Revision → Kind}
    (hanswer : ∀ path revision state, (remote.list path revision state).outcome =
      answer path revision)
    (hkind : ∀ path revision state, (remote.check path revision state).outcome =
      .ok (kind path revision)) :
    remote.Keeps fun _ account => Replied (fun _ query => query.told answer kind) account := by
  refine ⟨?_, ?_, ?_⟩
  · intro path revision state account h
    refine h.concat fun query hquery => ?_
    cases hquery
    rw [hanswer]
    rfl
  · intro path revision state account h
    refine h.concat fun query hquery => ?_
    cases hquery
    rw [hkind]
    rfl
  · intro state account event hnone h
    refine h.concat fun query hquery => ?_
    cases hnone.symm.trans hquery

end HeadFinder
