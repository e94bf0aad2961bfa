import HeadFinder.Proofs.Discovery.Abort
import HeadFinder.Proofs.Discovery.Fixed
import HeadFinder.Proofs.Discovery.Pruning

/-! # What a failure does to a search

Two remotes that fail are made of one that does not: one breaks down at a question, the
other has lost a directory.  A search of the first does what it would have done, up to that
question, and fails with it; a search of the second goes on and only misses what lies below
the directory (`search_contained`).
-/
namespace HeadFinder

/-- The reply for a remote with a tag on its states. -/
def Reply.tagged {σ τ α : Type} (reply : Reply σ α) (tag : τ) : Reply (σ × τ) α :=
  ⟨reply.outcome, (reply.state, tag), reply.notes⟩

namespace Remote
variable {σ : Type}

/-- A question that fails if its number is up. -/
def breaking {α : Type} (number : Nat) (failure : Failure) (ask : σ → Reply σ α)
    (state : σ × Nat) : Reply (σ × Nat) α :=
  if state.2 = number then ⟨.error failure, (state.1, state.2 + 1), []⟩
  else (ask state.1).tagged (state.2 + 1)

/-- The remote whose question of this number fails, the first one being number zero. -/
def failing (remote : Remote σ) (number : Nat) (failure : Failure) : Remote (σ × Nat) where
  connect url state := (remote.connect url state.1).tagged state.2
  list path revision := breaking number failure (remote.list path revision)
  check path revision := breaking number failure (remote.check path revision)
  identify state := (remote.identify state.1).tagged state.2
  locate url state := (remote.locate url state.1).tagged state.2
  disconnect state := (remote.disconnect state.1, state.2)

/-- The remote where nothing is found at this path when it is listed. -/
def vanished (remote : Remote σ) (path : String) : Remote σ :=
  { remote with
    list := fun asked revision state =>
      if asked = path then ⟨.error (.nodeMissing asked revision), state, []⟩
      else remote.list asked revision state }

variable {remote : Remote σ}
variable {answer : String → Revision → Except Failure Node} {kind : String → Revision → Kind}

/-- A remote without a directory has fixed answers if the remote has. -/
theorem Fixed.vanished (h : remote.Fixed answer kind) (path : String) :
    (remote.vanished path).Fixed (Discovery.without path answer) kind where
  lists asked revision state := by
    unfold Remote.vanished Discovery.without
    dsimp only
    split
    · rfl
    · exact h.lists asked revision state
  checks := h.checks
  missing asked revision failure hfailure := by
    unfold Discovery.without at hfailure
    split at hfailure
    · cases hfailure
      rfl
    · exact h.missing asked revision failure hfailure
  distinct asked revision := by
    unfold Discovery.without
    split
    · exact List.nodup_nil
    · exact h.distinct asked revision

/-- The replies of a remote that breaks down. -/
def brokenReply (answer : String → Revision → Except Failure Node)
    (kind : String → Revision → Kind) (number : Nat) (failure : Failure) (asked : Nat)
    (query : Query) : Event :=
  if asked = number then query.failed failure else query.told answer kind

section Breaking
variable {α : Type} {ask : σ → Reply σ α} {number : Nat} {failure : Failure} {state : σ × Nat}

theorem count_breaking : (breaking number failure ask state).state.2 = state.2 + 1 := by
  unfold breaking
  split <;> rfl

theorem outcome_breaking : (breaking number failure ask state).outcome =
    if state.2 = number then .error failure else (ask state.1).outcome := by
  unfold breaking
  split <;> rfl

end Breaking

/-- A remote that breaks down has counted the questions on record. -/
theorem keeps_failing (h : remote.Fixed answer kind) (number : Nat) (failure : Failure) :
    (remote.failing number failure).Keeps fun state account =>
      state.2 = Event.questions account ∧
        Replied (brokenReply answer kind number failure) account := by
  refine ⟨?_, ?_, ?_⟩
  · rintro path revision state account ⟨hcount, hreplied⟩
    refine ⟨?_, hreplied.concat fun query hquery => ?_⟩
    · rw [Event.questions_concat rfl, ← hcount]
      exact count_breaking
    · cases hquery
      rw [failing, outcome_breaking, hcount, h.lists, brokenReply]
      split <;> rfl
  · rintro path revision state account ⟨hcount, hreplied⟩
    refine ⟨?_, hreplied.concat fun query hquery => ?_⟩
    · rw [Event.questions_concat rfl, ← hcount]
      exact count_breaking
    · cases hquery
      rw [failing, outcome_breaking, hcount, h.checks, brokenReply]
      split <;> rfl
  · rintro state account event hnone ⟨hcount, hreplied⟩
    refine ⟨?_, hreplied.concat fun query hquery => ?_⟩
    · rw [Event.questions_concat_aside hnone, hcount]
    · cases hnone.symm.trans hquery

end Remote

namespace Query
variable {answer : String → Revision → Except Failure Node} {kind : String → Revision → Kind}

theorem query?_told (query : Query) : (query.told answer kind).query? = some query := by
  cases query <;> rfl

/-- A failed question is fatal, but for a listing that finds nothing. -/
theorem fatal?_failed {query : Query} {failure : Failure}
    (h : ∀ path revision, query = .list path revision → failure.isMissing = false) :
    (query.failed failure).fatal? = some failure := by
  cases query with
  | list path revision => exact if_neg (by rw [h path revision rfl]; exact Bool.false_ne_true)
  | check path revision => rfl

/-- A question reports nothing. -/
theorem heads_failed (query : Query) (failure : Failure) :
    Event.heads [query.failed failure] = [] := by
  cases query <;> rfl

end Query

namespace Discovery
open Access

variable {σ ρ : Type} {remote : Remote σ} {receiver : Receiver ρ}
variable {answer : String → Revision → Except Failure Node} {kind : String → Revision → Kind}

/-- A receiver that never has enough does not stop a search. -/
theorem search_not_stopped (remote : Remote σ)
    (hobserving : ∀ wants, receiver.observing wants = true) (quest : Quest)
    (session : Session σ ρ) : ((search remote receiver quest).perform session).1 ≠ .ok false := by
  intro hstop
  have htold := (told_of_ends (search_heeded remote receiver quest session)).1 false hstop
  rw [hobserving] at htold
  cases htold

/-- Searches for a receiver that never has enough come to the same, or their accounts
fork. -/
theorem search_parallel {τ : Type} (remote : Remote σ) (remote' : Remote τ)
    (hobserving : ∀ wants, receiver.observing wants = true) (quest : Quest)
    {session : Session σ ρ} {session' : Session τ ρ} (h : session'.account = session.account) :
    Parallel ((search remote receiver quest).perform session)
      ((search remote' receiver quest).perform session') := by
  rcases search_parts remote remote' quest receiver receiver h with
    hparallel | ⟨hstop, -⟩ | ⟨hstop, -⟩
  · exact hparallel
  · exact absurd hstop (search_not_stopped remote hobserving quest session)
  · exact absurd hstop (search_not_stopped remote' hobserving quest session')

/-- **A search of a remote that breaks down** does what it would have done up to there, and
fails. -/
theorem search_broken (hfixed : remote.Fixed answer kind)
    (hobserving : ∀ wants, receiver.observing wants = true) (quest : Quest)
    (demands : Option Acceptance) (state : σ) (wants : ρ) {before after : List Event}
    {call : Event} {query : Query} {failure : Failure}
    (hwhole : ((search remote receiver (quest.demanding demands)).perform
      (Session.start state wants)).2.account = before ++ call :: after)
    (hquery : call.query? = some query) (hfatal : (query.failed failure).fatal? = some failure) :
    let broken := (search (remote.failing (Event.questions before) failure) receiver
      (quest.demanding demands)).perform (Session.start (state, 0) wants)
    broken.1 = .error failure ∧ broken.2.account = before ++ [query.failed failure] ∧
      broken.2.receiver = receiver.hear broken.2.account wants := by
  intro broken
  have hreplied := hfixed.replied receiver (quest.demanding demands) state wants
  have hreplied' : Replied (Remote.brokenReply answer kind (Event.questions before) failure)
      broken.2.account :=
    (search_keeps (Remote.keeps_failing hfixed (Event.questions before) failure) receiver
      (quest.demanding demands) (Session.start (state, 0) wants) ⟨rfl, .nil⟩).2
  -- The question is put here too, and it fails.
  obtain ⟨rest, hbroken⟩ : ∃ rest, broken.2.account = before ++ query.failed failure :: rest := by
    have hstart : (Session.start (state, 0) wants).account = (Session.start state wants).account :=
      rfl
    rcases search_parallel remote (remote.failing (Event.questions before) failure) hobserving
      (quest.demanding demands) hstart with ⟨-, hsame⟩ | hforked
    · rw [hwhole] at hsame
      have hcall := hreplied' before call after query hsame hquery
      rw [Remote.brokenReply, if_pos rfl] at hcall
      exact ⟨after, hcall ▸ hsame⟩
    · obtain ⟨before', query', rest, rest', hwhole', hbroken, hquery', hne⟩ :=
        hreplied.of_forked hreplied' hforked
      -- Only the reply to the question of this number is another one.
      have hnumber : Event.questions before' = Event.questions before := by
        by_contra hnot
        rw [Remote.brokenReply, if_neg hnot] at hne
        exact hne rfl
      obtain ⟨rfl, rfl, -⟩ := Event.eq_of_questions (hwhole'.symm.trans hwhole) hquery' hquery
        hnumber
      rw [Query.query?_told] at hquery
      cases hquery
      rw [Remote.brokenReply, if_pos rfl] at hbroken
      exact ⟨rest', hbroken⟩
  have hstrict : (quest.demanding demands).Strict := strict_of_demands rfl
  rcases (search_aborts (remote.failing (Event.questions before) failure) receiver
    hstrict (Session.start (state, 0) wants)).performed with
    ⟨goOn, -, hgrew⟩ | ⟨cause, hrun, hgrew⟩
  · -- A search that succeeds has nothing fatal on record.
    have hsound : Sound broken.2.account := hgrew.of_start.2
    rw [hbroken] at hsound
    cases (hsound _ (by simp)).symm.trans hfatal
  · have haborted : Aborted cause broken.2.account := hgrew.of_start.2
    rw [hbroken] at haborted
    obtain ⟨rfl, rfl⟩ := haborted.eq_last hfatal
    exact ⟨hrun, hbroken, hgrew.of_start.1⟩

/-- **A search of a remote without a directory** goes on to its end and misses the heads
strictly below the directory. -/
theorem search_pruned (hfixed : remote.Fixed answer kind)
    (hplain : ∀ path revision, ∀ child ∈ childrenOf (answer path revision).toOption,
      Text.Plain child.name)
    (hobserving : ∀ wants, receiver.observing wants = true) (quest : Quest)
    (demands : Option Acceptance) (state : σ) (wants : ρ) {names : List String}
    (hnames : ∀ name ∈ names, Text.Plain name) :
    let whole := (search remote receiver (quest.demanding demands)).perform
      (Session.start state wants)
    let gone := (search (remote.vanished (Path.join (quest.base :: names))) receiver
      (quest.demanding demands)).perform (Session.start state wants)
    gone.1 = .ok true ∧ gone.2.receiver = receiver.hear gone.2.account wants ∧
      Event.heads gone.2.account = (Event.heads whole.2.account).filter fun head =>
        ¬ Beyond names (Path.segments head.name) := by
  intro whole gone
  obtain ⟨-, -, htours⟩ := hfixed.completes hobserving quest demands state wants
  obtain ⟨hgone, hheard, htours'⟩ := (hfixed.vanished (Path.join (quest.base :: names))).completes
    hobserving quest demands state wants
  have hroot : ∀ name ∈ Place.root.names, Text.Plain name := fun _ h => nomatch h
  have hnot : ¬ Beyond names Place.root.names := by
    rintro ⟨hbegins, hne⟩
    exact hne (List.prefix_nil.mp hbegins)
  have htour : (quest.demanding demands).tour
      (without (Path.join (quest.base :: names)) answer) =
        ((quest.demanding demands).tour answer).filter fun step => ¬ Beyond names step.names := by
    show tour (without (Path.join ((quest.demanding demands).base :: names)) answer)
      (quest.demanding demands) _ .root = _
    exact tour_without hplain hnames _ hroot hnot
  refine ⟨hgone, hheard, ?_⟩
  rw [htours.heads, htours'.heads, htour, headsOf_filter]
  exact fun step hstep => plain_of_mem_tour hplain hroot hstep

/-- **Failures are contained.**  Let the answers of a remote be fixed and the names that it
lists be plain, let the criterion be made of demands and the receiver never have enough.
If one question fails, and not by a listing that finds nothing, a search does the same as
without the failure up to that question, and fails with it at once.  If a directory is gone
at every revision, a search goes on to its end and reports the same heads in the same
order, but for those strictly below the directory. -/
theorem search_contained {σ ρ : Type} (remote : Remote σ)
    (answer : String → Revision → Except Failure Node) (kind : String → Revision → Kind)
    (hfixed : remote.Fixed answer kind)
    (hplain : ∀ path revision, ∀ child ∈ childrenOf (answer path revision).toOption,
      Text.Plain child.name)
    (receiver : Receiver ρ) (hobserving : ∀ wants, receiver.observing wants = true)
    (quest : Quest) (demands : Option Acceptance) (state : σ) (wants : ρ) :
    let whole := (search remote receiver (quest.demanding demands)).perform
      (Session.start state wants)
    (∀ before call after query failure, whole.2.account = before ++ call :: after →
      call.query? = some query →
      (∀ path revision, query = .list path revision → failure.isMissing = false) →
        let broken := (search (remote.failing (Event.questions before) failure) receiver
          (quest.demanding demands)).perform (Session.start (state, 0) wants)
        broken.1 = .error failure ∧ broken.2.account = before ++ [query.failed failure] ∧
          broken.2.receiver = receiver.hear before wants ∧
          Event.heads broken.2.account = Event.heads before) ∧
      ∀ names, (∀ name ∈ names, Text.Plain name) →
        let gone := (search (remote.vanished (Path.join (quest.base :: names))) receiver
          (quest.demanding demands)).perform (Session.start state wants)
        gone.1 = .ok true ∧ gone.2.receiver = receiver.hear gone.2.account wants ∧
          Event.heads gone.2.account = (Event.heads whole.2.account).filter fun head =>
            ¬ Beyond names (Path.segments head.name) := by
  intro whole
  constructor
  · intro before call after query failure hwhole hquery hfailure broken
    obtain ⟨hrun, haccount, hheard⟩ := search_broken hfixed hobserving quest demands state wants
      hwhole hquery (Query.fatal?_failed hfailure)
    refine ⟨hrun, haccount, ?_, ?_⟩
    · rw [hheard, haccount, Receiver.hear_append,
        Receiver.hear_of_silent (query.heads_failed failure)]
    · rw [haccount, Event.heads_append, query.heads_failed, List.append_nil]
  · intro names hnames
    exact search_pruned hfixed hplain hobserving quest demands state wants hnames

/-- The trunk is listed for either of its patterns; the second listing fails, or both find
nothing. -/
theorem search_contained_lines :
    let broken := (search ((Remote.ofAnswers lines linesKind).failing 2 .sessionClosed)
      Receiver.collecting (overlap.demanding none)).perform (Session.start ((), 0) Roster.empty)
    let gone := (search ((Remote.ofAnswers lines linesKind).vanished "trunk")
      Receiver.collecting (overlap.demanding none)).perform (Session.start () Roster.empty)
    broken.1 = .error .sessionClosed ∧
      Event.heads broken.2.account = [⟨"trunk/x", 1, some 1000⟩] ∧
      gone.1 = .ok true ∧ Event.heads gone.2.account = [] := by
  intro broken gone
  obtain ⟨hbroken, hgone⟩ := search_contained (Remote.ofAnswers lines linesKind) lines linesKind
    fixed_lines plain_lines Receiver.collecting (fun _ => rfl) overlap none () Roster.empty
  obtain ⟨hrun, -, -, hheads⟩ := hbroken
    [.entered ⟨[], [], -1⟩, .listed "" (-1) (lines "" (-1)), .entered ⟨["*"], ["trunk"], 2⟩,
      .listed "trunk" 2 (lines "trunk" 2),
      .offered ["*", "x"] ["trunk", "x"] ⟨"x", .directory, 1, some 1000⟩,
      .reported ⟨"trunk/x", 1, some 1000⟩, .entered ⟨["trunk"], ["trunk"], 2⟩]
    (.listed "trunk" 2 (lines "trunk" 2)) _ (.list "trunk" 2) .sessionClosed rfl rfl
    (fun _ _ _ => rfl)
  have htrunk : ∀ name ∈ ["trunk"], Text.Plain name := by
    intro name hname
    rw [List.mem_singleton.mp hname]
    exact ⟨by decide, by decide⟩
  obtain ⟨hdone, -, hnone⟩ := hgone ["trunk"] htrunk
  exact ⟨hrun, hheads, hdone, hnone.trans rfl⟩

end Discovery
end HeadFinder
