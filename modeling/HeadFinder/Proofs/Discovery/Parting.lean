import HeadFinder.Proofs.Discovery.Course

/-! # Where two searches part

What a search does next depends on its account alone, on the answers that it is given
and on whether its receiver is observing.  Two searches of one quest therefore have one
account, under any remotes and for any receivers, until a question is answered
differently or one of the receivers has had enough (`search_parts`).  Nothing has to be
known of the remotes.
-/
namespace HeadFinder

/-- A question about the tree. -/
inductive Query where
  | list (path : String) (revision : Revision)
  | check (path : String) (revision : Revision)
deriving DecidableEq, Repr

/-- The question that an event answers. -/
def Event.query? : Event → Option Query
  | listed path revision _ => some (.list path revision)
  | checked path revision _ => some (.check path revision)
  | _ => none

/-- Two accounts that part at a question with two answers. -/
def Forked (account account' : List Event) : Prop :=
  ∃ before event event' rest rest' query, account = before ++ event :: rest ∧
    account' = before ++ event' :: rest' ∧ event.query? = some query ∧
    event'.query? = some query ∧ event ≠ event'

/-- What follows does not join forked accounts again. -/
theorem Forked.extend {account account' later later' : List Event} (h : Forked account account')
    (hlater : account <+: later) (hlater' : account' <+: later') : Forked later later' := by
  obtain ⟨before, event, event', rest, rest', query, rfl, rfl, hevent, hevent', hne⟩ := h
  obtain ⟨more, rfl⟩ := hlater
  obtain ⟨more', rfl⟩ := hlater'
  exact ⟨before, event, event', rest ++ more, rest' ++ more', query,
    by simp, by simp, hevent, hevent', hne⟩

namespace Access
variable {σ τ ρ π α β : Type}

theorem perform_bind (action : Access σ ρ β) (next : β → Access σ ρ α) (session : Session σ ρ) :
    (action >>= next).perform session =
      match action.perform session with
      | (.ok value, after) => (next value).perform after
      | (.error failure, after) => (.error failure, after) := by
  unfold perform
  cases hrun : action session with
  | ok value after => rw [bind_of_ok hrun]
  | error failure after => rw [bind_of_error hrun]

/-- An attempted call succeeds with the outcome that is put on record. -/
theorem perform_attempt_call (event : Except Failure α → Event) (query : σ → Reply σ α)
    (session : Session σ ρ) :
    (attempt (call event query)).perform session =
      (.ok (query session.remote).outcome, called event (query session.remote) session) := by
  unfold perform attempt call called
  dsimp only
  cases (query session.remote).outcome <;> rfl

/-! Steps that every session takes in the same way. -/

theorem perform_note_bind {level : Level} {channel text : String} {next : Unit → Access σ ρ α}
    {session : Session σ ρ} : (note level channel text >>= next).perform session =
      (next ()).perform (session.note ⟨level, channel, text⟩) :=
  rfl

theorem perform_record_bind {event : Event} {next : PUnit → Access σ ρ α}
    {session : Session σ ρ} : (modify (Session.record event) >>= next).perform session =
      (next ⟨⟩).perform (session.record event) :=
  rfl

theorem perform_observing_bind {receiver : Receiver ρ} {next : Bool → Access σ ρ α}
    {session : Session σ ρ} : (observing receiver >>= next).perform session =
      (next (receiver.observing session.receiver)).perform session :=
  rfl

/-- An action that only adds to the account. -/
def Grows (action : Access σ ρ α) : Prop :=
  ∀ session, session.account <+: (action.perform session).2.account

theorem grows_of_grew {action : Access σ ρ α} {receiver : Receiver ρ} {P : List Event → Prop}
    (h : ∀ session, Ends action session (fun _ => session.Grew receiver P)
      (fun _ => session.Grew receiver P)) : Grows action := by
  intro session
  obtain ⟨events, haccount, -, -⟩ := (h session).perform
  exact ⟨events, haccount.symm⟩

/-- Two runs come to the same, or their accounts fork. -/
def Parallel (run : Except Failure α × Session σ ρ) (run' : Except Failure α × Session τ π) :
    Prop :=
  (run'.1 = run.1 ∧ run'.2.account = run.2.account) ∨ Forked run.2.account run'.2.account

/-- Two runs come to the same, their accounts fork, or one of them has been told to stop
and the other has gone on from there. -/
def Parting (run : Except Failure Bool × Session σ ρ) (run' : Except Failure Bool × Session τ π) :
    Prop :=
  Parallel run run' ∨ (run.1 = .ok false ∧ run.2.account <+: run'.2.account) ∨
    (run'.1 = .ok false ∧ run'.2.account <+: run.2.account)

/-- What comes after an action only adds to its account. -/
theorem prefix_bind (action : Access σ ρ β) {next : β → Access σ ρ α}
    (hnext : ∀ value, Grows (next value)) (session : Session σ ρ) :
    (action.perform session).2.account <+: ((action >>= next).perform session).2.account := by
  rw [perform_bind]
  rcases action.perform session with ⟨outcome, after⟩
  cases outcome with
  | ok value => exact hnext value after
  | error failure => exact List.prefix_refl _

section Bind
variable {session : Session σ ρ} {session' : Session τ π}

/-- Parallel actions hand on one value and one account to what follows them, unless it
is settled already how the whole runs compare. -/
theorem Parallel.bind {action : Access σ ρ β} {action' : Access τ π β} {next : β → Access σ ρ α}
    {next' : β → Access τ π α}
    (h : Parallel (action.perform session) (action'.perform session'))
    (hnext : ∀ value, Grows (next value)) (hnext' : ∀ value, Grows (next' value)) :
    (∃ value after after', after'.account = after.account ∧
        (action >>= next).perform session = (next value).perform after ∧
        (action' >>= next').perform session' = (next' value).perform after') ∨
      Parallel ((action >>= next).perform session) ((action' >>= next').perform session') := by
  rcases h with ⟨hsame, haccount⟩ | hforked
  · rw [perform_bind, perform_bind]
    rcases hrun : action.perform session with ⟨outcome, after⟩
    rcases hrun' : action'.perform session' with ⟨outcome', after'⟩
    rw [hrun, hrun'] at hsame haccount
    cases (show outcome' = outcome from hsame)
    cases outcome with
    | ok value => exact Or.inl ⟨value, after, after', haccount, rfl, rfl⟩
    | error failure => exact Or.inr (Or.inl ⟨rfl, haccount⟩)
  · exact Or.inr (Or.inr (hforked.extend (prefix_bind action hnext session)
      (prefix_bind action' hnext' session')))

/-- Parallel actions may be followed by parallel ones. -/
theorem Parallel.bind_parallel {action : Access σ ρ β} {action' : Access τ π β}
    {next : β → Access σ ρ α} {next' : β → Access τ π α}
    (h : Parallel (action.perform session) (action'.perform session'))
    (hnext : ∀ value, Grows (next value)) (hnext' : ∀ value, Grows (next' value))
    (hrest : ∀ value after after', after'.account = after.account →
      Parallel ((next value).perform after) ((next' value).perform after')) :
    Parallel ((action >>= next).perform session) ((action' >>= next').perform session') := by
  rcases h.bind hnext hnext' with ⟨value, after, after', haccount, hrun, hrun'⟩ | hparallel
  · rw [hrun, hrun']
    exact hrest value after after' haccount
  · exact hparallel

/-- Parallel actions may be followed by ones that part. -/
theorem Parallel.bind_parting {action : Access σ ρ β} {action' : Access τ π β}
    {next : β → Access σ ρ Bool} {next' : β → Access τ π Bool}
    (h : Parallel (action.perform session) (action'.perform session'))
    (hnext : ∀ value, Grows (next value)) (hnext' : ∀ value, Grows (next' value))
    (hrest : ∀ value after after', after'.account = after.account →
      Parting ((next value).perform after) ((next' value).perform after')) :
    Parting ((action >>= next).perform session) ((action' >>= next').perform session') := by
  rcases h.bind hnext hnext' with ⟨value, after, after', haccount, hrun, hrun'⟩ | hparallel
  · rw [hrun, hrun']
    exact hrest value after after' haccount
  · exact Or.inl hparallel

/-- What goes on for as long as it is told to parts where its first part does, or
later. -/
theorem Parting.goOn {action : Access σ ρ Bool} {action' : Access τ π Bool}
    {next : Access σ ρ Bool} {next' : Access τ π Bool}
    (h : Parting (action.perform session) (action'.perform session')) (hnext : Grows next)
    (hnext' : Grows next') (hrest : ∀ after after', after'.account = after.account →
      Parting (next.perform after) (next'.perform after')) :
    Parting ((action >>= fun goOn => if goOn = true then next else pure false).perform session)
      ((action' >>= fun goOn => if goOn = true then next' else pure false).perform session') := by
  have hgrows : ∀ goOn : Bool, Grows (if goOn = true then next else pure false) := by
    intro goOn
    cases goOn with
    | true => exact hnext
    | false => exact fun _ => List.prefix_refl _
  have hgrows' : ∀ goOn : Bool, Grows (if goOn = true then next' else pure false) := by
    intro goOn
    cases goOn with
    | true => exact hnext'
    | false => exact fun _ => List.prefix_refl _
  rcases h with hparallel | ⟨hstop, hshorter⟩ | ⟨hstop, hshorter⟩
  · refine hparallel.bind_parting hgrows hgrows' fun goOn after after' haccount => ?_
    cases goOn with
    | true => exact hrest after after' haccount
    | false => exact Or.inl (Or.inl ⟨rfl, haccount⟩)
  · -- The first run stops here, and the second may go on.
    have hgrown := prefix_bind action' hgrows' session'
    rw [perform_bind action]
    rcases hrun : action.perform session with ⟨outcome, after⟩
    rw [hrun] at hstop hshorter
    cases (show outcome = .ok false from hstop)
    exact Or.inr (Or.inl ⟨rfl, hshorter.trans hgrown⟩)
  · have hgrown := prefix_bind action hgrows session
    rw [perform_bind action']
    rcases hrun : action'.perform session' with ⟨outcome, after⟩
    rw [hrun] at hstop hshorter
    cases (show outcome = .ok false from hstop)
    exact Or.inr (Or.inr ⟨rfl, hshorter.trans hgrown⟩)

end Bind

/-- With equal accounts, runs that only say whether to go on part at most here. -/
theorem parting_of_account_eq {goOn goOn' : Bool} {after : Session σ ρ} {after' : Session τ π}
    (h : after'.account = after.account) :
    Parting ((.ok goOn, after) : Except Failure Bool × Session σ ρ) (.ok goOn', after') := by
  cases goOn with
  | false => exact Or.inr (Or.inl ⟨rfl, h ▸ List.prefix_refl _⟩)
  | true =>
    cases goOn' with
    | false => exact Or.inr (Or.inr ⟨rfl, h ▸ List.prefix_refl _⟩)
    | true => exact Or.inl (Or.inl ⟨rfl, h⟩)

/-- Two calls with one question are parallel: the answers are the same, or the accounts
fork there. -/
theorem parallel_call {event : Except Failure α → Event} {query : σ → Reply σ α}
    {query' : τ → Reply τ α} {session : Session σ ρ} {session' : Session τ π}
    {question : Query} (hquestion : ∀ outcome, (event outcome).query? = some question)
    (hevent : Function.Injective event) (h : session'.account = session.account) :
    Parallel ((attempt (call event query)).perform session)
      ((attempt (call event query')).perform session') := by
  rw [perform_attempt_call, perform_attempt_call]
  unfold Parallel called
  by_cases hsame : (query' session'.remote).outcome = (query session.remote).outcome
  · exact Or.inl ⟨by rw [hsame], by rw [hsame, h]⟩
  · right
    refine ⟨session.account, event (query session.remote).outcome,
      event (query' session'.remote).outcome, [], [], question, rfl, by rw [h],
      hquestion _, hquestion _, ?_⟩
    intro heq
    exact hsame (hevent heq).symm

end Access

namespace Discovery
open Access

variable {σ τ ρ π : Type}

/-! ## Everything a search does adds to its account -/

theorem grows_inquiry (remote : Remote σ) (channel : String) (inquiry : Inquiry) :
    Grows (inquiry.run remote channel : Access σ ρ Bool) :=
  grows_of_grew fun session =>
    Inquiry.run_grew remote ⟨fun _ wants => wants, fun _ => true⟩ channel inquiry session

theorem grows_visit (remote : Remote σ) (receiver : Receiver ρ) (quest : Quest) (levels : Nat)
    (place : Place) : Grows (visit remote receiver quest levels place) :=
  grows_of_grew fun session => visit_follows_course levels place session

theorem grows_follow (remote : Remote σ) (receiver : Receiver ρ) (quest : Quest) (levels : Nat)
    (steps : List Step) :
    Grows (follow remote receiver quest (visit remote receiver quest levels) steps) :=
  grows_of_grew fun session =>
    follow_follows_course (fun place session => visit_follows_course levels place session) steps
      session

/-! ## What a visit does -/

section Visit
variable {remote : Remote σ} {receiver : Receiver ρ} {quest : Quest} {place : Place}
variable {session : Session σ ρ}

theorem perform_visit_zero (h : receiver.observing session.receiver = true) :
    (visit remote receiver quest 0 place).perform session =
      (listing remote quest place >>= fun _ => pure true).perform session := by
  rw [visit, perform_observing_bind, h]
  rfl

theorem perform_visit_succ {levels : Nat} (h : receiver.observing session.receiver = true) :
    (visit remote receiver quest (levels + 1) place).perform session =
      (listing remote quest place >>= fun node => follow remote receiver quest
        (visit remote receiver quest levels) (steps quest place (childrenOf node))).perform
          session := by
  rw [visit, perform_observing_bind, h]
  rfl

theorem perform_visit_of_sated (levels : Nat) (place : Place)
    (h : receiver.observing session.receiver = false) :
    (visit remote receiver quest levels place).perform session = (.ok false, session) := by
  cases levels <;> rw [visit, perform_observing_bind, h] <;> rfl

end Visit

/-! ## The parts of a search -/

section Parts
variable (remote : Remote σ) (remote' : Remote τ) (quest : Quest)
variable {session : Session σ ρ} {session' : Session τ π}

theorem run_parallel (inquiry : Inquiry) (channel : String)
    (h : session'.account = session.account) :
    Parallel ((inquiry.run remote channel).perform session)
      ((inquiry.run remote' channel).perform session') := by
  induction inquiry generalizing session session' with
  | verdict accepted => exact Or.inl ⟨rfl, h⟩
  | failure cause => exact Or.inl ⟨rfl, h⟩
  | note level text next ih => exact ih h
  | check path revision next ih =>
    have hcall : Parallel
        ((attempt (Access.check remote path revision)).perform session)
        ((attempt (Access.check remote' path revision)).perform session') :=
      parallel_call (fun _ => rfl) (fun _ _ heq => (Event.checked.inj heq).2.2) h
    rw [Inquiry.run, Inquiry.run]
    exact hcall.bind_parallel (fun answer => grows_inquiry remote channel (next answer))
      (fun answer => grows_inquiry remote' channel (next answer)) fun answer _ _ => ih answer

theorem judge_parallel (probe : Probe) (h : session'.account = session.account) :
    Parallel ((judge remote quest probe).perform session)
      ((judge remote' quest probe).perform session') := by
  unfold judge
  cases quest.criterion with
  | none => exact Or.inl ⟨rfl, h⟩
  | some criterion =>
    -- The criterion is told the account, which is the same on both sides.
    show Parallel (((criterion session.account probe).run remote quest.channel).perform
        (session.record (.judged probe)))
      (((criterion session'.account probe).run remote' quest.channel).perform
        (session'.record (.judged probe)))
    rw [h]
    exact run_parallel remote remote' _ _ (congrArg (· ++ [Event.judged probe]) h)

/-- Two listings hand on one node, or their accounts fork. -/
theorem listing_parallel (place : Place) (h : session'.account = session.account) :
    Parallel ((listing remote quest place).perform session)
      ((listing remote' quest place).perform session') := by
  unfold listing
  dsimp only
  rw [perform_note_bind, perform_note_bind, perform_record_bind, perform_record_bind]
  have hentered : ∀ line, ((session'.note line).record (.entered place)).account =
      ((session.note line).record (.entered place)).account :=
    fun _ => congrArg (· ++ [Event.entered place]) h
  specialize hentered ⟨.info, quest.channel, "Checking directory " ++
    Path.shown (Path.join (quest.base :: place.names)) ++ "@" ++ place.revision.label⟩
  generalize (session.note _).record (.entered place) = entered at hentered ⊢
  generalize (session'.note _).record (.entered place) = entered' at hentered ⊢
  have hcall : Parallel
      ((attempt (Access.list remote (Path.join (quest.base :: place.names))
        place.revision)).perform entered)
      ((attempt (Access.list remote' (Path.join (quest.base :: place.names))
        place.revision)).perform entered') :=
    parallel_call (fun _ => rfl) (fun _ _ heq => (Event.listed.inj heq).2.2) hentered
  refine hcall.bind_parallel ?_ ?_ ?_
  · intro outcome session
    cases outcome with
    | ok node => exact List.prefix_refl _
    | error failure =>
      dsimp only
      split <;> exact List.prefix_refl _
  · intro outcome session
    cases outcome with
    | ok node => exact List.prefix_refl _
    | error failure =>
      dsimp only
      split <;> exact List.prefix_refl _
  · intro outcome after after' haccount
    cases outcome with
    | ok node => exact Or.inl ⟨rfl, haccount⟩
    | error failure =>
      dsimp only
      split <;> exact Or.inl ⟨rfl, haccount⟩

variable (receiver : Receiver ρ) (receiver' : Receiver π)

/-- Two offers part if one receiver has had enough with the head and the other has not. -/
theorem offer_parts (pattern : Pattern) (names : List String) (child : Child)
    (h : session'.account = session.account) :
    Parting ((offer remote receiver quest pattern names child).perform session)
      ((offer remote' receiver' quest pattern names child).perform session') := by
  unfold offer
  dsimp only
  rw [perform_record_bind, perform_record_bind, perform_note_bind, perform_note_bind]
  have hoffered : ∀ line, ((session'.record (.offered pattern names child)).note line).account =
      ((session.record (.offered pattern names child)).note line).account :=
    fun _ => congrArg (· ++ [Event.offered pattern names child]) h
  specialize hoffered ⟨.info, quest.channel, "Checking candidate branch " ++
    (candidate quest names child).root ++ "@" ++ toString (candidate quest names child).revision⟩
  generalize (session.record (.offered pattern names child)).note _ = offered at hoffered ⊢
  generalize (session'.record (.offered pattern names child)).note _ = offered' at hoffered ⊢
  refine (judge_parallel remote remote' quest (candidate quest names child) hoffered).bind_parting
    ?_ ?_ ?_
  · intro accepted session
    cases accepted with
    | true => exact List.prefix_append _ _
    | false => exact List.prefix_refl _
  · intro accepted session
    cases accepted with
    | true => exact List.prefix_append _ _
    | false => exact List.prefix_refl _
  · intro accepted after after' haccount
    cases accepted with
    | false => exact Or.inl (Or.inl ⟨rfl, haccount⟩)
    | true =>
      have htold : after'.account ++ [Event.reported (candidate quest names child).head] =
          after.account ++ [Event.reported (candidate quest names child).head] :=
        congrArg (· ++ [Event.reported (candidate quest names child).head]) haccount
      exact parting_of_account_eq htold

/-- Steps part where a visit does, or an offer. -/
theorem follow_parts (levels : Nat)
    (hvisit : ∀ place (session : Session σ ρ) (session' : Session τ π),
      session'.account = session.account →
        Parting ((visit remote receiver quest levels place).perform session)
          ((visit remote' receiver' quest levels place).perform session'))
    (steps : List Step) (h : session'.account = session.account) :
    Parting ((follow remote receiver quest (visit remote receiver quest levels) steps).perform
        session)
      ((follow remote' receiver' quest (visit remote' receiver' quest levels) steps).perform
        session') := by
  induction steps generalizing session session' with
  | nil => exact Or.inl (Or.inl ⟨rfl, h⟩)
  | cons step rest ih =>
    have hgrows := grows_follow remote receiver quest levels rest
    have hgrows' := grows_follow remote' receiver' quest levels rest
    cases step with
    | offer pattern names child =>
      rw [follow, follow]
      exact (offer_parts remote remote' quest receiver receiver' pattern names child h).goOn
        hgrows hgrows' fun _ _ => ih
    | enter place =>
      rw [follow, follow]
      exact (hvisit place _ _ h).goOn hgrows hgrows' fun _ _ => ih

/-- Visits part at once if one of the receivers has had enough before. -/
theorem visit_parts_of_observing (levels : Nat) (place : Place)
    (h : session'.account = session.account)
    (hboth : receiver.observing session.receiver = true →
      receiver'.observing session'.receiver = true →
      Parting ((visit remote receiver quest levels place).perform session)
        ((visit remote' receiver' quest levels place).perform session')) :
    Parting ((visit remote receiver quest levels place).perform session)
      ((visit remote' receiver' quest levels place).perform session') := by
  cases hobserving : receiver.observing session.receiver with
  | false =>
    have hgrown := grows_visit remote' receiver' quest levels place session'
    rw [h] at hgrown
    rw [perform_visit_of_sated levels place hobserving]
    exact Or.inr (Or.inl ⟨rfl, hgrown⟩)
  | true =>
    cases hobserving' : receiver'.observing session'.receiver with
    | false =>
      have hgrown := grows_visit remote receiver quest levels place session
      rw [← h] at hgrown
      rw [perform_visit_of_sated levels place hobserving']
      exact Or.inr (Or.inr ⟨rfl, hgrown⟩)
    | true => exact hboth hobserving hobserving'

/-- **Two visits part where a question has two answers, or where one of the receivers has
had enough.**  By induction on the levels. -/
theorem visit_parts (levels : Nat) (place : Place) (h : session'.account = session.account) :
    Parting ((visit remote receiver quest levels place).perform session)
      ((visit remote' receiver' quest levels place).perform session') := by
  induction levels generalizing place session session' with
  | zero =>
    refine visit_parts_of_observing remote remote' quest receiver receiver' 0 place h
      fun hobserving hobserving' => ?_
    rw [perform_visit_zero hobserving, perform_visit_zero hobserving']
    exact (listing_parallel remote remote' quest place h).bind_parting
      (fun _ _ => List.prefix_refl _) (fun _ _ => List.prefix_refl _)
      fun _ _ _ haccount => Or.inl (Or.inl ⟨rfl, haccount⟩)
  | succ levels ih =>
    refine visit_parts_of_observing remote remote' quest receiver receiver' (levels + 1) place h
      fun hobserving hobserving' => ?_
    rw [perform_visit_succ hobserving, perform_visit_succ hobserving']
    exact (listing_parallel remote remote' quest place h).bind_parting
      (fun _ => grows_follow remote receiver quest levels _)
      (fun _ => grows_follow remote' receiver' quest levels _)
      fun node _ _ => follow_parts remote remote' quest receiver receiver' levels
        (fun place _ _ => ih place) (steps quest place (childrenOf node))

/-- **Two searches of one quest part where a question has two answers, or where one of
the receivers has had enough**, and nowhere else. -/
theorem search_parts (h : session'.account = session.account) :
    Parting ((search remote receiver quest).perform session)
      ((search remote' receiver' quest).perform session') :=
  visit_parts remote remote' quest receiver receiver' _ .root h

end Parts

end Discovery
end HeadFinder
