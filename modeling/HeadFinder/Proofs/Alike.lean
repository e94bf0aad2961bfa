import HeadFinder.Proofs.Access

/-! # Two runs side by side

Two remotes that are called in the same way and answer alike give runs that differ
in the states of the remotes only.  `Alike` says so of one action under each of them;
there is one rule for each way of putting actions together.
-/
namespace HeadFinder

/-- Two replies that differ only in the states they leave, which are related. -/
structure Reply.Same {σ τ α : Type} (Rel : σ → τ → Prop) (reply : Reply σ α)
    (reply' : Reply τ α) : Prop where
  outcome : reply'.outcome = reply.outcome
  notes : reply'.notes = reply.notes
  states : Rel reply.state reply'.state

/-- Replies stay the same when the same is made of their outcomes. -/
theorem Reply.Same.map {σ τ α β : Type} {Rel : σ → τ → Prop} {reply : Reply σ α}
    {reply' : Reply τ α} (h : reply.Same Rel reply')
    (change : Except Failure α → Except Failure β) :
    Reply.Same Rel ⟨change reply.outcome, reply.state, reply.notes⟩
      ⟨change reply'.outcome, reply'.state, reply'.notes⟩ :=
  ⟨congrArg change h.outcome, h.notes, h.states⟩

/-- Two sessions that differ only in the states of their remotes, which are related. -/
structure Session.Agree {σ τ ρ : Type} (Rel : σ → τ → Prop) (session : Session σ ρ)
    (session' : Session τ ρ) : Prop where
  remotes : Rel session.remote session'.remote
  receiver : session'.receiver = session.receiver
  account : session'.account = session.account
  log : session'.log = session.log

namespace Session.Agree
variable {σ τ ρ : Type} {Rel : σ → τ → Prop} {session : Session σ ρ} {session' : Session τ ρ}

theorem record (h : session.Agree Rel session') (event : Event) :
    (session.record event).Agree Rel (session'.record event) where
  remotes := h.remotes
  receiver := h.receiver
  account := congrArg (· ++ [event]) h.account
  log := h.log

theorem note (h : session.Agree Rel session') (line : Note) :
    (session.note line).Agree Rel (session'.note line) where
  remotes := h.remotes
  receiver := h.receiver
  account := h.account
  log := congrArg (· ++ [line]) h.log

theorem mono {Rel' : σ → τ → Prop} (h : session.Agree Rel session')
    (hRel : ∀ state state', Rel state state' → Rel' state state') :
    session.Agree Rel' session' where
  remotes := hRel _ _ h.remotes
  receiver := h.receiver
  account := h.account
  log := h.log

end Session.Agree

namespace Access
variable {σ τ ρ α β : Type} {Rel Rel' : σ → τ → Prop}
variable {session : Session σ ρ} {session' : Session τ ρ}

/-- From the two sessions, the two actions come to the same, with sessions that
agree again. -/
def Alike (Rel : σ → τ → Prop) (action : Access σ ρ α) (action' : Access τ ρ α)
    (session : Session σ ρ) (session' : Session τ ρ) : Prop :=
  match action session, action' session' with
  | .ok value after, .ok value' after' => value' = value ∧ after.Agree Rel after'
  | .error failure after, .error failure' after' => failure' = failure ∧ after.Agree Rel after'
  | _, _ => False

/-- Two actions come to the same when both succeed or both fail, with the same. -/
theorem Alike.runs {action : Access σ ρ α} {action' : Access τ ρ α}
    (h : Alike Rel action action' session session') :
    (∃ value after after', action session = .ok value after ∧
      action' session' = .ok value after' ∧ after.Agree Rel after') ∨
    ∃ failure after after', action session = .error failure after ∧
      action' session' = .error failure after' ∧ after.Agree Rel after' := by
  unfold Alike at h
  cases hrun : action session with
  | ok value after =>
    cases hrun' : action' session' with
    | ok value' after' =>
      rw [hrun, hrun'] at h
      obtain ⟨rfl, hagree⟩ := h
      exact Or.inl ⟨value', after, after', rfl, rfl, hagree⟩
    | error failure' after' =>
      rw [hrun, hrun'] at h
      exact h.elim
  | error failure after =>
    cases hrun' : action' session' with
    | ok value' after' =>
      rw [hrun, hrun'] at h
      exact h.elim
    | error failure' after' =>
      rw [hrun, hrun'] at h
      obtain ⟨rfl, hagree⟩ := h
      exact Or.inr ⟨failure', after, after', rfl, rfl, hagree⟩

theorem alike_pure (h : session.Agree Rel session') (value : α) :
    Alike Rel (pure value) (pure value) session session' :=
  ⟨rfl, h⟩

theorem alike_throw (h : session.Agree Rel session') (failure : Failure) :
    Alike Rel (throw failure : Access σ ρ α) (throw failure) session session' :=
  ⟨rfl, h⟩

theorem alike_report (h : session.Agree Rel session') (receiver : Receiver ρ) (head : Head) :
    Alike Rel (report receiver head) (report receiver head) session session' :=
  ⟨rfl, h.remotes, congrArg (receiver.report head) h.receiver,
    congrArg (· ++ [Event.reported head]) h.account, h.log⟩

theorem alike_observing (h : session.Agree Rel session') (receiver : Receiver ρ) :
    Alike Rel (observing receiver) (observing receiver) session session' :=
  ⟨congrArg receiver.observing h.receiver, h⟩

/-- A call comes to the same when the replies do. -/
theorem alike_call {event : Except Failure α → Event} {query : σ → Reply σ α}
    {query' : τ → Reply τ α} (h : session.Agree Rel session')
    (hsame : (query session.remote).Same Rel' (query' session'.remote)) :
    Alike Rel' (call event query) (call event query') session session' := by
  -- What is put on record does not depend on how the call ends.
  have hafter : ∀ outcome : Except Failure α,
      ({ session with
          remote := (query session.remote).state
          account := session.account ++ [event outcome]
          log := session.log ++ (query session.remote).notes } : Session σ ρ).Agree Rel'
        { session' with
          remote := (query' session'.remote).state
          account := session'.account ++ [event outcome]
          log := session'.log ++ (query' session'.remote).notes } := by
    intro outcome
    refine ⟨hsame.states, h.receiver, congrArg (· ++ [event outcome]) h.account, ?_⟩
    show session'.log ++ _ = session.log ++ _
    rw [h.log, hsame.notes]
  unfold Alike call
  dsimp only
  rw [hsame.outcome]
  cases (query session.remote).outcome with
  | ok value => exact ⟨rfl, hafter _⟩
  | error failure => exact ⟨rfl, hafter _⟩

theorem alike_attempt {action : Access σ ρ α} {action' : Access τ ρ α}
    (h : Alike Rel action action' session session') :
    Alike Rel (attempt action) (attempt action') session session' := by
  unfold Alike attempt
  rcases h.runs with ⟨value, after, after', hrun, hrun', hagree⟩ |
    ⟨failure, after, after', hrun, hrun', hagree⟩
  · rw [hrun, hrun']
    exact ⟨rfl, hagree⟩
  · rw [hrun, hrun']
    exact ⟨rfl, hagree⟩

/-- An attempted call comes to the same when the replies do. -/
theorem alike_attempt_call {event : Except Failure α → Event} {query : σ → Reply σ α}
    {query' : τ → Reply τ α} (h : session.Agree Rel session')
    (hsame : (query session.remote).Same Rel' (query' session'.remote)) :
    Alike Rel' (attempt (call event query)) (attempt (call event query')) session session' :=
  alike_attempt (alike_call h hsame)

section Bind
variable {next : β → Access σ ρ α} {next' : β → Access τ ρ α}

/-! Steps that every session takes in the same way need no more than what follows. -/

theorem alike_get_bind {next : Session σ ρ → Access σ ρ α} {next' : Session τ ρ → Access τ ρ α}
    (h : Alike Rel (next session) (next' session') session session') :
    Alike Rel (get >>= next) (get >>= next') session session' :=
  h

theorem alike_note_bind {next : Unit → Access σ ρ α} {next' : Unit → Access τ ρ α} {level : Level}
    {channel text : String}
    (h : Alike Rel (next ()) (next' ()) (session.note ⟨level, channel, text⟩)
      (session'.note ⟨level, channel, text⟩)) :
    Alike Rel (note level channel text >>= next) (note level channel text >>= next')
      session session' :=
  h

theorem alike_record_bind {next : PUnit → Access σ ρ α} {next' : PUnit → Access τ ρ α}
    {event : Event} (h : Alike Rel (next ⟨⟩) (next' ⟨⟩) (session.record event)
      (session'.record event)) :
    Alike Rel (modify (Session.record event) >>= next) (modify (Session.record event) >>= next')
      session session' :=
  h

theorem alike_observing_bind {next : Bool → Access σ ρ α} {next' : Bool → Access τ ρ α}
    {receiver : Receiver ρ} (hreceiver : session'.receiver = session.receiver)
    (h : Alike Rel (next (receiver.observing session.receiver))
      (next' (receiver.observing session.receiver)) session session') :
    Alike Rel (observing receiver >>= next) (observing receiver >>= next') session session' := by
  show Alike Rel (next (receiver.observing session.receiver))
    (next' (receiver.observing session'.receiver)) session session'
  rw [hreceiver]
  exact h

/-- Actions that come to the same may be followed by actions that do, given what is
known of the value between them. -/
theorem Alike.bind_ends {action : Access σ ρ β} {action' : Access τ ρ β} {P : β → Prop}
    (h : Alike Rel action action' session session')
    (hends : Ends action session (fun value _ => P value) (fun _ _ => True))
    (hnext : ∀ value after after', P value → after.Agree Rel after' →
      Alike Rel (next value) (next' value) after after') :
    Alike Rel (action >>= next) (action' >>= next') session session' := by
  rcases h.runs with ⟨value, after, after', hrun, hrun', hagree⟩ |
    ⟨failure, after, after', hrun, hrun', hagree⟩
  · unfold Ends at hends
    rw [hrun] at hends
    unfold Alike
    rw [bind_of_ok hrun, bind_of_ok hrun']
    exact hnext value after after' hends hagree
  · unfold Alike
    rw [bind_of_error hrun, bind_of_error hrun']
    exact ⟨rfl, hagree⟩

/-- Actions that come to the same may be followed by actions that do. -/
theorem Alike.bind {action : Access σ ρ β} {action' : Access τ ρ β}
    (h : Alike Rel action action' session session')
    (hnext : ∀ value after after', after.Agree Rel after' →
      Alike Rel (next value) (next' value) after after') :
    Alike Rel (action >>= next) (action' >>= next') session session' := by
  exact h.bind_ends (P := fun _ => True) (Ends.of_forall (fun _ _ => trivial) fun _ _ => trivial)
    fun value after after' _ => hnext value after after'

end Bind

/-- What comes to the same has the same outcome and the same account. -/
theorem Alike.perform {action : Access σ ρ α} {action' : Access τ ρ α}
    (h : Alike Rel action action' session session') :
    (action'.perform session').1 = (action.perform session).1 ∧
      (action.perform session).2.Agree Rel (action'.perform session').2 := by
  unfold Access.perform
  rcases h.runs with ⟨value, after, after', hrun, hrun', hagree⟩ |
    ⟨failure, after, after', hrun, hrun', hagree⟩
  · rw [hrun, hrun']
    exact ⟨rfl, hagree⟩
  · rw [hrun, hrun']
    exact ⟨rfl, hagree⟩

end Access
end HeadFinder
