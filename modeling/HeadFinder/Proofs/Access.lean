import HeadFinder.Criterion

/-! # Where an action leads

An action of a session succeeds or fails, and it leaves a session either way.
`Ends` speaks about both ways out at once.  There is one rule for each way of
putting actions together, each an equivalence, so that a statement about a
compound action is rewritten into one about its parts.  Nothing after this module
opens the monad.
-/
namespace HeadFinder.Access

variable {σ ρ α β : Type}

/-- From `session` the action either succeeds, with a value and a session that
satisfy `done`, or it fails, with a failure and a session that satisfy `failed`. -/
def Ends (action : Access σ ρ α) (session : Session σ ρ)
    (done : α → Session σ ρ → Prop) (failed : Failure → Session σ ρ → Prop) : Prop :=
  match action session with
  | .ok value after => done value after
  | .error failure after => failed failure after

variable {session : Session σ ρ} {done : α → Session σ ρ → Prop}
  {failed : Failure → Session σ ρ → Prop}

theorem ends_pure {value : α} : Ends (pure value) session done failed ↔ done value session :=
  Iff.rfl

theorem ends_throw {failure : Failure} :
    Ends (throw failure) session done failed ↔ failed failure session :=
  Iff.rfl

theorem bind_of_ok {action : Access σ ρ β} {next : β → Access σ ρ α} {value : β}
    {after : Session σ ρ} (h : action session = .ok value after) :
    (action >>= next) session = next value after := by
  show EStateM.bind action next session = _
  unfold EStateM.bind
  rw [h]

theorem bind_of_error {action : Access σ ρ β} {next : β → Access σ ρ α} {failure : Failure}
    {after : Session σ ρ} (h : action session = .error failure after) :
    (action >>= next) session = .error failure after := by
  show EStateM.bind action next session = _
  unfold EStateM.bind
  rw [h]

theorem ends_bind {action : Access σ ρ β} {next : β → Access σ ρ α} :
    Ends (action >>= next) session done failed ↔
      Ends action session (fun value after => Ends (next value) after done failed) failed := by
  unfold Ends
  cases hrun : action session with
  | ok value after => rw [bind_of_ok hrun]
  | error failure after => rw [bind_of_error hrun]

theorem ends_get {done : Session σ ρ → Session σ ρ → Prop} :
    Ends get session done failed ↔ done session session :=
  Iff.rfl

theorem ends_modify {change : Session σ ρ → Session σ ρ}
    {done : PUnit → Session σ ρ → Prop} :
    Ends (modify change) session done failed ↔ done ⟨⟩ (change session) :=
  Iff.rfl

theorem ends_note {level : Level} {channel text : String}
    {done : Unit → Session σ ρ → Prop} :
    Ends (note level channel text) session done failed ↔
      done () (session.note ⟨level, channel, text⟩) :=
  Iff.rfl

theorem ends_report {receiver : Receiver ρ} {head : Head}
    {done : Unit → Session σ ρ → Prop} :
    Ends (report receiver head) session done failed ↔
      done () { session.record (.reported head) with
        receiver := receiver.report head session.receiver } :=
  Iff.rfl

theorem ends_observing {receiver : Receiver ρ} {done : Bool → Session σ ρ → Prop} :
    Ends (observing receiver) session done failed ↔
      done (receiver.observing session.receiver) session :=
  Iff.rfl

theorem ends_attempt {action : Access σ ρ α}
    {done : Except Failure α → Session σ ρ → Prop} :
    Ends (attempt action) session done failed ↔
      Ends action session (fun value => done (.ok value))
        (fun failure => done (.error failure)) := by
  unfold Ends attempt
  cases action session <;> exact Iff.rfl

/-- The session after a call: the remote has moved on, and the call is on record
with its outcome. -/
def called (event : Except Failure α → Event) (reply : Reply σ α) (session : Session σ ρ) :
    Session σ ρ :=
  { session with
    remote := reply.state
    account := session.account ++ [event reply.outcome]
    log := session.log ++ reply.notes }

/-- An attempted call always succeeds, with the outcome that is put on record. -/
theorem ends_attempt_call {event : Except Failure α → Event} {query : σ → Reply σ α}
    {done : Except Failure α → Session σ ρ → Prop} :
    Ends (attempt (call event query)) session done failed ↔
      done (query session.remote).outcome (called event (query session.remote) session) := by
  rw [ends_attempt]
  unfold Ends call called
  dsimp only
  cases (query session.remote).outcome <;> exact Iff.rfl

/-- Weaker claims about the two ways out follow from stronger ones. -/
theorem Ends.mono {action : Access σ ρ α} {done' : α → Session σ ρ → Prop}
    {failed' : Failure → Session σ ρ → Prop} (h : Ends action session done failed)
    (hdone : ∀ value after, done value after → done' value after)
    (hfailed : ∀ failure after, failed failure after → failed' failure after) :
    Ends action session done' failed' := by
  unfold Ends at h ⊢
  cases hrun : action session with
  | ok value after => rw [hrun] at h; exact hdone value after h
  | error failure after => rw [hrun] at h; exact hfailed failure after h

/-- What holds of every value, every failure and every session holds of the ways out. -/
theorem Ends.of_forall {action : Access σ ρ α} (hdone : ∀ value after, done value after)
    (hfailed : ∀ failure after, failed failure after) : Ends action session done failed := by
  unfold Ends
  cases action session with
  | ok value after => exact hdone value after
  | error failure after => exact hfailed failure after

/-- Two statements about one run hold together. -/
theorem Ends.and {action : Access σ ρ α} {done' : α → Session σ ρ → Prop}
    {failed' : Failure → Session σ ρ → Prop} (h : Ends action session done failed)
    (h' : Ends action session done' failed') :
    Ends action session (fun value after => done value after ∧ done' value after)
      (fun failure after => failed failure after ∧ failed' failure after) := by
  unfold Ends at h h' ⊢
  cases hrun : action session with
  | ok value after => rw [hrun] at h h'; exact ⟨h, h'⟩
  | error failure after => rw [hrun] at h h'; exact ⟨h, h'⟩

/-- What a run comes to under an assumption. -/
theorem Ends.intro_imp {action : Access σ ρ α} {assumed : Prop}
    (h : assumed → Ends action session done failed) :
    Ends action session (fun value after => assumed → done value after)
      (fun failure after => assumed → failed failure after) := by
  unfold Ends at h ⊢
  cases hrun : action session with
  | ok value after => rw [hrun] at h; exact h
  | error failure after => rw [hrun] at h; exact h

/-- A run succeeds or fails. -/
theorem Ends.performed {action : Access σ ρ α} (h : Ends action session done failed) :
    (∃ value, (action.perform session).1 = .ok value ∧
        done value (action.perform session).2) ∨
      ∃ failure, (action.perform session).1 = .error failure ∧
        failed failure (action.perform session).2 := by
  unfold Ends at h
  unfold Access.perform
  cases hrun : action session with
  | ok value after => rw [hrun] at h; exact Or.inl ⟨value, rfl, h⟩
  | error failure after => rw [hrun] at h; exact Or.inr ⟨failure, rfl, h⟩

/-- What holds of the session on both ways out holds of the session that a run
leaves. -/
theorem Ends.perform {action : Access σ ρ α} {left : Session σ ρ → Prop}
    (h : Ends action session (fun _ => left) (fun _ => left)) :
    left (action.perform session).2 := by
  rcases h.performed with ⟨_, -, hleft⟩ | ⟨_, -, hleft⟩
  · exact hleft
  · exact hleft

/-- An action that cannot fail succeeds when it is run. -/
theorem Ends.perform_ok {action : Access σ ρ α} {left : α → Session σ ρ → Prop}
    (h : Ends action session left (fun _ _ => False)) :
    ∃ value, (action.perform session).1 = .ok value ∧ left value (action.perform session).2 := by
  rcases h.performed with hdone | ⟨_, -, hfalse⟩
  · exact hdone
  · exact hfalse.elim

end HeadFinder.Access
