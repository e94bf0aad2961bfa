import HeadFinder.Project
import HeadFinder.Proofs.Access

/-! # Where the operations of a project lead

One equivalence for each way in which an operation uses a session of the remote, from a
single call to looking for all heads.  What an operation does between opening the session
and closing it is left to the rules for that part.
-/
namespace HeadFinder

namespace Access
variable {σ ρ α : Type} {session : Session σ ρ} {failed : Failure → Session σ ρ → Prop}

/-- A call succeeds or fails as the remote says, and is on record either way. -/
theorem ends_call {event : Except Failure α → Event} {query : σ → Reply σ α}
    {done : α → Session σ ρ → Prop} :
    Ends (call event query) session done failed ↔
      match (query session.remote).outcome with
      | .ok answer => done answer (called event (query session.remote) session)
      | .error failure => failed failure (called event (query session.remote) session) := by
  unfold Ends call called
  dsimp only
  cases (query session.remote).outcome with
  | ok answer => exact Iff.rfl
  | error failure => exact Iff.rfl

/-- A call that is known to be answered succeeds. -/
theorem ends_call_ok {event : Except Failure α → Event} {query : σ → Reply σ α}
    {done : α → Session σ ρ → Prop} {answer : α} {state : σ} {notes : List Note}
    (h : query session.remote = ⟨.ok answer, state, notes⟩) :
    Ends (call event query) session done failed ↔
      done answer (called event ⟨.ok answer, state, notes⟩ session) := by
  rw [ends_call, h]

/-- An action whose value is thrown away. -/
theorem ends_discard {action : Access σ ρ α} {done : PUnit → Session σ ρ → Prop} :
    Ends (discard action) session done failed ↔
      Ends action session (fun _ => done ⟨⟩) failed := by
  have hdiscard : (discard action : Access σ ρ PUnit) session =
      EStateM.map (fun _ => ⟨⟩) action session := rfl
  unfold Ends
  rw [hdiscard, EStateM.map]
  cases action session with
  | ok value after => exact Iff.rfl
  | error failure after => exact Iff.rfl

/-- The session once the remote has been left. -/
def left (remote : Remote σ) (session : Session σ ρ) : Session σ ρ :=
  { session.record .disconnected with remote := remote.disconnect session.remote }

/-- The remote is left however the action ends. -/
theorem ends_ensuring_disconnect {remote : Remote σ} {action : Access σ ρ α}
    {done : α → Session σ ρ → Prop} :
    Ends (ensuring action (disconnect remote)) session done failed ↔
      Ends action session (fun value after => done value (left remote after))
        (fun failure after => failed failure (left remote after)) := by
  unfold Ends ensuring
  cases action session with
  | ok value after => exact Iff.rfl
  | error failure after => exact Iff.rfl

/-- An action in a session of its own: the session is opened, and closed again. -/
theorem ends_connected {remote : Remote σ} {url : String} {action : Access σ ρ α}
    {done : α → Session σ ρ → Prop} :
    Ends (connected remote url action) session done failed ↔
      Ends (connect remote url) session
        (fun _ opened => Ends action opened (fun value after => done value (left remote after))
          (fun failure after => failed failure (left remote after)))
        failed := by
  unfold connected
  rw [ends_bind]
  simp only [ends_ensuring_disconnect]

end Access

namespace Project
open Access

variable {σ ρ : Type} {remote : Remote σ} {receiver : Receiver ρ} {project : Project}
variable {session : Session σ ρ} {failed : Failure → Session σ ρ → Prop}

/-- The log line before a session is opened. -/
def opening (project : Project) : Note :=
  ⟨.info, channel, "Opening connection to " ++ project.base⟩

/-- The log line after a remote failure. -/
def trouble : Note :=
  ⟨.error, channel, "Could not communicate with Subversion server"⟩

/-- A project's heads are looked for below its own path, in a session of its own; a remote
failure is noted and goes on its way like any other. -/
theorem ends_fetch {done : Unit → Session σ ρ → Prop} :
    Ends (project.fetch remote receiver) session done failed ↔
      Ends (connected remote project.base (do
          let base ← locate remote project.base
          discard <| Discovery.search remote receiver (project.quest base)))
        (session.note project.opening) done
        (fun failure after =>
          failed failure (if failure.isRemote then after.note trouble else after)) := by
  unfold fetch announce
  rw [ends_bind, ends_note, ends_bind, ends_attempt]
  refine iff_of_eq (congrArg _ (funext fun failure => funext fun after => ?_))
  dsimp only
  cases failure.isRemote with
  | true => rfl
  | false => rfl

/-- A head is looked up by one listing in a session of its own. -/
theorem ends_fetchHead {name : String} {done : Head → Session σ ρ → Prop} :
    Ends (project.fetchHead remote name) session done failed ↔
      Ends (connected remote project.base (do
          let base ← locate remote project.base
          match ← attempt (list remote (Path.join [base, name]) Revision.latest) with
          | .ok node => pure node
          | .error failure => throw (if failure.isMissing then .headMissing name else failure)))
        (session.note project.opening)
        (fun node after =>
          if node.kind = .absent then failed (.headMissing name) after
          else done ⟨Text.trimSlashes name, node.revision, none⟩ after)
        failed := by
  unfold fetchHead announce
  rw [ends_bind, ends_note, ends_bind]
  refine iff_of_eq (congrArg (fun done => Ends _ _ done _)
    (funext fun node => funext fun after => ?_))
  by_cases habsent : node.kind = .absent
  · rw [if_pos habsent, if_pos habsent]
    rfl
  · rw [if_neg habsent, if_neg habsent]
    rfl

/-- The log line when a remote failure leaves the identity of the repository unknown. -/
def unidentified (project : Project) : Note :=
  ⟨.warning, channel,
    "Could not connect to remote repository " ++ project.base ++ " to determine UUID"⟩

/-- The identity of the repository is asked for in a session of its own, unless it is
known; a remote failure is noted and leaves it unknown. -/
theorem ends_identified {done : Project → Session σ ρ → Prop} :
    Ends (project.identified remote) session done failed ↔
      if project.identity.isSome then done project session
      else Ends (connected remote project.base (identify remote)) session
        (fun identity => done { project with identity := some identity })
        (fun failure after =>
          if failure.isRemote then done project (after.note project.unidentified)
          else failed failure after) := by
  unfold identified
  cases project.identity.isSome with
  | true => exact Iff.rfl
  | false =>
    rw [if_neg Bool.false_ne_true, if_neg Bool.false_ne_true, ends_bind, ends_attempt]
    refine iff_of_eq (congrArg _ (funext fun failure => funext fun after => ?_))
    dsimp only
    cases failure.isRemote with
    | true => rfl
    | false => rfl

end Project
end HeadFinder
