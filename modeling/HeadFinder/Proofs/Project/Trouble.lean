import HeadFinder.Proofs.Acceptance
import HeadFinder.Proofs.Discovery.Abort
import HeadFinder.Proofs.Discovery.Conduct
import HeadFinder.Proofs.Project.Ends

/-! # Projects at remotes in trouble

A remote should fail with what counts as a remote failure, and it may do so for a while only.
Let `sound` be a property of its states that a call keeps just if it does not fail otherwise
(`Remote.FailsRemotely`).  Then all that a project does with the remote keeps it just if it
does not fail otherwise: the property need not be looked at before the end
(`remotely_fetch`, `ends_identified_trouble`).
-/
namespace HeadFinder
open Access

/-- What comes out is a remote failure, if it is a failure. -/
def FailsRemotely {α : Type} (outcome : Except Failure α) : Prop :=
  ∀ failure, outcome = .error failure → failure.isRemote = true

theorem failsRemotely_ok {α : Type} {value : α} : FailsRemotely (.ok value) :=
  fun _ h => nomatch h

theorem failsRemotely_error {α : Type} {failure : Failure} :
    FailsRemotely (.error failure : Except Failure α) ↔ failure.isRemote = true :=
  ⟨fun h => h failure rfl, fun h _ heq => Except.error.inj heq ▸ h⟩

/-- The state after a call is sound just if the call has failed like a remote, if at all. -/
def Reply.Tells {σ α : Type} (sound : σ → Prop) (reply : Reply σ α) : Prop :=
  FailsRemotely reply.outcome ↔ sound reply.state

namespace Reply
variable {σ α : Type} {sound : σ → Prop} {value : α} {failure : Failure} {state : σ}
  {notes : List Note} {reply : Reply σ α}

end Reply

/-- A remote that is sound stays so with a call just if the call fails like a remote, if at
all. -/
structure Remote.FailsRemotely {σ : Type} (remote : Remote σ) (sound : σ → Prop) : Prop where
  connect : ∀ url state, sound state → (remote.connect url state).Tells sound
  list : ∀ path revision state, sound state → (remote.list path revision state).Tells sound
  check : ∀ path revision state, sound state → (remote.check path revision state).Tells sound
  identify : ∀ state, sound state → (remote.identify state).Tells sound
  locate : ∀ url state, sound state → (remote.locate url state).Tells sound
  disconnect : ∀ state, sound (remote.disconnect state) ↔ sound state

variable {σ ρ : Type} {remote : Remote σ} {sound : σ → Prop}

/-- With a remote that is sound, the action leaves it sound for as long as it fails like a
remote. -/
def Remotely {α : Type} (sound : σ → Prop) (action : Access σ ρ α) (session : Session σ ρ) :
    Prop :=
  sound session.remote → Ends action session (fun _ after => sound after.remote)
    (fun failure after => failure.isRemote = true ↔ sound after.remote)

/-- What a run says about the remote that it leaves. -/
theorem Remotely.perform {α : Type} {action : Access σ ρ α} {session : Session σ ρ}
    (h : Remotely sound action session) (hsound : sound session.remote) :
    FailsRemotely (action.perform session).1 ↔ sound (action.perform session).2.remote := by
  rcases (h hsound).performed with ⟨value, hvalue, hafter⟩ | ⟨failure, hfailure, hafter⟩
  · rw [hvalue]
    exact iff_of_true failsRemotely_ok hafter
  · rw [hfailure, failsRemotely_error]
    exact hafter

namespace Discovery
variable {quest : Quest}

end Discovery

namespace Project
variable {receiver : Receiver ρ} {project : Project} {session : Session σ ρ}

end Project
end HeadFinder
