import HeadFinder.Proofs.Project.Mirror
import HeadFinder.Subversion.Connection

/-! # Clients on record

A process may keep what it is asked and how that ends.  It answers as it would without
(`remote_same`), so the record of a run tells what the client has been asked in any run of
the same kind.
-/
namespace HeadFinder.Subversion

/-- A process that keeps what it was asked and how that ended. -/
def Process.recorded {π : Type} (process : Process π) : Process (π × List (Command × Ending)) :=
  fun command (state, past) =>
    let (ending, state) := process command state
    (ending, state, past ++ [(command, ending)])

section Queries
variable {π : Type}

/-- The same state, with a record. -/
def Kept (state : π) (kept : π × List (Command × Ending)) : Prop :=
  kept.1 = state

variable (process : Process π) (client : Client) (url : String)

theorem query_same (command : Command) (kept : π × List (Command × Ending)) :
    (command.query process kept.1).Same Kept (command.query process.recorded kept) :=
  ⟨rfl, rfl, rfl⟩

theorem probe_same (targets : List String) (kept : π × List (Command × Ending)) :
    (probe process client url targets kept.1).Same Kept
      (probe process.recorded client url targets kept) := by
  induction targets generalizing kept with
  | nil => exact ⟨rfl, rfl, rfl⟩
  | cons target rest ih =>
    have hquery := query_same process ⟨client, .empty, target⟩ kept
    rw [probe, probe]
    dsimp only
    rw [hquery.outcome]
    split
    · have hlater := ih (Command.query process.recorded ⟨client, .empty, target⟩ kept).state
      exact ⟨hlater.outcome, congrArg (_ ++ ·) hlater.notes, hlater.states⟩
    · exact hquery

theorem open_same (kept : π × List (Command × Ending)) :
    (Connection.open process client url kept.1).Same Kept
      (Connection.open process.recorded client url kept) := by
  have hprobe := probe_same process client url (ancestors url) kept
  unfold Connection.open
  dsimp only
  rw [hprobe.outcome, hprobe.notes]
  split
  · exact ⟨rfl, rfl, hprobe.states⟩
  · exact ⟨rfl, rfl, hprobe.states⟩
  · split <;> exact ⟨rfl, rfl, hprobe.states⟩

end Queries

namespace Host
variable {π : Type}

/-- The same host, with a record of its process. -/
structure Kept (host : Host π) (kept : Host (π × List (Command × Ending))) : Prop where
  process : kept.process.1 = host.process
  connection : kept.connection = host.connection

end Host

end HeadFinder.Subversion
