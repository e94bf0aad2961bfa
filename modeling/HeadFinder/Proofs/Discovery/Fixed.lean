import HeadFinder.Proofs.Discovery.Isolation
import HeadFinder.Proofs.Discovery.Record

/-! # Searches of a remote with fixed answers

A remote with fixed answers says the same about a path and a revision whenever it is
asked.  For demands as a criterion this settles which candidates are accepted, which
replies are on record, and which tour a search completes when its receiver never has
enough.
-/
namespace HeadFinder

/-- The answers of a remote depend on the path and the revision alone.  A listing fails for
want of a node only, and gives no two children of one name; asking for a kind never fails. -/
structure Remote.Fixed {σ : Type} (remote : Remote σ)
    (answer : String → Revision → Except Failure Node) (kind : String → Revision → Kind) :
    Prop where
  lists : ∀ path revision state, (remote.list path revision state).outcome = answer path revision
  checks : ∀ path revision state,
    (remote.check path revision state).outcome = .ok (kind path revision)
  missing : ∀ path revision failure, answer path revision = .error failure →
    failure.isMissing = true
  distinct : ∀ path revision,
    ((Discovery.childrenOf (answer path revision).toOption).map Child.name).Nodup

/-- Whether a candidate meets the demands, if any, by the kinds of the paths below it. -/
def Acceptance.accepted (kind : String → Revision → Kind) (demands : Option Acceptance)
    (probe : Probe) : Bool :=
  match demands with
  | none => true
  | some acceptance =>
    acceptance.holds fun path =>
      decide (kind (Path.join [probe.root, path]) probe.revision ≠ .absent)

namespace Discovery
open Access

/-- A remote whose kinds are fixed judges by them. -/
theorem goesBy_accepted {σ : Type} {remote : Remote σ} {kind : String → Revision → Kind} (ρ : Type)
    (hchecks : ∀ path revision state,
      (remote.check path revision state).outcome = .ok (kind path revision))
    (quest : Quest) (demands : Option Acceptance) :
    (quest.demanding demands).GoesBy ρ remote (Acceptance.accepted kind demands) := by
  cases demands with
  | none => exact fun _ => rfl
  | some acceptance =>
    intro account probe session
    have hfinds : Inquiry.Finds remote (fun _ => True) probe fun path =>
        decide (kind (Path.join [probe.root, path]) probe.revision ≠ .absent) := by
      intro path state _
      exact ⟨trivial, _, hchecks _ _ state, rfl⟩
    exact (Acceptance.ask_gives hfinds acceptance session trivial).mono (fun _ _ h => h.1)
      (fun _ _ h => h)

end Discovery

namespace Remote.Fixed
open Discovery Access

variable {σ ρ : Type} {remote : Remote σ}
variable {answer : String → Revision → Except Failure Node} {kind : String → Revision → Kind}
variable (hfixed : remote.Fixed answer kind)
include hfixed

/-- The replies on record are the fixed answers. -/
theorem replied (receiver : Receiver ρ) (quest : Quest) (state : σ) (wants : ρ) :
    Replied (fun _ query => query.told answer kind)
      ((search remote receiver quest).perform (Session.start state wants)).2.account := by
  have hnothing : Replied (fun _ query => query.told answer kind) [] := Replied.nil
  exact search_keeps (Remote.keeps_replied hfixed.lists hfixed.checks) receiver quest
    (Session.start state wants) hnothing

/-- For a receiver that never has enough, a search completes its tour. -/
theorem completes {receiver : Receiver ρ} (hobserving : ∀ wants, receiver.observing wants = true)
    (quest : Quest) (demands : Option Acceptance) (state : σ) (wants : ρ) :
    let run := (search remote receiver (quest.demanding demands)).perform
      (Session.start state wants)
    run.1 = .ok true ∧ run.2.receiver = receiver.hear run.2.account wants ∧
      Tours (Acceptance.accepted kind demands) (quest.demanding demands)
        ((quest.demanding demands).tour answer) run.2.account := by
  have hserves := serves_of_fixed hfixed.lists hfixed.missing hfixed.distinct
    (goesBy_accepted ρ hfixed.checks quest demands)
  obtain ⟨goOn, hresult, rfl, -, hgrew⟩ := Ends.perform_ok
    (search_completes hserves hobserving trivial (Session.start state wants) trivial)
  exact ⟨hresult, hgrew.of_start⟩

/-- The accepted offers of the tour are the heads of the quest. -/
theorem mem_heads (quest : Quest) (demands : Option Acceptance) {head : Head} :
    head ∈ headsOf (Acceptance.accepted kind demands) (quest.demanding demands)
        ((quest.demanding demands).tour answer) ↔
      IsHead answer (Acceptance.accepted kind demands) (quest.demanding demands) head :=
  mem_heads_quest_tour (serves_of_fixed hfixed.lists hfixed.missing hfixed.distinct
    (goesBy_accepted Unit hfixed.checks quest demands)) trivial

end Remote.Fixed

/-- The remote without a state that has these answers. -/
def Remote.ofAnswers (answer : String → Revision → Except Failure Node)
    (kind : String → Revision → Kind) : Remote Unit where
  connect _ _ := ⟨.ok (), (), []⟩
  list path revision _ := ⟨answer path revision, (), []⟩
  check path revision _ := ⟨.ok (kind path revision), (), []⟩
  identify _ := ⟨.ok "", (), []⟩
  locate _ _ := ⟨.ok "", (), []⟩
  disconnect _ := ()

/-! A trunk with two lines below it, as the answers of a remote. -/

namespace Discovery

def lines (path : String) (revision : Revision) : Except Failure Node :=
  if path = "" then .ok ⟨.directory, 2, some [⟨"trunk", .directory, 2, some 2000⟩]⟩
  else if path = "trunk" then
    .ok ⟨.directory, 2, some [⟨"x", .directory, 1, some 1000⟩, ⟨"y", .directory, 2, some 2000⟩]⟩
  else .error (.nodeMissing path revision)

/-- Only the second line has a source file. -/
def linesKind (path : String) (_ : Revision) : Kind :=
  if path = "trunk/y/src" then .file else .absent

theorem fixed_lines : (Remote.ofAnswers lines linesKind).Fixed lines linesKind where
  lists _ _ _ := rfl
  checks _ _ _ := rfl
  missing path revision failure h := by
    unfold lines at h
    split at h
    · cases h
    · split at h <;> cases h
      rfl
  distinct path revision := by
    unfold lines
    split
    · decide
    · split
      · decide
      · exact List.nodup_nil

theorem plain_lines (path : String) (revision : Revision) :
    ∀ child ∈ childrenOf (lines path revision).toOption, Text.Plain child.name := by
  unfold lines Text.Plain
  split
  · decide
  · split
    · decide
    · exact fun _ h => nomatch h

/-- Two patterns lead to the first line, and one to the second. -/
def overlap : Quest :=
  ⟨"", [["*", "x"], ["trunk", "x"], ["trunk", "y"]], [], none, defaultChannel⟩

end Discovery
end HeadFinder
