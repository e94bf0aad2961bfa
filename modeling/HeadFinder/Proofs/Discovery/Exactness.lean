import HeadFinder.Proofs.Discovery.Service
import HeadFinder.Receiver

/-! # Exactness of a search

What a search reports, as a set, when it is served fixed answers.  The accepted offers of
its tour are the heads below the root (`mem_heads_tour`), and a search completes its tour.
-/
namespace HeadFinder

/-- The heads in an account are exactly those with a property. -/
def Reports (H : Head → Prop) (events : List Event) : Prop :=
  ∀ head, .reported head ∈ events ↔ H head

namespace Discovery
open Access

/-- From `session` the action goes on, with the remote still calm, and it reports
exactly the heads of `H`. -/
def Tells {σ ρ : Type} (receiver : Receiver ρ) (Calm : σ → Prop) (H : Head → Prop)
    (action : Access σ ρ Bool) (session : Session σ ρ) : Prop :=
  Ends action session
    (fun goOn after =>
      goOn = true ∧ Calm after.remote ∧ session.Grew receiver (Reports H) after)
    (fun _ _ => False)

section
variable {σ ρ : Type} {remote : Remote σ} {receiver : Receiver ρ} {quest : Quest}
variable {answer : String → Revision → Except Failure Node} {accepts : Probe → Bool}
variable {Known : List String → Revision → Prop} {Calm : σ → Prop}

/-- The heads of the tour of a search are those of its quest. -/
theorem mem_heads_quest_tour (hserves : Serves ρ remote quest answer accepts Known Calm)
    (hroot : Known [] Revision.latest) {head : Head} :
    head ∈ headsOf accepts quest (quest.tour answer) ↔ IsHead answer accepts quest head :=
  (mem_heads_tour hserves.distinct hserves.descends (fun _ => length_le_levelsBelow) hroot).trans
    headBelow_root

/-- A search from a known root reports exactly the heads of its quest. -/
theorem search_tells (hserves : Serves ρ remote quest answer accepts Known Calm)
    (hobserving : ∀ wants, receiver.observing wants = true) (hroot : Known [] Revision.latest)
    (session : Session σ ρ) (hcalm : Calm session.remote) :
    Tells receiver Calm (IsHead answer accepts quest) (search remote receiver quest) session := by
  refine (search_completes hserves hobserving hroot session hcalm).mono ?_ (fun _ _ h => h)
  rintro goOn after ⟨hgoOn, hafter, hgrew⟩
  refine ⟨hgoOn, hafter, hgrew.mono fun events htours head => ?_⟩
  rw [← Event.mem_heads, htours.heads, mem_heads_quest_tour hserves hroot]

end

/-- **A search is exact.**  Let a remote list every directory as a fixed function of
the path and the revision says, fail for want of a node only and give no directory two
children of one name; let the criterion be a predicate and the receiver never have
enough.  Then a search goes on to its end, and what the receiver has heard is, as a
set, the heads of the quest. -/
theorem search_exact {σ ρ : Type} (remote : Remote σ) (receiver : Receiver ρ) (quest : Quest)
    (answer : String → Revision → Except Failure Node) (accepts : Probe → Bool)
    (state : σ) (wants : ρ)
    (hanswer : ∀ path revision state, (remote.list path revision state).outcome =
      answer path revision)
    (hmissing : ∀ path revision failure, answer path revision = .error failure →
      failure.isMissing = true)
    (hdistinct : ∀ path revision,
      ((childrenOf (answer path revision).toOption).map Child.name).Nodup)
    (haccepts : quest.GoesBy ρ remote accepts)
    (hobserving : ∀ wants, receiver.observing wants = true) :
    let run := (search remote receiver quest).perform (Session.start state wants)
    run.1 = .ok true ∧ run.2.receiver = receiver.hear run.2.account wants ∧
      ∀ head, .reported head ∈ run.2.account ↔ IsHead answer accepts quest head := by
  have hserves := serves_of_fixed hanswer hmissing hdistinct haccepts
  intro run
  obtain ⟨goOn, hresult, rfl, -, events, haccount, hheard, hreports⟩ :=
    Ends.perform_ok (search_tells hserves hobserving trivial (Session.start state wants) trivial)
  have hevents : run.2.account = events := haccount
  rw [hevents]
  exact ⟨hresult, hheard, hreports⟩

/-- The remote without a state that always gives the same answers. -/
def still (answer : String → Revision → Except Failure Node) : Remote Unit where
  connect _ _ := ⟨.ok (), (), []⟩
  list path revision _ := ⟨answer path revision, (), []⟩
  check path revision _ := ⟨(answer path revision).map Node.kind, (), []⟩
  identify _ := ⟨.ok "", (), []⟩
  locate _ _ := ⟨.ok "", (), []⟩
  disconnect _ := ()

/-- A trunk, and a directory of branches with one branch that moved on since. -/
def layout (path : String) (revision : Revision) : Except Failure Node :=
  if path = "" ∧ revision = Revision.latest then
    .ok ⟨.directory, 5,
      some [⟨"branches", .directory, 4, none⟩, ⟨"trunk", .directory, 5, some 50⟩]⟩
  else if path = "branches" ∧ revision = 4 then
    .ok ⟨.directory, 4,
      some [⟨"fix", .directory, 4, some 40⟩, ⟨"notes", .file, 2, some 20⟩]⟩
  else .error (.nodeMissing path revision)

/-- All branches but those that changed last in revision 5. -/
def settled : Quest :=
  ⟨"", [["trunk"], ["branches", "*"]], [["branches", "notes"]],
    some (Criterion.ofPredicate (·.revision < 5)), defaultChannel⟩

theorem search_exact_settled :
    let run := (search (still layout) Receiver.collecting settled).perform
      (Session.start () Roster.empty)
    run.1 = .ok true ∧
      run.2.receiver = Receiver.collecting.hear run.2.account Roster.empty ∧
      ∀ head, .reported head ∈ run.2.account ↔
        IsHead layout (fun probe => decide (probe.revision < 5)) settled head := by
  refine search_exact (still layout) Receiver.collecting settled layout
    (fun probe => decide (probe.revision < 5)) () Roster.empty (fun _ _ _ => rfl) ?_ ?_ ?_
    (fun _ => rfl)
  · intro path revision failure h
    unfold layout at h
    split at h
    · cases h
    · split at h
      · cases h
      · cases h
        rfl
  · intro path revision
    unfold layout
    split
    · decide
    · split
      · decide
      · exact List.nodup_nil
  · intro account probe session
    exact ends_pure.mpr rfl

end Discovery
end HeadFinder
