import HeadFinder.Discovery
import HeadFinder.Proofs.Access

/-! # Where the parts of a search lead

One equivalence for each part of a search, from putting one candidate to the
criterion up to the whole search.  The later modules take a search apart with
these and never look at its definition.
-/
namespace HeadFinder.Discovery
open Access

variable {σ ρ : Type} {remote : Remote σ} {receiver : Receiver ρ} {quest : Quest}
variable {session : Session σ ρ} {failed : Failure → Session σ ρ → Prop}

theorem ends_judge_none {probe : Probe} {done : Bool → Session σ ρ → Prop}
    (h : quest.criterion = none) :
    Ends (judge remote quest probe) session done failed ↔ done true session := by
  unfold judge
  rw [h]
  exact ends_pure

theorem ends_judge_some {probe : Probe} {criterion : Criterion}
    {done : Bool → Session σ ρ → Prop} (h : quest.criterion = some criterion) :
    Ends (judge remote quest probe) session done failed ↔
      Ends ((criterion session.account probe).run remote quest.channel)
        (session.record (.judged probe)) done failed := by
  unfold judge
  rw [h]
  dsimp only
  rw [ends_bind, ends_get, ends_bind, ends_modify]

/-- An offered candidate is put to the criterion; when it is accepted, its head is
reported and the receiver tells whether to go on. -/
theorem ends_offer {pattern : Pattern} {names : List String} {child : Child}
    {done : Bool → Session σ ρ → Prop} :
    Ends (offer remote receiver quest pattern names child) session done failed ↔
      Ends (judge remote quest (candidate quest names child))
        ((session.record (.offered pattern names child)).note ⟨.info, quest.channel,
          "Checking candidate branch " ++ (candidate quest names child).root ++ "@" ++
            toString (candidate quest names child).revision⟩)
        (fun accepted after =>
          if accepted then
            done (receiver.observing
                (receiver.report (candidate quest names child).head after.receiver))
              { (after.note ⟨.info, quest.channel, "Met criteria"⟩).record
                  (.reported (candidate quest names child).head) with
                receiver := receiver.report (candidate quest names child).head after.receiver }
          else done true (after.note ⟨.info, quest.channel, "Does not meet criteria"⟩))
        failed := by
  unfold offer
  dsimp only
  rw [ends_bind, ends_modify, ends_bind, ends_note, ends_bind]
  have hnext : ∀ (accepted : Bool) (after : Session σ ρ),
      Ends (if accepted = true then do
            Access.note .info quest.channel "Met criteria"
            Access.report receiver (candidate quest names child).head
            Access.observing receiver
          else do
            Access.note .info quest.channel "Does not meet criteria"
            return true) after done failed ↔
        if accepted then
          done (receiver.observing
              (receiver.report (candidate quest names child).head after.receiver))
            { (after.note ⟨.info, quest.channel, "Met criteria"⟩).record
                (.reported (candidate quest names child).head) with
              receiver := receiver.report (candidate quest names child).head after.receiver }
        else done true (after.note ⟨.info, quest.channel, "Does not meet criteria"⟩) := by
    intro accepted after
    cases accepted with
    | true =>
      rw [if_pos rfl, if_pos rfl, ends_bind, ends_note, ends_bind, ends_report, ends_observing]
      exact Iff.rfl
    | false =>
      rw [if_neg Bool.false_ne_true, if_neg Bool.false_ne_true, ends_bind, ends_note, ends_pure]
  simp only [hnext]

/-- The session once a place has been entered and its directory asked for. -/
def entering (remote : Remote σ) (quest : Quest) (place : Place) (session : Session σ ρ) :
    Session σ ρ :=
  let path := Path.join (quest.base :: place.names)
  called (.listed path place.revision) (remote.list path place.revision session.remote)
    ((session.note ⟨.info, quest.channel, "Checking directory " ++ Path.shown path ++ "@" ++
      place.revision.label⟩).record (.entered place))

/-- What the remote answers when a place is listed. -/
def answered (remote : Remote σ) (quest : Quest) (place : Place) (state : σ) :
    Except Failure Node :=
  (remote.list (Path.join (quest.base :: place.names)) place.revision state).outcome

theorem account_entering {place : Place} :
    (entering remote quest place session).account =
      session.account ++ [.entered place,
        .listed (Path.join (quest.base :: place.names)) place.revision
          (answered remote quest place session.remote)] :=
  List.append_assoc ..

/-- A listed directory is handed on, one that is gone is noted, and any other
failure ends the search. -/
theorem ends_listing {place : Place} {done : Option Node → Session σ ρ → Prop} :
    Ends (listing remote quest place) session done failed ↔
      match answered remote quest place session.remote with
      | .ok node => done (some node) (entering remote quest place session)
      | .error failure =>
        if failure.isMissing then
          done none ((entering remote quest place session).note ⟨.debug, quest.channel,
            Path.shown (Path.join (quest.base :: place.names)) ++ " vanished at " ++
              place.revision.label⟩)
        else failed failure (entering remote quest place session) := by
  unfold listing
  dsimp only
  rw [ends_bind, ends_note, ends_bind, ends_modify, ends_bind]
  unfold Access.list
  rw [ends_attempt_call]
  change Ends (match answered remote quest place session.remote with
    | .ok node => pure (some node)
    | .error failure =>
      if failure.isMissing then do
        Access.note .debug quest.channel
          (Path.shown (Path.join (quest.base :: place.names)) ++ " vanished at " ++
            place.revision.label)
        return none
      else throw failure) (entering remote quest place session) done failed ↔ _
  cases answered remote quest place session.remote with
  | ok node => exact ends_pure
  | error failure =>
    dsimp only
    cases failure.isMissing with
    | true => exact ends_bind
    | false => exact ends_throw

theorem ends_follow_nil {enter : Place → Access σ ρ Bool} {done : Bool → Session σ ρ → Prop} :
    Ends (follow remote receiver quest enter []) session done failed ↔ done true session :=
  ends_pure

/-- Taking one step: its action, and how it goes on. -/
def take (remote : Remote σ) (receiver : Receiver ρ) (quest : Quest)
    (enter : Place → Access σ ρ Bool) : Step → Access σ ρ Bool
  | .offer pattern names child => offer remote receiver quest pattern names child
  | .enter place => enter place

theorem ends_follow_cons {enter : Place → Access σ ρ Bool} {step : Step} {rest : List Step}
    {done : Bool → Session σ ρ → Prop} :
    Ends (follow remote receiver quest enter (step :: rest)) session done failed ↔
      Ends (take remote receiver quest enter step) session
        (fun goOn after =>
          if goOn then Ends (follow remote receiver quest enter rest) after done failed
          else done false after) failed := by
  have hnext : ∀ (goOn : Bool) (after : Session σ ρ),
      Ends (if goOn = true then follow remote receiver quest enter rest else pure false)
          after done failed ↔
        if goOn then Ends (follow remote receiver quest enter rest) after done failed
        else done false after := by
    intro goOn after
    cases goOn with
    | true => exact Iff.rfl
    | false => exact Iff.rfl
  cases step with
  | offer pattern names child =>
    rw [follow, ends_bind]
    simp only [hnext]
    exact Iff.rfl
  | enter place =>
    rw [follow, ends_bind]
    simp only [hnext]
    exact Iff.rfl

theorem ends_visit_zero {place : Place} {done : Bool → Session σ ρ → Prop} :
    Ends (visit remote receiver quest 0 place) session done failed ↔
      if receiver.observing session.receiver then
        Ends (listing remote quest place) session (fun _ => done true) failed
      else done false session := by
  rw [visit, ends_bind, ends_observing]
  cases receiver.observing session.receiver with
  | true =>
    rw [if_neg (by decide), ends_bind]
    exact Iff.rfl
  | false => exact Iff.rfl

theorem ends_visit_succ {levels : Nat} {place : Place} {done : Bool → Session σ ρ → Prop} :
    Ends (visit remote receiver quest (levels + 1) place) session done failed ↔
      if receiver.observing session.receiver then
        Ends (listing remote quest place) session
          (fun node after =>
            Ends (follow remote receiver quest (visit remote receiver quest levels)
              (steps quest place (childrenOf node))) after done failed) failed
      else done false session := by
  rw [visit, ends_bind, ends_observing]
  cases receiver.observing session.receiver with
  | true =>
    rw [if_neg (by decide), ends_bind]
    exact Iff.rfl
  | false => exact Iff.rfl

/-- A search visits the root, which is never misplaced. -/
theorem ends_search {done : Bool → Session σ ρ → Prop} :
    Ends (search remote receiver quest) session done failed ↔
      Ends (visit remote receiver quest (levelsBelow quest.includes .root) .root)
        session done failed :=
  Iff.rfl

end HeadFinder.Discovery
