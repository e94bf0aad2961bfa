import HeadFinder.Proofs.Acceptance
import HeadFinder.Proofs.Alike
import HeadFinder.Proofs.Discovery.Ends
import HeadFinder.Proofs.Discovery.Steps

/-! # A search under two remotes

After the root, a search asks at revisions that a listing gave it, and nowhere else.
Two remotes that answer alike at such revisions therefore lead it the same way, however
they differ at others.  `Mirrors` is what has to be known of the two; the induction is
on the levels that are left.
-/
namespace HeadFinder.Discovery
open Access

/-- Two remotes, as long as their states are related, answer alike at some fixed
revisions, and a listing at a fixed revision gives fixed revisions. -/
structure Mirrors {σ τ : Type} (Rel : σ → τ → Prop) (remote : Remote σ) (remote' : Remote τ)
    (Fixed : Revision → Prop) : Prop where
  list : ∀ path revision state state', Rel state state' → Fixed revision →
    (remote.list path revision state).Same Rel (remote'.list path revision state')
  check : ∀ path revision state state', Rel state state' → Fixed revision →
    (remote.check path revision state).Same Rel (remote'.check path revision state')
  gives : ∀ path revision state state', Rel state state' → Fixed revision →
    ∀ child ∈ childrenOf (remote.list path revision state).outcome.toOption, Fixed child.revision

/-- The criterion asks at the revision of the candidate only. -/
def Quest.AsksPinned (quest : Quest) : Prop :=
  ∀ criterion account probe, quest.criterion = some criterion →
    (criterion account probe).AsksAt probe.revision

/-- Demands are put to a candidate at its own revision. -/
theorem asksPinned_of_demands {quest : Quest} {demands : Option Acceptance}
    (h : quest.criterion = demands.map Acceptance.criterion) : quest.AsksPinned := by
  intro criterion account probe hcriterion
  rw [h] at hcriterion
  obtain ⟨acceptance, -, rfl⟩ := Option.map_eq_some_iff.mp hcriterion
  exact acceptance.ask_asksAt probe

variable {σ τ ρ : Type} {Rel : σ → τ → Prop} {remote : Remote σ} {remote' : Remote τ}
variable {Fixed : Revision → Prop} {receiver : Receiver ρ} {quest : Quest}
variable {session : Session σ ρ} {session' : Session τ ρ}

theorem run_alike (hmirrors : Mirrors Rel remote remote' Fixed) (channel : String)
    {revision : Revision} (hfixed : Fixed revision) {inquiry : Inquiry}
    (hasks : inquiry.AsksAt revision) (h : session.Agree Rel session') :
    Alike Rel (inquiry.run remote channel) (inquiry.run remote' channel) session session' := by
  induction inquiry generalizing session session' with
  | verdict accepted => exact alike_pure h accepted
  | failure cause => exact alike_throw h cause
  | note level text next ih =>
    exact alike_note_bind (ih hasks (h.note _))
  | check path asked next ih =>
    obtain ⟨rfl, hasks⟩ := hasks
    have hsame := hmirrors.check path asked _ _ h.remotes hfixed
    exact (alike_attempt_call h hsame).bind fun answer after after' hafter =>
      ih answer (hasks answer) hafter

theorem judge_alike (hmirrors : Mirrors Rel remote remote' Fixed) (hquest : quest.AsksPinned)
    {probe : Probe} (hfixed : Fixed probe.revision) (h : session.Agree Rel session') :
    Alike Rel (judge remote quest probe) (judge remote' quest probe) session session' := by
  unfold judge
  cases hcriterion : quest.criterion with
  | none => exact alike_pure h true
  | some criterion =>
    refine alike_get_bind ?_
    rw [h.account]
    exact alike_record_bind (run_alike hmirrors quest.channel hfixed
      (hquest criterion _ probe hcriterion) (h.record _))

theorem offer_alike (hmirrors : Mirrors Rel remote remote' Fixed) (hquest : quest.AsksPinned)
    (pattern : Pattern) (names : List String) {child : Child} (hfixed : Fixed child.revision)
    (h : session.Agree Rel session') :
    Alike Rel (offer remote receiver quest pattern names child)
      (offer remote' receiver quest pattern names child) session session' := by
  unfold offer
  refine alike_record_bind (alike_note_bind ?_)
  refine (judge_alike hmirrors hquest hfixed ((h.record _).note _)).bind
    fun accepted after after' hafter => ?_
  cases accepted with
  | true =>
    refine alike_note_bind ((alike_report (hafter.note _) receiver _).bind
      fun _ last last' hlast => ?_)
    exact alike_observing hlast receiver
  | false => exact alike_note_bind (alike_pure (hafter.note _) true)

/-- Steps come to the same when each entry does. -/
theorem follow_alike (hmirrors : Mirrors Rel remote remote' Fixed) (hquest : quest.AsksPinned)
    {enter : Place → Access σ ρ Bool} {enter' : Place → Access τ ρ Bool} {steps : List Step}
    (hoffers : ∀ pattern names child, Step.offer pattern names child ∈ steps →
      Fixed child.revision)
    (henter : ∀ place, Step.enter place ∈ steps →
      ∀ (session : Session σ ρ) (session' : Session τ ρ), session.Agree Rel session' →
        Alike Rel (enter place) (enter' place) session session')
    (h : session.Agree Rel session') :
    Alike Rel (follow remote receiver quest enter steps)
      (follow remote' receiver quest enter' steps) session session' := by
  induction steps generalizing session session' with
  | nil => exact alike_pure h true
  | cons step rest ih =>
    have hrest : ∀ goOn (s : Session σ ρ) (s' : Session τ ρ), s.Agree Rel s' →
        Alike Rel (if goOn = true then follow remote receiver quest enter rest else pure false)
          (if goOn = true then follow remote' receiver quest enter' rest else pure false) s s' := by
      intro goOn s s' h
      cases goOn with
      | true =>
        exact ih (fun pattern names child hstep =>
            hoffers pattern names child (List.mem_cons_of_mem _ hstep))
          (fun place hstep => henter place (List.mem_cons_of_mem _ hstep)) h
      | false => exact alike_pure h false
    cases step with
    | offer pattern names child =>
      have hfixed := hoffers pattern names child (List.mem_cons_self ..)
      exact (offer_alike hmirrors hquest pattern names hfixed h).bind hrest
    | enter place => exact (henter place (List.mem_cons_self ..) _ _ h).bind hrest

/-- A listing comes to the same when the replies do. -/
theorem listing_alike {Rel' : σ → τ → Prop} {place : Place} (h : session.Agree Rel session')
    (hlist : (remote.list (Path.join (quest.base :: place.names)) place.revision
        session.remote).Same Rel'
      (remote'.list (Path.join (quest.base :: place.names)) place.revision session'.remote)) :
    Alike Rel' (listing remote quest place) (listing remote' quest place) session session' := by
  unfold listing
  refine alike_note_bind (alike_record_bind ?_)
  refine (alike_attempt_call ((h.note _).record _) hlist).bind fun outcome after after' hafter => ?_
  cases outcome with
  | ok node => exact alike_pure hafter (some node)
  | error failure =>
    dsimp only
    cases failure.isMissing with
    | true => exact alike_note_bind (alike_pure (hafter.note _) none)
    | false => exact alike_throw hafter failure

/-- The children that come of a listing are those of the reply. -/
theorem listing_children (place : Place) (session : Session σ ρ) :
    Ends (listing remote quest place) session
      (fun node _ => ∀ child ∈ childrenOf node,
        child ∈ childrenOf (answered remote quest place session.remote).toOption)
      (fun _ _ => True) := by
  rw [ends_listing]
  cases answered remote quest place session.remote with
  | ok node => exact fun child hchild => hchild
  | error failure =>
    dsimp only
    split
    · exact fun child hchild => nomatch hchild
    · trivial

/-- **A visit comes to the same under both remotes**, if its listing does and gives
fixed revisions. -/
theorem visit_alike_of_listing (hmirrors : Mirrors Rel remote remote' Fixed)
    (hquest : quest.AsksPinned) {Rel' : σ → τ → Prop} (levels : Nat) (place : Place)
    (h : session.Agree Rel' session') (hRel : ∀ state state', Rel' state state' → Rel state state')
    (hlist : (remote.list (Path.join (quest.base :: place.names)) place.revision
        session.remote).Same Rel
      (remote'.list (Path.join (quest.base :: place.names)) place.revision session'.remote))
    (hgives : ∀ child ∈ childrenOf (answered remote quest place session.remote).toOption,
      Fixed child.revision) :
    Alike Rel (visit remote receiver quest levels place) (visit remote' receiver quest levels place)
      session session' := by
  induction levels generalizing place session session' Rel' with
  | zero =>
    rw [visit, visit]
    refine alike_observing_bind h.receiver ?_
    cases receiver.observing session.receiver with
    | true => exact (listing_alike h hlist).bind fun _ after after' hafter => alike_pure hafter true
    | false => exact alike_pure (h.mono hRel) false
  | succ levels ih =>
    rw [visit, visit]
    refine alike_observing_bind h.receiver ?_
    cases receiver.observing session.receiver with
    | false => exact alike_pure (h.mono hRel) false
    | true =>
      refine (listing_alike h hlist).bind_ends (listing_children place session)
        fun node after after' hnode hafter => ?_
      -- Every step goes to a child of this listing, hence to a fixed revision.
      have hfixed : ∀ child ∈ childrenOf node, Fixed child.revision := fun child hchild =>
        hgives child (hnode child hchild)
      refine follow_alike hmirrors hquest (fun pattern names child hstep => ?_)
        (fun below hstep s s' hs => ?_) hafter
      · obtain ⟨_, _, child', hchild, _, hdoes⟩ := of_mem_steps hstep
        cases hdoes
        exact hfixed _ hchild
      · obtain ⟨_, wanted, child, hchild, _, hdoes⟩ := of_mem_steps hstep
        cases hdoes
        have hrevision : Fixed (place.below wanted child).revision := hfixed child hchild
        exact ih (place.below wanted child) hs (fun _ _ h => h)
          (hmirrors.list _ _ _ _ hs.remotes hrevision)
          (hmirrors.gives _ _ _ _ hs.remotes hrevision)

end HeadFinder.Discovery
