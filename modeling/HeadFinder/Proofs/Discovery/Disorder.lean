import HeadFinder.Proofs.Discovery.Parting
import HeadFinder.Proofs.Pattern.Order
import HeadFinder.Receiver

/-! # Order does not matter

A search is indifferent to the order of its patterns, to their repetition and to the order
in which a directory lists its children: what has to be done about a listing comes out the
same (`steps_congr`).  So two searches that differ in nothing else go on in step, with the
same questions and the same heads (`search_unordered`).
-/
namespace HeadFinder

/-! ## What differs in order only -/

/-- A node with its children in whatever order. -/
inductive Node.Rearranged : Node → Node → Prop
  | bare (kind : Kind) (revision : Revision) :
      Rearranged ⟨kind, revision, none⟩ ⟨kind, revision, none⟩
  | listing (kind : Kind) (revision : Revision) {children children' : List Child}
      (h : children.Perm children') :
      Rearranged ⟨kind, revision, some children⟩ ⟨kind, revision, some children'⟩

/-- The outcome of a listing, with the children in whatever order. -/
inductive Listed.Rearranged : Except Failure Node → Except Failure Node → Prop
  | ok {node node' : Node} (h : node.Rearranged node') : Rearranged (.ok node) (.ok node')
  | error (failure : Failure) : Rearranged (.error failure) (.error failure)

theorem Listed.Rearranged.refl (outcome : Except Failure Node) : Rearranged outcome outcome := by
  cases outcome with
  | error failure => exact .error failure
  | ok node =>
    obtain ⟨kind, revision, children⟩ := node
    cases children with
    | none => exact .ok (.bare kind revision)
    | some children => exact .ok (.listing kind revision (.refl children))

/-- An event, with the children that it lists in whatever order. -/
inductive Event.Rearranged : Event → Event → Prop
  | listed (path : String) (revision : Revision) {outcome outcome' : Except Failure Node}
      (h : Listed.Rearranged outcome outcome') :
      Rearranged (.listed path revision outcome) (.listed path revision outcome')
  | same (event : Event) : Rearranged event event

/-- An account, with the children of each listing in whatever order. -/
abbrev Rearranged (account account' : List Event) : Prop :=
  List.Forall₂ Event.Rearranged account account'

/-- The criterion does not go by the order in which children were listed. -/
def Criterion.Unordered (criterion : Criterion) : Prop :=
  ∀ account account' probe, Rearranged account account' →
    criterion account' probe = criterion account probe

/-- A remote whose answers depend on the path and the revision alone, failures included, and
that lists no two children of one name. -/
structure Remote.Steady {σ : Type} (remote : Remote σ)
    (answer : String → Revision → Except Failure Node)
    (kind : String → Revision → Except Failure Kind) : Prop where
  lists : ∀ path revision state, (remote.list path revision state).outcome = answer path revision
  checks : ∀ path revision state, (remote.check path revision state).outcome = kind path revision
  distinct : ∀ path revision,
    ((Discovery.childrenOf (answer path revision).toOption).map Child.name).Nodup

/-- What takes no notice of the order of listings finds the same in rearranged accounts. -/
theorem Rearranged.filterMap_eq {α : Type} {f : Event → Option α}
    (hf : ∀ path revision outcome outcome', f (.listed path revision outcome) =
      f (.listed path revision outcome')) {account account' : List Event}
    (h : Rearranged account account') : account'.filterMap f = account.filterMap f := by
  induction h with
  | nil => rfl
  | cons hevent _ ih =>
    rw [List.filterMap_cons, List.filterMap_cons, ih]
    cases hevent with
    | listed path revision _ => rw [hf path revision]
    | same event => rfl

namespace Discovery

/-! ## The steps for a listing -/

theorem childBefore_iff {a b : Child} : childBefore a b = true ↔
    b.revision < a.revision ∨
      a.revision = b.revision ∧ (Pattern.compareText a.name b.name).isLE = true := by
  simp only [childBefore, Bool.or_eq_true, Bool.and_eq_true, decide_eq_true_iff]

theorem childBefore_total (a b : Child) (h : childBefore a b = false) :
    childBefore b a = true := by
  obtain ⟨hrevision, hname⟩ := not_or.mp (mt childBefore_iff.mpr (Bool.eq_false_iff.mp h))
  by_cases heq : a.revision = b.revision
  · -- Names that are not in order are so the other way round.
    refine childBefore_iff.mpr (Or.inr ⟨heq.symm, ?_⟩)
    have hgt := Std.OrientedCmp.lt_of_not_isLE fun hle => hname ⟨heq, hle⟩
    rw [hgt]
    rfl
  · exact childBefore_iff.mpr (Or.inl ((Int.lt_or_gt_of_ne heq).resolve_right hrevision))

theorem childBefore_trans (a b c : Child) (hab : childBefore a b = true)
    (hbc : childBefore b c = true) : childBefore a c = true := by
  rw [childBefore_iff] at hab hbc ⊢
  rcases hab with hab | ⟨hab, hname⟩
  · rcases hbc with hbc | ⟨hbc, -⟩
    · exact Or.inl (Int.lt_trans hbc hab)
    · exact Or.inl (hbc ▸ hab)
  · rcases hbc with hbc | ⟨hbc, hname'⟩
    · exact Or.inl (hab ▸ hbc)
    · exact Or.inr ⟨hab.trans hbc, Std.TransCmp.isLE_trans hname hname'⟩

/-- Children that are not told apart by the order have one name. -/
theorem name_eq_of_childBefore {a b : Child} (hab : childBefore a b = true)
    (hba : childBefore b a = true) : a.name = b.name := by
  rw [childBefore_iff] at hab hba
  rcases hab with hab | ⟨heq, hname⟩
  · rcases hba with hba | ⟨heq, -⟩
    · exact absurd (Int.lt_trans hab hba) (Int.lt_irrefl _)
    · exact absurd (heq ▸ hab) (Int.lt_irrefl _)
  · rcases hba with hba | ⟨-, hname'⟩
    · exact absurd (heq ▸ hba) (Int.lt_irrefl _)
    · exact Pattern.compareText_eq (Std.OrientedCmp.isLE_antisymm hname hname')

/-- **Children with names of their own are met in one order**, however they are listed. -/
theorem directories_congr {children children' : List Child} (h : children.Perm children')
    (hdistinct : (children.map Child.name).Nodup) :
    directories children' = directories children := by
  unfold directories
  refine (Ordered.sort_congr childBefore_total childBefore_trans ?_ (h.filter _)).symm
  intro a ha b hb hab hba
  exact eq_of_name_eq hdistinct (List.mem_of_mem_filter ha) (List.mem_of_mem_filter hb)
    (name_eq_of_childBefore hab hba)

theorem foldl_max_le {lengths : List Nat} {start n : Nat} :
    lengths.foldl max start ≤ n ↔ start ≤ n ∧ ∀ length ∈ lengths, length ≤ n := by
  induction lengths generalizing start with
  | nil => simp
  | cons first rest ih => rw [List.foldl_cons, ih, Nat.max_le, List.forall_mem_cons, and_assoc]

/-- Quests for the same heads: they differ in the order and the repetition of their patterns
only. -/
structure Quest.Same (quest quest' : Quest) : Prop where
  base : quest'.base = quest.base
  includes : Pattern.Same quest.includes quest'.includes
  excludes : Pattern.Same quest.excludes quest'.excludes
  criterion : quest'.criterion = quest.criterion
  channel : quest'.channel = quest.channel

namespace Quest.Same
variable {quest quest' : Quest} (h : quest.Same quest')
include h

theorem stepFor_eq (place : Place) (pattern : Pattern) :
    stepFor quest' place pattern = stepFor quest place pattern := by
  funext child
  unfold stepFor
  simp only [Pattern.anyCovers_congr h.excludes]

/-- **What is done about a listing does not depend on the order of anything.** -/
theorem steps_eq (place : Place) {children children' : List Child}
    (hchildren : children.Perm children') (hdistinct : (children.map Child.name).Nodup) :
    steps quest' place children' = steps quest place children := by
  unfold steps
  simp only [directories_congr hchildren hdistinct, Pattern.group_congr h.includes, h.stepFor_eq]

theorem candidate_eq (names : List String) (child : Child) :
    candidate quest' names child = candidate quest names child := by
  unfold candidate
  rw [h.base]

/-- The patterns reach as deep. -/
theorem levelsBelow_eq (place : Place) :
    levelsBelow quest'.includes place = levelsBelow quest.includes place := by
  have hlength : ∀ n, (quest'.includes.map List.length).foldl max 0 ≤ n ↔
      (quest.includes.map List.length).foldl max 0 ≤ n := by
    intro n
    simp only [foldl_max_le, List.forall_mem_map, h.includes _]
  unfold levelsBelow
  rw [Nat.le_antisymm ((hlength _).mpr (Nat.le_refl _)) ((hlength _).mp (Nat.le_refl _))]

end Quest.Same
end Discovery

/-! ## Runs in step -/

/-- Two sessions that differ in the order of listed children, besides the states of their
remotes and their logs. -/
structure Session.InStep {σ τ ρ : Type} (session : Session σ ρ) (session' : Session τ ρ) :
    Prop where
  receiver : session'.receiver = session.receiver
  account : Rearranged session.account session'.account

namespace Session.InStep
variable {σ τ ρ : Type} {session : Session σ ρ} {session' : Session τ ρ}

theorem add (h : session.InStep session') {event event' : Event}
    (hevent : event.Rearranged event') :
    Rearranged (session.account ++ [event]) (session'.account ++ [event']) :=
  List.rel_append h.account (.cons hevent .nil)

theorem record (h : session.InStep session') (event : Event) :
    (session.record event).InStep (session'.record event) :=
  ⟨h.receiver, h.add (.same event)⟩

theorem note (h : session.InStep session') (line : Note) :
    (session.note line).InStep (session'.note line) :=
  ⟨h.receiver, h.account⟩

end Session.InStep

namespace Access
variable {σ τ ρ α β γ δ : Type}

/-- Two runs that come to related values or fail with one failure, in step. -/
inductive InStep (V : α → β → Prop) :
    Except Failure α × Session σ ρ → Except Failure β × Session τ ρ → Prop
  | ok {value : α} {value' : β} {after : Session σ ρ} {after' : Session τ ρ}
      (hvalue : V value value') (h : after.InStep after') :
      InStep V (.ok value, after) (.ok value', after')
  | error (failure : Failure) {after : Session σ ρ} {after' : Session τ ρ}
      (h : after.InStep after') : InStep V (.error failure, after) (.error failure, after')

variable {session : Session σ ρ} {session' : Session τ ρ}

/-- Runs in step may be followed by runs in step. -/
theorem InStep.bind {V : α → β → Prop} {W : γ → δ → Prop} {action : Access σ ρ α}
    {action' : Access τ ρ β} {next : α → Access σ ρ γ} {next' : β → Access τ ρ δ}
    (h : InStep V (action.perform session) (action'.perform session'))
    (hnext : ∀ value value' after after', V value value' → after.InStep after' →
      InStep W ((next value).perform after) ((next' value').perform after')) :
    InStep W ((action >>= next).perform session) ((action' >>= next').perform session') := by
  rw [perform_bind, perform_bind]
  generalize action.perform session = run at h
  generalize action'.perform session' = run' at h
  cases h with
  | ok hvalue hafter => exact hnext _ _ _ _ hvalue hafter
  | error failure hafter => exact .error failure hafter

/-- Attempted calls that are put on record alike are in step. -/
theorem inStep_attempt_call {event : Except Failure α → Event} {query : σ → Reply σ α}
    {query' : τ → Reply τ α} {outcome outcome' : Except Failure α} (h : session.InStep session')
    (hquery : (query session.remote).outcome = outcome)
    (hquery' : (query' session'.remote).outcome = outcome')
    (hevent : (event outcome).Rearranged (event outcome')) :
    InStep (fun answer answer' => answer = outcome ∧ answer' = outcome')
      ((attempt (call event query)).perform session)
      ((attempt (call event query')).perform session') := by
  rw [perform_attempt_call, perform_attempt_call]
  refine .ok ⟨hquery, hquery'⟩ ⟨h.receiver, ?_⟩
  unfold called
  rw [hquery, hquery']
  exact h.add hevent

/-- What goes on for as long as it is told to stays in step. -/
theorem InStep.goOn {action next : Access σ ρ Bool} {action' next' : Access τ ρ Bool}
    (h : InStep Eq (action.perform session) (action'.perform session'))
    (hnext : ∀ after after', after.InStep after' →
      InStep Eq (next.perform after) (next'.perform after')) :
    InStep Eq
      ((action >>= fun goOn => if goOn = true then next else pure false).perform session)
      ((action' >>= fun goOn => if goOn = true then next' else pure false).perform session') := by
  refine h.bind fun goOn _ after after' heq hafter => ?_
  cases heq
  cases goOn with
  | true => exact hnext after after' hafter
  | false => exact .ok rfl hafter

end Access

namespace Discovery
open Access

variable {σ τ ρ : Type} {remote : Remote σ} {remote' : Remote τ} {quest quest' : Quest}
variable {answer answer' : String → Revision → Except Failure Node}
variable {kind : String → Revision → Except Failure Kind}
variable {session : Session σ ρ} {session' : Session τ ρ}

section Parts
variable (hsteady : remote.Steady answer kind) (hsteady' : remote'.Steady answer' kind)

include hsteady hsteady' in
theorem run_inStep (channel : String) (inquiry : Inquiry) (h : session.InStep session') :
    InStep Eq ((inquiry.run remote channel).perform session)
      ((inquiry.run remote' channel).perform session') := by
  induction inquiry generalizing session session' with
  | verdict accepted => exact .ok rfl h
  | failure cause => exact .error cause h
  | note level text next ih => exact ih (h.note _)
  | check path revision next ih =>
    rw [Inquiry.run, Inquiry.run]
    refine (inStep_attempt_call h (hsteady.checks path revision _)
      (hsteady'.checks path revision _) (.same _)).bind ?_
    rintro _ _ after after' ⟨rfl, rfl⟩ hafter
    exact ih _ hafter

variable (hquest : quest.Same quest')
  (hcriterion : ∀ criterion, quest.criterion = some criterion → criterion.Unordered)

include hsteady hsteady' hquest hcriterion in
/-- A criterion that does not go by the order of listings judges alike. -/
theorem judge_inStep (probe : Probe) (h : session.InStep session') :
    InStep Eq ((judge remote quest probe).perform session)
      ((judge remote' quest' probe).perform session') := by
  unfold judge
  rw [hquest.criterion, hquest.channel]
  cases hsome : quest.criterion with
  | none => exact .ok rfl h
  | some criterion =>
    show InStep Eq (((criterion session.account probe).run remote quest.channel).perform
        (session.record (.judged probe)))
      (((criterion session'.account probe).run remote' quest.channel).perform
        (session'.record (.judged probe)))
    rw [hcriterion criterion hsome _ _ probe h.account]
    exact run_inStep hsteady hsteady' quest.channel _ (h.record _)

include hsteady hsteady' hquest hcriterion in
theorem offer_inStep (receiver : Receiver ρ) (pattern : Pattern) (names : List String)
    (child : Child) (h : session.InStep session') :
    InStep Eq ((offer remote receiver quest pattern names child).perform session)
      ((offer remote' receiver quest' pattern names child).perform session') := by
  unfold offer
  dsimp only
  rw [perform_record_bind, perform_record_bind, perform_note_bind, perform_note_bind,
    hquest.candidate_eq, hquest.channel]
  refine (judge_inStep hsteady hsteady' hquest hcriterion (candidate quest names child)
    ((h.record _).note _)).bind fun accepted _ after after' heq hafter => ?_
  cases heq
  cases accepted with
  | false => exact .ok rfl (hafter.note _)
  | true =>
    have hreported := hafter.record (.reported (candidate quest names child).head)
    refine .ok ?_ ⟨?_, hreported.account⟩
    · exact congrArg (fun wants => receiver.observing
        (receiver.report (candidate quest names child).head wants)) hafter.receiver.symm
    · exact congrArg (receiver.report (candidate quest names child).head) hafter.receiver

/-- Nodes that offer the same children, with names of their own. -/
def Offers (node node' : Option Node) : Prop :=
  (childrenOf node).Perm (childrenOf node') ∧ ((childrenOf node).map Child.name).Nodup

theorem perm_childrenOf {node node' : Node} (h : node.Rearranged node') :
    (childrenOf (some node)).Perm (childrenOf (some node')) := by
  cases h with
  | bare kind revision => exact .refl _
  | listing kind revision hchildren => cases kind <;> first | exact hchildren | exact .refl _

variable (hanswers : ∀ path revision,
  Listed.Rearranged (answer path revision) (answer' path revision))

include hsteady hsteady' hquest hanswers in
/-- A listing hands on the same children, or fails in the same way. -/
theorem listing_inStep (place : Place) (h : session.InStep session') :
    InStep Offers ((listing remote quest place).perform session)
      ((listing remote' quest' place).perform session') := by
  unfold listing
  dsimp only
  rw [perform_note_bind, perform_note_bind, perform_record_bind, perform_record_bind, hquest.base,
    hquest.channel]
  generalize Path.join (quest.base :: place.names) = path
  have hlisted := hanswers path place.revision
  have hdistinct := hsteady.distinct path place.revision
  refine (inStep_attempt_call ((h.note _).record _) (hsteady.lists path place.revision _)
    (hsteady'.lists path place.revision _) (.listed path place.revision hlisted)).bind ?_
  rintro _ _ after after' ⟨rfl, rfl⟩ hafter
  generalize answer path place.revision = outcome at hlisted hdistinct
  generalize answer' path place.revision = outcome' at hlisted
  cases hlisted with
  | ok hnode => exact .ok ⟨perm_childrenOf hnode, hdistinct⟩ hafter
  | error failure =>
    dsimp only
    cases failure.isMissing with
    | true => exact .ok ⟨.refl _, List.nodup_nil⟩ (hafter.note _)
    | false => exact .error failure hafter

include hsteady hsteady' hquest hcriterion in
/-- The same steps are taken in step, when each entry is. -/
theorem follow_inStep (receiver : Receiver ρ) {enter : Place → Access σ ρ Bool}
    {enter' : Place → Access τ ρ Bool}
    (henter : ∀ place (session : Session σ ρ) (session' : Session τ ρ),
      session.InStep session' →
        InStep Eq ((enter place).perform session) ((enter' place).perform session'))
    (steps : List Step) (h : session.InStep session') :
    InStep Eq ((follow remote receiver quest enter steps).perform session)
      ((follow remote' receiver quest' enter' steps).perform session') := by
  induction steps generalizing session session' with
  | nil => exact .ok rfl h
  | cons step rest ih =>
    cases step with
    | offer pattern names child =>
      rw [follow, follow]
      exact (offer_inStep hsteady hsteady' hquest hcriterion receiver pattern names child h).goOn
        fun _ _ => ih
    | enter place =>
      rw [follow, follow]
      exact (henter place _ _ h).goOn fun _ _ => ih

include hsteady hsteady' hquest hcriterion hanswers in
/-- **Visits of one place are in step.**  By induction on the levels. -/
theorem visit_inStep (receiver : Receiver ρ) (levels : Nat) (place : Place)
    (h : session.InStep session') :
    InStep Eq ((visit remote receiver quest levels place).perform session)
      ((visit remote' receiver quest' levels place).perform session') := by
  induction levels generalizing place session session' with
  | zero =>
    cases hobserving : receiver.observing session.receiver with
    | false =>
      rw [perform_visit_of_sated 0 place hobserving,
        perform_visit_of_sated 0 place (h.receiver ▸ hobserving)]
      exact .ok rfl h
    | true =>
      rw [perform_visit_zero hobserving, perform_visit_zero (h.receiver ▸ hobserving)]
      exact (listing_inStep hsteady hsteady' hquest hanswers place h).bind
        fun _ _ _ _ _ hafter => .ok rfl hafter
  | succ levels ih =>
    cases hobserving : receiver.observing session.receiver with
    | false =>
      rw [perform_visit_of_sated _ place hobserving,
        perform_visit_of_sated _ place (h.receiver ▸ hobserving)]
      exact .ok rfl h
    | true =>
      rw [perform_visit_succ hobserving, perform_visit_succ (h.receiver ▸ hobserving)]
      refine (listing_inStep hsteady hsteady' hquest hanswers place h).bind
        fun node node' after after' hoffers hafter => ?_
      rw [hquest.steps_eq place hoffers.1 hoffers.2]
      exact follow_inStep hsteady hsteady' hquest hcriterion receiver
        (fun place _ _ => ih place) _ hafter

include hsteady hsteady' hquest hcriterion hanswers in
/-- **Searches for the same are in step.** -/
theorem search_inStep (receiver : Receiver ρ) (h : session.InStep session') :
    InStep Eq ((search remote receiver quest).perform session)
      ((search remote' receiver quest').perform session') := by
  show InStep Eq
    ((visit remote receiver quest (levelsBelow quest.includes .root) .root).perform session)
    ((visit remote' receiver quest' (levelsBelow quest'.includes .root) .root).perform session')
  rw [hquest.levelsBelow_eq]
  exact visit_inStep hsteady hsteady' hquest hcriterion hanswers receiver _ .root h

end Parts

/-- **The order of patterns and of listings does not show.**  Let two searches start from the
same path, with the same receiver and the same criterion, which may go by anything but the
order of listings.  Let their patterns differ in order and repetition only and the answers of
their remotes, failures included, in the order of the listed children only.  Then they ask the
same questions at the same revisions, report the same heads in the same order, and end with
the same value or the same failure. -/
theorem search_unordered {σ τ ρ : Type} {remote : Remote σ} {remote' : Remote τ}
    {quest quest' : Quest} {answer answer' : String → Revision → Except Failure Node}
    {kind : String → Revision → Except Failure Kind} (hsteady : remote.Steady answer kind)
    (hsteady' : remote'.Steady answer' kind) (hquest : quest.Same quest')
    (hcriterion : ∀ criterion, quest.criterion = some criterion → criterion.Unordered)
    (hanswers : ∀ path revision,
      Listed.Rearranged (answer path revision) (answer' path revision))
    (receiver : Receiver ρ) (state : σ) (state' : τ) (wants : ρ) :
    let run := (search remote receiver quest).perform (Session.start state wants)
    let run' := (search remote' receiver quest').perform (Session.start state' wants)
    run'.1 = run.1 ∧
      run'.2.account.filterMap Event.query? = run.2.account.filterMap Event.query? ∧
      Event.heads run'.2.account = Event.heads run.2.account ∧
      run'.2.receiver = run.2.receiver := by
  intro run run'
  have hinStep : InStep Eq run run' :=
    search_inStep hsteady hsteady' hquest hcriterion hanswers receiver ⟨rfl, .nil⟩
  generalize run = run at hinStep
  generalize run' = run' at hinStep
  cases hinStep with
  | ok heq h =>
    exact ⟨congrArg Except.ok heq.symm, h.account.filterMap_eq fun _ _ _ _ => rfl,
      h.account.filterMap_eq fun _ _ _ _ => rfl, h.receiver⟩
  | error failure h =>
    exact ⟨rfl, h.account.filterMap_eq fun _ _ _ _ => rfl,
      h.account.filterMap_eq fun _ _ _ _ => rfl, h.receiver⟩

/-- What stands in two directories of a root, which lists them in the given order. -/
def shelved (children : List Child) (path : String) : Except Failure Node :=
  if path = "" then .ok ⟨.directory, 3, some children⟩
  else if path = "trunk" then .ok ⟨.directory, 1, some [⟨"x", .directory, 1, none⟩]⟩
  else if path = "vendor" then
    .ok ⟨.directory, 2, some [⟨"y", .directory, 2, none⟩, ⟨"x", .directory, 2, none⟩]⟩
  else .error (.nodeMissing path 3)

/-- A remote of two directories. -/
def shelf (children : List Child) : Remote Unit where
  connect _ _ := ⟨.ok (), (), []⟩
  list path _ _ := ⟨shelved children path, (), []⟩
  check _ _ _ := ⟨.ok .absent, (), []⟩
  identify _ := ⟨.ok "", (), []⟩
  locate _ _ := ⟨.ok "", (), []⟩
  disconnect _ := ()

/-- A quest for what changed in the second revision, with the given patterns. -/
def browsing (includes excludes : List Pattern) : Quest :=
  ⟨"", includes, excludes, some (.ofPredicate fun probe => decide (probe.revision = 2)),
    defaultChannel⟩

theorem steady_shelf {children : List Child} (h : (children.map Child.name).Nodup) :
    (shelf children).Steady (fun path _ => shelved children path) (fun _ _ => .ok .absent) where
  lists _ _ _ := rfl
  checks _ _ _ := rfl
  distinct path _ := by
    unfold shelved
    split
    · exact h
    · split
      · decide
      · split
        · decide
        · exact List.nodup_nil

/-- A search of the shelf for the first such head. -/
def browsed (children : List Child) (includes excludes : List Pattern) :
    Except Failure Bool × Session Unit Roster :=
  (search (shelf children) (.upTo 1) (browsing includes excludes)).perform
    (Session.start () Roster.empty)

theorem search_unordered_shelf :
    let run := browsed [⟨"trunk", .directory, 1, none⟩, ⟨"vendor", .directory, 2, none⟩]
      [["*", "?"], ["trunk", "x"]] [["old"], ["*", "y"]]
    let run' := browsed [⟨"vendor", .directory, 2, none⟩, ⟨"trunk", .directory, 1, none⟩]
      [["trunk", "x"], ["*", "?"], ["trunk", "x"]] [["*", "y"], ["old"]]
    run.1 = .ok false ∧ Event.heads run.2.account = [⟨"vendor/x", 2, none⟩] ∧
      run'.1 = run.1 ∧ Event.heads run'.2.account = Event.heads run.2.account ∧
      run'.2.account.filterMap Event.query? = run.2.account.filterMap Event.query? := by
  have hquest : (browsing [["*", "?"], ["trunk", "x"]] [["old"], ["*", "y"]]).Same
      (browsing [["trunk", "x"], ["*", "?"], ["trunk", "x"]] [["*", "y"], ["old"]]) := by
    refine ⟨rfl, fun pattern => ?_, fun pattern => ?_, rfl, rfl⟩
    · simp only [browsing, List.mem_cons]
      tauto
    · simp only [browsing, List.mem_cons]
      tauto
  have hanswers : ∀ path (_ : Revision), Listed.Rearranged
      (shelved [⟨"trunk", .directory, 1, none⟩, ⟨"vendor", .directory, 2, none⟩] path)
      (shelved [⟨"vendor", .directory, 2, none⟩, ⟨"trunk", .directory, 1, none⟩] path) := by
    intro path _
    unfold shelved
    split
    · exact .ok (.listing _ _ (.swap _ _ []))
    · exact .refl _
  have hunordered : ∀ criterion, (browsing [["*", "?"], ["trunk", "x"]]
      [["old"], ["*", "y"]]).criterion = some criterion → criterion.Unordered := by
    intro criterion h
    cases h
    exact fun _ _ _ _ => rfl
  obtain ⟨hresult, hqueries, hheads, -⟩ := search_unordered (steady_shelf (by decide))
    (steady_shelf (by decide)) hquest hunordered hanswers (.upTo 1) () () Roster.empty
  exact ⟨by decide +kernel, by decide +kernel, hresult, hheads, hqueries⟩

end Discovery
end HeadFinder
