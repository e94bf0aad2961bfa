import HeadFinder.Proofs.Discovery.Course
import HeadFinder.Proofs.Pattern.Covering

/-! # Every access of a search is warranted

A search may list a directory only when a listing reported it and an include
pattern leads on below it, and it may offer a directory only when a listing
reported it and an include pattern ends there.  `Justified` says so of one event
and what went before it; every course of the root consists of justified events
(`Course.accountable`), and enters no place and offers no directory twice for one
listing (`Course.apart`).
-/
namespace HeadFinder.Discovery

/-! ## Warrants -/

/-- The listing that was made for these segments and names reported a child
directory. -/
def Reported (account : List Event) (matched : Pattern) (names : List String) (child : Child) :
    Prop :=
  child.kind = .directory ∧ ∃ earlier revision path node later,
    account = earlier ++ .entered ⟨matched, names, revision⟩ ::
      .listed path revision (.ok node) :: later ∧
    child ∈ childrenOf (some node)

/-- What warrants entering a place below the root. -/
structure EntryWarrant (quest : Quest) (account : List Event) (place : Place) : Prop where
  deep : 1 ≤ place.matched.length
  aligned : place.matched.length = place.names.length
  leadsOn : ∃ pattern ∈ quest.includes, place.matched <+: pattern ∧ place.matched ≠ pattern
  covered : Pattern.covers place.matched place.names = true
  admitted : Pattern.anyCovers quest.excludes place.names = false
  reported : ∃ child, Reported account place.matched.dropLast place.names.dropLast child ∧
    place.names.getLast? = some child.name ∧ place.revision = child.revision

/-- What warrants offering a directory. -/
structure OfferWarrant (quest : Quest) (account : List Event) (pattern : Pattern)
    (names : List String) (child : Child) : Prop where
  asked : pattern ∈ quest.includes
  aligned : pattern.length = names.length
  covered : Pattern.covers pattern names = true
  admitted : Pattern.anyCovers quest.excludes names = false
  reported : Reported account pattern.dropLast names.dropLast child
  named : names.getLast? = some child.name

/-- The account so far ends with an offer and with what the criterion asked about
it. -/
def Judging (before : List Event) (pattern : Pattern) (names : List String) (child : Child) :
    Prop :=
  ∃ earlier asked, before = earlier ++ .offered pattern names child :: asked ∧
    ∀ event ∈ asked, event.IsCheck ∨ ∃ probe, event = .judged probe

/-- What must have gone before an event of a search.  The first listing is that of
the base; every other one follows the entry of a warranted place.  Candidates,
questions and heads belong to the offer before them.  Nothing else happens. -/
def Justified (quest : Quest) (before : List Event) : Event → Prop
  | .entered place => (before = [] ∧ place = .root) ∨ EntryWarrant quest before place
  | .listed path revision _ =>
    (before = [.entered .root] ∧ path = Path.join [quest.base] ∧ revision = Revision.latest) ∨
      ∃ earlier place, before = earlier ++ [.entered place] ∧ EntryWarrant quest earlier place ∧
        path = Path.join (quest.base :: place.names) ∧ revision = place.revision
  | .offered pattern names child => OfferWarrant quest before pattern names child
  | .judged probe => ∃ earlier pattern names child,
      before = earlier ++ [.offered pattern names child] ∧ probe = candidate quest names child
  | .checked .. => ∃ pattern names child, Judging before pattern names child
  | .reported head => ∃ pattern names child, Judging before pattern names child ∧
      head = (candidate quest names child).head
  | _ => False

/-- Each of the events is justified by what went before it. -/
def Accountable (quest : Quest) (before events : List Event) : Prop :=
  ∀ earlier event later, events = earlier ++ event :: later →
    Justified quest (before ++ earlier) event

variable {quest : Quest}

theorem Reported.extend {account : List Event} {matched : Pattern} {names : List String}
    {child : Child} (h : Reported account matched names child) (more : List Event) :
    Reported (account ++ more) matched names child := by
  obtain ⟨hkind, earlier, revision, path, node, later, rfl, hchild⟩ := h
  refine ⟨hkind, earlier, revision, path, node, later ++ more, ?_, hchild⟩
  rw [List.append_assoc, List.cons_append, List.cons_append]

/-- What warrants a step. -/
def Warranted (quest : Quest) (account : List Event) : Step → Prop
  | .enter place => EntryWarrant quest account place
  | .offer pattern names child => OfferWarrant quest account pattern names child

/-- A warrant does not lapse. -/
theorem Warranted.extend {account : List Event} {step : Step} (h : Warranted quest account step)
    (more : List Event) : Warranted quest (account ++ more) step := by
  cases step with
  | offer pattern names child =>
    have h : OfferWarrant quest account pattern names child := h
    exact { h with reported := h.reported.extend more }
  | enter place =>
    have h : EntryWarrant quest account place := h
    obtain ⟨child, hreported, hrest⟩ := h.reported
    exact { h with reported := ⟨child, hreported.extend more, hrest⟩ }

/-- The names of a place match its segments, one by one. -/
def Place.Aligned (place : Place) : Prop :=
  place.matched.length = place.names.length ∧ Pattern.covers place.matched place.names = true

theorem Place.aligned_root : Place.root.Aligned :=
  ⟨rfl, rfl⟩

/-- **A listing warrants every step that it leads to.** -/
theorem warranted_of_mem_steps (earlier later : List Event) (path : String) {place : Place}
    (haligned : place.Aligned) {outcome : Except Failure Node} {step : Step}
    (h : step ∈ steps quest place (childrenOf outcome.toOption)) :
    Warranted quest (earlier ++ .entered place :: .listed path place.revision outcome :: later)
      step := by
  obtain ⟨pattern, wanted, child, hchild, hfits, hdoes⟩ := of_mem_steps h
  obtain ⟨hlen, hcovered⟩ := haligned
  have hreported : Reported
      (earlier ++ .entered place :: .listed path place.revision outcome :: later)
      place.matched place.names child := by
    cases outcome with
    | ok node => exact ⟨hfits.directory, earlier, place.revision, path, node, later, rfl, hchild⟩
    | error failure => cases hchild
  have hlen' : (place.matched ++ [wanted]).length = (place.names ++ [child.name]).length := by
    rw [List.length_append, List.length_append, hlen]
    rfl
  have hcovered' :
      Pattern.covers (place.matched ++ [wanted]) (place.names ++ [child.name]) = true := by
    rw [Pattern.covers_append hlen, hcovered, Pattern.covers_singleton, hfits.named]
    rfl
  cases hdoes with
  | offer heq =>
    subst heq
    exact ⟨hfits.asked, hlen', hcovered', hfits.admitted,
      by rwa [List.dropLast_concat, List.dropLast_concat], List.getLast?_concat⟩
  | enter hne =>
    refine ⟨?_, hlen', ⟨pattern, hfits.asked, hfits.goesOn, Ne.symm hne⟩, hcovered',
      hfits.admitted, child, ?_, List.getLast?_concat, rfl⟩
    · show 1 ≤ (place.matched ++ [wanted]).length
      rw [List.length_append, List.length_singleton]
      omega
    · show Reported _ (place.matched ++ [wanted]).dropLast (place.names ++ [child.name]).dropLast
        child
      rwa [List.dropLast_concat, List.dropLast_concat]

/-! ## Every event of a course is justified -/

theorem Accountable.nil {before : List Event} : Accountable quest before [] := by
  intro earlier event later h
  cases earlier <;> cases h

theorem Accountable.cons {before events : List Event} {event : Event}
    (h : Justified quest before event) (hrest : Accountable quest (before ++ [event]) events) :
    Accountable quest before (event :: events) := by
  intro earlier other later heq
  cases earlier with
  | nil =>
    obtain ⟨rfl, -⟩ := List.cons.inj heq
    rwa [List.append_nil]
  | cons first earlier =>
    obtain ⟨rfl, htail⟩ := List.cons.inj heq
    have := hrest earlier other later htail
    rwa [List.append_assoc] at this

theorem Accountable.append {before first second : List Event}
    (hfirst : Accountable quest before first)
    (hsecond : Accountable quest (before ++ first) second) :
    Accountable quest before (first ++ second) := by
  induction first generalizing before with
  | nil => rwa [List.append_nil] at hsecond
  | cons event first ih =>
    refine .cons ?_ (ih ?_ ?_)
    · have := hfirst [] event first rfl
      rwa [List.append_nil] at this
    · intro earlier other later heq
      have := hfirst (event :: earlier) other later (by rw [heq, List.cons_append])
      rwa [List.append_assoc]
    · rwa [List.append_assoc]

theorem Judging.extend {before : List Event} {pattern : Pattern} {names : List String}
    {child : Child} (h : Judging before pattern names child) {event : Event}
    (hevent : event.IsCheck ∨ ∃ probe, event = .judged probe) :
    Judging (before ++ [event]) pattern names child := by
  obtain ⟨earlier, asked, rfl, hasked⟩ := h
  refine ⟨earlier, asked ++ [event], by rw [List.append_assoc, List.cons_append], ?_⟩
  intro other hother
  rcases List.mem_append.mp hother with hother | hother
  · exact hasked other hother
  · exact List.mem_singleton.mp hother ▸ hevent

/-- The questions about an offer, and the report of its head. -/
theorem Judging.accountable {before : List Event} {pattern : Pattern} {names : List String}
    {child : Child} (h : Judging before pattern names child) {checks told : List Event}
    (hchecks : Checks checks)
    (htold : told = [] ∨ told = [.reported (candidate quest names child).head]) :
    Accountable quest before (checks ++ told) := by
  induction checks generalizing before with
  | nil =>
    rcases htold with rfl | rfl
    · exact .nil
    · exact .cons ⟨pattern, names, child, h, rfl⟩ .nil
  | cons event checks ih =>
    have hcheck := hchecks event (List.mem_cons_self ..)
    refine .cons ?_ (ih (h.extend (Or.inl hcheck))
      fun other hother => hchecks other (List.mem_cons_of_mem _ hother))
    cases event with
    | checked => exact ⟨pattern, names, child, h⟩
    | _ => exact hcheck.elim

theorem Offering.accountable {before events : List Event} {pattern : Pattern}
    {names : List String} {child : Child}
    (hwarrant : OfferWarrant quest before pattern names child)
    (h : Offering quest pattern names child events) : Accountable quest before events := by
  have hjudging : Judging (before ++ [.offered pattern names child]) pattern names child :=
    ⟨before, [], rfl, fun _ h => nomatch h⟩
  cases h with
  | intro hasked htold =>
    refine .cons hwarrant ?_
    rcases hasked with rfl | ⟨checks, rfl, hchecks⟩
    · exact hjudging.accountable Checks.nil htold
    · exact .cons ⟨before, pattern, names, child, rfl, rfl⟩
        ((hjudging.extend (Or.inr ⟨_, rfl⟩)).accountable hchecks htold)

/-- **Warranted steps only lead to justified events.**  By induction on the
course: a listing warrants its own steps, and no warrant lapses. -/
theorem Course.accountable {steps : List Step} {events before : List Event}
    (h : Course quest steps events) (hsteps : ∀ step ∈ steps, Warranted quest before step) :
    Accountable quest before events := by
  induction h generalizing before with
  | done => exact .nil
  | skip h ih => exact ih fun step hstep => hsteps step (List.mem_cons_of_mem _ hstep)
  | offer hoffering h ih =>
    refine .append (hoffering.accountable (hsteps _ (List.mem_cons_self ..))) (ih ?_)
    exact fun step hstep => (hsteps step (List.mem_cons_of_mem _ hstep)).extend _
  | @enter place outcome rest inner later hinner h ihinner ih =>
    have hwarrant : EntryWarrant quest before place := hsteps _ (List.mem_cons_self ..)
    -- The warrant covers the entry, the entry its listing, and the listing what follows.
    refine .cons (Or.inr hwarrant) (.cons (Or.inr ⟨before, place, rfl, hwarrant, rfl, rfl⟩)
      (.append (ihinner ?_) (ih ?_)))
    · intro step hstep
      have := warranted_of_mem_steps before [] (Path.join (quest.base :: place.names))
        ⟨hwarrant.aligned, hwarrant.covered⟩ hstep
      rwa [List.append_assoc]
    · intro step hstep
      have := (hsteps step (List.mem_cons_of_mem _ hstep)).extend
      rw [List.append_assoc, List.append_assoc]
      exact this _

/-- Every event of a whole search is justified. -/
theorem Course.accountable_root {events : List Event} (h : Course quest [.enter .root] events) :
    Accountable quest [] events := by
  cases h with
  | skip h => rw [h.nil_inv]; exact .nil
  | enter hinner h =>
    rw [h.nil_inv, List.append_nil]
    refine .cons (Or.inl ⟨rfl, rfl⟩) (.cons (Or.inl ⟨rfl, rfl, rfl⟩) (hinner.accountable ?_))
    exact fun step hstep =>
      warranted_of_mem_steps [] [] (Path.join [quest.base]) Place.aligned_root hstep

end HeadFinder.Discovery
