import HeadFinder.Proofs.Discovery.Warrant

/-! # The account of a search

The steps for one listing have different keys, and what lies below one step keeps
apart from what lies below another, because a place tells every place on the way
to it.  So a search enters no pair of segments and names twice, and for one
listing it offers no directory twice.  With the warrants of the single events this
is all there is to the account of a search (`search_justified`).
-/
namespace HeadFinder

/-- The segments and names of an entry. -/
def Event.entry? : Event → Option (Pattern × List String)
  | entered place => some (place.matched, place.names)
  | _ => none

/-- The segments of the listing from which a directory is offered, and the names
of the directory. -/
def Event.offer? : Event → Option (Pattern × List String)
  | offered pattern names _ => some (pattern.dropLast, names)
  | _ => none

namespace Discovery
variable {quest : Quest}

/-- An offer enters no place, and is the only one of its events. -/
theorem Offering.marks {pattern : Pattern} {names : List String} {child : Child}
    {events : List Event} (h : Offering quest pattern names child events) :
    events.filterMap Event.entry? = [] ∧
      events.filterMap Event.offer? = [(pattern.dropLast, names)] := by
  cases h with
  | @intro asked told hasked htold =>
    have hasked : asked.filterMap Event.entry? = [] ∧ asked.filterMap Event.offer? = [] :=
      ⟨List.eq_nil_of_sublist_nil (hasked.filterMap_sublist fun _ _ _ => rfl),
        List.eq_nil_of_sublist_nil (hasked.filterMap_sublist fun _ _ _ => rfl)⟩
    constructor
    · show (asked ++ told).filterMap Event.entry? = []
      rw [List.filterMap_append, hasked.1]
      rcases htold with rfl | rfl <;> rfl
    · show (pattern.dropLast, names) :: (asked ++ told).filterMap Event.offer? = _
      rw [List.filterMap_append, hasked.2]
      rcases htold with rfl | rfl <;> rfl

/-- The entries of an entered place: itself, and those that follow. -/
theorem entries_enter {place : Place} {path : String} {outcome : Except Failure Node}
    {inner later : List Event} :
    (Event.entered place :: .listed path place.revision outcome ::
        (inner ++ later)).filterMap Event.entry? =
      (place.matched, place.names) ::
        (inner.filterMap Event.entry? ++ later.filterMap Event.entry?) :=
  congrArg _ List.filterMap_append

/-- The offers of an entered place are those that follow. -/
theorem offers_enter {place : Place} {path : String} {outcome : Except Failure Node}
    {inner later : List Event} :
    (Event.entered place :: .listed path place.revision outcome ::
        (inner ++ later)).filterMap Event.offer? =
      inner.filterMap Event.offer? ++ later.filterMap Event.offer? :=
  List.filterMap_append

/-- The depth of a step: how many names it has gone down. -/
def Step.AtDepth (depth : Nat) : Step → Prop
  | .enter place => place.matched.length = depth ∧ place.names.length = depth
  | .offer pattern _ _ => pattern.length = depth ∧ 1 ≤ depth

theorem atDepth_of_mem_steps {place : Place} {children : List Child} {depth : Nat}
    (hplace : (Step.enter place).AtDepth depth) {step : Step}
    (h : step ∈ steps quest place children) : step.AtDepth (depth + 1) := by
  obtain ⟨pattern, wanted, child, -, -, hdoes⟩ := of_mem_steps h
  obtain ⟨hmatched, hnames⟩ := hplace
  cases hdoes with
  | offer heq =>
    subst heq
    exact ⟨by rw [List.length_append, List.length_singleton, hmatched], by omega⟩
  | enter =>
    refine ⟨?_, ?_⟩
    · show (place.matched ++ [wanted]).length = depth + 1
      rw [List.length_append, List.length_singleton, hmatched]
    · show (place.names ++ [child.name]).length = depth + 1
      rw [List.length_append, List.length_singleton, hnames]

/-- Whether an entry or an offer is made at a place or below it. -/
def Within (place : Place) (mark : Pattern × List String) : Prop :=
  place.matched <+: mark.1 ∧ place.names <+: mark.2

/-- Two places of one depth with something below both have one key. -/
theorem key_eq_of_within {a b : Place} {depth : Nat} (ha : (Step.enter a).AtDepth depth)
    (hb : (Step.enter b).AtDepth depth) {mark : Pattern × List String} (hwa : Within a mark)
    (hwb : Within b mark) : (Step.enter a).key = (Step.enter b).key := by
  have hmatched : a.matched = b.matched :=
    (List.prefix_of_prefix_length_le hwa.1 hwb.1 (Nat.le_of_eq (by rw [ha.1, hb.1]))).eq_of_length
      (by rw [ha.1, hb.1])
  have hnames : a.names = b.names :=
    (List.prefix_of_prefix_length_le hwa.2 hwb.2 (Nat.le_of_eq (by rw [ha.2, hb.2]))).eq_of_length
      (by rw [ha.2, hb.2])
  simp only [Step.key, hmatched, hnames]

/-- What the entries and offers of a course are, seen from its steps: none comes
twice, each entry is within an entered place, and each offer is one of the steps
or within an entered place. -/
structure Apart (steps : List Step) (events : List Event) : Prop where
  entries_nodup : (events.filterMap Event.entry?).Nodup
  offers_nodup : (events.filterMap Event.offer?).Nodup
  entry_within : ∀ mark ∈ events.filterMap Event.entry?,
    ∃ place, Step.enter place ∈ steps ∧ Within place mark
  offer_within : ∀ mark ∈ events.filterMap Event.offer?,
    (∃ pattern child, Step.offer pattern mark.2 child ∈ steps ∧ mark.1 = pattern.dropLast) ∨
      ∃ place, Step.enter place ∈ steps ∧ Within place mark

theorem Apart.nil {steps : List Step} : Apart steps [] :=
  ⟨List.nodup_nil, List.nodup_nil, (fun _ h => nomatch h), (fun _ h => nomatch h)⟩

theorem Apart.skip {step : Step} {rest : List Step} {events : List Event}
    (h : Apart rest events) : Apart (step :: rest) events where
  entries_nodup := h.entries_nodup
  offers_nodup := h.offers_nodup
  entry_within mark hmark := by
    obtain ⟨place, hplace, hwithin⟩ := h.entry_within mark hmark
    exact ⟨place, List.mem_cons_of_mem _ hplace, hwithin⟩
  offer_within mark hmark := by
    rcases h.offer_within mark hmark with ⟨pattern, child, hstep, heq⟩ | ⟨place, hplace, hwithin⟩
    · exact Or.inl ⟨pattern, child, List.mem_cons_of_mem _ hstep, heq⟩
    · exact Or.inr ⟨place, List.mem_cons_of_mem _ hplace, hwithin⟩

/-- An offer keeps apart from everything after it: the other offers for the
listing have other names, and those below a place have longer segments. -/
theorem Apart.offer {pattern : Pattern} {names : List String} {child : Child} {rest : List Step}
    {events later : List Event} {depth : Nat}
    (hoffering : Offering quest pattern names child events) (h : Apart rest later)
    (hdepth : ∀ step ∈ Step.offer pattern names child :: rest, step.AtDepth depth)
    (hkeys : ((Step.offer pattern names child :: rest).map Step.key).Nodup) :
    Apart (.offer pattern names child :: rest) (events ++ later) := by
  obtain ⟨hentries, hoffers⟩ := hoffering.marks
  have hskip : Apart (.offer pattern names child :: rest) later := h.skip
  have hnew : (pattern.dropLast, names) ∉ later.filterMap Event.offer? := by
    intro hmark
    rcases h.offer_within _ hmark with ⟨other, child', hstep, -⟩ | ⟨place, hplace, hwithin⟩
    · exact (List.nodup_cons.mp hkeys).1 (List.mem_map.mpr ⟨_, hstep, rfl⟩)
    · -- The segments above the pattern are one too few to lie within a place to enter.
      have hlen := hwithin.1.length_le
      have hplace := hdepth _ (List.mem_cons_of_mem _ hplace)
      have hpattern := hdepth _ (List.mem_cons_self ..)
      rw [List.length_dropLast, hplace.1, hpattern.1] at hlen
      have := hpattern.2
      omega
  constructor
  · rw [List.filterMap_append, hentries]
    exact h.entries_nodup
  · rw [List.filterMap_append, hoffers]
    exact List.nodup_cons.mpr ⟨hnew, h.offers_nodup⟩
  · rw [List.filterMap_append, hentries]
    exact hskip.entry_within
  · rw [List.filterMap_append, hoffers]
    intro mark hmark
    rcases List.mem_cons.mp hmark with rfl | hmark
    · exact Or.inl ⟨pattern, child, List.mem_cons_self .., rfl⟩
    · exact hskip.offer_within mark hmark

/-- What follows the listing of a place is within the place, and the entries lie
below it. -/
theorem Apart.within {place : Place} {children : List Child} {inner : List Event}
    (h : Apart (steps quest place children) inner) :
    (∀ mark ∈ inner.filterMap Event.entry?,
        Within place mark ∧ place.matched.length < mark.1.length) ∧
      ∀ mark ∈ inner.filterMap Event.offer?, Within place mark := by
  have hbelow : ∀ below mark, Step.enter below ∈ steps quest place children → Within below mark →
      Within place mark ∧ place.matched.length < mark.1.length := by
    intro below mark hbelow hwithin
    obtain ⟨pattern, wanted, child, -, -, hdoes⟩ := of_mem_steps hbelow
    cases hdoes with
    | enter =>
      refine ⟨⟨(List.prefix_append _ _).trans hwithin.1,
        (List.prefix_append _ _).trans hwithin.2⟩, ?_⟩
      have hlen : (place.matched ++ [wanted]).length ≤ mark.1.length := hwithin.1.length_le
      rw [List.length_append, List.length_singleton] at hlen
      omega
  constructor
  · intro mark hmark
    obtain ⟨below, hmem, hwithin⟩ := h.entry_within mark hmark
    exact hbelow below mark hmem hwithin
  · intro mark hmark
    rcases h.offer_within mark hmark with ⟨pattern, child, hstep, heq⟩ | ⟨below, hmem, hwithin⟩
    · -- An offer for this listing is marked with the segments of the place itself.
      obtain ⟨_, wanted, _, -, -, hdoes⟩ := of_mem_steps hstep
      generalize hnames : mark.2 = names at hdoes
      cases hdoes with
      | offer hpattern =>
        refine ⟨?_, ?_⟩
        · have hmatched : mark.1 = place.matched := by
            rw [heq, hpattern, List.dropLast_concat]
          exact hmatched ▸ List.prefix_refl mark.1
        · rw [hnames]
          exact List.prefix_append _ _
    · exact (hbelow below mark hmem hwithin).1

/-- An entry keeps apart from everything after it. -/
theorem Apart.enter {place : Place} {outcome : Except Failure Node} {rest : List Step}
    {children : List Child} {path : String} {inner later : List Event} {depth : Nat}
    (hinner : Apart (steps quest place children) inner) (h : Apart rest later)
    (hdepth : ∀ step ∈ Step.enter place :: rest, step.AtDepth depth)
    (hkeys : ((Step.enter place :: rest).map Step.key).Nodup) :
    Apart (.enter place :: rest)
      (.entered place :: .listed path place.revision outcome :: (inner ++ later)) := by
  obtain ⟨hentries, hoffers⟩ := hinner.within
  have hplace : (Step.enter place).AtDepth depth := hdepth _ (List.mem_cons_self ..)
  have hself : Within place (place.matched, place.names) :=
    ⟨List.prefix_refl _, List.prefix_refl _⟩
  -- Nothing within another place is within this one: the keys differ.
  have hother : ∀ other mark, Step.enter other ∈ rest → Within place mark →
      ¬ Within other mark := by
    intro other mark hmem hwithin hwithin'
    have hkey := key_eq_of_within hplace (hdepth _ (List.mem_cons_of_mem _ hmem)) hwithin hwithin'
    exact (List.nodup_cons.mp hkeys).1 (List.mem_map.mpr ⟨_, hmem, hkey.symm⟩)
  have hentry : ∀ mark, Within place mark → mark ∉ later.filterMap Event.entry? := by
    intro mark hwithin hmark
    obtain ⟨other, hmem, hwithin'⟩ := h.entry_within mark hmark
    exact hother other mark hmem hwithin hwithin'
  have hoffer : ∀ mark, Within place mark → mark ∉ later.filterMap Event.offer? := by
    intro mark hwithin hmark
    rcases h.offer_within mark hmark with ⟨pattern, child, hstep, heq⟩ | ⟨other, hmem, hwithin'⟩
    · have hlen := hwithin.1.length_le
      have hpattern := hdepth _ (List.mem_cons_of_mem _ hstep)
      rw [heq, List.length_dropLast, hplace.1, hpattern.1] at hlen
      have := hpattern.2
      omega
    · exact hother other mark hmem hwithin hwithin'
  have hskip : Apart (.enter place :: rest) later := h.skip
  constructor
  · rw [entries_enter]
    refine List.nodup_cons.mpr ⟨?_, List.nodup_append.mpr
      ⟨hinner.entries_nodup, h.entries_nodup, ?_⟩⟩
    · intro hmark
      rcases List.mem_append.mp hmark with hmark | hmark
      · exact absurd (hentries _ hmark).2 (Nat.lt_irrefl _)
      · exact hentry _ hself hmark
    · intro a ha b hb hab
      exact hentry a (hentries a ha).1 (hab ▸ hb)
  · rw [offers_enter]
    refine List.nodup_append.mpr ⟨hinner.offers_nodup, h.offers_nodup, ?_⟩
    intro a ha b hb hab
    exact hoffer a (hoffers a ha) (hab ▸ hb)
  · rw [entries_enter]
    intro mark hmark
    rcases List.mem_cons.mp hmark with rfl | hmark
    · exact ⟨place, List.mem_cons_self .., hself⟩
    · rcases List.mem_append.mp hmark with hmark | hmark
      · exact ⟨place, List.mem_cons_self .., (hentries mark hmark).1⟩
      · exact hskip.entry_within mark hmark
  · rw [offers_enter]
    intro mark hmark
    rcases List.mem_append.mp hmark with hmark | hmark
    · exact Or.inr ⟨place, List.mem_cons_self .., hoffers mark hmark⟩
    · exact hskip.offer_within mark hmark

/-- **Steps of one depth with different keys have courses without repetition.** -/
theorem Course.apart {steps : List Step} {events : List Event} {depth : Nat}
    (h : Course quest steps events) (hdepth : ∀ step ∈ steps, step.AtDepth depth)
    (hkeys : (steps.map Step.key).Nodup) : Apart steps events := by
  induction h generalizing depth with
  | done => exact .nil
  | skip h ih =>
    exact (ih (fun step hstep => hdepth step (List.mem_cons_of_mem _ hstep))
      (List.nodup_cons.mp hkeys).2).skip
  | offer hoffering h ih =>
    exact .offer hoffering (ih (fun step hstep => hdepth step (List.mem_cons_of_mem _ hstep))
      (List.nodup_cons.mp hkeys).2) hdepth hkeys
  | @enter place outcome rest inner later hinner h ihinner ih =>
    have hplace : (Step.enter place).AtDepth depth := hdepth _ (List.mem_cons_self ..)
    exact .enter (ihinner (fun step => atDepth_of_mem_steps hplace) (nodup_keys_steps ..))
      (ih (fun step hstep => hdepth step (List.mem_cons_of_mem _ hstep))
        (List.nodup_cons.mp hkeys).2) hdepth hkeys

theorem Course.apart_root {events : List Event} (h : Course quest [.enter .root] events) :
    Apart [.enter .root] events := by
  have hroot : ∀ step ∈ [Step.enter .root], step.AtDepth 0 := by
    intro step hstep
    rw [List.mem_singleton.mp hstep]
    exact ⟨rfl, rfl⟩
  exact h.apart hroot (List.nodup_cons.mpr ⟨List.not_mem_nil, List.nodup_nil⟩)

variable {σ ρ : Type}

/-- **Every access of a search is justified, and none is made twice.**  For every
remote, whatever it answers and however its answers change, every quest and every
receiver, each event of the account is justified by what went before it: the first
listing is that of the base at the latest revision, and every other one that of a
place below a listed one, at the revision reported there, where an include pattern
leads on; candidates and heads are directories that a listing reported, where an
include pattern ends.  No pair of segments and names is entered twice, and no
directory is offered twice from the same segments. -/
theorem search_justified (remote : Remote σ) (receiver : Receiver ρ) (quest : Quest)
    (state : σ) (wants : ρ) :
    let account := ((search remote receiver quest).perform (Session.start state wants)).2.account
    (∀ before event after, account = before ++ event :: after → Justified quest before event) ∧
      (account.filterMap Event.entry?).Nodup ∧ (account.filterMap Event.offer?).Nodup := by
  obtain ⟨events, haccount, -, hcourse⟩ :=
    search_follows_course remote receiver quest (Session.start state wants)
  have hapart := hcourse.apart_root
  intro account
  have hevents : account = events := haccount
  rw [hevents]
  exact ⟨hcourse.accountable_root, hapart.entries_nodup, hapart.offers_nodup⟩

end Discovery
end HeadFinder
