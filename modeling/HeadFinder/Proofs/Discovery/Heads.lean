import HeadFinder.Proofs.Discovery.Steps
import HeadFinder.Proofs.Path
import HeadFinder.Proofs.Pattern.Covering

/-! # Which heads there are

A head is the end of a chain of directories, each listed by the one before it at
the revision reported there, whose names complete an include pattern and no
exclude pattern.  Chains say nothing of groups, of what has been done before or of
levels; that the steps of a search come to the same is `headBelow_iff_step`.
-/
namespace HeadFinder.Discovery

/-- The child directories that an answer lists. -/
def subdirectories (answer : Except Failure Node) : List Child :=
  (childrenOf answer.toOption).filter (·.kind = .directory)

/-- Directories that lead down from the directory with these names at this
revision.  Each is in the listing of the one before it, which is read at the
revision that its own parent's listing gave. -/
inductive Chain (answer : String → Revision → Except Failure Node) (base : String) :
    List String → Revision → List Child → Prop
  | last {names : List String} {revision : Revision} {child : Child} :
      child ∈ subdirectories (answer (Path.join (base :: names)) revision) →
      Chain answer base names revision [child]
  | next {names : List String} {revision : Revision} {child : Child} {rest : List Child} :
      child ∈ subdirectories (answer (Path.join (base :: names)) revision) →
      Chain answer base (names ++ [child.name]) child.revision rest →
      Chain answer base names revision (child :: rest)

/-- A head of a quest, given what the remote answers and what the criterion
accepts. -/
def IsHead (answer : String → Revision → Except Failure Node) (accepts : Probe → Bool)
    (quest : Quest) (head : Head) : Prop :=
  ∃ above child, Chain answer quest.base [] Revision.latest (above ++ [child]) ∧
    let names := (above ++ [child]).map Child.name
    (∃ pattern ∈ quest.includes, pattern.length = names.length ∧
      Pattern.covers pattern names = true) ∧
    Pattern.anyCovers quest.excludes names = false ∧
    accepts (candidate quest names child) = true ∧
    head = ⟨"/".intercalate names, child.revision, child.modified⟩

variable {answer : String → Revision → Except Failure Node} {accepts : Probe → Bool}
variable {quest : Quest}

theorem mem_subdirectories {outcome : Except Failure Node} {child : Child} :
    child ∈ subdirectories outcome ↔
      child ∈ childrenOf outcome.toOption ∧ child.kind = .directory := by
  rw [subdirectories, List.mem_filter, decide_eq_true_iff]

/-- The heads at and below a place: an include pattern goes on from its segments,
and what follows covers the names that follow. -/
def HeadBelow (answer : String → Revision → Except Failure Node) (accepts : Probe → Bool)
    (quest : Quest) (place : Place) (head : Head) : Prop :=
  ∃ above child, Chain answer quest.base place.names place.revision (above ++ [child]) ∧
    let names := (above ++ [child]).map Child.name
    (∃ globs, place.matched ++ globs ∈ quest.includes ∧ globs.length = names.length ∧
      Pattern.covers globs names = true) ∧
    Pattern.anyCovers quest.excludes (place.names ++ names) = false ∧
    accepts (candidate quest (place.names ++ names) child) = true ∧
    head = (candidate quest (place.names ++ names) child).head

theorem headBelow_root {head : Head} :
    HeadBelow answer accepts quest .root head ↔ IsHead answer accepts quest head :=
  Iff.rfl

/-- The heads that a step leads to. -/
def HeadOf (answer : String → Revision → Except Failure Node) (accepts : Probe → Bool)
    (quest : Quest) : Step → Head → Prop
  | .offer _ names child, head =>
    accepts (candidate quest names child) = true ∧ head = (candidate quest names child).head
  | .enter place, head => HeadBelow answer accepts quest place head

/-- No head lies below a place that no pattern goes on from. -/
theorem not_headBelow {place : Place} {head : Head}
    (h : ∀ pattern ∈ quest.includes, pattern.length ≤ place.matched.length) :
    ¬ HeadBelow answer accepts quest place head := by
  rintro ⟨above, child, -, ⟨globs, hincluded, hlen, -⟩, -⟩
  have := h _ hincluded
  rw [List.length_append, hlen, List.length_map, List.length_append, List.length_singleton] at this
  omega

section Steps
variable {place : Place} {head : Head}

/-- A chain that goes on starts with a step down. -/
theorem Chain.uncons {base : String} {names : List String} {revision : Revision} {child : Child}
    {rest : List Child} (h : Chain answer base names revision (child :: rest)) :
    child ∈ subdirectories (answer (Path.join (base :: names)) revision) ∧
      (rest ≠ [] → Chain answer base (names ++ [child.name]) child.revision rest) := by
  cases h with
  | last hchild => exact ⟨hchild, fun h => absurd rfl h⟩
  | next hchild hrest => exact ⟨hchild, fun _ => hrest⟩

/-- The names down to the first of some children, and those that follow it. -/
theorem append_names_cons (names : List String) (first : Child) (rest : List Child) :
    names ++ (first :: rest).map Child.name = (names ++ [first.name]) ++ rest.map Child.name := by
  rw [List.map_cons, List.append_assoc, List.singleton_append]

/-- **Every head below a place is the head of a step for its listing.** -/
theorem HeadBelow.exists_step
    (hnames : ((childrenOf (answer (Path.join (quest.base :: place.names))
      place.revision).toOption).map Child.name).Nodup)
    (h : HeadBelow answer accepts quest place head) :
    ∃ step ∈ steps quest place (childrenOf (answer (Path.join (quest.base :: place.names))
      place.revision).toOption), HeadOf answer accepts quest step head := by
  obtain ⟨above, child, hchain, ⟨globs, hincluded, hlen, hcovers⟩, hadmitted, haccepts, hhead⟩ := h
  cases above with
  | nil =>
    -- The chain ends in this listing, and so does the pattern.
    obtain ⟨wanted, rfl⟩ : ∃ wanted, globs = [wanted] := List.length_eq_one_iff.mp hlen
    obtain ⟨hmem, hkind⟩ := mem_subdirectories.mp hchain.uncons.1
    have hfits : Fits quest place (place.matched ++ [wanted]) wanted child :=
      ⟨hincluded, List.prefix_refl _, hkind, Pattern.covers_singleton ▸ hcovers, hadmitted⟩
    obtain ⟨other, hstep⟩ := offer_mem_steps hnames hmem hfits rfl
    exact ⟨_, hstep, haccepts, hhead⟩
  | cons first above =>
    -- The chain goes on below a child, which the longer pattern has entered.
    obtain ⟨hfirst, hrest⟩ := hchain.uncons
    obtain ⟨hmem, hkind⟩ := mem_subdirectories.mp hfirst
    cases globs with
    | nil => cases hlen
    | cons wanted globs =>
      simp only [List.cons_append, List.map_cons, Pattern.covers, Bool.and_eq_true] at hcovers
      rw [List.cons_append, append_names_cons] at hadmitted haccepts hhead
      have hfits : Fits quest place (place.matched ++ wanted :: globs) wanted first :=
        ⟨hincluded, ⟨globs, by rw [List.append_assoc, List.singleton_append]⟩, hkind, hcovers.1,
          Pattern.anyCovers_of_extend hadmitted⟩
      have hne : place.matched ++ wanted :: globs ≠ place.matched ++ [wanted] := by
        intro heq
        have hglobs : globs = [] := (List.cons.inj (List.append_cancel_left heq)).2
        rw [hglobs, List.length_map, List.length_append, List.length_singleton] at hlen
        simp at hlen
      refine ⟨_, enter_mem_steps hnames hmem hfits hne, above, child, hrest (by simp),
        ⟨globs, ?_, Nat.succ.inj hlen, hcovers.2⟩, hadmitted, haccepts, hhead⟩
      show (place.matched ++ [wanted]) ++ globs ∈ quest.includes
      rwa [List.append_assoc, List.singleton_append]

/-- **Every head of a step for a place's listing is a head below it.** -/
theorem HeadBelow.of_step {step : Step}
    (hstep : step ∈ steps quest place (childrenOf (answer (Path.join (quest.base :: place.names))
      place.revision).toOption))
    (h : HeadOf answer accepts quest step head) : HeadBelow answer accepts quest place head := by
  obtain ⟨pattern, wanted, child, hmem, hfits, hdoes⟩ := of_mem_steps hstep
  have hchild := mem_subdirectories.mpr ⟨hmem, hfits.directory⟩
  cases hdoes with
  | offer heq =>
    subst heq
    exact ⟨[], child, .last hchild, ⟨[wanted], hfits.asked, rfl,
      Pattern.covers_singleton.trans hfits.named⟩, hfits.admitted, h.1, h.2⟩
  | enter =>
    obtain ⟨above, last, hchain, ⟨globs, hincluded, hlen, hcovers⟩, hadmitted, haccepts, hhead⟩ := h
    have hgoesOn : place.matched ++ wanted :: globs ∈ quest.includes := by
      have : (place.matched ++ [wanted]) ++ globs ∈ quest.includes := hincluded
      rwa [List.append_assoc, List.singleton_append] at this
    have hcovers' : Pattern.covers (wanted :: globs) (((child :: above) ++ [last]).map Child.name) =
        true := by
      simp only [List.cons_append, List.map_cons, Pattern.covers, Bool.and_eq_true]
      exact ⟨hfits.named, hcovers⟩
    refine ⟨child :: above, last, .next hchild hchain, ⟨wanted :: globs, hgoesOn,
      congrArg Nat.succ hlen, hcovers'⟩, ?_⟩
    rw [List.cons_append, append_names_cons]
    exact ⟨hadmitted, haccepts, hhead⟩

/-- The heads below a place are those of the steps for its listing. -/
theorem headBelow_iff_step
    (hnames : ((childrenOf (answer (Path.join (quest.base :: place.names))
      place.revision).toOption).map Child.name).Nodup) :
    HeadBelow answer accepts quest place head ↔
      ∃ step ∈ steps quest place (childrenOf (answer (Path.join (quest.base :: place.names))
        place.revision).toOption), HeadOf answer accepts quest step head :=
  ⟨fun h => h.exists_step hnames, fun ⟨_, hstep, h⟩ => .of_step hstep h⟩

end Steps

/-! ## A name tells the head -/

section Names
variable (hdistinct : ∀ path revision,
  ((childrenOf (answer path revision).toOption).map Child.name).Nodup)
include hdistinct

/-- In listings without repeated names, names tell the chain. -/
theorem Chain.eq_of_names {base : String} {names : List String} {revision : Revision}
    {chain chain' : List Child} (h : Chain answer base names revision chain)
    (h' : Chain answer base names revision chain')
    (heq : chain.map Child.name = chain'.map Child.name) : chain = chain' := by
  induction chain generalizing names revision chain' with
  | nil => exact (List.map_eq_nil_iff.mp heq.symm).symm
  | cons child rest ih =>
    cases chain' with
    | nil => cases heq
    | cons child' rest' =>
      obtain ⟨hname, hnames⟩ := List.cons.inj heq
      obtain ⟨hchild, hrest⟩ := h.uncons
      obtain ⟨hchild', hrest'⟩ := h'.uncons
      obtain rfl : child = child' := eq_of_name_eq (hdistinct _ _)
        (mem_subdirectories.mp hchild).1 (mem_subdirectories.mp hchild').1 hname
      by_cases hnil : rest = []
      · rw [hnil] at hnames ⊢
        rw [List.map_eq_nil_iff.mp hnames.symm]
      · have hnil' : rest' ≠ [] := by
          intro hnil'
          rw [hnil'] at hnames
          exact hnil (List.map_eq_nil_iff.mp hnames)
        rw [ih (hrest hnil) (hrest' hnil') hnames]

end Names

theorem Chain.mem_listing {base : String} {names : List String} {revision : Revision}
    {chain : List Child} (h : Chain answer base names revision chain) {child : Child}
    (hmem : child ∈ chain) :
    ∃ path revision, child ∈ childrenOf (answer path revision).toOption := by
  induction h with
  | last hchild =>
    rw [List.mem_singleton.mp hmem]
    exact ⟨_, _, (mem_subdirectories.mp hchild).1⟩
  | next hchild _ ih =>
    rcases List.mem_cons.mp hmem with rfl | hmem
    · exact ⟨_, _, (mem_subdirectories.mp hchild).1⟩
    · exact ih hmem

/-- **Heads of one name are one head**, if no listing repeats a name and no name has a
slash. -/
theorem IsHead.eq_of_name
    (hdistinct : ∀ path revision,
      ((childrenOf (answer path revision).toOption).map Child.name).Nodup)
    (hslash : ∀ path revision, ∀ child ∈ childrenOf (answer path revision).toOption,
      '/' ∉ child.name.toList)
    {head head' : Head} (h : IsHead answer accepts quest head)
    (h' : IsHead answer accepts quest head') (hname : head.name = head'.name) : head = head' := by
  obtain ⟨above, child, hchain, -, -, -, rfl⟩ := h
  obtain ⟨above', child', hchain', -, -, -, rfl⟩ := h'
  have hsplit : ∀ above child, Chain answer quest.base [] Revision.latest (above ++ [child]) →
      Text.split '/' ("/".intercalate ((above ++ [child]).map Child.name)) =
        (above ++ [child]).map Child.name := by
    intro above child hchain
    refine Text.split_intercalate (by simp) fun name hname => ?_
    obtain ⟨other, hother, rfl⟩ := List.mem_map.mp hname
    obtain ⟨path, revision, hmem⟩ := hchain.mem_listing hother
    exact hslash path revision other hmem
  have hnames := congrArg (Text.split '/') hname
  rw [hsplit above child hchain, hsplit above' child' hchain'] at hnames
  have hchild := (List.append_inj' (hchain.eq_of_names hdistinct hchain' hnames) rfl).2
  cases hchild
  rw [hnames]

end HeadFinder.Discovery
