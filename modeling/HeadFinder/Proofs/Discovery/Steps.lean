import HeadFinder.Discovery
import HeadFinder.Proofs.Pattern.Grouping
import Mathlib.Data.List.Nodup

/-! # The steps for a listed directory

Each step comes from a pattern and a child that fits its next segment, and each
such pair comes to a step unless another one with the same key did before.
-/
namespace HeadFinder.Discovery

variable {quest : Quest} {place : Place} {children : List Child}

/-- A child of the listed directory that fits the next segment of a pattern: the
pattern goes on with `wanted`, and the child is a directory that matches it and is
not excluded. -/
structure Fits (quest : Quest) (place : Place) (pattern : Pattern) (wanted : String)
    (child : Child) : Prop where
  asked : pattern ∈ quest.includes
  goesOn : place.matched ++ [wanted] <+: pattern
  directory : child.kind = .directory
  named : Glob.matchesName wanted child.name = true
  admitted : Pattern.anyCovers quest.excludes (place.names ++ [child.name]) = false

/-- The place that a child of a place is. -/
def Place.below (place : Place) (wanted : String) (child : Child) : Place :=
  ⟨place.matched ++ [wanted], place.names ++ [child.name], child.revision⟩

/-- What is done about a fitting child: it is offered when it completes the
pattern, and entered otherwise. -/
inductive Does (place : Place) (pattern : Pattern) (wanted : String) (child : Child) :
    Step → Prop
  | offer : pattern = place.matched ++ [wanted] →
      Does place pattern wanted child (.offer pattern (place.names ++ [child.name]) child)
  | enter : pattern ≠ place.matched ++ [wanted] →
      Does place pattern wanted child (.enter (place.below wanted child))

theorem mem_directories {child : Child} :
    child ∈ directories children ↔ child ∈ children ∧ child.kind = .directory := by
  rw [directories, Ordered.mem_sort, List.mem_filter, decide_eq_true_iff]

/-- A pattern that properly extends a start goes on with one segment. -/
theorem exists_next {start pattern : Pattern} (h : start <+: pattern)
    (hlt : start.length < pattern.length) :
    ∃ wanted, pattern[start.length]? = some wanted ∧ start ++ [wanted] <+: pattern := by
  obtain ⟨rest, rfl⟩ := h
  cases rest with
  | nil => simp at hlt
  | cons wanted rest =>
    refine ⟨wanted, by simp, rest, ?_⟩
    rw [List.append_assoc, List.singleton_append]

theorem getElem?_of_next {start pattern : Pattern} {wanted : String}
    (h : start ++ [wanted] <+: pattern) : pattern[start.length]? = some wanted := by
  obtain ⟨rest, rfl⟩ := h
  simp

/-- **Where steps come from**, whatever the listing. -/
theorem of_mem_steps {step : Step} (h : step ∈ steps quest place children) :
    ∃ pattern wanted child, child ∈ children ∧ Fits quest place pattern wanted child ∧
      Does place pattern wanted child step := by
  obtain ⟨pattern, hpattern, hstep⟩ := List.mem_flatMap.mp (Ordered.mem_of_mem_firsts h).1
  obtain ⟨hasked, hstart, hlt⟩ := Pattern.mem_members_group.mp hpattern
  obtain ⟨child, hchild, hfor⟩ := List.mem_filterMap.mp hstep
  obtain ⟨hmem, hkind⟩ := mem_directories.mp hchild
  obtain ⟨wanted, hget, hgoes⟩ := exists_next hstart hlt
  -- A child is passed over when its name does not fit, and when it is excluded.
  simp only [stepFor, hget] at hfor
  split at hfor
  · cases hfor
  · rename_i hnamed
    split at hfor
    · cases hfor
    · rename_i hadmitted
      refine ⟨pattern, wanted, child, hmem,
        ⟨hasked, hgoes, hkind, by simpa using hnamed, by simpa using hadmitted⟩, ?_⟩
      split at hfor
      · rename_i heq
        cases hfor
        exact .offer heq
      · rename_i hne
        cases hfor
        exact .enter hne

/-- A fitting child comes to a step, or another step with the same key does. -/
theorem exists_step {pattern : Pattern} {wanted : String} {child : Child} {step : Step}
    (hchild : child ∈ children) (hfits : Fits quest place pattern wanted child)
    (hdoes : Does place pattern wanted child step) :
    ∃ taken ∈ steps quest place children, taken.key = step.key := by
  have hget := getElem?_of_next hfits.goesOn
  have hfor : stepFor quest place pattern child = some step := by
    simp only [stepFor, hget, hfits.named, hfits.admitted]
    cases hdoes with
    | offer heq => simp [heq]
    | enter hne => simp [hne, Place.below]
  have hlen : place.matched.length < pattern.length := by
    have := hfits.goesOn.length_le
    rw [List.length_append, List.length_singleton] at this
    omega
  have hstart : place.matched <+: pattern := (List.prefix_append _ _).trans hfits.goesOn
  refine Ordered.exists_mem_firsts (List.mem_flatMap.mpr ⟨pattern, ?_, ?_⟩) (List.not_mem_nil)
  · exact Pattern.mem_members_group.mpr ⟨hfits.asked, hstart, hlen⟩
  · exact List.mem_filterMap.mpr
      ⟨child, mem_directories.mpr ⟨hchild, hfits.directory⟩, hfor⟩

/-- Where nothing is listed there are no steps. -/
theorem steps_nil (quest : Quest) (place : Place) : steps quest place [] = [] := by
  refine List.eq_nil_iff_forall_not_mem.mpr fun step hstep => ?_
  obtain ⟨_, _, child, hchild, -, -⟩ := of_mem_steps hstep
  cases hchild

/-- No two steps for one listing have the same key. -/
theorem nodup_keys_steps (quest : Quest) (place : Place) (children : List Child) :
    ((steps quest place children).map Step.key).Nodup :=
  Ordered.nodup_keys_firsts [] _

/-- In a listing without repeated names, a name tells the child. -/
theorem eq_of_name_eq (hnames : (children.map Child.name).Nodup) {a b : Child}
    (ha : a ∈ children) (hb : b ∈ children) (h : a.name = b.name) : a = b :=
  List.inj_on_of_nodup_map hnames ha hb h

/-- In a listing without repeated names, each child that completes a pattern is
offered. -/
theorem offer_mem_steps (hnames : (children.map Child.name).Nodup) {pattern : Pattern}
    {wanted : String} {child : Child} (hchild : child ∈ children)
    (hfits : Fits quest place pattern wanted child) (heq : pattern = place.matched ++ [wanted]) :
    ∃ other, Step.offer other (place.names ++ [child.name]) child ∈
      steps quest place children := by
  obtain ⟨taken, htaken, hkey⟩ := exists_step hchild hfits (.offer heq)
  obtain ⟨other, wanted', child', hchild', -, hdoes⟩ := of_mem_steps htaken
  cases hdoes with
  | offer =>
    simp only [Step.key, Prod.mk.injEq, true_and, List.append_cancel_left_eq, List.cons.injEq,
      and_true] at hkey
    rw [eq_of_name_eq hnames hchild' hchild hkey] at htaken
    exact ⟨other, htaken⟩
  | enter => simp [Step.key] at hkey

/-- In a listing without repeated names, each child on the way is entered. -/
theorem enter_mem_steps (hnames : (children.map Child.name).Nodup) {pattern : Pattern}
    {wanted : String} {child : Child} (hchild : child ∈ children)
    (hfits : Fits quest place pattern wanted child) (hne : pattern ≠ place.matched ++ [wanted]) :
    Step.enter (place.below wanted child) ∈ steps quest place children := by
  obtain ⟨taken, htaken, hkey⟩ := exists_step hchild hfits (.enter hne)
  obtain ⟨other, wanted', child', hchild', -, hdoes⟩ := of_mem_steps htaken
  cases hdoes with
  | offer => simp [Step.key] at hkey
  | enter =>
    simp only [Step.key, Place.below, Prod.mk.injEq, Option.some.injEq,
      List.append_cancel_left_eq, List.cons.injEq, and_true] at hkey
    obtain ⟨rfl, hname⟩ := hkey
    rwa [eq_of_name_eq hnames hchild' hchild hname] at htaken

end HeadFinder.Discovery
