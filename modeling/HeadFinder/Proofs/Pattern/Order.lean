import HeadFinder.Proofs.Canonical
import HeadFinder.Proofs.Pattern.Grouping

/-! # Patterns as sets

The order of the patterns is total, so that a list of them is sorted to the same list in
whatever order it is given and however often it repeats a pattern.  All that a search makes
of its patterns goes by the sorted ones, or by whether there is one that fits.
-/
namespace HeadFinder.Pattern

/-! ## The order -/

theorem compareText_eq_compare (left right : String) :
    compareText left right = Ord.compare left right := by
  show _ = compareOfLessAndEq left right
  unfold compareText compareOfLessAndEq
  by_cases hlt : left < right
  · rw [if_pos hlt, if_pos hlt]
  · rw [if_neg hlt, if_neg hlt]
    by_cases heq : left = right
    · rw [if_pos heq, heq, if_neg (String.lt_irrefl right)]
    · have hgt : right < left := Classical.byContradiction fun hgt =>
        heq (String.le_antisymm (String.not_lt.mp hgt) (String.not_lt.mp hlt))
      rw [if_pos hgt, if_neg heq]

theorem compare_eq_compareLex (left right : Pattern) :
    compare left right = List.compareLex compareText left right := by
  induction left generalizing right with
  | nil => cases right <;> rfl
  | cons a left ih =>
    cases right with
    | nil => rfl
    | cons b right =>
      rw [compare, List.compareLex, ih]
      cases compareText a b <;> rfl

instance : Std.TransCmp compareText := by
  rw [show compareText = Ord.compare from funext fun left => funext (compareText_eq_compare left)]
  infer_instance

instance : Std.LawfulEqCmp compareText := by
  rw [show compareText = Ord.compare from funext fun left => funext (compareText_eq_compare left)]
  infer_instance

instance : Std.TransCmp compare := by
  rw [show compare = List.compareLex compareText from
    funext fun left => funext (compare_eq_compareLex left)]
  infer_instance

instance : Std.LawfulEqCmp compare := by
  rw [show compare = List.compareLex compareText from
    funext fun left => funext (compare_eq_compareLex left)]
  infer_instance

/-! ## What goes by the members -/

/-- The same patterns, in whatever order and however often. -/
def Same (patterns patterns' : List Pattern) : Prop :=
  ∀ pattern, pattern ∈ patterns' ↔ pattern ∈ patterns

variable {patterns patterns' : List Pattern}

theorem sorted_congr (h : Same patterns patterns') : sorted patterns' = sorted patterns :=
  Ordered.ofList_congr h

theorem under_congr (h : Same patterns patterns') (start : Pattern) :
    under start patterns' = under start patterns := by
  refine sorted_congr fun pattern => ?_
  rw [List.mem_filter, List.mem_filter, h pattern]

/-- **The groups are the same for the same patterns.** -/
theorem group_congr (h : Same patterns patterns') (start : Pattern) :
    group patterns' start = group patterns start := by
  unfold group
  rw [under_congr h]

/-- **The same patterns cover the same paths.** -/
theorem anyCovers_congr (h : Same patterns patterns') (path : List String) :
    anyCovers patterns' path = anyCovers patterns path := by
  rw [Bool.eq_iff_iff, anyCovers, anyCovers, List.any_eq_true, List.any_eq_true]
  simp only [h _]

end HeadFinder.Pattern
