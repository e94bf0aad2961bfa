import HeadFinder.History
import HeadFinder.Proofs.Text.Pieces

/-! # What lies above a path

A path lies below another when it goes on from it after a slash, and everything
lies below the root.  `mem_ancestors` says that the ancestors of a path are what
lies above it; with it the shape of a tree is a matter of prefixes.
-/
namespace HeadFinder

namespace Text

theorem begins_iff {start text : String} :
    begins start text = true ↔ start.toList <+: text.toList :=
  List.isPrefixOf_iff_prefix

theorem begins_iff_exists {start text : String} :
    begins start text = true ↔ ∃ rest, text = start ++ rest := by
  rw [begins_iff]
  constructor
  · rintro ⟨rest, h⟩
    refine ⟨String.ofList rest, String.toList_injective ?_⟩
    rw [String.toList_append, String.toList_ofList, h]
  · rintro ⟨rest, rfl⟩
    rw [String.toList_append]
    exact List.prefix_append _ _

end Text

namespace Path

/-- `above` is a directory on the way to `path`.  The root is above everything,
itself included. -/
def Above (above path : String) : Prop :=
  above = "" ∨ Text.begins (above ++ "/") path = true

/-- What the paths below a directory begin with. -/
def stem (path : String) : String :=
  if path = "" then "" else path ++ "/"

theorem above_iff_begins {above path : String} :
    Above above path ↔ Text.begins (stem above) path = true := by
  unfold Above stem
  by_cases hroot : above = ""
  · rw [if_pos hroot]
    exact iff_of_true (Or.inl hroot) (Text.begins_iff.mpr List.nil_prefix)
  · rw [if_neg hroot, or_iff_right hroot]

/-- **The ancestors of a path are what lies above it.** -/
theorem mem_ancestors {above path : String} : above ∈ ancestors path ↔ Above above path := by
  unfold ancestors Above
  rw [List.mem_map]
  constructor
  · rintro ⟨n, hn, rfl⟩
    rw [List.mem_range] at hn
    cases n with
    | zero => exact Or.inl String.intercalate_nil
    | succ n =>
      right
      rw [Text.begins_iff_exists]
      refine ⟨"/".intercalate ((Text.split '/' path).drop (n + 1)), ?_⟩
      have htake : (Text.split '/' path).take (n + 1) ≠ [] := by
        rw [Ne, List.take_eq_nil_iff]
        rintro (h | h)
        · omega
        · exact Text.split_ne_nil _ _ h
      have hdrop : (Text.split '/' path).drop (n + 1) ≠ [] := by
        rw [Ne, List.drop_eq_nil_iff]
        omega
      rw [← String.intercalate_append_of_ne_nil htake hdrop, List.take_append_drop,
        Text.intercalate_split]
  · rintro (rfl | h)
    · refine ⟨0, ?_, String.intercalate_nil⟩
      exact List.mem_range.mpr (List.length_pos_iff.mpr (Text.split_ne_nil _ _))
    · -- The segments of what lies above are the first ones of the path.
      obtain ⟨rest, rfl⟩ := Text.begins_iff_exists.mp h
      refine ⟨(Text.split '/' above).length, ?_, ?_⟩
      · have hrest := List.length_pos_iff.mpr (Text.split_ne_nil '/' rest)
        rw [List.mem_range, Text.split_append, List.length_append]
        omega
      · rw [Text.split_append, List.take_left, Text.intercalate_split]

theorem above_root (path : String) : Above "" path :=
  Or.inl rfl

/-- Nothing but the root is above the root. -/
theorem eq_root_of_above {above : String} (h : Above above "") : above = "" := by
  rcases h with h | h
  · exact h
  · obtain ⟨rest, h⟩ := Text.begins_iff_exists.mp h
    have := congrArg String.toList h
    simp at this

/-- Going on twice is going on. -/
theorem begins_trans {a b c : String} (hab : Text.begins (a ++ "/") b = true)
    (hbc : Text.begins (b ++ "/") c = true) : Text.begins (a ++ "/") c = true := by
  rw [Text.begins_iff] at hab hbc ⊢
  rw [String.toList_append] at hbc
  exact hab.trans ((List.prefix_append _ _).trans hbc)

theorem Above.trans {a b c : String} (hab : Above a b) (hbc : Above b c) : Above a c := by
  rcases hab with rfl | hab
  · exact above_root c
  · rcases hbc with rfl | hbc
    · rw [eq_root_of_above (Or.inr hab)]
      exact above_root c
    · exact Or.inr (begins_trans hab hbc)

theorem isWithin_iff {top path : String} :
    Snapshot.isWithin top path = true ↔ path = top ∨ Text.begins (top ++ "/") path = true := by
  unfold Snapshot.isWithin
  rw [Bool.or_eq_true, decide_eq_true_iff]

/-- Two paths that lead to the same one lie on one line. -/
theorem isWithin_or_above {top above path : String} (habove : Above above path)
    (hwithin : Snapshot.isWithin top path = true) :
    Snapshot.isWithin top above = true ∨ Above above top := by
  rcases habove with rfl | habove
  · exact Or.inr (above_root top)
  · rcases isWithin_iff.mp hwithin with rfl | hbegins
    · exact Or.inr (Or.inr habove)
    · rw [Text.begins_iff] at habove hbegins
      rw [isWithin_iff, Above, Text.begins_iff, Text.begins_iff]
      simp only [String.toList_append] at *
      rcases List.prefix_or_prefix_of_prefix habove hbegins with h | h
      · rcases List.prefix_concat_iff.mp h with h | h
        · exact Or.inl (Or.inl (String.toList_injective (List.append_cancel_right h)))
        · exact Or.inr (Or.inr h)
      · rcases List.prefix_concat_iff.mp h with h | h
        · exact Or.inl (Or.inl (String.toList_injective (List.append_cancel_right h.symm)))
        · exact Or.inl (Or.inr h)

/-- What is below a path within another is within it too, but for the root. -/
theorem isWithin_of_above {top above path : String} (hwithin : Snapshot.isWithin top above = true)
    (habove : Above above path) : Snapshot.isWithin top path = true ∨ above = "" := by
  rcases habove with rfl | habove
  · exact Or.inr rfl
  · left
    rw [isWithin_iff]
    rcases isWithin_iff.mp hwithin with rfl | hbegins
    · exact Or.inr habove
    · exact Or.inr (begins_trans hbegins habove)

end Path
end HeadFinder
