import HeadFinder.Text.Basic

/-! # Finding a place in a text

A text is cut at the last separator, which is the one with none behind it; and a text is
sought at the first place where it stands, which is the one with the least before it.
-/
namespace HeadFinder.Text

/-! ## The last separator -/

theorem cutLast_eq_none {c : Char} {cs : List Char} (h : c ∉ cs) : cutLast c cs = none := by
  induction cs with
  | nil => rfl
  | cons d cs ih =>
    obtain ⟨hne, hrest⟩ := not_or.mp (mt List.mem_cons.mpr h)
    rw [cutLast, ih hrest]
    exact if_neg (Ne.symm hne)

/-- A text is cut at a separator with none behind it. -/
theorem cutLast_append {c : Char} {after : List Char} (h : c ∉ after) (before : List Char) :
    cutLast c (before ++ c :: after) = some (before, after) := by
  induction before with
  | nil =>
    rw [List.nil_append, cutLast, cutLast_eq_none h]
    exact if_pos rfl
  | cons d before ih => rw [List.cons_append, cutLast, ih]

/-- A separator that stands in a text stands there a last time. -/
theorem exists_last {c : Char} {cs : List Char} (h : c ∈ cs) :
    ∃ before after, cs = before ++ c :: after ∧ c ∉ after := by
  induction cs with
  | nil => cases h
  | cons d cs ih =>
    by_cases hrest : c ∈ cs
    · obtain ⟨before, after, rfl, hafter⟩ := ih hrest
      exact ⟨d :: before, after, rfl, hafter⟩
    · obtain rfl := (List.mem_cons.mp h).resolve_right hrest
      exact ⟨[], cs, rfl, hrest⟩

/-! ## The first place -/

/-- `front` is what stands before the first place where `needle` stands. -/
def Foremost (needle front cs : List Char) : Prop :=
  front ++ needle <+: cs ∧ ∀ other, other ++ needle <+: cs → front.length ≤ other.length

section Foremost
variable {needle front cs start : List Char}

/-- What stands first stands first in every beginning that reaches so far. -/
theorem Foremost.within (h : Foremost needle front cs) (hstart : start <+: cs)
    (hlength : (front ++ needle).length ≤ start.length) : Foremost needle front start :=
  ⟨List.prefix_of_prefix_length_le h.1 hstart hlength,
    fun other hother => h.2 other (hother.trans hstart)⟩

/-- A text is found where it stands first, if it stands anywhere. -/
theorem seek_cases (hne : needle ≠ []) (cs : List Char) :
    (∃ front, Foremost needle front cs ∧ seek needle cs = some (cs.drop front.length)) ∨
      (∀ front, ¬ front ++ needle <+: cs) ∧ seek needle cs = none := by
  induction cs with
  | nil =>
    right
    refine ⟨fun front h => hne (List.append_eq_nil_iff.mp (List.prefix_nil.mp h)).2, ?_⟩
    rw [seek, if_neg (by rwa [List.isEmpty_iff])]
  | cons c rest ih =>
    by_cases hhere : needle <+: c :: rest
    · left
      refine ⟨[], ⟨hhere, fun _ _ => Nat.zero_le _⟩, ?_⟩
      rw [seek, if_pos (List.isPrefixOf_iff_prefix.mpr hhere)]
      rfl
    · -- Where the text stands, it stands behind the first character.
      have hlater : ∀ other, other ++ needle <+: c :: rest →
          ∃ more, other = c :: more ∧ more ++ needle <+: rest := by
        intro other hother
        cases other with
        | nil => exact absurd hother hhere
        | cons d more =>
          obtain ⟨rfl, hmore⟩ := List.cons_prefix_cons.mp hother
          exact ⟨more, rfl, hmore⟩
      rw [seek, if_neg (mt List.isPrefixOf_iff_prefix.mp hhere)]
      rcases ih with ⟨front, ⟨hfront, hleast⟩, hseek⟩ | ⟨habsent, hseek⟩
      · left
        refine ⟨c :: front, ⟨List.cons_prefix_cons.mpr ⟨rfl, hfront⟩, ?_⟩, hseek⟩
        intro other hother
        obtain ⟨more, rfl, hmore⟩ := hlater other hother
        exact Nat.succ_le_succ (hleast more hmore)
      · right
        refine ⟨fun other hother => ?_, hseek⟩
        obtain ⟨more, -, hmore⟩ := hlater other hother
        exact habsent more hmore

end Foremost

/-- A text is contained in another if it stands anywhere in it. -/
theorem contains_iff {needle : List Char} (hne : needle ≠ []) (cs : List Char) :
    contains needle cs = true ↔ needle <:+: cs := by
  unfold contains
  rcases seek_cases hne cs with ⟨front, ⟨⟨back, hcs⟩, -⟩, hseek⟩ | ⟨habsent, hseek⟩
  · rw [hseek]
    exact iff_of_true rfl ⟨front, back, hcs⟩
  · rw [hseek]
    refine iff_of_false Bool.false_ne_true ?_
    rintro ⟨front, back, hcs⟩
    exact habsent front ⟨back, hcs⟩

end HeadFinder.Text
