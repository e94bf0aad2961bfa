import HeadFinder.Text.Basic
import Mathlib.Data.List.DropRight

/-! # Trimmed texts

What trimming takes away are characters of one kind at the ends, and it takes away all
of them.  Such characters may therefore be put at an end without a difference, and a text
that keeps its end keeps it before whatever is trimmed behind it.
-/
namespace HeadFinder.Text

variable {p : Char → Bool} {cs front back : List Char}

theorem trimEnd_eq_rdropWhile (p : Char → Bool) (cs : List Char) :
    trimEnd p cs = cs.rdropWhile p :=
  rfl

/-- What is trimmed off the end is of the kind that is trimmed. -/
theorem exists_trimEnd (p : Char → Bool) (cs : List Char) :
    ∃ cut, cs = trimEnd p cs ++ cut ∧ ∀ c ∈ cut, p c = true :=
  ⟨cs.rtakeWhile p, List.rdropWhile_append_rtakeWhile.symm,
    fun _ hc => List.mem_rtakeWhile_imp hc⟩

/-- What is left does not end in what is trimmed. -/
theorem getLast?_trimEnd {c : Char} (h : (trimEnd p cs).getLast? = some c) : p c = false := by
  have hne : trimEnd p cs ≠ [] := by
    intro hnil
    rw [hnil] at h
    cases h
  rw [List.getLast?_eq_some_getLast hne] at h
  rw [← Option.some.inj h]
  exact Bool.eq_false_iff.mpr (List.rdropWhile_last_not p cs hne)

/-- A text that does not end in what is trimmed keeps its end. -/
theorem trimEnd_eq_self (h : ∀ c, cs.getLast? = some c → p c = false) : trimEnd p cs = cs := by
  rw [trimEnd_eq_rdropWhile, List.rdropWhile_eq_self_iff]
  intro hne hlast
  rw [h _ (List.getLast?_eq_some_getLast hne)] at hlast
  cases hlast

theorem trimEndSlashes_idem (text : String) :
    trimEndSlashes (trimEndSlashes text) = trimEndSlashes text := by
  unfold trimEndSlashes
  rw [String.toList_ofList, trimEnd_eq_self fun _ hc => getLast?_trimEnd hc]

/-- What is trimmed makes no difference at the end. -/
theorem trimEnd_append (h : ∀ c ∈ back, p c = true) (cs : List Char) :
    trimEnd p (cs ++ back) = trimEnd p cs := by
  unfold trimEnd
  rw [List.reverse_append, List.dropWhile_append_of_pos]
  exact fun c hc => h c (List.mem_reverse.mp hc)

/-- Behind a text that keeps its end, a text is trimmed as it is alone. -/
theorem trimEnd_append_of_trimmed (h : trimEnd p front = front) (cs : List Char) :
    trimEnd p (front ++ cs) = front ++ trimEnd p cs := by
  obtain ⟨cut, hcs, hcut⟩ := exists_trimEnd p cs
  by_cases hnil : trimEnd p cs = []
  · rw [hnil, List.append_nil]
    rw [hnil, List.nil_append] at hcs
    rw [hcs, trimEnd_append hcut, h]
  · conv_lhs => rw [hcs, ← List.append_assoc, trimEnd_append hcut]
    refine trimEnd_eq_self fun c hc => ?_
    rw [List.getLast?_append_of_ne_nil _ hnil, List.getLast?_eq_some_getLast hnil] at hc
    rw [← Option.some.inj hc]
    exact Bool.eq_false_iff.mpr (List.rdropWhile_last_not p cs hnil)

/-- A text without anything that is trimmed stays as it is. -/
theorem trim_eq_self (h : ∀ c ∈ cs, p c = false) : trim p cs = cs := by
  have hstart : cs.dropWhile p = cs := by
    cases cs with
    | nil => rfl
    | cons c rest => exact List.dropWhile_cons_of_neg (by rw [h c (List.mem_cons_self ..)]; decide)
  unfold trim
  rw [hstart]
  exact trimEnd_eq_self fun c hc => h c (List.mem_of_getLast? hc)

/-- What is trimmed makes no difference at either end. -/
theorem trim_append_left (h : ∀ c ∈ front, p c = true) (cs : List Char) :
    trim p (front ++ cs) = trim p cs := by
  unfold trim
  rw [List.dropWhile_append_of_pos h]

theorem trim_append_right (h : ∀ c ∈ back, p c = true) (cs : List Char) :
    trim p (cs ++ back) = trim p cs := by
  unfold trim
  rw [List.dropWhile_append]
  by_cases hnil : (cs.dropWhile p).isEmpty = true
  · rw [if_pos hnil, List.isEmpty_iff.mp hnil, List.dropWhile_eq_nil_iff.mpr h]
  · rw [if_neg hnil, trimEnd_append h]

/-- Without a front of its own length, what follows the front is left. -/
theorem dropFirst_append (front rest : String) : dropFirst front.length (front ++ rest) = rest := by
  unfold dropFirst
  rw [String.toList_append, ← String.length_toList, List.drop_left, String.ofList_toList]

end HeadFinder.Text
