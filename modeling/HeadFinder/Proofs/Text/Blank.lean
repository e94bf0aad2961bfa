import HeadFinder.Proofs.Text.Trim
import HeadFinder.Text.Blank
import HeadFinder.Text.Word

/-! # Blank characters and stripped texts

No blank is part of a word.  A text is stripped down to what stands between its first
and its last character that is not blank, so blanks around it make no difference.
-/
namespace HeadFinder.Text

/-- The code points of the blanks. -/
def blanks : List Nat :=
  [9, 10, 11, 12, 13, 28, 29, 30, 31, 32, 0x85, 0xA0, 0x1680, 0x2000, 0x2001, 0x2002, 0x2003,
    0x2004, 0x2005, 0x2006, 0x2007, 0x2008, 0x2009, 0x200A, 0x2028, 0x2029, 0x202F, 0x205F, 0x3000]

theorem mem_blanks {c : Char} (h : isBlank c = true) : c.toNat ∈ blanks := by
  simp only [isBlank, Bool.or_eq_true, Bool.and_eq_true, decide_eq_true_eq] at h
  simp only [blanks, List.mem_cons, List.not_mem_nil, or_false]
  omega

/-- A blank is no part of a word. -/
theorem isWord_of_isBlank {c : Char} (h : isBlank c = true) : isWord c = false := by
  have hwords : ∀ n ∈ blanks, inRanges wordRanges n = false := by decide +kernel
  exact hwords _ (mem_blanks h)

/-- A text is what is left of it between blanks. -/
theorem exists_trim (p : Char → Bool) (cs : List Char) : ∃ front back,
    cs = front ++ trim p cs ++ back ∧ (∀ c ∈ front, p c = true) ∧ ∀ c ∈ back, p c = true := by
  obtain ⟨back, hcs, hback⟩ := exists_trimEnd p (cs.dropWhile p)
  refine ⟨cs.takeWhile p, back, ?_, fun c hc => List.mem_takeWhile_imp hc, hback⟩
  rw [List.append_assoc]
  exact List.takeWhile_append_dropWhile.symm.trans (congrArg (cs.takeWhile p ++ ·) hcs)

/-! ## Stripped texts -/

/-- A text that neither begins nor ends with a blank. -/
def Trimmed (text : String) : Prop :=
  (∀ c ∈ text.toList.head?, isBlank c = false) ∧ ∀ c ∈ text.toList.getLast?, isBlank c = false

/-- What is trimmed does not stand first in what is left. -/
theorem head?_trim {p : Char → Bool} {cs : List Char} {c : Char} (h : (trim p cs).head? = some c) :
    p c = false := by
  obtain ⟨cut, hcs, -⟩ := exists_trimEnd p (cs.dropWhile p)
  have hhead : (cs.dropWhile p).head? = some c := by
    rw [hcs, List.head?_append]
    exact Option.or_eq_some_iff.mpr (.inl h)
  rw [← List.find?_not_eq_head?_dropWhile] at hhead
  simpa using List.find?_some hhead

theorem trimmed_strip (text : String) : Trimmed (strip text) := by
  simp only [Trimmed, strip, String.toList_ofList]
  exact ⟨fun c hc => head?_trim hc, fun c hc => getLast?_trimEnd hc⟩

/-- A text without blanks at its ends is what it is stripped down to. -/
theorem trim_eq_of_trimmed {text : String} (h : Trimmed text) :
    trim isBlank text.toList = text.toList := by
  have hstart : text.toList.dropWhile isBlank = text.toList := by
    cases hcs : text.toList with
    | nil => rfl
    | cons c cs =>
      have hc := h.1 c (by rw [hcs]; rfl)
      exact List.dropWhile_cons_of_neg (by rw [hc]; decide)
  rw [trim, hstart]
  exact trimEnd_eq_self h.2

theorem strip_eq_self {text : String} (h : Trimmed text) : strip text = text := by
  rw [strip, trim_eq_of_trimmed h, String.ofList_toList]

/-- Nothing but blanks is stripped down to nothing but blanks. -/
theorem blank_strip (text : String) : blank (strip text) = blank text := by
  obtain ⟨front, back, hcs, hfront, hback⟩ := exists_trim isBlank text.toList
  unfold blank strip
  conv_rhs => rw [hcs]
  rw [String.toList_ofList, List.all_append, List.all_append, List.all_eq_true.mpr hfront,
    List.all_eq_true.mpr hback, Bool.true_and, Bool.and_true]

/-- A text is stripped down to nothing just if it is blank. -/
theorem strip_eq_empty_iff {text : String} : strip text = "" ↔ blank text = true := by
  constructor
  · intro h
    rw [← blank_strip, h]
    rfl
  · intro h
    have hall : ∀ c ∈ text.toList, isBlank c = true := List.all_eq_true.mp h
    have htrim : trim isBlank text.toList = trim isBlank [] := by
      simpa using trim_append_right hall []
    rw [strip, htrim]
    rfl

end HeadFinder.Text
