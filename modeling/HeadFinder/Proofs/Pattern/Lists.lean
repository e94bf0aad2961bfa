import HeadFinder.Pattern.Basic
import HeadFinder.Proofs.Text.Blank

/-! # Lists of patterns with blanks around them

A text is cut at its separators into pieces, and characters put in front of it or behind it lie
in the first piece or in the last.  Each token of a list is stripped, so blanks around the list
make no difference to its patterns.
-/
namespace HeadFinder

namespace Text
variable {separator : Char} {front back : List Char}

/-- What stands in front of a text stands in front of its first piece. -/
theorem pieces_append_left (h : separator ∉ front) (cs : List Char) :
    pieces separator (front ++ cs) = (pieces separator cs).modifyHead (front ++ ·) := by
  induction front with
  | nil =>
    rw [List.nil_append]
    cases pieces separator cs <;> rfl
  | cons c front ih =>
    obtain ⟨hc, hfront⟩ := not_or.mp (mt List.mem_cons.mpr h)
    rw [List.cons_append, pieces, if_neg (Ne.symm hc), ih hfront]
    cases pieces separator cs <;> rfl

/-- What stands behind a text stands behind its last piece. -/
theorem pieces_append_right (h : separator ∉ back) (cs : List Char) :
    ∃ before last, pieces separator cs = before ++ [last] ∧
      pieces separator (cs ++ back) = before ++ [last ++ back] := by
  induction cs with
  | nil =>
    refine ⟨[], [], rfl, ?_⟩
    have hwhole := pieces_append_left h []
    rw [List.append_nil] at hwhole
    rw [List.nil_append, hwhole]
    simp [pieces]
  | cons c cs ih =>
    obtain ⟨before, last, hpieces, hlonger⟩ := ih
    by_cases hc : c = separator
    · refine ⟨[] :: before, last, ?_, ?_⟩
      · rw [pieces, if_pos hc, hpieces, List.cons_append]
      · rw [List.cons_append, pieces, if_pos hc, hlonger, List.cons_append]
    · rw [List.cons_append, pieces, pieces, if_neg hc, if_neg hc, hpieces, hlonger]
      cases before with
      | nil => exact ⟨[], c :: last, rfl, rfl⟩
      | cons piece before => exact ⟨(c :: piece) :: before, last, rfl, rfl⟩

/-- What is trimmed off the pieces can be left out at either end of the text. -/
theorem map_trim_pieces {p : Char → Bool} (hfront : ∀ c ∈ front, p c = true)
    (hback : ∀ c ∈ back, p c = true) (hseparator : p separator = false) (cs : List Char) :
    (pieces separator (front ++ cs ++ back)).map (trim p) = (pieces separator cs).map (trim p) := by
  have habsent {row : List Char} (hrow : ∀ c ∈ row, p c = true) : separator ∉ row := by
    intro hmem
    rw [hrow separator hmem] at hseparator
    cases hseparator
  obtain ⟨before, last, hpieces, hlonger⟩ := pieces_append_right (habsent hback) cs
  have hright : (pieces separator (cs ++ back)).map (trim p) =
      (pieces separator cs).map (trim p) := by
    rw [hpieces, hlonger, List.map_append, List.map_append, List.map_singleton,
      List.map_singleton, trim_append_right hback]
  rw [List.append_assoc, pieces_append_left (habsent hfront), ← hright]
  cases pieces separator (cs ++ back) with
  | nil => rfl
  | cons piece more =>
    rw [List.modifyHead_cons, List.map_cons, List.map_cons, trim_append_left hfront]

end Text

namespace Pattern

/-- The tokens of a list are those of its stripped text. -/
theorem tokens_strip (text : String) : tokens (Text.strip text) = tokens text := by
  have hpieces (cs : List Char) : (Text.split ',' (String.ofList cs)).map Text.strip =
      ((Text.pieces ',' cs).map (Text.trim Text.isBlank)).map String.ofList := by
    simp [Text.split, Text.strip]
  obtain ⟨cs, rfl⟩ : ∃ cs, text = String.ofList cs := ⟨_, String.ofList_toList.symm⟩
  obtain ⟨front, back, htext, hfront, hback⟩ := Text.exists_trim Text.isBlank cs
  have htrim := Text.map_trim_pieces hfront hback (show Text.isBlank ',' = false by decide)
    (Text.trim Text.isBlank cs)
  rw [← htext] at htrim
  rw [Text.strip, String.toList_ofList, tokens, tokens, hpieces, hpieces, htrim]

/-- **Blanks around a list make no difference to its patterns.** -/
theorem parse_strip (text : String) : parse (Text.strip text) = parse text := by
  rw [parse, tokens_strip, ← parse]

end Pattern
end HeadFinder
