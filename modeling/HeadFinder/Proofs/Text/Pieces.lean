import HeadFinder.Text.Basic

/-! # Pieces between separators

A piece of a text is a row of its characters without the separator that reaches from one
separator, or an end of the text, to the next.  Pieces with separators between them are those
of the text again, so a text and its pieces say the same.
-/
namespace HeadFinder.Text

variable {separator : Char}

/-! ## Cutting and joining -/

/-- The pieces on either side of a separator. -/
theorem pieces_append (separator : Char) (cs ds : List Char) :
    pieces separator (cs ++ separator :: ds) = pieces separator cs ++ pieces separator ds := by
  induction cs with
  | nil => simp [pieces]
  | cons c rest ih =>
    simp only [List.cons_append, pieces, ih]
    split
    · rfl
    · cases hp : pieces separator rest with
      | nil => exact absurd hp (pieces_ne_nil _ _)
      | cons p ps => rfl

/-- Characters without the separator are a piece by themselves. -/
theorem pieces_of_not_mem {cs : List Char} (h : separator ∉ cs) : pieces separator cs = [cs] := by
  induction cs with
  | nil => rfl
  | cons c rest ih =>
    obtain ⟨hc, hrest⟩ := not_or.mp (mt List.mem_cons.mpr h)
    rw [pieces, if_neg (Ne.symm hc), ih hrest]
    rfl

/-- Pieces with separators between them are those of the text again. -/
theorem pieces_intercalate {rows : List (List Char)} (hne : rows ≠ [])
    (h : ∀ row ∈ rows, separator ∉ row) :
    pieces separator ([separator].intercalate rows) = rows := by
  induction rows with
  | nil => exact absurd rfl hne
  | cons row rest ih =>
    have hrow := pieces_of_not_mem (h row (List.mem_cons_self ..))
    cases rest with
    | nil => rw [List.intercalate_singleton, hrow]
    | cons next more =>
      have hmore := ih (List.cons_ne_nil _ _) fun other hother =>
        h other (List.mem_cons_of_mem _ hother)
      rw [List.intercalate_cons_cons, List.append_assoc, List.singleton_append, pieces_append, hrow,
        hmore, List.singleton_append]

/-! ## Texts -/

theorem split_ne_nil (separator : Char) (text : String) : split separator text ≠ [] := by
  unfold split
  rw [Ne, List.map_eq_nil_iff]
  exact pieces_ne_nil separator text.toList

theorem split_append_singleton (separator : Char) (above rest : String) :
    split separator (above ++ String.singleton separator ++ rest) =
      split separator above ++ split separator rest := by
  unfold split
  rw [String.toList_append, String.toList_append, String.toList_singleton, List.append_assoc,
    ← List.map_append]
  exact congrArg _ (pieces_append separator above.toList rest.toList)

theorem split_append (above rest : String) :
    split '/' (above ++ "/" ++ rest) = split '/' above ++ split '/' rest :=
  split_append_singleton '/' above rest

/-- Slashes between the segments of a text give it back. -/
theorem intercalate_split (text : String) : "/".intercalate (split '/' text) = text := by
  apply String.toList_injective
  rw [String.toList_intercalate]
  unfold split
  rw [List.map_map]
  have hid : (pieces '/' text.toList).map (String.toList ∘ String.ofList) =
      pieces '/' text.toList := by
    simp
  rw [hid]
  exact intercalate_pieces '/' text.toList

/-- A text without the separator is a piece by itself. -/
theorem split_of_not_mem {text : String} (h : separator ∉ text.toList) :
    split separator text = [text] := by
  rw [split, pieces_of_not_mem h, List.map_singleton, String.ofList_toList]

/-- Parts with separators between them are those of the text again. -/
theorem split_intercalate_singleton {parts : List String} (hne : parts ≠ [])
    (h : ∀ part ∈ parts, separator ∉ part.toList) :
    split separator ((String.singleton separator).intercalate parts) = parts := by
  have hrows : ∀ row ∈ parts.map String.toList, separator ∉ row := List.forall_mem_map.mpr h
  rw [split, String.toList_intercalate, String.toList_singleton,
    pieces_intercalate (mt List.map_eq_nil_iff.mp hne) hrows, List.map_map]
  simp

/-- Segments with slashes between them are those of the text again. -/
theorem split_intercalate {parts : List String} (hne : parts ≠ [])
    (h : ∀ part ∈ parts, '/' ∉ part.toList) : split '/' ("/".intercalate parts) = parts :=
  split_intercalate_singleton hne h

/-! ## Where a piece stands -/

variable {piece cs : List Char}

/-- `piece` reaches from a separator, or an end of the text, to the next one. -/
def Bounded (separator : Char) (piece cs : List Char) : Prop :=
  ∃ before after, cs = before ++ piece ++ after ∧
    (∀ c ∈ before.getLast?, c = separator) ∧ ∀ c ∈ after.head?, c = separator

theorem bounded_intercalate (separator : Char) (front back : List (List Char))
    (piece : List Char) :
    Bounded separator piece ([separator].intercalate (front ++ piece :: back)) := by
  induction front with
  | nil =>
    cases back with
    | nil => exact ⟨[], [], by simp, by simp, by simp⟩
    | cons next back =>
      refine ⟨[], separator :: [separator].intercalate (next :: back), ?_, by simp, by simp⟩
      simp [List.intercalate_cons_cons]
  | cons row front ih =>
    obtain ⟨before, after, hcs, hbefore, hafter⟩ := ih
    refine ⟨row ++ separator :: before, after, ?_, ?_, hafter⟩
    · obtain ⟨next, more, hrest⟩ : ∃ next more, front ++ piece :: back = next :: more :=
        List.exists_cons_of_ne_nil (by simp)
      rw [List.cons_append, hrest, List.intercalate_cons_cons, ← hrest, hcs]
      simp
    · intro c hc
      rw [List.getLast?_append, List.getLast?_cons] at hc
      cases hlast : before.getLast? with
      | none => simpa [hlast, eq_comm] using hc
      | some d =>
        obtain rfl : d = c := by simpa [hlast] using hc
        exact hbefore d hlast

/-- **The pieces of a text are what stands in it from one separator to the next.** -/
theorem mem_pieces_iff :
    piece ∈ pieces separator cs ↔ separator ∉ piece ∧ Bounded separator piece cs := by
  constructor
  · intro h
    obtain ⟨front, back, hpieces⟩ := List.append_of_mem h
    refine ⟨not_mem_of_mem_pieces h, ?_⟩
    rw [← intercalate_pieces separator cs, hpieces]
    exact bounded_intercalate separator front back piece
  · rintro ⟨hpiece, before, after, rfl, hbefore, hafter⟩
    -- an end of the text makes no piece of its own, so each side has two cases
    have hright : piece ∈ pieces separator (piece ++ after) := by
      cases after with
      | nil => rw [List.append_nil, pieces_of_not_mem hpiece]; exact List.mem_cons_self ..
      | cons c after =>
        obtain rfl : c = separator := hafter c rfl
        rw [pieces_append, pieces_of_not_mem hpiece]
        exact List.mem_append_left _ (List.mem_cons_self ..)
    rcases List.eq_nil_or_concat before with rfl | ⟨before, c, rfl⟩
    · exact hright
    · obtain rfl : c = separator := hbefore c (by simp)
      rw [List.concat_eq_append, List.append_assoc, List.append_assoc, List.singleton_append,
        pieces_append]
      exact List.mem_append_right _ hright

/-- Every character but the separator is in a piece. -/
theorem exists_mem_pieces {c : Char} (hc : c ∈ cs) (hne : c ≠ separator) :
    ∃ piece ∈ pieces separator cs, c ∈ piece := by
  induction cs with
  | nil => cases hc
  | cons d rest ih =>
    rw [pieces]
    split
    · rename_i hd
      have hrest := (List.mem_cons.mp hc).resolve_left fun h => hne (h.trans hd)
      obtain ⟨piece, hpiece, hmem⟩ := ih hrest
      exact ⟨piece, List.mem_cons_of_mem _ hpiece, hmem⟩
    · obtain ⟨first, more, hpieces⟩ := List.exists_cons_of_ne_nil (pieces_ne_nil separator rest)
      rw [hpieces, List.modifyHead_cons]
      rcases List.mem_cons.mp hc with rfl | hc
      · exact ⟨_, List.mem_cons_self .., List.mem_cons_self ..⟩
      · obtain ⟨piece, hpiece, hmem⟩ := ih hc
        rw [hpieces] at hpiece
        rcases List.mem_cons.mp hpiece with rfl | hpiece
        · exact ⟨_, List.mem_cons_self .., List.mem_cons_of_mem _ hmem⟩
        · exact ⟨piece, List.mem_cons_of_mem _ hpiece, hmem⟩

end HeadFinder.Text
