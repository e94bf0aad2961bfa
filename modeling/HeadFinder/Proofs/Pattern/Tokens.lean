import HeadFinder.Proofs.Pattern.Lists
import HeadFinder.Proofs.Pattern.Order
import HeadFinder.Proofs.Text.Pieces

/-! # Lists of patterns as sets of tokens

What a list of patterns says is which tokens it has: rows of characters between two commas,
without the blanks around them, that are not empty.  Its patterns are those tokens cut at their
slashes, in one order, so two lists have the same patterns just if they have the same tokens.
-/
namespace HeadFinder.Pattern

/-! ## The order of patterns -/

theorem compareText_eq_lt {left right : String} : compareText left right = .lt ↔ left < right := by
  unfold compareText
  split
  · exact iff_of_true rfl ‹_›
  · split
    · exact iff_of_false (by decide) ‹_›
    · exact iff_of_false (by decide) ‹_›

/-- The order of patterns is the one of lists, with their segments by code points. -/
theorem compare_eq_lt {left right : Pattern} : compare left right = .lt ↔ left < right := by
  induction left generalizing right with
  | nil => cases right <;> simp [compare]
  | cons a left ih =>
    cases right with
    | nil => simp [compare]
    | cons b right =>
      rw [List.cons_lt_cons_iff, ← ih, ← compareText_eq_lt, compare]
      cases hsegment : compareText a b with
      | lt => simp
      | eq => simp [compareText_eq hsegment]
      | gt =>
        have hne : a ≠ b := by
          rintro rfl
          have hself : compareText a a = .eq := Std.ReflCmp.compare_self
          cases hsegment.symm.trans hself
        simp [hne]

/-- A pattern comes before its extensions. -/
theorem compare_append (start : Pattern) (segment : String) (rest : Pattern) :
    compare start (start ++ segment :: rest) = .lt := by
  induction start with
  | nil => rfl
  | cons first start ih =>
    have hself : compareText first first = .eq := Std.ReflCmp.compare_self
    rw [List.cons_append, compare, hself]
    exact ih

/-! ## Tokens -/

/-- A token of a list: it reaches from a comma or an end of the text to the next one, but for
the blanks around it, and it is not empty. -/
structure IsToken (text token : String) : Prop where
  ne_empty : token ≠ ""
  trimmed : Text.Trimmed token
  comma_not_mem : ',' ∉ token.toList
  stands : ∃ front back, (∀ c ∈ front ++ back, Text.isBlank c = true) ∧
    Text.Bounded ',' (front ++ token.toList ++ back) text.toList

theorem comma_not_mem_of_blank {cs : List Char} (h : ∀ c ∈ cs, Text.isBlank c = true) :
    ',' ∉ cs := by
  intro hmem
  have hcomma := h ',' hmem
  revert hcomma
  decide

variable {text token : String}

/-- A token is a piece of the text that was stripped. -/
theorem isToken_iff_strip :
    IsToken text token ↔ token ≠ "" ∧ ∃ piece ∈ Text.split ',' text, Text.strip piece = token := by
  constructor
  · rintro ⟨hne, htrimmed, hcomma, front, back, hblank, hstands⟩
    obtain ⟨hfront, hback⟩ := List.forall_mem_append.mp hblank
    refine ⟨hne, String.ofList (front ++ token.toList ++ back), ?_, ?_⟩
    · refine List.mem_map_of_mem (Text.mem_pieces_iff.mpr ⟨?_, hstands⟩)
      simp [comma_not_mem_of_blank hfront, comma_not_mem_of_blank hback, hcomma]
    · rw [Text.strip, String.toList_ofList, Text.trim_append_right hback,
        Text.trim_append_left hfront, Text.trim_eq_of_trimmed htrimmed, String.ofList_toList]
  · rintro ⟨hne, piece, hpiece, rfl⟩
    obtain ⟨cs, hcs, rfl⟩ := List.mem_map.mp hpiece
    obtain ⟨hcomma, hstands⟩ := Text.mem_pieces_iff.mp hcs
    obtain ⟨front, back, htext, hfront, hback⟩ := Text.exists_trim Text.isBlank cs
    have hstrip : (Text.strip (String.ofList cs)).toList = Text.trim Text.isBlank cs := by
      simp [Text.strip]
    refine ⟨hne, Text.trimmed_strip _, ?_, front, back, ?_, ?_⟩
    · rw [hstrip]
      intro hmem
      refine hcomma ?_
      rw [htext]
      exact List.mem_append_left _ (List.mem_append_right _ hmem)
    · exact List.forall_mem_append.mpr ⟨hfront, hback⟩
    · rw [hstrip, ← htext]
      exact hstands

/-- **The tokens of a list are what it calls its tokens.** -/
theorem mem_tokens : token ∈ tokens text ↔ IsToken text token := by
  have hmem : token ∈ tokens text ↔
      token ∈ ((Text.split ',' text).map Text.strip).filter (· ≠ "") :=
    Ordered.mem_ofList fun _ _ => compareText_eq
  rw [hmem, isToken_iff_strip, List.mem_filter, List.mem_map, decide_eq_true_iff, and_comm]

theorem mem_parse {pattern : Pattern} :
    pattern ∈ parse text ↔ ∃ token, IsToken text token ∧ ofToken token = pattern := by
  rw [parse, ofTokens, mem_sorted, List.mem_map]
  simp only [mem_tokens]

/-- Slashes between the segments of a token give it back. -/
theorem intercalate_ofToken (token : String) : "/".intercalate (ofToken token) = token :=
  Text.intercalate_split token

/-- The patterns of a list are the rows of segments that make up its tokens. -/
theorem mem_parse_iff_isToken {pattern : Pattern} : pattern ∈ parse text ↔
    IsToken text ("/".intercalate pattern) ∧ pattern ≠ [] ∧
      ∀ segment ∈ pattern, '/' ∉ segment.toList := by
  rw [mem_parse]
  constructor
  · rintro ⟨token, htoken, rfl⟩
    refine ⟨?_, Text.split_ne_nil '/' token, fun segment hsegment => ?_⟩
    · rwa [intercalate_ofToken]
    · obtain ⟨cs, hcs, rfl⟩ := List.mem_map.mp hsegment
      rw [String.toList_ofList]
      exact Text.not_mem_of_mem_pieces hcs
  · rintro ⟨htoken, hne, hsegments⟩
    exact ⟨_, htoken, Text.split_intercalate hne hsegments⟩

/-- The tokens of a list are those that its patterns are made of. -/
theorem isToken_iff_mem_parse : IsToken text token ↔ ofToken token ∈ parse text := by
  rw [mem_parse]
  constructor
  · exact fun h => ⟨token, h, rfl⟩
  · rintro ⟨other, hother, heq⟩
    rwa [← intercalate_ofToken token, ← heq, intercalate_ofToken]

/-- The tokens of a list, with commas between them, are its tokens again. -/
theorem tokens_intercalate (text : String) :
    tokens (",".intercalate (tokens text)) = tokens text := by
  have hcomma : ∀ token ∈ tokens text, ',' ∉ token.toList := fun token htoken =>
    (mem_tokens.mp htoken).comma_not_mem
  have hstrip : ∀ token ∈ tokens text, Text.strip token = token := fun token htoken =>
    Text.strip_eq_self (mem_tokens.mp htoken).trimmed
  by_cases hnone : tokens text = []
  · rw [hnone]
    decide
  · have hsplit : Text.split ',' (",".intercalate (tokens text)) = tokens text :=
      Text.split_intercalate_singleton hnone hcomma
    have hmem (token : String) :
        IsToken (",".intercalate (tokens text)) token ↔ IsToken text token := by
      rw [isToken_iff_strip, hsplit, ← mem_tokens]
      constructor
      · rintro ⟨-, piece, hpiece, rfl⟩
        rwa [hstrip piece hpiece]
      · exact fun h => ⟨(mem_tokens.mp h).ne_empty, token, h, hstrip token h⟩
    have hascending (text : String) : Ordered.Ascending compareText (tokens text) :=
      Ordered.ascending_ofList _
    refine Ordered.eq_of_ascending (hascending _) (hascending _) fun token => ?_
    exact mem_tokens.trans ((hmem token).trans mem_tokens.symm)

/-- Lists have the same patterns just if they have the same tokens. -/
theorem parse_eq_parse_iff {text' : String} :
    parse text = parse text' ↔ ∀ token, IsToken text token ↔ IsToken text' token := by
  constructor
  · intro h token
    rw [isToken_iff_mem_parse, h, ← isToken_iff_mem_parse]
  · intro h
    refine sorted_congr fun pattern => ?_
    simp only [List.mem_map, mem_tokens, h]

/-- **A list of patterns has one canonical form.**  The order of patterns is total, and a pattern
comes before its extensions.  The patterns of every text are strictly ascending, and they are
the rows of segments without a slash that make up its tokens; slashes between the segments of
a token and commas between the tokens of a list can be put back.  Texts therefore have the same
patterns just if they have the same tokens, whatever else they differ in. -/
theorem parse_canonical :
    ((∀ left right : Pattern, compare left right = .lt ↔ left < right) ∧
      (∀ left right : Pattern, compare left right = .eq ↔ left = right) ∧
      (∀ left right : Pattern, compare right left = (compare left right).swap) ∧
      (∀ first second third : Pattern, compare first second ≠ .gt → compare second third ≠ .gt →
        compare first third ≠ .gt) ∧
      ∀ (start : Pattern) (segment : String) (rest : List String),
        compare start (start ++ segment :: rest) = .lt) ∧
    (∀ text, Ordered.Ascending compare (parse text) ∧ (parse text).Nodup ∧
      (∀ pattern, pattern ∈ parse text ↔ IsToken text ("/".intercalate pattern) ∧
        pattern ≠ [] ∧ ∀ segment ∈ pattern, '/' ∉ segment.toList) ∧
      tokens (",".intercalate (tokens text)) = tokens text) ∧
    (∀ token, "/".intercalate (ofToken token) = token) ∧
    ∀ text text', parse text = parse text' ↔ ∀ token, IsToken text token ↔ IsToken text' token := by
  refine ⟨⟨fun _ _ => compare_eq_lt, fun _ _ => Std.LawfulEqCmp.compare_eq_iff_eq,
    fun _ _ => Std.OrientedCmp.eq_swap, fun first second third hfirst hsecond => ?_,
    compare_append⟩, fun text => ?_, intercalate_ofToken, fun _ _ => parse_eq_parse_iff⟩
  · have hle : (compare first second).isLE := Ordering.isLE_iff_ne_gt.mpr hfirst
    exact Ordering.isLE_iff_ne_gt.mp
      (Std.TransCmp.isLE_trans hle (Ordering.isLE_iff_ne_gt.mpr hsecond))
  · have hascending : Ordered.Ascending compare (parse text) := Ordered.ascending_ofList _
    exact ⟨hascending, Ordered.nodup_of_ascending hascending, fun _ => mem_parse_iff_isToken,
      tokens_intercalate text⟩

/-- Characters below the slash are where the order of tokens and the order of patterns differ. -/
example : tokens " a/b,a-c,, a-c " = ["a-c", "a/b"] ∧
    parse " a/b,a-c,, a-c " = [["a", "b"], ["a-c"]] := by decide

end HeadFinder.Pattern
