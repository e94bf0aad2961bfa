import HeadFinder.Proofs.Markup.Writing
import Mathlib.Data.List.TakeWhile

/-! # Reading tags that have been written

A name ends where something follows that no name holds, a value ends at its quote, and so a
start tag is read as its name and its attributes, whatever follows it.  Then the references
in the values are expanded, which gives the values back that were written, and names without
prefixes are in no namespace.
-/
namespace HeadFinder.Markup

/-- A computation that has come to a value goes on with it. -/
theorem bind_of_ok {ε α β : Type} {first : Except ε α} {next : α → Except ε β} {value : α}
    (h : first = .ok value) : first >>= next = next value := by
  rw [h]
  rfl

/-! ## Names -/

section Names
variable {word rest : List Char}

/-- A name is read up to where no name goes on. -/
theorem takeName_append (hstart : word.head?.any isNameStart = true)
    (hinside : ∀ c ∈ word, isNameChar c = true)
    (hrest : ∀ c, rest.head? = some c → isNameChar c = false) :
    takeName (word ++ rest) = .ok (word, rest) := by
  have hend : rest.takeWhile isNameChar = [] ∧ rest.dropWhile isNameChar = rest := by
    cases rest with
    | nil => exact ⟨rfl, rfl⟩
    | cons c rest =>
      have hc := hrest c rfl
      exact ⟨List.takeWhile_cons_of_neg (by rw [hc]; decide),
        List.dropWhile_cons_of_neg (by rw [hc]; decide)⟩
  cases word with
  | nil => cases hstart
  | cons c more =>
    have hc : isNameStart c = true := hstart
    unfold takeName
    rw [List.takeWhile_append_of_pos hinside, List.dropWhile_append_of_pos hinside, hend.1, hend.2,
      List.append_nil]
    exact if_pos hc

theorem takeRawName_append (hstart : word.head?.any isNameStart = true)
    (hinside : ∀ c ∈ word, isNameChar c = true)
    (hrest : ∀ c, rest.head? = some c → isNameChar c = false) (hcolon : rest.head? ≠ some ':') :
    takeRawName (word ++ rest) = .ok (⟨none, word⟩, rest) := by
  unfold takeRawName
  rw [takeName_append hstart hinside hrest]
  dsimp only [bind, Except.bind]
  split
  · exact absurd rfl hcolon
  · rfl

end Names

theorem ne_of_isNameStart {c mark : Char} (h : isNameStart c = true)
    (hmark : isNameStart mark = false) : c ≠ mark := by
  rintro rfl
  rw [h] at hmark
  cases hmark

/-- No white space begins a name. -/
theorem isSpace_eq_false_of_isNameStart {c : Char} (h : isNameStart c = true) :
    isSpace c = false := by
  unfold isSpace
  simp only [Bool.or_eq_false_iff, decide_eq_false_iff_not]
  exact ⟨⟨⟨ne_of_isNameStart h (by decide), ne_of_isNameStart h (by decide)⟩,
    ne_of_isNameStart h (by decide)⟩, ne_of_isNameStart h (by decide)⟩

theorem cons_ne_of_isNameStart {c mark : Char} (h : isNameStart c = true)
    (hmark : isNameStart mark = false) (more after : List Char) : c :: more ≠ mark :: after :=
  fun heq => ne_of_isNameStart h hmark (List.cons.inj heq).1

theorem IsWord.exists_cons {name : QualifiedName} (h : IsWord name) :
    ∃ c more, name.base = c :: more ∧ isNameStart c = true := by
  have hstart := h.start
  cases hbase : name.base with
  | nil =>
    rw [hbase] at hstart
    cases hstart
  | cons c more =>
    rw [hbase] at hstart
    exact ⟨c, more, rfl, hstart⟩

theorem skipSpace_of_head {c : Char} (h : isSpace c = false) (rest : List Char) :
    skipSpace (c :: rest) = c :: rest :=
  List.dropWhile_cons_of_neg (by rw [h]; decide)

theorem skipSpace_append {space : List Char} (h : ∀ c ∈ space, isSpace c = true)
    (rest : List Char) : skipSpace (space ++ rest) = skipSpace rest :=
  List.dropWhile_append_of_pos h

theorem expect_skipSpace {c : Char} (h : isSpace c = false) {rest : List Char} :
    expect c (skipSpace (c :: rest)) = .ok rest := by
  rw [skipSpace_of_head h, expect, if_pos rfl]

theorem takeQuote_skipSpace {rest : List Char} :
    takeQuote (skipSpace ('"' :: rest)) = .ok ('"', rest) := by
  rw [skipSpace_of_head (by decide)]
  rfl

/-! ## References -/

theorem isQuotable_iff {c : Char} : isQuotable c = true ↔ isChar c = true ∧ c ≠ '<' ∧ c ≠ '&' ∧
    c ≠ '>' ∧ c ≠ '"' ∧ c ≠ '\'' ∧ (c = ' ' ∨ isSpace c = false) := by
  simp only [isQuotable, Bool.and_eq_true, decide_eq_true_eq, Bool.or_eq_true, Bool.not_eq_true',
    and_assoc]

/-- The characters that have references. -/
def referable : List Char :=
  ['<', '&', '>', '"', '\'', '\t', '\n', '\r']

theorem mem_referable_of_not_quotable {c : Char} (hchar : isChar c = true)
    (h : isQuotable c = false) : c ∈ referable := by
  by_contra hno
  simp only [referable, List.mem_cons, List.not_mem_nil, or_false, not_or] at hno
  obtain ⟨hopen, hreference, hclose, hquote, happ, htab, hline, hreturn⟩ := hno
  have hspace : c = ' ' ∨ isSpace c = false := by
    by_cases hblank : c = ' '
    · exact Or.inl hblank
    · simp only [isSpace, hblank, htab, hline, hreturn, decide_false, Bool.or_self, or_true]
  exact Bool.false_ne_true
    (h.symm.trans (isQuotable_iff.mpr ⟨hchar, hopen, hreference, hclose, hquote, happ, hspace⟩))

/-- A reference stands for the character that it is written for. -/
theorem takeReference_referenceTo {c : Char} (hc : c ∈ referable) (rest : List Char) :
    ∃ reference, takeReference ((referenceTo c).toList ++ ';' :: rest) = .ok (reference, rest) ∧
      reference.char? = some c := by
  simp only [referable, List.mem_cons, List.not_mem_nil, or_false] at hc
  rcases hc with rfl | rfl | rfl | rfl | rfl | rfl | rfl | rfl
  · exact ⟨.entity "lt".toList, rfl, rfl⟩
  · exact ⟨.entity "amp".toList, rfl, rfl⟩
  · exact ⟨.entity "gt".toList, rfl, rfl⟩
  · exact ⟨.entity "quot".toList, rfl, rfl⟩
  · exact ⟨.entity "apos".toList, rfl, rfl⟩
  · exact ⟨.number 9, rfl, rfl⟩
  · exact ⟨.number 10, rfl, rfl⟩
  · exact ⟨.number 13, rfl, rfl⟩

theorem isQuotable_referenceTo :
    ∀ c ∈ referable, ∀ d ∈ (referenceTo c).toList ++ [';'], isQuotable d = true := by
  have hall : referable.all (fun c => ((referenceTo c).toList ++ [';']).all isQuotable) = true := by
    decide
  exact fun c hc => List.all_eq_true.mp (List.all_eq_true.mp hall c hc)

section Escapes
variable {plain : Char → Bool}

theorem escape_cons_of_plain {c : Char} (h : plain c = true) (cs : List Char) :
    escape plain (c :: cs) = c :: escape plain cs := by
  unfold escape
  rw [List.flatMap_cons, if_pos h]
  rfl

theorem escape_cons_of_reference {c : Char} (h : plain c = false) (cs : List Char) :
    escape plain (c :: cs) = '&' :: ((referenceTo c).toList ++ ';' :: escape plain cs) := by
  unfold escape
  rw [List.flatMap_cons, if_neg (by rw [h]; decide), List.append_assoc]
  rfl

/-- A text does not get shorter. -/
theorem length_le_escape (plain : Char → Bool) (cs : List Char) :
    cs.length ≤ (escape plain cs).length := by
  induction cs with
  | nil => exact Nat.le_refl 0
  | cons c cs ih =>
    cases hc : plain c with
    | true =>
      rw [escape_cons_of_plain hc, List.length_cons, List.length_cons]
      omega
    | false =>
      rw [escape_cons_of_reference hc, List.length_cons, List.length_cons, List.length_append,
        List.length_cons]
      omega

end Escapes

/-! ## Attributes -/

/-- Characters that stand for themselves are taken into a value. -/
theorem takeValue_append {piece : List Char} (h : ∀ c ∈ piece, isQuotable c = true)
    (held rest : List Char) :
    takeValue '"' held (piece ++ rest) = takeValue '"' (piece.reverse ++ held) rest := by
  induction piece generalizing held with
  | nil => rfl
  | cons c piece ih =>
    obtain ⟨hc, hpiece⟩ := List.forall_mem_cons.mp h
    obtain ⟨hchar, hopen, hreference, -, hquote, -⟩ := isQuotable_iff.mp hc
    rw [List.cons_append, takeValue, if_neg hquote, if_neg (by simp [hopen, hchar]),
      if_neg hreference]
    dsimp only
    rw [ih hpiece, List.reverse_cons, List.append_assoc, List.singleton_append]

/-- A value is read up to its quote, with its references. -/
theorem takeValue_escape {value : List Char} (h : ∀ c ∈ value, isChar c = true)
    (held rest : List Char) :
    takeValue '"' held (escape isQuotable value ++ '"' :: rest) =
      .ok (held.reverse ++ escape isQuotable value, rest) := by
  induction value generalizing held with
  | nil =>
    show takeValue '"' held ('"' :: rest) = _
    rw [takeValue, if_pos rfl]
    exact congrArg (fun text => Except.ok (text, rest)) (List.append_nil _).symm
  | cons c value ih =>
    obtain ⟨hchar, hvalue⟩ := List.forall_mem_cons.mp h
    by_cases hc : isQuotable c = true
    · have hone := takeValue_append (List.forall_mem_singleton.mpr hc) held
        (escape isQuotable value ++ '"' :: rest)
      rw [List.reverse_singleton, List.singleton_append, List.singleton_append] at hone
      rw [escape_cons_of_plain hc, List.cons_append, hone, ih hvalue, List.reverse_cons,
        List.append_assoc, List.singleton_append]
    · rw [Bool.not_eq_true] at hc
      have hmem := mem_referable_of_not_quotable hchar hc
      obtain ⟨reference, hreference, -⟩ := takeReference_referenceTo hmem
        (escape isQuotable value ++ '"' :: rest)
      have hpiece := takeValue_append (isQuotable_referenceTo c hmem) ('&' :: held)
        (escape isQuotable value ++ '"' :: rest)
      rw [List.append_assoc, List.singleton_append] at hpiece
      rw [escape_cons_of_reference hc, List.cons_append, List.append_assoc, List.cons_append,
        takeValue, if_neg (by decide), if_neg (by decide), if_pos rfl, hreference]
      show takeValue '"' ('&' :: held) _ = _
      rw [hpiece, ih hvalue]
      simp only [List.reverse_append, List.reverse_cons, List.reverse_reverse, List.append_assoc,
        List.cons_append, List.nil_append]

/-- An attribute that begins a row of them is read as its name and its value. -/
theorem takeTagAttributes_cons (layout : Layout) {name : QualifiedName} (hname : IsWord name)
    {value : List Char} (hvalue : ∀ c ∈ value, isChar c = true) (b : Char)
    (budget rest : List Char) (found : List RawAttribute) :
    ∃ nameStart valueStart, takeTagAttributes (b :: budget) found
      (layout.gap ++ (name.base ++ '=' :: '"' :: (escape isQuotable value ++ '"' :: rest))) =
        takeTagAttributes budget
          (⟨⟨none, name.base⟩, escape isQuotable value, nameStart, valueStart⟩ :: found) rest := by
  have hvalue := takeValue_escape hvalue [] rest
  generalize escape isQuotable value ++ '"' :: rest = quoted at hvalue ⊢
  obtain ⟨c, more, hbase, hc⟩ := hname.exists_cons
  have hskip : skipSpace (name.base ++ '=' :: '"' :: quoted) =
      name.base ++ '=' :: '"' :: quoted := by
    rw [hbase]
    exact skipSpace_of_head (isSpace_eq_false_of_isNameStart hc) _
  have hspace : needSpace (layout.gap ++ (name.base ++ '=' :: '"' :: quoted)) =
      .ok (name.base ++ '=' :: '"' :: quoted) := by
    obtain ⟨space, gap, hgap⟩ := List.exists_cons_of_ne_nil layout.gap_ne_nil
    have hfirst : isSpace space = true :=
      layout.gap_space space (by rw [hgap]; exact List.mem_cons_self ..)
    unfold needSpace
    rw [skipSpace_append layout.gap_space, hskip, hgap]
    exact if_pos hfirst
  have hraw : takeRawName (name.base ++ '=' :: '"' :: quoted) =
      .ok (⟨none, name.base⟩, '=' :: '"' :: quoted) :=
    takeRawName_append hname.start hname.inside (by rintro c ⟨⟩; decide) (by simp)
  have hends : ∀ {mark : Char}, isNameStart mark = false →
      ∀ after, name.base ++ '=' :: '"' :: quoted ≠ mark :: after := by
    intro mark hmark after
    rw [hbase]
    exact cons_ne_of_isNameStart hc hmark _ after
  refine ⟨name.base ++ '=' :: '"' :: quoted, quoted, ?_⟩
  rw [takeTagAttributes, skipSpace_append layout.gap_space, hskip]
  split
  · rename_i heq
    exact absurd heq (hends (by decide) _)
  · rename_i heq
    exact absurd heq (hends (by decide) _)
  · rw [bind_of_ok hspace, bind_of_ok hraw]
    dsimp only
    rw [bind_of_ok (expect_skipSpace (by decide)), bind_of_ok takeQuote_skipSpace]
    dsimp only
    rw [bind_of_ok hvalue]
    rfl

/-- Attributes as they are written. -/
def rawAttributes (attributes : List (QualifiedName × String)) : List (RawName × List Char) :=
  attributes.map fun given => (⟨none, given.1.base⟩, escape isQuotable given.2.toList)

/-- Attributes with the values that they stand for. -/
def givenAttributes (attributes : List (QualifiedName × String)) : List (RawName × List Char) :=
  attributes.map fun given => (⟨none, given.1.base⟩, given.2.toList)

section Attributes
variable {attributes : List (QualifiedName × String)}

/-- A row of attributes is read as such up to the end of the tag. -/
theorem takeTagAttributes_row (layout : Layout) (rest : List Char)
    (h : ∀ given ∈ attributes, IsWord given.1 ∧ ∀ c ∈ given.2.toList, isChar c = true)
    (budget : List Char) (hbudget : attributes.length < budget.length)
    (found : List RawAttribute) :
    ∃ raws, takeTagAttributes budget found
        (attributes.flatMap (attributeText layout) ++ '>' :: rest) =
          .ok (found.reverse ++ raws, false, rest) ∧
      raws.map (fun raw => (raw.name, raw.value)) = rawAttributes attributes := by
  induction attributes generalizing budget found with
  | nil =>
    cases budget with
    | nil => cases hbudget
    | cons b budget =>
      refine ⟨[], ?_, rfl⟩
      rw [List.flatMap_nil, List.nil_append, takeTagAttributes, List.append_nil,
        skipSpace_of_head (show isSpace '>' = false by decide)]
      rfl
  | cons given attributes ih =>
    cases budget with
    | nil => cases hbudget
    | cons b budget =>
      obtain ⟨⟨hname, hvalue⟩, hattributes⟩ := List.forall_mem_cons.mp h
      obtain ⟨nameStart, valueStart, hfirst⟩ := takeTagAttributes_cons layout hname hvalue b budget
        (attributes.flatMap (attributeText layout) ++ '>' :: rest) found
      obtain ⟨raws, hrest, hraws⟩ := ih hattributes budget (by simpa using hbudget)
        (⟨⟨none, given.1.base⟩, escape isQuotable given.2.toList, nameStart, valueStart⟩ :: found)
      refine ⟨⟨⟨none, given.1.base⟩, escape isQuotable given.2.toList, nameStart, valueStart⟩ ::
        raws, ?_, ?_⟩
      · rw [List.reverse_cons, List.append_assoc, List.singleton_append] at hrest
        rw [List.flatMap_cons, ← hrest, ← hfirst, attributeText]
        simp only [List.append_assoc, List.cons_append, List.nil_append]
      · rw [List.map_cons, hraws]
        rfl

theorem length_le_row (layout : Layout) (attributes : List (QualifiedName × String)) :
    attributes.length ≤ (attributes.flatMap (attributeText layout)).length := by
  induction attributes with
  | nil => exact Nat.le_refl 0
  | cons given attributes ih =>
    rw [List.flatMap_cons, List.length_append, List.length_cons]
    have hfirst : 0 < (attributeText layout given).length := by
      simp only [attributeText, List.length_append, List.length_cons]
      omega
    omega

/-- What follows the name of a start tag ends the name. -/
theorem head?_row (layout : Layout) (attributes : List (QualifiedName × String)) (rest : List Char)
    {c : Char} (h : (attributes.flatMap (attributeText layout) ++ '>' :: rest).head? = some c) :
    isNameChar c = false ∧ c ≠ ':' := by
  have hends : ∀ c, isSpace c = true ∨ c = '>' → isNameChar c = false ∧ c ≠ ':' := by
    intro c hc
    simp only [isSpace, Bool.or_eq_true, decide_eq_true_eq] at hc
    rcases hc with (((rfl | rfl) | rfl) | rfl) | rfl <;> decide
  refine hends c ?_
  cases attributes with
  | nil =>
    cases h
    exact Or.inr rfl
  | cons given attributes =>
    obtain ⟨space, gap, hgap⟩ := List.exists_cons_of_ne_nil layout.gap_ne_nil
    rw [List.flatMap_cons, attributeText, hgap] at h
    cases h
    exact Or.inl (layout.gap_space _ (by rw [hgap]; exact List.mem_cons_self ..))

/-- **A start tag is read as its name and its attributes.** -/
theorem takeTag_openingTag (layout : Layout) {name : QualifiedName} (hname : IsWord name)
    (h : ∀ given ∈ attributes, IsWord given.1 ∧ ∀ c ∈ given.2.toList, isChar c = true)
    (rest : List Char) :
    ∃ raws, takeTag ((openingTag layout name attributes ++ rest).drop 1) =
        .ok (⟨none, name.base⟩, raws, false, rest) ∧
      raws.map (fun raw => (raw.name, raw.value)) = rawAttributes attributes := by
  have htext : (openingTag layout name attributes ++ rest).drop 1 =
      name.base ++ (attributes.flatMap (attributeText layout) ++ '>' :: rest) := by
    simp [openingTag]
  have hraw := takeRawName_append hname.start hname.inside
    (fun c hc => (head?_row layout attributes rest hc).1)
    (fun hc => (head?_row layout attributes rest hc).2 rfl)
  have hbudget : attributes.length <
      (name.base ++ (attributes.flatMap (attributeText layout) ++ '>' :: rest)).length := by
    have := length_le_row layout attributes
    rw [List.length_append, List.length_append, List.length_cons]
    omega
  obtain ⟨raws, hrow, hraws⟩ := takeTagAttributes_row layout rest h _ hbudget []
  refine ⟨raws, ?_, hraws⟩
  rw [htext, takeTag, bind_of_ok hraw]
  dsimp only
  rw [bind_of_ok hrow]
  rfl

end Attributes

/-! ## What becomes of attributes -/

section Values
variable {standalone : Bool} {allowance spent : Nat}

/-- **A value is expanded to what it was before it was escaped.** -/
theorem expand_escape {declarations : Declarations} {value : List Char}
    (h : ∀ c ∈ value, isChar c = true) (held : List Char) {fuel : Nat}
    (hfuel : value.length + 2 ≤ fuel) :
    expand declarations allowance fuel ⟨[⟨[], escape isQuotable value⟩], held, spent⟩ =
      .ok (held.reverse ++ value, spent) := by
  induction value generalizing held fuel with
  | nil =>
    obtain ⟨fuel, rfl⟩ := Nat.exists_eq_add_of_le' hfuel
    rw [List.append_nil]
    rfl
  | cons c value ih =>
    obtain ⟨fuel, rfl⟩ := Nat.exists_eq_add_of_le' hfuel
    obtain ⟨hcharacter, hvalue⟩ := List.forall_mem_cons.mp h
    have hrest := ih hvalue (c :: held)
      (show value.length + 2 ≤ fuel + (value.length + 1) + 1 by omega)
    rw [List.reverse_cons, List.append_assoc, List.singleton_append] at hrest
    rw [show fuel + ((c :: value).length + 2) = fuel + (value.length + 1) + 1 + 1 by
      rw [List.length_cons]; omega]
    by_cases hc : isQuotable c = true
    · obtain ⟨hchar, hopen, hreference, -, -, -, hspace⟩ := isQuotable_iff.mp hc
      have hreturn : c ≠ '\r' := by
        rintro rfl
        rcases hspace with h | h <;> revert h <;> decide
      have hself : (if isSpace c then ' ' else c) = c := by
        rcases hspace with rfl | h
        · rfl
        · rw [h]
          rfl
      rw [escape_cons_of_plain hc]
      unfold expand
      dsimp only
      rw [if_neg (by simp [hopen, hchar]), if_neg hreference, if_neg (by simp [hreturn]), hself]
      exact hrest
    · rw [Bool.not_eq_true] at hc
      obtain ⟨reference, htake, hstands⟩ := takeReference_referenceTo
        (mem_referable_of_not_quotable hcharacter hc) (escape isQuotable value)
      rw [escape_cons_of_reference hc]
      unfold expand
      dsimp only
      rw [if_neg (by decide), if_pos rfl, htake]
      dsimp only
      rw [hstands]
      exact hrest

theorem attributeValue_escape {declarations : Declarations} {value : List Char}
    (h : ∀ c ∈ value, isChar c = true) :
    attributeValue declarations allowance spent false (escape isQuotable value) =
      .ok (value, spent) := by
  have hlength := length_le_escape isQuotable value
  unfold attributeValue
  rw [bind_of_ok (expand_escape h [] (by omega))]
  rfl

/-- Attributes without declarations have the values that they stand for. -/
theorem attributeValues_row {start : List Char} {element : RawName}
    {attributes : List (QualifiedName × String)} {raws : List RawAttribute}
    (hraws : raws.map (fun raw => (raw.name, raw.value)) = rawAttributes attributes)
    (h : ∀ given ∈ attributes, ∀ c ∈ given.2.toList, isChar c = true)
    (found : List (RawName × List Char))
    (hdistinct : ((found ++ givenAttributes attributes).map Prod.fst).Nodup) :
    attributeValues (.empty standalone) allowance start element found spent raws =
      .ok (found.reverse ++ givenAttributes attributes, spent) := by
  induction attributes generalizing raws found with
  | nil =>
    rw [List.map_eq_nil_iff.mp hraws]
    exact congrArg (fun given => Except.ok (given, spent)) (List.append_nil _).symm
  | cons given attributes ih =>
    obtain ⟨hgiven, hmore⟩ := List.forall_mem_cons.mp h
    obtain ⟨raw, raws, rfl, hraw, hraws⟩ := List.map_eq_cons_iff.mp hraws
    have hname : raw.name = ⟨none, given.1.base⟩ := congrArg Prod.fst hraw
    have hraw : raw.value = escape isQuotable given.2.toList := congrArg Prod.snd hraw
    have hsplit : found ++ givenAttributes (given :: attributes) =
        found ++ (raw.name, given.2.toList) :: givenAttributes attributes := by
      rw [hname]
      rfl
    rw [hsplit, List.map_append, List.map_cons] at hdistinct
    have hnew : found.any (fun other => decide (other.1 = raw.name)) = false := by
      rw [List.any_eq_false]
      intro other hother heq
      rw [List.nodup_append] at hdistinct
      exact hdistinct.2.2 other.1 (List.mem_map_of_mem hother) raw.name (List.mem_cons_self ..)
        (of_decide_eq_true heq)
    have hvalue : attributeValue (.empty standalone) allowance spent false raw.value =
        .ok (given.2.toList, spent) := by
      rw [hraw]
      exact attributeValue_escape hgiven
    -- There is no rule for any attribute.
    have hmapped : Except.mapError (Trouble.fault start (raw.valueStart.drop raw.value.length))
        (attributeValue (.empty standalone) allowance spent ((((Declarations.empty standalone).rule?
          element raw.name).map (·.tokenized)).getD false) raw.value) =
            .ok (given.2.toList, spent) := congrArg (Except.mapError _) hvalue
    have hrest := ih hraws hmore ((raw.name, given.2.toList) :: found) (by
      rw [List.cons_append, List.map_cons, List.map_append]
      exact List.perm_middle.nodup_iff.mp hdistinct)
    unfold attributeValues
    dsimp only
    rw [hnew, if_neg Bool.false_ne_true]
    rw [bind_of_ok hmapped, hrest, List.reverse_cons, List.append_assoc, hname]
    rfl

/-- Without declarations of prefixes the prefixes in force stay the same. -/
theorem bindAll_row {attributes : List (QualifiedName × String)}
    (h : ∀ given ∈ attributes, IsWord given.1) (spaces : Spaces) :
    bindAll spaces (givenAttributes attributes) = .ok spaces := by
  induction attributes with
  | nil => rfl
  | cons given attributes ih =>
    obtain ⟨hword, hmore⟩ := List.forall_mem_cons.mp h
    have hown : RawName.declares? ⟨none, given.1.base⟩ = none := if_neg hword.own
    rw [givenAttributes, List.map_cons, bindAll, hown]
    exact ih hmore

theorem allDistinct_of_nodup {α : Type} [BEq α] [LawfulBEq α] {as : List α} (h : as.Nodup) :
    allDistinct as = true := by
  induction as with
  | nil => rfl
  | cons a as ih =>
    obtain ⟨hnew, hrest⟩ := List.nodup_cons.mp h
    rw [allDistinct, ih hrest, Bool.and_true, Bool.not_eq_true']
    exact Bool.eq_false_iff.mpr fun hmem => hnew (List.contains_iff_mem.mp hmem)

theorem resolve_word {name : QualifiedName} (h : IsWord name) (isElement : Bool) :
    RawName.resolve baseSpaces isElement ⟨none, name.base⟩ = .ok name := by
  obtain ⟨space, base⟩ := name
  cases h.space
  rfl

theorem mapM_resolve {attributes : List (QualifiedName × String)}
    (h : ∀ given ∈ attributes, IsWord given.1) :
    ((givenAttributes attributes).filter (·.1.declares?.isNone)).mapM (fun (name, value) => do
      return (← name.resolve baseSpaces false, String.ofList value)) =
        (.ok attributes : Except Cause _) := by
  induction attributes with
  | nil => rfl
  | cons given attributes ih =>
    obtain ⟨hword, hmore⟩ := List.forall_mem_cons.mp h
    have hown : RawName.declares? ⟨none, given.1.base⟩ = none := if_neg hword.own
    have hrest := ih hmore
    unfold givenAttributes at *
    rw [List.map_cons, List.filter_cons_of_pos (by rw [hown]; rfl), List.mapM_cons]
    rw [bind_of_ok (show _ = (.ok given : Except Cause _) from ?_), bind_of_ok hrest]
    · rfl
    · dsimp only
      rw [bind_of_ok (resolve_word hword false), String.ofList_toList]
      rfl

/-- **A tag of words is in no namespace.** -/
theorem resolveTag_row {reader : Reader} {name : QualifiedName}
    {attributes : List (QualifiedName × String)} (hname : IsWord name)
    (h : ∀ given ∈ attributes, IsWord given.1) (hdistinct : (attributes.map Prod.fst).Nodup)
    (hspaces : (reader.frames.head?.map Frame.spaces).getD baseSpaces = baseSpaces) :
    reader.resolveTag ⟨none, name.base⟩ (givenAttributes attributes) =
      .ok (name, attributes, baseSpaces) := by
  unfold Reader.resolveTag
  rw [hspaces]
  dsimp only
  rw [bind_of_ok (bindAll_row h baseSpaces), bind_of_ok (mapM_resolve h),
    allDistinct_of_nodup hdistinct, Bool.not_true, if_neg Bool.false_ne_true]
  exact bind_of_ok (resolve_word hname true)

end Values

end HeadFinder.Markup
