import HeadFinder.Json.Printer
import HeadFinder.Json.Reader
import HeadFinder.Proofs.Numeral.Integer

/-! # Reading numbers that have been written

The text of a number has a row of digits, in which a zero leads only if it stands alone, then a
point and more digits if it has a fraction, and an exponent if it has one.  Such a text is read
part by part up to what follows it.  An integer without too many digits is read back as itself;
a binary fraction is read as one that depends on its text alone.
-/
namespace HeadFinder.Json

/-- What may follow a value that has been written: nothing, a comma, or a new line. -/
def Apart (rest : List Char) : Prop :=
  ∀ c ∈ rest.head?, c = ',' ∨ c = '\n'

theorem apart_nil : Apart [] := by simp [Apart]

theorem apart_comma (rest : List Char) : Apart (',' :: rest) := by simp [Apart]

theorem apart_newLine (level : Nat) (rest : List Char) : Apart (newLine level ++ rest) := by
  simp [Apart, newLine]

/-! ## The parts of a number -/

/-- The parts of a number without its sign; the exponent has a sign of its own. -/
structure Parts where
  whole : List Char
  fraction : List Char
  exponent : Option (Bool × List Char)

namespace Parts

/-- The fraction with its point, if there is one. -/
def fractionText (parts : Parts) : List Char :=
  if parts.fraction.isEmpty then [] else '.' :: parts.fraction

/-- The exponent with its mark and its sign, if there is one. -/
def exponentText (parts : Parts) : List Char :=
  match parts.exponent with
  | none => []
  | some (negative, row) => 'e' :: (if negative then '-' else '+') :: row

/-- The text of a number. -/
def text (parts : Parts) : List Char :=
  parts.whole ++ (parts.fractionText ++ parts.exponentText)

/-- What the exponent stands for. -/
def power (parts : Parts) : Int :=
  match parts.exponent with
  | none => 0
  | some (negative, row) => if negative then -(Numeral.value row : Int) else Numeral.value row

/-- The rows are of digits, and a zero leads only where it stands alone. -/
structure WellFormed (parts : Parts) : Prop where
  whole : ∀ c ∈ parts.whole, c.isDigit = true
  leading : parts.whole = ['0'] ∨ ∃ c more, parts.whole = c :: more ∧ c ≠ '0'
  fraction : ∀ c ∈ parts.fraction, c.isDigit = true
  exponent : ∀ row ∈ parts.exponent, row.2 ≠ [] ∧ ∀ c ∈ row.2, c.isDigit = true

end Parts

/-! ## Reading the parts -/

section Reading
variable {row rest : List Char} {parts : Parts}

theorem digits_append (hrow : ∀ c ∈ row, c.isDigit = true)
    (hrest : ∀ c ∈ rest.head?, c.isDigit = false) : digits (row ++ rest) = (row, rest) := by
  unfold digits
  rw [List.takeWhile_append_of_pos hrow, List.dropWhile_append_of_pos hrow]
  cases rest with
  | nil => simp
  | cons c rest =>
    have hc : c.isDigit = false := hrest c rfl
    simp [hc]

theorem takeWhole_append (h : parts.WellFormed) (hrest : ∀ c ∈ rest.head?, c.isDigit = false) :
    takeWhole (parts.whole ++ rest) = (parts.whole, rest) := by
  rcases h.leading with hzero | ⟨c, more, hwhole, hc⟩
  · rw [hzero]
    rfl
  · have hdigits := digits_append h.whole hrest
    rw [hwhole, List.cons_append] at hdigits ⊢
    rw [takeWhole]
    · exact hdigits
    · simpa using hc

theorem takeFraction_append (h : parts.WellFormed)
    (hrest : ∀ c ∈ rest.head?, c.isDigit = false ∧ c ≠ '.') :
    (takeFraction (parts.fractionText ++ rest)).getD ([], parts.fractionText ++ rest) =
      (parts.fraction, rest) := by
  unfold Parts.fractionText
  by_cases hfraction : parts.fraction = []
  · have hnone : takeFraction rest = none := by
      cases rest with
      | nil => rfl
      | cons c rest =>
        obtain ⟨-, hpoint⟩ := hrest c rfl
        rw [takeFraction]
        simpa using hpoint
    simp [hfraction, hnone]
  · have hdigits := digits_append h.fraction fun c hc => (hrest c hc).1
    simp [hfraction, takeFraction, hdigits]

theorem takeExponent_append (h : parts.WellFormed)
    (hrest : ∀ c ∈ rest.head?, c.isDigit = false ∧ c ≠ 'e' ∧ c ≠ 'E') :
    (takeExponent (parts.exponentText ++ rest)).getD (0, parts.exponentText ++ rest) =
      (parts.power, rest) := by
  unfold Parts.exponentText Parts.power
  cases hexponent : parts.exponent with
  | none =>
    have hnone : takeExponent rest = none := by
      cases rest with
      | nil => rfl
      | cons c rest =>
        obtain ⟨-, hsmall, hlarge⟩ := hrest c rfl
        simp [takeExponent, hsmall, hlarge]
    simp [hnone]
  | some exponent =>
    obtain ⟨negative, row⟩ := exponent
    obtain ⟨hne, hrow⟩ := h.exponent _ hexponent
    have hdigits := digits_append hrow fun c hc => (hrest c hc).1
    cases negative <;> simp [takeExponent, Numeral.takeSign, hdigits, hne]

/-- The parts of a number are read up to what follows the last of them. -/
theorem takeUnsigned_text (h : parts.WellFormed) (negative : Bool) (hrest : Apart rest) :
    takeUnsigned negative (parts.text ++ rest) =
      if parts.fractionText ++ parts.exponentText = [] then
        if Failure.digitLimit < parts.whole.length then none
        else
          let n : Int := Numeral.value parts.whole
          some (.whole (if negative then -n else n), rest)
      else
        some (.binary (.ofDecimal negative (Numeral.value (parts.whole ++ parts.fraction))
          (parts.power - parts.fraction.length)), rest) := by
  have hend : ∀ c ∈ rest.head?, c.isDigit = false ∧ c ≠ '.' ∧ c ≠ 'e' ∧ c ≠ 'E' := by
    intro c hc
    rcases hrest c hc with rfl | rfl <;> decide
  have hexponent : ∀ c ∈ (parts.exponentText ++ rest).head?, c.isDigit = false ∧ c ≠ '.' := by
    unfold Parts.exponentText
    cases parts.exponent with
    | none => exact fun c hc => ⟨(hend c hc).1, (hend c hc).2.1⟩
    | some => simp
  have hfraction : ∀ c ∈ (parts.fractionText ++ (parts.exponentText ++ rest)).head?,
      c.isDigit = false := by
    unfold Parts.fractionText
    cases parts.fraction with
    | nil => exact fun c hc => (hexponent c hc).1
    | cons => simp
  have hwhole : parts.whole ≠ [] := by
    rcases h.leading with hzero | ⟨c, more, hlead, -⟩ <;> simp [*]
  unfold takeUnsigned Parts.text
  rw [List.append_assoc, List.append_assoc, takeWhole_append h hfraction]
  dsimp only
  rw [takeFraction_append h hexponent]
  dsimp only
  rw [takeExponent_append h fun c hc => ⟨(hend c hc).1, (hend c hc).2.2⟩]
  dsimp only
  rw [if_neg (by simpa using hwhole)]
  by_cases hnone : parts.fractionText ++ parts.exponentText = []
  · have hlength : rest.length = (parts.fractionText ++ (parts.exponentText ++ rest)).length := by
      simp [← List.append_assoc, hnone]
    rw [if_pos hlength, if_pos hnone, ← List.append_assoc, hnone]
    rfl
  · have hlength : rest.length ≠ (parts.fractionText ++ (parts.exponentText ++ rest)).length := by
      have hpos := List.length_pos_iff.mpr hnone
      simp only [List.length_append] at hpos ⊢
      omega
    rw [if_neg hlength, if_neg hnone]

/-- A text of digits begins with one. -/
theorem Parts.WellFormed.exists_digit (h : parts.WellFormed) :
    ∃ c more, parts.text = c :: more ∧ c.isDigit = true := by
  rcases h.leading with hzero | ⟨c, more, hlead, -⟩
  · exact ⟨'0', _, by rw [Parts.text, hzero, List.singleton_append], rfl⟩
  · refine ⟨c, _, by rw [Parts.text, hlead, List.cons_append], h.whole c ?_⟩
    rw [hlead]
    exact List.mem_cons_self

/-- The sign of a number. -/
def signText (negative : Bool) : List Char :=
  if negative then ['-'] else []

theorem takeNumber_text (h : parts.WellFormed) (negative : Bool) (rest : List Char) :
    takeNumber (signText negative ++ parts.text ++ rest) =
      takeUnsigned negative (parts.text ++ rest) := by
  cases negative with
  | true => rfl
  | false =>
    obtain ⟨c, more, htext, hdigit⟩ := h.exists_digit
    have hsign : c ≠ '-' := Numeral.forall_isDigit (· ≠ '-') (by decide) hdigit
    rw [signText, if_neg Bool.false_ne_true, List.nil_append, htext, List.cons_append, takeNumber]
    simpa using hsign

end Reading

/-! ## Integers -/

theorem leading_toDigits (n : Nat) :
    Nat.toDigits 10 n = ['0'] ∨ ∃ c more, Nat.toDigits 10 n = c :: more ∧ c ≠ '0' := by
  induction n using Nat.strongRecOn with
  | ind n ih =>
    by_cases hzero : n = 0
    · exact .inl (by rw [hzero, Nat.toDigits_zero])
    refine .inr ?_
    by_cases hsmall : n < 10
    · have hdigit : ∀ n < 10, n ≠ 0 → n.digitChar ≠ '0' := by decide
      exact ⟨_, _, Nat.toDigits_of_lt_base hsmall, hdigit n hsmall hzero⟩
    · rw [Nat.toDigits_of_base_le (by decide) (Nat.le_of_not_lt hsmall)]
      rcases ih (n / 10) (by omega) with hlead | ⟨c, more, hlead, hc⟩
      · -- what is left of a number without its last digit is not zero
        have hback : Nat.ofDigitChars 10 (Nat.toDigits 10 (n / 10)) 0 = n / 10 :=
          Nat.ofDigitChars_ten_toDigits
        rw [hlead] at hback
        have : n / 10 = 0 := hback.symm
        omega
      · exact ⟨c, _, by rw [hlead, List.cons_append], hc⟩

theorem wellFormed_toDigits (n : Nat) : Parts.WellFormed ⟨Nat.toDigits 10 n, [], none⟩ where
  whole c hc := Nat.isDigit_of_mem_toDigits (by decide) (by decide) hc
  leading := leading_toDigits n
  fraction := by simp
  exponent := by simp

theorem writeNumber_whole (n : Int) :
    writeNumber (.whole n) = signText (n < 0) ++ Nat.toDigits 10 n.natAbs := by
  cases n with
  | ofNat n =>
    have hsign : ¬ (Int.ofNat n < 0) := Int.not_lt.mpr (Int.natCast_nonneg n)
    rw [decide_eq_false hsign]
    exact Numeral.toList_toString n
  | negSucc n =>
    rw [decide_eq_true (Int.negSucc_lt_zero n)]
    have htext : (Number.whole (Int.negSucc n)).text = "-" ++ toString ((n + 1 : Nat) : Int) := rfl
    show (Number.whole (Int.negSucc n)).text.toList = _
    rw [htext, String.toList_append, Numeral.toList_toString]
    rfl

/-- The text of an integer begins with a digit, behind its sign. -/
theorem exists_digit_whole (n : Int) : ∃ negative c more,
    writeNumber (.whole n) = signText negative ++ c :: more ∧ c.isDigit = true := by
  obtain ⟨c, more, htext, hc⟩ := (wellFormed_toDigits n.natAbs).exists_digit
  refine ⟨decide (n < 0), c, more, ?_, hc⟩
  rw [writeNumber_whole, ← htext, Parts.text, Parts.fractionText, Parts.exponentText]
  simp

/-- **An integer is read back from its digits, if it does not have too many.** -/
theorem takeNumber_whole {n : Int} (hshort : Numeral.Short n.natAbs) {rest : List Char}
    (hrest : Apart rest) :
    takeNumber (writeNumber (.whole n) ++ rest) = some (.whole n, rest) := by
  have hparts := wellFormed_toDigits n.natAbs
  have htext : Parts.text ⟨Nat.toDigits 10 n.natAbs, [], none⟩ = Nat.toDigits 10 n.natAbs := by
    simp [Parts.text, Parts.fractionText, Parts.exponentText]
  have hsign : (if n < 0 then -(n.natAbs : Int) else n.natAbs) = n := by
    split <;> omega
  rw [writeNumber_whole, ← htext, takeNumber_text hparts, takeUnsigned_text hparts _ hrest,
    if_pos (by simp [Parts.fractionText, Parts.exponentText])]
  dsimp only
  rw [if_neg (Nat.not_lt.mpr (Numeral.short_iff.mp hshort)), Numeral.value_toDigits]
  simp only [decide_eq_true_eq, hsign]

/-! ## Binary fractions -/

section Decimal
variable {decimal : Binary64.Decimal}

/-- The digits of a decimal that is not zero begin with one that is not zero. -/
theorem exists_significant (h : decimal.digits ≠ 0) :
    (∃ c more, decimal.significant = c :: more ∧ c ≠ '0') ∧
      ∀ c ∈ decimal.significant, c.isDigit = true := by
  obtain ⟨cut, hdigits, hcut⟩ :=
    Text.exists_trimEnd (· = '0') (Nat.toDigits 10 decimal.digits)
  have hsignificant : Text.trimEnd (· = '0') (Nat.toDigits 10 decimal.digits) =
    decimal.significant := rfl
  rw [hsignificant] at hdigits
  constructor
  · rcases leading_toDigits decimal.digits with hzero | ⟨c, more, hlead, hc⟩
    · have hvalue := Numeral.value_toDigits decimal.digits
      rw [hzero] at hvalue
      exact absurd hvalue.symm h
    · cases hrow : decimal.significant with
      | nil =>
        rw [hlead, hrow, List.nil_append] at hdigits
        simpa [hc] using hcut c (hdigits ▸ List.mem_cons_self)
      | cons d row =>
        rw [hlead, hrow, List.cons_append] at hdigits
        exact ⟨d, row, rfl, (List.cons.inj hdigits).1 ▸ hc⟩
  · intro c hc
    have hmem : c ∈ Nat.toDigits 10 decimal.digits := hdigits ▸ List.mem_append_left _ hc
    exact Nat.isDigit_of_mem_toDigits (by decide) (by decide) hmem

/-- The exponent of a decimal has a sign and digits. -/
theorem exponentText_eq (e : Int) : ∃ row, row ≠ [] ∧ (∀ c ∈ row, c.isDigit = true) ∧
    Binary64.exponentText e = (if decide (e < 0) then '-' else '+') :: row := by
  have hdigits : ∀ c ∈ Nat.toDigits 10 e.natAbs, c.isDigit = true := fun c hc =>
    Nat.isDigit_of_mem_toDigits (by decide) (by decide) hc
  unfold Binary64.exponentText
  simp only [decide_eq_true_eq]
  by_cases hshort : (Nat.toDigits 10 e.natAbs).length < 2
  · rw [if_pos hshort]
    exact ⟨_, List.cons_ne_nil _ _, List.forall_mem_cons.mpr ⟨rfl, hdigits⟩, rfl⟩
  · rw [if_neg hshort]
    exact ⟨_, Nat.toDigits_ne_nil, hdigits, rfl⟩

/-- The text of a decimal that is not zero is that of a number with a fraction or an exponent. -/
theorem exists_parts (h : decimal.digits ≠ 0) : ∃ parts : Parts, parts.WellFormed ∧
    parts.text = decimal.text ∧ parts.fractionText ++ parts.exponentText ≠ [] := by
  obtain ⟨⟨first, more, hfirst, hzero⟩, hdigits⟩ := exists_significant h
  rw [hfirst] at hdigits
  obtain ⟨hdigit, hmore⟩ := List.forall_mem_cons.mp hdigits
  have hzeros : ∀ count, ∀ c ∈ List.replicate count '0', c.isDigit = true := by
    intro count c hc
    rw [List.eq_of_mem_replicate hc]
    rfl
  unfold Binary64.Decimal.text
  rw [hfirst]
  dsimp only
  split
  · -- one digit before the point, and an exponent
    obtain ⟨row, hrow, hrowDigits, htext⟩ := exponentText_eq (decimal.point - 1)
    refine ⟨⟨[first], more, some (decide (decimal.point - 1 < 0), row)⟩, ?_, ?_, ?_⟩
    · refine ⟨by simpa using hdigit, .inr ⟨first, [], rfl, hzero⟩, hmore, ?_⟩
      simpa using ⟨hrow, hrowDigits⟩
    · simp [Parts.text, Parts.fractionText, Parts.exponentText, htext]
    · simp [Parts.exponentText]
  split
  · -- a zero before the point, and more zeros behind it
    refine ⟨⟨['0'], List.replicate (-decimal.point).toNat '0' ++ first :: more, none⟩, ?_, ?_, ?_⟩
    · refine ⟨by simp, .inl rfl, ?_, by simp⟩
      exact List.forall_mem_append.mpr ⟨hzeros _, hdigits⟩
    · simp [Parts.text, Parts.fractionText, Parts.exponentText]
    · simp [Parts.fractionText]
  · -- digits before the point, and behind it what is left of them or a zero
    rename_i _ hpoint
    obtain ⟨k, hk⟩ : ∃ k, decimal.point.toNat = k + 1 := ⟨decimal.point.toNat - 1, by omega⟩
    have hrest : ∀ c ∈ more.drop k, c.isDigit = true :=
      fun c hc => hmore c (List.mem_of_mem_drop hc)
    rw [hk, List.take_succ_cons, List.drop_succ_cons]
    refine ⟨⟨first :: (more.take k ++ List.replicate (k + 1 - (first :: more).length) '0'),
      if (more.drop k).isEmpty then ['0'] else more.drop k, none⟩, ?_, ?_, ?_⟩
    · refine ⟨?_, .inr ⟨first, _, rfl, hzero⟩, ?_, by simp⟩
      · exact List.forall_mem_cons.mpr ⟨hdigit, List.forall_mem_append.mpr
          ⟨fun c hc => hmore c (List.mem_of_mem_take hc), hzeros _⟩⟩
      · dsimp only
        split
        · simp
        · exact hrest
    · by_cases hnone : more.drop k = [] <;>
        simp [Parts.text, Parts.fractionText, Parts.exponentText, hnone]
    · by_cases hnone : more.drop k = [] <;> simp [Parts.fractionText, hnone]

end Decimal

/-! ## Shortest decimals -/

section Shortest
variable {s : Binary64.Span} {n d : Nat} {p : Int} {decimal : Binary64.Decimal}

theorem digits_ne_zero_of_onGrid (h : Binary64.onGrid s n d p = some decimal) :
    decimal.digits ≠ 0 := by
  unfold Binary64.onGrid at h
  dsimp only at h
  split at h
  · rename_i hbelow _
    split at h <;> cases h
    · simp only [Bool.and_eq_true, decide_eq_true_eq] at hbelow
      exact hbelow.2
    · exact Nat.succ_ne_zero _
  · rename_i hbelow _
    cases h
    simp only [Bool.and_eq_true, decide_eq_true_eq] at hbelow
    exact hbelow.2
  · cases h
    exact Nat.succ_ne_zero _
  · cases h

theorem digits_ne_zero_of_firstGrid (grids : Nat) (p : Int)
    (h : Binary64.firstGrid s n d grids p = some decimal) : decimal.digits ≠ 0 := by
  induction grids generalizing p with
  | zero => cases h
  | succ grids ih =>
    rcases Option.or_eq_some_iff.mp h with hgrid | ⟨-, hfiner⟩
    · exact digits_ne_zero_of_onGrid hgrid
    · exact ih (p - 1) hfiner

/-- The shortest decimal of a number that is not zero is not zero. -/
theorem shortest_ne_zero {m : Nat} (hm : m ≠ 0) (e : Int) :
    (Binary64.shortest m e).digits ≠ 0 := by
  unfold Binary64.shortest
  dsimp only
  generalize hgrid : Binary64.firstGrid _ _ _ _ _ = found
  cases found with
  | none => exact hm
  | some decimal => exact digits_ne_zero_of_firstGrid _ _ hgrid

end Shortest

/-- The text of a finite binary fraction has a fraction or an exponent. -/
theorem exists_parts_finite (negative : Bool) (m : Nat) (e : Int) : ∃ parts : Parts,
    parts.WellFormed ∧ parts.fractionText ++ parts.exponentText ≠ [] ∧
      writeNumber (.binary (.finite negative m e)) = signText negative ++ parts.text := by
  have htext : writeNumber (.binary (.finite negative m e)) =
      signText negative ++ (if m = 0 then ['0', '.', '0'] else (Binary64.shortest m e).text) := by
    simp only [writeNumber, Number.text, Binary64.text, String.toList_ofList, signText]
    cases negative <;> rfl
  rw [htext]
  by_cases hzero : m = 0
  · refine ⟨⟨['0'], ['0'], none⟩, ⟨by simp, .inl rfl, by simp, by simp⟩, ?_, ?_⟩
    · simp [Parts.fractionText]
    · rw [if_pos hzero]
      rfl
  · obtain ⟨parts, hparts, htext, hmore⟩ := exists_parts (shortest_ne_zero hzero e)
    exact ⟨parts, hparts, hmore, by rw [if_neg hzero, htext]⟩

/-- The text of a finite binary fraction begins with a digit, behind its sign. -/
theorem exists_digit_finite (negative : Bool) (m : Nat) (e : Int) : ∃ c more,
    writeNumber (.binary (.finite negative m e)) = signText negative ++ c :: more ∧
      c.isDigit = true := by
  obtain ⟨parts, hparts, -, htext⟩ := exists_parts_finite negative m e
  obtain ⟨c, more, hfirst, hc⟩ := hparts.exists_digit
  exact ⟨c, more, by rw [htext, hfirst], hc⟩

/-- What a finite binary fraction is read as depends on nothing but its text. -/
theorem exists_takeNumber_finite (negative : Bool) (m : Nat) (e : Int) : ∃ b, ∀ rest, Apart rest →
    takeNumber (writeNumber (.binary (.finite negative m e)) ++ rest) = some (.binary b, rest) := by
  obtain ⟨parts, hparts, hmore, htext⟩ := exists_parts_finite negative m e
  refine ⟨.ofDecimal negative (Numeral.value (parts.whole ++ parts.fraction))
    (parts.power - parts.fraction.length), fun rest hrest => ?_⟩
  rw [htext, takeNumber_text hparts, takeUnsigned_text hparts _ hrest, if_neg hmore]

/-- What a binary fraction is read as from its text; the ones that are not finite are words. -/
def rereadBinary : Binary64 → Binary64
  | .finite negative m e =>
    match takeNumber (writeNumber (.binary (.finite negative m e))) with
    | some (.binary b, _) => b
    | _ => .finite negative m e
  | b => b

/-- **A finite binary fraction is read from its text, whatever follows.** -/
theorem takeNumber_finite (negative : Bool) (m : Nat) (e : Int) {rest : List Char}
    (hrest : Apart rest) : takeNumber (writeNumber (.binary (.finite negative m e)) ++ rest) =
      some (.binary (rereadBinary (.finite negative m e)), rest) := by
  obtain ⟨b, hb⟩ := exists_takeNumber_finite negative m e
  have halone := hb [] apart_nil
  rw [List.append_nil] at halone
  rw [hb rest hrest, rereadBinary, halone]

end HeadFinder.Json
