import HeadFinder.Json.Printer
import HeadFinder.Json.Reader
import HeadFinder.Proofs.Text.Utf8

/-! # Reading strings that have been written

A character is written as itself, as a letter behind a backslash, as one 16-bit unit or as a
pair of them, and each of these is read in one step as the character.  So a string is read
back from what is written for it, whatever follows its closing quote.
-/
namespace HeadFinder

namespace Text

theorem hexValue?_hexDigit {n : Nat} (h : n < 16) : hexValue? (hexDigit n) = some n := by
  have hdigits : ∀ n < 16, hexValue? (hexDigit n) = some n := by decide
  exact hdigits n h

end Text

namespace Json

/-! ## Units -/

section Units
variable {n : Nat} {c : Char} {rest : List Char}

theorem takeUnit_hexDigits (h : n < 0x10000) : takeUnit (Text.hexDigits 4 n ++ rest) =
    some (n, rest) := by
  have hvalue (m : Nat) : Text.hexValue? (Text.hexDigit (m % 16)) = some (m % 16) :=
    Text.hexValue?_hexDigit (Nat.mod_lt m (by decide))
  simp only [Text.hexDigits, List.nil_append, List.cons_append, takeUnit, List.mapM_cons,
    List.mapM_nil, hvalue, Option.pure_def, Option.bind_eq_bind, Option.bind_some,
    List.foldl_cons, List.foldl_nil]
  congr 2
  omega

/-- A character of the basic plane is read from its unit. -/
theorem takeEscaped_unit (h : c.toNat < 0x10000) :
    takeEscaped (Text.hexDigits 4 c.toNat ++ rest) = some (c, rest) := by
  have hchar : Char.ofNat c.toNat = c := Char.ofNat_toNat c
  have hnumber := Text.Utf8.number_cases c
  generalize c.toNat = n at h hchar hnumber ⊢
  have hhigh : ¬ (0xD800 ≤ n ∧ n < 0xDC00) := by omega
  have hlow : ¬ (0xDC00 ≤ n ∧ n < 0xE000) := by omega
  unfold takeEscaped
  rw [takeUnit_hexDigits h]
  simp only [Option.bind_eq_bind, Option.bind_some, Option.pure_def, Bool.and_eq_true,
    decide_eq_true_eq, hhigh, hlow, if_false, hchar]

/-- Two units of a pair make one character. -/
theorem takeEscaped_two {high low : Nat} (hhigh : 0xD800 ≤ high ∧ high < 0xDC00)
    (hlow : 0xDC00 ≤ low ∧ low < 0xE000) :
    takeEscaped (Text.hexDigits 4 high ++ (unitEscape low ++ rest)) =
      some (Char.ofNat (0x10000 + (high - 0xD800) * 0x400 + (low - 0xDC00)), rest) := by
  unfold takeEscaped
  rw [takeUnit_hexDigits (by omega)]
  simp only [Option.bind_eq_bind, Option.bind_some, Option.pure_def, unitEscape, List.cons_append,
    takeUnit_hexDigits (show low < 0x10000 by omega), Bool.and_eq_true, decide_eq_true_eq, hhigh,
    hlow, and_self, if_true]

/-- A character beyond the basic plane is read from its two units. -/
theorem takeEscaped_pair (h : 0x10000 ≤ c.toNat) :
    takeEscaped (Text.hexDigits 4 (0xD800 + (c.toNat - 0x10000) / 0x400) ++
      (unitEscape (0xDC00 + (c.toNat - 0x10000) % 0x400) ++ rest)) = some (c, rest) := by
  have hnumber := Text.Utf8.number_cases c
  have hchar : Char.ofNat c.toNat = c := Char.ofNat_toNat c
  generalize c.toNat = n at h hnumber hchar ⊢
  rw [takeEscaped_two (by omega) (by omega), Nat.add_sub_cancel_left, Nat.add_sub_cancel_left,
    show 0x10000 + (n - 0x10000) / 0x400 * 0x400 + (n - 0x10000) % 0x400 = n by omega, hchar]

end Units

/-! ## Characters -/

/-- A character that stands for itself. -/
theorem takeString_plain {c : Char} (hlow : 32 ≤ c.toNat) (hquote : c ≠ '"') (hslash : c ≠ '\\')
    (fuel : Nat) (done rest : List Char) :
    takeString (fuel + 1) done (c :: rest) = takeString fuel (c :: done) rest := by
  rw [takeString]
  · exact if_neg (Nat.not_lt.mpr hlow)
  all_goals simp [hquote, hslash]

/-- A character is read in one step from what is written for it. -/
theorem takeString_escape (fuel : Nat) (done : List Char) (c : Char) (rest : List Char) :
    takeString (fuel + 1) done (escape c ++ rest) = takeString fuel (c :: done) rest := by
  unfold escape
  dsimp only
  split
  · subst c; rfl
  rename_i hquote
  split
  · subst c; rfl
  rename_i hslash
  split
  · exact takeString_plain (by simp_all) hquote hslash fuel done rest
  split
  · subst c; rfl
  split
  · subst c; rfl
  split
  · subst c; rfl
  split
  · rename_i hback
    obtain rfl : c = '\x08' := Char.toNat_inj.mp hback
    rfl
  split
  · rename_i hfeed
    obtain rfl : c = '\x0c' := Char.toNat_inj.mp hfeed
    rfl
  split
  · rename_i hunit
    simp only [unitEscape, List.cons_append, takeString, takeEscaped_unit hunit,
      Option.bind_eq_bind, Option.bind_some]
  · rename_i hpair
    rw [List.append_assoc, unitEscape, List.cons_append, List.cons_append, takeString,
      takeEscaped_pair (Nat.le_of_not_lt hpair), Option.bind_eq_bind, Option.bind_some]

theorem escape_ne_nil (c : Char) : escape c ≠ [] := by
  simp only [escape, unitEscape]
  repeat' split
  all_goals simp

theorem length_le_flatMap_escape (cs : List Char) : cs.length ≤ (cs.flatMap escape).length := by
  induction cs with
  | nil => simp
  | cons c cs ih =>
    have hstep := List.length_pos_iff.mpr (escape_ne_nil c)
    simp only [List.flatMap_cons, List.length_append, List.length_cons]
    omega

/-! ## Strings -/

/-- What is written is read up to the closing quote, with a step for each character. -/
theorem takeString_flatMap_escape (cs rest : List Char) : ∀ (fuel : Nat) (done : List Char),
    cs.length < fuel → takeString fuel done (cs.flatMap escape ++ '"' :: rest) =
      some (String.ofList (done.reverse ++ cs), rest) := by
  induction cs with
  | nil =>
    intro fuel done hfuel
    obtain ⟨fuel, rfl⟩ := Nat.exists_eq_add_one_of_ne_zero (Nat.ne_of_gt hfuel)
    rw [List.append_nil]
    rfl
  | cons c cs ih =>
    intro fuel done hfuel
    obtain ⟨fuel, rfl⟩ := Nat.exists_eq_add_one_of_ne_zero (Nat.ne_zero_of_lt hfuel)
    rw [List.flatMap_cons, List.append_assoc, takeString_escape,
      ih fuel (c :: done) (Nat.lt_of_succ_lt_succ hfuel)]
    simp

/-- **A string is read back from what is written for it.** -/
theorem takeString_writeString (text : String) (rest : List Char) :
    ∃ body, writeString text ++ rest = '"' :: body ∧
      takeString (body.length + 1) [] body = some (text, rest) := by
  refine ⟨text.toList.flatMap escape ++ '"' :: rest, by simp [writeString], ?_⟩
  have hlength := length_le_flatMap_escape text.toList
  rw [takeString_flatMap_escape _ _ _ _ (by simp only [List.length_append]; omega),
    List.reverse_nil, List.nil_append, String.ofList_toList]

end Json
end HeadFinder
