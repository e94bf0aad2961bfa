import HeadFinder.Numeral.Integer
import HeadFinder.Proofs.Text.Trim
import Mathlib.Algebra.Group.Nat.Defs
import Mathlib.Data.List.TakeWhile

/-! # Reading numbers that have been written

The decimal digits of a natural number are read as the number, as long as there are not
more of them than are read at all.
-/
namespace HeadFinder.Numeral

/-- An integer that cannot be read is no remote failure. -/
theorem readInteger_error {text : String} {failure : Failure}
    (h : readInteger text = .error failure) : failure.isRemote = false := by
  unfold readInteger at h
  dsimp only at h
  split at h
  · cases h; rfl
  split at h
  · cases h; rfl
  split at h
  · cases h; rfl
  · cases h

/-- What is the case for each of the ten digits. -/
theorem forall_isDigit (P : Char → Prop) (h : ∀ n < 10, P (Char.ofNat (48 + n))) {c : Char}
    (hc : c.isDigit = true) : P c := by
  have hbounds : 48 ≤ c.toNat ∧ c.toNat ≤ 57 := by
    simpa [Char.isDigit, UInt32.le_iff_toNat_le] using hc
  have hdigit := h (c.toNat - 48) (by omega)
  rwa [show 48 + (c.toNat - 48) = c.toNat by omega, Char.ofNat_toNat] at hdigit

variable {digits : List Char}

/-- Digits have no blanks around them and are what they are read as. -/
theorem prepare_digits (h : ∀ c ∈ digits, c.isDigit = true) :
    prepare (String.ofList digits) = digits := by
  have hblank : ∀ c ∈ digits, isBlank c = false := fun c hc =>
    forall_isDigit (isBlank · = false) (by decide) (h c hc)
  have hplain : ∀ c ∈ digits, plain c = c := fun c hc =>
    forall_isDigit (fun c => plain c = c) (by decide) (h c hc)
  unfold prepare
  rw [String.toList_ofList, Text.trim_eq_self hblank, List.map_congr_left hplain, List.map_id']

theorem takeSign_digits (h : ∀ c ∈ digits, c.isDigit = true) :
    takeSign digits = (false, digits) := by
  cases digits with
  | nil => rfl
  | cons c rest =>
    obtain ⟨hc, -⟩ := List.forall_mem_cons.mp h
    have hsign : c ≠ '-' ∧ c ≠ '+' := forall_isDigit (fun c => c ≠ '-' ∧ c ≠ '+') (by decide) hc
    rw [takeSign]
    · exact fun _ heq => hsign.1 (List.cons.inj heq).1
    · exact fun _ heq => hsign.2 (List.cons.inj heq).1

theorem wellSpaced_digits (h : ∀ c ∈ digits, c.isDigit = true) : wellSpaced digits = true := by
  induction digits with
  | nil => rfl
  | cons c rest ih =>
    obtain ⟨hc, hrest⟩ := List.forall_mem_cons.mp h
    have hscore : c ≠ '_' := forall_isDigit (· ≠ '_') (by decide) hc
    rw [wellSpaced]
    · exact ih hrest
    · exact fun heq => absurd heq hscore
    · exact fun _ heq => absurd heq hscore

/-- A row of digits is read as the number that it stands for, unless it is too long. -/
theorem readInteger_row (hne : digits ≠ []) (h : ∀ c ∈ digits, c.isDigit = true) :
    readInteger (String.ofList digits) =
      if Failure.digitLimit < digits.length then .error (.longInteger digits.length)
      else .ok (value digits) := by
  have hrow : digits.takeWhile (fun c => c.isDigit || decide (c = '_')) = digits :=
    List.takeWhile_eq_self_iff.mpr fun c hc => by rw [h c hc, Bool.true_or]
  have hdigits : digits.filter Char.isDigit = digits := List.filter_eq_self.mpr h
  have hhead : digits.head? ≠ some '_' := by
    intro hhead
    have := h '_' (List.mem_of_head? hhead)
    cases this
  unfold readInteger
  rw [prepare_digits h, takeSign_digits h]
  dsimp only
  rw [hrow, hdigits, wellSpaced_digits h, decide_eq_false hhead]
  rw [if_neg (by decide)]
  split
  · rfl
  · rw [if_neg (by simp [hne]), if_neg Bool.false_ne_true]

/-- A natural number is written in its decimal digits. -/
theorem toList_toString (n : Nat) : (toString (n : Int)).toList = Nat.toDigits 10 n := by
  have hdigits : toString (n : Int) = String.ofList (Nat.toDigits 10 n) :=
    Nat.repr_eq_ofList_toDigits
  rw [hdigits, String.toList_ofList]

theorem isDigit_of_mem_toString {n : Nat} {c : Char} (hc : c ∈ (toString (n : Int)).toList) :
    c.isDigit = true := by
  rw [toList_toString] at hc
  exact Nat.isDigit_of_mem_toDigits (by decide) (by decide) hc

/-- The decimal digits of a number stand for it. -/
theorem value_toDigits (n : Nat) : value (Nat.toDigits 10 n) = n := by
  have hread : Nat.ofDigitChars 10 (Nat.toDigits 10 n) 0 = n := Nat.ofDigitChars_ten_toDigits
  unfold Nat.ofDigitChars at hread
  unfold value
  simp only [Nat.mul_comm _ 10]
  exact hread

/-- A row of digits stands for a number with no more digits. -/
theorem value_lt (row : List Char) (h : ∀ c ∈ row, c.isDigit = true) :
    value row < 10 ^ row.length := by
  have hfold : ∀ start, row.foldl (fun n c => n * 10 + (c.toNat - 48)) start <
      (start + 1) * 10 ^ row.length := by
    induction row with
    | nil => simp
    | cons c row ih =>
      intro start
      obtain ⟨hc, hrow⟩ := List.forall_mem_cons.mp h
      have hdigit : c.toNat - 48 ≤ 9 := forall_isDigit (·.toNat - 48 ≤ 9) (by decide) hc
      have hstep := ih hrow (start * 10 + (c.toNat - 48))
      calc _ < (start * 10 + (c.toNat - 48) + 1) * 10 ^ row.length := hstep
        _ ≤ (start + 1) * 10 * 10 ^ row.length := Nat.mul_le_mul_right _ (by omega)
        _ = (start + 1) * 10 ^ (row.length + 1) := by rw [Nat.pow_succ', Nat.mul_assoc]
  simpa [value] using hfold 0

/-- The digits of a natural number are read as the number, unless there are too many. -/
theorem readInteger_natural (n : Nat) : readInteger (toString (n : Int)) =
    if Failure.digitLimit < (Nat.toDigits 10 n).length
      then .error (.longInteger (Nat.toDigits 10 n).length) else .ok n := by
  have hdigits : ∀ c ∈ Nat.toDigits 10 n, c.isDigit = true := fun c hc =>
    Nat.isDigit_of_mem_toDigits (by decide) (by decide) hc
  have hread := readInteger_row Nat.toDigits_ne_nil hdigits
  rwa [value_toDigits, ← toList_toString, String.ofList_toList, toList_toString] at hread

/-- A number that has no more digits than are read. -/
def Short (n : Nat) : Prop :=
  n < 10 ^ Failure.digitLimit

theorem Short.of_le {m n : Nat} (h : Short n) (hle : m ≤ n) : Short m :=
  Nat.lt_of_le_of_lt hle h

theorem short_iff {n : Nat} : Short n ↔ (Nat.toDigits 10 n).length ≤ Failure.digitLimit :=
  (Nat.length_toDigits_le_iff (by decide) (by decide)).symm

/-- **A natural number is read from its digits.** -/
theorem readInteger_toString {n : Nat} (h : Short n) :
    readInteger (toString (n : Int)) = .ok n := by
  rw [readInteger_natural, if_neg (Nat.not_lt.mpr (short_iff.mp h))]

/-- A number with more digits than are read is not read at all. -/
theorem readInteger_toString_long {n : Nat} (h : ¬ Short n) :
    readInteger (toString (n : Int)) = .error (.longInteger (Nat.toDigits 10 n).length) := by
  rw [readInteger_natural, if_pos (Nat.not_le.mp (mt short_iff.mpr h))]

end HeadFinder.Numeral
