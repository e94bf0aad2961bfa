import HeadFinder.Numeral.Binary64
import Mathlib.Tactic.Ring

/-! # Integers as binary fractions

An integer above zero becomes the binary fraction nearest to it.  That is infinite from half
a last place above the greatest finite number on, where the tie goes to the even mantissa that
is out of range, and before that a number above zero.
-/
namespace HeadFinder.Binary64

/-- The least integer that is too large for a binary fraction. -/
def beyond : Nat := 2 ^ 1024 - 2 ^ 970

/-! ## Rounding -/

section Rounding
variable {n d k : Nat}

theorem div_le_roundDiv (n d : Nat) : n / d ≤ roundDiv n d := by
  simp only [roundDiv]
  split
  · omega
  · split
    · omega
    · split <;> omega

theorem roundDiv_le (n d : Nat) : roundDiv n d ≤ n / d + 1 := by
  simp only [roundDiv]
  split
  · omega
  · split
    · omega
    · split <;> omega

/-- A quotient is rounded up to an even number from half a place below it on. -/
theorem le_roundDiv_iff (hd : 0 < d) (hk : k % 2 = 0) :
    k ≤ roundDiv n d ↔ 2 * k * d ≤ 2 * n + d := by
  have hn : d * (n / d) + n % d = n := Nat.div_add_mod n d
  have hr : n % d < d := Nat.mod_lt n hd
  rcases Nat.lt_trichotomy (n / d + 1) k with hlt | rfl | hgt
  · -- the quotient stays a whole place below
    have hmul : d * (n / d + 2) ≤ d * k := Nat.mul_le_mul_left d hlt
    refine iff_of_false (Nat.not_le.mpr (Nat.lt_of_le_of_lt (roundDiv_le n d) hlt)) ?_
    rw [Nat.mul_add] at hmul
    rw [Nat.mul_assoc, Nat.mul_comm k d]
    omega
  · -- the remainder decides, and a tie goes up
    have hodd : ¬ n / d % 2 = 0 := by omega
    have hmul : 2 * (n / d + 1) * d = 2 * (d * (n / d)) + 2 * d := by ring
    rw [hmul]
    simp only [roundDiv, hodd, if_false]
    split
    · omega
    · split <;> omega
  · have hle : k ≤ n / d := Nat.lt_succ_iff.mp hgt
    have hmul : d * k ≤ d * (n / d) := Nat.mul_le_mul_left d hle
    refine iff_of_true (hle.trans (div_le_roundDiv n d)) ?_
    rw [Nat.mul_assoc, Nat.mul_comm k d]
    omega

end Rounding

/-! ## Integers -/

section Integers
variable {n : Nat}

/-- The exponent of an integer before it is rounded. -/
def lead (n : Nat) : Int := (n.log2 : Int) - 52

/-- An integer has its leading digit as the first of the mantissa. -/
theorem exponentFor_one (hn : n ≠ 0) : exponentFor n 1 = lead n := by
  have hlow : 2 ^ n.log2 ≤ n := Nat.log2_self_le hn
  have hguess : (n.log2 : Int) - (Nat.log2 1 : Nat) - 52 = (n.log2 : Int) - 52 := by
    simp [show Nat.log2 1 = 0 by decide]
  have hlong : ¬ n * twoTo (-((n.log2 : Int) - 52)).toNat <
      twoTo 52 * 1 * twoTo ((n.log2 : Int) - 52).toNat := by
    rw [Nat.mul_one, Nat.not_lt]
    show 2 ^ 52 * 2 ^ ((n.log2 : Int) - 52).toNat ≤ n * 2 ^ (-((n.log2 : Int) - 52)).toNat
    calc 2 ^ 52 * 2 ^ ((n.log2 : Int) - 52).toNat
        = 2 ^ n.log2 * 2 ^ (-((n.log2 : Int) - 52)).toNat := by
          rw [← Nat.pow_add, ← Nat.pow_add]
          congr 1
          omega
      _ ≤ n * 2 ^ (-((n.log2 : Int) - 52)).toNat := Nat.mul_le_mul_right _ hlow
  unfold exponentFor
  simp only [hguess, hlong, if_false, minExponent, lead]
  omega

/-- The mantissa of an integer, rounded. -/
def rounded (n : Nat) : Nat :=
  roundDiv (n * 2 ^ (-lead n).toNat) (2 ^ (lead n).toNat)

theorem ofInt_natCast (hn : n ≠ 0) : ofInt n =
    if rounded n = 2 ^ 53 then
      if maxExponent < lead n + 1 then infinite false else finite false (2 ^ 52) (lead n + 1)
    else if maxExponent < lead n then infinite false else finite false (rounded n) (lead n) := by
  have hsign : ¬ (n : Int) < 0 := by omega
  have hrounded : roundDiv (n * twoTo (-lead n).toNat) (1 * twoTo (lead n).toNat) = rounded n := by
    rw [Nat.one_mul]
    rfl
  have hcarried : twoTo 53 = 2 ^ 53 := rfl
  have hhalf : twoTo 52 = 2 ^ 52 := rfl
  simp only [ofInt, ofFraction, ofQuotient, Int.natAbs_natCast, if_neg hn, exponentFor_one hn,
    decide_eq_false hsign, hrounded, hcarried, hhalf]
  by_cases hcarry : rounded n = 2 ^ 53
  · simp only [if_pos hcarry]
  · simp only [if_neg hcarry]

/-- The mantissa has its first digit where the integer has it. -/
theorem le_rounded (hn : n ≠ 0) : 2 ^ 52 ≤ rounded n := by
  refine Nat.le_trans ?_ (div_le_roundDiv _ _)
  rw [Nat.le_div_iff_mul_le (Nat.pow_pos (by decide))]
  calc 2 ^ 52 * 2 ^ (lead n).toNat
      = 2 ^ n.log2 * 2 ^ (-lead n).toNat := by
        rw [← Nat.pow_add, ← Nat.pow_add]
        congr 1
        unfold lead
        omega
    _ ≤ n * 2 ^ (-lead n).toNat := Nat.mul_le_mul_right _ (Nat.log2_self_le hn)

theorem rounded_le (n : Nat) : rounded n ≤ 2 ^ 53 := by
  refine Nat.le_trans (roundDiv_le _ _) (Nat.succ_le_of_lt ?_)
  rw [Nat.div_lt_iff_lt_mul (Nat.pow_pos (by decide))]
  calc n * 2 ^ (-lead n).toNat
      < 2 ^ (n.log2 + 1) * 2 ^ (-lead n).toNat :=
        Nat.mul_lt_mul_of_pos_right Nat.lt_log2_self (Nat.pow_pos (by decide))
    _ = 2 ^ 53 * 2 ^ (lead n).toNat := by
        rw [← Nat.pow_add, ← Nat.pow_add]
        congr 1
        unfold lead
        omega

/-- The mantissa is rounded up to a digit more from half a last place below that on. -/
theorem rounded_eq_iff {e : Nat} (hlog : n.log2 = e + 53) :
    rounded n = 2 ^ 53 ↔ 2 ^ (e + 54) - 2 ^ e ≤ n := by
  have hlead : lead n = (e + 1 : Nat) := by
    simp only [lead, hlog]
    omega
  have hdrop : rounded n = roundDiv n (2 * 2 ^ e) := by
    rw [rounded, hlead, Int.toNat_neg_natCast, Int.toNat_natCast, Nat.pow_zero, Nat.mul_one,
      Nat.pow_succ']
  have htop : 2 ^ (e + 54) = 2 ^ 54 * 2 ^ e := by rw [Nat.pow_add, Nat.mul_comm]
  have hplace : 0 < 2 ^ e := Nat.two_pow_pos e
  have hbound := rounded_le n
  rw [hdrop] at hbound ⊢
  rw [htop]
  generalize 2 ^ e = place at *
  have hround := le_roundDiv_iff (n := n) (d := 2 * place) (k := 2 ^ 53) (by omega) (by decide)
  omega

theorem two_pow_sub_le {e : Nat} (hn : n ≠ 0) (hlog : e < n.log2) (k : Nat) :
    2 ^ (e + 1) - 2 ^ k ≤ n :=
  calc 2 ^ (e + 1) - 2 ^ k ≤ 2 ^ (e + 1) := Nat.sub_le _ _
    _ ≤ 2 ^ n.log2 := Nat.pow_le_pow_right (by decide) hlog
    _ ≤ n := Nat.log2_self_le hn

theorem lt_two_pow_sub {k e : Nat} (hk : k ≤ e) (hlog : n.log2 < e) :
    n < 2 ^ (e + 1) - 2 ^ k := by
  have hn : n < 2 ^ e := Nat.lt_log2_self.trans_le (Nat.pow_le_pow_right (by decide) hlog)
  have hplace : 2 ^ k ≤ 2 ^ e := Nat.pow_le_pow_right (by decide) hk
  rw [Nat.pow_succ]
  omega

/-- **An integer above zero becomes infinite from `beyond` on, and before that a number above
zero.** -/
theorem ofInt_cases (hn : n ≠ 0) : beyond ≤ n ∧ ofInt n = infinite false ∨
    n < beyond ∧ ∃ m e, m ≠ 0 ∧ ofInt n = finite false m e := by
  have hmantissa := le_rounded hn
  rw [ofInt_natCast hn]
  rcases Nat.lt_trichotomy n.log2 1023 with hlog | hlog | hlog
  · -- the exponent stays in range, whether there is a carry or not
    right
    have hless : n < beyond := by
      rw [beyond, show 1024 = 1023 + 1 by decide]
      exact lt_two_pow_sub (by decide) hlog
    have hfits : ¬ maxExponent < lead n ∧ ¬ maxExponent < lead n + 1 := by
      simp only [maxExponent, lead]
      omega
    rw [if_neg hfits.1, if_neg hfits.2]
    split
    · exact ⟨hless, _, _, by decide, rfl⟩
    · exact ⟨hless, _, _, by omega, rfl⟩
  · -- the exponent is in range unless there is a carry
    have hcarry : rounded n = 2 ^ 53 ↔ beyond ≤ n := by
      rw [beyond, show 1024 = 970 + 54 by decide]
      exact rounded_eq_iff hlog
    have hfits : ¬ maxExponent < lead n ∧ maxExponent < lead n + 1 := by
      simp only [maxExponent, lead]
      omega
    rw [if_neg hfits.1, if_pos hfits.2]
    by_cases hlarge : beyond ≤ n
    · exact .inl ⟨hlarge, if_pos (hcarry.mpr hlarge)⟩
    · rw [if_neg (mt hcarry.mp hlarge)]
      exact .inr ⟨Nat.not_le.mp hlarge, _, _, by omega, rfl⟩
  · -- the exponent is out of range
    left
    have hmore : beyond ≤ n := by
      rw [beyond, show 1024 = 1023 + 1 by decide]
      exact two_pow_sub_le hn hlog 970
    have hout : maxExponent < lead n ∧ maxExponent < lead n + 1 := by
      simp only [maxExponent, lead]
      omega
    rw [if_pos hout.1, if_pos hout.2, ite_self]
    exact ⟨hmore, rfl⟩

end Integers
end HeadFinder.Binary64
