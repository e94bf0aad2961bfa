import HeadFinder.Proofs.Numeral.Rounding

/-! # Quotients as binary fractions

The mantissa of a quotient has 53 bits, so as many binary places are kept as make the quotient
that long, and the rest is rounded.  Where these places lie behind the point, the whole part of
what comes out is the whole part of the quotient, except that half a last place below the next
whole number is rounded up to it.  A thousandfold of what comes out is rounded once more.
-/
namespace HeadFinder.Binary64

variable {n d places : Nat}

/-! ## The places of a quotient -/

/-- With so many binary places the quotient has 53 bits. -/
structure Fits (n d places : Nat) : Prop where
  low : 2 ^ 52 * d ≤ n * 2 ^ places
  high : n * 2 ^ places < 2 ^ 53 * d

theorem Fits.divisor_pos (h : Fits n d places) : 0 < d := by
  by_contra hzero
  have hhigh := h.high
  rw [Nat.eq_zero_of_not_pos hzero, Nat.mul_zero] at hhigh
  omega

theorem Fits.dividend_pos (h : Fits n d places) : 0 < n := by
  by_contra hzero
  have hlow := h.low
  have hdivisor := h.divisor_pos
  rw [Nat.eq_zero_of_not_pos hzero, Nat.zero_mul] at hlow
  omega

/-- Another place doubles the count, so there is one number of places at most. -/
theorem Fits.unique {other : Nat} (h : Fits n d places) (hother : Fits n d other) :
    places = other := by
  have hle : ∀ {few many}, Fits n d few → Fits n d many → many ≤ few := by
    intro few many hfew hmany
    by_contra hmore
    have hdouble : n * 2 ^ (few + 1) ≤ n * 2 ^ many :=
      Nat.mul_le_mul_left _ (Nat.pow_le_pow_right (by decide) (Nat.lt_of_not_le hmore))
    have hlow := hfew.low
    have hhigh := hmany.high
    rw [Nat.pow_succ, ← Nat.mul_assoc] at hdouble
    omega
  exact Nat.le_antisymm (hle hother h) (hle h hother)

/-- A quotient above zero that is not too large has its places. -/
theorem exists_fits (hn : 0 < n) (hsize : n < 2 ^ 53 * d) :
    ∃ places, Fits n d places := by
  have hreach : ∃ places, 2 ^ 52 * d ≤ n * 2 ^ places := by
    refine ⟨52 + (d.log2 + 1), ?_⟩
    calc 2 ^ 52 * d ≤ 2 ^ 52 * 2 ^ (d.log2 + 1) := Nat.mul_le_mul_left _ Nat.lt_log2_self.le
      _ = 2 ^ (52 + (d.log2 + 1)) := (Nat.pow_add ..).symm
      _ ≤ n * 2 ^ (52 + (d.log2 + 1)) := Nat.le_mul_of_pos_left _ hn
  refine ⟨Nat.find hreach, Nat.find_spec hreach, ?_⟩
  cases hfind : Nat.find hreach with
  | zero => rwa [Nat.pow_zero, Nat.mul_one]
  | succ places =>
    have hless : ¬ 2 ^ 52 * d ≤ n * 2 ^ places := Nat.find_min hreach (by omega)
    rw [Nat.pow_succ, ← Nat.mul_assoc]
    omega

/-- The logarithms give the places up to one. -/
theorem Fits.log2_cases (h : Fits n d places) :
    n.log2 + places = d.log2 + 52 ∨ n.log2 + places = d.log2 + 53 := by
  have hn : 2 ^ n.log2 ≤ n := Nat.log2_self_le h.dividend_pos.ne'
  have hd : 2 ^ d.log2 ≤ d := Nat.log2_self_le h.divisor_pos.ne'
  have hn' : n < 2 ^ (n.log2 + 1) := Nat.lt_log2_self
  have hd' : d < 2 ^ (d.log2 + 1) := Nat.lt_log2_self
  have hless : 52 + d.log2 < n.log2 + 1 + places := by
    rw [← Nat.pow_lt_pow_iff_right (a := 2) (by decide), Nat.pow_add, Nat.pow_add _ _ places]
    calc 2 ^ 52 * 2 ^ d.log2 ≤ 2 ^ 52 * d := Nat.mul_le_mul_left _ hd
      _ ≤ n * 2 ^ places := h.low
      _ < 2 ^ (n.log2 + 1) * 2 ^ places := Nat.mul_lt_mul_of_pos_right hn' (Nat.two_pow_pos _)
  have hmore : n.log2 + places < 53 + (d.log2 + 1) := by
    rw [← Nat.pow_lt_pow_iff_right (a := 2) (by decide), Nat.pow_add, Nat.pow_add _ 53]
    calc 2 ^ n.log2 * 2 ^ places ≤ n * 2 ^ places := Nat.mul_le_mul_right _ hn
      _ < 2 ^ 53 * d := h.high
      _ ≤ 2 ^ 53 * 2 ^ (d.log2 + 1) := Nat.mul_le_mul_left _ hd'.le
  omega

theorem exponentFor_of_fits (h : Fits n d places) (hplaces : places ≤ 1074) :
    exponentFor n d = -places := by
  have hlow := h.low
  have hhigh := h.high
  unfold exponentFor minExponent
  simp only [show ∀ k, twoTo k = 2 ^ k from fun _ => rfl]
  rcases h.log2_cases with hlog | hlog
  · have hguess : (n.log2 : Int) - d.log2 - 52 = -places := by omega
    have hlong : ¬ n * 2 ^ places < 2 ^ 52 * d * 2 ^ 0 := by omega
    rw [hguess, Int.neg_neg, Int.toNat_natCast, Int.toNat_neg_natCast, if_neg hlong]
    omega
  · have hguess : (n.log2 : Int) - d.log2 - 52 = 1 - places := by omega
    have hshort :
        n * 2 ^ (-(1 - places : Int)).toNat < 2 ^ 52 * d * 2 ^ (1 - places : Int).toNat := by
      cases places with
      | zero =>
        show n * 2 ^ 0 < 2 ^ 52 * d * 2 ^ 1
        omega
      | succ places =>
        have hup : (-(1 - (places + 1 : Nat) : Int)).toNat = places := by omega
        have hdown : (1 - (places + 1 : Nat) : Int).toNat = 0 := by omega
        rw [Nat.pow_succ, ← Nat.mul_assoc] at hhigh
        rw [hup, hdown]
        omega
    rw [hguess, if_pos hshort]
    omega

/-- The mantissa of a quotient, which may carry over into a 54th bit. -/
def mantissa (n d places : Nat) : Nat := roundDiv (n * 2 ^ places) d

theorem ofQuotient_of_fits (h : Fits n d places) (hplaces : places ≤ 1074) :
    ofQuotient false n d =
      if mantissa n d places = 2 ^ 53 then finite false (2 ^ 52) (1 - places)
      else finite false (mantissa n d places) (-places) := by
  have hmantissa : roundDiv (n * twoTo (-(-(places : Int))).toNat)
      (d * twoTo (-(places : Int)).toNat) = mantissa n d places := by
    rw [Int.neg_neg, Int.toNat_natCast, Int.toNat_neg_natCast]
    show roundDiv (n * 2 ^ places) (d * 1) = _
    rw [Nat.mul_one, mantissa]
  have hcarried : twoTo 53 = 2 ^ 53 := rfl
  have hhalf : twoTo 52 = 2 ^ 52 := rfl
  have hfits : ¬ maxExponent < -(places : Int) ∧ ¬ maxExponent < -(places : Int) + 1 := by
    simp only [maxExponent]
    omega
  simp only [ofQuotient, h.dividend_pos.ne', if_false, exponentFor_of_fits h hplaces, hmantissa,
    hcarried, hhalf]
  by_cases hcarry : mantissa n d places = 2 ^ 53
  · simp only [if_pos hcarry, if_neg hfits.2]
    rw [Int.add_comm, Int.sub_eq_add_neg]
  · simp only [if_neg hcarry, if_neg hfits.1]

/-! ## The mantissa -/

theorem Fits.le_mantissa (h : Fits n d places) : 2 ^ 52 ≤ mantissa n d places :=
  ((Nat.le_div_iff_mul_le h.divisor_pos).mpr h.low).trans (div_le_roundDiv _ _)

theorem Fits.mantissa_le (h : Fits n d places) : mantissa n d places ≤ 2 ^ 53 :=
  (roundDiv_le _ _).trans (Nat.succ_le_of_lt ((Nat.div_lt_iff_lt_mul h.divisor_pos).mpr h.high))

/-- The mantissa is off by half a place at most. -/
theorem mantissa_near (hd : 0 < d) (n places : Nat) :
    2 * (d * mantissa n d places) ≤ 2 * (n * 2 ^ places) + d ∧
      2 * (n * 2 ^ places) ≤ 2 * (d * mantissa n d places) + d := by
  unfold mantissa
  generalize n * 2 ^ places = n
  have hn : d * (n / d) + n % d = n := Nat.div_add_mod n d
  have hr : n % d < d := Nat.mod_lt n hd
  simp only [roundDiv]
  split
  · omega
  · have hup : d * (n / d + 1) = d * (n / d) + d := Nat.mul_succ ..
    split
    · omega
    · split <;> omega

theorem ofFraction_natCast (n d : Nat) : ofFraction n d = ofQuotient false n d := by
  have hsign : ¬ (n : Int) < 0 := by omega
  rw [ofFraction, decide_eq_false hsign, Int.natAbs_natCast]

/-! ## Whole parts -/

/-- What is left of a quotient with places behind the point is the whole part of its mantissa. -/
theorem truncate_of_fits (h : Fits n d places) (hpos : 0 < places) (hplaces : places ≤ 1074) :
    (ofQuotient false n d).truncate = some ((mantissa n d places / 2 ^ places : Nat) : Int) := by
  rw [ofQuotient_of_fits h hplaces]
  split
  · rename_i hcarry
    obtain ⟨before, rfl⟩ := Nat.exists_eq_add_of_le' hpos
    have hup : (1 - (before + 1 : Nat) : Int).toNat = 0 := by omega
    have hdown : (-(1 - (before + 1 : Nat) : Int)).toNat = before := by omega
    have hhalves : 2 ^ 53 / 2 ^ (before + 1) = 2 ^ 52 / 2 ^ before :=
      Nat.mul_div_mul_right (2 ^ 52) (2 ^ before) (by decide)
    simp only [truncate, hup, hdown, Bool.false_eq_true, if_false]
    rw [hcarry, hhalves]
    rfl
  · simp only [truncate, Int.neg_neg, Int.toNat_natCast, Int.toNat_neg_natCast,
      Bool.false_eq_true, if_false]
    show some ((mantissa n d places * 1 / 2 ^ places : Nat) : Int) = _
    rw [Nat.mul_one]

/-- A whole number is reached from half a last place below it on. -/
theorem le_mantissa_div_iff (hd : 0 < d) (hpos : 0 < places) {whole : Nat} :
    whole ≤ mantissa n d places / 2 ^ places ↔
      2 * (whole * 2 ^ places) * d ≤ 2 * (n * 2 ^ places) + d := by
  rw [Nat.le_div_iff_mul_le (Nat.two_pow_pos _)]
  refine le_roundDiv_iff hd ?_
  obtain ⟨before, rfl⟩ := Nat.exists_eq_add_of_le' hpos
  rw [Nat.pow_succ, ← Nat.mul_assoc, Nat.mul_mod_left]

/-- A quotient of `count` small places of which `cut + 1` have to go is rounded by half of a
place that stays, which is `2 ^ cut` of those that go. -/
theorem truncate_of_count {count cut : Nat} (hd : 0 < d)
    (hcount : n * 2 ^ (places + (cut + 1)) = count * d) (hlow : 2 ^ 52 * 2 ^ (cut + 1) ≤ count)
    (hhigh : count < 2 ^ 53 * 2 ^ (cut + 1)) (hpos : 0 < places) (hplaces : places ≤ 1074) :
    (ofQuotient false n d).truncate =
      some (((count + 2 ^ cut) / 2 ^ (places + (cut + 1)) : Nat) : Int) := by
  have hcut : 0 < 2 ^ (cut + 1) := Nat.two_pow_pos _
  have hscale : n * 2 ^ places * 2 ^ (cut + 1) = count * d := by
    rw [Nat.mul_assoc, ← Nat.pow_add, hcount]
  have hfits : Fits n d places := by
    constructor
    · refine Nat.le_of_mul_le_mul_right ?_ hcut
      calc 2 ^ 52 * d * 2 ^ (cut + 1) = 2 ^ 52 * 2 ^ (cut + 1) * d := Nat.mul_right_comm ..
        _ ≤ count * d := Nat.mul_le_mul_right d hlow
        _ = n * 2 ^ places * 2 ^ (cut + 1) := hscale.symm
    · refine Nat.lt_of_mul_lt_mul_right (a := 2 ^ (cut + 1)) ?_
      calc n * 2 ^ places * 2 ^ (cut + 1) = count * d := hscale
        _ < 2 ^ 53 * 2 ^ (cut + 1) * d := Nat.mul_lt_mul_of_pos_right hhigh hd
        _ = 2 ^ 53 * d * 2 ^ (cut + 1) := Nat.mul_right_comm ..
  rw [truncate_of_fits hfits hpos hplaces]
  have hfloor : mantissa n d places / 2 ^ places =
      (count + 2 ^ cut) / 2 ^ (places + (cut + 1)) := by
    refine eq_of_forall_le_iff fun whole => ?_
    have hleft : 2 * (whole * 2 ^ places) * d * 2 ^ (cut + 1) =
        whole * 2 ^ (places + (cut + 1)) * (2 * d) := by
      rw [Nat.pow_add]
      ring
    have hright : (2 * (n * 2 ^ places) + d) * 2 ^ (cut + 1) = (count + 2 ^ cut) * (2 * d) := by
      rw [Nat.add_mul, Nat.mul_assoc 2, hscale, Nat.pow_succ]
      ring
    rw [le_mantissa_div_iff hd hpos, Nat.le_div_iff_mul_le (Nat.two_pow_pos _),
      ← Nat.mul_le_mul_right_iff hcut, hleft, hright, Nat.mul_le_mul_right_iff (by omega)]
  rw [hfloor]

/-! ## A thousandfold -/

theorem mul_finite (m k : Nat) (e f : Int) : (finite false m e).mul (finite false k f) =
    ofQuotient false (m * k * 2 ^ (e + f).toNat) (2 ^ (-(e + f)).toNat) :=
  rfl

/-- A thousandfold of a quotient is again a quotient: that of a thousandfold of its mantissa. -/
theorem mul_thousand (h : Fits n d places) (hpos : 0 < places) (hplaces : places ≤ 1074) :
    ∃ n' d', (ofQuotient false n d).mul (ofInt 1000) = ofQuotient false n' d' ∧ 0 < d' ∧
      n' * 2 ^ places = 1000 * mantissa n d places * d' := by
  have hthousand : ofInt 1000 = finite false (1000 * 2 ^ 43) (-43) := by decide
  rw [ofQuotient_of_fits h hplaces, hthousand]
  split
  · rename_i hcarry
    have hup : (1 - (places : Int) + -43).toNat = 0 := by omega
    have hdown : (-(1 - (places : Int) + -43)).toNat = places + 42 := by omega
    rw [mul_finite, hup, hdown, hcarry]
    refine ⟨_, _, rfl, Nat.two_pow_pos _, ?_⟩
    rw [Nat.pow_add]
    ring
  · have hup : (-(places : Int) + -43).toNat = 0 := by omega
    have hdown : (-(-(places : Int) + -43)).toNat = places + 43 := by omega
    rw [mul_finite, hup, hdown]
    refine ⟨_, _, rfl, Nat.two_pow_pos _, ?_⟩
    rw [Nat.pow_add]
    ring

/-- A thousandfold of nothing is nothing. -/
theorem truncate_mul_zero (d : Nat) :
    ((ofQuotient false 0 d).mul (ofInt 1000)).truncate = some 0 := by
  have hthousand : ofInt 1000 = finite false (1000 * 2 ^ 43) (-43) := by decide
  have hzero : ∀ d, ofQuotient false 0 d = finite false 0 minExponent := fun _ => if_pos rfl
  rw [hzero, hthousand, mul_finite, Nat.zero_mul, Nat.zero_mul, hzero]
  simp only [truncate, Nat.zero_mul, Nat.zero_div]
  rfl

/-- Half of a place that stays when a number of 62 or 63 bits is rounded to 53. -/
def gain (count : Nat) : Nat := if count < 2 ^ 62 then 2 ^ 8 else 2 ^ 9

/-- The whole part of a thousandfold of a quotient that is kept with so many places.  A
thousandfold of the mantissa has 62 or 63 bits, so that nine or ten of them are rounded off. -/
def thousandfold (n d places : Nat) : Nat :=
  (1000 * mantissa n d places + gain (1000 * mantissa n d places)) / 2 ^ places

theorem truncate_mul_thousand (h : Fits n d places) (hlow : 11 ≤ places)
    (hhigh : places ≤ 1074) :
    ((ofQuotient false n d).mul (ofInt 1000)).truncate = some (thousandfold n d places : Int) := by
  obtain ⟨n', d', hproduct, hd', hcount⟩ := mul_thousand h (by omega) hhigh
  have hleast := h.le_mantissa
  have hmost := h.mantissa_le
  rw [hproduct, thousandfold, gain]
  generalize mantissa n d places = m at *
  split
  · obtain ⟨kept, rfl⟩ := Nat.exists_eq_add_of_le' (show 8 + 1 ≤ places by omega)
    exact truncate_of_count hd' hcount (by omega) (by omega) (by omega) (by omega)
  · obtain ⟨kept, rfl⟩ := Nat.exists_eq_add_of_le' (show 9 + 1 ≤ places by omega)
    exact truncate_of_count hd' hcount (by omega) (by omega) (by omega) (by omega)

end HeadFinder.Binary64
