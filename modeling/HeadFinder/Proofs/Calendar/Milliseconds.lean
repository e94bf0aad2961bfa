import HeadFinder.Proofs.Calendar.Moments
import HeadFinder.Proofs.Numeral.Quotients

/-! # Milliseconds of timestamps

The milliseconds of a timestamp are the whole part of a thousandfold of its seconds, which are
a binary fraction.  The seconds are rounded, the thousandfold is rounded again, and what comes
out is off by one at most.  Between two milliseconds the neighbours are far enough away until
the year 2242.  Whole milliseconds come out one too few just where the seconds are rounded down
by more than the thousandfold is rounded up; from November 2004 to January 2038 none do.
-/
namespace HeadFinder.Binary64

variable {t places : Nat}

/-- The seconds that have fewer bits before the point have more places behind it. -/
theorem Fits.places_ge (h : Fits t 1000000 places) {bits : Nat} (hbits : bits ≤ 52)
    (ht : t < 2 ^ bits * 1000000) : 53 - bits ≤ places := by
  have hlow := h.low
  have hless : 2 ^ 52 < 2 ^ (bits + places) := by
    rw [Nat.pow_add]
    refine Nat.lt_of_mul_lt_mul_right (a := 1000000) ?_
    calc 2 ^ 52 * 1000000 ≤ t * 2 ^ places := hlow
      _ < 2 ^ bits * 1000000 * 2 ^ places := Nat.mul_lt_mul_of_pos_right ht (Nat.two_pow_pos _)
      _ = 2 ^ bits * 2 ^ places * 1000000 := Nat.mul_right_comm ..
  have := (Nat.pow_lt_pow_iff_right (a := 2) (by decide)).mp hless
  omega

theorem Fits.places_le (h : Fits t 1000000 places) : places ≤ 72 := by
  have hless : 2 ^ places < 2 ^ 73 :=
    calc 2 ^ places ≤ t * 2 ^ places := Nat.le_mul_of_pos_left _ h.dividend_pos
      _ < 2 ^ 53 * 1000000 := h.high
      _ < 2 ^ 73 := by decide
  have := (Nat.pow_lt_pow_iff_right (a := 2) (by decide)).mp hless
  omega

theorem gain_mem (count : Nat) : 2 ^ 8 ≤ gain count ∧ gain count ≤ 2 ^ 9 := by
  unfold gain
  split <;> decide

theorem le_thousandfold_iff {n d whole : Nat} : whole ≤ thousandfold n d places ↔
    whole * 2 ^ places ≤ 1000 * mantissa n d places + gain (1000 * mantissa n d places) :=
  Nat.le_div_iff_mul_le (Nat.two_pow_pos _)

theorem thousandfold_lt_iff {n d whole : Nat} : thousandfold n d places < whole ↔
    1000 * mantissa n d places + gain (1000 * mantissa n d places) < whole * 2 ^ places :=
  Nat.div_lt_iff_lt_mul (Nat.two_pow_pos _)

/-- A thousandfold of the mantissa is off by 500 places at most. -/
theorem thousand_mantissa_near (t places : Nat) :
    1000 * (t / 1000 * 2 ^ places) + t % 1000 * 2 ^ places ≤
        1000 * (1000 * mantissa t 1000000 places) + 500000 ∧
      1000 * (1000 * mantissa t 1000000 places) ≤
        1000 * (t / 1000 * 2 ^ places) + t % 1000 * 2 ^ places + 500000 := by
  have hnear := mantissa_near (show 0 < 1000000 by decide) t places
  have ht : t * 2 ^ places = 1000 * (t / 1000 * 2 ^ places) + t % 1000 * 2 ^ places := by
    conv_lhs => rw [← Nat.div_add_mod t 1000]
    ring
  omega

theorem thousandfold_near (t : Nat) (hplaces : 15 ≤ places) :
    t / 1000 ≤ thousandfold t 1000000 places + 1 ∧
      thousandfold t 1000000 places ≤ t / 1000 + 1 := by
  obtain ⟨hleast, hmost⟩ := thousand_mantissa_near t places
  have hgain := gain_mem (1000 * mantissa t 1000000 places)
  have hscale : 2 ^ 15 ≤ 2 ^ places := Nat.pow_le_pow_right (by decide) hplaces
  have hpart : t % 1000 * 2 ^ places ≤ 999 * 2 ^ places :=
    Nat.mul_le_mul_right _ (Nat.le_of_lt_succ (Nat.mod_lt t (by decide)))
  constructor
  · cases hwhole : t / 1000 with
    | zero => exact Nat.zero_le _
    | succ before =>
      rw [hwhole, Nat.succ_mul before] at hleast hmost
      rw [Nat.add_le_add_iff_right, le_thousandfold_iff]
      omega
  · rw [← Nat.lt_succ_iff, thousandfold_lt_iff, Nat.succ_mul (t / 1000 + 1),
      Nat.succ_mul (t / 1000)]
    omega

/-- With room enough above them the milliseconds are not exceeded. -/
theorem thousandfold_le (hroom : t % 1000 * 2 ^ places + 1013000 ≤ 1000 * 2 ^ places) :
    thousandfold t 1000000 places ≤ t / 1000 := by
  obtain ⟨-, hmost⟩ := thousand_mantissa_near t places
  have hgain := gain_mem (1000 * mantissa t 1000000 places)
  rw [← Nat.lt_succ_iff, thousandfold_lt_iff, Nat.succ_mul (t / 1000)]
  omega

/-- A part of a millisecond keeps both neighbours away. -/
theorem thousandfold_of_part (hplaces : 20 ≤ places) (hpart : t % 1000 ≠ 0) :
    thousandfold t 1000000 places = t / 1000 := by
  obtain ⟨hleast, -⟩ := thousand_mantissa_near t places
  have hgain := gain_mem (1000 * mantissa t 1000000 places)
  have hscale : 2 ^ 20 ≤ 2 ^ places := Nat.pow_le_pow_right (by decide) hplaces
  have hmore : 1 * 2 ^ places ≤ t % 1000 * 2 ^ places :=
    Nat.mul_le_mul_right _ (Nat.pos_of_ne_zero hpart)
  have hless : t % 1000 * 2 ^ places ≤ 999 * 2 ^ places :=
    Nat.mul_le_mul_right _ (Nat.le_of_lt_succ (Nat.mod_lt t (by decide)))
  exact Nat.le_antisymm (thousandfold_le (by omega)) (le_thousandfold_iff.mpr (by omega))

/-- The seconds of whole milliseconds are rounded down by more than 256 places of the thousandfold,
which is rounded up by no more than that while it is below `2 ^ 62`. -/
def Loses (whole places : Nat) : Prop :=
  whole * 2 ^ places < 2 ^ 62 ∧ 256 < whole * 2 ^ places % 1000 ∧
    whole * 2 ^ places % 1000 < 500

/-- The rounding of a count to a multiple of 1000 is made good by the rounding of the multiple,
unless it goes down by more than that gains.  A tie is no multiple of eight. -/
theorem le_gain_iff {count m : Nat} (hmultiple : count % 8 = 0) (hleast : count ≤ 1000 * m + 500)
    (hmost : 1000 * m ≤ count + 500) : count ≤ 1000 * m + gain (1000 * m) ↔
      ¬ (count < 2 ^ 62 ∧ 256 < count % 1000 ∧ count % 1000 < 500) := by
  unfold gain
  split <;> omega

/-- Without a part of a millisecond the mantissa is the whole number nearest to a thousandth. -/
theorem thousandfold_of_whole (hplaces : 15 ≤ places) (hpart : t % 1000 = 0) :
    thousandfold t 1000000 places = t / 1000 ∧ ¬ Loses (t / 1000) places ∨
      thousandfold t 1000000 places + 1 = t / 1000 ∧ Loses (t / 1000) places := by
  obtain ⟨hleast, hmost⟩ := thousand_mantissa_near t places
  simp only [hpart, Nat.zero_mul, Nat.add_zero] at hleast hmost
  obtain ⟨hone, -⟩ := thousandfold_near t hplaces
  have hscale : 2 ^ 15 ≤ 2 ^ places := Nat.pow_le_pow_right (by decide) hplaces
  have hmultiple : t / 1000 * 2 ^ places % 8 = 0 := by
    rw [← Nat.dvd_iff_mod_eq_zero]
    exact Nat.dvd_mul_left_of_dvd (Nat.pow_dvd_pow 2 (show 3 ≤ places by omega)) _
  have hless : thousandfold t 1000000 places ≤ t / 1000 := thousandfold_le (by rw [hpart]; omega)
  have hreach : t / 1000 ≤ thousandfold t 1000000 places ↔ ¬ Loses (t / 1000) places := by
    rw [le_thousandfold_iff]
    exact le_gain_iff hmultiple (by omega) (by omega)
  by_cases hloses : Loses (t / 1000) places
  · have hshort : ¬ t / 1000 ≤ thousandfold t 1000000 places := mt hreach.mp (not_not_intro hloses)
    exact .inr ⟨by omega, hloses⟩
  · exact .inl ⟨Nat.le_antisymm hless (hreach.mpr hloses), hloses⟩

end HeadFinder.Binary64

namespace HeadFinder.Calendar
open Binary64 (Fits thousandfold Loses)

/-- Whole milliseconds of which one is lost: doubled so many times, they lie between 1000 and 1024
times `2 ^ 52`, and above a multiple of 1000 by more than 256 and less than half of it. -/
def Slips (whole : Nat) : Prop := ∃ places, 1000 * 2 ^ 52 ≤ whole * 2 ^ places ∧ Loses whole places

/-- What may come out as the milliseconds of so many microseconds. -/
structure Reckoned (t time : Nat) : Prop where
  value : t ≠ 0 → ∃ places, Fits t 1000000 places ∧ time = thousandfold t 1000000 places
  near : t / 1000 ≤ time + 1 ∧ time ≤ t / 1000 + 1
  whole : t % 1000 = 0 →
    time = t / 1000 ∧ ¬ Slips (t / 1000) ∨ time + 1 = t / 1000 ∧ Slips (t / 1000)
  part : t % 1000 ≠ 0 → t < 2 ^ 33 * 1000000 → time = t / 1000
  recent : 2 ^ 40 * 1000 ≤ t → t < 2 ^ 31 * 1000000 → time = t / 1000

theorem not_slips_of_recent {whole : Nat} (hlow : 2 ^ 40 ≤ whole) (hhigh : whole < 2 ^ 31 * 1000) :
    ¬ Slips whole := by
  rintro ⟨places, hleast, hmost, -⟩
  have hfew : 2 ^ (40 + places) < 2 ^ 62 := by
    rw [Nat.pow_add]
    exact Nat.lt_of_le_of_lt (Nat.mul_le_mul_right _ hlow) hmost
  have hmany : 2 ^ 52 < 2 ^ (31 + places) := by
    rw [Nat.pow_add]
    have := Nat.mul_lt_mul_of_pos_right hhigh (Nat.two_pow_pos places)
    rw [Nat.mul_right_comm] at this
    omega
  have hfew := (Nat.pow_lt_pow_iff_right (a := 2) (by decide)).mp hfew
  have hmany := (Nat.pow_lt_pow_iff_right (a := 2) (by decide)).mp hmany
  omega

variable {t places : Nat}

theorem micros_of_whole (hpart : t % 1000 = 0) (places : Nat) :
    t * 2 ^ places = 1000 * (t / 1000 * 2 ^ places) := by
  rw [← Nat.mul_assoc, Nat.mul_div_cancel' (Nat.dvd_of_mod_eq_zero hpart)]

theorem slips_iff_loses (h : Fits t 1000000 places) (hpart : t % 1000 = 0) :
    Slips (t / 1000) ↔ Loses (t / 1000) places := by
  constructor
  · rintro ⟨other, hlow, hloses⟩
    have ht := micros_of_whole hpart other
    have hhigh := hloses.1
    have hother : Fits t 1000000 other := ⟨by omega, by omega⟩
    rwa [h.unique hother]
  · intro hloses
    have ht := micros_of_whole hpart places
    have hlow := h.low
    exact ⟨places, by omega, hloses⟩

theorem thousandfold_of_recent (h : Fits t 1000000 places) (hlow : 2 ^ 40 * 1000 ≤ t)
    (hhigh : t < 2 ^ 31 * 1000000) : thousandfold t 1000000 places = t / 1000 := by
  have hplaces : 22 ≤ places := h.places_ge (by decide) hhigh
  by_cases hpart : t % 1000 = 0
  · have hslips : ¬ Slips (t / 1000) := not_slips_of_recent (by omega) (by omega)
    rw [slips_iff_loses h hpart] at hslips
    rcases Binary64.thousandfold_of_whole (show 15 ≤ places by omega) hpart with h | h
    · exact h.1
    · exact absurd h.2 hslips
  · exact Binary64.thousandfold_of_part (show 20 ≤ places by omega) hpart

theorem not_slips_zero : ¬ Slips 0 := by
  rintro ⟨places, hlow, -⟩
  rw [Nat.zero_mul] at hlow
  exact absurd hlow (by decide)

theorem reckoned_zero : Reckoned 0 0 where
  value h := absurd rfl h
  near := by decide
  whole _ := .inl ⟨rfl, not_slips_zero⟩
  part h := absurd rfl h
  recent h := absurd h (by decide)

theorem reckoned_of_fits (h : Fits t 1000000 places) (hsize : t < 2 ^ 38 * 1000000) :
    Reckoned t (thousandfold t 1000000 places) where
  value _ := ⟨places, h, rfl⟩
  near := Binary64.thousandfold_near t (h.places_ge (by decide) hsize)
  whole hpart := by
    rw [slips_iff_loses h hpart]
    exact Binary64.thousandfold_of_whole (h.places_ge (by decide) hsize) hpart
  part hpart hearly := Binary64.thousandfold_of_part (h.places_ge (by decide) hearly) hpart
  recent := thousandfold_of_recent h

namespace Moment

/-- **The milliseconds of every moment.**  The timestamp of a moment from 1970 on is always read,
and what comes out is the whole part of its microseconds over a thousand, but for the rounding of
binary fractions: it is off by one at most, whole milliseconds come out one too few just where
they slip, and with a part of a millisecond nothing goes wrong in the first `2 ^ 33` seconds. -/
theorem milliseconds_reckoned (moment : Moment) : ∃ time : Nat,
    readMilliseconds moment.text = some (time : Int) ∧ Reckoned moment.micros time := by
  rw [readMilliseconds_text, Binary64.ofFraction_natCast]
  rcases Nat.eq_zero_or_pos moment.micros with hzero | hpos
  · rw [hzero]
    exact ⟨0, Binary64.truncate_mul_zero 1000000, reckoned_zero⟩
  · obtain ⟨places, hfits⟩ := Binary64.exists_fits hpos
      (moment.micros_lt.trans (by decide : 2 ^ 38 * 1000000 < 2 ^ 53 * 1000000))
    have hlow := hfits.places_ge (by decide) moment.micros_lt
    have hhigh := hfits.places_le
    exact ⟨_, Binary64.truncate_mul_thousand hfits (by omega) (by omega),
      reckoned_of_fits hfits moment.micros_lt⟩

/-- A millisecond after the first second is lost: 1001 milliseconds slip. -/
theorem millisecond_slips : ∃ moment : Moment, moment.text = "1970-01-01T00:00:01.001000Z" ∧
    moment.micros / 1000 = 1001 ∧
    readMilliseconds "1970-01-01T00:00:01.001000Z" = some (1000 : Int) ∧ Slips 1001 := by
  refine ⟨⟨1970, 1, 1, 0, 0, 1, 1000, by decide, by decide, by decide, by decide, by decide,
    by decide, by decide⟩, by decide, by decide, by decide, 52, by decide, ?_⟩
  unfold Loses
  decide

end Moment

end HeadFinder.Calendar
