import Mathlib.Data.Int.Log
import Tradex.Foundation.Decimal

/-!
# The default decimal context

Results of more than 28 significant digits are rounded to 28, a tie to the even digit. A
number of at most 28 digits is kept, and rounding never crosses one.
-/

namespace Tradex.Decimal

/-- The nearest integer, a tie going to the even one. -/
def roundHalfEven (x : ℚ) : ℤ := if 2 * (x - ⌊x⌋) = 1 then 2 * ⌊(x + 1 / 2) / 2⌋ else ⌊x + 1 / 2⌋

/-- A number to 28 significant digits, the precision of the default context. -/
def rounded (x : ℚ) : Decimal where
  coeff := roundHalfEven (x / 10 ^ (Int.log 10 |x| - 27))
  exp := Int.log 10 |x| - 27

/-- What an operation with the exact result `d` returns in the default context. -/
def inContext (d : Decimal) : Decimal := if |d.coeff| < 10 ^ 28 then d else rounded d.toRat

/-- The numbers of at most 28 significant digits. -/
def Fits (x : ℚ) : Prop := ∃ coeff exp : ℤ, |coeff| < 10 ^ 28 ∧ x = coeff * 10 ^ exp

variable {x bound : ℚ} {n : ℤ}

theorem roundHalfEven_le (hle : x ≤ n) : roundHalfEven x ≤ n := by
  have hfloor := Int.floor_le x
  unfold roundHalfEven
  split
  next htie =>
    -- a tie lies strictly below `n`, so both neighbours are at most `n`
    have hbelow : ⌊x⌋ + 1 ≤ n := by
      have hlt : (⌊x⌋ : ℚ) < n := by linarith
      exact_mod_cast hlt
    have hhalf : ⌊(x + 1 / 2) / 2⌋ ≤ (⌊x⌋ + 1) / 2 := by
      rw [Int.le_ediv_iff_mul_le (by norm_num)]
      have := Int.floor_le ((x + 1 / 2) / 2)
      have hcast : (⌊(x + 1 / 2) / 2⌋ * 2 : ℚ) ≤ ⌊x⌋ + 1 := by linarith
      exact_mod_cast hcast
    omega
  next htie =>
    have hlt : x + 1 / 2 < n + 1 := by linarith
    exact Int.lt_add_one_iff.1 (Int.floor_lt.2 (by exact_mod_cast hlt))

theorem le_roundHalfEven (hle : n ≤ x) : n ≤ roundHalfEven x := by
  have hfloor := Int.floor_le x
  have hbelow : n ≤ ⌊x⌋ := Int.le_floor.2 hle
  unfold roundHalfEven
  split
  next htie =>
    have hhalf : (x + 1 / 2) / 2 = ((⌊x⌋ + 1 : ℤ) : ℚ) / 2 := by
      push_cast
      linarith
    rw [hhalf]
    have hdiv : ⌊((⌊x⌋ + 1 : ℤ) : ℚ) / 2⌋ = (⌊x⌋ + 1) / 2 := by
      exact_mod_cast Rat.floor_intCast_div_natCast (⌊x⌋ + 1) 2
    rw [hdiv]
    omega
  next htie => exact Int.le_floor.2 (by linarith)

@[simp] theorem roundHalfEven_intCast : roundHalfEven n = n :=
  le_antisymm (roundHalfEven_le le_rfl) (le_roundHalfEven le_rfl)

theorem Fits.multiple {log : ℤ} (hfits : Fits x) (hlog : (10 : ℚ) ^ log ≤ |x|) :
    ∃ n : ℤ, x = n * 10 ^ (log - 27) := by
  obtain ⟨coeff, exp, hcoeff, rfl⟩ := hfits
  have hexp : log - 27 ≤ exp := by
    by_contra hless
    have hpow : (0 : ℚ) < 10 ^ exp := zpow_pos (by norm_num) _
    have hlarge : (10 : ℚ) ^ (28 : ℤ) * 10 ^ exp ≤ |(coeff : ℚ)| * 10 ^ exp := by
      calc
        (10 : ℚ) ^ (28 : ℤ) * 10 ^ exp = 10 ^ (28 + exp) := by rw [zpow_add₀ (by norm_num)]
        _ ≤ 10 ^ log := zpow_le_zpow_right₀ (by norm_num) (by omega)
        _ ≤ |(coeff : ℚ) * 10 ^ exp| := hlog
        _ = |(coeff : ℚ)| * 10 ^ exp := by rw [abs_mul, abs_of_pos hpow]
    have hdigits : ((10 : ℤ) ^ 28 : ℤ) ≤ |coeff| := by
      have hle := le_of_mul_le_mul_right hlarge hpow
      exact_mod_cast hle
    omega
  refine ⟨coeff * 10 ^ (exp - (log - 27)).toNat, ?_⟩
  have hshift : ((exp - (log - 27)).toNat : ℤ) = exp - (log - 27) := Int.toNat_of_nonneg (by omega)
  push_cast
  rw [← zpow_natCast, hshift, mul_assoc, ← zpow_add₀ (by norm_num), sub_add_cancel]

theorem log_le_abs (hx : x ≠ 0) : (10 : ℚ) ^ Int.log 10 |x| ≤ |x| :=
  Int.zpow_log_le_self (by norm_num) (abs_pos.2 hx)

@[simp] theorem toRat_rounded_zero : (rounded 0).toRat = 0 := by
  have hround : roundHalfEven 0 = 0 := by exact_mod_cast roundHalfEven_intCast (n := 0)
  simp [rounded, toRat, hround]

theorem toRat_rounded_le (hx : 0 ≤ x) (hfits : Fits bound) (hle : x ≤ bound) :
    (rounded x).toRat ≤ bound := by
  rcases hx.eq_or_lt with rfl | hpos
  · rwa [toRat_rounded_zero]
  · have hunit : (0 : ℚ) < 10 ^ (Int.log 10 |x| - 27) := zpow_pos (by norm_num) _
    obtain ⟨n, rfl⟩ := hfits.multiple ((log_le_abs hpos.ne').trans
      ((abs_of_pos hpos).le.trans (hle.trans (le_abs_self _))))
    refine mul_le_mul_of_nonneg_right ?_ hunit.le
    exact_mod_cast roundHalfEven_le ((div_le_iff₀ hunit).2 hle)

theorem le_toRat_rounded (hbound : 0 ≤ bound) (hfits : Fits bound) (hle : bound ≤ x) :
    bound ≤ (rounded x).toRat := by
  rcases (hbound.trans hle).eq_or_lt with rfl | hpos
  · rwa [toRat_rounded_zero]
  · have hunit : (0 : ℚ) < 10 ^ (Int.log 10 |x| - 27) := zpow_pos (by norm_num) _
    have hlow := log_le_abs hpos.ne'
    rcases le_total bound (10 ^ Int.log 10 |x|) with hsmall | hlarge
    · have hpow : (10 : ℚ) ^ Int.log 10 |x| = ((10 ^ 27 : ℤ) : ℚ) * 10 ^ (Int.log 10 |x| - 27) := by
        rw [show Int.log 10 |x| = 27 + (Int.log 10 |x| - 27) by ring, zpow_add₀ (by norm_num)]
        norm_num
      refine hsmall.trans (hpow.le.trans (mul_le_mul_of_nonneg_right ?_ hunit.le))
      refine Int.cast_le.2 (le_roundHalfEven ((le_div_iff₀ hunit).2 ?_))
      rw [← hpow, ← abs_of_pos hpos]
      simpa using hlow
    · obtain ⟨n, rfl⟩ := hfits.multiple (hlarge.trans (le_abs_self _))
      refine mul_le_mul_of_nonneg_right ?_ hunit.le
      exact_mod_cast le_roundHalfEven ((le_div_iff₀ hunit).2 hle)

theorem toRat_rounded_of_fits (hfits : Fits x) : (rounded x).toRat = x := by
  rcases eq_or_ne x 0 with rfl | hx
  · exact toRat_rounded_zero
  · obtain ⟨n, hn⟩ := hfits.multiple (log_le_abs hx)
    have hunit : (10 : ℚ) ^ (Int.log 10 |x| - 27) ≠ 0 := zpow_ne_zero _ (by norm_num)
    have hquot : x / 10 ^ (Int.log 10 |x| - 27) = n := (div_eq_iff hunit).2 hn
    rw [rounded, toRat, hquot, roundHalfEven_intCast]
    exact hn.symm

theorem inContext_nonneg {d : Decimal} (hd : 0 ≤ d.toRat) : 0 ≤ d.inContext.toRat := by
  unfold inContext
  split
  · exact hd
  · exact le_toRat_rounded le_rfl ⟨0, 0, by norm_num, by simp⟩ hd

end Tradex.Decimal
