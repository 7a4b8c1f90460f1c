import Tradex.Foundation.Decimal
import Mathlib.Data.List.TakeWhile

/-!
# The text of a decimal determines it

The text is a sign, the digits with a point among them, and an exponent. Each can be
read off the text, so decimals with one text are the same.
-/

namespace Tradex.Decimal

open List

def fractionChars (written : List Char) : List Char := (written.dropWhile (· ≠ '.')).tail

def writtenValue (written : List Char) : ℚ :=
  Nat.ofDigitChars 10 (written.filter (· ≠ '.')) 0 *
    (10 : ℚ) ^ (-(fractionChars written).length : ℤ)

theorem ne_point_of_notMem {chars : List Char} (hchars : '.' ∉ chars) :
    ∀ c ∈ chars, decide (c ≠ '.') = true := by
  intro c hc
  exact decide_eq_true fun hpoint ↦ hchars (hpoint ▸ hc)

variable {digits : List Char}

theorem fractionChars_whole (hdig : '.' ∉ digits) : fractionChars digits = [] := by
  rw [fractionChars, dropWhile_eq_nil_iff.mpr (ne_point_of_notMem hdig), tail_nil]

variable {left right : List Char} {place : ℤ} {d : Decimal}

theorem fractionChars_pointed (hleft : '.' ∉ left) :
    fractionChars (left ++ '.' :: right) = right := by
  rw [fractionChars, dropWhile_append_of_pos (ne_point_of_notMem hleft)]
  simp

theorem writtenValue_whole (hdig : '.' ∉ digits) :
    writtenValue digits = Nat.ofDigitChars 10 digits 0 := by
  rw [writtenValue, fractionChars_whole hdig,
    filter_eq_self.mpr (ne_point_of_notMem hdig), length_nil, Nat.cast_zero,
    neg_zero, zpow_zero, mul_one]

theorem writtenValue_pointed (hleft : '.' ∉ left) (hright : '.' ∉ right) :
    writtenValue (left ++ '.' :: right) =
      Nat.ofDigitChars 10 (left ++ right) 0 * (10 : ℚ) ^ (-right.length : ℤ) := by
  have hdig : (left ++ '.' :: right).filter (· ≠ '.') = left ++ right := by
    rw [filter_append, filter_eq_self.mpr (ne_point_of_notMem hleft),
      filter_cons_of_neg (by simp), filter_eq_self.mpr (ne_point_of_notMem hright)]
  rw [writtenValue, fractionChars_pointed hleft, hdig]

theorem writtenValue_pointedDigits (hdig : '.' ∉ digits) :
    writtenValue (pointedDigits digits place) =
      Nat.ofDigitChars 10 digits 0 * (10 : ℚ) ^ (place - digits.length) := by
  have hzeros : ∀ count, '.' ∉ replicate count '0' := by
    intro count hpoint
    exact absurd (mem_replicate.mp hpoint).2 (by decide)
  unfold pointedDigits
  split
  next hsmall =>
    have hleft : '.' ∉ ['0'] := by decide
    have hright : '.' ∉ replicate (-place).toNat '0' ++ digits := by
      rw [mem_append, not_or]
      exact ⟨hzeros _, hdig⟩
    have hwrit : ['0', '.'] ++ replicate (-place).toNat '0' ++ digits =
        ['0'] ++ '.' :: (replicate (-place).toNat '0' ++ digits) := by simp
    have hval : Nat.ofDigitChars 10 (['0'] ++ (replicate (-place).toNat '0' ++ digits)) 0 =
        Nat.ofDigitChars 10 digits 0 := by
      simp [Nat.ofDigitChars_append, Nat.ofDigitChars_cons]
    have hlen : (-(replicate (-place).toNat '0' ++ digits).length : ℤ) =
        place - digits.length := by
      rw [length_append, length_replicate]
      omega
    rw [hwrit, writtenValue_pointed hleft hright, hval, hlen]
  next hlarge =>
    split
    next hlong =>
      have hwhole : '.' ∉ digits ++ replicate (place - digits.length).toNat '0' := by
        rw [mem_append, not_or]
        exact ⟨hdig, hzeros _⟩
      have hplaces : ((place - digits.length).toNat : ℤ) = place - digits.length := by omega
      rw [writtenValue_whole hwhole, Nat.ofDigitChars_append, Nat.ofDigitChars_replicate_zero,
        ← hplaces, Nat.cast_mul, Nat.cast_pow, mul_comm]
      rfl
    next hshort =>
      have hleft : '.' ∉ digits.take place.toNat := fun hpoint ↦ hdig (mem_of_mem_take hpoint)
      have hright : '.' ∉ digits.drop place.toNat := fun hpoint ↦ hdig (mem_of_mem_drop hpoint)
      have hlen : (-(digits.drop place.toNat).length : ℤ) = place - digits.length := by
        rw [length_drop]
        omega
      rw [append_assoc, singleton_append, writtenValue_pointed hleft hright, take_append_drop, hlen]

theorem length_fractionChars_pointedDigits (hdig : '.' ∉ digits) (hplace : place ≤ digits.length) :
    ((fractionChars (pointedDigits digits place)).length : ℤ) = digits.length - place := by
  unfold pointedDigits
  split
  next hsmall =>
    have hwrit : ['0', '.'] ++ replicate (-place).toNat '0' ++ digits =
        ['0'] ++ '.' :: (replicate (-place).toNat '0' ++ digits) := by simp
    rw [hwrit, fractionChars_pointed (by decide), length_append, length_replicate]
    omega
  next hlarge =>
    split
    next hlong =>
      have hzero : (place - digits.length).toNat = 0 := by omega
      rw [hzero, replicate_zero, append_nil, fractionChars_whole hdig, length_nil]
      omega
    next hshort =>
      rw [append_assoc, singleton_append,
        fractionChars_pointed fun hpoint ↦ hdig (mem_of_mem_take hpoint), length_drop]
      omega

theorem dotPlace_le (hdig : digits ≠ []) {exp : ℤ} :
    dotPlace exp (exp + digits.length) ≤ digits.length := by
  have hpos := length_pos_of_ne_nil hdig
  rw [dotPlace]
  split <;> omega

theorem notMem_toDigits {c : Char} (hc : c.isDigit = false) (n : ℕ) : c ∉ Nat.toDigits 10 n := by
  intro hmem
  rw [Nat.isDigit_of_mem_toDigits (by decide) (by decide) hmem] at hc
  cases hc

theorem toDigits_injective {m n : ℕ} (heq : Nat.toDigits 10 m = Nat.toDigits 10 n) : m = n := by
  rw [← Nat.ofDigitChars_ten_toDigits (n := m), heq, Nat.ofDigitChars_ten_toDigits]

theorem exponentChars_injective {exponent other : ℤ}
    (heq : exponentChars exponent = exponentChars other) : exponent = other := by
  rw [exponentChars, exponentChars] at heq
  by_cases hzero : exponent = 0
  · by_cases hzero' : other = 0
    · rw [hzero, hzero']
    · rw [if_pos hzero, if_neg hzero'] at heq
      cases heq
  · by_cases hzero' : other = 0
    · rw [if_neg hzero, if_pos hzero'] at heq
      cases heq
    · rw [if_neg hzero, if_neg hzero', cons.injEq, cons.injEq] at heq
      have habs := toDigits_injective heq.2.2
      have hmark := heq.2.1
      split at hmark
      · split at hmark
        · omega
        · exact absurd hmark (by decide)
      · split at hmark
        · exact absurd hmark (by decide)
        · omega

theorem notMem_pointedDigits {c : Char} (hc : c.isDigit = false) (hpoint : c ≠ '.') (n : ℕ)
    (place : ℤ) : c ∉ pointedDigits (Nat.toDigits 10 n) place := by
  have hdig := notMem_toDigits hc n
  have hzero : c ≠ '0' := by
    rintro rfl
    cases hc
  unfold pointedDigits
  split
  · simp [hpoint, hzero, hdig]
  · split
    · simp [hzero, hdig]
    · simp only [mem_append, mem_singleton, not_or]
      exact ⟨⟨fun hmem ↦ hdig (mem_of_mem_take hmem), hpoint⟩,
        fun hmem ↦ hdig (mem_of_mem_drop hmem)⟩

theorem pointedDigits_ne_nil (hdig : digits ≠ []) : pointedDigits digits place ≠ [] := by
  unfold pointedDigits
  split
  · simp
  · split <;> simp [hdig]

theorem split_exponent {left left' : List Char} {exponent exponent' : ℤ} (hleft : 'E' ∉ left)
    (hleft' : 'E' ∉ left') (heq : left ++ exponentChars exponent = left' ++ exponentChars exponent') :
    left = left' ∧ exponent = exponent' := by
  have hpre : ∀ {chars : List Char} (power : ℤ), 'E' ∉ chars →
      (chars ++ exponentChars power).takeWhile (· ≠ 'E') = chars := by
    intro chars power hchars
    have hplain : ∀ c ∈ chars, decide (c ≠ 'E') = true :=
      fun c hc ↦ decide_eq_true fun hmark ↦ hchars (hmark ▸ hc)
    rw [takeWhile_append_of_pos hplain, exponentChars]
    split <;> simp
  have hsame : left = left' := by rw [← hpre exponent hleft, heq, hpre exponent' hleft']
  rw [hsame] at heq
  exact ⟨hsame, exponentChars_injective (append_cancel_left heq)⟩

theorem exists_unsigned : ∃ (written : List Char) (exponent : ℤ),
    d.chars = (if d.coeff < 0 then ['-'] else []) ++ (written ++ exponentChars exponent) ∧
      '-' ∉ written ∧ 'E' ∉ written ∧ written ≠ [] ∧
      d.exp = exponent - (fractionChars written).length ∧
      (d.coeff.natAbs : ℚ) * (10 : ℚ) ^ d.exp = writtenValue written * (10 : ℚ) ^ exponent := by
  let digits := Nat.toDigits 10 d.coeff.natAbs
  let place := dotPlace d.exp (d.exp + digits.length)
  have hpoint : '.' ∉ digits := notMem_toDigits (by decide) _
  refine ⟨pointedDigits digits place, d.exp + digits.length - place, rfl,
    notMem_pointedDigits (by decide) (by decide) _ _, notMem_pointedDigits (by decide) (by decide) _ _,
    ?_, ?_, ?_⟩
  · exact pointedDigits_ne_nil Nat.toDigits_ne_nil
  · rw [length_fractionChars_pointedDigits hpoint (dotPlace_le Nat.toDigits_ne_nil)]
    ring
  · have hexponent : d.exp =
        place - (digits.length : ℤ) + (d.exp + digits.length - place) := by omega
    rw [writtenValue_pointedDigits hpoint, Nat.ofDigitChars_ten_toDigits,
      mul_assoc, ← zpow_add₀ (by norm_num), ← hexponent]

theorem head?_signed {negative : Prop} [Decidable negative] {written rest : List Char}
    (hminus : '-' ∉ written) (hne : written ≠ []) :
    ((if negative then ['-'] else []) ++ (written ++ rest)).head? = some '-' ↔ negative := by
  obtain ⟨first, tail, rfl⟩ := exists_cons_of_ne_nil hne
  split
  next hnegative => exact iff_of_true rfl hnegative
  next hpos =>
    refine iff_of_false (fun hfst ↦ hminus ?_) hpos
    rw [← Option.some_inj.mp hfst]
    exact mem_cons_self

theorem toRat_eq_signed :
    d.toRat = (if d.coeff < 0 then -1 else 1) * ((d.coeff.natAbs : ℚ) * (10 : ℚ) ^ d.exp) := by
  have hcoeff : (d.coeff : ℚ) = (if d.coeff < 0 then -1 else 1) * (d.coeff.natAbs : ℚ) := by
    split
    next hnegative =>
      rw [← Int.cast_natCast, Int.ofNat_natAbs_of_nonpos hnegative.le]
      push_cast
      ring
    next hpos => rw [← Int.cast_natCast, Int.natAbs_of_nonneg (not_lt.mp hpos), one_mul]
  rw [toRat, hcoeff, mul_assoc]

theorem toRat_exp_eq_of_str_eq {d other : Decimal} (heq : d.str = other.str) :
    d.toRat = other.toRat ∧ d.exp = other.exp := by
  have hchars : d.chars = other.chars := by rw [← toList_str, ← toList_str, heq]
  obtain ⟨written, exponent, htext, hminus, hmark, hne, hexp, hval⟩ := exists_unsigned
  obtain ⟨written', exponent', htext', hminus', hmark', hne', hexp', hval'⟩ := exists_unsigned
  rw [htext, htext'] at hchars
  have hsign : d.coeff < 0 ↔ other.coeff < 0 :=
    calc
      d.coeff < 0 ↔ _ := (head?_signed hminus hne).symm
      _ ↔ _ := by rw [hchars]
      _ ↔ other.coeff < 0 := head?_signed hminus' hne'
  have hrest : written ++ exponentChars exponent = written' ++ exponentChars exponent' := by
    simp only [hsign] at hchars
    exact append_cancel_left hchars
  obtain ⟨rfl, rfl⟩ := split_exponent hmark hmark' hrest
  refine ⟨?_, hexp.trans hexp'.symm⟩
  rw [toRat_eq_signed, toRat_eq_signed, hval, hval']
  simp [hsign]

theorem str_injective : Function.Injective Decimal.str := by
  intro d other heq
  obtain ⟨hval, hexp⟩ := toRat_exp_eq_of_str_eq heq
  have hpower : (10 : ℚ) ^ other.exp ≠ 0 := zpow_ne_zero _ (by norm_num)
  rw [toRat, toRat, hexp, mul_left_inj' hpower] at hval
  cases d
  simp_all

end Tradex.Decimal
