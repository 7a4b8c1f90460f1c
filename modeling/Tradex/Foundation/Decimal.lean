import Mathlib.Data.Rat.Floor
import Mathlib.Tactic.Positivity

/-!
# Decimal numbers with their written form

An integer coefficient with a power of ten. Decimals of equal value may differ in their exponent,
which is visible in `str`.
-/

namespace Tradex

open List

structure Decimal where
  coeff : ℤ
  exp : ℤ
deriving DecidableEq

namespace Decimal

instance instOfNat (n : ℕ) : OfNat Decimal n := ⟨⟨n, 0⟩⟩

instance instInhabited : Inhabited Decimal := ⟨0⟩

def toRat (d : Decimal) : ℚ := d.coeff * (10 : ℚ) ^ d.exp

instance instLE : LE Decimal := ⟨fun a b ↦ a.toRat ≤ b.toRat⟩

instance instLT : LT Decimal := ⟨fun a b ↦ a.toRat < b.toRat⟩

instance instDecidableLE (a b : Decimal) : Decidable (a ≤ b) :=
  inferInstanceAs (Decidable (a.toRat ≤ b.toRat))

instance instDecidableLT (a b : Decimal) : Decidable (a < b) :=
  inferInstanceAs (Decidable (a.toRat < b.toRat))

variable {a b : Decimal} {d : Decimal} {x : ℚ}

theorem le_iff : a ≤ b ↔ a.toRat ≤ b.toRat := Iff.rfl

theorem lt_iff : a < b ↔ a.toRat < b.toRat := Iff.rfl

@[simp] theorem toRat_ofNat (n : ℕ) : (OfNat.ofNat n : Decimal).toRat = n := by
  change ((n : ℤ) : ℚ) * (10 : ℚ) ^ (0 : ℤ) = n
  simp

@[simp] theorem toRat_zero : (0 : Decimal).toRat = 0 := by
  simpa using toRat_ofNat 0

theorem ten_pos : 0 < (10 : Decimal).toRat := by decide +kernel

theorem hundred_pos : 0 < (100 : Decimal).toRat := by decide +kernel

def coeffAt (d : Decimal) (exp : ℤ) : ℤ := d.coeff * 10 ^ (d.exp - exp).toNat

theorem coeffAt_mul_zpow {exp : ℤ} (hexp : exp ≤ d.exp) :
    (d.coeffAt exp : ℚ) * (10 : ℚ) ^ exp = d.toRat := by
  have hshift : ((d.exp - exp).toNat : ℤ) = d.exp - exp := Int.toNat_of_nonneg (by omega)
  calc
    (d.coeffAt exp : ℚ) * (10 : ℚ) ^ exp
        = d.coeff * ((10 : ℚ) ^ ((d.exp - exp).toNat : ℤ) * (10 : ℚ) ^ exp) := by
      simp only [coeffAt, Int.cast_mul, Int.cast_pow, Int.cast_ofNat, zpow_natCast, mul_assoc]
    _ = d.coeff * (10 : ℚ) ^ d.exp := by
      rw [← zpow_add₀ (by norm_num : (10 : ℚ) ≠ 0), hshift, sub_add_cancel]

instance instAdd : Add Decimal :=
  ⟨fun a b ↦ ⟨a.coeffAt (min a.exp b.exp) + b.coeffAt (min a.exp b.exp), min a.exp b.exp⟩⟩

instance instNeg : Neg Decimal := ⟨fun a ↦ ⟨-a.coeff, a.exp⟩⟩

instance instSub : Sub Decimal := ⟨fun a b ↦ a + -b⟩

instance instMul : Mul Decimal := ⟨fun a b ↦ ⟨a.coeff * b.coeff, a.exp + b.exp⟩⟩

def abs (d : Decimal) : Decimal := ⟨|d.coeff|, d.exp⟩

def minimum (a b : Decimal) : Decimal := if b < a then b else a

def maximum (a b : Decimal) : Decimal := if a < b then b else a

@[simp] theorem toRat_add : (a + b).toRat = a.toRat + b.toRat := by
  change ((a.coeffAt (min a.exp b.exp) + b.coeffAt (min a.exp b.exp) : ℤ) : ℚ) *
    (10 : ℚ) ^ min a.exp b.exp = _
  rw [Int.cast_add, add_mul, coeffAt_mul_zpow (min_le_left _ _),
    coeffAt_mul_zpow (min_le_right _ _)]

@[simp] theorem toRat_neg {a : Decimal} : (-a).toRat = -a.toRat := by
  change ((-a.coeff : ℤ) : ℚ) * (10 : ℚ) ^ a.exp = -(a.coeff * (10 : ℚ) ^ a.exp)
  push_cast
  ring

@[simp] theorem toRat_sub (a b : Decimal) : (a - b).toRat = a.toRat - b.toRat := by
  change (a + -b).toRat = _
  rw [toRat_add, toRat_neg, sub_eq_add_neg]

@[simp] theorem toRat_mul : (a * b).toRat = a.toRat * b.toRat := by
  change ((a.coeff * b.coeff : ℤ) : ℚ) * (10 : ℚ) ^ (a.exp + b.exp) = _
  rw [zpow_add₀ (by norm_num : (10 : ℚ) ≠ 0), toRat, toRat]
  push_cast
  ring

@[simp] theorem toRat_abs {a : Decimal} : a.abs.toRat = |a.toRat| := by
  have hpow : (0 : ℚ) < (10 : ℚ) ^ a.exp := zpow_pos (by norm_num) _
  rw [abs, toRat, toRat, abs_mul, abs_of_pos hpow, Int.cast_abs]

@[simp] theorem toRat_minimum : (minimum a b).toRat = min a.toRat b.toRat := by
  unfold minimum
  split
  · rename_i hlt
    exact (min_eq_right (le_of_lt (lt_iff.1 hlt))).symm
  · rename_i hle
    exact (min_eq_left (not_lt.1 (fun hlt ↦ hle (lt_iff.2 hlt)))).symm

@[simp] theorem toRat_maximum : (maximum a b).toRat = max a.toRat b.toRat := by
  unfold maximum
  split
  · rename_i hlt
    exact (max_eq_right (le_of_lt (lt_iff.1 hlt))).symm
  · rename_i hle
    exact (max_eq_left (not_lt.1 (fun hlt ↦ hle (lt_iff.2 hlt)))).symm

theorem sub_self_eq {a : Decimal} : a - a = ⟨0, a.exp⟩ := by
  change (⟨a.coeffAt (min a.exp a.exp) + (-a).coeffAt (min a.exp a.exp), min a.exp a.exp⟩ :
    Decimal) = _
  have hneg : (-a).coeffAt a.exp = -a.coeffAt a.exp := by
    change -a.coeff * 10 ^ (a.exp - a.exp).toNat = -(a.coeff * 10 ^ (a.exp - a.exp).toNat)
    ring
  rw [min_self, hneg, add_neg_cancel]

theorem add_zero_at {a : Decimal} : a + ⟨0, a.exp⟩ = a := by
  change (⟨a.coeffAt (min a.exp a.exp) + coeffAt ⟨0, a.exp⟩ (min a.exp a.exp),
    min a.exp a.exp⟩ : Decimal) = a
  simp [coeffAt]

def roundCents (x : ℚ) : Decimal :=
  if 0 ≤ x then ⟨⌊x * 100 + 1 / 2⌋, -2⟩ else ⟨-⌊-x * 100 + 1 / 2⌋, -2⟩

theorem roundCents_nonneg (hx : 0 ≤ x) : 0 ≤ (roundCents x).toRat := by
  rw [roundCents, if_pos hx, toRat]
  have hfloor : (0 : ℤ) ≤ ⌊x * 100 + 1 / 2⌋ := Int.floor_nonneg.2 (by positivity)
  positivity

theorem roundCents_roundCents (hx : 0 ≤ x) : roundCents (roundCents x).toRat = roundCents x := by
  have hcents : (roundCents x).toRat * 100 = ⌊x * 100 + 1 / 2⌋ := by
    rw [roundCents, if_pos hx, toRat]
    ring
  have hfloor : ⌊((⌊x * 100 + 1 / 2⌋ : ℤ) : ℚ) + 1 / 2⌋ = ⌊x * 100 + 1 / 2⌋ := by norm_num
  rw [roundCents, if_pos (roundCents_nonneg hx), hcents, hfloor, roundCents, if_pos hx]

theorem roundCents_of_neg (hx : x < 0) : (roundCents x).toRat = -(roundCents (-x)).toRat := by
  rw [roundCents, if_neg (not_le.2 hx), roundCents, if_pos (by linarith), toRat, toRat]
  push_cast
  ring

theorem toRat_roundCents (hx : 0 ≤ x) : (roundCents x).toRat = (⌊x * 100 + 1 / 2⌋ : ℤ) / 100 := by
  rw [roundCents, if_pos hx, toRat]
  ring

theorem abs_roundCents_sub_le (x : ℚ) : |(roundCents x).toRat - x| ≤ 1 / 200 := by
  have hnn : ∀ y : ℚ, 0 ≤ y → |(roundCents y).toRat - y| ≤ 1 / 200 := by
    intro y hy
    have hlower := Int.floor_le (y * 100 + 1 / 2)
    have hupper := Int.lt_floor_add_one (y * 100 + 1 / 2)
    rw [toRat_roundCents hy, abs_le]
    constructor <;> linarith
  rcases le_or_gt 0 x with hx | hx
  · exact hnn x hx
  · rw [roundCents_of_neg hx, abs_sub_comm]
    calc
      |x - -(roundCents (-x)).toRat| = |(roundCents (-x)).toRat - -x| := by ring_nf
      _ ≤ 1 / 200 := hnn (-x) (by linarith)

variable {y : ℚ} {c : Char} {n : ℕ}

theorem roundCents_mono (hx : 0 ≤ x) (hxy : x ≤ y) :
    (roundCents x).toRat ≤ (roundCents y).toRat := by
  rw [toRat_roundCents hx, toRat_roundCents (hx.trans hxy)]
  have hfloor : ⌊x * 100 + 1 / 2⌋ ≤ ⌊y * 100 + 1 / 2⌋ := Int.floor_le_floor (by linarith)
  have hcast : (⌊x * 100 + 1 / 2⌋ : ℚ) ≤ ⌊y * 100 + 1 / 2⌋ := by exact_mod_cast hfloor
  linarith

def IsCents (x : ℚ) : Prop := ∃ cents : ℤ, x = cents / 100

theorem IsCents.add (hx : IsCents x) (hy : IsCents y) : IsCents (x + y) := by
  obtain ⟨left, rfl⟩ := hx
  obtain ⟨right, rfl⟩ := hy
  exact ⟨left + right, by push_cast; ring⟩

theorem IsCents.sub (hx : IsCents x) (hy : IsCents y) : IsCents (x - y) := by
  obtain ⟨left, rfl⟩ := hx
  obtain ⟨right, rfl⟩ := hy
  exact ⟨left - right, by push_cast; ring⟩

theorem IsCents.min (hx : IsCents x) (hy : IsCents y) : IsCents (min x y) := by
  rcases min_choice x y with hmin | hmin <;> rwa [hmin]

theorem IsCents.max (hx : IsCents x) (hy : IsCents y) : IsCents (max x y) := by
  rcases max_choice x y with hmax | hmax <;> rwa [hmax]

theorem isCents_natCast : IsCents n := ⟨n * 100, by push_cast; ring⟩

theorem isCents_roundCents {x : ℚ} : IsCents (roundCents x).toRat := by
  rcases le_or_gt 0 x with hx | hx
  · exact ⟨_, toRat_roundCents hx⟩
  · refine ⟨-⌊-x * 100 + 1 / 2⌋, ?_⟩
    rw [roundCents_of_neg hx, toRat_roundCents (by linarith)]
    push_cast
    ring

theorem toRat_roundCents_of_isCents (hx : IsCents x) : (roundCents x).toRat = x := by
  obtain ⟨apart, hapart⟩ := (isCents_roundCents).sub hx
  have hnear := abs_roundCents_sub_le x
  rw [hapart, abs_div, abs_of_pos (by norm_num : (0 : ℚ) < 100)] at hnear
  have hless : |(apart : ℚ)| < 1 := by linarith
  have hzero : apart = 0 := Int.abs_lt_one_iff.1 (by exact_mod_cast hless)
  rw [hzero] at hapart
  linarith

def pointedDigits (digits : List Char) (dotPlace : ℤ) : List Char :=
  if dotPlace ≤ 0 then ['0', '.'] ++ List.replicate (-dotPlace).toNat '0' ++ digits
  else if digits.length ≤ dotPlace then
    digits ++ List.replicate (dotPlace - digits.length).toNat '0'
  else digits.take dotPlace.toNat ++ ['.'] ++ digits.drop dotPlace.toNat

def exponentChars (exponent : ℤ) : List Char :=
  if exponent = 0 then []
  else 'E' :: (if 0 < exponent then '+' else '-') :: Nat.toDigits 10 exponent.natAbs

def dotPlace (exp : ℤ) (leftDigits : ℤ) : ℤ :=
  if exp ≤ 0 ∧ -6 < leftDigits then leftDigits else 1

def chars (d : Decimal) : List Char :=
  let digits := Nat.toDigits 10 d.coeff.natAbs
  let leftDigits : ℤ := d.exp + digits.length
  (if d.coeff < 0 then ['-'] else []) ++
    (pointedDigits digits (dotPlace d.exp leftDigits) ++
      exponentChars (leftDigits - dotPlace d.exp leftDigits))

def str (d : Decimal) : String := String.ofList d.chars

@[simp] theorem toList_str : d.str.toList = d.chars := by
  simp [str]

def stripZeros : ℕ → ℤ → ℤ → Decimal
  | 0, coeff, exp => ⟨coeff, exp⟩
  | fuel + 1, coeff, exp =>
    if coeff % 10 = 0 then stripZeros fuel (coeff / 10) (exp + 1) else ⟨coeff, exp⟩

def normalize (d : Decimal) : Decimal :=
  if d.coeff = 0 then 0 else stripZeros (Nat.toDigits 10 d.coeff.natAbs).length d.coeff d.exp

def fixedStr (d : Decimal) : String :=
  let digits := Nat.toDigits 10 d.coeff.natAbs
  String.ofList ((if d.coeff < 0 then ['-'] else []) ++ pointedDigits digits (d.exp + digits.length))

example : (Decimal.mk 1200 (-1)).normalize.fixedStr = "120" := by decide +kernel

def isNumeral (c : Char) : Bool := c.isDigit || c ∈ ['-', '.', '+', 'E']

theorem isNumeral_of_mem_toDigits (hc : c ∈ Nat.toDigits 10 n) : isNumeral c = true := by
  have hdigit : c.isDigit = true := Nat.isDigit_of_mem_toDigits (by decide) (by decide) hc
  simp [isNumeral, hdigit]

theorem isNumeral_of_mem_pointedDigits {place : ℤ}
    (hc : c ∈ pointedDigits (Nat.toDigits 10 n) place) : isNumeral c = true := by
  have hzero : ∀ {m : ℕ}, c ∈ replicate m '0' → isNumeral c = true := by
    intro m hmem
    rw [(mem_replicate.1 hmem).2]
    decide
  unfold pointedDigits at hc
  split at hc
  · simp only [mem_append, mem_cons, not_mem_nil, or_false] at hc
    rcases hc with ((rfl | rfl) | hpad) | hdig
    · decide
    · decide
    · exact hzero hpad
    · exact isNumeral_of_mem_toDigits hdig
  · split at hc
    · rcases mem_append.1 hc with hdig | hpad
      · exact isNumeral_of_mem_toDigits hdig
      · exact hzero hpad
    · simp only [mem_append, mem_singleton] at hc
      rcases hc with (hleft | rfl) | hright
      · exact isNumeral_of_mem_toDigits (mem_of_mem_take hleft)
      · decide
      · exact isNumeral_of_mem_toDigits (mem_of_mem_drop hright)

theorem isNumeral_of_mem_exponentChars {exponent : ℤ}
    (hc : c ∈ exponentChars exponent) : isNumeral c = true := by
  unfold exponentChars at hc
  split at hc
  · simp at hc
  · simp only [mem_cons] at hc
    rcases hc with rfl | hsign | hdig
    · decide
    · rw [hsign]
      split <;> decide
    · exact isNumeral_of_mem_toDigits hdig

theorem isNumeral_of_mem_chars (hc : c ∈ d.chars) : isNumeral c = true := by
  simp only [chars, mem_append] at hc
  rcases hc with hsign | hbody | hexponent
  · split at hsign
    · rw [mem_singleton.1 hsign]
      decide
    · simp at hsign
  · exact isNumeral_of_mem_pointedDigits hbody
  · exact isNumeral_of_mem_exponentChars hexponent

example : (Decimal.mk 1050 (-2)).str = "10.50" := by decide +kernel

example : (Decimal.mk 1 3).str = "1E+3" := by decide +kernel

end Decimal

end Tradex
