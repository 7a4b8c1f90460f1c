import Mathlib.Data.List.TakeWhile

/-!
# Texts without surrounding white space

Stripping a text removes the Unicode white space around it. A text is stripped when
that changes nothing, which can be read off its first and its last character.
-/

namespace Tradex.Text

open List

def isSpace (c : Char) : Bool :=
  (0x09 ≤ c.toNat ∧ c.toNat ≤ 0x0D) ∨ (0x1C ≤ c.toNat ∧ c.toNat ≤ 0x20) ∨
    c.toNat ∈ [0x85, 0xA0, 0x1680] ∨ (0x2000 ≤ c.toNat ∧ c.toNat ≤ 0x200A) ∨
    c.toNat ∈ [0x2028, 0x2029, 0x202F, 0x205F, 0x3000]

variable {c : Char} {chars : List Char}

theorem isSpace_eq_false_of_visible (hlow : 0x21 ≤ c.toNat) (hhigh : c.toNat ≤ 0x7E) :
    isSpace c = false := by
  rw [isSpace, decide_eq_false_iff_not]
  simp only [mem_cons, not_mem_nil, or_false]
  omega

theorem isSpace_eq_false_of_isDigit (hdigit : c.isDigit = true) : isSpace c = false := by
  rw [Char.isDigit, Bool.and_eq_true, decide_eq_true_eq, decide_eq_true_eq] at hdigit
  have hlow : 48 ≤ c.toNat := hdigit.1
  have hhigh : c.toNat ≤ 57 := hdigit.2
  exact isSpace_eq_false_of_visible (by omega) (by omega)

def stripChars (chars : List Char) : List Char :=
  ((chars.dropWhile isSpace).reverse.dropWhile isSpace).reverse

variable (text : String)

def strip : String := String.ofList (stripChars text.toList)

structure Stripped (chars : List Char) : Prop where
  head : ∀ c ∈ chars.head?, isSpace c = false
  last : ∀ c ∈ chars.getLast?, isSpace c = false

def isSolid (chars : List Char) : Bool := chars.all fun c ↦ !isSpace c

theorem notSpace_of_isSolid (hsolid : isSolid chars = true) : ∀ c ∈ chars, isSpace c = false := by
  intro c hc
  have hvisible := all_eq_true.1 hsolid c hc
  rwa [Bool.not_eq_true'] at hvisible

theorem stripped_of_isSolid (hsolid : isSolid chars = true) : Stripped chars :=
  ⟨fun c hc ↦ notSpace_of_isSolid hsolid c (mem_of_mem_head? hc),
    fun c hc ↦ notSpace_of_isSolid hsolid c (mem_of_getLast? hc)⟩

theorem dropWhile_eq_self_iff_head :
    chars.dropWhile isSpace = chars ↔ ∀ c ∈ chars.head?, isSpace c = false := by
  cases chars with
  | nil | cons first rest => simp

theorem stripChars_of_stripped (hstrip : Stripped chars) : stripChars chars = chars := by
  have hlast : chars.reverse.dropWhile isSpace = chars.reverse := by
    rw [dropWhile_eq_self_iff_head, head?_reverse]
    exact hstrip.last
  rw [stripChars, dropWhile_eq_self_iff_head.2 hstrip.head, hlast, reverse_reverse]

theorem strip_of_stripped {text : String} (hstrip : Stripped text.toList) : strip text = text := by
  rw [strip, stripChars_of_stripped hstrip, String.ofList_toList]

theorem head?_of_begins {first rest : List Char} (hbegins : first <+: rest) :
    ∀ c ∈ first.head?, c ∈ rest.head? := by
  obtain ⟨tail, rfl⟩ := hbegins
  intro c hc
  rw [head?_append, Option.mem_def.1 hc]
  rfl

theorem stripped_stripChars (chars : List Char) : Stripped (stripChars chars) := by
  have hnotSpace : ∀ chars : List Char, ∀ c ∈ (chars.dropWhile isSpace).head?,
      isSpace c = false := by
    intro chars c hc
    have hhead := head?_dropWhile_not isSpace chars
    rw [Option.mem_def.1 hc] at hhead
    simpa using hhead
  constructor
  · intro c hc
    have hbegins : stripChars chars <+: chars.dropWhile isSpace := by
      rw [stripChars, ← reverse_suffix, reverse_reverse]
      exact dropWhile_suffix _
    exact hnotSpace chars c (head?_of_begins hbegins c hc)
  · intro c hc
    rw [stripChars, getLast?_reverse] at hc
    exact hnotSpace _ c hc

theorem stripped_append {left middle right : List Char}
    (hleft : ∀ c ∈ left.head?, isSpace c = false) (hmid : ∀ c ∈ middle, isSpace c = false)
    (hne : middle ≠ []) (hright : ∀ c ∈ right.getLast?, isSpace c = false) :
    Stripped (left ++ (middle ++ right)) := by
  have hhead : middle.head? ≠ none := fun hnone ↦ hne (head?_eq_none_iff.1 hnone)
  have hlast : middle.getLast? ≠ none := fun hnone ↦ hne (getLast?_eq_none_iff.1 hnone)
  constructor
  · intro c hc
    rw [head?_append, head?_append, Option.mem_def, Option.or_eq_some_iff,
      Option.or_eq_some_iff] at hc
    obtain hc | ⟨-, hc | ⟨hnone, -⟩⟩ := hc
    · exact hleft c hc
    · exact hmid c (mem_of_mem_head? hc)
    · exact absurd hnone hhead
  · intro c hc
    rw [getLast?_append, getLast?_append, Option.mem_def, Option.or_eq_some_iff,
      Option.or_eq_some_iff] at hc
    obtain (hc | ⟨-, hc⟩) | ⟨hnone, -⟩ := hc
    · exact hright c hc
    · exact hmid c (mem_of_getLast? hc)
    · rw [Option.or_eq_none_iff] at hnone
      exact absurd hnone.2 hlast

def upperAscii : String := String.ofList (text.toList.map Char.toUpper)

theorem toUpper_cases (c : Char) : c.toUpper = c ∨
    (97 ≤ c.toNat ∧ c.toNat ≤ 122 ∧ 65 ≤ c.toUpper.toNat ∧ c.toUpper.toNat ≤ 90) := by
  by_cases hsmall : 'a'.val ≤ c.val ∧ c.val ≤ 'z'.val
  · have hlow : 97 ≤ c.val.toNat := hsmall.1
    have hhigh : c.val.toNat ≤ 122 := hsmall.2
    have hupper : c.toUpper.toNat = c.toNat - 32 := by
      have hdiff : ('A'.val - 'a'.val).toNat = 2 ^ 32 - 32 := by decide
      rw [show c.toUpper = _ from dif_pos hsmall]
      change (c.val + ('A'.val - 'a'.val)).toNat = c.val.toNat - 32
      rw [UInt32.toNat_add]
      omega
    have hsame : c.toNat = c.val.toNat := rfl
    omega
  · left
    exact dif_neg hsmall

theorem toUpper_of_isUpper (hcapital : c.isUpper = true) : c.toUpper = c := by
  rcases toUpper_cases c with hsame | ⟨hlow, -⟩
  · exact hsame
  · have hhigh : c.toNat ≤ 90 := (of_decide_eq_true hcapital).2
    omega

theorem toUpper_toUpper {c : Char} : c.toUpper.toUpper = c.toUpper := by
  rcases toUpper_cases c.toUpper with hsame | hsmall
  · exact hsame
  · rcases toUpper_cases c with hc | hc
    · rw [hc, hc]
    · omega

theorem isSpace_toUpper (c : Char) : isSpace c.toUpper = isSpace c := by
  rcases toUpper_cases c with hsame | ⟨hlow, hhigh, hlow', hhigh'⟩
  · rw [hsame]
  · rw [isSpace_eq_false_of_visible (by omega) (by omega),
      isSpace_eq_false_of_visible (by omega) (by omega)]

theorem upperAscii_upperAscii : upperAscii (upperAscii text) = upperAscii text := by
  rw [upperAscii, upperAscii, String.toList_ofList, map_map]
  congr 2
  funext c
  exact toUpper_toUpper

theorem strip_upperAscii_strip : strip (upperAscii (strip text)) = upperAscii (strip text) := by
  have hstrip := stripped_stripChars text.toList
  apply strip_of_stripped
  rw [upperAscii, strip, String.toList_ofList, String.toList_ofList]
  constructor
  · intro c hc
    rw [head?_map, Option.mem_def, Option.map_eq_some_iff] at hc
    obtain ⟨letter, hletter, rfl⟩ := hc
    rw [isSpace_toUpper, hstrip.head letter hletter]
  · intro c hc
    rw [getLast?_map, Option.mem_def, Option.map_eq_some_iff] at hc
    obtain ⟨letter, hletter, rfl⟩ := hc
    rw [isSpace_toUpper, hstrip.last letter hletter]

def padded (width num : ℕ) : List Char :=
  (Nat.toDigits 10 num).leftpad width '0'

theorem isDigit_of_mem_padded {width num : ℕ} (hc : c ∈ padded width num) : c.isDigit = true := by
  rcases mem_append.1 hc with hzero | hdigit
  · rw [(mem_replicate.1 hzero).2]
    rfl
  · exact Nat.isDigit_of_mem_toDigits (by decide) (by decide) hdigit

end Tradex.Text
