import Tradex.Foundation.Text

/-!
# Calendar dates

A date of the proleptic Gregorian calendar between the years 1 and 9999, and its
written forms.
-/

namespace Tradex

def isLeapYear (year : ℕ) : Bool := year % 4 = 0 ∧ (year % 100 ≠ 0 ∨ year % 400 = 0)

def daysInMonth (year month : ℕ) : ℕ :=
  if month = 2 then if isLeapYear year then 29 else 28
  else if month ∈ [4, 6, 9, 11] then 30 else 31

def isDate (year month day : ℕ) : Bool :=
  (1 ≤ year ∧ year ≤ 9999) ∧ (1 ≤ month ∧ month ≤ 12) ∧ 1 ≤ day ∧ day ≤ daysInMonth year month

structure Date where
  year : ℕ
  month : ℕ
  day : ℕ
  valid : isDate year month day = true
deriving DecidableEq

def Date.compact (date : Date) : List Char :=
  Nat.toDigits 10 date.year ++ (Text.padded 2 date.month ++ Text.padded 2 date.day)

theorem Date.isDigit_of_mem_compact {c : Char} {date : Date} (hc : c ∈ date.compact) :
    c.isDigit = true := by
  rcases List.mem_append.1 hc with hyear | hrest
  · exact Nat.isDigit_of_mem_toDigits (by decide) (by decide) hyear
  · rcases List.mem_append.1 hrest with hmonth | hday
    · exact Text.isDigit_of_mem_padded hmonth
    · exact Text.isDigit_of_mem_padded hday

end Tradex
