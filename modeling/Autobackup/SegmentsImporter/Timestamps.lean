import Autobackup.Foundation.QString
import Mathlib.Algebra.Group.Nat.Defs

/-!
# Timestamps in file names

A segment is named by the second it was recorded at, and is filed under the year and the day of
that second in UTC.  The calendar is the proleptic Gregorian one without a year zero, reckoned from
Julian day numbers.
-/

namespace Autobackup.SegmentsImporter

open QString

/-- What is left of the last dot, or everything. -/
def filenameMinusExt (entry : Text) : Text :=
  if '.' ∈ entry then (entry.rdropWhile (· ≠ '.')).dropLast else entry

def ogg : Text := ['.', 'o', 'g', 'g']

/-! ## Dates -/

/-- The day of `QDateTime::fromMSecsSinceEpoch` in UTC. -/
def julianDay (msecs : ℤ) : ℤ := 2440588 + msecs / 86400000

/-- `QDate::year`. -/
def year (julianDay : ℤ) : ℤ :=
  let a := julianDay + 32044
  let b := (4 * a + 3) / 146097
  let c := a - 146097 * b / 4
  let d := (4 * c + 3) / 1461
  let e := c - 1461 * d / 4
  let m := (5 * e + 2) / 153
  let year := 100 * b + d - 4800 + m / 10
  -- there is no year zero
  if year ≤ 0 then year - 1 else year

def firstDay (year : ℤ) : ℤ :=
  let y := (if year < 0 then year + 1 else year) + 4799
  307 + 365 * y + y / 4 - y / 100 + y / 400 - 32045

/-- `QDate::dayOfYear`. -/
def dayOfYear (julianDay : ℤ) : ℤ := julianDay - firstDay (year julianDay) + 1

example : (year (julianDay 1400000000000), dayOfYear (julianDay 1400000000000)) = (2014, 133) := by
  decide

/-! ## Extensions -/

/-- The extension is added and taken away. -/
lemma filenameMinusExt_ogg (text : Text) : filenameMinusExt (text ++ ogg) = text := by
  have hdrop : (text ++ ogg).rdropWhile (· ≠ '.') = text ++ ['.'] := by
    have hogg : text ++ ogg = ((text ++ ['.'] ++ ['o']) ++ ['g']) ++ ['g'] := by simp [ogg]
    rw [hogg, List.rdropWhile_concat_pos _ _ _ (by decide),
      List.rdropWhile_concat_pos _ _ _ (by decide), List.rdropWhile_concat_pos _ _ _ (by decide),
      List.rdropWhile_concat_neg _ _ _ (by decide)]
  rw [filenameMinusExt, if_pos (by simp [ogg]), hdrop, List.dropLast_concat]

/-! ## Milliseconds that do not fit -/

/-- A year is near its century. -/
lemma year_bounds (d : ℤ) : 100 * ((4 * (d + 32044) + 3) / 146097) ≤ year d + 4801 ∧
    year d + 4699 ≤ 100 * ((4 * (d + 32044) + 3) / 146097) := by
  unfold year
  generalize hb : (4 * (d + 32044) + 3) / 146097 = b
  generalize hc : d + 32044 - 146097 * b / 4 = c
  have hcrange : 0 ≤ c ∧ c ≤ 36524 := by omega
  generalize hdd : (4 * c + 3) / 1461 = dd
  have hdrange : 0 ≤ dd ∧ dd ≤ 100 := by omega
  generalize he : c - 1461 * dd / 4 = e
  have herange : 0 ≤ e ∧ e ≤ 365 := by omega
  generalize hm : (5 * e + 2) / 153 = m
  have hmrange : 0 ≤ m ∧ m ≤ 11 := by omega
  dsimp only
  split <;> omega

/-- The days of a year are near each other. -/
lemma near_of_year_eq {d d' : ℤ} (h : year d = year d') : d < d' + 100000 := by
  have hd := year_bounds d
  have hd' := year_bounds d'
  omega

/-- **Milliseconds that do not fit** are some in another year. -/
theorem year_bmod {n : ℤ} :
    year (julianDay (n.bmod (2 ^ 64))) = year (julianDay n) ↔ IsLongLong n := by
  constructor
  · intro h
    have hnear := near_of_year_eq h
    have hnear' := near_of_year_eq h.symm
    have hrange := Int.le_bmod (x := n) (m := 2 ^ 64) (by decide)
    have hrange' := Int.bmod_lt (x := n) (m := 2 ^ 64) (by decide)
    obtain ⟨k, hk⟩ := Int.dvd_bmod_sub_self (x := n) (m := 2 ^ 64)
    simp only [julianDay] at hnear hnear'
    unfold IsLongLong
    omega
  · intro h
    unfold IsLongLong at h
    rw [Int.bmod_eq_of_le (by omega) (by omega)]

end Autobackup.SegmentsImporter
