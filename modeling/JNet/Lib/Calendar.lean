import Mathlib.Algebra.BigOperators.Group.List.Basic
import Mathlib.Algebra.Order.Ring.Int
import Mathlib.Data.List.Lex
import Mathlib.Tactic.Common

/-! # The Gregorian calendar

    Seconds since the first of January 1970, broken down into a date and a time of
    day as `gmtime_r` does it.  The fields, from the year down to the second, are
    ordered as the seconds are.
-/

namespace JNet

namespace Calendar

/-! ## Years -/

def isLeap (y : Int) : Bool := y % 4 = 0 && (y % 100 ≠ 0 || y % 400 = 0)

/-- The days from the epoch to the first day of year `y`. -/
def daysBeforeYear (y : Int) : Int :=
  365 * (y - 1970) + (y - 1) / 4 - (y - 1) / 100 + (y - 1) / 400 - 477

theorem daysBeforeYear_succ (y : Int) :
    daysBeforeYear (y + 1) = daysBeforeYear y + if isLeap y then 366 else 365 := by
  simp only [daysBeforeYear, isLeap, Bool.and_eq_true, Bool.or_eq_true, decide_eq_true_eq]
  split <;> omega

theorem daysBeforeYear_mono {y y' : Int} (h : y ≤ y') : daysBeforeYear y ≤ daysBeforeYear y' := by
  simp only [daysBeforeYear]
  omega

/-- The year of a day: 400 years have 146097 days, and the estimate is at most one off. -/
def yearOf (day : Int) : Int :=
  let y := 1970 + 400 * day / 146097
  if daysBeforeYear (y + 1) ≤ day then y + 1
  else if day < daysBeforeYear y then y - 1
  else y

theorem yearOf_spec (day : Int) :
    daysBeforeYear (yearOf day) ≤ day ∧ day < daysBeforeYear (yearOf day + 1) := by
  simp only [yearOf]
  split
  · next hlate =>
    refine ⟨hlate, ?_⟩
    simp only [daysBeforeYear] at hlate ⊢
    omega
  · next hlate =>
    split
    · next hearly =>
      rw [Int.sub_add_cancel]
      refine ⟨?_, hearly⟩
      simp only [daysBeforeYear] at hearly ⊢
      omega
    · next hearly =>
      exact ⟨not_lt.mp hearly, not_le.mp hlate⟩

theorem yearOf_lt_of_lt {day y : Int} (h : day < daysBeforeYear y) : yearOf day < y := by
  by_contra hle
  have hmono := daysBeforeYear_mono (not_lt.mp hle)
  have hspec := (yearOf_spec day).1
  omega

theorem le_yearOf_of_le {day y : Int} (h : daysBeforeYear y ≤ day) : y ≤ yearOf day := by
  by_contra hlt
  have hmono := daysBeforeYear_mono (show yearOf day + 1 ≤ y by omega)
  have hspec := (yearOf_spec day).2
  omega

theorem yearOf_mono {day day' : Int} (h : day ≤ day') : yearOf day ≤ yearOf day' :=
  le_yearOf_of_le ((yearOf_spec day).1.trans h)

/-! ## Months -/

def monthLengths (y : Int) : List Nat :=
  [31, if isLeap y then 29 else 28, 31, 30, 31, 30, 31, 31, 30, 31, 30, 31]

/-- The month and the day of the month, both from zero, of a day of a year; `m` months have
    been passed. -/
def monthDay : Nat → List Nat → Nat → Nat × Nat
  | m, [], d => (m, d)
  | m, len :: rest, d => if d < len then (m, d) else monthDay (m + 1) rest (d - len)

theorem le_monthDay (m : Nat) (lens : List Nat) (d : Nat) : m ≤ (monthDay m lens d).1 := by
  induction lens generalizing m d with
  | nil => exact Nat.le_refl m
  | cons len rest ih =>
    rw [monthDay]
    split
    · exact Nat.le_refl m
    · have := ih (m + 1) (d - len)
      omega

theorem monthDay_lt {m : Nat} {lens : List Nat} {d : Nat} (hd : d < lens.sum)
    (hlens : ∀ len ∈ lens, len ≤ 31) :
    (monthDay m lens d).1 < m + lens.length ∧ (monthDay m lens d).2 < 31 := by
  induction lens generalizing m d with
  | nil => simp at hd
  | cons len rest ih =>
    rw [List.sum_cons] at hd
    rw [monthDay]
    split
    · next hlt =>
      have hlen := hlens len List.mem_cons_self
      rw [List.length_cons]
      omega
    · next hge =>
      have hrest := ih (m := m + 1) (d := d - len) (by omega)
        (fun l hl => hlens l (List.mem_cons_of_mem _ hl))
      rw [List.length_cons]
      omega

/-- A later day has a later month, or is later in the same one. -/
theorem monthDay_mono (m : Nat) (lens : List Nat) {d d' : Nat} (h : d < d') :
    (monthDay m lens d).1 < (monthDay m lens d').1 ∨
      ((monthDay m lens d).1 = (monthDay m lens d').1 ∧
        (monthDay m lens d).2 < (monthDay m lens d').2) := by
  induction lens generalizing m d d' with
  | nil => exact .inr ⟨rfl, h⟩
  | cons len rest ih =>
    rw [monthDay, monthDay]
    split
    · split
      · exact .inr ⟨rfl, h⟩
      · have := le_monthDay (m + 1) rest (d' - len)
        exact .inl (by omega)
    · rw [if_neg (by omega)]
      exact ih _ (by omega)

theorem monthLengths_le {y : Int} {len : Nat} (h : len ∈ monthLengths y) : len ≤ 31 := by
  simp only [monthLengths, List.mem_cons, List.not_mem_nil, or_false] at h
  split at h <;> omega

theorem sum_monthLengths (y : Int) :
    (monthLengths y).sum = if isLeap y then 366 else 365 := by
  simp only [monthLengths, List.sum_cons, List.sum_nil]
  split <;> omega

/-! ## Broken-down time -/

/-- `struct tm`, without the fields that follow from these. -/
structure Tm where
  /-- Years since 1900. -/
  tm_year : Int
  /-- Months since January. -/
  tm_mon : Nat
  tm_mday : Nat
  tm_hour : Nat
  tm_min : Nat
  tm_sec : Nat
  deriving DecidableEq, Repr

/-- The year, and the day of it. -/
def yearDay (day : Int) : Int × Nat := (yearOf day, (day - daysBeforeYear (yearOf day)).toNat)

/-- `gmtime_r`. -/
def gmtime_r (seconds : Int) : Tm :=
  let (year, yday) := yearDay (seconds / 86400)
  let (mon, mday) := monthDay 0 (monthLengths year) yday
  let secs := (seconds % 86400).toNat
  { tm_year := year - 1900
    tm_mon := mon
    tm_mday := mday + 1
    tm_hour := secs / 3600
    tm_min := secs / 60 % 60
    tm_sec := secs % 60 }

theorem yearDay_lt (day : Int) :
    (yearDay day).2 < (monthLengths (yearDay day).1).sum := by
  have hspec := yearOf_spec day
  rw [daysBeforeYear_succ] at hspec
  rw [sum_monthLengths]
  simp only [yearDay]
  split at hspec <;> simp_all <;> omega

theorem yearDay_mono {day day' : Int} (h : day < day') :
    (yearDay day).1 < (yearDay day').1 ∨
      ((yearDay day).1 = (yearDay day').1 ∧ (yearDay day).2 < (yearDay day').2) := by
  simp only [yearDay]
  rcases lt_or_eq_of_le (yearOf_mono h.le) with hlt | heq
  · exact .inl hlt
  · have hspec := (yearOf_spec day).1
    rw [heq] at hspec ⊢
    exact .inr ⟨rfl, by omega⟩

/-- The fields of a broken-down time, from the year down. -/
def Tm.record (tm : Tm) : List Int :=
  [tm.tm_year, tm.tm_mon, tm.tm_mday, tm.tm_hour, tm.tm_min, tm.tm_sec]

/-- The fields are in their ranges. -/
theorem gmtime_r_bounds (seconds : Int) :
    (gmtime_r seconds).tm_mon < 12 ∧ (gmtime_r seconds).tm_mday ≤ 31 ∧
    (gmtime_r seconds).tm_hour < 24 ∧ (gmtime_r seconds).tm_min < 60 ∧
    (gmtime_r seconds).tm_sec < 60 := by
  have hmonth := monthDay_lt (m := 0) (yearDay_lt (seconds / 86400)) (fun len => monthLengths_le)
  have hsecs : (seconds % 86400).toNat < 86400 := by omega
  simp only [gmtime_r]
  rw [show (monthLengths (yearDay (seconds / 86400)).1).length = 12 from rfl] at hmonth
  omega

/-- A later second has a later record. -/
theorem gmtime_r_strictMono {s s' : Int} (h : s < s') :
    (gmtime_r s).record < (gmtime_r s').record := by
  have hday : s / 86400 ≤ s' / 86400 := by omega
  simp only [Tm.record, gmtime_r, List.cons_lt_cons_iff]
  rcases lt_or_eq_of_le hday with hlt | heq
  · -- Another day: the date decides.
    rcases yearDay_mono hlt with hyear | ⟨hyear, hyday⟩
    · exact .inl (by omega)
    · rw [hyear]
      right
      refine ⟨rfl, ?_⟩
      rcases monthDay_mono 0 (monthLengths (yearDay (s' / 86400)).1) hyday with
        hmon | ⟨hmon, hmday⟩
      · exact .inl (by omega)
      · exact .inr ⟨by omega, .inl (by omega)⟩
  · -- The same day: the time of day decides.
    rw [heq]
    refine .inr ⟨rfl, .inr ⟨rfl, .inr ⟨rfl, ?_⟩⟩⟩
    have hsecs : (s % 86400).toNat < (s' % 86400).toNat := by omega
    generalize (s % 86400).toNat = a at hsecs
    generalize (s' % 86400).toNat = b at hsecs
    simp only [List.lt_irrefl, and_false, or_false]
    omega

end Calendar

end JNet
