import Mathlib.Data.Int.Basic
import Mathlib.Logic.Function.Iterate
import Mathlib.Tactic.IntervalCases

/-!
# The Gregorian calendar

Days are counted from 1970-01-01, and go on without end in both directions.
-/

namespace OpenEverest.Framework

def isLeapYear (year : ℤ) : Prop := year % 4 = 0 ∧ (year % 100 ≠ 0 ∨ year % 400 = 0)

instance (year : ℤ) : Decidable (isLeapYear year) := inferInstanceAs (Decidable (_ ∧ _))

def daysInMonth (year : ℤ) (month : ℕ) : ℕ :=
  if month = 2 then if isLeapYear year then 29 else 28
  else if month = 4 ∨ month = 6 ∨ month = 9 ∨ month = 11 then 30
  else 31

theorem le_daysInMonth (year : ℤ) (month : ℕ) : 28 ≤ daysInMonth year month := by
  unfold daysInMonth
  split_ifs <;> omega

theorem daysInMonth_le (year : ℤ) (month : ℕ) : daysInMonth year month ≤ 31 := by
  unfold daysInMonth
  split_ifs <;> omega

theorem daysInMonth_of_ne {month : ℕ} (h : month ≠ 2) (year year' : ℤ) :
    daysInMonth year month = daysInMonth year' month := by
  unfold daysInMonth
  rw [if_neg h, if_neg h]

theorem daysInMonth_cases {month : ℕ} (h : month ≠ 2) (year : ℤ) :
    daysInMonth year month = 30 ∨ daysInMonth year month = 31 := by
  unfold daysInMonth
  rw [if_neg h]
  split
  · exact Or.inl rfl
  · exact Or.inr rfl

@[ext]
structure Date where
  year : ℤ
  month : ℕ
  day : ℕ
  one_le_month : 1 ≤ month
  month_le : month ≤ 12
  one_le_day : 1 ≤ day
  day_le : day ≤ daysInMonth year month
  deriving DecidableEq

namespace Date

def isLastDay (d : Date) : Prop := d.day = daysInMonth d.year d.month

instance (d : Date) : Decidable d.isLastDay := inferInstanceAs (Decidable (_ = _))

def first (year : ℤ) (month : ℕ) (h : 1 ≤ month) (h' : month ≤ 12) : Date :=
  ⟨year, month, 1, h, h', le_refl 1, le_trans (by omega) (le_daysInMonth year month)⟩

def last (year : ℤ) (month : ℕ) (h : 1 ≤ month) (h' : month ≤ 12) : Date :=
  ⟨year, month, daysInMonth year month, h, h', le_trans (by omega) (le_daysInMonth year month),
    le_refl _⟩

def next (d : Date) : Date :=
  if hday : d.day < daysInMonth d.year d.month then
    ⟨d.year, d.month, d.day + 1, d.one_le_month, d.month_le, Nat.le_add_left 1 _, hday⟩
  else if hmonth : d.month < 12 then first d.year (d.month + 1) (Nat.le_add_left 1 _) hmonth
  else first (d.year + 1) 1 (le_refl 1) (by omega)

def prev (d : Date) : Date :=
  if hday : 1 < d.day then
    ⟨d.year, d.month, d.day - 1, d.one_le_month, d.month_le, Nat.le_sub_of_add_le hday,
      (Nat.sub_le _ _).trans d.day_le⟩
  else if hmonth : 1 < d.month then
    last d.year (d.month - 1) (Nat.le_sub_of_add_le hmonth) ((Nat.sub_le _ _).trans d.month_le)
  else last (d.year - 1) 12 (by omega) (le_refl 12)

theorem next_day (d : Date) : d.next.day = if d.isLastDay then 1 else d.day + 1 := by
  have hle := d.day_le
  by_cases hlast : d.isLastDay
  · have hday : ¬ d.day < daysInMonth d.year d.month := not_lt.mpr (ge_of_eq hlast)
    rw [if_pos hlast, next, dif_neg hday]
    split <;> rfl
  · have hday : d.day < daysInMonth d.year d.month := lt_of_le_of_ne hle hlast
    rw [if_neg hlast, next, dif_pos hday]

theorem next_prev (d : Date) : d.prev.next = d := by
  have hday := d.one_le_day
  have hmonth := d.one_le_month
  have hle := d.day_le
  unfold prev
  split
  · rename_i h
    unfold next
    rw [dif_pos (show d.day - 1 < daysInMonth d.year d.month by omega)]
    ext
    · rfl
    · rfl
    · exact Nat.sub_add_cancel hday
  · rename_i h
    have hone : d.day = 1 := by omega
    split
    · rename_i h'
      unfold next last
      rw [dif_neg (lt_irrefl _), dif_pos (show d.month - 1 < 12 by have := d.month_le; omega)]
      ext
      · rfl
      · exact Nat.sub_add_cancel hmonth
      · exact hone.symm
    · rename_i h'
      unfold next last
      rw [dif_neg (lt_irrefl _), dif_neg (lt_irrefl _)]
      ext
      · exact Int.sub_add_cancel _ _
      · exact (show 1 = d.month by omega)
      · exact hone.symm

end Date

def epoch : Date := Date.first 1970 1 (le_refl 1) (by omega)

def date : ℤ → Date
  | .ofNat n => Date.next^[n] epoch
  | .negSucc n => Date.prev^[n + 1] epoch

theorem date_succ (x : ℤ) : date (x + 1) = (date x).next := by
  cases x with
  | ofNat n => exact Function.iterate_succ_apply' Date.next n epoch
  | negSucc n =>
    have hprev : date (Int.negSucc n) = (Date.prev^[n] epoch).prev :=
      Function.iterate_succ_apply' Date.prev n epoch
    rw [hprev, Date.next_prev]
    cases n with
    | zero => rfl
    | succ n => rfl

/-- 0 for Sunday to 6. -/
def weekday (x : ℤ) : ℤ := (x + 4) % 7

theorem day_succ (x : ℤ) :
    (date (x + 1)).day = if (date x).isLastDay then 1 else (date x).day + 1 := by
  rw [date_succ, Date.next_day]

theorem isLastDay_iff (x : ℤ) : (date x).isLastDay ↔ (date (x + 1)).day = 1 := by
  have hday := (date x).one_le_day
  rw [day_succ]
  split
  · rename_i h
    simp only [h]
  · rename_i h
    simp only [h, false_iff]
    omega

theorem day_add_iff (x : ℤ) {d n : ℕ} (hd : 1 ≤ d) (hle : d + n ≤ 28) :
    (date (x + n)).day = d + n ↔ (date x).day = d := by
  induction n with
  | zero => simp
  | succ n ih =>
    have hmonth := le_daysInMonth (date (x + n)).year (date (x + n)).month
    rw [← ih (by omega), Nat.cast_add_one, ← add_assoc, day_succ]
    by_cases hlast : (date (x + n)).isLastDay
    · have hday : (date (x + n)).day = daysInMonth _ _ := hlast
      rw [if_pos hlast]
      omega
    · rw [if_neg hlast]
      omega

theorem day_shift_iff (x : ℤ) {d e : ℕ} {c : ℤ} (hd : 1 ≤ d ∧ d ≤ 28) (he : 1 ≤ e ∧ e ≤ 28)
    (hc : (d : ℤ) + c = e) : (date (x + c)).day = e ↔ (date x).day = d := by
  rcases le_or_gt 0 c with hpos | hneg
  · have h := day_add_iff x (d := d) (n := c.toNat) hd.1 (by omega)
    rwa [show x + (c.toNat : ℤ) = x + c by omega, show d + c.toNat = e by omega] at h
  · have h := day_add_iff (x + c) (d := e) (n := (-c).toNat) he.1 (by omega)
    rw [show x + c + ((-c).toNat : ℤ) = x by omega, show e + (-c).toNat = d by omega] at h
    exact h.symm

end OpenEverest.Framework
