import Mathlib.Data.Int.Order.Basic
import Mathlib.Tactic.NormNum
import Mathlib.Tactic.Ring

/-!
# Go times and durations

A time is a count of nanoseconds since the Unix epoch. A duration is a 64-bit
count of nanoseconds: products wrap around, differences of times saturate.
-/

namespace OpenEverest.Framework

def minDuration : Int := -2 ^ 63

def maxDuration : Int := 2 ^ 63 - 1

def millisecond : Int := 10 ^ 6

def second : Int := 10 ^ 9

def minute : Int := 60 * 10 ^ 9

def hour : Int := 3600 * 10 ^ 9

/-- `time.Time{}`, the first instant of year one. -/
def zeroTime : Int := -62135596800 * 10 ^ 9

/-- The value an `int64` operation leaves of an exact result. -/
def wrapInt64 (x : Int) : Int := x.bmod (2 ^ 64)

/-- `t.Nanosecond()`, what is past the second. -/
def nanosecond (t : Int) : Int := t % second

/-- `t.Truncate(d)`: down to a multiple of `d` since the zero time. -/
def truncate (t d : Int) : Int := if d ≤ 0 then t else t - (t - zeroTime) % d

/-- `t.Sub(u)`. -/
def timeSub (t u : Int) : Int := max minDuration (min maxDuration (t - u))

theorem wrapInt64_of_mem (x : Int) (hlo : minDuration ≤ x) (hhi : x ≤ maxDuration) :
    wrapInt64 x = x := by
  unfold minDuration at hlo
  unfold maxDuration at hhi
  exact Int.bmod_eq_of_le (by omega) (by omega)

theorem wrapInt64_double (d : Int) (k : Nat) :
    wrapInt64 (wrapInt64 (d * 2 ^ k) * 2) = wrapInt64 (d * 2 ^ (k + 1)) := by
  unfold wrapInt64
  rw [Int.bmod_mul_bmod]
  congr 1
  ring

theorem wrapInt64_spec (x : Int) :
    (∃ k : Int, wrapInt64 x = x + 2 ^ 64 * k) ∧ minDuration ≤ wrapInt64 x ∧
      wrapInt64 x ≤ maxDuration := by
  have hlo := Int.le_bmod (x := x) (m := 2 ^ 64) (by decide)
  have hhi := Int.bmod_lt (x := x) (m := 2 ^ 64) (by decide)
  have hoff := Int.bmod_eq_self_sub_mul_bdiv x (2 ^ 64)
  unfold wrapInt64 minDuration maxDuration
  refine ⟨⟨-x.bdiv (2 ^ 64), ?_⟩, ?_, ?_⟩
  · rw [hoff]
    push_cast
    ring
  · exact le_trans (by norm_num) hlo
  · exact Int.le_sub_one_of_lt (lt_of_lt_of_eq hhi (by norm_num))

theorem lt_of_lt_timeSub (d t u : Int) (hd : 0 ≤ d) (h : d < timeSub t u) : d < t - u := by
  unfold timeSub minDuration at h
  omega

end OpenEverest.Framework
