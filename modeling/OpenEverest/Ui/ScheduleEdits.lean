import OpenEverest.Framework.CronText
import OpenEverest.Ui.CronConverter
import OpenEverest.Ui.DbCluster

/-!
# Edits beside the schedules

An edit in the UI sends all schedules back: they were converted to the browser's time zone
when the cluster was read, and are converted to UTC again. The two conversions shift back
each other's shift where all times of a schedule are shifted alike.
-/

namespace OpenEverest.Ui

open Framework Api CronFields

/-! ### The condition -/

/-- The shift carries every minute into the same hour. -/
def MinutesAlike (f : CronFields) (shift : ℤ) : Prop :=
  ∀ m ∈ f.minute, ∀ m' ∈ f.minute, (m + shift) / 60 = (m' + shift) / 60

/-- The shift carries every time over as many days. -/
def CarriedBy (f : CronFields) (shift days : ℤ) : Prop :=
  ∀ h ∈ f.hour, ∀ m ∈ f.minute, (60 * h + m + shift) / 1440 = days

/-- A list that the conversion leaves as it is. -/
def EveryDayOfMonth (f : CronFields) : Prop := 30 < f.dayOfMonth.length

def EveryMonth (f : CronFields) : Prop := 11 < f.month.length

def EveryDayOfWeek (f : CronFields) : Prop := 6 < f.dayOfWeek.length

/-- A day that is shifted, and shifted back to where it was. -/
def DayReturns (days : ℤ) : CronValue → Prop
  | .num n => days = 1 → n ≠ 31
  | .text _ => days = 1

structure DayOfMonthKept (f : CronFields) (days : ℤ) : Prop where
  returns : ∀ v ∈ f.dayOfMonth, DayReturns days v
  first : .num 1 ∈ f.dayOfMonth → days = -1 → EveryMonth f
  last : lastDay ∈ f.dayOfMonth → EveryMonth f
  /-- In a single month no day is shifted beyond its end. -/
  explicit : days = 1 → f.month.length = 1 → ∀ month ∈ f.month,
    ∀ n : ℤ, .num n ∈ f.dayOfMonth → n < maxDaysInMonth month

structure DayOfWeekKept (f : CronFields) (days : ℤ) : Prop where
  numbers : ∀ v ∈ f.dayOfWeek, ∃ n : ℤ, v = .num n
  sunday : days = 1 → .num 7 ∉ f.dayOfWeek
  one_sunday : .num 0 ∈ f.dayOfWeek → .num 7 ∉ f.dayOfWeek

/-- The days come back when they are shifted and shifted back. -/
structure DaysReturn (f : CronFields) (days : ℤ) : Prop where
  dayOfMonth : EveryDayOfMonth f ∧ (days = 0 ∨ EveryMonth f) ∨
    ¬ EveryDayOfMonth f ∧ DayOfMonthKept f days
  dayOfWeek : EveryDayOfWeek f ∨ DayOfWeekKept f days

/-- The last day of months that end on the same day: of any with 31 days, or of one with 30. -/
def MonthEnd (f : CronFields) : Prop :=
  ∃ d : ℤ, f.dayOfMonth = [.num d] ∧
    (∀ month ∈ f.month, month ≠ 2 ∧ maxDaysInMonth month = d) ∧ (d = 31 ∨ f.month.length = 1)

/-- A schedule on every day whose minutes are carried alike or whose hours are all listed;
or one whose times are all carried alike, over days that come back or from the end of a
month to the first day of the next one. -/
structure Steady (f : CronFields) (shift : ℤ) : Prop where
  valid : f.Valid
  hours : MinutesAlike f shift ∨ f.hour.length = 24
  days : EveryDayOfMonth f ∧ EveryMonth f ∧ EveryDayOfWeek f ∨
    MinutesAlike f shift ∧ ∃ days, CarriedBy f shift days ∧
      (DaysReturn f days ∨
        days = 1 ∧ MonthEnd f ∧ (EveryDayOfWeek f ∨ DayOfWeekKept f days))

/-! ### Days there and back -/

theorem addDayOfMonth_every {l : List CronValue} (h : 30 < l.length) (day : ℤ) :
    addDayOfMonth l day = l := if_pos h

theorem addMonth_every {l : List ℤ} (h : 11 < l.length) (mon : ℤ) : addMonth l mon = l := if_pos h

theorem addDayOfWeek_every {l : List CronValue} (h : 6 < l.length) (day : ℤ) :
    addDayOfWeek l day = l := if_pos h

/-- What `addDayOfMonth` does to a day. -/
def shiftDay (days : ℤ) : CronValue → CronValue
  | .num n => if n + days > 31 then .num 1 else if n + days < 1 then lastDay else .num (n + days)
  | .text s => if .text s = lastDay then .num 1 else .text (s ++ intText days)

theorem addDayOfMonth_eq {l : List CronValue} (h : ¬ 30 < l.length) (days : ℤ) :
    addDayOfMonth l days = l.map (shiftDay days) := by
  rw [addDayOfMonth, if_neg h]
  apply List.map_congr_left
  intro v _
  cases v <;> rfl

theorem shiftDay_valid {v : CronValue} (h : IsDayOfMonth v) (days : ℤ) :
    IsDayOfMonth (shiftDay days v) := by
  cases v with
  | num n =>
    simp only [shiftDay]
    split_ifs
    · exact ⟨le_refl 1, by decide⟩
    · exact rfl
    · exact ⟨by omega, by omega⟩
  | text s =>
    rw [shiftDay, if_pos (show CronValue.text s = lastDay from h)]
    exact ⟨le_refl 1, by decide⟩

theorem shiftDay_back {v : CronValue} (h : IsDayOfMonth v) {days : ℤ} (hdays : -1 ≤ days ∧ days ≤ 1)
    (hreturns : DayReturns days v) : shiftDay (-days) (shiftDay days v) = v := by
  cases v with
  | num n =>
    obtain ⟨h1, h31⟩ := h
    have hne : days = 1 → n ≠ 31 := hreturns
    by_cases hlow : n + days < 1
    · obtain ⟨rfl, rfl⟩ : n = 1 ∧ days = -1 := by omega
      rfl
    · have hfirst : shiftDay days (.num n) = .num (n + days) := by
        rw [shiftDay, if_neg (by omega), if_neg hlow]
      rw [hfirst, shiftDay, if_neg (by omega), if_neg (by omega), add_neg_cancel_right]
  | text s =>
    obtain rfl : days = 1 := hreturns
    have hs : CronValue.text s = lastDay := h
    rw [hs]
    decide

theorem shiftDay_lists {l : List CronValue} (h : Lists IsDayOfMonth l) {days : ℤ}
    (hdays : -1 ≤ days ∧ days ≤ 1) (hreturns : ∀ v ∈ l, DayReturns days v) :
    Lists IsDayOfMonth (l.map (shiftDay days)) := by
  apply h.map_of_back (shiftDay (-days))
  · intro v hv
    exact shiftDay_valid (h.2.2 v hv) days
  · intro v hv
    exact shiftDay_back (h.2.2 v hv) hdays (hreturns v hv)

/-- Only the last day of a month is shifted to a first one. -/
theorem shiftDay_eq_first {v : CronValue} (h : IsDayOfMonth v) (hreturns : DayReturns 1 v)
    (hshift : shiftDay 1 v = .num 1) : v = lastDay := by
  cases v with
  | num n =>
    have hn : 1 ≤ n ∧ n ≤ 31 := h
    have hne : n ≠ 31 := hreturns rfl
    rw [shiftDay, if_neg (by omega), if_neg (by omega)] at hshift
    have hzero := CronValue.num.inj hshift
    omega
  | text s => exact h

theorem shiftDay_ne_last {v : CronValue} (h : IsDayOfMonth v) (hreturns : DayReturns (-1) v) :
    shiftDay (-1) v ≠ .num 31 := by
  intro hshift
  cases v with
  | num n =>
    have hn : 1 ≤ n ∧ n ≤ 31 := h
    simp only [shiftDay] at hshift
    split_ifs at hshift
    · exact absurd (CronValue.num.inj hshift) (by decide)
    · cases hshift
    · have hnext := CronValue.num.inj hshift
      omega
  | text s =>
    have hone : (-1 : ℤ) = 1 := hreturns
    exact absurd hone (by decide)

/-- What `addDayOfWeek` does to a weekday. -/
def shiftWeekday (days : ℤ) : CronValue → CronValue
  | .num n => if n + days > 6 then .num 0 else if n + days < 0 then .num 6 else .num (n + days)
  | .text s => .text (s ++ intText days)

theorem addDayOfWeek_eq {l : List CronValue} (h : ¬ 6 < l.length) (days : ℤ) :
    addDayOfWeek l days = l.map (shiftWeekday days) := by
  rw [addDayOfWeek, if_neg h]
  apply List.map_congr_left
  intro v _
  cases v <;> rfl

theorem shiftWeekday_num {n days : ℤ} (h : 0 ≤ n ∧ n ≤ 7) (hdays : -1 ≤ days ∧ days ≤ 1)
    (hsunday : days = 1 → n ≠ 7) : ∃ k, shiftWeekday days (.num n) = .num k ∧
      (0 ≤ k ∧ k ≤ 6) ∧ k % 7 = (n + days) % 7 := by
  simp only [shiftWeekday]
  split_ifs
  · exact ⟨0, rfl, by omega, by omega⟩
  · exact ⟨6, rfl, by omega, by omega⟩
  · exact ⟨n + days, rfl, by omega, by omega⟩

/-- The weekdays of a list that is kept: numbers, with Sunday once. -/
structure Weekdays (l : List CronValue) (days : ℤ) : Prop where
  lists : Lists IsDayOfWeek l
  kept : ∀ v ∈ l, ∃ n : ℤ, v = .num n ∧ (days = 1 → n ≠ 7)
  one_sunday : .num 0 ∈ l → .num 7 ∉ l

theorem Weekdays.num {l : List CronValue} {days : ℤ} (h : Weekdays l days) {v : CronValue}
    (hv : v ∈ l) : ∃ n : ℤ, v = .num n ∧ (0 ≤ n ∧ n ≤ 7) ∧ (days = 1 → n ≠ 7) := by
  obtain ⟨n, rfl, hsunday⟩ := h.kept v hv
  exact ⟨n, rfl, h.lists.2.2 _ hv, hsunday⟩

theorem Weekdays.shift {l : List CronValue} {days : ℤ} (h : Weekdays l days)
    (hdays : -1 ≤ days ∧ days ≤ 1) : Weekdays (l.map (shiftWeekday days)) (-days) := by
  have hshifted : ∀ v ∈ l.map (shiftWeekday days), ∃ k : ℤ, v = .num k ∧ 0 ≤ k ∧ k ≤ 6 := by
    intro v hv
    obtain ⟨a, ha, rfl⟩ := List.mem_map.mp hv
    obtain ⟨n, rfl, hrange, hsunday⟩ := h.num ha
    obtain ⟨k, hk, hkrange, -⟩ := shiftWeekday_num hrange hdays hsunday
    exact ⟨k, hk, hkrange⟩
  constructor
  · apply h.lists.map
    · intro v hv
      obtain ⟨k, hk, hrange⟩ := hshifted _ (List.mem_map_of_mem hv)
      rw [hk]
      exact ⟨hrange.1, by omega⟩
    · intro a ha b hb hab
      obtain ⟨n, rfl, hn, hn7⟩ := h.num ha
      obtain ⟨m, rfl, hm, hm7⟩ := h.num hb
      obtain ⟨k, hk, -, hkmod⟩ := shiftWeekday_num hn hdays hn7
      obtain ⟨j, hj, -, hjmod⟩ := shiftWeekday_num hm hdays hm7
      obtain rfl : k = j := CronValue.num.inj (hk.symm.trans (hab.trans hj))
      -- Weekdays that agree modulo 7 are equal, unless they are both Sunday.
      have hmod : n = m ∨ n = 0 ∧ m = 7 ∨ n = 7 ∧ m = 0 := by omega
      rcases hmod with rfl | ⟨rfl, rfl⟩ | ⟨rfl, rfl⟩
      · rfl
      · exact absurd hb (h.one_sunday ha)
      · exact absurd ha (h.one_sunday hb)
  · intro v hv
    obtain ⟨k, rfl, hk⟩ := hshifted v hv
    exact ⟨k, rfl, fun _ => by omega⟩
  · intro _ h7
    obtain ⟨k, hk, hrange⟩ := hshifted _ h7
    obtain rfl := CronValue.num.inj hk
    omega

theorem Weekdays.back {l : List CronValue} {days : ℤ} (h : Weekdays l days)
    (hdays : -1 ≤ days ∧ days ≤ 1) (x : ℤ) :
    (∃ v ∈ (l.map (shiftWeekday days)).map (shiftWeekday (-days)), OnDayOfWeek x v) ↔
      ∃ v ∈ l, OnDayOfWeek x v := by
  have hback : ∀ v ∈ l, OnDayOfWeek x (shiftWeekday (-days) (shiftWeekday days v)) ↔
      OnDayOfWeek x v := by
    intro v hv
    obtain ⟨n, rfl, hn, hn7⟩ := h.num hv
    obtain ⟨k, hk, hkrange, hkmod⟩ := shiftWeekday_num hn hdays hn7
    obtain ⟨j, hj, -, hjmod⟩ := shiftWeekday_num (n := k) (by omega)
      (show -1 ≤ -days ∧ -days ≤ 1 by omega) (fun _ => by omega)
    rw [hk, hj]
    change weekday x = j % 7 ↔ weekday x = n % 7
    rw [show j % 7 = n % 7 by omega]
  simp only [List.mem_map, exists_exists_and_eq_and]
  constructor
  · intro ⟨v, hv, hon⟩
    exact ⟨v, hv, (hback v hv).mp hon⟩
  · intro ⟨v, hv, hon⟩
    exact ⟨v, hv, (hback v hv).mpr hon⟩

def monthAfter (f : CronFields) (days : ℤ) : List ℤ :=
  if .num 1 ∈ f.dayOfMonth ∧ days = -1 ∨ .num 31 ∈ f.dayOfMonth ∧ days = 1 then
    addMonth f.month days
  else f.month

theorem monthAfter_every {f : CronFields} (h : EveryMonth f) (days : ℤ) :
    monthAfter f days = f.month := by
  unfold monthAfter
  rw [addMonth_every h, ite_self]

def shiftMonth (mon n : ℤ) : ℤ := if n + mon > 12 then 1 else if n + mon < 1 then 12 else n + mon

theorem addMonth_eq {l : List ℤ} (h : ¬ 11 < l.length) (mon : ℤ) :
    addMonth l mon = l.map (shiftMonth mon) := if_neg h

theorem shiftMonth_range {n : ℤ} (h : 1 ≤ n ∧ n ≤ 12) :
    1 ≤ shiftMonth 1 n ∧ shiftMonth 1 n ≤ 12 := by
  unfold shiftMonth
  split_ifs <;> omega

theorem shiftMonth_back {n : ℤ} (h : 1 ≤ n ∧ n ≤ 12) : shiftMonth (-1) (shiftMonth 1 n) = n := by
  unfold shiftMonth
  split_ifs <;> omega

section Days

variable {f g : CronFields} {days : ℤ}

theorem DaysReturn.month_eq (h : DaysReturn f days) : monthAfter f days = f.month := by
  rcases h.dayOfMonth with ⟨-, rfl | hevery⟩ | ⟨-, hkept⟩
  · exact if_neg (by simp)
  · exact monthAfter_every hevery days
  · unfold monthAfter
    split
    · rename_i hends
      rcases hends with ⟨hfirst, hback⟩ | ⟨hlast, hforth⟩
      · exact addMonth_every (hkept.first hfirst hback) days
      · exact absurd rfl (hkept.returns _ hlast hforth)
    · rfl

theorem DaysReturn.dayOfMonth_lists (h : DaysReturn f days) (hf : f.Valid)
    (hdays : -1 ≤ days ∧ days ≤ 1) : Lists IsDayOfMonth (addDayOfMonth f.dayOfMonth days) := by
  rcases h.dayOfMonth with ⟨hevery, -⟩ | ⟨hsome, hkept⟩
  · rw [addDayOfMonth_every hevery]
    exact hf.dayOfMonth
  · rw [addDayOfMonth_eq hsome]
    exact shiftDay_lists hf.dayOfMonth hdays hkept.returns

theorem DayOfWeekKept.weekdays (h : DayOfWeekKept f days) (hf : f.Valid) :
    Weekdays f.dayOfWeek days where
  lists := hf.dayOfWeek
  kept v hv := by
    obtain ⟨n, rfl⟩ := h.numbers v hv
    refine ⟨n, rfl, ?_⟩
    intro hdays h7
    rw [h7] at hv
    exact h.sunday hdays hv
  one_sunday := h.one_sunday

theorem dayOfWeek_lists (h : EveryDayOfWeek f ∨ DayOfWeekKept f days) (hf : f.Valid)
    (hdays : -1 ≤ days ∧ days ≤ 1) : Lists IsDayOfWeek (addDayOfWeek f.dayOfWeek days) := by
  by_cases hevery : EveryDayOfWeek f
  · rw [addDayOfWeek_every hevery]
    exact hf.dayOfWeek
  · have hkept := h.resolve_left hevery
    rw [addDayOfWeek_eq hevery]
    exact ((hkept.weekdays hf).shift hdays).lists

theorem DaysReturn.explicitDays (h : DaysReturn f days) (hf : f.Valid)
    (hdays : -1 ≤ days ∧ days ≤ 1) : ∀ month ∈ f.month, f.month.length = 1 →
      ∀ v ∈ addDayOfMonth f.dayOfMonth days, WithinMonth month v := by
  intro month hmonth hone v hv
  rcases h.dayOfMonth with ⟨hevery, -⟩ | ⟨hsome, hkept⟩
  · rw [addDayOfMonth_every hevery] at hv
    exact hf.explicitDays month hmonth hone v hv
  · rw [addDayOfMonth_eq hsome] at hv
    obtain ⟨a, ha, rfl⟩ := List.mem_map.mp hv
    have hmin := (maxDaysInMonth_range month).1
    cases a with
    | num n =>
      have hwithin : n ≤ maxDaysInMonth month := hf.explicitDays month hmonth hone _ ha
      have hnext : days = 1 → n < maxDaysInMonth month := fun hforth =>
        hkept.explicit hforth hone month hmonth n ha
      simp only [shiftDay]
      split_ifs
      · exact le_trans (by decide) hmin
      · trivial
      · change n + days ≤ maxDaysInMonth month
        rcases eq_or_ne days 1 with hforth | hforth
        · have := hnext hforth
          omega
        · omega
    | text s =>
      have hs : CronValue.text s = lastDay := hf.dayOfMonth.2.2 _ ha
      rw [shiftDay, if_pos hs]
      exact le_trans (by decide) hmin

theorem DaysReturn.dayOfMonth_back (h : DaysReturn f days) (hf : f.Valid)
    (hdays : -1 ≤ days ∧ days ≤ 1) (hg : g.dayOfMonth.Perm (addDayOfMonth f.dayOfMonth days)) :
    (addDayOfMonth g.dayOfMonth (-days)).Perm f.dayOfMonth := by
  rcases h.dayOfMonth with ⟨hevery, -⟩ | ⟨hsome, hkept⟩
  · rw [addDayOfMonth_every hevery] at hg
    rw [addDayOfMonth_every (by rw [hg.length_eq]; exact hevery)]
    exact hg
  · rw [addDayOfMonth_eq hsome] at hg
    have hlength : ¬ 30 < g.dayOfMonth.length := by
      rw [hg.length_eq, List.length_map]
      exact hsome
    rw [addDayOfMonth_eq hlength]
    have hback := hg.map (shiftDay (-days))
    rwa [map_map_back fun v hv => shiftDay_back (hf.dayOfMonth.2.2 v hv) hdays (hkept.returns v hv)]
      at hback

theorem DaysReturn.month_back (h : DaysReturn f days) (hf : f.Valid)
    (hg : g.dayOfMonth.Perm (addDayOfMonth f.dayOfMonth days)) (hmonth : g.month.Perm f.month) :
    monthAfter g (-days) = g.month := by
  have hevery : EveryMonth f → EveryMonth g := by
    intro hall
    unfold EveryMonth
    rw [hmonth.length_eq]
    exact hall
  rcases h.dayOfMonth with ⟨-, rfl | hall⟩ | ⟨hsome, hkept⟩
  · exact if_neg (by simp)
  · exact monthAfter_every (hevery hall) _
  · unfold monthAfter
    split
    · rename_i hends
      rw [addDayOfMonth_eq hsome] at hg
      rcases hends with ⟨hfirst, hback⟩ | ⟨hlast, hforth⟩
      · obtain ⟨a, ha, hshift⟩ := List.mem_map.mp (hg.mem_iff.mp hfirst)
        obtain rfl : days = 1 := by omega
        have hlast : a = lastDay :=
          shiftDay_eq_first (hf.dayOfMonth.2.2 _ ha) (hkept.returns _ ha) hshift
        rw [hlast] at ha
        exact addMonth_every (hevery (hkept.last ha)) _
      · obtain ⟨a, ha, hshift⟩ := List.mem_map.mp (hg.mem_iff.mp hlast)
        obtain rfl : days = -1 := by omega
        exact absurd hshift (shiftDay_ne_last (hf.dayOfMonth.2.2 _ ha) (hkept.returns _ ha))
    · rfl

theorem dayOfWeek_back (h : EveryDayOfWeek f ∨ DayOfWeekKept f days) (hf : f.Valid)
    (hdays : -1 ≤ days ∧ days ≤ 1) (hg : g.dayOfWeek.Perm (addDayOfWeek f.dayOfWeek days)) :
    Lists IsDayOfWeek (addDayOfWeek g.dayOfWeek (-days)) ∧
      (addDayOfWeek g.dayOfWeek (-days)).length = f.dayOfWeek.length ∧
      ∀ x, (∃ v ∈ addDayOfWeek g.dayOfWeek (-days), OnDayOfWeek x v) ↔
        ∃ v ∈ f.dayOfWeek, OnDayOfWeek x v := by
  have hmem {l k : List CronValue} (hperm : l.Perm k) (x : ℤ) :
      (∃ v ∈ l, OnDayOfWeek x v) ↔ ∃ v ∈ k, OnDayOfWeek x v := by
    simp only [hperm.mem_iff]
  by_cases hevery : EveryDayOfWeek f
  · rw [addDayOfWeek_every hevery] at hg
    rw [addDayOfWeek_every (by rw [hg.length_eq]; exact hevery)]
    exact ⟨hf.dayOfWeek.perm hg, hg.length_eq, hmem hg⟩
  · have hkept := (h.resolve_left hevery).weekdays hf
    rw [addDayOfWeek_eq hevery] at hg
    have hlength : ¬ 6 < g.dayOfWeek.length := by
      rw [hg.length_eq, List.length_map]
      exact hevery
    rw [addDayOfWeek_eq hlength]
    have hback := hg.map (shiftWeekday (-days))
    have htwice := (hkept.shift hdays).shift (show -1 ≤ -days ∧ -days ≤ 1 by omega)
    refine ⟨htwice.lists.perm hback, ?_, ?_⟩
    · rw [hback.length_eq, List.length_map, List.length_map]
    · intro x
      rw [hmem hback, hkept.back hdays]

end Days

section Times

variable {f g : CronFields} {shift : ℤ}

/-- The first value of a list in order. -/
theorem head_least {l : List ℤ} (hne : l ≠ []) (h : l.Pairwise (· ≤ ·)) :
    l.headD 0 ∈ l ∧ ∀ n ∈ l, l.headD 0 ≤ n := by
  cases l with
  | nil => exact absurd rfl hne
  | cons a l =>
    refine ⟨List.mem_cons_self, ?_⟩
    intro n hn
    rcases List.mem_cons.mp hn with rfl | hn
    · exact le_refl _
    · exact List.rel_of_pairwise_cons h hn

def carriedHours (f : CronFields) (shift : ℤ) : ℤ := (f.minute.headD 0 + shift) / 60

def carriedDays (f : CronFields) (shift : ℤ) : ℤ :=
  (60 * f.hour.headD 0 + f.minute.headD 0 + shift) / 1440

structure Times (f : CronFields) : Prop where
  minute : Lists (fun n => 0 ≤ n ∧ n < 60) f.minute
  hour : Lists (fun n => 0 ≤ n ∧ n < 24) f.hour
  minute_ordered : f.minute.Pairwise (· ≤ ·)
  hour_ordered : f.hour.Pairwise (· ≤ ·)

theorem Times.convertFields_eq (h : Times f) (shift : ℤ) :
    convertFields f shift =
      { minute := f.minute.map fun n => (n + shift) % 60
        hour := f.hour.map fun n => (n + carriedHours f shift) % 24
        dayOfMonth := addDayOfMonth f.dayOfMonth (carriedDays f shift)
        month := monthAfter f (carriedDays f shift)
        dayOfWeek := addDayOfWeek f.dayOfWeek (carriedDays f shift) } := by
  obtain ⟨hminute, hminutes⟩ := head_least h.minute.1 h.minute_ordered
  obtain ⟨hhour, hhours⟩ := head_least h.hour.1 h.hour_ordered
  have hm := h.minute.2.2
  have hh := h.hour.2.2
  unfold convertFields
  dsimp only
  rw [addMinutes_eq (fun n hn => ⟨hminutes n hn, (hm n hn).2⟩) (hm _ hminute).1,
    addHours_eq (fun n hn => ⟨hhours n hn, (hh n hn).2⟩) (hh _ hhour).1,
    getDaysHoursMinutes_days]
  rfl

theorem Times.carriedDays_range (h : Times f) (hshift : -1440 < shift ∧ shift < 1440) :
    -1 ≤ carriedDays f shift ∧ carriedDays f shift ≤ 1 := by
  have hminute := h.minute.2.2 _ (head_least h.minute.1 h.minute_ordered).1
  have hhour := h.hour.2.2 _ (head_least h.hour.1 h.hour_ordered).1
  unfold carriedDays
  omega

theorem Times.first_time (hg : Times g)
    (hminute : g.minute.Perm (f.minute.map fun n => (n + shift) % 60))
    (hhour : g.hour.Perm (f.hour.map fun n => (n + carriedHours f shift) % 24)) :
    (∃ m ∈ f.minute, g.minute.headD 0 = (m + shift) % 60) ∧
      ∃ n ∈ f.hour, g.hour.headD 0 = (n + carriedHours f shift) % 24 := by
  have hm := (head_least hg.minute.1 hg.minute_ordered).1
  have hh := (head_least hg.hour.1 hg.hour_ordered).1
  obtain ⟨m, hm, hmeq⟩ := List.mem_map.mp (hminute.mem_iff.mp hm)
  obtain ⟨n, hn, hneq⟩ := List.mem_map.mp (hhour.mem_iff.mp hh)
  exact ⟨⟨m, hm, hmeq.symm⟩, n, hn, hneq.symm⟩

theorem Times.carriedHours_back (h : Times f) (halike : MinutesAlike f shift) (hg : Times g)
    (hminute : g.minute.Perm (f.minute.map fun n => (n + shift) % 60))
    (hhour : g.hour.Perm (f.hour.map fun n => (n + carriedHours f shift) % 24)) :
    carriedHours g (-shift) = -carriedHours f shift := by
  obtain ⟨⟨m, hm, hfirst⟩, -⟩ := hg.first_time hminute hhour
  have hrange := h.minute.2.2 m hm
  have hsame : (m + shift) / 60 = carriedHours f shift :=
    halike m hm _ (head_least h.minute.1 h.minute_ordered).1
  unfold carriedHours at hsame ⊢
  rw [hfirst]
  omega

theorem Times.carriedDays_eq (h : Times f) {days : ℤ} (hcarried : CarriedBy f shift days) :
    carriedDays f shift = days :=
  hcarried _ (head_least h.hour.1 h.hour_ordered).1 _ (head_least h.minute.1 h.minute_ordered).1

theorem Times.carriedDays_back (h : Times f) (halike : MinutesAlike f shift) {days : ℤ}
    (hcarried : CarriedBy f shift days) (hg : Times g)
    (hminute : g.minute.Perm (f.minute.map fun n => (n + shift) % 60))
    (hhour : g.hour.Perm (f.hour.map fun n => (n + carriedHours f shift) % 24)) :
    carriedDays g (-shift) = -days := by
  obtain ⟨⟨m, hm, hfirst⟩, n, hn, hfirst'⟩ := hg.first_time hminute hhour
  have hminutes := h.minute.2.2 m hm
  have hhours := h.hour.2.2 n hn
  have hsame : (m + shift) / 60 = carriedHours f shift :=
    halike m hm _ (head_least h.minute.1 h.minute_ordered).1
  have hdays := hcarried n hn m hm
  unfold carriedDays
  rw [hfirst, hfirst', ← hsame]
  omega

theorem every_hour {l : List ℤ} (h : Lists (fun n => 0 ≤ n ∧ n < 24) l) (hlength : l.length = 24) :
    l.Perm (cronRange 0 23 none) := by
  have hsub : l ⊆ cronRange 0 23 none := by
    intro n hn
    obtain ⟨h0, h24⟩ := h.2.2 n hn
    exact mem_cronRange h0 (by omega)
  apply (h.2.1.subperm hsub).perm_of_length_le
  rw [hlength]
  decide

theorem Times.hour_back (h : Times f) (htimes : MinutesAlike f shift ∨ f.hour.length = 24)
    (hg : Times g) (hminute : g.minute.Perm (f.minute.map fun n => (n + shift) % 60))
    (hhour : g.hour.Perm (f.hour.map fun n => (n + carriedHours f shift) % 24)) :
    (g.hour.map fun n => (n + carriedHours g (-shift)) % 24).Perm f.hour := by
  rcases htimes with halike | hall
  · rw [h.carriedHours_back halike hg hminute hhour]
    have hback := hhour.map fun n => (n + -carriedHours f shift) % 24
    rwa [map_shift_back h.hour.2.2] at hback
  · have hshifted := lists_map_shift (by decide) hg.hour (carriedHours g (-shift))
    have hlength : (g.hour.map fun n => (n + carriedHours g (-shift)) % 24).length = 24 := by
      rw [List.length_map, hhour.length_eq, List.length_map, hall]
    exact (every_hour hshifted hlength).trans (every_hour h.hour hall).symm

theorem Times.minute_back (h : Times f)
    (hminute : g.minute.Perm (f.minute.map fun n => (n + shift) % 60)) :
    (g.minute.map fun n => (n + -shift) % 60).Perm f.minute := by
  have hback := hminute.map fun n => (n + -shift) % 60
  rwa [map_shift_back h.minute.2.2] at hback

end Times

section Conversions

variable {f g : CronFields} {shift : ℤ}

theorem Steady.times (h : Steady f shift) (hordered : f.minute.Pairwise (· ≤ ·) ∧
    f.hour.Pairwise (· ≤ ·)) : Times f :=
  ⟨h.valid.minute, h.valid.hour, hordered.1, hordered.2⟩

def shiftedFields (f : CronFields) (shift : ℤ) (dayOfMonth : List CronValue) (month : List ℤ)
    (dayOfWeek : List CronValue) : CronFields where
  minute := f.minute.map fun n => (n + shift) % 60
  hour := f.hour.map fun n => (n + carriedHours f shift) % 24
  dayOfMonth := dayOfMonth
  month := month
  dayOfWeek := dayOfWeek

theorem Times.shiftedFields_inRange (h : Times f) {dayOfMonth dayOfWeek : List CronValue}
    {month : List ℤ} (hday : Lists IsDayOfMonth dayOfMonth)
    (hmonth : Lists (fun n => 1 ≤ n ∧ n ≤ 12) month) (hweek : Lists IsDayOfWeek dayOfWeek) :
    (shiftedFields f shift dayOfMonth month dayOfWeek).InRange :=
  ⟨lists_map_shift (by decide) h.minute shift, lists_map_shift (by decide) h.hour _, hday, hmonth,
    hweek⟩

theorem convertFields_every (hf : Times f) (hday : EveryDayOfMonth f) (hmonth : EveryMonth f)
    (hweek : EveryDayOfWeek f) :
    convertFields f shift = shiftedFields f shift f.dayOfMonth f.month f.dayOfWeek := by
  rw [hf.convertFields_eq, addDayOfMonth_every hday, monthAfter_every hmonth,
    addDayOfWeek_every hweek]
  rfl

theorem every_back (h : Steady f shift) (hf : Times f) (hday : EveryDayOfMonth f)
    (hmonth : EveryMonth f) (hweek : EveryDayOfWeek f) (hg : Times g)
    (hread : g.Reordered (shiftedFields f shift f.dayOfMonth f.month f.dayOfWeek)) :
    (convertFields g (-shift)).Valid ∧ (convertFields g (-shift)).Same f := by
  have hday' : EveryDayOfMonth g := by
    unfold EveryDayOfMonth
    rw [hread.dayOfMonth.length_eq]
    exact hday
  have hmonth' : EveryMonth g := by
    unfold EveryMonth
    rw [hread.month.length_eq]
    exact hmonth
  have hweek' : EveryDayOfWeek g := by
    unfold EveryDayOfWeek
    rw [hread.dayOfWeek.length_eq]
    exact hweek
  rw [convertFields_every hg hday' hmonth' hweek']
  constructor
  · refine ⟨hg.shiftedFields_inRange (h.valid.dayOfMonth.perm hread.dayOfMonth)
      (h.valid.month.perm hread.month) (h.valid.dayOfWeek.perm hread.dayOfWeek), ?_⟩
    intro month _ hone
    have hone : g.month.length = 1 := hone
    unfold EveryMonth at hmonth'
    omega
  · exact Reordered.same ⟨hf.minute_back hread.minute,
      hf.hour_back h.hours hg hread.minute hread.hour, hread.dayOfMonth, hread.month,
      hread.dayOfWeek⟩

theorem return_valid (h : Steady f shift) (hf : Times f) {days : ℤ} (hdays : -1 ≤ days ∧ days ≤ 1)
    (hcarried : CarriedBy f shift days) (hreturn : DaysReturn f days) :
    (convertFields f shift).Valid := by
  rw [hf.convertFields_eq, hf.carriedDays_eq hcarried, hreturn.month_eq]
  refine ⟨hf.shiftedFields_inRange (hreturn.dayOfMonth_lists h.valid hdays) h.valid.month
    (dayOfWeek_lists hreturn.dayOfWeek h.valid hdays), ?_⟩
  exact hreturn.explicitDays h.valid hdays

theorem return_back (h : Steady f shift) (hf : Times f) (halike : MinutesAlike f shift) {days : ℤ}
    (hdays : -1 ≤ days ∧ days ≤ 1) (hcarried : CarriedBy f shift days)
    (hreturn : DaysReturn f days) (hg : Times g) (hread : g.Reordered (convertFields f shift)) :
    (convertFields g (-shift)).Valid ∧ (convertFields g (-shift)).Same f := by
  rw [hf.convertFields_eq, hf.carriedDays_eq hcarried, hreturn.month_eq] at hread
  obtain ⟨hminute, hhour, hday, hmonth, hweek⟩ := hread
  have hback := hf.carriedDays_back halike hcarried hg hminute hhour
  rw [hg.convertFields_eq, hback, hreturn.month_back h.valid hday hmonth]
  have hday' := hreturn.dayOfMonth_back h.valid hdays hday
  obtain ⟨hlists, hlength, hon⟩ := dayOfWeek_back hreturn.dayOfWeek h.valid hdays hweek
  constructor
  · refine ⟨hg.shiftedFields_inRange (h.valid.dayOfMonth.perm hday')
      (h.valid.month.perm hmonth) hlists, ?_⟩
    intro month hmem hone v hv
    dsimp only at hmem hone hv
    rw [hmonth.length_eq] at hone
    exact h.valid.explicitDays month (hmonth.mem_iff.mp hmem) hone v (hday'.mem_iff.mp hv)
  · exact ⟨hf.minute_back hminute, hf.hour_back h.hours hg hminute hhour, hmonth, hday'.length_eq,
      fun x _ => by simp only [hday'.mem_iff], hlength, hon⟩

/-! ### The end of a month -/

def nextMonths (f : CronFields) (shift : ℤ) : CronFields :=
  shiftedFields f shift [.num 1] (addMonth f.month 1) (addDayOfWeek f.dayOfWeek 1)

theorem MonthEnd.not_every (h : MonthEnd f) (hf : f.Valid) : ¬ EveryMonth f := by
  obtain ⟨d, -, hmonths, -⟩ := h
  have hsub : f.month ⊆ [1, 3, 4, 5, 6, 7, 8, 9, 10, 11, 12] := by
    intro month hmonth
    have hrange := hf.month.2.2 month hmonth
    have hne := (hmonths month hmonth).1
    simp only [List.mem_cons, List.not_mem_nil, or_false]
    omega
  have hle := (hf.month.2.1.subperm hsub).length_le
  unfold EveryMonth
  exact not_lt.mpr hle

theorem MonthEnd.nextMonths_valid (h : MonthEnd f) (hvalid : f.Valid) (hf : Times f)
    (hweek : EveryDayOfWeek f ∨ DayOfWeekKept f 1) : (nextMonths f shift).Valid := by
  constructor
  · apply hf.shiftedFields_inRange (by decide)
    · rw [addMonth_eq (h.not_every hvalid)]
      exact hvalid.month.map_of_back (shiftMonth (-1))
        (fun n hn => shiftMonth_range (hvalid.month.2.2 n hn))
        fun n hn => shiftMonth_back (hvalid.month.2.2 n hn)
    · exact dayOfWeek_lists hweek hvalid (by decide)
  · intro month _ _ v hv
    rw [List.mem_singleton.mp hv]
    exact le_trans (by decide) (maxDaysInMonth_range month).1

theorem MonthEnd.cases (h : MonthEnd f) (hf : f.Valid) :
    f.dayOfMonth = [.num 31] ∨ f.dayOfMonth = [.num 30] ∧ f.month.length = 1 ∧
      ∀ month ∈ f.month, maxDaysInMonth month = 30 := by
  obtain ⟨d, hday, hmonths, hsingle⟩ := h
  obtain ⟨month, hmonth⟩ := List.exists_mem_of_ne_nil _ hf.month.1
  have hrange := hf.month.2.2 month hmonth
  obtain ⟨hne, hmax⟩ := hmonths month hmonth
  have hnat : month.toNat ≠ 2 := by omega
  rcases daysInMonth_cases hnat 1972 with hdays | hdays
  · obtain rfl : d = 30 := by
      unfold maxDaysInMonth at hmax
      omega
    exact Or.inr ⟨hday, hsingle.resolve_left (by decide), fun month hmonth => (hmonths month hmonth).2⟩
  · obtain rfl : d = 31 := by
      unfold maxDaysInMonth at hmax
      omega
    exact Or.inl hday

/-- The 31st becomes the first day of the next months. -/
theorem convertFields_last (hf : Times f) (hcarried : CarriedBy f shift 1)
    (hday : f.dayOfMonth = [.num 31]) : convertFields f shift = nextMonths f shift := by
  have hmonth : monthAfter f 1 = addMonth f.month 1 := by
    unfold monthAfter
    rw [hday]
    exact if_pos (by simp)
  rw [hf.convertFields_eq, hf.carriedDays_eq hcarried, hday, hmonth]
  rfl

theorem convertFields_beyond (hf : Times f) (hcarried : CarriedBy f shift 1)
    (hday : f.dayOfMonth = [.num 30]) :
    convertFields f shift =
      shiftedFields f shift [.num 31] f.month (addDayOfWeek f.dayOfWeek 1) := by
  have hmonth : monthAfter f 1 = f.month := by
    unfold monthAfter
    rw [hday]
    exact if_neg (by simp)
  rw [hf.convertFields_eq, hf.carriedDays_eq hcarried, hday, hmonth]
  rfl

/-- The last day becomes the first one, on its own or where the parser refuses the 31st. -/
theorem MonthEnd.shown (h : MonthEnd f) {lib : CronParser} (hlib : lib.Documented)
    (hvalid : f.Valid) (hf : Times f) (hcarried : CarriedBy f shift 1)
    (hweek : EveryDayOfWeek f ∨ DayOfWeekKept f 1) {expression : GoString}
    (hread : lib.parseExpression expression = some f) {zone : FixedZone} (hzone : zone.offset = shift) :
    ∃ shown g, cronConverter lib expression .utc zone = some shown ∧
      lib.parseExpression shown = some g ∧ g.Reordered (nextMonths f shift) := by
  have hnext : (nextMonths f shift).Valid := h.nextMonths_valid hvalid hf hweek
  obtain ⟨shown, g, hshown, hg, hreordered⟩ := hlib.stringify_valid _ hnext
  refine ⟨shown, g, ?_, hg, hreordered⟩
  simp only [cronConverter, hread, bind, Option.bind, FixedZone.utc, sub_zero, hzone]
  rcases h.cases hvalid with hday | ⟨hday, hone, hmonths⟩
  · rw [convertFields_last hf hcarried hday, hshown]
  · rw [convertFields_beyond hf hcarried hday]
    have hinRange : (shiftedFields f shift [.num 31] f.month (addDayOfWeek f.dayOfWeek 1)).InRange :=
      hf.shiftedFields_inRange (by decide) hvalid.month (dayOfWeek_lists hweek hvalid (by decide))
    have hbeyond : ∀ month ∈ f.month, ∀ v ∈ [CronValue.num 31], ¬ WithinMonth month v := by
      intro month hmonth v hv
      rw [List.mem_singleton.mp hv]
      change ¬ 31 ≤ maxDaysInMonth month
      rw [hmonths month hmonth]
      decide
    obtain ⟨message, hmessage, hcontains⟩ := hlib.stringify_explicit _ hinRange hone hbeyond
    rw [hmessage]
    simp only [hcontains, if_true]
    change (lib.stringify (nextMonths f shift)).toOption = some shown
    rw [hshown]
    rfl

theorem MonthEnd.onLastDay (h : MonthEnd f) {x : ℤ} (hx : ((date x).month : ℤ) ∈ f.month) :
    (∃ v ∈ [lastDay], OnDayOfMonth x v) ↔ ∃ v ∈ f.dayOfMonth, OnDayOfMonth x v := by
  obtain ⟨d, hday, hmonths, -⟩ := h
  obtain ⟨hne, hmax⟩ := hmonths _ hx
  have hdays : (daysInMonth (date x).year (date x).month : ℤ) = d := by
    rw [← hmax, maxDaysInMonth, Int.toNat_natCast,
      daysInMonth_of_ne (by exact_mod_cast hne) (date x).year 1972]
  rw [hday]
  simp only [List.mem_singleton, exists_eq_left]
  change lastDay = lastDay ∧ (date x).isLastDay ↔ ((date x).day : ℤ) = d
  simp only [true_and, Date.isLastDay]
  omega

theorem MonthEnd.back (h : MonthEnd f) (hvalid : f.Valid) (hf : Times f)
    (halike : MinutesAlike f shift) (hcarried : CarriedBy f shift 1)
    (hweek : EveryDayOfWeek f ∨ DayOfWeekKept f 1) (hg : Times g)
    (hread : g.Reordered (nextMonths f shift)) :
    (convertFields g (-shift)).Valid ∧ (convertFields g (-shift)).Same f := by
  obtain ⟨hminute, hhour, hday, hmonth, hweekday⟩ := hread
  have hnot := h.not_every hvalid
  have hback := hf.carriedDays_back halike hcarried hg hminute hhour
  have hfirst : g.dayOfMonth = [.num 1] := List.perm_singleton.mp hday
  have hmonth : g.month.Perm (f.month.map (shiftMonth 1)) := by
    rw [← addMonth_eq hnot]
    exact hmonth
  have hmonthAfter : (monthAfter g (-1)).Perm f.month := by
    have hlength : ¬ 11 < g.month.length := by
      rw [hmonth.length_eq, List.length_map]
      exact hnot
    unfold monthAfter
    rw [hfirst, if_pos (by simp), addMonth_eq hlength]
    have hmap := hmonth.map (shiftMonth (-1))
    rwa [map_map_back fun n hn => shiftMonth_back (hvalid.month.2.2 n hn)] at hmap
  obtain ⟨hlists, hlength, hon⟩ := dayOfWeek_back hweek hvalid (by decide) hweekday
  rw [hg.convertFields_eq, hback, hfirst]
  constructor
  · refine ⟨hg.shiftedFields_inRange (by decide) (hvalid.month.perm hmonthAfter) hlists, ?_⟩
    intro month _ _ v hv
    rw [List.mem_singleton.mp hv]
    trivial
  · have hone : f.dayOfMonth.length = 1 := by
      obtain ⟨d, hlast, -⟩ := h
      rw [hlast, List.length_singleton]
    exact ⟨hf.minute_back hminute, hf.hour_back (Or.inl halike) hg hminute hhour, hmonthAfter,
      hone.symm, fun x hx => h.onLastDay hx, hlength, hon⟩

/-! ### There and back -/

theorem times_of_reordered {lib : CronParser} (hlib : lib.Documented) {s : GoString}
    (hg : lib.parseExpression s = some g) {k : CronFields} (hk : k.Valid) (hgk : g.Reordered k) :
    Times g := by
  obtain ⟨hminute, hhour⟩ := hlib.ordered _ _ hg
  exact ⟨hk.minute.perm hgk.minute, hk.hour.perm hgk.hour, hminute, hhour⟩

theorem shown_of_valid {lib : CronParser} (hlib : lib.Documented) {zone : FixedZone}
    {expression : GoString} (hread : lib.parseExpression expression = some f)
    (hvalid : (convertFields f zone.offset).Valid) :
    ∃ shown g, cronConverter lib expression .utc zone = some shown ∧
      lib.parseExpression shown = some g ∧ Times g ∧ g.Reordered (convertFields f zone.offset) := by
  obtain ⟨shown, g, hshown, hg, hreordered⟩ := hlib.stringify_valid _ hvalid
  refine ⟨shown, g, ?_, hg, times_of_reordered hlib hg hvalid hreordered, hreordered⟩
  simp only [cronConverter, hread, bind, Option.bind, FixedZone.utc, sub_zero, hshown]

/-- What is shown of a steady schedule is converted back to fields that exist and fire alike. -/
theorem Steady.shown {lib : CronParser} (hlib : lib.Documented) {zone : FixedZone}
    {expression : GoString} (hread : lib.parseExpression expression = some f)
    (h : Steady f zone.offset) :
    ∃ shown g, cronConverter lib expression .utc zone = some shown ∧
      lib.parseExpression shown = some g ∧ (convertFields g (-zone.offset)).Valid ∧
        (convertFields g (-zone.offset)).Same f := by
  have hf := h.times (hlib.ordered _ _ hread)
  rcases h.days with ⟨hday, hmonth, hweek⟩ | ⟨halike, days, hcarried, hreturn | ⟨rfl, hend, hweek⟩⟩
  · have hconvert : convertFields f zone.offset =
        shiftedFields f zone.offset f.dayOfMonth f.month f.dayOfWeek :=
      convertFields_every hf hday hmonth hweek
    have hvalid : (convertFields f zone.offset).Valid := by
      rw [hconvert]
      exact ⟨hf.shiftedFields_inRange h.valid.dayOfMonth h.valid.month h.valid.dayOfWeek,
        h.valid.explicitDays⟩
    obtain ⟨shown, g, hshown, hg, htimes, hreordered⟩ := shown_of_valid hlib hread hvalid
    rw [hconvert] at hreordered
    exact ⟨shown, g, hshown, hg, every_back h hf hday hmonth hweek htimes hreordered⟩
  · have hrange := hf.carriedDays_range zone.within_day
    rw [hf.carriedDays_eq hcarried] at hrange
    obtain ⟨shown, g, hshown, hg, htimes, hreordered⟩ :=
      shown_of_valid hlib hread (return_valid h hf hrange hcarried hreturn)
    exact ⟨shown, g, hshown, hg,
      return_back h hf halike hrange hcarried hreturn htimes hreordered⟩
  · obtain ⟨shown, g, hshown, hg, hreordered⟩ :=
      hend.shown hlib h.valid hf hcarried hweek hread rfl
    have htimes := times_of_reordered hlib hg (hend.nextMonths_valid h.valid hf hweek)
      hreordered
    exact ⟨shown, g, hshown, hg, hend.back h.valid hf halike hcarried hweek htimes hreordered⟩

theorem Steady.convert_back {lib : CronParser} (hlib : lib.Documented) {zone : FixedZone}
    {expression : GoString} (hread : lib.parseExpression expression = some f)
    (h : Steady f zone.offset) :
    ∃ shown, cronConverter lib expression .utc zone = some shown ∧
      ∃ sent, cronConverter lib shown zone .utc = some sent ∧
        ∀ t, lib.FiresAt sent 0 t ↔ lib.FiresAt expression 0 t := by
  obtain ⟨shown, g, hshown, hg, hvalid, hsame⟩ := h.shown hlib hread
  obtain ⟨sent, k, hsent, hk, hreordered⟩ := hlib.stringify_valid _ hvalid
  refine ⟨shown, hshown, sent, ?_, ?_⟩
  · simp only [cronConverter, hg, bind, Option.bind, FixedZone.utc, zero_sub, hsent]
  · intro t
    rw [CronParser.firesAt_iff hread, CronParser.firesAt_iff hk, hreordered.same.fires,
      hsame.fires]

end Conversions

/-! ### Saves -/

/-- The conversions of a browser in a zone; see `save` for those that throw an error. -/
def browser (lib : CronParser) (zone : FixedZone) : TimeZone where
  toUtc s := (cronConverter lib s zone .utc).getD s
  toLocal s := (cronConverter lib s .utc zone).getD s

/-- An edit that does not touch the schedules, in a browser's zone. -/
structure UnrelatedEdit (F V : Type) where
  zone : FixedZone
  edit : Edit F V
  untouched : edit.schedules = none

section Saves

variable {F V : Type} (lib : CronParser)

def Converts (zone : FixedZone) (schedule : BackupSchedule) : Bool :=
  ((cronConverter lib schedule.schedule .utc zone).bind fun shown =>
    cronConverter lib shown zone .utc).isSome

/-- The cluster after it was read, edited and sent; none where a conversion throws an error. -/
def save (s : Versioned (StoredCluster F V)) (e : UnrelatedEdit F V) :
    Option (Versioned (StoredCluster F V)) :=
  if (s.value.spec.schedules.getD []).all (Converts lib e.zone) then
    s.update s.resourceVersion (e.edit.sent (browser lib e.zone) s)
  else none

/-- The same schedule, up to an expression that fires at the same instants. -/
def FiresAlike (a b : BackupSchedule) : Prop :=
  b = { a with schedule := b.schedule } ∧
    ∀ t, lib.FiresAt b.schedule 0 t ↔ lib.FiresAt a.schedule 0 t

def KeepsSchedules (before after : Option (List BackupSchedule)) : Prop :=
  Option.Rel (List.Forall₂ (FiresAlike lib)) before after

/-- Every stored schedule is steady in the zone. -/
def SteadyIn (s : Versioned (StoredCluster F V)) (e : UnrelatedEdit F V) : Prop :=
  ∀ schedule ∈ s.value.spec.schedules.getD [],
    ∃ f, lib.parseExpression schedule.schedule = some f ∧ Steady f e.zone.offset

variable {lib}

theorem FiresAlike.refl (a : BackupSchedule) : FiresAlike lib a a := ⟨rfl, fun _ => Iff.rfl⟩

theorem FiresAlike.trans {a b c : BackupSchedule} (hab : FiresAlike lib a b)
    (hbc : FiresAlike lib b c) : FiresAlike lib a c := by
  refine ⟨?_, fun t => (hbc.2 t).trans (hab.2 t)⟩
  rw [hbc.1, hab.1]

theorem firesAlike_trans {as bs cs : List BackupSchedule} (hab : List.Forall₂ (FiresAlike lib) as bs)
    (hbc : List.Forall₂ (FiresAlike lib) bs cs) : List.Forall₂ (FiresAlike lib) as cs := by
  induction hab generalizing cs with
  | nil => exact hbc
  | cons ha has ih =>
    cases hbc with
    | cons hb hbs => exact .cons (ha.trans hb) (ih hbs)

theorem KeepsSchedules.refl (schedules : Option (List BackupSchedule)) :
    KeepsSchedules lib schedules schedules := by
  cases schedules with
  | none => exact .none
  | some l => exact .some (List.forall₂_same.mpr fun a _ => FiresAlike.refl a)

theorem KeepsSchedules.trans {a b c : Option (List BackupSchedule)}
    (hab : KeepsSchedules lib a b) (hbc : KeepsSchedules lib b c) : KeepsSchedules lib a c := by
  cases hab with
  | none =>
    cases hbc
    exact .none
  | some hab =>
    cases hbc with
    | some hbc =>
      exact .some (firesAlike_trans hab hbc)

theorem save_enabled (hlib : lib.Documented) (s : Versioned (StoredCluster F V))
    (e : UnrelatedEdit F V) (h : SteadyIn lib s e) : ∃ t, save lib s e = some t := by
  have hall : (s.value.spec.schedules.getD []).all (Converts lib e.zone) = true := by
    rw [List.all_eq_true]
    intro schedule hschedule
    obtain ⟨f, hread, hsteady⟩ := h schedule hschedule
    obtain ⟨shown, hshown, sent, hsent, -⟩ := hsteady.convert_back hlib hread
    rw [Converts, hshown, Option.bind_some, hsent]
    rfl
  refine ⟨⟨s.resourceVersion + 1, e.edit.sent (browser lib e.zone) s⟩, ?_⟩
  rw [save, if_pos hall, Versioned.update_current]

theorem save_keeps (hlib : lib.Documented) {s t : Versioned (StoredCluster F V)}
    {e : UnrelatedEdit F V} (h : SteadyIn lib s e) (hsave : save lib s e = some t) :
    KeepsSchedules lib s.value.spec.schedules t.value.spec.schedules := by
  unfold save at hsave
  split at hsave
  · obtain ⟨-, rfl⟩ := (Versioned.update_eq_some ..).mp hsave
    have hsent : (e.edit.sent (browser lib e.zone) s).spec.schedules =
        convertSchedules (browser lib e.zone).toUtc
          (convertSchedules (browser lib e.zone).toLocal s.value.spec.schedules) := by
      simp [Edit.sent, updateDbCluster, Edit.apply, mergeNewDbClusterData, e.untouched]
    rw [hsent]
    unfold SteadyIn at h
    cases hschedules : s.value.spec.schedules with
    | none => exact .none
    | some l =>
      rw [hschedules, Option.getD_some] at h
      apply Option.Rel.some
      rw [List.map_map, List.forall₂_map_right_iff, List.forall₂_same]
      intro schedule hschedule
      obtain ⟨f, hread, hsteady⟩ := h schedule hschedule
      obtain ⟨shown, hshown, sent, hsent, hfires⟩ := hsteady.convert_back hlib hread
      refine ⟨rfl, ?_⟩
      intro t
      simp only [Function.comp_apply, browser, hshown, Option.getD_some, hsent]
      exact hfires t
  · cases hsave

/-- While the schedules are steady in the zones of the browsers, no number of unrelated edits
changes the instants at which they fire. -/
theorem saves_keep_schedules (hlib : lib.Documented) (s : Versioned (StoredCluster F V))
    (edits : List (UnrelatedEdit F V)) (hsteady : AlongRun (save lib) (SteadyIn lib) s edits) :
    (∃ t, run (save lib) s edits = some t) ∧
      Always (save lib) (fun t => KeepsSchedules lib s.value.spec.schedules t.value.spec.schedules)
        s edits := by
  constructor
  · exact run_of_alongRun (save_enabled hlib) hsteady
  · apply always_of_alongRun
      (fun t => KeepsSchedules lib s.value.spec.schedules t.value.spec.schedules)
      _ (fun _ h => h) (KeepsSchedules.refl _) hsteady
    intro u e t hkept h hsave
    exact hkept.trans (save_keeps hlib h hsave)

end Saves

/-! ### Twice a day on Mondays -/

def scheduledAt (schedule : String) : Versioned (StoredCluster Empty Unit) where
  resourceVersion := 1
  value :=
    { annotations := fun _ => none
      spec :=
        { paused := some false
          schedules := some [⟨ascii "backup", true, ascii "s3", ascii schedule, 3⟩]
          others := fun _ => () } }

def pauseIn (offset : ℤ) (h : -1440 < offset ∧ offset < 1440) (paused : Bool) :
    UnrelatedEdit Empty Unit :=
  ⟨⟨offset, h⟩, .pause paused, rfl⟩

def mondayFields : CronFields := ⟨[0], [4, 12], everyDay, cronRange 1 12 none, [.num 1]⟩

theorem mondayFields_steady {shift : ℤ} (halike : MinutesAlike mondayFields shift)
    (hcarried : CarriedBy mondayFields shift 0) : Steady mondayFields shift where
  valid := by decide
  hours := Or.inl halike
  days := by
    refine Or.inr ⟨halike, 0, hcarried,
      Or.inl ⟨Or.inl ⟨show 30 < everyDay.length by decide, Or.inl rfl⟩, Or.inr ⟨?_, ?_, ?_⟩⟩⟩
    · intro v hv
      exact ⟨1, List.mem_singleton.mp hv⟩
    · decide
    · decide

theorem monday_steadyIn {s : Versioned (StoredCluster Empty Unit)} {e : UnrelatedEdit Empty Unit}
    (hs : s.value.spec.schedules = (scheduledAt "0 4,12 * * 1").value.spec.schedules)
    (h : Steady mondayFields e.zone.offset) : SteadyIn listParser s e := by
  intro schedule hschedule
  rw [hs] at hschedule
  rw [List.mem_singleton.mp hschedule]
  exact ⟨mondayFields, by decide +kernel, h⟩

def mondayEdits : List (UnrelatedEdit Empty Unit) :=
  [pauseIn 330 (by decide) true, pauseIn (-180) (by decide) false]

theorem saves_keep_schedules_sample :
    (∃ t, run (save listParser) (scheduledAt "0 4,12 * * 1") mondayEdits = some t) ∧
      Always (save listParser) (fun t => KeepsSchedules listParser
          (scheduledAt "0 4,12 * * 1").value.spec.schedules t.value.spec.schedules)
        (scheduledAt "0 4,12 * * 1") mondayEdits := by
  have heast : Steady mondayFields 330 := mondayFields_steady (by unfold MinutesAlike; decide)
    (by unfold CarriedBy; decide)
  have hwest : Steady mondayFields (-180) := mondayFields_steady (by unfold MinutesAlike; decide)
    (by unfold CarriedBy; decide)
  have hsaved : (save listParser (scheduledAt "0 4,12 * * 1")
      (pauseIn 330 (by decide) true)).all (fun t => decide (t.value.spec.schedules =
        (scheduledAt "0 4,12 * * 1").value.spec.schedules)) = true := by decide +kernel
  apply saves_keep_schedules listParser_documented
  refine ⟨monday_steadyIn rfl heast, ?_⟩
  intro t ht
  rw [ht, Option.all_some] at hsaved
  exact ⟨monday_steadyIn (of_decide_eq_true hsaved) hwest, fun _ _ => trivial⟩

/-- A zone west of UTC sees the backup at midnight on Sunday and moves both to Sundays. -/
theorem edit_moves_backups :
    ¬ Always (save listParser) (fun t => KeepsSchedules listParser
        (scheduledAt "0 0,12 * * 1").value.spec.schedules t.value.spec.schedules)
      (scheduledAt "0 0,12 * * 1") [pauseIn (-60) (by decide) true] := by
  intro hkept
  have hsaved : (run (save listParser) (scheduledAt "0 0,12 * * 1")
      [pauseIn (-60) (by decide) true]).any (fun t => decide (t.value.spec.schedules =
        some [⟨ascii "backup", true, ascii "s3", ascii "0 0,12 * * 0", 3⟩])) = true := by
    decide +kernel
  obtain ⟨t, ht, hschedules⟩ := (Option.any_eq_true ..).mp hsaved
  have hrel : KeepsSchedules listParser (scheduledAt "0 0,12 * * 1").value.spec.schedules
      t.value.spec.schedules := hkept _ List.prefix_rfl t ht
  rw [of_decide_eq_true hschedules] at hrel
  cases hrel with
  | some hall =>
    cases hall with
    | cons hfirst _ =>
      -- Midnight of Monday 1970-01-05.
      have hmonday := hfirst.2 (1440 * 4)
      revert hmonday
      decide +kernel

end OpenEverest.Ui
