import OpenEverest.Framework.CronText
import OpenEverest.Ui.CronConverter

/-!
# The schedules of the form

The form offers schedules that run every hour, every day, on a weekday or on a day of the
month. They are converted to another time zone when they are saved and when they are shown.
-/

namespace OpenEverest.Ui

open Framework CronFields

/-! ### The form -/

inductive AmPM where
  | AM
  | PM
  deriving DecidableEq

inductive TimeValue where
  | hours
  | days
  | weeks
  | months
  deriving DecidableEq

inductive WeekDays where
  | Su
  | Mo
  | Tu
  | We
  | Th
  | Fr
  | Sa
  deriving DecidableEq

/-- The position of a weekday in `WeekDays`, which is its number in an expression. -/
def WeekDays.index : WeekDays → ℕ
  | .Su => 0
  | .Mo => 1
  | .Tu => 2
  | .We => 3
  | .Th => 4
  | .Fr => 5
  | .Sa => 6

def WeekDays.value : WeekDays → GoString
  | .Su => ascii "Sunday"
  | .Mo => ascii "Monday"
  | .Tu => ascii "Tuesday"
  | .We => ascii "Wednesday"
  | .Th => ascii "Thursday"
  | .Fr => ascii "Friday"
  | .Sa => ascii "Saturday"

theorem WeekDays.index_lt (weekDay : WeekDays) : weekDay.index < 7 := by
  cases weekDay <;> decide

def MINUTES : List ℕ := List.range 60

def DAYS_MONTH : List ℕ := (List.range 31).map (· + 1)

def HOURS_AM_PM : List ℕ := (List.range 12).map (· + 1)

/-- The package `cron-time-generator`. -/
structure CronTime where
  everyHourAt : (minute : ℕ) → GoString
  everyDayAt : (hour minute : ℕ) → GoString
  onSpecificDaysAt : (days : List GoString) → (hour minute : ℕ) → GoString
  everyMonthOn : (day hour minute : ℕ) → GoString

/-- It writes the minute, the hour, the day and the number of the weekday, and `*` for the
rest. -/
structure CronTime.Documented (cronTime : CronTime) : Prop where
  everyHourAt_eq : ∀ minute < 60,
    cronTime.everyHourAt minute = cronExpression (some minute) none none none
  everyDayAt_eq : ∀ hour < 24, ∀ minute < 60,
    cronTime.everyDayAt hour minute = cronExpression (some minute) (some hour) none none
  onSpecificDaysAt_eq : ∀ weekDay : WeekDays, ∀ hour < 24, ∀ minute < 60,
    cronTime.onSpecificDaysAt [weekDay.value] hour minute =
      cronExpression (some minute) (some hour) none (some weekDay.index)
  everyMonthOn_eq : ∀ day, 1 ≤ day → day ≤ 31 → ∀ hour < 24, ∀ minute < 60,
    cronTime.everyMonthOn day hour minute =
      cronExpression (some minute) (some hour) (some day) none

/-- The values of the form's fields, each one that the form offers. -/
structure TimeProps where
  selectedTime : TimeValue
  minute : ℕ
  hour : ℕ
  amPm : AmPM
  onDay : ℕ
  weekDay : WeekDays
  minute_offered : minute ∈ MINUTES
  hour_offered : hour ∈ HOURS_AM_PM
  onDay_offered : onDay ∈ DAYS_MONTH

namespace TimeProps

variable (timeProps : TimeProps)

def hour24 : ℕ :=
  match timeProps.amPm with
  | .PM => if timeProps.hour = 12 then timeProps.hour else timeProps.hour + 12
  | .AM => if timeProps.hour = 12 then 0 else timeProps.hour

def getCronExpressionFromFormValues (cronTime : CronTime) : GoString :=
  match timeProps.selectedTime with
  | .hours => cronTime.everyHourAt timeProps.minute
  | .days => cronTime.everyDayAt timeProps.hour24 timeProps.minute
  | .weeks =>
    cronTime.onSpecificDaysAt [timeProps.weekDay.value] timeProps.hour24 timeProps.minute
  | .months => cronTime.everyMonthOn timeProps.onDay timeProps.hour24 timeProps.minute

def hourField : Option ℕ :=
  if timeProps.selectedTime = .hours then none else some timeProps.hour24

def dayField : Option ℕ := if timeProps.selectedTime = .months then some timeProps.onDay else none

def weekField : Option ℕ :=
  if timeProps.selectedTime = .weeks then some timeProps.weekDay.index else none

theorem minute_lt : timeProps.minute < 60 := List.mem_range.mp timeProps.minute_offered

theorem onDay_range : 1 ≤ timeProps.onDay ∧ timeProps.onDay ≤ 31 := by
  obtain ⟨n, hn, hday⟩ := List.mem_map.mp timeProps.onDay_offered
  have hlt := List.mem_range.mp hn
  omega

theorem hour24_lt : timeProps.hour24 < 24 := by
  obtain ⟨n, hn, hhour⟩ := List.mem_map.mp timeProps.hour_offered
  have hlt := List.mem_range.mp hn
  unfold hour24
  cases timeProps.amPm <;> dsimp only <;> split <;> omega

theorem getCronExpressionFromFormValues_eq {cronTime : CronTime} (h : cronTime.Documented) :
    timeProps.getCronExpressionFromFormValues cronTime =
      cronExpression (some timeProps.minute) timeProps.hourField timeProps.dayField
        timeProps.weekField := by
  have hminute := timeProps.minute_lt
  have hhour := timeProps.hour24_lt
  obtain ⟨hfirst, hlast⟩ := timeProps.onDay_range
  unfold getCronExpressionFromFormValues hourField dayField weekField
  cases timeProps.selectedTime with
  | hours => exact h.everyHourAt_eq _ hminute
  | days => exact h.everyDayAt_eq _ hhour _ hminute
  | weeks => exact h.onSpecificDaysAt_eq _ _ hhour _ hminute
  | months => exact h.everyMonthOn_eq _ hfirst hlast _ hhour _ hminute

end TimeProps

/-! ### The converted fields -/

/-- Fields of one minute, one hour or all, and one day or all. -/
structure SimpleFields where
  minute : ℕ
  hour : Option ℕ
  dayOfMonth : Option ℕ
  dayOfWeek : Option ℕ
  minute_lt : minute < 60
  hour_lt : ∀ n ∈ hour, n < 24
  dayOfMonth_range : ∀ n ∈ dayOfMonth, 1 ≤ n ∧ n ≤ 31
  dayOfWeek_lt : ∀ n ∈ dayOfWeek, n < 7
  one_day : dayOfMonth = none ∨ dayOfWeek = none

namespace SimpleFields

variable (f : SimpleFields) (shift : ℤ)

def fields : CronFields := cronFields (some f.minute) f.hour f.dayOfMonth f.dayOfWeek

def days : ℤ := (60 * f.hour.getD 0 + f.minute + shift) / 1440

theorem head_minute : f.fields.minute.headD 0 = f.minute := rfl

theorem head_hour : f.fields.hour.headD 0 = f.hour.getD 0 := by
  unfold fields cronFields
  cases f.hour <;> rfl

theorem hour_range : ∀ n ∈ f.fields.hour, (f.hour.getD 0 : ℤ) ≤ n ∧ n < 24 := by
  change ∀ n ∈ cronRange 0 23 f.hour, _
  cases hhour : f.hour with
  | none => decide
  | some h =>
    intro n hn
    have hlt := f.hour_lt h hhour
    obtain rfl : n = h := List.mem_singleton.mp hn
    exact ⟨le_refl _, by exact_mod_cast hlt⟩

def converted : CronFields where
  minute := [((f.minute : ℤ) + shift) % 60]
  hour := f.fields.hour.map fun n => (n + (f.minute + shift) / 60) % 24
  dayOfMonth := addDayOfMonth f.fields.dayOfMonth (f.days shift)
  month := cronRange 1 12 none
  dayOfWeek := addDayOfWeek f.fields.dayOfWeek (f.days shift)

theorem convertFields_eq : convertFields f.fields shift = f.converted shift := by
  have hminute : ∀ n ∈ f.fields.minute, (f.minute : ℤ) ≤ n ∧ n < 60 := by
    intro n hn
    obtain rfl : n = f.minute := List.mem_singleton.mp hn
    exact ⟨le_refl _, by exact_mod_cast f.minute_lt⟩
  have hmonth : f.fields.month = cronRange 1 12 none := rfl
  have hevery (mon : ℤ) : addMonth (cronRange 1 12 none) mon = cronRange 1 12 none := rfl
  unfold convertFields converted
  simp only [head_minute, head_hour, hmonth, hevery, ite_self]
  rw [addHours_eq f.hour_range (by omega), addMinutes_eq hminute (by omega),
    getDaysHoursMinutes_days]
  rfl

/-! ### Firing -/

def oneOr (every : List CronValue) : Option CronValue → List CronValue
  | none => every
  | some v => [v]

theorem month_mem (x : ℤ) : ((date x).month : ℤ) ∈ cronRange 1 12 none := by
  have hone := (date x).one_le_month
  have hle := (date x).month_le
  exact mem_cronRange (by omega) (by omega)

theorem onEveryDay (x : ℤ) : ∃ v ∈ everyDay, OnDayOfMonth x v := by
  have hone := (date x).one_le_day
  have hle := (date x).day_le
  have hmonth := daysInMonth_le (date x).year (date x).month
  have hday : ((date x).day : ℤ) ∈ cronRange 1 31 none := mem_cronRange (by omega) (by omega)
  exact ⟨.num (date x).day, List.mem_map_of_mem hday, rfl⟩

theorem dayFires_oneOr {g : CronFields} {day week : Option CronValue}
    (hmonths : g.month = cronRange 1 12 none) (hday : g.dayOfMonth = oneOr everyDay day)
    (hweek : g.dayOfWeek = oneOr everyWeekday week) (hone : day = none ∨ week = none) (x : ℤ) :
    g.DayFires x ↔ (∀ v ∈ day, OnDayOfMonth x v) ∧ ∀ v ∈ week, OnDayOfWeek x v := by
  obtain ⟨hmin, hmax⟩ := maxDaysInMonth_range (date x).month
  have hmonth := month_mem x
  have hevery := onEveryDay x
  have hdays : everyDay.length = 31 := rfl
  have hweekdays : everyWeekday.length = 8 := rfl
  unfold DayFires
  rw [hmonths, hday, hweek]
  cases day with
  | none =>
    cases week with
    | none => simp [oneOr, hmonth, hweekdays, hevery]
    | some v => simp [oneOr, hmonth, hdays, hmax]
  | some v =>
    obtain rfl : week = none := by simpa using hone
    simp [oneOr, hmonth, hweekdays]

theorem dayFires_map {g : CronFields} {day week : ℕ → CronValue}
    (hmonths : g.month = cronRange 1 12 none)
    (hday : g.dayOfMonth = oneOr everyDay (f.dayOfMonth.map day))
    (hweek : g.dayOfWeek = oneOr everyWeekday (f.dayOfWeek.map week)) (x : ℤ) :
    g.DayFires x ↔ (∀ d ∈ f.dayOfMonth, OnDayOfMonth x (day d)) ∧
      ∀ w ∈ f.dayOfWeek, OnDayOfWeek x (week w) := by
  have hone : f.dayOfMonth.map day = none ∨ f.dayOfWeek.map week = none := by
    rcases f.one_day with hnone | hnone
    · left
      rw [hnone, Option.map_none]
    · right
      rw [hnone, Option.map_none]
  rw [dayFires_oneOr hmonths hday hweek hone]
  simp only [Option.mem_map, forall_exists_index, and_imp, forall_apply_eq_imp_iff₂]

/-- The day of the month, and the weekday, that the conversion writes. -/
def dayAfter (days : ℤ) (d : ℕ) : CronValue :=
  if (d : ℤ) + days > 31 then .num 1 else if (d : ℤ) + days < 1 then lastDay else .num (d + days)

def weekdayAfter (days : ℤ) (w : ℕ) : CronValue :=
  if (w : ℤ) + days > 6 then .num 0 else if (w : ℤ) + days < 0 then .num 6 else .num (w + days)

theorem fields_dayFires (x : ℤ) : f.fields.DayFires x ↔
    (∀ d ∈ f.dayOfMonth, (date x).day = d) ∧ ∀ w ∈ f.dayOfWeek, weekday x = w := by
  have hday : f.fields.dayOfMonth = oneOr everyDay (f.dayOfMonth.map fun n : ℕ => .num n) := by
    unfold fields cronFields
    cases f.dayOfMonth <;> rfl
  have hweek : f.fields.dayOfWeek = oneOr everyWeekday (f.dayOfWeek.map fun n : ℕ => .num n) := by
    unfold fields cronFields
    cases f.dayOfWeek <;> rfl
  rw [f.dayFires_map rfl hday hweek]
  apply and_congr
  · simp [OnDayOfMonth]
  · apply forall₂_congr
    intro w hw
    have hlt := f.dayOfWeek_lt w hw
    have hmod : (w : ℤ) % 7 = w := by omega
    simp [OnDayOfWeek, hmod]

theorem converted_dayFires (x : ℤ) : (f.converted shift).DayFires x ↔
    (∀ d ∈ f.dayOfMonth, OnDayOfMonth x (dayAfter (f.days shift) d)) ∧
      ∀ w ∈ f.dayOfWeek, OnDayOfWeek x (weekdayAfter (f.days shift) w) := by
  have hday : (f.converted shift).dayOfMonth =
      oneOr everyDay (f.dayOfMonth.map (dayAfter (f.days shift))) := by
    unfold converted fields cronFields
    cases f.dayOfMonth <;> rfl
  have hweek : (f.converted shift).dayOfWeek =
      oneOr everyWeekday (f.dayOfWeek.map (weekdayAfter (f.days shift))) := by
    unfold converted fields cronFields
    cases f.dayOfWeek <;> rfl
  exact f.dayFires_map rfl hday hweek x

/-- A schedule of one time of the day moves to the same instants when its days move by the
days that the time is carried over. -/
theorem fires_shift_iff_days {h : ℕ} (hhour : f.hour = some h) :
    (∀ t, f.fields.Fires t ↔ (f.converted shift).Fires (t + shift)) ↔
      ∀ x, f.fields.DayFires x ↔ (f.converted shift).DayFires (x + f.days shift) := by
  have hminute := f.minute_lt
  have hlt : h < 24 := f.hour_lt h hhour
  have hdays : f.days shift = (60 * h + f.minute + shift) / 1440 := by
    rw [days, hhour, Option.getD_some]
  have hfires (t : ℤ) : f.fields.Fires t ↔
      t % 60 = f.minute ∧ t / 60 % 24 = h ∧ f.fields.DayFires (t / 1440) := by
    unfold Fires
    simp only [fields, cronFields, cronRange, hhour, List.mem_singleton]
  have hconverted (t : ℤ) : (f.converted shift).Fires t ↔
      t % 60 = (f.minute + shift) % 60 ∧ t / 60 % 24 = (h + (f.minute + shift) / 60) % 24 ∧
        (f.converted shift).DayFires (t / 1440) := by
    unfold Fires
    simp only [converted, fields, cronFields, cronRange, hhour, List.mem_singleton, List.map_cons,
      List.map_nil]
  constructor
  · intro hsame x
    -- The time of the schedule on the day `x`.
    have ht := hsame (1440 * x + 60 * h + f.minute)
    rw [hfires, hconverted] at ht
    have hday : (1440 * x + 60 * h + f.minute) / 1440 = x := by omega
    have hday' : (1440 * x + 60 * h + f.minute + shift) / 1440 = x + f.days shift := by omega
    rw [hday, hday'] at ht
    constructor
    · intro hx
      exact (ht.mp ⟨by omega, by omega, hx⟩).2.2
    · intro hx
      exact (ht.mpr ⟨by omega, by omega, hx⟩).2.2
  · intro hsame t
    rw [hfires, hconverted]
    constructor
    · rintro ⟨hm, hh, hx⟩
      have hday : (t + shift) / 1440 = t / 1440 + f.days shift := by omega
      rw [hday]
      exact ⟨by omega, by omega, (hsame _).mp hx⟩
    · rintro ⟨hm, hh, hx⟩
      have hm' : t % 60 = f.minute := by omega
      have hh' : t / 60 % 24 = h := by omega
      have hday : (t + shift) / 1440 = t / 1440 + f.days shift := by omega
      rw [hday] at hx
      exact ⟨hm', hh', (hsame _).mpr hx⟩

theorem fires_shift_every_hour (hhour : f.hour = none) (hday : f.dayOfMonth = none)
    (hweek : f.dayOfWeek = none) (t : ℤ) :
    f.fields.Fires t ↔ (f.converted shift).Fires (t + shift) := by
  have hminute := f.minute_lt
  have hfields : f.fields.hour = cronRange 0 23 none := by
    rw [fields, cronFields, hhour]
  have hhour : t / 60 % 24 ∈ f.fields.hour := by
    rw [hfields]
    exact mem_cronRange (by omega) (by omega)
  have hhour' : (t + shift) / 60 % 24 ∈ (f.converted shift).hour := by
    -- The hour that is shifted to this one.
    refine List.mem_map.mpr ⟨((t + shift) / 60 - (f.minute + shift) / 60) % 24, ?_, by omega⟩
    rw [hfields]
    exact mem_cronRange (by omega) (by omega)
  have hdays : f.fields.DayFires (t / 1440) ↔ (f.converted shift).DayFires ((t + shift) / 1440) := by
    rw [fields_dayFires, converted_dayFires, hday, hweek]
    simp
  unfold Fires
  rw [hdays]
  simp only [hhour, hhour', true_and]
  apply and_congr_left'
  constructor
  · intro hm
    obtain hm : t % 60 = f.minute := List.mem_singleton.mp hm
    exact List.mem_singleton.mpr (by omega)
  · intro hm
    have hm : (t + shift) % 60 = (f.minute + shift) % 60 := List.mem_singleton.mp hm
    exact List.mem_singleton.mpr (by omega)

/-! ### Days that can be shifted -/

theorem weekdayAfter_iff {w : ℕ} (hw : w < 7) {c : ℤ} (hc : -2 ≤ c ∧ c ≤ 2) :
    (∀ x, weekday x = w ↔ OnDayOfWeek (x + c) (weekdayAfter c w)) ↔
      -1 ≤ (w : ℤ) + c ∧ (w : ℤ) + c ≤ 7 := by
  unfold weekdayAfter OnDayOfWeek weekday
  constructor
  · intro hsame
    -- 1970-01-01 was a Thursday.
    have hx := (hsame (w + 3)).mp (by omega)
    split_ifs at hx <;> dsimp only at hx <;> omega
  · intro hrange x
    split_ifs <;> dsimp only <;> omega

def monthEnds : List ℤ := [57, 58, 59, 60, 118, 119, 120, 789, 790]

theorem dayAfter_differs : ∀ d ∈ List.range' 1 31, ∀ c ∈ [-2, -1, 1, 2],
    ¬ (d ≤ 28 ∧ 0 ≤ (d : ℤ) + c ∧ (d : ℤ) + c ≤ 28) →
      ∃ x ∈ monthEnds, ¬ ((date x).day = d ↔ OnDayOfMonth (x + c) (dayAfter c d)) := by
  decide +kernel

theorem dayAfter_iff {d : ℕ} (hd : 1 ≤ d ∧ d ≤ 31) {c : ℤ} (hc : -2 ≤ c ∧ c ≤ 2) :
    (∀ x, (date x).day = d ↔ OnDayOfMonth (x + c) (dayAfter c d)) ↔
      c = 0 ∨ d ≤ 28 ∧ 0 ≤ (d : ℤ) + c ∧ (d : ℤ) + c ≤ 28 := by
  constructor
  · intro hsame
    by_contra hnot
    push Not at hnot
    have hmem : c ∈ [-2, -1, 1, (2 : ℤ)] := by
      simp only [List.mem_cons, List.not_mem_nil, or_false]
      omega
    obtain ⟨x, -, hx⟩ := dayAfter_differs d (List.mem_range'_1.mpr (by omega)) c hmem (by omega)
    exact hx (hsame x)
  · intro hrange x
    by_cases hzero : (d : ℤ) + c = 0
    · -- The day before the first one of a month is the last one of the month before.
      have hlast : dayAfter c d = lastDay := by
        rw [dayAfter, if_neg (by omega), if_pos (by omega)]
      have hfirst := day_shift_iff x (c := c + 1) (d := d) (e := 1) (by omega) (by omega) (by omega)
      rw [hlast, ← hfirst, ← add_assoc, ← isLastDay_iff]
      simp [OnDayOfMonth, lastDay]
    · have hnum : dayAfter c d = .num (d + c) := by
        rw [dayAfter, if_neg (by omega), if_neg (by omega)]
      rw [hnum]
      change _ ↔ ((date (x + c)).day : ℤ) = d + c
      rcases hrange with rfl | hrange
      · simp
      · have hshift := day_shift_iff x (c := c) (d := d) (e := ((d : ℤ) + c).toNat) (by omega)
          (by omega) (by omega)
        rw [← hshift]
        omega

/-! ### What is written -/

theorem converted_valid : (f.converted shift).Valid where
  minute := by
    apply Lists.singleton
    omega
  hour := by
    apply lists_map_shift (by decide)
    unfold fields cronFields
    cases hhour : f.hour with
    | none =>
      change Lists _ (cronRange 0 23 none)
      decide
    | some h =>
      have hlt := f.hour_lt h hhour
      apply Lists.singleton
      omega
  dayOfMonth := by
    unfold converted fields cronFields
    cases f.dayOfMonth with
    | none =>
      change Lists _ everyDay
      decide
    | some d =>
      change Lists _ [dayAfter (f.days shift) d]
      apply Lists.singleton
      unfold dayAfter
      split_ifs
      · exact ⟨le_refl 1, by decide⟩
      · exact rfl
      · exact ⟨by omega, by omega⟩
  month := by
    change Lists _ (cronRange 1 12 none)
    decide
  dayOfWeek := by
    unfold converted fields cronFields
    cases f.dayOfWeek with
    | none =>
      change Lists _ everyWeekday
      decide
    | some w =>
      change Lists _ [weekdayAfter (f.days shift) w]
      apply Lists.singleton
      unfold weekdayAfter
      split_ifs
      · exact ⟨le_refl 0, by decide⟩
      · exact ⟨by decide, by decide⟩
      · exact ⟨by omega, by omega⟩
  explicitDays := by
    intro month _ hone
    cases hone

theorem cronConverter_eq {lib : CronParser} (h : lib.Documented) {expression : GoString}
    (hread : lib.parseExpression expression = some f.fields) (source target : FixedZone) :
    ∃ s g, cronConverter lib expression source target = some s ∧
      lib.parseExpression s = some g ∧
      ∀ t, g.Fires t ↔ (f.converted (target.offset - source.offset)).Fires t := by
  obtain ⟨s, g, hwrite, hparse, hsame⟩ :=
    h.stringify_valid _ (f.converted_valid (target.offset - source.offset))
  refine ⟨s, g, ?_, hparse, hsame.same.fires⟩
  simp only [cronConverter, hread, bind, Option.bind, f.convertFields_eq, hwrite]

end SimpleFields

namespace TimeProps

variable (timeProps : TimeProps)

def simpleFields : SimpleFields where
  minute := timeProps.minute
  hour := timeProps.hourField
  dayOfMonth := timeProps.dayField
  dayOfWeek := timeProps.weekField
  minute_lt := timeProps.minute_lt
  hour_lt n hn := by
    have hlt := timeProps.hour24_lt
    unfold hourField at hn
    split at hn
    · cases hn
    · cases hn
      exact hlt
  dayOfMonth_range n hn := by
    have hrange := timeProps.onDay_range
    unfold dayField at hn
    split at hn
    · cases hn
      exact hrange
    · cases hn
  dayOfWeek_lt n hn := by
    have hlt := timeProps.weekDay.index_lt
    unfold weekField at hn
    split at hn
    · cases hn
      exact hlt
    · cases hn
  one_day := by
    unfold dayField weekField
    cases timeProps.selectedTime <;> simp

def carriedDays (source target : FixedZone) : ℤ :=
  (60 * timeProps.hour24 + timeProps.minute + (target.offset - source.offset)) / 1440

/-- The weekday stays within a day of the week, and the day of the month stays up to the 28th
or becomes the last one of the month before. -/
def DaysShift (days : ℤ) : Prop :=
  match timeProps.selectedTime with
  | .hours => True
  | .days => True
  | .weeks => -1 ≤ timeProps.weekDay.index + days ∧ timeProps.weekDay.index + days ≤ 7
  | .months =>
    days = 0 ∨ timeProps.onDay ≤ 28 ∧ 0 ≤ timeProps.onDay + days ∧ timeProps.onDay + days ≤ 28

instance (days : ℤ) : Decidable (timeProps.DaysShift days) := by
  unfold DaysShift
  split <;> infer_instance

theorem carriedDays_range (source target : FixedZone) :
    -2 ≤ timeProps.carriedDays source target ∧ timeProps.carriedDays source target ≤ 2 := by
  have hsource := source.within_day
  have htarget := target.within_day
  have hminute := timeProps.minute_lt
  have hhour := timeProps.hour24_lt
  unfold carriedDays
  omega

theorem fires_converted_iff_days (source target : FixedZone)
    (hselected : timeProps.selectedTime ≠ .hours) :
    (∀ t, timeProps.simpleFields.fields.Fires t ↔
        (timeProps.simpleFields.converted (target.offset - source.offset)).Fires
          (t + (target.offset - source.offset))) ↔
      ∀ x, ((∀ d ∈ timeProps.dayField, (date x).day = d) ∧
          ∀ w ∈ timeProps.weekField, weekday x = w) ↔
        ((∀ d ∈ timeProps.dayField, OnDayOfMonth (x + timeProps.carriedDays source target)
            (SimpleFields.dayAfter (timeProps.carriedDays source target) d)) ∧
          ∀ w ∈ timeProps.weekField, OnDayOfWeek (x + timeProps.carriedDays source target)
            (SimpleFields.weekdayAfter (timeProps.carriedDays source target) w)) := by
  have hhour : timeProps.simpleFields.hour = some timeProps.hour24 := if_neg hselected
  have hcarried : timeProps.simpleFields.days (target.offset - source.offset) =
      timeProps.carriedDays source target := by
    rw [SimpleFields.days, hhour]
    rfl
  rw [SimpleFields.fires_shift_iff_days _ _ hhour]
  apply forall_congr'
  intro x
  rw [SimpleFields.fields_dayFires, SimpleFields.converted_dayFires, hcarried]
  rfl

theorem fires_converted_iff (source target : FixedZone) :
    (∀ t, timeProps.simpleFields.fields.Fires t ↔
        (timeProps.simpleFields.converted (target.offset - source.offset)).Fires
          (t + (target.offset - source.offset))) ↔
      timeProps.DaysShift (timeProps.carriedDays source target) := by
  have hc := timeProps.carriedDays_range source target
  cases hselected : timeProps.selectedTime with
  | hours =>
    have hfires := SimpleFields.fires_shift_every_hour timeProps.simpleFields
      (target.offset - source.offset) (by simp [simpleFields, hourField, hselected])
      (by simp [simpleFields, dayField, hselected]) (by simp [simpleFields, weekField, hselected])
    simp [DaysShift, hselected, hfires]
  | days =>
    rw [fires_converted_iff_days _ _ _ (by simp [hselected])]
    simp [DaysShift, dayField, weekField, hselected]
  | weeks =>
    rw [fires_converted_iff_days _ _ _ (by simp [hselected])]
    have hweek := SimpleFields.weekdayAfter_iff timeProps.weekDay.index_lt hc
    simpa [DaysShift, dayField, weekField, hselected] using hweek
  | months =>
    rw [fires_converted_iff_days _ _ _ (by simp [hselected])]
    have hmonth := SimpleFields.dayAfter_iff timeProps.onDay_range hc
    simpa [DaysShift, dayField, weekField, hselected] using hmonth

/-- A schedule of the form fires at the same instants in another zone if and only if its
days can be shifted by the days that its time is carried over. -/
theorem converted_same_instants_iff {cronTime : CronTime} (hcronTime : cronTime.Documented)
    {lib : CronParser} (h : lib.Documented) (source target : FixedZone) :
    ∃ converted, cronConverter lib (timeProps.getCronExpressionFromFormValues cronTime) source
        target = some converted ∧
      ((∀ t, lib.FiresAt (timeProps.getCronExpressionFromFormValues cronTime) source.offset t ↔
          lib.FiresAt converted target.offset t) ↔
        timeProps.DaysShift (timeProps.carriedDays source target)) := by
  have hread : lib.parseExpression (timeProps.getCronExpressionFromFormValues cronTime) =
      some timeProps.simpleFields.fields := by
    rw [getCronExpressionFromFormValues_eq timeProps hcronTime]
    exact h.parse_cronExpression _ _ _ _
      (fun n hn => Option.some.inj hn ▸ timeProps.simpleFields.minute_lt)
      timeProps.simpleFields.hour_lt timeProps.simpleFields.dayOfMonth_range
      timeProps.simpleFields.dayOfWeek_lt
  obtain ⟨converted, g, hconverted, hparse, hsame⟩ :=
    timeProps.simpleFields.cronConverter_eq h hread source target
  refine ⟨converted, hconverted, ?_⟩
  rw [← timeProps.fires_converted_iff source target]
  simp only [CronParser.firesAt_iff hread, CronParser.firesAt_iff hparse, hsame]
  constructor
  · intro hall t
    have ht := hall (t - source.offset)
    rw [sub_add_cancel, show t - source.offset + target.offset =
      t + (target.offset - source.offset) by omega] at ht
    exact ht
  · intro hall t
    have ht := hall (t + source.offset)
    rw [show t + source.offset + (target.offset - source.offset) = t + target.offset by omega] at ht
    exact ht

def pastMidnight (selectedTime : TimeValue) : TimeProps where
  selectedTime
  minute := 30
  hour := 12
  amPm := .AM
  onDay := 31
  weekDay := .Sa
  minute_offered := by decide
  hour_offered := by decide
  onDay_offered := by decide

def oneHourAhead : FixedZone := ⟨60, by decide⟩

def sampleCronTime : CronTime where
  everyHourAt minute := cronExpression (some minute) none none none
  everyDayAt hour minute := cronExpression (some minute) (some hour) none none
  onSpecificDaysAt days hour minute :=
    let names := [.Su, .Mo, .Tu, .We, .Th, .Fr, .Sa].map WeekDays.value
    GoString.join 32 [cronText (some minute), cronText (some hour), ascii "*", ascii "*",
      GoString.join 44 (days.map fun day => cronText (some (names.idxOf day)))]
  everyMonthOn day hour minute := cronExpression (some minute) (some hour) (some day) none

theorem sampleCronTime_documented : sampleCronTime.Documented where
  everyHourAt_eq _ _ := rfl
  everyDayAt_eq _ _ _ _ := rfl
  onSpecificDaysAt_eq weekDay hour _ minute _ := by
    cases weekDay <;> rfl
  everyMonthOn_eq _ _ _ _ _ _ _ := rfl

theorem converted_same_instants_iff_sample :
    ∃ converted, cronConverter listParser
        ((pastMidnight .weeks).getCronExpressionFromFormValues sampleCronTime) oneHourAhead .utc =
          some converted ∧
      ∀ t, listParser.FiresAt
          ((pastMidnight .weeks).getCronExpressionFromFormValues sampleCronTime) 60 t ↔
        listParser.FiresAt converted 0 t := by
  obtain ⟨converted, hconverted, hiff⟩ := converted_same_instants_iff (pastMidnight .weeks)
    sampleCronTime_documented listParser_documented oneHourAhead .utc
  exact ⟨converted, hconverted, hiff.mpr (by decide)⟩

/-- The 31st becomes the 30th, on which April ends. -/
theorem monthly_fires_in_april :
    ∃ converted, cronConverter listParser
        ((pastMidnight .months).getCronExpressionFromFormValues sampleCronTime) oneHourAhead .utc =
          some converted ∧
      ¬ ∀ t, listParser.FiresAt
          ((pastMidnight .months).getCronExpressionFromFormValues sampleCronTime) 60 t ↔
        listParser.FiresAt converted 0 t := by
  refine ⟨ascii "30 23 30 * *", by decide +kernel, ?_⟩
  intro hsame
  -- 23:30 of 1970-04-30.
  have hapril := hsame (1440 * 119 + 1410)
  revert hapril
  decide +kernel

end TimeProps

end OpenEverest.Ui
