import OpenEverest.Framework.Cron

/-!
# Schedules in another time zone

The UI reads schedules in UTC and shows them in the browser's time zone, which is the same
number of minutes ahead of UTC all year. The conversion shifts the numbers of each field.
-/

namespace OpenEverest.Ui

open Framework CronFields

/-- A time zone of a fixed offset, in minutes ahead of UTC. -/
structure FixedZone where
  offset : ℤ
  within_day : -1440 < offset ∧ offset < 1440

def FixedZone.utc : FixedZone := ⟨0, by decide⟩

structure TimeShift where
  hours : ℤ
  minutes : ℤ
  days : ℤ
  deriving DecidableEq

/-- `%` has the sign of the dividend. -/
def getDaysHoursMinutes (hour minute timeZoneOffset : ℤ) : TimeShift :=
  let minutes := hour * 60 + minute
  let newMinutes := minutes + timeZoneOffset
  let diffHour := (newMinutes / 60).tmod 24 - hour
  let diffMinutes := newMinutes.tmod 60 - minute
  let diffDays := newMinutes / (60 * 24)
  { hours := diffHour, minutes := diffMinutes, days := diffDays }

def addHours (hours : List ℤ) (hour : ℤ) : List ℤ :=
  hours.map fun n =>
    let h := n + hour
    if h > 23 then h - 24 else if h < 0 then h + 24 else h

def addMinutes (minutes : List ℤ) (minute : ℤ) : List ℤ :=
  minutes.map fun n =>
    let m := n + minute
    if m > 59 then m - 60 else if m < 0 then m + 60 else m

def intText (n : ℤ) : GoString :=
  if n < 0 then ascii "-" ++ GoString.decimal n.natAbs else GoString.decimal n.natAbs

def addDayOfMonth (dayOfMonth : List CronValue) (day : ℤ) : List CronValue :=
  if dayOfMonth.length > 30 then dayOfMonth
  else dayOfMonth.map fun
    | .num n =>
      let d := n + day
      if d > 31 then .num 1 else if d < 1 then lastDay else .num d
    | .text s => if .text s = lastDay then .num 1 else .text (s ++ intText day)

def addDayOfWeek (dayOfWeek : List CronValue) (day : ℤ) : List CronValue :=
  if dayOfWeek.length > 6 then dayOfWeek
  else dayOfWeek.map fun
    | .num n =>
      let d := n + day
      if d > 6 then .num 0 else if d < 0 then .num 6 else .num d
    | .text s => .text (s ++ intText day)

def addMonth (month : List ℤ) (mon : ℤ) : List ℤ :=
  if month.length > 11 then month
  else month.map fun n =>
    let m := n + mon
    if m > 12 then 1 else if m < 1 then 12 else m

/-- The fields that `cronConverter` writes. -/
def convertFields (fields : CronFields) (timeZoneOffsetMin : ℤ) : CronFields :=
  let c := getDaysHoursMinutes (fields.hour.headD 0) (fields.minute.headD 0) timeZoneOffsetMin
  { minute := addMinutes fields.minute c.minutes
    hour := addHours fields.hour c.hours
    month :=
      if .num 1 ∈ fields.dayOfMonth ∧ c.days = -1 ∨ .num 31 ∈ fields.dayOfMonth ∧ c.days = 1 then
        addMonth fields.month c.days
      else fields.month
    dayOfMonth := addDayOfMonth fields.dayOfMonth c.days
    dayOfWeek := addDayOfWeek fields.dayOfWeek c.days }

/-- None where an error is thrown. -/
def cronConverter (lib : CronParser) (cronExpression : GoString)
    (originalTimeZone targetTimeZone : FixedZone) : Option GoString := do
  let fields ← lib.parseExpression cronExpression
  let converted := convertFields fields (targetTimeZone.offset - originalTimeZone.offset)
  match lib.stringify converted with
  | .ok expression => some expression
  | .error message =>
    if GoString.contains message (ascii "Invalid explicit day of month definition") then
      (lib.stringify { converted with
        dayOfMonth := [.num 1], month := addMonth converted.month 1 }).toOption
    else some cronExpression

theorem tmod_cases (n m : ℤ) (hm : 0 < m) : n.tmod m = n % m ∨ n.tmod m = n % m - m := by
  rw [Int.tmod_eq_emod]
  split
  · exact Or.inl (Int.sub_zero _)
  · right
    omega

theorem getDaysHoursMinutes_days (hour minute timeZoneOffset : ℤ) :
    (getDaysHoursMinutes hour minute timeZoneOffset).days =
      (60 * hour + minute + timeZoneOffset) / 1440 := by
  simp only [getDaysHoursMinutes]
  omega

/-- The hours are shifted by that of the first time, around the clock. -/
theorem addHours_eq {hours : List ℤ} {hour : ℤ} (hfirst : ∀ n ∈ hours, hour ≤ n ∧ n < 24)
    (hpos : 0 ≤ hour) (minute timeZoneOffset : ℤ) :
    addHours hours (getDaysHoursMinutes hour minute timeZoneOffset).hours =
      hours.map fun n => (n + (minute + timeZoneOffset) / 60) % 24 := by
  apply List.map_congr_left
  intro n hn
  obtain ⟨hle, hlt⟩ := hfirst n hn
  have hcases := tmod_cases ((hour * 60 + minute + timeZoneOffset) / 60) 24 (by omega)
  simp only [getDaysHoursMinutes]
  split_ifs <;> omega

theorem addMinutes_eq {minutes : List ℤ} {minute : ℤ} (hfirst : ∀ n ∈ minutes, minute ≤ n ∧ n < 60)
    (hpos : 0 ≤ minute) (hour timeZoneOffset : ℤ) :
    addMinutes minutes (getDaysHoursMinutes hour minute timeZoneOffset).minutes =
      minutes.map fun n => (n + timeZoneOffset) % 60 := by
  apply List.map_congr_left
  intro n hn
  obtain ⟨hle, hlt⟩ := hfirst n hn
  have hcases := tmod_cases (hour * 60 + minute + timeZoneOffset) 60 (by omega)
  simp only [getDaysHoursMinutes]
  split_ifs <;> omega

/-- A shift around a clock of `m` hours or minutes is undone by the shift back. -/
theorem shift_back {m n : ℤ} (h : 0 ≤ n ∧ n < m) (k : ℤ) : ((n + k) % m + -k) % m = n := by
  rw [Int.emod_add_emod, add_neg_cancel_right, Int.emod_eq_of_lt h.1 h.2]

theorem lists_map_shift {m : ℤ} (hm : 0 < m) {l : List ℤ} (h : Lists (fun n => 0 ≤ n ∧ n < m) l)
    (k : ℤ) : Lists (fun n => 0 ≤ n ∧ n < m) (l.map fun n => (n + k) % m) := by
  apply h.map_of_back fun n => (n + -k) % m
  · intro n _
    exact ⟨Int.emod_nonneg _ (ne_of_gt hm), Int.emod_lt_of_pos _ hm⟩
  · intro n hn
    exact shift_back (h.2.2 n hn) k

theorem map_shift_back {m : ℤ} {l : List ℤ} (h : ∀ n ∈ l, 0 ≤ n ∧ n < m) (k : ℤ) :
    (l.map fun n => (n + k) % m).map (fun n => (n + -k) % m) = l :=
  map_map_back fun n hn => shift_back (h n hn) k

end OpenEverest.Ui
