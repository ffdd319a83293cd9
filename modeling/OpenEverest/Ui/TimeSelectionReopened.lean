import OpenEverest.Framework.Quantity
import OpenEverest.Ui.ScheduleEdits
import OpenEverest.Ui.TimeSelection

/-!
# A schedule opened again

The form for a schedule is filled in from the expression of the schedule, as it is shown in the
browser's time zone. An expression that was saved from the form comes back through two
conversions, and is then split at its spaces and read number by number.
-/

namespace OpenEverest.Ui

open Framework CronFields JsString

/-! ### Reading an expression -/

/-- `cron.replace(/\s+/g, ' ')`; the flag says whether white space comes just before. -/
def replaceSpaces : Bool → JsString → JsString
  | _, [] => []
  | after, c :: s =>
    if isSpace c then if after then replaceSpaces true s else 32 :: replaceSpaces true s
    else c :: replaceSpaces false s

def cronParts (cron : JsString) : List JsString := (trim (replaceSpaces false cron)).splitOn 32

/-- What the form is filled in with; a weekday that does not exist is undefined. -/
structure TimeSelectionValues where
  selectedTime : TimeValue
  minute : JsNumber
  hour : JsNumber
  amPm : AmPM
  weekDay : Option WeekDays
  onDay : JsNumber
  deriving DecidableEq

def TIME_SELECTION_DEFAULTS : TimeSelectionValues where
  selectedTime := .days
  minute := .ofInt 0
  hour := .ofInt 1
  amPm := .AM
  weekDay := some .Mo
  onDay := .ofInt 1

/-- The operator `%` with 12 on the right, which has the sign of the dividend. -/
def modTwelve : JsNumber → JsNumber
  | .finite q => .finite (if q < 0 then q - 12 * ⌈q / 12⌉ else q - 12 * ⌊q / 12⌋)
  | _ => .nan

def getAmPm (hour : JsNumber) : AmPM :=
  if JsNumber.lt (.ofInt 12) hour || JsNumber.equal hour (.ofInt 12) then .PM else .AM

def getHour12 (hour24 : JsNumber) : JsNumber :=
  if JsNumber.equal hour24 (.ofInt 12) || JsNumber.equal hour24 (.ofInt 0) then .ofInt 12
  else modTwelve hour24

/-- `Object.values(WeekDays)[weekDay]`. -/
def getWeekDayByNumber : JsNumber → Option WeekDays
  | .finite q =>
    if q.den = 1 ∧ 0 ≤ q.num then [.Su, .Mo, .Tu, .We, .Th, .Fr, .Sa][q.num.toNat]? else none
  | _ => none

def getSelectedTime (hour dayOfMonth dayOfWeek : JsNumber) : TimeValue :=
  if dayOfMonth ≠ .nan then .months
  else if dayOfWeek ≠ .nan then .weeks
  else if hour ≠ .nan then .days
  else .hours

def getFormValuesFromCronExpression (round : ℚ → JsNumber) (cron : JsString) :
    TimeSelectionValues :=
  match cronParts cron with
  | [first, second, third, _, fifth] =>
    let minute := toNumber round first
    let hour := toNumber round second
    let dayOfMonth := toNumber round third
    let dayOfWeek := toNumber round fifth
    { minute := if minute ≠ .nan then minute else .ofInt 0
      hour := if hour ≠ .nan then getHour12 hour else .ofInt 12
      amPm := if hour ≠ .nan then getAmPm hour else .AM
      onDay := if dayOfMonth ≠ .nan then dayOfMonth else .ofInt 1
      weekDay := if dayOfWeek ≠ .nan then getWeekDayByNumber dayOfWeek else some .Mo
      selectedTime := getSelectedTime hour dayOfMonth dayOfWeek }
  | _ => TIME_SELECTION_DEFAULTS

example : (getFormValuesFromCronExpression .finite (js " 5  14 * * 2")).weekDay = some .Tu := by
  decide +kernel

/-! ### Expressions of single values -/

structure PlainFields where
  minute : ℕ
  hour : Option ℕ
  dayOfMonth : Option CronValue
  dayOfWeek : Option ℕ

namespace PlainFields

variable (f : PlainFields)

structure InRange : Prop where
  minute : f.minute < 60
  hour : ∀ n ∈ f.hour, n < 24
  dayOfMonth : ∀ v ∈ f.dayOfMonth, IsDayOfMonth v
  dayOfWeek : ∀ n ∈ f.dayOfWeek, n < 7

def fields : CronFields where
  minute := [f.minute]
  hour := cronRange 0 23 f.hour
  dayOfMonth := SimpleFields.oneOr everyDay f.dayOfMonth
  month := cronRange 1 12 none
  dayOfWeek := (cronRange 0 7 f.dayOfWeek).map .num

def dayText : Option CronValue → GoString
  | none => ascii "*"
  | some v => valueText v

def text : GoString :=
  GoString.join 32 [GoString.decimal f.minute, cronText f.hour, dayText f.dayOfMonth, ascii "*",
    cronText f.dayOfWeek]

end PlainFields

/-- Expressions of single values and of `*` are read as they are, and are what such fields are
written as, whatever the order of the hours. -/
structure WritesPlainly (lib : CronParser) : Prop where
  parse : ∀ f : PlainFields, f.InRange → lib.parseExpression f.text = some f.fields
  stringify : ∀ f : PlainFields, f.InRange → ∀ hours : List ℤ, hours.Perm f.fields.hour →
    lib.stringify { f.fields with hour := hours } = .ok f.text

namespace PlainFields

variable (f : PlainFields) (shift : ℤ)

def days : ℤ := (60 * f.hour.getD 0 + f.minute + shift) / 1440

def moveDay (days : ℤ) : CronValue → CronValue
  | .num n => if n + days > 31 then .num 1 else if n + days < 1 then lastDay else .num (n + days)
  | .text _ => .num 1

def moveWeekday (days : ℤ) (w : ℕ) : ℕ :=
  if (w : ℤ) + days > 6 then 0 else if (w : ℤ) + days < 0 then 6 else ((w : ℤ) + days).toNat

def converted : PlainFields where
  minute := ((f.minute + shift) % 60).toNat
  hour := f.hour.map fun h : ℕ => ((h + (f.minute + shift) / 60) % 24).toNat
  dayOfMonth := f.dayOfMonth.map (moveDay (f.days shift))
  dayOfWeek := f.dayOfWeek.map (moveWeekday (f.days shift))

variable {f}

theorem addDayOfMonth_eq (hf : f.InRange) (days : ℤ) :
    addDayOfMonth f.fields.dayOfMonth days =
      SimpleFields.oneOr everyDay (f.dayOfMonth.map (moveDay days)) := by
  change addDayOfMonth (SimpleFields.oneOr everyDay f.dayOfMonth) days = _
  cases hday : f.dayOfMonth with
  | none => rfl
  | some v =>
    have hv := hf.dayOfMonth v hday
    cases v with
    | num n => rfl
    | text s =>
      have hlast : CronValue.text s = lastDay := hv
      change [if _ then _ else _] = _
      rw [if_pos hlast]
      rfl

theorem addDayOfWeek_eq (days : ℤ) :
    addDayOfWeek f.fields.dayOfWeek days =
      (cronRange 0 7 (f.dayOfWeek.map (moveWeekday days))).map .num := by
  change addDayOfWeek ((cronRange 0 7 f.dayOfWeek).map .num) days = _
  cases f.dayOfWeek with
  | none => rfl
  | some w =>
    change [if _ then _ else if _ then _ else _] = [CronValue.num (moveWeekday days w : ℕ)]
    unfold moveWeekday
    split_ifs with hhigh hlow
    · rfl
    · rfl
    · rw [Int.toNat_of_nonneg (by omega)]

theorem hours_perm :
    (f.fields.hour.map fun n => (n + (f.minute + shift) / 60) % 24).Perm
      (f.converted shift).fields.hour := by
  change ((cronRange 0 23 f.hour).map fun n => (n + (f.minute + shift) / 60) % 24).Perm
    (cronRange 0 23 (f.hour.map fun h : ℕ => ((h + (f.minute + shift) / 60) % 24).toNat))
  cases hhour : f.hour with
  | none =>
    have hevery : Lists (fun n => 0 ≤ n ∧ n < 24) (cronRange 0 23 none) := by decide
    exact every_hour (lists_map_shift (by decide) hevery _) rfl
  | some h =>
    have hpos : 0 ≤ ((h : ℤ) + (f.minute + shift) / 60) % 24 := Int.emod_nonneg _ (by decide)
    simp only [cronRange, Option.map_some, List.map_cons, List.map_nil, Int.toNat_of_nonneg hpos]
    exact .refl _

theorem hour_first (hf : f.InRange) :
    ∀ n ∈ f.fields.hour, f.fields.hour.headD 0 ≤ n ∧ n < 24 := by
  change ∀ n ∈ cronRange 0 23 f.hour, (cronRange 0 23 f.hour).headD 0 ≤ n ∧ n < 24
  cases hhour : f.hour with
  | none => decide
  | some h =>
    intro n hn
    have hlt := hf.hour h hhour
    obtain rfl : n = h := List.mem_singleton.mp hn
    exact ⟨le_refl _, by exact_mod_cast hlt⟩

theorem head_hour : f.fields.hour.headD 0 = (f.hour.getD 0 : ℕ) := by
  change (cronRange 0 23 f.hour).headD 0 = _
  cases f.hour <;> rfl

theorem convertFields_eq (hf : f.InRange) :
    ∃ hours : List ℤ, hours.Perm (f.converted shift).fields.hour ∧
      convertFields f.fields shift = { (f.converted shift).fields with hour := hours } := by
  refine ⟨_, hours_perm shift, ?_⟩
  have hminute : ∀ n ∈ f.fields.minute, (f.minute : ℤ) ≤ n ∧ n < 60 := by
    intro n hn
    have hlt := hf.minute
    obtain rfl : n = f.minute := List.mem_singleton.mp hn
    exact ⟨le_refl _, by exact_mod_cast hlt⟩
  have hzero : (0 : ℤ) ≤ f.fields.hour.headD 0 := by
    rw [head_hour]
    exact Int.natCast_nonneg _
  have hevery (mon : ℤ) : addMonth (cronRange 1 12 none) mon = cronRange 1 12 none := rfl
  have hmonth : f.fields.month = cronRange 1 12 none := rfl
  have hdays : (getDaysHoursMinutes (f.fields.hour.headD 0) f.minute shift).days = f.days shift := by
    rw [getDaysHoursMinutes_days, head_hour, days]
  have hpos : 0 ≤ ((f.minute : ℤ) + shift) % 60 := Int.emod_nonneg _ (by decide)
  unfold convertFields
  have hhead : f.fields.minute.headD 0 = f.minute := rfl
  simp only [hhead, hmonth, hevery, ite_self, hdays, addDayOfMonth_eq hf, addDayOfWeek_eq]
  rw [addHours_eq (hour_first hf) hzero, addMinutes_eq hminute (Int.natCast_nonneg _)]
  simp only [converted, fields, List.map_cons, List.map_nil, Int.toNat_of_nonneg hpos]

theorem isDayOfMonth_moveDay {v : CronValue} (hv : IsDayOfMonth v) (days : ℤ) :
    IsDayOfMonth (moveDay days v) := by
  cases v with
  | num n =>
    simp only [moveDay]
    split_ifs with hhigh hlow
    · exact ⟨le_refl 1, by decide⟩
    · exact rfl
    · exact ⟨by omega, by omega⟩
  | text s => exact ⟨le_refl 1, by decide⟩

theorem moveWeekday_lt (days : ℤ) (w : ℕ) : moveWeekday days w < 7 := by
  unfold moveWeekday
  split_ifs <;> omega

theorem InRange.converted (hf : f.InRange) : (f.converted shift).InRange where
  minute := by
    change ((f.minute + shift : ℤ) % 60).toNat < 60
    omega
  hour n hn := by
    obtain ⟨h, -, rfl⟩ := Option.mem_map.mp hn
    omega
  dayOfMonth v hv := by
    obtain ⟨w, hw, rfl⟩ := Option.mem_map.mp hv
    exact isDayOfMonth_moveDay (hf.dayOfMonth w hw) _
  dayOfWeek n hn := by
    obtain ⟨w, -, rfl⟩ := Option.mem_map.mp hn
    exact moveWeekday_lt _ w

theorem cronConverter_text {lib : CronParser} (hlib : WritesPlainly lib) (hf : f.InRange)
    (source target : FixedZone) :
    cronConverter lib f.text source target =
      some (f.converted (target.offset - source.offset)).text := by
  obtain ⟨hours, hperm, heq⟩ := convertFields_eq (target.offset - source.offset) hf
  have hwrite := hlib.stringify _ (hf.converted (target.offset - source.offset)) hours hperm
  simp only [cronConverter, hlib.parse f hf, bind, Option.bind, heq, hwrite]

/-! ### There and back -/

theorem converted_time (hf : f.InRange) :
    ((f.converted shift).converted (-shift)).minute = f.minute ∧
      ((f.converted shift).converted (-shift)).hour = f.hour ∧
      (∀ h ∈ f.hour, (f.converted shift).days (-shift) = -f.days shift) := by
  have hminute := hf.minute
  refine ⟨?_, ?_, fun h hh => ?_⟩
  · simp only [converted]
    omega
  · cases hhour : f.hour with
    | none => simp [converted, hhour]
    | some h =>
      have hlt := hf.hour h hhour
      simp only [converted, hhour, Option.map_some, Option.some.injEq]
      omega
  · have hlt := hf.hour h hh
    have hhour : f.hour = some h := hh
    simp only [days, converted, hhour, Option.map_some, Option.getD_some]
    omega

theorem converted_back (hf : f.InRange) {h : ℕ} (hh : f.hour = some h) :
    (f.converted shift).converted (-shift) =
      { f with
        dayOfMonth := f.dayOfMonth.map fun v => moveDay (-f.days shift) (moveDay (f.days shift) v)
        dayOfWeek := f.dayOfWeek.map fun w =>
          moveWeekday (-f.days shift) (moveWeekday (f.days shift) w) } := by
  obtain ⟨hminute, hhour, hdays⟩ := converted_time shift hf
  have hback := hdays h hh
  rw [show (f.converted shift).converted (-shift) =
    { minute := ((f.converted shift).converted (-shift)).minute
      hour := ((f.converted shift).converted (-shift)).hour
      dayOfMonth := (f.dayOfMonth.map (moveDay (f.days shift))).map
        (moveDay ((f.converted shift).days (-shift)))
      dayOfWeek := (f.dayOfWeek.map (moveWeekday (f.days shift))).map
        (moveWeekday ((f.converted shift).days (-shift))) } from rfl,
    hminute, hhour, hback, Option.map_map, Option.map_map]
  rfl

def dayBack (days : ℤ) (d : ℕ) : CronValue :=
  if (d : ℤ) + days > 31 then lastDay else if (d : ℤ) + days < 1 then .num 1 else .num d

theorem moveDay_back {d : ℕ} (hd : 1 ≤ d ∧ d ≤ 31) {days : ℤ} (hdays : -2 ≤ days ∧ days ≤ 2) :
    moveDay (-days) (moveDay days (.num d)) = dayBack days d := by
  have hmoved : moveDay days (.num d) =
      if (d : ℤ) + days > 31 then .num 1 else if (d : ℤ) + days < 1 then lastDay
        else .num (d + days) := rfl
  have hback (n : ℤ) : moveDay (-days) (.num n) =
      if n + -days > 31 then .num 1 else if n + -days < 1 then lastDay else .num (n + -days) := rfl
  rw [hmoved, dayBack]
  split_ifs with hhigh hlow
  · rw [hback, if_neg (by omega), if_pos (by omega)]
  · rfl
  · rw [hback, if_neg (by omega), if_neg (by omega), add_neg_cancel_right]

def weekdayBack (days : ℤ) (w : ℕ) : ℕ :=
  if (w : ℤ) + days > 6 then 6 else if (w : ℤ) + days < 0 then 0 else w

theorem moveWeekday_back {w : ℕ} (hw : w < 7) {days : ℤ} (hdays : -2 ≤ days ∧ days ≤ 2) :
    moveWeekday (-days) (moveWeekday days w) = weekdayBack days w := by
  unfold moveWeekday weekdayBack
  split_ifs <;> omega

end PlainFields

/-! ### The values of plain fields -/

def asciiUnits (s : GoString) : JsString := s.map fun b => b.toNat.toUInt16

section Words

theorem replaceSpaces_words {word rest : JsString} (hword : ∀ c ∈ word, isSpace c = false)
    (hne : word ≠ []) (after : Bool) :
    replaceSpaces after (word ++ rest) = word ++ replaceSpaces false rest := by
  induction word generalizing after with
  | nil => exact absurd rfl hne
  | cons c word ih =>
    have hc : isSpace c = false := hword c List.mem_cons_self
    rw [List.cons_append, replaceSpaces, if_neg (by simp [hc]), List.cons_append]
    cases word with
    | nil => rfl
    | cons d word =>
      rw [ih (fun e he => hword e (List.mem_cons_of_mem c he)) (List.cons_ne_nil _ _)]

theorem replaceSpaces_intercalate {words : List JsString}
    (hwords : ∀ w ∈ words, w ≠ [] ∧ ∀ c ∈ w, isSpace c = false) (after : Bool) :
    replaceSpaces after ([32].intercalate words) = [32].intercalate words := by
  induction words generalizing after with
  | nil => rfl
  | cons w words ih =>
    obtain ⟨hne, hw⟩ := hwords w List.mem_cons_self
    have hrest := ih (fun v hv => hwords v (List.mem_cons_of_mem w hv)) true
    cases words with
    | nil =>
      have hone : replaceSpaces after (w ++ []) = w ++ replaceSpaces false [] :=
        replaceSpaces_words hw hne after
      simpa [replaceSpaces] using hone
    | cons v words =>
      rw [List.intercalate_cons_cons, List.append_assoc, replaceSpaces_words hw hne]
      change w ++ (32 :: replaceSpaces true ([32].intercalate (v :: words))) = _
      rw [hrest, List.singleton_append]

theorem intercalate_last (sep : JsString) {words : List JsString} (hne : words ≠ []) :
    ∃ t, sep.intercalate words = t ++ words.getLast hne := by
  induction words with
  | nil => exact absurd rfl hne
  | cons w words ih =>
    cases words with
    | nil => exact ⟨[], by simp⟩
    | cons v words =>
      obtain ⟨t, ht⟩ := ih (List.cons_ne_nil _ _)
      refine ⟨w ++ sep ++ t, ?_⟩
      rw [List.intercalate_cons_cons, ht, List.getLast_cons_cons, List.append_assoc (w ++ sep)]

theorem trim_intercalate {words : List JsString} (hne : words ≠ [])
    (hwords : ∀ w ∈ words, w ≠ [] ∧ ∀ c ∈ w, isSpace c = false) :
    trim ([32].intercalate words) = [32].intercalate words := by
  have hfirst : ([32].intercalate words).dropWhile isSpace = [32].intercalate words := by
    obtain ⟨w, words, rfl⟩ := List.exists_cons_of_ne_nil hne
    obtain ⟨hw, hspace⟩ := hwords w List.mem_cons_self
    obtain ⟨c, w, rfl⟩ := List.exists_cons_of_ne_nil hw
    have hc := hspace c List.mem_cons_self
    cases words with
    | nil => exact List.dropWhile_cons_of_neg (by simp [hc])
    | cons v words => exact List.dropWhile_cons_of_neg (by simp [hc])
  obtain ⟨t, ht⟩ := intercalate_last [32] hne
  obtain ⟨hlast, hspace⟩ := hwords _ (List.getLast_mem hne)
  rw [trim, hfirst, ht, List.rdropWhile_eq_self_iff]
  intro htext
  rw [List.getLast_append_of_ne_nil htext hlast]
  simp [hspace _ (List.getLast_mem hlast)]

theorem cronParts_intercalate {words : List JsString} (hne : words ≠ [])
    (hwords : ∀ w ∈ words, w ≠ [] ∧ ∀ c ∈ w, isSpace c = false) :
    cronParts ([32].intercalate words) = words := by
  rw [cronParts, replaceSpaces_intercalate hwords, trim_intercalate hne hwords]
  refine List.splitOn_intercalate 32 (fun w hw hmem => ?_) hne
  exact absurd ((hwords w hw).2 32 hmem) (by decide)

theorem asciiUnits_join (ps : List GoString) :
    asciiUnits (GoString.join 32 ps) = [32].intercalate (ps.map asciiUnits) := by
  induction ps with
  | nil => rfl
  | cons p ps ih =>
    cases ps with
    | nil => simp [GoString.join, asciiUnits]
    | cons q ps =>
      rw [List.map_cons, List.map_cons, List.intercalate_cons_cons, ← List.map_cons, ← ih,
        GoString.join, List.intercalate_cons_cons]
      simp [asciiUnits, GoString.join]

theorem asciiUnits_decimal (n : ℕ) : asciiUnits (GoString.decimal n) = natDigits n := by
  unfold asciiUnits GoString.decimal natDigits
  split
  · rfl
  · rw [List.map_reverse, List.map_map]
    apply congrArg List.reverse
    apply List.map_congr_left
    intro d hd
    have hlt : d < 10 := Nat.digits_lt_base (by decide) hd
    rw [Function.comp_apply, GoString.digitByte_toNat d hlt, digit]

/-- A text between two spaces. -/
def IsWord (s : GoString) : Prop := asciiUnits s ≠ [] ∧ ∀ c ∈ asciiUnits s, isSpace c = false

theorem isWord_decimal (n : ℕ) : IsWord (GoString.decimal n) := by
  rw [IsWord, asciiUnits_decimal]
  refine ⟨natDigits_ne_nil n, fun c hc => ?_⟩
  exact not_space_of_startsNumeral (Or.inl (natDigits_digits n c hc))

theorem isWord_star : IsWord (ascii "*") := by
  refine ⟨by decide, List.forall_mem_cons.mpr ⟨by decide, List.forall_mem_nil _⟩⟩

theorem isWord_cronText (n : Option ℕ) : IsWord (cronText n) := by
  cases n with
  | none => exact isWord_star
  | some n => exact isWord_decimal n

theorem isWord_dayText {v : Option CronValue} (hv : ∀ w ∈ v, IsDayOfMonth w) :
    IsWord (PlainFields.dayText v) := by
  cases v with
  | none => exact isWord_star
  | some v =>
    cases v with
    | num n => exact isWord_decimal n.toNat
    | text s =>
      rw [show CronValue.text s = lastDay from hv _ rfl]
      exact ⟨by decide, List.forall_mem_cons.mpr ⟨by decide, List.forall_mem_nil _⟩⟩

theorem cronParts_text {f : PlainFields} (hf : f.InRange) :
    cronParts (asciiUnits f.text) =
      [GoString.decimal f.minute, cronText f.hour, PlainFields.dayText f.dayOfMonth, ascii "*",
        cronText f.dayOfWeek].map asciiUnits := by
  rw [PlainFields.text, asciiUnits_join]
  refine cronParts_intercalate (List.cons_ne_nil _ _) fun w hw => ?_
  obtain ⟨p, hp, rfl⟩ := List.mem_map.mp hw
  change IsWord p
  simp only [List.mem_cons, List.not_mem_nil, or_false] at hp
  rcases hp with rfl | rfl | rfl | rfl | rfl
  · exact isWord_decimal _
  · exact isWord_cronText _
  · exact isWord_dayText hf.dayOfMonth
  · exact isWord_star
  · exact isWord_cronText _

end Words

section Values

variable (round : ℚ → JsNumber)

/-- Numbers of one minute, hour or day are read as they are. -/
def ReadsSmall : Prop := ∀ n : ℕ, n < 60 → round n = .ofInt n

variable {round}

theorem toNumber_decimal (hround : ReadsSmall round) {n : ℕ} (hn : n < 60) :
    toNumber round (asciiUnits (GoString.decimal n)) = .ofInt n := by
  rw [asciiUnits_decimal, toNumber_digits (natDigits_digits n) (natDigits_ne_nil n),
    decimalValue_natDigits, hround n hn]

theorem toNumber_cronText (hround : ReadsSmall round) {n : Option ℕ} (hn : ∀ k ∈ n, k < 60) :
    toNumber round (asciiUnits (cronText n)) =
      (n.map fun k : ℕ => JsNumber.ofInt k).getD .nan := by
  cases n with
  | none => rfl
  | some k => exact toNumber_decimal hround (hn k rfl)

def dayNumber : Option CronValue → Option ℤ
  | some (.num n) => some n
  | _ => none

theorem toNumber_dayText (hround : ReadsSmall round) {v : Option CronValue}
    (hv : ∀ w ∈ v, IsDayOfMonth w) :
    toNumber round (asciiUnits (PlainFields.dayText v)) =
      ((dayNumber v).map JsNumber.ofInt).getD .nan := by
  cases v with
  | none => rfl
  | some v =>
    cases v with
    | num n =>
      obtain ⟨hlo, hhi⟩ : 1 ≤ n ∧ n ≤ 31 := hv _ rfl
      have hread := toNumber_decimal hround (n := n.toNat) (by omega)
      rw [Int.toNat_of_nonneg (by omega)] at hread
      exact hread
    | text s =>
      rw [show CronValue.text s = lastDay from hv _ rfl]
      rfl

def hour12 (h : ℕ) : ℕ := if h % 12 = 0 then 12 else h % 12

def PlainFields.values (f : PlainFields) : TimeSelectionValues where
  minute := .ofInt f.minute
  hour := (f.hour.map fun h : ℕ => JsNumber.ofInt (hour12 h)).getD (.ofInt 12)
  amPm := (f.hour.map fun h : ℕ => if 12 ≤ h then AmPM.PM else .AM).getD .AM
  onDay := ((dayNumber f.dayOfMonth).map JsNumber.ofInt).getD (.ofInt 1)
  weekDay := (f.dayOfWeek.map fun w : ℕ => getWeekDayByNumber (.ofInt w)).getD (some .Mo)
  selectedTime :=
    if (dayNumber f.dayOfMonth).isSome then .months
    else if f.dayOfWeek.isSome then .weeks
    else if f.hour.isSome then .days
    else .hours

theorem getHour12_ofInt : ∀ h < 24, getHour12 (.ofInt (h : ℕ)) = .ofInt (hour12 h) := by
  decide +kernel

theorem getAmPm_ofInt (h : ℕ) : getAmPm (.ofInt h) = if 12 ≤ h then .PM else .AM := by
  have hor : (decide ((12 : ℤ) < h) || decide ((h : ℤ) = 12)) = decide (12 ≤ h) := by
    by_cases hle : 12 ≤ h <;> simp [hle] <;> omega
  rw [getAmPm, JsNumber.lt_ofInt, JsNumber.equal_ofInt, hor]
  simp

theorem ofInt_ne_nan (n : ℤ) : JsNumber.ofInt n ≠ .nan := by simp [JsNumber.ofInt]

theorem getFormValues_text (hround : ReadsSmall round) {f : PlainFields} (hf : f.InRange) :
    getFormValuesFromCronExpression round (asciiUnits f.text) = f.values := by
  have hhour := toNumber_cronText hround (n := f.hour) fun k hk =>
    Nat.lt_trans (hf.hour k hk) (by decide)
  have hweek := toNumber_cronText hround (n := f.dayOfWeek) fun k hk =>
    Nat.lt_trans (hf.dayOfWeek k hk) (by decide)
  unfold getFormValuesFromCronExpression
  rw [cronParts_text hf]
  simp only [List.map_cons, List.map_nil, toNumber_decimal hround hf.minute, hhour, hweek,
    toNumber_dayText hround hf.dayOfMonth, getSelectedTime]
  unfold PlainFields.values
  cases hh : f.hour with
  | none =>
    cases dayNumber f.dayOfMonth <;> cases f.dayOfWeek <;> simp [ofInt_ne_nan]
  | some h =>
    have hlt := hf.hour h hh
    cases dayNumber f.dayOfMonth <;> cases f.dayOfWeek <;>
      simp [ofInt_ne_nan, getHour12_ofInt h hlt, getAmPm_ofInt]

end Values

section ListParser

variable {f : PlainFields}

theorem parseDays_dayText {v : Option CronValue} (hv : ∀ w ∈ v, IsDayOfMonth w) :
    parseDays everyDay (PlainFields.dayText v) = SimpleFields.oneOr everyDay v := by
  cases v with
  | none => rfl
  | some v =>
    have hlegible := legible_dayOfMonth (hv v rfl)
    have hread : parseDays everyDay (daysText everyDay [v]) = [v] :=
      parseDays_daysText (List.cons_ne_nil v []) (by simpa using hlegible)
    have hone : daysText everyDay [v] = valueText v := by
      rw [daysText, if_neg (by cases v <;> simp [everyDay, cronRange, List.range'])]
      simp [GoString.join]
    rw [hone] at hread
    exact hread

theorem parseFields_text (hf : f.InRange) : Framework.parseFields f.text = some f.fields := by
  have hmonth := parseNumbers_cronText 1 12 none
  have hminute := parseNumbers_cronText 0 59 (some f.minute)
  simp only [cronText] at hmonth hminute
  unfold Framework.parseFields PlainFields.text
  rw [GoString.split_join 32 _ (List.cons_ne_nil _ _)]
  · simp only [hminute, hmonth, parseNumbers_cronText, parseDays_dayText hf.dayOfMonth,
      everyWeekday, parseDays_cronText, bind, Option.bind]
    rfl
  · intro p hp
    simp only [List.mem_cons, List.not_mem_nil, or_false] at hp
    rcases hp with rfl | rfl | rfl | rfl | rfl
    · exact GoString.decimal_not_mem _ 32 (by decide)
    · exact space_not_mem_cronText _
    · cases hday : f.dayOfMonth with
      | none => decide
      | some v => exact (legible_dayOfMonth (hf.dayOfMonth v hday)).plain 32 (by decide)
    · decide
    · exact space_not_mem_cronText _

theorem numbersText_perm {lo hi : ℕ} (hlt : lo < hi) {n : Option ℕ} {l : List ℤ}
    (hperm : l.Perm (cronRange lo hi n)) : numbersText lo hi l = cronText n := by
  have hsorted : l.insertionSort (· ≤ ·) = cronRange lo hi n := by
    have hrange : (cronRange lo hi n).Pairwise (· ≤ ·) := by
      cases n with
      | none => exact cronRange_pairwise lo hi
      | some n => exact List.pairwise_singleton _ _
    exact List.Perm.eq_of_pairwise' (List.pairwise_insertionSort _ _) hrange
      ((List.perm_insertionSort _ _).trans hperm)
  unfold numbersText
  dsimp only
  rw [hsorted]
  cases n with
  | none => exact if_pos rfl
  | some n =>
    have hlength : cronRange lo hi (some n) ≠ cronRange lo hi none := by
      intro heq
      have hsame := congrArg List.length heq
      simp [cronRange] at hsame
      omega
    rw [if_neg hlength]
    simp [cronRange, cronText, GoString.join]

theorem daysText_dayOfMonth {v : Option CronValue} :
    daysText everyDay (SimpleFields.oneOr everyDay v) = PlainFields.dayText v := by
  cases v with
  | none => exact if_pos rfl
  | some v =>
    change daysText everyDay [v] = valueText v
    rw [daysText, if_neg (by cases v <;> simp [everyDay, cronRange, List.range'])]
    simp [GoString.join]

theorem daysText_dayOfWeek {n : Option ℕ} :
    daysText everyWeekday ((cronRange 0 7 n).map .num) = cronText n := by
  cases n with
  | none => exact if_pos rfl
  | some n =>
    rw [daysText, if_neg (by simp [everyWeekday, cronRange, List.range'])]
    simp [cronRange, valueText, cronText, GoString.join]

theorem valid_fields (hf : f.InRange) {hours : List ℤ} (hperm : hours.Perm f.fields.hour) :
    CronFields.Valid { f.fields with hour := hours } where
  minute := by
    have hlt := hf.minute
    exact .singleton ⟨Int.natCast_nonneg _, by exact_mod_cast hlt⟩
  hour := by
    refine Lists.perm ?_ hperm
    change Lists _ (cronRange 0 23 f.hour)
    cases hhour : f.hour with
    | none => decide
    | some h =>
      have hlt := hf.hour h hhour
      exact .singleton ⟨Int.natCast_nonneg _, by exact_mod_cast hlt⟩
  dayOfMonth := by
    change Lists _ (SimpleFields.oneOr everyDay f.dayOfMonth)
    cases hday : f.dayOfMonth with
    | none =>
      change Lists _ everyDay
      decide
    | some v => exact .singleton (hf.dayOfMonth v hday)
  month := by
    change Lists _ (cronRange 1 12 none)
    decide
  dayOfWeek := by
    change Lists _ ((cronRange 0 7 f.dayOfWeek).map CronValue.num)
    cases hweek : f.dayOfWeek with
    | none => decide
    | some w =>
      have hlt := hf.dayOfWeek w hweek
      exact .singleton ⟨Int.natCast_nonneg _, by exact_mod_cast Nat.le_of_lt hlt⟩
  explicitDays := by
    intro month _ hone
    cases hone

theorem listParser_writesPlainly : WritesPlainly listParser where
  parse _ hf := parseFields_text hf
  stringify f hf hours hperm := by
    have hminute : numbersText 0 59 [(f.minute : ℤ)] = cronText (some f.minute) :=
      numbersText_perm (by decide) (.refl _)
    have hmonth : numbersText 1 12 (cronRange 1 12 none) = cronText none :=
      numbersText_perm (by decide) (.refl _)
    have hhours : numbersText 0 23 hours = cronText f.hour := numbersText_perm (by decide) hperm
    change (if _ then Except.ok (fieldsText _) else _) = _
    rw [if_pos (valid_fields hf hperm)]
    unfold fieldsText PlainFields.text
    simp only [PlainFields.fields]
    rw [hminute, hhours, hmonth, daysText_dayOfMonth, daysText_dayOfWeek]
    rfl

end ListParser

namespace TimeProps

variable (timeProps : TimeProps)

def plain : PlainFields where
  minute := timeProps.minute
  hour := timeProps.hourField
  dayOfMonth := timeProps.dayField.map fun d : ℕ => .num d
  dayOfWeek := timeProps.weekField

theorem plain_text {cronTime : CronTime} (h : cronTime.Documented) :
    timeProps.plain.text = timeProps.getCronExpressionFromFormValues cronTime := by
  rw [getCronExpressionFromFormValues_eq timeProps h]
  unfold PlainFields.text plain cronExpression
  cases timeProps.dayField <;> rfl

theorem plain_inRange : timeProps.plain.InRange where
  minute := timeProps.minute_lt
  hour := timeProps.simpleFields.hour_lt
  dayOfMonth v hv := by
    obtain ⟨d, hd, rfl⟩ := Option.mem_map.mp hv
    obtain ⟨hlo, hhi⟩ := timeProps.simpleFields.dayOfMonth_range d hd
    exact ⟨by exact_mod_cast hlo, by exact_mod_cast hhi⟩
  dayOfWeek := timeProps.simpleFields.dayOfWeek_lt

/-- The values of the form, with those that stand for `*` in the fields that are not used. -/
def values : TimeSelectionValues where
  selectedTime := timeProps.selectedTime
  minute := .ofInt timeProps.minute
  hour := if timeProps.selectedTime = .hours then .ofInt 12 else .ofInt timeProps.hour
  amPm := if timeProps.selectedTime = .hours then .AM else timeProps.amPm
  weekDay := if timeProps.selectedTime = .weeks then some timeProps.weekDay else some .Mo
  onDay := if timeProps.selectedTime = .months then .ofInt timeProps.onDay else .ofInt 1

/-- What the form shows when the days have been carried over and back: a day that was cut off
at the end of the week is its last or first one, and the last day of a month is no number. -/
def valuesBack (days : ℤ) : TimeSelectionValues :=
  match timeProps.selectedTime with
  | .hours => timeProps.values
  | .days => timeProps.values
  | .weeks =>
    if timeProps.weekDay.index + days > 6 then { timeProps.values with weekDay := some .Sa }
    else if timeProps.weekDay.index + days < 0 then { timeProps.values with weekDay := some .Su }
    else timeProps.values
  | .months =>
    if timeProps.onDay + days > 31 then
      { timeProps.values with selectedTime := .days, onDay := .ofInt 1 }
    else if timeProps.onDay + days < 1 then { timeProps.values with onDay := .ofInt 1 }
    else timeProps.values

/-- A weekday comes back from beyond the week only if it is its last or first one; a day of the
month never comes back from beyond the 31st, and from before the first only if it is the first. -/
def ComesBack (days : ℤ) : Prop :=
  match timeProps.selectedTime with
  | .hours => True
  | .days => True
  | .weeks =>
    (6 < timeProps.weekDay.index + days → timeProps.weekDay = .Sa) ∧
      (timeProps.weekDay.index + days < 0 → timeProps.weekDay = .Su)
  | .months =>
    timeProps.onDay + days ≤ 31 ∧ (timeProps.onDay + days < 1 → timeProps.onDay = 1)

theorem hour12_hour24 :
    hour12 timeProps.hour24 = timeProps.hour ∧
      (if 12 ≤ timeProps.hour24 then AmPM.PM else .AM) = timeProps.amPm := by
  obtain ⟨n, hn, hhour⟩ := List.mem_map.mp timeProps.hour_offered
  have hlt := List.mem_range.mp hn
  unfold hour12 hour24
  cases timeProps.amPm <;> dsimp only <;> split_ifs <;> simp <;> omega

theorem getWeekDayByNumber_index (weekDay : WeekDays) :
    getWeekDayByNumber (.ofInt weekDay.index) = some weekDay := by
  cases weekDay <;> decide +kernel

theorem days_eq_carriedDays (hselected : timeProps.selectedTime ≠ .hours)
    (source target : FixedZone) :
    timeProps.plain.days (target.offset - source.offset) = timeProps.carriedDays source target := by
  have hhour : timeProps.plain.hour = some timeProps.hour24 := if_neg hselected
  rw [PlainFields.days, hhour, Option.getD_some]
  rfl

theorem values_converted_back (source target : FixedZone) :
    ((timeProps.plain.converted (target.offset - source.offset)).converted
        (-(target.offset - source.offset))).values =
      timeProps.valuesBack (timeProps.carriedDays source target) := by
  obtain ⟨hhour12, hamPm⟩ := timeProps.hour12_hour24
  have hrange := timeProps.carriedDays_range source target
  cases hselected : timeProps.selectedTime with
  | hours =>
    obtain ⟨hminute, hhour, -⟩ :=
      PlainFields.converted_time (target.offset - source.offset) timeProps.plain_inRange
    have hfields : timeProps.plain.hour = none ∧ timeProps.plain.dayOfMonth = none ∧
        timeProps.plain.dayOfWeek = none := by
      simp [plain, hourField, dayField, weekField, hselected]
    have hdays : ∀ s t, ((timeProps.plain.converted s).converted t).dayOfMonth = none ∧
        ((timeProps.plain.converted s).converted t).dayOfWeek = none := by
      simp [PlainFields.converted, hfields]
    simp only [PlainFields.values, hminute, hhour, hfields, hdays]
    simp [valuesBack, values, plain, hselected, dayNumber]
  | days =>
    have hhour : timeProps.plain.hour = some timeProps.hour24 := if_neg (by simp [hselected])
    rw [PlainFields.converted_back _ timeProps.plain_inRange hhour]
    simp [PlainFields.values, valuesBack, values, plain, hourField, dayField, weekField, hselected,
      hhour12, hamPm, dayNumber]
  | weeks =>
    have hhour : timeProps.plain.hour = some timeProps.hour24 := if_neg (by simp [hselected])
    have hback := PlainFields.moveWeekday_back timeProps.weekDay.index_lt hrange
    rw [PlainFields.converted_back _ timeProps.plain_inRange hhour,
      timeProps.days_eq_carriedDays (by simp [hselected])]
    have hSa : getWeekDayByNumber (.ofInt 6) = some .Sa := getWeekDayByNumber_index .Sa
    have hSu : getWeekDayByNumber (.ofInt 0) = some .Su := getWeekDayByNumber_index .Su
    simp only [valuesBack, hselected]
    split_ifs with hhigh hlow <;>
      simp [PlainFields.values, values, plain, hourField, dayField, weekField, dayNumber,
        PlainFields.weekdayBack, getWeekDayByNumber_index, *]
  | months =>
    have hhour : timeProps.plain.hour = some timeProps.hour24 := if_neg (by simp [hselected])
    have hback := PlainFields.moveDay_back timeProps.onDay_range hrange
    rw [PlainFields.converted_back _ timeProps.plain_inRange hhour,
      timeProps.days_eq_carriedDays (by simp [hselected])]
    simp only [valuesBack, hselected]
    split_ifs with hhigh hlow <;>
      simp [PlainFields.values, values, plain, hourField, dayField, weekField, dayNumber, lastDay,
        PlainFields.dayBack, *]

theorem valuesBack_eq_iff (days : ℤ) :
    timeProps.valuesBack days = timeProps.values ↔ timeProps.ComesBack days := by
  cases hselected : timeProps.selectedTime with
  | hours => simp [valuesBack, ComesBack, hselected]
  | days => simp [valuesBack, ComesBack, hselected]
  | weeks =>
    simp only [valuesBack, ComesBack, hselected]
    split_ifs with hhigh hlow
    · have hnot : ¬ (timeProps.weekDay.index : ℤ) + days < 0 := by omega
      simp [values, hselected, hhigh, hnot, eq_comm]
    · have hnot : ¬ 6 < (timeProps.weekDay.index : ℤ) + days := by omega
      simp [values, hselected, hlow, hnot, eq_comm]
    · simp [hhigh, hlow]
  | months =>
    simp only [valuesBack, ComesBack, hselected]
    split_ifs with hhigh hlow
    · have hnot : ¬ (timeProps.onDay : ℤ) + days ≤ 31 := by omega
      simp [values, hselected, hnot]
    · have hle : (timeProps.onDay : ℤ) + days ≤ 31 := by omega
      simp [values, hselected, hle, hlow, JsNumber.ofInt, eq_comm]
    · have hle : (timeProps.onDay : ℤ) + days ≤ 31 := by omega
      simp [hle, hlow]

theorem valuesBack_time (days : ℤ) :
    (timeProps.valuesBack days).minute = timeProps.values.minute ∧
      (timeProps.valuesBack days).hour = timeProps.values.hour ∧
      (timeProps.valuesBack days).amPm = timeProps.values.amPm := by
  unfold valuesBack
  cases timeProps.selectedTime with
  | hours => exact ⟨rfl, rfl, rfl⟩
  | days => exact ⟨rfl, rfl, rfl⟩
  | weeks =>
    dsimp only
    split_ifs <;> exact ⟨rfl, rfl, rfl⟩
  | months =>
    dsimp only
    split_ifs <;> exact ⟨rfl, rfl, rfl⟩

theorem valuesBack_daily {days : ℤ} (hselected : timeProps.selectedTime = .months)
    (hdays : 31 < timeProps.onDay + days) : (timeProps.valuesBack days).selectedTime = .days := by
  simp only [valuesBack, hselected]
  rw [if_pos hdays]

/-- A schedule that is saved from the form and opened in it again, while the zone's offset is the
same, keeps its time of the day, and has the values it was saved with if and only if its day
comes back; a monthly one that is carried beyond the 31st is opened as a daily one. -/
theorem reopened_iff {cronTime : CronTime} (hcronTime : cronTime.Documented) {lib : CronParser}
    (hlib : WritesPlainly lib) {round : ℚ → JsNumber} (hround : ReadsSmall round)
    (zone : FixedZone) :
    ∃ stored shown, cronConverter lib (timeProps.getCronExpressionFromFormValues cronTime) zone
        .utc = some stored ∧
      cronConverter lib stored .utc zone = some shown ∧
      (getFormValuesFromCronExpression round (asciiUnits shown) = timeProps.values ↔
        timeProps.ComesBack (timeProps.carriedDays zone .utc)) ∧
      (getFormValuesFromCronExpression round (asciiUnits shown)).minute = timeProps.values.minute ∧
      (getFormValuesFromCronExpression round (asciiUnits shown)).hour = timeProps.values.hour ∧
      (getFormValuesFromCronExpression round (asciiUnits shown)).amPm = timeProps.values.amPm ∧
      (timeProps.selectedTime = .months →
        31 < timeProps.onDay + timeProps.carriedDays zone .utc →
        (getFormValuesFromCronExpression round (asciiUnits shown)).selectedTime = .days) := by
  have hplain := timeProps.plain_inRange
  have hstored := PlainFields.cronConverter_text hlib hplain zone .utc
  have hshown := PlainFields.cronConverter_text hlib
    (hplain.converted (FixedZone.utc.offset - zone.offset)) .utc zone
  rw [timeProps.plain_text hcronTime] at hstored
  rw [← neg_sub FixedZone.utc.offset zone.offset] at hshown
  have hvalues := getFormValues_text hround
    ((hplain.converted (FixedZone.utc.offset - zone.offset)).converted
      (-(FixedZone.utc.offset - zone.offset)))
  rw [values_converted_back] at hvalues
  obtain ⟨hminute, hhour, hamPm⟩ := timeProps.valuesBack_time (timeProps.carriedDays zone .utc)
  refine ⟨_, _, hstored, hshown, ?_⟩
  rw [hvalues]
  exact ⟨timeProps.valuesBack_eq_iff _, hminute, hhour, hamPm, timeProps.valuesBack_daily⟩

theorem reopened_iff_sample :
    ∃ stored shown, cronConverter listParser
        ((pastMidnight .months).getCronExpressionFromFormValues sampleCronTime) oneHourAhead .utc =
          some stored ∧
      cronConverter listParser stored .utc oneHourAhead = some shown ∧
      getFormValuesFromCronExpression .finite (asciiUnits shown) =
        (pastMidnight .months).values := by
  have hround : ReadsSmall .finite := fun n _ => by simp [JsNumber.ofInt]
  obtain ⟨stored, shown, hstored, hshown, hiff, -⟩ :=
    reopened_iff (pastMidnight .months) sampleCronTime_documented listParser_writesPlainly hround
      oneHourAhead
  exact ⟨stored, shown, hstored, hshown, hiff.mpr ⟨by decide, fun h => absurd h (by decide)⟩⟩

end TimeProps

end OpenEverest.Ui
