import OpenEverest.Framework.Calendar
import OpenEverest.Framework.GoString
import Mathlib.Data.List.Perm.Basic

/-!
# Cron expressions

The five fields of an expression, as the values each one lists, and the minutes at which it
fires. Minutes are counted from midnight of 1970-01-01 in the zone that reads the expression.
-/

namespace OpenEverest.Framework

/-- A listed day: a number, or a text such as `L`. -/
inductive CronValue where
  | num (n : ℤ)
  | text (s : GoString)
  deriving DecidableEq

structure CronFields where
  minute : List ℤ
  hour : List ℤ
  dayOfMonth : List CronValue
  month : List ℤ
  dayOfWeek : List CronValue
  deriving DecidableEq

def lastDay : CronValue := .text (ascii "L")

def lastWeekday (n : ℕ) : CronValue := .text (GoString.decimal n ++ ascii "L")

def maxDaysInMonth (month : ℤ) : ℤ := daysInMonth 1972 month.toNat

theorem maxDaysInMonth_range (month : ℤ) : 28 ≤ maxDaysInMonth month ∧ maxDaysInMonth month ≤ 31 := by
  have hmin := le_daysInMonth 1972 month.toNat
  have hmax := daysInMonth_le 1972 month.toNat
  unfold maxDaysInMonth
  omega

namespace CronFields

def OnDayOfMonth (x : ℤ) : CronValue → Prop
  | .num n => (date x).day = n
  | .text s => .text s = lastDay ∧ (date x).isLastDay

/-- Sunday is 0 and 7. -/
def OnDayOfWeek (x : ℤ) : CronValue → Prop
  | .num n => weekday x = n % 7
  | .text s => ∃ n < 8, .text s = lastWeekday n ∧ weekday x = n % 7 ∧
      daysInMonth (date x).year (date x).month < (date x).day + 7

/-- Where both days are restricted, either one will do. -/
def DayFires (f : CronFields) (x : ℤ) : Prop :=
  ((date x).month : ℤ) ∈ f.month ∧
    if f.dayOfWeek.length = 8 then ∃ v ∈ f.dayOfMonth, OnDayOfMonth x v
    else if maxDaysInMonth (date x).month ≤ f.dayOfMonth.length then
      ∃ v ∈ f.dayOfWeek, OnDayOfWeek x v
    else (∃ v ∈ f.dayOfMonth, OnDayOfMonth x v) ∨ ∃ v ∈ f.dayOfWeek, OnDayOfWeek x v

def Fires (f : CronFields) (t : ℤ) : Prop :=
  t % 60 ∈ f.minute ∧ t / 60 % 24 ∈ f.hour ∧ f.DayFires (t / 1440)

instance (x : ℤ) : DecidablePred (OnDayOfMonth x)
  | .num _ => inferInstanceAs (Decidable (_ = _))
  | .text _ => inferInstanceAs (Decidable (_ ∧ _))

instance (x : ℤ) : DecidablePred (OnDayOfWeek x)
  | .num _ => inferInstanceAs (Decidable (_ = _))
  | .text _ => inferInstanceAs (Decidable (∃ n < 8, _))

instance (f : CronFields) (x : ℤ) : Decidable (f.DayFires x) :=
  inferInstanceAs (Decidable (_ ∧ _))

instance (f : CronFields) (t : ℤ) : Decidable (f.Fires t) := inferInstanceAs (Decidable (_ ∧ _))

/-- The same hours, minutes and months, and days that mean the same. -/
structure Same (f g : CronFields) : Prop where
  minute : f.minute.Perm g.minute
  hour : f.hour.Perm g.hour
  month : f.month.Perm g.month
  dayOfMonth_length : f.dayOfMonth.length = g.dayOfMonth.length
  dayOfMonth : ∀ x, ((date x).month : ℤ) ∈ g.month →
    ((∃ v ∈ f.dayOfMonth, OnDayOfMonth x v) ↔ ∃ v ∈ g.dayOfMonth, OnDayOfMonth x v)
  dayOfWeek_length : f.dayOfWeek.length = g.dayOfWeek.length
  dayOfWeek : ∀ x, (∃ v ∈ f.dayOfWeek, OnDayOfWeek x v) ↔ ∃ v ∈ g.dayOfWeek, OnDayOfWeek x v

theorem Same.dayFires {f g : CronFields} (h : Same f g) (x : ℤ) : f.DayFires x ↔ g.DayFires x := by
  unfold DayFires
  rw [h.month.mem_iff]
  apply and_congr_right
  intro hmonth
  rw [h.dayOfMonth x hmonth, h.dayOfWeek, h.dayOfWeek_length, h.dayOfMonth_length]

theorem Same.fires {f g : CronFields} (h : Same f g) (t : ℤ) : f.Fires t ↔ g.Fires t := by
  unfold Fires
  rw [h.minute.mem_iff, h.hour.mem_iff, h.dayFires]

def IsDayOfMonth : CronValue → Prop
  | .num n => 1 ≤ n ∧ n ≤ 31
  | .text s => .text s = lastDay

def IsDayOfWeek : CronValue → Prop
  | .num n => 0 ≤ n ∧ n ≤ 7
  | .text s => ∃ n < 8, .text s = lastWeekday n

def WithinMonth (month : ℤ) : CronValue → Prop
  | .num n => n ≤ maxDaysInMonth month
  | .text _ => True

instance : DecidablePred IsDayOfMonth
  | .num _ => inferInstanceAs (Decidable (_ ∧ _))
  | .text _ => inferInstanceAs (Decidable (_ = _))

instance : DecidablePred IsDayOfWeek
  | .num _ => inferInstanceAs (Decidable (_ ∧ _))
  | .text _ => inferInstanceAs (Decidable (∃ n < 8, _))

instance (month : ℤ) : DecidablePred (WithinMonth month)
  | .num _ => inferInstanceAs (Decidable (_ ≤ _))
  | .text _ => inferInstanceAs (Decidable True)

def Lists {α : Type} (P : α → Prop) (l : List α) : Prop := l ≠ [] ∧ l.Nodup ∧ ∀ a ∈ l, P a

instance {α : Type} [DecidableEq α] (P : α → Prop) [DecidablePred P] (l : List α) :
    Decidable (Lists P l) :=
  inferInstanceAs (Decidable (_ ∧ _))

section Lists

variable {α β : Type} {P : α → Prop} {Q : β → Prop} {l k : List α}

theorem Lists.perm (h : Lists P k) (hperm : l.Perm k) : Lists P l := by
  obtain ⟨hne, hnodup, hvalid⟩ := h
  refine ⟨?_, hperm.nodup_iff.mpr hnodup, fun a ha => hvalid a (hperm.mem_iff.mp ha)⟩
  intro hnil
  rw [hnil] at hperm
  exact hne hperm.nil_eq.symm

theorem Lists.singleton {a : α} (h : P a) : Lists P [a] := by
  refine ⟨List.cons_ne_nil _ _, List.nodup_singleton _, ?_⟩
  intro b hb
  rw [List.mem_singleton.mp hb]
  exact h

theorem Lists.map {g : α → β} (h : Lists P l) (hvalid : ∀ a ∈ l, Q (g a))
    (hinj : ∀ a ∈ l, ∀ b ∈ l, g a = g b → a = b) : Lists Q (l.map g) := by
  obtain ⟨hne, hnodup, -⟩ := h
  refine ⟨?_, hnodup.map_on hinj, ?_⟩
  · intro hnil
    exact hne (List.map_eq_nil_iff.mp hnil)
  · intro b hb
    obtain ⟨a, ha, rfl⟩ := List.mem_map.mp hb
    exact hvalid a ha

theorem map_map_back {g : α → β} {back : β → α} (h : ∀ a ∈ l, back (g a) = a) :
    (l.map g).map back = l := by
  rw [List.map_map]
  conv_rhs => rw [← List.map_id l]
  exact List.map_congr_left h

theorem Lists.map_of_back {g : α → β} (back : β → α) (h : Lists P l) (hvalid : ∀ a ∈ l, Q (g a))
    (hback : ∀ a ∈ l, back (g a) = a) : Lists Q (l.map g) := by
  apply h.map hvalid
  intro a ha b hb hab
  rw [← hback a ha, ← hback b hb, hab]

end Lists

def ExplicitDays (f : CronFields) : Prop :=
  ∀ month ∈ f.month, f.month.length = 1 → ∀ v ∈ f.dayOfMonth, WithinMonth month v

instance (f : CronFields) : Decidable f.ExplicitDays :=
  inferInstanceAs (Decidable (∀ month ∈ f.month, _))

structure InRange (f : CronFields) : Prop where
  minute : Lists (fun n => 0 ≤ n ∧ n < 60) f.minute
  hour : Lists (fun n => 0 ≤ n ∧ n < 24) f.hour
  dayOfMonth : Lists IsDayOfMonth f.dayOfMonth
  month : Lists (fun n => 1 ≤ n ∧ n ≤ 12) f.month
  dayOfWeek : Lists IsDayOfWeek f.dayOfWeek

structure Valid (f : CronFields) : Prop extends f.InRange where
  explicitDays : f.ExplicitDays

instance (f : CronFields) : Decidable f.Valid :=
  decidable_of_iff (Lists (fun n => 0 ≤ n ∧ n < 60) f.minute ∧
      Lists (fun n => 0 ≤ n ∧ n < 24) f.hour ∧ Lists IsDayOfMonth f.dayOfMonth ∧
      Lists (fun n => 1 ≤ n ∧ n ≤ 12) f.month ∧ Lists IsDayOfWeek f.dayOfWeek ∧ f.ExplicitDays)
    ⟨fun ⟨a, b, c, d, e, g⟩ => ⟨⟨a, b, c, d, e⟩, g⟩, fun ⟨⟨a, b, c, d, e⟩, g⟩ => ⟨a, b, c, d, e, g⟩⟩

structure Reordered (f g : CronFields) : Prop where
  minute : f.minute.Perm g.minute
  hour : f.hour.Perm g.hour
  dayOfMonth : f.dayOfMonth.Perm g.dayOfMonth
  month : f.month.Perm g.month
  dayOfWeek : f.dayOfWeek.Perm g.dayOfWeek

theorem Reordered.same {f g : CronFields} (h : Reordered f g) : Same f g where
  minute := h.minute
  hour := h.hour
  month := h.month
  dayOfMonth_length := h.dayOfMonth.length_eq
  dayOfMonth x _ := by simp only [h.dayOfMonth.mem_iff]
  dayOfWeek_length := h.dayOfWeek.length_eq
  dayOfWeek x := by simp only [h.dayOfWeek.mem_iff]

end CronFields

/-- A number, or `*`. -/
def cronText : Option ℕ → GoString
  | none => ascii "*"
  | some n => GoString.decimal n

/-- Every value from `lo` to `hi`, or one. -/
def cronRange (lo hi : ℕ) : Option ℕ → List ℤ
  | none => (List.range' lo (hi + 1 - lo)).map Nat.cast
  | some n => [n]

theorem mem_cronRange {lo hi : ℕ} {n : ℤ} (hlo : lo ≤ n) (hhi : n ≤ hi) :
    n ∈ cronRange lo hi none := by
  have h0 : 0 ≤ n := le_trans (Int.natCast_nonneg lo) hlo
  obtain ⟨k, rfl⟩ := Int.eq_ofNat_of_zero_le h0
  exact List.mem_map_of_mem (List.mem_range'_1.mpr ⟨by omega, by omega⟩)

def everyDay : List CronValue := (cronRange 1 31 none).map .num

def everyWeekday : List CronValue := (cronRange 0 7 none).map .num

def cronExpression (minute hour dayOfMonth dayOfWeek : Option ℕ) : GoString :=
  GoString.join 32 [cronText minute, cronText hour, cronText dayOfMonth, ascii "*",
    cronText dayOfWeek]

def cronFields (minute hour dayOfMonth dayOfWeek : Option ℕ) : CronFields where
  minute := cronRange 0 59 minute
  hour := cronRange 0 23 hour
  dayOfMonth := (cronRange 1 31 dayOfMonth).map .num
  month := cronRange 1 12 none
  dayOfWeek := (cronRange 0 7 dayOfWeek).map .num

/-- A parser of expressions, and `fieldsToExpression(fields).stringify()`. -/
structure CronParser where
  parseExpression : GoString → Option CronFields
  stringify : CronFields → Except GoString GoString

namespace CronParser

open CronFields

variable (lib : CronParser)

/-- What is documented: minutes and hours are read in order, fields with values that exist
are written as an expression that lists them, days that a single month does not have are
refused, and numbers and `*` are read as they are. -/
structure Documented : Prop where
  ordered : ∀ s f, lib.parseExpression s = some f →
    f.minute.Pairwise (· ≤ ·) ∧ f.hour.Pairwise (· ≤ ·)
  stringify_valid : ∀ f : CronFields, f.Valid → ∃ s g, lib.stringify f = .ok s ∧
    lib.parseExpression s = some g ∧ g.Reordered f
  stringify_explicit : ∀ f : CronFields, f.InRange → f.month.length = 1 →
    (∀ month ∈ f.month, ∀ v ∈ f.dayOfMonth, ¬ WithinMonth month v) → ∃ message,
      lib.stringify f = .error message ∧
        GoString.contains message (ascii "Invalid explicit day of month definition") = true
  parse_cronExpression : ∀ minute hour dayOfMonth dayOfWeek : Option ℕ,
    (∀ n ∈ minute, n < 60) → (∀ n ∈ hour, n < 24) → (∀ n ∈ dayOfMonth, 1 ≤ n ∧ n ≤ 31) →
    (∀ n ∈ dayOfWeek, n < 7) →
      lib.parseExpression (cronExpression minute hour dayOfMonth dayOfWeek) =
        some (cronFields minute hour dayOfMonth dayOfWeek)

/-- The expression fires at this minute of universal time, read in a zone of this offset. -/
def FiresAt (expression : GoString) (offset t : ℤ) : Prop :=
  ∃ f, lib.parseExpression expression = some f ∧ f.Fires (t + offset)

instance (expression : GoString) (offset t : ℤ) : Decidable (lib.FiresAt expression offset t) :=
  decidable_of_iff
    ((lib.parseExpression expression).any (fun f => decide (f.Fires (t + offset))) = true) <| by
      simp [FiresAt, Option.any_eq_true]

theorem firesAt_iff {lib : CronParser} {expression : GoString} {f : CronFields}
    (h : lib.parseExpression expression = some f) (offset t : ℤ) :
    lib.FiresAt expression offset t ↔ f.Fires (t + offset) := by
  unfold FiresAt
  rw [h]
  constructor
  · intro ⟨g, hg, hfires⟩
    obtain rfl := Option.some.inj hg
    exact hfires
  · intro hfires
    exact ⟨f, rfl, hfires⟩

end CronParser

end OpenEverest.Framework
