import OpenEverest.Framework.Cron
import Mathlib.Data.List.Sort

/-!
# A parser of listed values

Expressions whose fields are `*` or lists of values between commas.
-/

namespace OpenEverest.Framework

open GoString

def parseNumbers (lo hi : ℕ) (s : GoString) : Option (List ℤ) :=
  if s = ascii "*" then some (cronRange lo hi none)
  else ((split 44 s).mapM parseUint).map fun ns => (ns.map Nat.cast).insertionSort (· ≤ ·)

def parseValue (s : GoString) : CronValue :=
  match parseUint s with
  | some n => .num n
  | none => .text s

def parseDays (every : List CronValue) (s : GoString) : List CronValue :=
  if s = ascii "*" then every else (split 44 s).map parseValue

def numbersText (lo hi : ℕ) (l : List ℤ) : GoString :=
  let l := l.insertionSort (· ≤ ·)
  if l = cronRange lo hi none then ascii "*" else join 44 (l.map fun n => decimal n.toNat)

def valueText : CronValue → GoString
  | .num n => decimal n.toNat
  | .text s => s

def daysText (every l : List CronValue) : GoString :=
  if l = every then ascii "*" else join 44 (l.map valueText)

theorem not_mem_join {b sep : UInt8} (hne : b ≠ sep) {ps : List GoString} (hps : ps ≠ [])
    (h : ∀ p ∈ ps, b ∉ p) : b ∉ join sep ps := by
  intro hb
  have hcontains : contains (join sep ps) [b] = true :=
    decide_eq_true ((List.singleton_infix_iff ..).mpr hb)
  have hsep : sep ∉ [b] := by simpa using hne.symm
  obtain ⟨p, hp, hinfix⟩ := (contains_join sep ps [b] hps hsep).mp hcontains
  exact h p hp ((List.singleton_infix_iff ..).mp hinfix)

/-- A list of values is not `*`, since each one is written without one. -/
theorem join_ne_star {ps : List GoString} (hps : ps ≠ []) (h : ∀ p ∈ ps, (42 : UInt8) ∉ p) :
    join 44 ps ≠ ascii "*" := by
  intro hstar
  have hnot : (42 : UInt8) ∉ join 44 ps := not_mem_join (by decide) hps h
  rw [hstar] at hnot
  exact hnot (by decide)

theorem mapM_parseUint_decimal (ns : List ℤ) (h : ∀ n ∈ ns, 0 ≤ n) :
    ((ns.map fun n => decimal n.toNat).mapM parseUint).map (fun ks => ks.map Nat.cast) = some ns := by
  induction ns with
  | nil => rfl
  | cons n ns ih =>
    have hrest := ih fun k hk => h k (List.mem_cons_of_mem n hk)
    obtain ⟨ks, hks, hmap⟩ := Option.map_eq_some_iff.mp hrest
    have hn : ((n.toNat : ℕ) : ℤ) = n := Int.toNat_of_nonneg (h n List.mem_cons_self)
    simp [List.mapM_cons, parseUint_decimal, hks, hmap, hn]

theorem parseNumbers_numbersText {lo hi : ℕ} {l : List ℤ} (hne : l ≠ []) (h : ∀ n ∈ l, 0 ≤ n) :
    parseNumbers lo hi (numbersText lo hi l) = some (l.insertionSort (· ≤ ·)) := by
  have hperm := List.perm_insertionSort (· ≤ ·) l
  have hsorted := List.pairwise_insertionSort (· ≤ ·) l
  unfold numbersText
  dsimp only
  generalize l.insertionSort (· ≤ ·) = k at hperm hsorted ⊢
  have hpos : ∀ n ∈ k, 0 ≤ n := fun n hn => h n (hperm.mem_iff.mp hn)
  have hk : k ≠ [] := by
    intro hnil
    rw [hnil] at hperm
    exact hne hperm.nil_eq.symm
  unfold parseNumbers
  split
  · rename_i hall
    rw [if_pos rfl, hall]
  · rw [if_neg, split_join]
    · have hread := mapM_parseUint_decimal k hpos
      obtain ⟨ks, hks, hmap⟩ := Option.map_eq_some_iff.mp hread
      rw [hks, Option.map_some, hmap, hsorted.insertionSort_eq]
    · simpa using hk
    · intro p hp
      obtain ⟨n, -, rfl⟩ := List.mem_map.mp hp
      exact decimal_not_mem _ _ (by decide)
    · apply join_ne_star (by simpa using hk)
      intro p hp
      obtain ⟨n, -, rfl⟩ := List.mem_map.mp hp
      exact decimal_not_mem _ _ (by decide)

/-- A value that is read as it is written, in a list and between the fields. -/
structure Legible (v : CronValue) : Prop where
  parse : parseValue (valueText v) = v
  plain : ∀ b ∈ [(32 : UInt8), 42, 44], b ∉ valueText v

theorem legible_num {n : ℤ} (h : 0 ≤ n) : Legible (.num n) where
  parse := by
    have hn : ((n.toNat : ℕ) : ℤ) = n := Int.toNat_of_nonneg h
    rw [valueText, parseValue, parseUint_decimal]
    exact congrArg CronValue.num hn
  plain b hb := by
    apply decimal_not_mem
    simp only [List.mem_cons, List.not_mem_nil, or_false] at hb
    rcases hb with rfl | rfl | rfl <;> decide

theorem legible_lastDay : Legible lastDay where
  parse := by decide
  plain := by decide +kernel

theorem legible_lastWeekday : ∀ n < 8, Legible (lastWeekday n) := by
  have hlegible : ∀ n : Fin 8, parseValue (valueText (lastWeekday n)) = lastWeekday n ∧
      ∀ b ∈ [(32 : UInt8), 42, 44], b ∉ valueText (lastWeekday n) := by
    decide +kernel
  exact fun n hn => ⟨(hlegible ⟨n, hn⟩).1, (hlegible ⟨n, hn⟩).2⟩

theorem legible_dayOfMonth {v : CronValue} (h : CronFields.IsDayOfMonth v) : Legible v := by
  cases v with
  | num n => exact legible_num (le_trans (by decide) h.1)
  | text s =>
    rw [show CronValue.text s = lastDay from h]
    exact legible_lastDay

theorem legible_dayOfWeek {v : CronValue} (h : CronFields.IsDayOfWeek v) : Legible v := by
  cases v with
  | num n => exact legible_num h.1
  | text s =>
    obtain ⟨n, hn, hs⟩ := h
    rw [hs]
    exact legible_lastWeekday n hn

theorem parseDays_daysText {every l : List CronValue} (hne : l ≠ []) (h : ∀ v ∈ l, Legible v) :
    parseDays every (daysText every l) = l := by
  have hplain : ∀ b ∈ [(32 : UInt8), 42, 44], ∀ p ∈ l.map valueText, b ∉ p := by
    intro b hb p hp
    obtain ⟨v, hv, rfl⟩ := List.mem_map.mp hp
    exact (h v hv).plain b hb
  have hmap : l.map valueText ≠ [] := by simpa using hne
  unfold daysText parseDays
  split
  · rename_i hall
    rw [if_pos rfl, hall]
  · rw [if_neg (join_ne_star hmap (hplain 42 (by decide))),
      split_join 44 _ hmap (hplain 44 (by decide)), List.map_map]
    conv_rhs => rw [← List.map_id l]
    apply List.map_congr_left
    intro v hv
    exact (h v hv).parse

def parseFields (s : GoString) : Option CronFields :=
  match split 32 s with
  | [minute, hour, dayOfMonth, month, dayOfWeek] => do
    let minute ← parseNumbers 0 59 minute
    let hour ← parseNumbers 0 23 hour
    let month ← parseNumbers 1 12 month
    some { minute, hour, dayOfMonth := parseDays everyDay dayOfMonth, month,
           dayOfWeek := parseDays everyWeekday dayOfWeek }
  | _ => none

def fieldsText (f : CronFields) : GoString :=
  join 32 [numbersText 0 59 f.minute, numbersText 0 23 f.hour, daysText everyDay f.dayOfMonth,
    numbersText 1 12 f.month, daysText everyWeekday f.dayOfWeek]

def listParser : CronParser where
  parseExpression := parseFields
  stringify f :=
    if f.Valid then .ok (fieldsText f)
    else if f.ExplicitDays then .error (ascii "Validation error")
    else .error (ascii "Invalid explicit day of month definition")

theorem space_not_mem_numbersText {lo hi : ℕ} {l : List ℤ} (hne : l ≠ []) :
    (32 : UInt8) ∉ numbersText lo hi l := by
  unfold numbersText
  dsimp only
  split
  · decide
  · apply not_mem_join (by decide)
    · intro hnil
      have hlength := congrArg List.length hnil
      rw [List.length_map, List.length_insertionSort] at hlength
      exact hne (List.length_eq_zero_iff.mp hlength)
    · intro p hp
      obtain ⟨n, -, rfl⟩ := List.mem_map.mp hp
      exact decimal_not_mem _ _ (by decide)

theorem space_not_mem_daysText {every l : List CronValue} (hne : l ≠ [])
    (h : ∀ v ∈ l, Legible v) : (32 : UInt8) ∉ daysText every l := by
  unfold daysText
  split
  · decide
  · apply not_mem_join (by decide)
    · simpa using hne
    · intro p hp
      obtain ⟨v, hv, rfl⟩ := List.mem_map.mp hp
      exact (h v hv).plain 32 (by decide)

theorem parseFields_fieldsText {f : CronFields} (h : f.Valid) :
    parseFields (fieldsText f) = some { f with
      minute := f.minute.insertionSort (· ≤ ·)
      hour := f.hour.insertionSort (· ≤ ·)
      month := f.month.insertionSort (· ≤ ·) } := by
  obtain ⟨hminute, -, hminutes⟩ := h.minute
  obtain ⟨hhour, -, hhours⟩ := h.hour
  obtain ⟨hmonth, -, hmonths⟩ := h.month
  obtain ⟨hday, -, hdays⟩ := h.dayOfMonth
  obtain ⟨hweek, -, hweekdays⟩ := h.dayOfWeek
  have hlegible : ∀ v ∈ f.dayOfMonth, Legible v := fun v hv => legible_dayOfMonth (hdays v hv)
  have hlegible' : ∀ v ∈ f.dayOfWeek, Legible v := fun v hv => legible_dayOfWeek (hweekdays v hv)
  unfold parseFields fieldsText
  rw [split_join 32 _ (List.cons_ne_nil _ _)]
  · simp only [parseNumbers_numbersText hminute fun n hn => (hminutes n hn).1,
      parseNumbers_numbersText hhour fun n hn => (hhours n hn).1,
      parseNumbers_numbersText hmonth fun n hn => le_trans (by decide) (hmonths n hn).1,
      parseDays_daysText hday hlegible, parseDays_daysText hweek hlegible', bind, Option.bind]
  · intro p hp
    simp only [List.mem_cons, List.not_mem_nil, or_false] at hp
    rcases hp with rfl | rfl | rfl | rfl | rfl
    · exact space_not_mem_numbersText hminute
    · exact space_not_mem_numbersText hhour
    · exact space_not_mem_daysText hday hlegible
    · exact space_not_mem_numbersText hmonth
    · exact space_not_mem_daysText hweek hlegible'

theorem cronRange_pairwise (lo hi : ℕ) : (cronRange lo hi none).Pairwise (· ≤ ·) := by
  unfold cronRange
  rw [List.pairwise_map]
  have hlt : (List.range' lo (hi + 1 - lo)).Pairwise (· < ·) := List.pairwise_lt_range'
  exact hlt.imp fun h => by omega

theorem parseNumbers_ordered {lo hi : ℕ} {s : GoString} {l : List ℤ}
    (h : parseNumbers lo hi s = some l) : l.Pairwise (· ≤ ·) := by
  unfold parseNumbers at h
  split at h
  · cases h
    exact cronRange_pairwise lo hi
  · obtain ⟨ns, -, rfl⟩ := Option.map_eq_some_iff.mp h
    exact List.pairwise_insertionSort _ _

theorem decimal_ne_star (n : ℕ) : decimal n ≠ ascii "*" := by
  intro hstar
  have hnot : (42 : UInt8) ∉ decimal n := decimal_not_mem n 42 (by decide)
  rw [hstar] at hnot
  exact hnot (by decide)

theorem parseNumbers_cronText (lo hi : ℕ) (n : Option ℕ) :
    parseNumbers lo hi (cronText n) = some (cronRange lo hi n) := by
  cases n with
  | none => exact if_pos rfl
  | some n =>
    have hcomma : (44 : UInt8) ∉ decimal n := decimal_not_mem n 44 (by decide)
    rw [cronText, parseNumbers, if_neg (decimal_ne_star n), split_of_not_mem 44 _ hcomma]
    simp [parseUint_decimal, cronRange]

theorem parseDays_cronText (lo hi : ℕ) (n : Option ℕ) :
    parseDays ((cronRange lo hi none).map .num) (cronText n) = (cronRange lo hi n).map .num := by
  cases n with
  | none => exact if_pos rfl
  | some n =>
    have hcomma : (44 : UInt8) ∉ decimal n := decimal_not_mem n 44 (by decide)
    rw [cronText, parseDays, if_neg (decimal_ne_star n), split_of_not_mem 44 _ hcomma]
    simp [parseValue, parseUint_decimal, cronRange]

theorem space_not_mem_cronText (n : Option ℕ) : (32 : UInt8) ∉ cronText n := by
  cases n with
  | none => decide
  | some n => exact decimal_not_mem n 32 (by decide)

theorem listParser_documented : listParser.Documented where
  ordered s f h := by
    change parseFields s = some f at h
    unfold parseFields at h
    split at h
    · obtain ⟨minute, hminute, h⟩ := Option.bind_eq_some_iff.mp h
      obtain ⟨hour, hhour, h⟩ := Option.bind_eq_some_iff.mp h
      obtain ⟨month, -, h⟩ := Option.bind_eq_some_iff.mp h
      cases h
      exact ⟨parseNumbers_ordered hminute, parseNumbers_ordered hhour⟩
    · cases h
  stringify_valid f h := by
    refine ⟨fieldsText f, _, if_pos h, parseFields_fieldsText h, ?_⟩
    constructor
    · exact List.perm_insertionSort _ _
    · exact List.perm_insertionSort _ _
    · exact List.Perm.refl _
    · exact List.perm_insertionSort _ _
    · exact List.Perm.refl _
  stringify_explicit f h hone hbeyond := by
    have hexplicit : ¬ f.ExplicitDays := by
      intro hdays
      obtain ⟨month, hmonth⟩ := List.exists_mem_of_ne_nil _ h.month.1
      obtain ⟨v, hv⟩ := List.exists_mem_of_ne_nil _ h.dayOfMonth.1
      exact hbeyond month hmonth v hv (hdays month hmonth hone v hv)
    refine ⟨ascii "Invalid explicit day of month definition", ?_, by decide +kernel⟩
    change (if f.Valid then _ else if f.ExplicitDays then _ else _) = _
    rw [if_neg fun hvalid => hexplicit hvalid.explicitDays, if_neg hexplicit]
  parse_cronExpression minute hour dayOfMonth dayOfWeek _ _ _ _ := by
    change parseFields _ = _
    have hmonth := parseNumbers_cronText 1 12 none
    unfold parseFields cronExpression
    rw [split_join 32 _ (List.cons_ne_nil _ _)]
    · simp only [cronText] at hmonth
      simp only [parseNumbers_cronText, hmonth, everyDay, everyWeekday, parseDays_cronText, bind,
        Option.bind]
      rfl
    · intro p hp
      simp only [List.mem_cons, List.not_mem_nil, or_false] at hp
      rcases hp with rfl | rfl | rfl | rfl | rfl
      · exact space_not_mem_cronText minute
      · exact space_not_mem_cronText hour
      · exact space_not_mem_cronText dayOfMonth
      · decide
      · exact space_not_mem_cronText dayOfWeek

end OpenEverest.Framework
