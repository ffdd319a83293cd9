import OpenEverest.Framework.Quantity
import OpenEverest.Ui.ProxySpec

/-!
# Reading resources

The numbers that the UI shows for the quantities of a cluster. Floating-point steps are exact. A
CPU is read in cores and a memory in gigabytes; a disk keeps its unit.
-/

namespace OpenEverest.Ui

open Framework JsString

/-- The group of `/^([0-9]+)m$/`. -/
def milliMatch (input : JsString) : Option JsString :=
  if input.getLast? = some 109 ∧ input.dropLast ≠ [] ∧ input.dropLast.all isDigit then
    some input.dropLast
  else none

def times (x : JsNumber) : Option ℚ → JsNumber
  | none => .nan
  | some m => match x with
    | .finite q => .finite (q * m)
    | x => x

def cpuParser (input : JsString) : JsNumber :=
  match milliMatch input with
  | some millis => times (toNumber .finite millis) (some (1 / 1000))
  | none => parseFloat .finite input

def memoryMultipliers (unit : JsString) : Option ℚ :=
  ([(js "k", 10 ^ 3), (js "M", 10 ^ 6), (js "G", 10 ^ 9), (js "T", 10 ^ 12), (js "P", 10 ^ 15),
    (js "E", 10 ^ 18), (js "Ki", 1024), (js "Mi", 1024 ^ 2), (js "Gi", 1024 ^ 3),
    (js "Ti", 1024 ^ 4), (js "Pi", 1024 ^ 5), (js "Ei", 1024 ^ 6)].find?
      fun entry : JsString × ℚ => decide (entry.1 = unit)).map (·.2)

def isNumberPart (c : UInt16) : Bool := isDigit c || decide (c = 46)

def isLetter (c : UInt16) : Bool := decide (65 ≤ c ∧ c ≤ 90 ∨ 97 ≤ c ∧ c ≤ 122)

/-- The groups of `/^([0-9.]+)([A-Za-z]{1,2})$/`. -/
def unitMatch (input : JsString) : Option (JsString × JsString) :=
  let number := input.takeWhile isNumberPart
  let unit := input.dropWhile isNumberPart
  if number ≠ [] ∧ (unit.length = 1 ∨ unit.length = 2) ∧ unit.all isLetter then some (number, unit)
  else none

structure MemoryValue where
  value : JsNumber
  originalUnit : JsString

def memoryParser (input : JsString) (targetUnit : Option JsString) : MemoryValue :=
  match unitMatch input with
  | some (number, sourceUnit) =>
    let valueBytes := times (parseFloat .finite number) (memoryMultipliers sourceUnit)
    { value := match targetUnit with
        | some targetUnit => times valueBytes ((memoryMultipliers targetUnit).map (1 / ·))
        | none => parseFloat .finite input
      originalUnit := sourceUnit }
  | none => { value := parseFloat .finite input, originalUnit := [] }

def memoryValue (input : JsString) : JsNumber := (memoryParser input (some (js "G"))).value

/-- `none` is the number 0. -/
def extractResourceCpuValue (resources : Option Resources) : Option JsString :=
  resources.bind fun r => (r.limits.bind (·.cpu)).or r.cpu

/-- `none` is the number 0. -/
def extractResourceMemoryValue (resources : Option Resources) : Option JsString :=
  resources.bind fun r => (r.limits.bind (·.memory)).or r.memory

def extractResourceCpuRequestValue (resources : Option Resources) : Option JsString :=
  resources.bind fun r => (r.requests.bind (·.cpu)).or ((r.limits.bind (·.cpu)).or r.cpu)

def extractResourceMemoryRequestValue (resources : Option Resources) : Option JsString :=
  resources.bind fun r =>
    (r.requests.bind (·.memory)).or ((r.limits.bind (·.memory)).or r.memory)

/-- `Math.abs(x - y) < RESOURCE_COMPARISON_EPSILON`. -/
def closeTo : JsNumber → JsNumber → Bool
  | .finite p, .finite q => decide (|p - q| < 1 / 10 ^ 9)
  | _, _ => false

def areResourceRequestsSynced (resources : Option Resources) : Bool :=
  let cpuLimit := cpuParser ((extractResourceCpuValue resources).getD (js "0"))
  let memoryLimit := memoryValue ((extractResourceMemoryValue resources).getD (js "0"))
  let cpuSynced := (extractResourceCpuRequestValue resources).all fun request =>
    closeTo (cpuParser request) cpuLimit
  let memorySynced := (extractResourceMemoryRequestValue resources).all fun request =>
    closeTo (memoryValue request) memoryLimit
  cpuSynced && memorySynced

theorem numeral_part (x : Numeral) : ∀ c ∈ x.text, isNumberPart c = true := by
  intro c hc
  unfold Numeral.text at hc
  rcases List.mem_append.mp hc with hc | hc
  · simp [isNumberPart, x.whole_digits c hc]
  · split at hc
    · rcases List.mem_cons.mp hc with rfl | hc
      · rfl
      · simp [isNumberPart, x.fraction_digits c hc]
    · cases hc

theorem numeral_text_ne_nil (x : Numeral) : x.text ≠ [] := by
  obtain ⟨c, t, h, _⟩ := x.startsNumeral []
  rw [List.append_nil] at h
  rw [h]
  exact List.cons_ne_nil c t

theorem exponent_no_milli (x : Exponent) : (109 : UInt16) ∉ x.text := by
  unfold Exponent.text
  intro h
  rcases List.mem_cons.mp h with h | h
  · cases hupper : x.upper <;> simp [hupper] at h
  · rcases List.mem_append.mp h with h | h
    · cases hsign : x.sign <;> simp [hsign, Sign.text] at h
    · exact absurd (x.digits_digits 109 h) (by decide)

theorem eq_milli_of_mem (x : Suffix) (h : (109 : UInt16) ∈ x.text) : x = .unit .milli := by
  cases x with
  | unit u =>
    have hu : u = .milli := by
      revert h
      cases u <;> decide
    rw [hu]
  | exponent x => exact absurd h (exponent_no_milli x)

structure Millis (Q : Quantity) : Prop where
  sign : Q.sign = .none
  point : Q.numeral.point = false
  suffix : Q.suffix = .unit .milli

theorem milliMatch_of_millis {Q : Quantity} (h : Millis Q) :
    milliMatch Q.text = some Q.numeral.whole ∧ Q.numeral.value = decimalValue Q.numeral.whole := by
  have hfraction := Q.numeral.no_point h.point
  have hwhole : Q.numeral.whole ≠ [] := Q.numeral.ne_nil.resolve_right (not_not.mpr hfraction)
  have htext : Q.text = Q.numeral.whole ++ [109] := by
    rw [Quantity.text, h.sign, h.suffix, Numeral.text, h.point, if_neg (by simp), List.append_nil]
    rfl
  refine ⟨?_, ?_⟩
  · rw [milliMatch, htext, List.dropLast_concat, if_pos]
    refine ⟨by simp, hwhole, ?_⟩
    rw [List.all_eq_true]
    exact Q.numeral.whole_digits
  · rw [Numeral.value, hfraction, List.append_nil]
    simp

theorem millis_of_milliMatch {Q : Quantity} {millis : JsString} (h : milliMatch Q.text = some millis) :
    Millis Q := by
  rw [milliMatch] at h
  split at h
  · rename_i hmatch
    obtain ⟨hlast, hne, hdigits⟩ := hmatch
    have htext : Q.text = Q.text.dropLast ++ [109] := by
      rw [List.dropLast_append_getLast?]
      exact hlast
    have hsuffix : Q.suffix = .unit .milli := by
      apply eq_milli_of_mem
      have hmem : (109 : UInt16) ∈ Q.text := List.mem_of_getLast? hlast
      rw [Quantity.text, List.mem_append, List.mem_append] at hmem
      rcases hmem with hmem | hmem | hmem
      · cases hsign : Q.sign <;> simp [hsign, Sign.text] at hmem
      · exact absurd (numeral_part _ _ hmem) (by decide)
      · exact hmem
    have hdrop : Q.text.dropLast = Q.sign.text ++ Q.numeral.text := by
      rw [Quantity.text, hsuffix, ← List.append_assoc]
      exact List.dropLast_concat
    rw [hdrop, List.all_eq_true] at hdigits
    refine ⟨?_, ?_, hsuffix⟩
    · cases hsign : Q.sign with
      | none => rfl
      | plus => exact absurd (hdigits 43 (by simp [hsign, Sign.text])) (by decide)
      | minus => exact absurd (hdigits 45 (by simp [hsign, Sign.text])) (by decide)
    · by_contra hpoint
      rw [Bool.not_eq_false] at hpoint
      exact absurd (hdigits 46 (by simp [Numeral.text, hpoint])) (by decide)
  · cases h

theorem cpuParser_of_millis {Q : Quantity} (h : Millis Q) : cpuParser Q.text = .finite Q.value := by
  obtain ⟨hmatch, hvalue⟩ := milliMatch_of_millis h
  have hne : Q.numeral.whole ≠ [] :=
    Q.numeral.ne_nil.resolve_right (not_not.mpr (Q.numeral.no_point h.point))
  rw [cpuParser, hmatch]
  simp only [toNumber_digits Q.numeral.whole_digits hne, times]
  rw [Quantity.value, h.sign, h.suffix, hvalue]
  norm_num [Sign.negative, signed, Suffix.multiplier, SIUnit.multiplier]

theorem cpuParser_of_not_millis {Q : Quantity} (h : ¬ Millis Q) :
    cpuParser Q.text = .finite (signed Q.sign.negative Q.numeral.value * Q.suffix.power) := by
  have hnone : milliMatch Q.text = none := by
    cases hmatch : milliMatch Q.text with
    | none => rfl
    | some millis => exact absurd (millis_of_milliMatch hmatch) h
  rw [cpuParser, hnone]
  exact Q.parseFloat_text .finite

def CpuExact (Q : Quantity) : Prop := Q.numeral.value = 0 ∨ Q.suffix.Bare ∨ Millis Q

theorem shown_eq_value (Q : Quantity) :
    signed Q.sign.negative Q.numeral.value * Q.suffix.power = Q.value ↔
      Q.numeral.value = 0 ∨ Q.suffix.Bare := by
  rw [Quantity.value, mul_eq_mul_left_iff, Suffix.power_eq_multiplier, signed_eq_zero, or_comm]

theorem cpuParser_eq_value (Q : Quantity) : cpuParser Q.text = .finite Q.value ↔ CpuExact Q := by
  unfold CpuExact
  by_cases h : Millis Q
  · simp [h, cpuParser_of_millis h]
  · rw [cpuParser_of_not_millis h, JsNumber.finite.injEq, shown_eq_value]
    simp [h]

theorem isDecimal_shown (Q : Quantity) :
    IsDecimal (signed Q.sign.negative Q.numeral.value * Q.suffix.power) := by
  have hsigned : IsDecimal (signed Q.sign.negative Q.numeral.value) := by
    cases Q.sign.negative with
    | false => exact Q.numeral.isDecimal
    | true => exact Q.numeral.isDecimal.neg
  refine hsigned.mul ?_
  cases Q.suffix with
  | unit u => exact isDecimal_ofNat 1
  | exponent x => exact isDecimal_ten_zpow x.value

theorem isDecimal_cpuParser (Q : Quantity) : ∃ q, cpuParser Q.text = .finite q ∧ IsDecimal q := by
  by_cases h : Millis Q
  · refine ⟨Q.value, cpuParser_of_millis h, ?_⟩
    rw [Quantity.value, h.sign, h.suffix]
    exact Q.numeral.isDecimal.mul SIUnit.milli.isDecimal
  · exact ⟨_, cpuParser_of_not_millis h, isDecimal_shown Q⟩

theorem cpu_written {Q : Quantity} {q : ℚ} (h : cpuParser Q.text = .finite q) (hnonneg : 0 ≤ q) :
    quantityValue (JsNumber.toString (.finite q)) = some Q.value ↔ CpuExact Q := by
  obtain ⟨r, hr, hdecimal⟩ := isDecimal_cpuParser Q
  obtain rfl := JsNumber.finite.inj (hr.symm.trans h)
  rw [JsNumber.quantityValue_toString hdecimal hnonneg, Option.some.injEq, ← cpuParser_eq_value, h,
    JsNumber.finite.injEq]

theorem takeWhile_numeral (x : Numeral) {unit : JsString}
    (hunit : ∀ c ∈ unit.head?, isNumberPart c = false) :
    (x.text ++ unit).takeWhile isNumberPart = x.text ∧ (x.text ++ unit).dropWhile isNumberPart = unit :=
  ⟨takeWhile_append_stop (numeral_part x) hunit, dropWhile_append_stop (numeral_part x) hunit⟩

theorem unit_no_numberPart (u : SIUnit) : ∀ c ∈ u.text.head?, isNumberPart c = false := by
  intro c hc
  have hhead : (u.text.head?.all fun c => !isNumberPart c) = true := by
    cases u <;> decide
  rw [Option.mem_def.mp hc, Option.all_some, Bool.not_eq_true'] at hhead
  exact hhead

theorem unitMatch_unit (x : Numeral) {u : SIUnit} (hu : u ≠ .one) :
    unitMatch (x.text ++ u.text) = some (x.text, u.text) := by
  obtain ⟨htake, hdrop⟩ := takeWhile_numeral x (unit_no_numberPart u)
  have hunit : (u.text.length = 1 ∨ u.text.length = 2) ∧ u.text.all isLetter = true := by
    revert hu
    cases u <;> decide
  rw [unitMatch]
  simp only [htake, hdrop]
  rw [if_pos ⟨numeral_text_ne_nil x, hunit⟩]

theorem unitMatch_of_not_letters {number unit : JsString} (hdrop : number.dropWhile isNumberPart = unit)
    (hunit : unit = [] ∨ unit.all isLetter = false) : unitMatch number = none := by
  rw [unitMatch]
  simp only [hdrop]
  apply if_neg
  rintro ⟨-, hlength, hletters⟩
  rcases hunit with rfl | hunit
  · simp at hlength
  · rw [hunit] at hletters
    cases hletters

theorem unitMatch_bare (x : Numeral) {suffix : Suffix} (h : suffix.Bare) :
    unitMatch (x.text ++ suffix.text) = none := by
  rcases h with rfl | ⟨e, rfl⟩
  · exact unitMatch_of_not_letters (takeWhile_numeral x (unit_no_numberPart .one)).2 (Or.inl rfl)
  · have hhead : ∀ c ∈ e.text.head?, isNumberPart c = false := by
      rintro c hc
      obtain rfl := Option.some.inj hc
      cases e.upper <;> rfl
    refine unitMatch_of_not_letters (takeWhile_numeral x hhead).2 (Or.inr ?_)
    obtain ⟨d, t, hd⟩ := List.exists_cons_of_ne_nil e.ne_nil
    have hdigit := (isDigit_iff d).mp (e.digits_digits d (by simp [hd]))
    rw [List.all_eq_false]
    refine ⟨d, by simp [Exponent.text, hd], ?_⟩
    simp only [isLetter, decide_eq_true_iff, UInt16.le_iff_toNat_le, UInt16.reduceToNat]
    omega

theorem unitMatch_sign {sign : Sign} (hsign : sign ≠ .none) (s : JsString) :
    unitMatch (sign.text ++ s) = none := by
  have hnumber : (sign.text ++ s).takeWhile isNumberPart = [] := by
    cases sign with
    | none => exact absurd rfl hsign
    | plus => rfl
    | minus => rfl
  rw [unitMatch]
  simp only [hnumber]
  exact if_neg fun h => h.1 rfl

/-- A unit and no sign. -/
def HasUnit (Q : Quantity) : Prop := Q.sign = .none ∧ ∃ u, u ≠ .one ∧ Q.suffix = .unit u

theorem bare_of_not_hasUnit {Q : Quantity} (h : ¬ HasUnit Q) (hsign : Q.sign = .none) :
    Q.suffix.Bare := by
  cases hsuffix : Q.suffix with
  | unit u =>
    refine Or.inl (congrArg Suffix.unit ?_)
    by_contra hu
    exact h ⟨hsign, u, hu, hsuffix⟩
  | exponent x => exact Or.inr ⟨x, rfl⟩

theorem unitMatch_of_not_hasUnit {Q : Quantity} (h : ¬ HasUnit Q) : unitMatch Q.text = none := by
  by_cases hsign : Q.sign = .none
  · rw [Quantity.text, hsign]
    exact unitMatch_bare Q.numeral (bare_of_not_hasUnit h hsign)
  · exact unitMatch_sign hsign _

theorem parseFloat_numeral (x : Numeral) : parseFloat .finite x.text = .finite x.value := by
  have h := Quantity.parseFloat_text ⟨.none, x, .unit .one⟩ .finite
  simpa [Quantity.text, Sign.text, Suffix.text, SIUnit.text, Sign.negative, signed, Suffix.power] using h

theorem memoryMultipliers_text (u : SIUnit) : memoryMultipliers u.text =
    if u = .nano ∨ u = .micro ∨ u = .milli ∨ u = .one then none else some u.multiplier := by
  cases u <;> rfl

theorem eq_multiplier {u : SIUnit} {m : ℚ} (h : memoryMultipliers u.text = some m) :
    m = u.multiplier := by
  rw [memoryMultipliers_text] at h
  split at h
  · cases h
  · exact (Option.some.inj h).symm

theorem memoryValue_of_not_hasUnit {Q : Quantity} (h : ¬ HasUnit Q) :
    memoryValue Q.text = .finite (signed Q.sign.negative Q.numeral.value * Q.suffix.power) := by
  rw [memoryValue, memoryParser, unitMatch_of_not_hasUnit h]
  exact Q.parseFloat_text .finite

theorem memoryValue_unit (x : Numeral) {u : SIUnit} (hu : u ≠ .one) : memoryValue (x.text ++ u.text) =
    times (times (.finite x.value) (memoryMultipliers u.text)) (some (1 / 10 ^ 9)) := by
  rw [memoryValue, memoryParser, unitMatch_unit x hu]
  simp only [parseFloat_numeral]
  rfl

def KnownUnit (u : SIUnit) : Prop := ∃ m, memoryMultipliers u.text = some m

/-- The quantities whose value is read as a memory and written back in gigabytes. -/
def MemoryExact (Q : Quantity) : Prop :=
  Q.value = 0 ∨ (1000 ≤ Q.value ∧ Q.value < 10 ^ 30) ∧
    ((Q.sign = .none ∧ ∃ u, Q.suffix = .unit u ∧ KnownUnit u) ∨ Q.suffix = .unit .giga)

theorem isPlain_gigabytes (q : ℚ) :
    JsNumber.IsPlain q ↔ q * 10 ^ 9 = 0 ∨ 1000 ≤ q * 10 ^ 9 ∧ q * 10 ^ 9 < 10 ^ 30 := by
  unfold JsNumber.IsPlain
  refine or_congr (by simp) (and_congr ?_ ?_)
  · rw [← mul_le_mul_iff_left₀ (show (0 : ℚ) < 10 ^ 9 by norm_num)]
    norm_num
  · rw [← mul_lt_mul_iff_left₀ (show (0 : ℚ) < 10 ^ 9 by norm_num)]
    norm_num

theorem quantityValue_gigabytes {q : ℚ} (hq : IsDecimal q) (hnonneg : 0 ≤ q) :
    quantityValue (JsNumber.toString (.finite q) ++ js "G") =
      if JsNumber.IsPlain q then some (q * 10 ^ 9) else none :=
  JsNumber.quantityValue_toString_unit hq hnonneg (u := .giga) (by decide)

theorem isDecimal_memoryValue {Q : Quantity} {q : ℚ} (h : memoryValue Q.text = .finite q) :
    IsDecimal q := by
  by_cases hunit : HasUnit Q
  · obtain ⟨hsign, u, hu, hsuffix⟩ := hunit
    rw [Quantity.text, hsign, hsuffix, Sign.text, Suffix.text, List.nil_append,
      memoryValue_unit _ hu] at h
    cases hm : memoryMultipliers u.text with
    | none => simp [hm, times] at h
    | some m =>
      rw [hm] at h
      obtain rfl := JsNumber.finite.inj h
      rw [eq_multiplier hm]
      exact (Q.numeral.isDecimal.mul u.isDecimal).mul
        ((isDecimal_iff _).mpr ⟨1, 9, by norm_num⟩)
  · rw [memoryValue_of_not_hasUnit hunit] at h
    obtain rfl := JsNumber.finite.inj h
    exact isDecimal_shown Q

theorem shown_gigabytes {Q : Quantity} :
    signed Q.sign.negative Q.numeral.value * Q.suffix.power * 10 ^ 9 = Q.value ↔
      Q.value = 0 ∨ Q.suffix = .unit .giga := by
  have hpower : Q.suffix.power * 10 ^ 9 = Q.suffix.multiplier ↔ Q.suffix = .unit .giga := by
    cases Q.suffix with
    | unit u =>
      rw [Suffix.power, Suffix.multiplier, one_mul, eq_comm, SIUnit.multiplier_eq_giga,
        Suffix.unit.injEq]
    | exponent x =>
      have hpos : (10 : ℚ) ^ x.value ≠ 0 := (zpow_pos (by norm_num) _).ne'
      refine iff_of_false ?_ (by simp)
      norm_num [Suffix.power, Suffix.multiplier, hpos]
  rw [mul_assoc, Q.value_eq_zero, Quantity.value, mul_eq_mul_left_iff, hpower, signed_eq_zero, or_comm]

theorem gigabytes_eq_value {Q : Quantity} {q : ℚ} (h : memoryValue Q.text = .finite q) :
    q * 10 ^ 9 = Q.value ↔ Q.value = 0 ∨
      (Q.sign = .none ∧ ∃ u, Q.suffix = .unit u ∧ KnownUnit u) ∨ Q.suffix = .unit .giga := by
  by_cases hunit : HasUnit Q
  · obtain ⟨hsign, u, hu, hsuffix⟩ := hunit
    rw [Quantity.text, hsign, hsuffix, Sign.text, Suffix.text, List.nil_append,
      memoryValue_unit _ hu] at h
    cases hm : memoryMultipliers u.text with
    | none => simp [hm, times] at h
    | some m =>
      rw [hm] at h
      obtain rfl := JsNumber.finite.inj h
      refine iff_of_true ?_ (Or.inr (Or.inl ⟨hsign, u, hsuffix, m, hm⟩))
      rw [Quantity.value, hsign, hsuffix, eq_multiplier hm, Suffix.multiplier, mul_assoc _ _ (10 ^ 9 : ℚ)]
      norm_num [Sign.negative, signed]
  · have hknown : ¬ (Q.sign = .none ∧ ∃ u, Q.suffix = .unit u ∧ KnownUnit u) := by
      rintro ⟨hsign, u, hsuffix, m, hm⟩
      refine hunit ⟨hsign, u, ?_, hsuffix⟩
      rintro rfl
      rw [memoryMultipliers_text] at hm
      cases hm
    rw [memoryValue_of_not_hasUnit hunit] at h
    obtain rfl := JsNumber.finite.inj h
    rw [shown_gigabytes, or_iff_right hknown]

theorem memoryValue_text (Q : Quantity) :
    memoryValue Q.text = .nan ∨ ∃ q, memoryValue Q.text = .finite q := by
  by_cases hunit : HasUnit Q
  · obtain ⟨hsign, u, hu, hsuffix⟩ := hunit
    rw [Quantity.text, hsign, hsuffix, Sign.text, Suffix.text, List.nil_append,
      memoryValue_unit _ hu]
    cases memoryMultipliers u.text with
    | none => exact Or.inl rfl
    | some m => exact Or.inr ⟨_, rfl⟩
  · exact Or.inr ⟨_, memoryValue_of_not_hasUnit hunit⟩

theorem memory_written {Q : Quantity} {q : ℚ} (h : memoryValue Q.text = .finite q) (hnonneg : 0 ≤ q) :
    quantityValue (JsNumber.toString (.finite q) ++ js "G") = some Q.value ↔ MemoryExact Q := by
  rw [MemoryExact, or_and_left, ← gigabytes_eq_value h, and_comm,
    quantityValue_gigabytes (isDecimal_memoryValue h) hnonneg]
  by_cases hplain : JsNumber.IsPlain q
  · rw [if_pos hplain, Option.some.injEq]
    rw [isPlain_gigabytes] at hplain
    exact ⟨fun heq => ⟨heq, heq ▸ hplain⟩, And.left⟩
  · rw [if_neg hplain]
    refine iff_of_false (by simp) ?_
    rintro ⟨heq, hrange⟩
    rw [isPlain_gigabytes, heq] at hplain
    exact hplain hrange

/-- The quantities whose value is read as a disk and written back in their unit. -/
def DiskExact (Q : Quantity) : Prop :=
  Q.suffix.Bare ∨ Q.sign = .none ∧ Q.numeral.value < 10 ^ 21

theorem disk_value (Q : Quantity) : (memoryParser Q.text none).value =
    .finite (signed Q.sign.negative Q.numeral.value * Q.suffix.power) := by
  rw [memoryParser]
  split
  · exact Q.parseFloat_text .finite
  · exact Q.parseFloat_text .finite

theorem isPlain_of_one_le {q : ℚ} (h : 1 ≤ q) : JsNumber.IsPlain q ↔ q < 10 ^ 21 := by
  have hne : q ≠ 0 := (zero_lt_one.trans_le h).ne'
  have hsmall : (10 : ℚ) ^ (-6 : Int) ≤ q := le_trans (by norm_num) h
  simp only [JsNumber.IsPlain, hne, hsmall, false_or, true_and]
  norm_num

theorem disk_written {Q : Quantity} {q : ℚ} (h : (memoryParser Q.text none).value = .finite q)
    (hone : 1 ≤ q) :
    quantityValue (JsNumber.toString (.finite q) ++ (memoryParser Q.text none).originalUnit) = some Q.value ↔
      DiskExact Q := by
  have hnonneg : 0 ≤ q := zero_le_one.trans hone
  obtain rfl := JsNumber.finite.inj ((disk_value Q).symm.trans h)
  by_cases hunit : HasUnit Q
  · obtain ⟨hsign, u, hu, hsuffix⟩ := hunit
    have hbare : ¬ Q.suffix.Bare := by
      rw [hsuffix]
      simp [Suffix.Bare, hu]
    have horiginal : (memoryParser Q.text none).originalUnit = u.text := by
      rw [memoryParser, Quantity.text, hsign, hsuffix, Sign.text, Suffix.text, List.nil_append,
        unitMatch_unit _ hu]
    have hvalue : signed Q.sign.negative Q.numeral.value * Q.suffix.power = Q.numeral.value := by
      rw [hsign, hsuffix]
      simp [Sign.negative, signed, Suffix.power]
    rw [hvalue] at hone hnonneg
    rw [horiginal, hvalue, JsNumber.quantityValue_toString_unit Q.numeral.isDecimal hnonneg hu,
      DiskExact, or_iff_right hbare, and_iff_right hsign, ← isPlain_of_one_le hone]
    split
    · rename_i hplain
      refine iff_of_true ?_ hplain
      rw [Quantity.value, hsign, hsuffix]
      rfl
    · rename_i hplain
      exact iff_of_false (by simp) hplain
  · have horiginal : (memoryParser Q.text none).originalUnit = [] := by
      rw [memoryParser, unitMatch_of_not_hasUnit hunit]
    have hne : Q.numeral.value ≠ 0 := by
      intro hzero
      rw [hzero] at hone
      norm_num [signed] at hone
    rw [horiginal, List.append_nil, JsNumber.quantityValue_toString (isDecimal_shown Q) hnonneg,
      Option.some.injEq, shown_eq_value, or_iff_right hne, DiskExact, iff_self_or]
    rintro ⟨hsign, -⟩
    exact bare_of_not_hasUnit hunit hsign

end OpenEverest.Ui
