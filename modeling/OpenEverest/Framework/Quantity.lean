import OpenEverest.Framework.JsDecimal

/-!
# Quantities of Kubernetes

A signed numeral with a suffix: a unit or an exponent. Its value is the number it denotes; the
library's rounding to nano units and its largest quantity are left out.
-/

namespace OpenEverest.Framework

namespace JsString

inductive SIUnit where
  | nano | micro | milli | one | kilo | mega | giga | tera | peta | exa
  | kibi | mebi | gibi | tebi | pebi | exbi
  deriving DecidableEq

namespace SIUnit

def all : List SIUnit :=
  [nano, micro, milli, one, kilo, mega, giga, tera, peta, exa, kibi, mebi, gibi, tebi, pebi, exbi]

def text : SIUnit → JsString
  | nano => js "n"
  | micro => js "u"
  | milli => js "m"
  | one => []
  | kilo => js "k"
  | mega => js "M"
  | giga => js "G"
  | tera => js "T"
  | peta => js "P"
  | exa => js "E"
  | kibi => js "Ki"
  | mebi => js "Mi"
  | gibi => js "Gi"
  | tebi => js "Ti"
  | pebi => js "Pi"
  | exbi => js "Ei"

def multiplier : SIUnit → ℚ
  | nano => 1 / 10 ^ 9
  | micro => 1 / 10 ^ 6
  | milli => 1 / 10 ^ 3
  | one => 1
  | kilo => 10 ^ 3
  | mega => 10 ^ 6
  | giga => 10 ^ 9
  | tera => 10 ^ 12
  | peta => 10 ^ 15
  | exa => 10 ^ 18
  | kibi => 1024
  | mebi => 1024 ^ 2
  | gibi => 1024 ^ 3
  | tebi => 1024 ^ 4
  | pebi => 1024 ^ 5
  | exbi => 1024 ^ 6

theorem find_text (u : SIUnit) : all.find? (fun v => decide (v.text = u.text)) = some u := by
  cases u <;> decide

theorem multiplier_pos (u : SIUnit) : 0 < u.multiplier := by
  cases u <;> norm_num [multiplier]

theorem multiplier_eq_one (u : SIUnit) : u.multiplier = 1 ↔ u = one := by
  cases u <;> norm_num [multiplier] <;> decide

theorem multiplier_eq_giga (u : SIUnit) : u.multiplier = 10 ^ 9 ↔ u = giga := by
  cases u <;> norm_num [multiplier] <;> decide

theorem isDecimal (u : SIUnit) : IsDecimal u.multiplier := by
  refine ⟨9, ?_⟩
  cases u <;> decide +kernel

theorem text_eq_nil (u : SIUnit) : u.text = [] ↔ u = one := by
  cases u <;> decide

theorem takeExponent_text (u : SIUnit) : takeExponent u.text = (0, u.text) := by
  cases u <;> decide

end SIUnit

inductive Sign where
  | none
  | plus
  | minus
  deriving DecidableEq

namespace Sign

def text : Sign → JsString
  | none => []
  | plus => [43]
  | minus => [45]

def negative : Sign → Bool
  | minus => true
  | _ => false

end Sign

structure Exponent where
  upper : Bool
  sign : Sign
  digits : JsString
  digits_digits : AllDigits digits
  ne_nil : digits ≠ []

namespace Exponent

variable (x : Exponent)

def text : JsString := (if x.upper then 69 else 101) :: (x.sign.text ++ x.digits)

def value : Int := if x.sign.negative then -decimalValue x.digits else decimalValue x.digits

end Exponent

inductive Suffix where
  | unit (u : SIUnit)
  | exponent (x : Exponent)

namespace Suffix

def text : Suffix → JsString
  | unit u => u.text
  | exponent x => x.text

def multiplier : Suffix → ℚ
  | unit u => u.multiplier
  | exponent x => 10 ^ x.value

end Suffix

structure Quantity where
  sign : Sign
  numeral : Numeral
  suffix : Suffix

namespace Quantity

variable (Q : Quantity)

def text : JsString := Q.sign.text ++ (Q.numeral.text ++ Q.suffix.text)

def value : ℚ := signed Q.sign.negative Q.numeral.value * Q.suffix.multiplier

end Quantity

def IsQuantity (s : JsString) : Prop := ∃ Q : Quantity, Q.text = s

def suffixMultiplier (s : JsString) : Option ℚ :=
  match SIUnit.all.find? fun u => decide (u.text = s) with
  | some u => some u.multiplier
  | none =>
    let (exponent, rest) := takeExponent s
    if rest = [] then some (10 ^ exponent) else none

/-- The value of the quantity that a text is, or `none` where it is none. -/
def quantityValue (s : JsString) : Option ℚ :=
  let (negative, s) := takeSign s
  (takeNumber s).bind fun (q, rest) =>
    (suffixMultiplier rest).map fun multiplier => signed negative q * multiplier

def StartsNumeral (s : JsString) : Prop := ∃ c t, s = c :: t ∧ (isDigit c = true ∨ c = 46)

theorem Numeral.startsNumeral (x : Numeral) (rest : JsString) : StartsNumeral (x.text ++ rest) := by
  unfold Numeral.text
  cases hwhole : x.whole with
  | cons c t =>
    refine ⟨c, t ++ (if x.point then 46 :: x.fraction else []) ++ rest, by simp, Or.inl ?_⟩
    exact x.whole_digits c (by simp [hwhole])
  | nil =>
    have hfraction : x.fraction ≠ [] := x.ne_nil.resolve_left (not_not.mpr hwhole)
    have hpoint : x.point = true := by
      by_contra h
      exact hfraction (x.no_point (Bool.eq_false_iff.mpr h))
    exact ⟨46, x.fraction ++ rest, by simp [hpoint], Or.inr rfl⟩

theorem startsNumeral_digits {digits : JsString} (hdigits : AllDigits digits) (hne : digits ≠ [])
    (rest : JsString) : StartsNumeral (digits ++ rest) := by
  obtain ⟨c, t, rfl⟩ := List.exists_cons_of_ne_nil hne
  exact ⟨c, t ++ rest, rfl, Or.inl (hdigits c List.mem_cons_self)⟩

theorem takeSign_text (sign : Sign) {s : JsString} (hs : StartsNumeral s) :
    takeSign (sign.text ++ s) = (sign.negative, s) := by
  cases sign with
  | none =>
    obtain ⟨c, t, rfl, hc⟩ := hs
    rw [Sign.text, List.nil_append, takeSign.eq_3]
    · rfl
    · intro _ heq
      obtain rfl := (List.cons.inj heq).1
      exact absurd hc (by decide)
    · intro _ heq
      obtain rfl := (List.cons.inj heq).1
      exact absurd hc (by decide)
  | plus => rfl
  | minus => rfl

theorem endsNumeral_nil : EndsNumeral [] := ⟨noDigit_nil, by simp⟩

theorem endsNumeral_cons {c : UInt16} {s : JsString} (hdigit : isDigit c = false) (hpoint : c ≠ 46) :
    EndsNumeral (c :: s) :=
  ⟨by simp [NoDigit, hdigit], by simpa using hpoint⟩

theorem Exponent.endsNumeral (x : Exponent) (rest : JsString) : EndsNumeral (x.text ++ rest) := by
  unfold Exponent.text
  cases x.upper
  · exact endsNumeral_cons (by decide) (by decide)
  · exact endsNumeral_cons (by decide) (by decide)

theorem Suffix.endsNumeral (x : Suffix) : EndsNumeral x.text := by
  cases x with
  | unit u => cases u <;> first | exact endsNumeral_nil | exact endsNumeral_cons (by decide) (by decide)
  | exponent x => simpa [Suffix.text] using x.endsNumeral []

theorem takeExponent_text (x : Exponent) {rest : JsString} (hrest : NoDigit rest) :
    takeExponent (x.text ++ rest) = (x.value, rest) := by
  have hmarker : (if x.upper then (69 : UInt16) else 101) = 101 ∨
      (if x.upper then (69 : UInt16) else 101) = 69 := by
    cases x.upper <;> decide
  have hsign := takeSign_text x.sign (startsNumeral_digits x.digits_digits x.ne_nil rest)
  rw [Exponent.text, List.cons_append, List.append_assoc, takeExponent, hsign]
  simp only [takeWhile_digits x.digits_digits hrest, dropWhile_digits x.digits_digits hrest]
  rw [if_pos ⟨hmarker, x.ne_nil⟩]
  rfl

theorem Suffix.multiplier_pos (x : Suffix) : 0 < x.multiplier := by
  cases x with
  | unit u => exact u.multiplier_pos
  | exponent x => exact zpow_pos (by norm_num) _

theorem suffixMultiplier_unit (u : SIUnit) : suffixMultiplier u.text = some u.multiplier := by
  rw [suffixMultiplier, SIUnit.find_text]

theorem Exponent.text_eq (x : Exponent) : ∃ m c t, x.text = m :: c :: t ∧ c ≠ 105 := by
  obtain ⟨d, t, hd⟩ := List.exists_cons_of_ne_nil x.ne_nil
  have hdigit : isDigit d = true := x.digits_digits d (by simp [hd])
  unfold Exponent.text
  rw [hd]
  cases x.sign with
  | none =>
    refine ⟨_, d, t, rfl, ?_⟩
    rintro rfl
    exact absurd hdigit (by decide)
  | plus => exact ⟨_, 43, d :: t, rfl, by decide⟩
  | minus => exact ⟨_, 45, d :: t, rfl, by decide⟩

theorem SIUnit.text_ne_of_second (u : SIUnit) {m c : UInt16} {t : JsString} (hc : c ≠ 105) :
    u.text ≠ m :: c :: t := by
  intro h
  have hsecond : u.text.tail.head? = none ∨ u.text.tail.head? = some 105 := by
    cases u <;> decide
  rw [h] at hsecond
  simp [hc] at hsecond

theorem suffixMultiplier_exponent (x : Exponent) {rest : JsString} (hrest : NoDigit rest) :
    suffixMultiplier (x.text ++ rest) = if rest = [] then some (10 ^ x.value) else none := by
  have hnone : (SIUnit.all.find? fun u => decide (u.text = x.text ++ rest)) = none := by
    rw [List.find?_eq_none]
    intro u _
    obtain ⟨m, c, t, htext, hc⟩ := x.text_eq
    rw [htext, decide_eq_true_iff]
    exact u.text_ne_of_second hc
  rw [suffixMultiplier, hnone, takeExponent_text x hrest]

theorem Suffix.suffixMultiplier_text (x : Suffix) : suffixMultiplier x.text = some x.multiplier := by
  cases x with
  | unit u => exact suffixMultiplier_unit u
  | exponent x => simpa [Suffix.text, Suffix.multiplier] using suffixMultiplier_exponent x noDigit_nil

theorem quantityValue_numeral (sign : Sign) (x : Numeral) {rest : JsString} (hrest : EndsNumeral rest) :
    quantityValue (sign.text ++ (x.text ++ rest)) =
      (suffixMultiplier rest).map fun multiplier => signed sign.negative x.value * multiplier := by
  rw [quantityValue, takeSign_text sign (x.startsNumeral rest)]
  simp only [takeNumber_text x hrest, Option.bind_some]

theorem quantityValue_text (Q : Quantity) : quantityValue Q.text = some Q.value := by
  rw [Quantity.text, quantityValue_numeral _ _ Q.suffix.endsNumeral, Suffix.suffixMultiplier_text]
  rfl

def Suffix.power : Suffix → ℚ
  | unit _ => 1
  | exponent x => 10 ^ x.value

def Suffix.Bare (x : Suffix) : Prop := x = unit .one ∨ ∃ e, x = exponent e

theorem Suffix.power_eq_multiplier (x : Suffix) : x.power = x.multiplier ↔ x.Bare := by
  cases x with
  | unit u =>
    have hone : (1 : ℚ) = u.multiplier ↔ u = .one := by rw [eq_comm, SIUnit.multiplier_eq_one]
    simpa [Suffix.power, Suffix.multiplier, Suffix.Bare] using hone
  | exponent x => simp [Suffix.power, Suffix.multiplier, Suffix.Bare]

theorem Suffix.takeExponent_text (x : Suffix) :
    ∃ e rest, takeExponent x.text = (e, rest) ∧ (10 : ℚ) ^ e = x.power := by
  cases x with
  | unit u => exact ⟨0, u.text, u.takeExponent_text, zpow_zero _⟩
  | exponent x =>
    have h := JsString.takeExponent_text x noDigit_nil
    rw [List.append_nil] at h
    exact ⟨x.value, [], h, rfl⟩

theorem signed_mul (negative : Bool) (q r : ℚ) : signed negative (q * r) = signed negative q * r := by
  cases negative <;> simp [signed]

theorem signed_eq_zero (negative : Bool) (q : ℚ) : signed negative q = 0 ↔ q = 0 := by
  cases negative <;> simp [signed]

theorem Quantity.value_eq_zero (Q : Quantity) : Q.value = 0 ↔ Q.numeral.value = 0 := by
  rw [Quantity.value, mul_eq_zero_iff_right Q.suffix.multiplier_pos.ne', signed_eq_zero]

theorem Sign.text_not_space (sign : Sign) : ∀ c ∈ sign.text, isSpace c = false := by
  intro c hc
  cases sign with
  | none => cases hc
  | plus =>
    obtain rfl := List.mem_singleton.mp hc
    rfl
  | minus =>
    obtain rfl := List.mem_singleton.mp hc
    rfl

theorem not_space_of_startsNumeral {c : UInt16} (hc : isDigit c = true ∨ c = 46) : isSpace c = false := by
  have hrange : 46 ≤ c.toNat ∧ c.toNat ≤ 57 := by
    rcases hc with hc | rfl
    · have hdigit := (isDigit_iff c).mp hc
      omega
    · decide
  simp only [isSpace, decide_eq_false_iff_not, UInt16.le_iff_toNat_le, UInt16.ext_iff,
    UInt16.reduceToNat, not_or, not_and, not_le]
  omega

theorem Quantity.dropWhile_space (Q : Quantity) : Q.text.dropWhile isSpace = Q.text := by
  obtain ⟨c, t, ht, hc⟩ := Q.numeral.startsNumeral Q.suffix.text
  rw [Quantity.text, ht]
  have hsign := Q.sign.text_not_space
  cases hsigntext : Q.sign.text with
  | nil => rw [List.nil_append, List.dropWhile_cons_of_neg (by simp [not_space_of_startsNumeral hc])]
  | cons d u =>
    have hd := hsign d (by simp [hsigntext])
    rw [List.cons_append, List.dropWhile_cons_of_neg (by simp [hd])]

theorem StartsNumeral.not_infinity {s : JsString} (hs : StartsNumeral s) : ¬ js "Infinity" <+: s := by
  obtain ⟨c, t, rfl, hc⟩ := hs
  intro hprefix
  obtain rfl : 73 = c := (List.cons_prefix_cons.mp hprefix).1
  exact absurd hc (by decide)

theorem Quantity.parseFloat_text (Q : Quantity) (round : ℚ → JsNumber) : parseFloat round Q.text =
    round (signed Q.sign.negative Q.numeral.value * Q.suffix.power) := by
  have hstarts := Q.numeral.startsNumeral Q.suffix.text
  obtain ⟨e, rest, htake, hpower⟩ := Q.suffix.takeExponent_text
  rw [parseFloat, Q.dropWhile_space, Quantity.text, takeSign_text _ hstarts]
  simp only [if_neg hstarts.not_infinity, takeDecimal, takeNumber_text _ Q.suffix.endsNumeral,
    Option.map_some, htake]
  rw [hpower, signed_mul]

def wholeNumeral {digits : JsString} (hdigits : AllDigits digits) (hne : digits ≠ []) : Numeral where
  whole := digits
  point := false
  fraction := []
  whole_digits := hdigits
  fraction_digits := by simp [AllDigits]
  ne_nil := Or.inl hne
  no_point _ := rfl

theorem trim_digits {digits : JsString} (hdigits : AllDigits digits) : trim digits = digits := by
  have hspace : ∀ c ∈ digits, isSpace c = false := fun c hc =>
    not_space_of_startsNumeral (Or.inl (hdigits c hc))
  have hdrop : digits.dropWhile isSpace = digits := by
    cases digits with
    | nil => rfl
    | cons c t => rw [List.dropWhile_cons_of_neg (by simp [hspace c List.mem_cons_self])]
  rw [trim, hdrop, List.rdropWhile_eq_self_iff]
  intro hne
  simp [hspace _ (List.getLast_mem hne)]

theorem toNumber_digits {digits : JsString} (hdigits : AllDigits digits) (hne : digits ≠ [])
    (round : ℚ → JsNumber) : toNumber round digits = round (decimalValue digits) := by
  have hradix : ∀ c t, digits = 48 :: c :: t → isDigit c = true := by
    rintro c t rfl
    exact hdigits c (by simp)
  have hstarts : StartsNumeral digits := by
    simpa using startsNumeral_digits hdigits hne []
  have htake : takeNumber digits = some ((decimalValue digits : ℚ), []) := by
    have h := takeNumber_text (wholeNumeral hdigits hne) endsNumeral_nil
    simpa [Numeral.text, Numeral.value, wholeNumeral] using h
  have hinfinity : digits ≠ js "Infinity" := by
    rintro rfl
    exact absurd (hdigits 73 (by decide)) (by decide)
  rw [toNumber, trim_digits hdigits]
  split
  · exact absurd rfl hne
  iterate 6
    · exact absurd (hradix _ _ rfl) (by decide)
  have hsign := takeSign_text .none hstarts
  rw [Sign.text, List.nil_append] at hsign
  simp only [hsign, if_neg hinfinity, takeDecimal, htake, Option.map_some, takeExponent, zpow_zero,
    mul_one]
  rfl
end JsString

open JsString

namespace JsNumber

def writtenExponent (e : Int) : Exponent where
  upper := false
  sign := if 0 ≤ e then .plus else .minus
  digits := natDigits e.natAbs
  digits_digits := natDigits_digits _
  ne_nil := natDigits_ne_nil _

theorem writtenExponent_value (e : Int) : (writtenExponent e).value = e := by
  unfold Exponent.value writtenExponent
  by_cases he : 0 ≤ e
  · simp [he, Sign.negative]
  · simp only [he, if_false, Sign.negative, if_true, decimalValue_natDigits]
    omega

def quantity (q : ℚ) : Quantity :=
  if IsPlain q then ⟨.none, plain q, .unit .one⟩
  else ⟨.none, plain (q / 10 ^ Int.log 10 q), .exponent (writtenExponent (Int.log 10 q))⟩

theorem quantity_text (q : ℚ) : (quantity q).text = unsignedText q := by
  unfold quantity unsignedText
  split
  · simp [Quantity.text, Sign.text, Suffix.text, SIUnit.text]
  · by_cases hlog : 0 ≤ Int.log 10 q
    · simp [Quantity.text, Sign.text, Suffix.text, Exponent.text, writtenExponent, hlog]
    · simp [Quantity.text, Sign.text, Suffix.text, Exponent.text, writtenExponent, hlog]

theorem quantity_value {q : ℚ} (hq : IsDecimal q) (hnonneg : 0 ≤ q) : (quantity q).value = q := by
  unfold quantity
  split
  · simp [Quantity.value, Sign.negative, signed, Suffix.multiplier, SIUnit.multiplier,
      plain_value hq hnonneg]
  · have hten : (0 : ℚ) < 10 ^ Int.log 10 q := zpow_pos (by norm_num) _
    have hscaled : IsDecimal (q / 10 ^ Int.log 10 q) := by
      rw [div_eq_mul_inv, ← zpow_neg]
      exact hq.mul (isDecimal_ten_zpow _)
    rw [Quantity.value, plain_value hscaled (div_nonneg hnonneg hten.le), Suffix.multiplier,
      writtenExponent_value]
    simp only [Sign.negative, signed, Bool.false_eq_true, if_false]
    exact div_mul_cancel₀ q hten.ne'

theorem quantityValue_toString {q : ℚ} (hq : IsDecimal q) (hnonneg : 0 ≤ q) :
    quantityValue (toString (.finite q)) = some q := by
  rw [toString_of_nonneg hnonneg, ← quantity_text, quantityValue_text, quantity_value hq hnonneg]

theorem quantityValue_toString_unit {q : ℚ} (hq : IsDecimal q) (hnonneg : 0 ≤ q) {u : SIUnit}
    (hu : u ≠ .one) : quantityValue (toString (.finite q) ++ u.text) =
      if IsPlain q then some (q * u.multiplier) else none := by
  have hends : EndsNumeral u.text := (Suffix.unit u).endsNumeral
  rw [toString_of_nonneg hnonneg, ← quantity_text]
  unfold quantity
  split
  · rw [Quantity.text, Suffix.text, SIUnit.text, List.append_nil, List.append_assoc,
      quantityValue_numeral _ _ hends, suffixMultiplier_unit, plain_value hq hnonneg]
    rfl
  · have hnil : u.text ≠ [] := fun h => hu ((SIUnit.text_eq_nil u).mp h)
    rw [Quantity.text, Suffix.text, List.append_assoc, List.append_assoc,
      quantityValue_numeral _ _ (Exponent.endsNumeral _ _),
      suffixMultiplier_exponent _ hends.no_digit, if_neg hnil]
    rfl

theorem quantity_bare (q : ℚ) : (quantity q).suffix.Bare ∧ (quantity q).sign = .none := by
  unfold quantity
  split
  · exact ⟨Or.inl rfl, rfl⟩
  · exact ⟨Or.inr ⟨_, rfl⟩, rfl⟩

theorem decimals_natCast (n : Nat) : decimals (n : ℚ) = 0 := by
  rw [decimals, Rat.den_natCast]
  decide

theorem unsignedText_natCast {n : Nat} (hn : n < 10 ^ 21) : unsignedText n = natDigits n := by
  have hplain : IsPlain (n : ℚ) := by
    rcases Nat.eq_zero_or_pos n with rfl | hpos
    · exact Or.inl Nat.cast_zero
    · refine Or.inr ⟨le_trans (by norm_num) (Nat.one_le_cast.mpr hpos), ?_⟩
      have h : (n : ℚ) < (10 ^ 21 : ℕ) := Nat.cast_lt.mpr hn
      refine h.trans_eq ?_
      norm_num
  rw [unsignedText, if_pos hplain, Numeral.text, plain]
  simp [decimals_natCast, scaled]

def intSign (n : Int) : Sign := if n < 0 then .minus else .none

theorem toString_ofInt {n : Int} (hn : n.natAbs < 10 ^ 21) :
    toString (ofInt n) = (intSign n).text ++ natDigits n.natAbs := by
  rw [ofInt, toString, intSign]
  by_cases hneg : n < 0
  · have habs : -(n : ℚ) = n.natAbs := by
      rw [Nat.cast_natAbs, abs_of_neg hneg]
      push_cast
      rfl
    rw [if_pos (Int.cast_lt_zero.mpr hneg), if_pos hneg, habs, unsignedText_natCast hn]
    rfl
  · have habs : (n : ℚ) = n.natAbs := by
      rw [Nat.cast_natAbs, abs_of_nonneg (not_lt.mp hneg)]
    rw [if_neg (by exact_mod_cast hneg), if_neg hneg, habs, unsignedText_natCast hn]
    rfl

theorem parseInt_digits (sign : Sign) {digits : JsString} (hdigits : AllDigits digits)
    (hne : digits ≠ []) (round : ℚ → JsNumber) :
    parseInt round (sign.text ++ digits) = round (signed sign.negative (decimalValue digits)) := by
  have hspace := Quantity.dropWhile_space ⟨sign, wholeNumeral hdigits hne, .unit .one⟩
  have hstarts : StartsNumeral digits := by simpa using startsNumeral_digits hdigits hne []
  have htake : digits.takeWhile isDigit = digits := by
    simpa using takeWhile_digits hdigits noDigit_nil
  rw [Quantity.text, Suffix.text, SIUnit.text, List.append_nil, Numeral.text] at hspace
  simp only [wholeNumeral, Bool.false_eq_true, if_false, List.append_nil] at hspace
  rw [parseInt, hspace, takeSign_text sign hstarts]
  simp only [htake]
  rw [if_neg hne]

theorem parseInt_toString {n : Int} (hn : n.natAbs < 10 ^ 21) :
    parseInt .finite (toString (ofInt n)) = ofInt n := by
  rw [toString_ofInt hn, parseInt_digits _ (natDigits_digits _) (natDigits_ne_nil _),
    decimalValue_natDigits, ofInt, intSign, Nat.cast_natAbs]
  by_cases hneg : n < 0
  · simp [hneg, Sign.negative, signed, abs_of_neg hneg]
  · simp [hneg, Sign.negative, signed, abs_of_nonneg (not_lt.mp hneg)]

end JsNumber

namespace JsString

theorem isQuantity_natDigits (n : Nat) (u : SIUnit) : IsQuantity (natDigits n ++ u.text) :=
  ⟨⟨.none, wholeNumeral (natDigits_digits n) (natDigits_ne_nil n), .unit u⟩, by
    simp [Quantity.text, Sign.text, Numeral.text, wholeNumeral, Suffix.text]⟩

theorem IsQuantity.ne_nil {s : JsString} (hs : IsQuantity s) : s ≠ [] := by
  obtain ⟨Q, rfl⟩ := hs
  obtain ⟨c, t, ht, -⟩ := Q.numeral.startsNumeral Q.suffix.text
  simp [Quantity.text, ht]

end JsString

end OpenEverest.Framework
