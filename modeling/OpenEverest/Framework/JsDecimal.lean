import OpenEverest.Framework.JsNumber
import OpenEverest.Framework.SplitText
import Mathlib.Data.Int.Log
import Mathlib.Data.Nat.Digits.Lemmas
import Mathlib.Data.Nat.Factorization.Basic

/-!
# Writing decimal numbers

The text of a number, and what is read back from it. A number that is a decimal is written with
all its digits; a very large or very small one has an exponent.
-/

namespace OpenEverest.Framework

namespace JsString

def AllDigits (s : JsString) : Prop := ∀ c ∈ s, isDigit c = true

def digit (d : Nat) : UInt16 := (48 + d).toUInt16

theorem isDigit_iff (c : UInt16) : isDigit c = true ↔ 48 ≤ c.toNat ∧ c.toNat ≤ 57 := by
  simp only [isDigit, decide_eq_true_iff, UInt16.le_iff_toNat_le]
  rfl

theorem digit_toNat {d : Nat} (hd : d < 10) : (digit d).toNat = 48 + d := by
  have h : 48 + d < 2 ^ 16 := by omega
  simpa [digit, UInt16.toNat_ofNat'] using Nat.mod_eq_of_lt h

theorem isDigit_digit {d : Nat} (hd : d < 10) : isDigit (digit d) = true := by
  rw [isDigit_iff, digit_toNat hd]
  omega

theorem decimalValue_concat (s : JsString) (c : UInt16) :
    decimalValue (s ++ [c]) = decimalValue s * 10 + (c.toNat - 48) := by
  simp [decimalValue]

theorem decimalValue_append (s t : JsString) :
    decimalValue (s ++ t) = decimalValue s * 10 ^ t.length + decimalValue t := by
  induction t using List.reverseRecOn with
  | nil => simp [decimalValue]
  | append_singleton t c ih =>
    rw [← List.append_assoc, decimalValue_concat, ih, decimalValue_concat, List.length_append,
      List.length_singleton]
    ring

theorem decimalValue_cons (c : UInt16) (s : JsString) :
    decimalValue (c :: s) = (c.toNat - 48) * 10 ^ s.length + decimalValue s := by
  rw [← List.singleton_append, decimalValue_append]
  simp [decimalValue]

def natDigits (n : Nat) : JsString :=
  if n = 0 then [48] else ((Nat.digits 10 n).map digit).reverse

theorem decimalValue_digits {ds : List Nat} (hds : ∀ d ∈ ds, d < 10) :
    decimalValue (ds.map digit).reverse = Nat.ofDigits 10 ds := by
  induction ds with
  | nil => rfl
  | cons d ds ih =>
    rw [List.map_cons, List.reverse_cons, decimalValue_concat,
      ih fun e he => hds e (List.mem_cons_of_mem d he), digit_toNat (hds d List.mem_cons_self),
      Nat.ofDigits_cons]
    simp only [Nat.add_sub_cancel_left]
    ring

@[simp] theorem decimalValue_natDigits (n : Nat) : decimalValue (natDigits n) = n := by
  unfold natDigits
  split
  · rename_i hn
    rw [hn]
    rfl
  · rw [decimalValue_digits fun d hd => Nat.digits_lt_base (by norm_num) hd, Nat.ofDigits_digits]

theorem natDigits_digits (n : Nat) : AllDigits (natDigits n) := by
  intro c hc
  unfold natDigits at hc
  split at hc
  · obtain rfl := List.mem_singleton.mp hc
    decide
  · obtain ⟨d, hd, rfl⟩ := List.mem_map.mp (List.mem_reverse.mp hc)
    exact isDigit_digit (Nat.digits_lt_base (by norm_num) hd)

theorem natDigits_ne_nil (n : Nat) : natDigits n ≠ [] := by
  unfold natDigits
  split
  · simp
  · simpa [Nat.digits_ne_nil_iff_ne_zero] using ‹¬ n = 0›

/-- The last `d` digits. -/
def lastDigits : Nat → Nat → JsString
  | 0, _ => []
  | d + 1, n => digit (n / 10 ^ d % 10) :: lastDigits d n

@[simp] theorem lastDigits_length (d n : Nat) : (lastDigits d n).length = d := by
  induction d with
  | zero => rfl
  | succ d ih => rw [lastDigits, List.length_cons, ih]

theorem lastDigits_digits (d n : Nat) : AllDigits (lastDigits d n) := by
  induction d with
  | zero =>
    intro c hc
    cases hc
  | succ d ih =>
    intro c hc
    rcases List.mem_cons.mp hc with rfl | hc
    · exact isDigit_digit (Nat.mod_lt _ (by norm_num))
    · exact ih c hc

theorem decimalValue_lastDigits (d n : Nat) : decimalValue (lastDigits d n) = n % 10 ^ d := by
  induction d with
  | zero => simp [lastDigits, decimalValue, Nat.mod_one]
  | succ d ih =>
    rw [lastDigits, decimalValue_cons, lastDigits_length, ih,
      digit_toNat (Nat.mod_lt _ (by norm_num)), Nat.add_sub_cancel_left, pow_succ,
      Nat.mod_mul, mul_comm, add_comm]

def NoDigit (s : JsString) : Prop := ∀ c ∈ s.head?, isDigit c = false

theorem takeWhile_digits {digits rest : JsString} (hdigits : AllDigits digits) (hrest : NoDigit rest) :
    (digits ++ rest).takeWhile isDigit = digits :=
  takeWhile_append_stop hdigits hrest

theorem dropWhile_digits {digits rest : JsString} (hdigits : AllDigits digits) (hrest : NoDigit rest) :
    (digits ++ rest).dropWhile isDigit = rest :=
  dropWhile_append_stop hdigits hrest

structure Numeral where
  whole : JsString
  point : Bool
  fraction : JsString
  whole_digits : AllDigits whole
  fraction_digits : AllDigits fraction
  ne_nil : whole ≠ [] ∨ fraction ≠ []
  no_point : point = false → fraction = []

namespace Numeral

variable (x : Numeral)

def text : JsString := x.whole ++ (if x.point then 46 :: x.fraction else [])

def value : ℚ := (decimalValue (x.whole ++ x.fraction) : ℚ) / 10 ^ x.fraction.length

end Numeral

structure EndsNumeral (s : JsString) : Prop where
  no_digit : NoDigit s
  no_point : s.head? ≠ some 46

theorem noDigit_nil : NoDigit [] := by simp [NoDigit]

theorem noDigit_point (s : JsString) : NoDigit (46 :: s) := by
  intro c hc
  obtain rfl : 46 = c := by simpa using hc
  decide

theorem takeFraction_of_ends {rest : JsString} (hrest : EndsNumeral rest) :
    takeFraction rest = ([], rest) := by
  unfold takeFraction
  split
  · exact absurd rfl hrest.no_point
  · rfl

theorem takeNumber_text (x : Numeral) {rest : JsString} (hrest : EndsNumeral rest) :
    takeNumber (x.text ++ rest) = some (x.value, rest) := by
  unfold takeNumber Numeral.text
  cases hpoint : x.point with
  | false =>
    have hfraction := x.no_point hpoint
    have hwhole : x.whole ≠ [] := x.ne_nil.resolve_right (not_not.mpr hfraction)
    simp only [Bool.false_eq_true, if_false, List.append_nil,
      takeWhile_digits x.whole_digits hrest.no_digit,
      dropWhile_digits x.whole_digits hrest.no_digit, takeFraction_of_ends hrest]
    rw [if_neg (by simp [hwhole]), Numeral.value, hfraction, List.append_nil]
  | true =>
    simp only [if_true, List.append_assoc, List.cons_append,
      takeWhile_digits x.whole_digits (noDigit_point _),
      dropWhile_digits x.whole_digits (noDigit_point _), takeFraction,
      takeWhile_digits x.fraction_digits hrest.no_digit,
      dropWhile_digits x.fraction_digits hrest.no_digit]
    rw [if_neg fun h => x.ne_nil.elim (fun hw => hw h.1) fun hf => hf h.2, Numeral.value]

def IsDecimal (q : ℚ) : Prop := ∃ d : Nat, q.den ∣ 10 ^ d

theorem isDecimal_iff (q : ℚ) : IsDecimal q ↔ ∃ (m : Int) (d : Nat), q = m / 10 ^ d := by
  constructor
  · rintro ⟨d, k, hk⟩
    refine ⟨q.num * k, d, ?_⟩
    have hden : (q.den : ℚ) ≠ 0 := by exact_mod_cast q.den_ne_zero
    have hk' : (10 : ℚ) ^ d = q.den * k := by exact_mod_cast hk
    have hkne : (k : ℚ) ≠ 0 := by
      intro h
      rw [h, mul_zero] at hk'
      exact absurd hk' (by positivity)
    rw [hk']
    push_cast
    rw [mul_div_mul_right _ _ hkne, Rat.num_div_den]
  · rintro ⟨m, d, rfl⟩
    refine ⟨d, ?_⟩
    have h := Rat.den_dvd m (10 ^ d)
    exact_mod_cast h

theorem IsDecimal.mul {q r : ℚ} (hq : IsDecimal q) (hr : IsDecimal r) : IsDecimal (q * r) := by
  obtain ⟨m, d, rfl⟩ := (isDecimal_iff q).mp hq
  obtain ⟨n, e, rfl⟩ := (isDecimal_iff r).mp hr
  refine (isDecimal_iff _).mpr ⟨m * n, d + e, ?_⟩
  rw [div_mul_div_comm, pow_add]
  push_cast
  rfl

theorem IsDecimal.neg {q : ℚ} (hq : IsDecimal q) : IsDecimal (-q) := by
  simpa [IsDecimal] using hq

theorem isDecimal_ofNat (n : Nat) : IsDecimal n :=
  (isDecimal_iff _).mpr ⟨n, 0, by simp⟩

theorem isDecimal_ten_zpow (e : Int) : IsDecimal (10 ^ e) := by
  rw [isDecimal_iff]
  cases e with
  | ofNat n => exact ⟨10 ^ n, 0, by simp⟩
  | negSucc n => exact ⟨1, n + 1, by simp [zpow_negSucc]⟩

theorem Numeral.isDecimal (x : Numeral) : IsDecimal x.value :=
  (isDecimal_iff _).mpr ⟨decimalValue (x.whole ++ x.fraction), x.fraction.length, by simp [value]⟩

def decimals (q : ℚ) : Nat :=
  ((List.range (Nat.log2 q.den + 1)).find? fun d => decide (q.den ∣ 10 ^ d)).getD 0

theorem dvd_ten_pow_log {n k : Nat} (h : n ∣ 10 ^ k) : n ∣ 10 ^ Nat.log2 n := by
  have hn : n ≠ 0 := by
    rintro rfl
    exact absurd (zero_dvd_iff.mp h) (by positivity)
  refine (Nat.factorization_prime_le_iff_dvd hn (by positivity)).mp ?_
  intro p hp
  rw [Nat.factorization_pow, Finsupp.smul_apply, smul_eq_mul]
  by_cases hten : p ∣ 10
  · have hpos : 1 ≤ (Nat.factorization 10) p := (hp.dvd_iff_one_le_factorization (by norm_num)).mp hten
    have hlog : n.factorization p ≤ Nat.log2 n := by
      rw [Nat.le_log2 hn]
      calc 2 ^ n.factorization p ≤ p ^ n.factorization p := Nat.pow_le_pow_left hp.two_le _
        _ ≤ n := Nat.ordProj_le p hn
    nlinarith
  · have hzero : (Nat.factorization 10) p = 0 := Nat.factorization_eq_zero_of_not_dvd hten
    have hle := (Nat.factorization_le_iff_dvd hn (by positivity)).mpr h p
    rw [Nat.factorization_pow, Finsupp.smul_apply, smul_eq_mul, hzero, mul_zero] at hle
    omega

theorem den_dvd_decimals {q : ℚ} (hq : IsDecimal q) : q.den ∣ 10 ^ decimals q := by
  obtain ⟨k, hk⟩ := hq
  unfold decimals
  cases hfind : (List.range (Nat.log2 q.den + 1)).find? fun d => decide (q.den ∣ 10 ^ d) with
  | some d => exact of_decide_eq_true (List.find?_some (p := fun d => decide (q.den ∣ 10 ^ d)) hfind)
  | none =>
    have hnone := List.find?_eq_none.mp hfind (Nat.log2 q.den) (by simp)
    simp only [decide_eq_true_eq] at hnone
    exact absurd (dvd_ten_pow_log hk) hnone

/-- The decimal as a whole number of its last digit's units. -/
def scaled (q : ℚ) : Nat := (q * 10 ^ decimals q).num.toNat

theorem scaled_eq {q : ℚ} (hq : IsDecimal q) (hnonneg : 0 ≤ q) :
    (scaled q : ℚ) = q * 10 ^ decimals q := by
  obtain ⟨k, hk⟩ := den_dvd_decimals hq
  have hden : (q.den : ℚ) ≠ 0 := by exact_mod_cast q.den_ne_zero
  have hk' : (10 : ℚ) ^ decimals q = q.den * k := by exact_mod_cast hk
  have heq : q * 10 ^ decimals q = ((q.num * k : Int) : ℚ) := by
    rw [hk', ← mul_assoc]
    push_cast
    rw [Rat.mul_den_eq_num]
  have hnum : 0 ≤ q.num * k := mul_nonneg (Rat.num_nonneg.mpr hnonneg) (by positivity)
  rw [scaled, heq, Rat.num_intCast]
  exact_mod_cast Int.toNat_of_nonneg hnum

def plain (q : ℚ) : Numeral where
  whole := natDigits (scaled q / 10 ^ decimals q)
  point := decide (decimals q ≠ 0)
  fraction := lastDigits (decimals q) (scaled q)
  whole_digits := natDigits_digits _
  fraction_digits := lastDigits_digits _ _
  ne_nil := Or.inl (natDigits_ne_nil _)
  no_point h := by
    have hzero : decimals q = 0 := by simpa using h
    rw [hzero]
    rfl

theorem plain_value {q : ℚ} (hq : IsDecimal q) (hnonneg : 0 ≤ q) : (plain q).value = q := by
  have hten : (10 : ℚ) ^ decimals q ≠ 0 := by positivity
  have hdigits : scaled q / 10 ^ decimals q * 10 ^ decimals q + scaled q % 10 ^ decimals q = scaled q :=
    Nat.div_add_mod' _ _
  rw [Numeral.value, plain, decimalValue_append, decimalValue_natDigits, lastDigits_length,
    decimalValue_lastDigits, hdigits, scaled_eq hq hnonneg, mul_div_cancel_right₀ _ hten]

end JsString

namespace JsNumber

open JsString

def IsPlain (q : ℚ) : Prop := q = 0 ∨ (10 ^ (-6 : Int) ≤ q ∧ q < 10 ^ (21 : Int))

instance (q : ℚ) : Decidable (IsPlain q) := inferInstanceAs (Decidable (_ ∨ _))

def unsignedText (q : ℚ) : JsString :=
  if IsPlain q then (plain q).text
  else (plain (q / 10 ^ Int.log 10 q)).text ++ 101 :: (if 0 ≤ Int.log 10 q then 43 else 45) ::
    natDigits (Int.log 10 q).natAbs

/-- `toString`, and what a template makes of a number. -/
def toString : JsNumber → JsString
  | .nan => js "NaN"
  | .infinity negative => (if negative then js "-" else []) ++ js "Infinity"
  | .finite q => if q < 0 then 45 :: unsignedText (-q) else unsignedText q

theorem toString_of_nonneg {q : ℚ} (hq : 0 ≤ q) : toString (.finite q) = unsignedText q := by
  rw [toString, if_neg (not_lt.mpr hq)]

example : toString (.finite (123 / 10)) = js "12.3" := by decide +kernel

end JsNumber

end OpenEverest.Framework
