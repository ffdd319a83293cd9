import OpenEverest.Framework.GoString
import OpenEverest.Framework.Quantity

/-!
# Decimal numbers in Go

`strconv.ParseFloat` on decimal numerals, and the whole numbers with a suffix that Kubernetes
writes for its quantities. Numbers are read as exact rationals. Hexadecimal numerals,
infinities and NaN are left out, and so is the range error, which needs a number above `2^1023`.
-/

namespace OpenEverest.Framework.GoString

open JsString (SIUnit)

def isDigit (b : UInt8) : Bool := (digitVal b).isSome

def takeSign : GoString → Bool × GoString
  | [] => (false, [])
  | b :: s => if b = 45 then (true, s) else if b = 43 then (false, s) else (false, b :: s)

def negateIf (negative : Bool) (q : ℚ) : ℚ := if negative then -q else q

/-- Nothing, or an `e` and a whole number. -/
def parseExponent : GoString → Option Int
  | [] => some 0
  | b :: s =>
    if b = 101 ∨ b = 69 then
      (parseUint (takeSign s).2).map fun e : Nat =>
        if (takeSign s).1 then -(e : Int) else (e : Int)
    else none

def takeFraction : GoString → GoString × GoString
  | [] => ([], [])
  | b :: s => if b = 46 then (s.takeWhile isDigit, s.dropWhile isDigit) else ([], b :: s)

/-- `strconv.ParseFloat(s, 64)`. -/
def parseFloat (s : GoString) : Option ℚ :=
  let unsigned := (takeSign s).2
  let whole := unsigned.takeWhile isDigit
  let fraction := (takeFraction (unsigned.dropWhile isDigit)).1
  let rest := (takeFraction (unsigned.dropWhile isDigit)).2
  (parseUint (whole ++ fraction)).bind fun m =>
    (parseExponent rest).map fun e =>
      negateIf (takeSign s).1 ((m : ℚ) / 10 ^ fraction.length * 10 ^ e)

theorem isDigit_iff (b : UInt8) : isDigit b = true ↔ 48 ≤ b.toNat ∧ b.toNat ≤ 57 := by
  unfold isDigit digitVal
  split <;> simp_all

theorem isDigit_decimal (n : Nat) : ∀ b ∈ decimal n, isDigit b = true := by
  intro b hb
  exact (isDigit_iff b).mpr (decimal_bytes n b hb)

theorem decimal_ne_nil (n : Nat) : decimal n ≠ [] := by
  intro h
  have hparse := parseUint_decimal n
  rw [h] at hparse
  cases hparse

theorem takeSign_decimal (n : Nat) (rest : GoString) :
    takeSign (decimal n ++ rest) = (false, decimal n ++ rest) := by
  cases htext : decimal n with
  | nil => exact absurd htext (decimal_ne_nil n)
  | cons b s =>
    have hminus : b ≠ 45 := by
      intro heq
      exact decimal_not_mem n 45 (by decide) (htext ▸ heq ▸ List.mem_cons_self)
    have hplus : b ≠ 43 := by
      intro heq
      exact decimal_not_mem n 43 (by decide) (htext ▸ heq ▸ List.mem_cons_self)
    rw [List.cons_append, takeSign, if_neg hminus, if_neg hplus]

def EndsNumber (rest : GoString) : Prop := ∀ b ∈ rest.head?, isDigit b = false ∧ b ≠ 46

theorem takeWhile_decimal (n : Nat) {rest : GoString} (h : EndsNumber rest) :
    (decimal n ++ rest).takeWhile isDigit = decimal n :=
  takeWhile_append_stop (isDigit_decimal n) fun b hb => (h b hb).1

theorem dropWhile_decimal (n : Nat) {rest : GoString} (h : EndsNumber rest) :
    (decimal n ++ rest).dropWhile isDigit = rest :=
  dropWhile_append_stop (isDigit_decimal n) fun b hb => (h b hb).1

theorem takeFraction_of_ends {rest : GoString} (h : EndsNumber rest) :
    takeFraction rest = ([], rest) := by
  cases rest with
  | nil => rfl
  | cons b rest => rw [takeFraction, if_neg (h b rfl).2]

theorem parseFloat_decimal (n : Nat) {rest : GoString} (h : EndsNumber rest) :
    parseFloat (decimal n ++ rest) = (parseExponent rest).map fun e => (n : ℚ) * 10 ^ e := by
  simp only [parseFloat, takeSign_decimal, takeWhile_decimal n h, dropWhile_decimal n h,
    takeFraction_of_ends h, List.append_nil, parseUint_decimal, Option.bind_some, negateIf,
    List.length_nil, pow_zero, div_one, Bool.false_eq_true, if_false]

inductive QuantitySuffix where
  | unit (u : SIUnit)
  | exponent (e : Int)
  deriving DecidableEq

namespace QuantitySuffix

def unitText : SIUnit → GoString
  | .nano => ascii "n"
  | .micro => ascii "u"
  | .milli => ascii "m"
  | .one => []
  | .kilo => ascii "k"
  | .mega => ascii "M"
  | .giga => ascii "G"
  | .tera => ascii "T"
  | .peta => ascii "P"
  | .exa => ascii "E"
  | .kibi => ascii "Ki"
  | .mebi => ascii "Mi"
  | .gibi => ascii "Gi"
  | .tebi => ascii "Ti"
  | .pebi => ascii "Pi"
  | .exbi => ascii "Ei"

/-- An exponent is written with an `e` and, if it is negative, a minus sign. -/
def text : QuantitySuffix → GoString
  | unit u => unitText u
  | exponent e => 101 :: (if e < 0 then [45] else []) ++ decimal e.natAbs

def multiplier : QuantitySuffix → ℚ
  | unit u => u.multiplier
  | exponent e => 10 ^ e

theorem multiplier_nonneg (s : QuantitySuffix) : 0 ≤ s.multiplier := by
  cases s with
  | unit u => exact (SIUnit.multiplier_pos u).le
  | exponent e => exact zpow_nonneg (by norm_num) e

theorem endsNumber_text (s : QuantitySuffix) : EndsNumber s.text := by
  intro b hb
  cases s with
  | unit u =>
    revert b
    cases u <;> decide +kernel
  | exponent e =>
    obtain rfl : 101 = b := Option.some.inj hb
    decide

theorem parseExponent_text (e : Int) : parseExponent (text (exponent e)) = some e := by
  rw [text, List.cons_append, parseExponent, if_pos (Or.inl rfl)]
  by_cases he : e < 0
  · rw [if_pos he, show takeSign ([45] ++ decimal e.natAbs) = (true, decimal e.natAbs) from rfl,
      parseUint_decimal, Option.map_some, if_pos rfl]
    congr 1
    omega
  · have hsign := takeSign_decimal e.natAbs []
    rw [List.append_nil] at hsign
    rw [if_neg he, List.nil_append, hsign, parseUint_decimal, Option.map_some,
      if_neg Bool.false_ne_true]
    congr 1
    omega

/-- No unit is an exponent, `E` and `Ei` included. -/
theorem parseExponent_unitText (u : SIUnit) (h : u ≠ .one) : parseExponent (unitText u) = none := by
  revert h
  cases u <;> decide

end QuantitySuffix

/-- An amount as Kubernetes writes it: no fraction and no sign. The suffix that it chooses is
the largest; nothing here depends on that. -/
structure WholeQuantity where
  mantissa : Nat
  suffix : QuantitySuffix
  deriving DecidableEq

namespace WholeQuantity

variable (Q : WholeQuantity)

/-- `Quantity.String`. -/
def text : GoString := decimal Q.mantissa ++ Q.suffix.text

def value : ℚ := Q.mantissa * Q.suffix.multiplier

theorem value_nonneg : 0 ≤ Q.value :=
  mul_nonneg Q.mantissa.cast_nonneg Q.suffix.multiplier_nonneg

theorem text_ne_nil : Q.text ≠ [] := List.append_ne_nil_of_left_ne_nil (decimal_ne_nil _) _

theorem parseFloat_text :
    parseFloat Q.text =
      (parseExponent Q.suffix.text).map fun e => (Q.mantissa : ℚ) * 10 ^ e :=
  parseFloat_decimal Q.mantissa Q.suffix.endsNumber_text

end WholeQuantity

end OpenEverest.Framework.GoString
