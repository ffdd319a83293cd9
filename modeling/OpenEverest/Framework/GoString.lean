import Mathlib.Data.List.Infix
import Mathlib.Data.Nat.Digits.Lemmas
import Mathlib.Data.Rat.Floor

/-!
# Go strings

A Go string is a sequence of bytes. This module holds the functions of the Go
packages `strings` and `strconv` on them: splitting and joining at a one-byte
separator, substring search, and decimal numbers in and out.
-/

namespace OpenEverest.Framework

abbrev GoString := List UInt8

instance : LawfulBEq GoString := inferInstance

/-- The bytes of an ASCII literal. -/
def ascii (s : String) : GoString := s.toList.map fun c => c.toNat.toUInt8

namespace GoString

def split (sep : UInt8) (s : GoString) : List GoString := s.splitOn sep

def join (sep : UInt8) (ps : List GoString) : GoString := [sep].intercalate ps

def contains (s sub : GoString) : Bool := decide (sub <:+: s)

def trimSuffix (s suffix : GoString) : GoString :=
  if suffix <:+ s then s.take (s.length - suffix.length) else s

theorem trimSuffix_append (s suffix : GoString) : trimSuffix (s ++ suffix) suffix = s := by
  simp [trimSuffix]

theorem split_join (sep : UInt8) (ps : List GoString) (hne : ps ≠ [])
    (h : ∀ p ∈ ps, sep ∉ p) : split sep (join sep ps) = ps :=
  List.splitOn_intercalate sep h hne

theorem split_of_not_mem (sep : UInt8) (s : GoString) (h : sep ∉ s) : split sep s = [s] :=
  List.splitOn_eq_singleton h

theorem join_split (sep : UInt8) (s : GoString) : join sep (split sep s) = s :=
  List.intercalate_splitOn sep

theorem split_ne_nil (sep : UInt8) (s : GoString) : split sep s ≠ [] := List.splitOn_ne_nil sep s

theorem sep_not_mem_of_mem_split (sep : UInt8) (s : GoString) :
    ∀ p ∈ split sep s, sep ∉ p := by
  induction s with
  | nil => simp [split]
  | cons b s ih =>
    intro p hp
    rw [split, List.splitOn_cons_eq_if_modifyHead] at hp
    split at hp
    · rcases List.mem_cons.mp hp with rfl | hp
      · simp
      · exact ih p hp
    · rename_i hb
      obtain ⟨q, qs, hq⟩ := List.exists_cons_of_ne_nil (List.splitOn_ne_nil sep s)
      rw [hq, List.modifyHead_cons] at hp
      have hsub : ∀ r ∈ q :: qs, sep ∉ r := by
        intro r hr
        exact ih r (by simpa only [split, hq] using hr)
      rcases List.mem_cons.mp hp with rfl | hp
      · have hne : sep ≠ b := by
          intro he
          exact hb (by simp [he])
        simpa [hne] using hsub q (by simp)
      · exact hsub p (by simp [hp])

theorem split_join_concat (sep : UInt8) (ps : List GoString) (s : GoString)
    (h : ∀ p ∈ ps, sep ∉ p) : split sep (join sep (ps ++ [s])) = ps ++ split sep s := by
  have hjoin : join sep (ps ++ [s]) = join sep (ps ++ split sep s) := by
    induction ps with
    | nil => simpa [join] using (join_split sep s).symm
    | cons p ps ih =>
      have hps : ps ++ [s] ≠ [] := by simp
      have hqs : ps ++ split sep s ≠ [] := by simp [split_ne_nil]
      simp only [join] at ih
      rw [join, join, List.cons_append, List.cons_append,
        List.intercalate_cons_of_ne_nil hps, List.intercalate_cons_of_ne_nil hqs,
        ih fun p hp => h p (List.mem_cons_of_mem _ hp)]
  rw [hjoin]
  refine split_join sep _ (by simp [split_ne_nil]) ?_
  intro p hp
  rcases List.mem_append.mp hp with hp | hp
  · exact h p hp
  · exact sep_not_mem_of_mem_split sep s p hp

private theorem infix_across_sep (sep : UInt8) (q a b : GoString) (hq : sep ∉ q) :
    q <:+: a ++ sep :: b ↔ q <:+: a ∨ q <:+: b := by
  rw [List.infix_append_iff]
  constructor
  · rintro (h | h | ⟨l, r, rfl, hl, hr⟩)
    · exact .inl h
    · rcases List.infix_cons_iff.mp h with h | h
      · cases q with
        | nil => exact .inr List.nil_infix
        | cons c q =>
          obtain rfl := (List.cons_prefix_cons.mp h).1
          simp at hq
      · exact .inr h
    · cases r with
      | nil => exact .inl (by simpa using hl.isInfix)
      | cons c r =>
        obtain rfl := (List.cons_prefix_cons.mp hr).1
        simp at hq
  · rintro (h | h)
    · exact .inl h
    · exact .inr (.inl (List.infix_cons h))

/-- A string without the separator is found in a joined list exactly when it is
found in one of the entries. -/
theorem contains_join (sep : UInt8) (ps : List GoString) (q : GoString) (hne : ps ≠ [])
    (hq : sep ∉ q) : contains (join sep ps) q = true ↔ ∃ p ∈ ps, q <:+: p := by
  rw [contains, decide_eq_true_eq, join]
  induction ps with
  | nil => exact absurd rfl hne
  | cons p ps ih =>
    cases ps with
    | nil => simp
    | cons p' ps =>
      rw [List.intercalate_cons_cons, List.append_assoc, List.singleton_append,
        infix_across_sep sep q _ _ hq, ih (by simp)]
      simp only [List.exists_mem_cons_iff]

theorem infix_of_mem_split (sep : UInt8) (s : GoString) : ∀ p ∈ split sep s, p <:+: s := by
  intro p hp
  have hfound := contains_join sep (split sep s) p (split_ne_nil sep s)
    (sep_not_mem_of_mem_split sep s p hp)
  rw [join_split, contains, decide_eq_true_eq] at hfound
  exact hfound.mpr ⟨p, hp, List.infix_rfl⟩

def digitByte (d : Nat) : UInt8 := (48 + d).toUInt8

def digitVal (b : UInt8) : Option Nat :=
  if 48 ≤ b.toNat ∧ b.toNat ≤ 57 then some (b.toNat - 48) else none

def decimal (n : Nat) : GoString :=
  if n = 0 then ascii "0" else ((Nat.digits 10 n).map digitByte).reverse

def parseDigits : Nat → GoString → Option Nat
  | acc, [] => some acc
  | acc, b :: bs => (digitVal b).bind fun d => parseDigits (acc * 10 + d) bs

/-- `strconv.ParseUint(s, 10, _)` before its range check. -/
def parseUint (s : GoString) : Option Nat := if s = [] then none else parseDigits 0 s

/-- `strconv.ParseInt(s, 10, 64)`. -/
def parseInt (s : GoString) : Option Int :=
  match s with
  | 45 :: bs => (parseUint bs).bind fun n => if n ≤ 2 ^ 63 then some (-(n : Int)) else none
  | 43 :: bs => (parseUint bs).bind fun n => if n < 2 ^ 63 then some (n : Int) else none
  | bs => (parseUint bs).bind fun n => if n < 2 ^ 63 then some (n : Int) else none

theorem digitByte_toNat (d : Nat) (hd : d < 10) : (digitByte d).toNat = 48 + d := by
  have h : 48 + d < 2 ^ 8 := by omega
  simpa [digitByte, UInt8.toNat_ofNat'] using Nat.mod_eq_of_lt h

theorem digitVal_digitByte (d : Nat) (hd : d < 10) : digitVal (digitByte d) = some d := by
  rw [digitVal, digitByte_toNat d hd, if_pos (by omega)]
  simp

private theorem parseDigits_append (acc : Nat) (s : GoString) (b : UInt8) :
    parseDigits acc (s ++ [b]) =
      (parseDigits acc s).bind fun m => (digitVal b).map fun d => m * 10 + d := by
  induction s generalizing acc with
  | nil =>
    simp only [List.nil_append, parseDigits, Option.bind_some]
    cases digitVal b <;> rfl
  | cons c s ih =>
    simp only [List.cons_append, parseDigits]
    cases digitVal c with
    | none => rfl
    | some d => exact ih _

private theorem parseDigits_ofDigits (ds : List Nat) (h : ∀ d ∈ ds, d < 10) :
    parseDigits 0 (ds.map digitByte).reverse = some (Nat.ofDigits 10 ds) := by
  induction ds with
  | nil => rfl
  | cons d ds ih =>
    rw [List.map_cons, List.reverse_cons, parseDigits_append,
      ih fun e he => h e (List.mem_cons_of_mem _ he), Option.bind_some,
      digitVal_digitByte d (h d (by simp)), Nat.ofDigits_cons]
    simp only [Option.map_some, Option.some.injEq]
    ring

theorem parseUint_decimal (n : Nat) : parseUint (decimal n) = some n := by
  by_cases hn : n = 0
  · subst hn
    decide
  · have hne : ((Nat.digits 10 n).map digitByte).reverse ≠ [] := by
      simp [Nat.digits_ne_nil_iff_ne_zero, hn]
    rw [decimal, if_neg hn, parseUint, if_neg hne,
      parseDigits_ofDigits _ fun d hd => Nat.digits_lt_base (by norm_num) hd,
      Nat.ofDigits_digits]

theorem decimal_bytes (n : Nat) : ∀ b ∈ decimal n, 48 ≤ b.toNat ∧ b.toNat ≤ 57 := by
  intro b hb
  unfold decimal at hb
  split at hb
  · obtain rfl : b = 48 := by simpa [ascii] using hb
    decide
  · simp only [List.mem_reverse, List.mem_map] at hb
    obtain ⟨d, hd, rfl⟩ := hb
    have hlt := Nat.digits_lt_base (by norm_num : 1 < 10) hd
    rw [digitByte_toNat d hlt]
    omega

theorem decimal_not_mem (n : Nat) (b : UInt8) (hb : b.toNat < 48) : b ∉ decimal n := by
  intro h
  have := (decimal_bytes n b h).1
  omega

theorem decimal_injective : Function.Injective decimal := by
  intro m n h
  have hm := parseUint_decimal m
  rw [h, parseUint_decimal n] at hm
  exact (Option.some.inj hm).symm

theorem decimal_length (n k : Nat) (hlo : 10 ^ k ≤ n) (hhi : n < 10 ^ (k + 1)) :
    (decimal n).length = k + 1 := by
  have hn : n ≠ 0 := by
    have := Nat.pow_pos (n := k) (by norm_num : 0 < 10)
    omega
  have hle := (Nat.digits_length_le_iff (by norm_num : 1 < 10) n).mpr hhi
  have hlt := (Nat.lt_digits_length_iff (by norm_num : 1 < 10) n).mpr hlo
  rw [decimal, if_neg hn, List.length_reverse, List.length_map]
  omega

theorem parseInt_decimal (n : Nat) (hn : n < 2 ^ 63) : parseInt (decimal n) = some (n : Int) := by
  have hminus := decimal_not_mem n 45 (by decide)
  have hplus := decimal_not_mem n 43 (by decide)
  have hp := parseUint_decimal n
  unfold parseInt
  split
  · rename_i bs h
    exact absurd (h ▸ List.mem_cons_self) hminus
  · rename_i bs h
    exact absurd (h ▸ List.mem_cons_self) hplus
  · rw [hp, Option.bind_some, if_pos hn]

/-- A finite `float64`: a sign and a magnitude. Every rational magnitude is admitted. -/
structure Float64 where
  negative : Bool
  magnitude : ℚ
  nonneg : 0 ≤ magnitude
  deriving DecidableEq

namespace Float64

def value (x : Float64) : ℚ := if x.negative then -x.magnitude else x.magnitude

def ofNat (n : Nat) : Float64 := ⟨false, n, n.cast_nonneg⟩

/-- `float64(n)` of an integer in the exact range. -/
def ofInt (n : Int) : Float64 := ⟨decide (n < 0), n.natAbs, n.natAbs.cast_nonneg⟩

/-- `int64(x)` of a float in the range of `int64`: truncation toward zero. -/
def toInt64 (x : Float64) : Int :=
  if x.negative then -x.magnitude.floor else x.magnitude.floor

@[simp] theorem value_ofNat (n : Nat) : (ofNat n).value = n := rfl

@[simp] theorem toInt64_ofInt (n : Int) : (ofInt n).toInt64 = n := by
  have hf : ((n.natAbs : ℚ)).floor = (n.natAbs : Int) := Rat.floor_intCast (n.natAbs : Int)
  unfold toInt64 ofInt
  rw [hf]
  by_cases hn : n < 0
  · simp only [hn, decide_true, if_true]
    omega
  · simp only [hn, decide_false, Bool.false_eq_true, if_false]
    omega

theorem value_ofInt (n : Int) : (ofInt n).value = n := by
  have habs : ((n.natAbs : Nat) : ℚ) = ((|n| : Int) : ℚ) := Nat.cast_natAbs n
  by_cases hn : n < 0
  · simp only [value, ofInt, hn, decide_true, if_true, habs, abs_of_neg hn]
    simp
  · simp only [value, ofInt, hn, decide_false, Bool.false_eq_true, if_false, habs,
      abs_of_nonneg (not_lt.mp hn)]

end Float64

/-- The nearest integer, and the even one of two equally near. -/
def roundHalfEven (q : ℚ) : Nat :=
  let f := q.floor
  let r := q - f
  if r < 1 / 2 then f.toNat
  else if 1 / 2 < r then (f + 1).toNat
  else if f % 2 = 0 then f.toNat else (f + 1).toNat

/-- `strconv.FormatFloat(x, 'f', 0, 64)`. -/
def formatFloat (x : Float64) : GoString :=
  (if x.negative then ascii "-" else []) ++ decimal (roundHalfEven x.magnitude)

theorem roundHalfEven_natCast (n : Nat) : roundHalfEven n = n := by
  have hf : ((n : ℚ)).floor = (n : Int) := by
    simpa using Rat.floor_intCast (n : Int)
  simp [roundHalfEven, hf]

@[simp] theorem formatFloat_ofNat (n : Nat) : formatFloat (.ofNat n) = decimal n := by
  simp [formatFloat, Float64.ofNat, roundHalfEven_natCast]

theorem formatFloat_not_mem (x : Float64) (b : UInt8) (hb : b.toNat < 45) : b ∉ formatFloat x := by
  have hd := decimal_not_mem (roundHalfEven x.magnitude) b (by omega)
  have hne : b ≠ 45 := by
    rintro rfl
    simp at hb
  unfold formatFloat
  split <;> simp [hd, ascii, hne]

end GoString

end OpenEverest.Framework
