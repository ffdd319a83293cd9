import OpenEverest.Framework.Semver
import Mathlib.Data.List.TakeWhile

/-!
# The numbers of a version

A number of a valid version has no leading zero, so that its text fixes its value and the
comparison of texts, by length first, is the comparison of values.
-/

namespace OpenEverest.Framework.Semver

open GoString

def digitsFrom (acc : Nat) (x : GoString) : Nat :=
  x.foldl (fun acc b => acc * 10 + (b.toNat - 48)) acc

def numberValue (x : GoString) : Nat := digitsFrom 0 x

structure Canonical (x : GoString) : Prop where
  ne_nil : x ≠ []
  digits : ∀ b ∈ x, isDigit b = true
  no_zero : x.head? = some 48 → x.length = 1

theorem isDigit_iff (b : UInt8) : isDigit b = true ↔ 48 ≤ b.toNat ∧ b.toNat ≤ 57 := by
  simp only [isDigit, decide_eq_true_iff, UInt8.le_iff_toNat_le]
  rfl

theorem digitVal_of_isDigit {b : UInt8} (hb : isDigit b = true) :
    digitVal b = some (b.toNat - 48) := by
  rw [digitVal, if_pos ((isDigit_iff b).mp hb)]

theorem parseDigits_eq (acc : Nat) {x : GoString} (hx : ∀ b ∈ x, isDigit b = true) :
    parseDigits acc x = some (digitsFrom acc x) := by
  induction x generalizing acc with
  | nil => rfl
  | cons b x ih =>
    rw [parseDigits, digitVal_of_isDigit (hx b List.mem_cons_self)]
    exact ih _ fun c hc => hx c (List.mem_cons_of_mem _ hc)

theorem Canonical.parseUint {x : GoString} (hx : Canonical x) :
    GoString.parseUint x = some (numberValue x) := by
  rw [GoString.parseUint, if_neg hx.ne_nil]
  exact parseDigits_eq 0 hx.digits

theorem digitsFrom_eq (acc : Nat) (x : GoString) :
    digitsFrom acc x = acc * 10 ^ x.length + numberValue x := by
  induction x generalizing acc with
  | nil => simp [digitsFrom, numberValue]
  | cons b x ih =>
    have hacc := ih (acc * 10 + (b.toNat - 48))
    have hzero := ih (0 * 10 + (b.toNat - 48))
    simp only [numberValue, digitsFrom, List.foldl_cons, List.length_cons] at hacc hzero ⊢
    rw [hacc, hzero]
    ring

theorem numberValue_cons (b : UInt8) (x : GoString) :
    numberValue (b :: x) = (b.toNat - 48) * 10 ^ x.length + numberValue x := by
  have hcons : numberValue (b :: x) = digitsFrom (0 * 10 + (b.toNat - 48)) x := rfl
  rw [hcons, digitsFrom_eq, Nat.zero_mul, Nat.zero_add]

theorem numberValue_lt {x : GoString} (hx : ∀ b ∈ x, isDigit b = true) :
    numberValue x < 10 ^ x.length := by
  induction x with
  | nil => decide
  | cons b x ih =>
    have hb := (isDigit_iff b).mp (hx b List.mem_cons_self)
    have hrest := ih fun c hc => hx c (List.mem_cons_of_mem _ hc)
    have hdigit : b.toNat - 48 ≤ 9 := by omega
    calc numberValue (b :: x)
        = (b.toNat - 48) * 10 ^ x.length + numberValue x := numberValue_cons b x
      _ ≤ 9 * 10 ^ x.length + numberValue x := by gcongr
      _ < 9 * 10 ^ x.length + 10 ^ x.length := by gcongr
      _ = 10 ^ (b :: x).length := by rw [List.length_cons, pow_succ]; ring

theorem Canonical.pow_le {x : GoString} (hx : Canonical x) (hlong : 1 < x.length) :
    10 ^ (x.length - 1) ≤ numberValue x := by
  cases x with
  | nil => exact absurd rfl hx.ne_nil
  | cons b x =>
    have hb := (isDigit_iff b).mp (hx.digits b List.mem_cons_self)
    have hzero : b.toNat ≠ 48 := by
      intro h
      have hhead : (b :: x).head? = some 48 := by
        rw [List.head?_cons, ← UInt8.toNat_inj.mp (show b.toNat = (48 : UInt8).toNat from h)]
      have hone := hx.no_zero hhead
      omega
    have hpositive : 1 ≤ b.toNat - 48 := by omega
    calc 10 ^ ((b :: x).length - 1)
        = 1 * 10 ^ x.length := by rw [List.length_cons, Nat.add_sub_cancel, one_mul]
      _ ≤ (b.toNat - 48) * 10 ^ x.length := by gcongr
      _ ≤ (b.toNat - 48) * 10 ^ x.length + numberValue x := Nat.le_add_right _ _
      _ = numberValue (b :: x) := (numberValue_cons b x).symm

theorem Canonical.lt_of_length {x y : GoString} (hx : Canonical x) (hy : Canonical y)
    (hlength : x.length < y.length) : numberValue x < numberValue y := by
  have hpos := List.length_pos_iff.mpr hx.ne_nil
  calc numberValue x < 10 ^ x.length := numberValue_lt hx.digits
    _ ≤ 10 ^ (y.length - 1) := Nat.pow_le_pow_right (by decide) (by omega)
    _ ≤ numberValue y := hy.pow_le (by omega)

theorem add_lt_of_digit_lt {p d e r s : Nat} (hr : r < p) (hde : d < e) :
    d * p + r < e * p + s := by
  calc d * p + r < d * p + p := by gcongr
    _ = (d + 1) * p := by ring
    _ ≤ e * p := Nat.mul_le_mul_right p hde
    _ ≤ e * p + s := Nat.le_add_right _ _

/-- Of two texts of one length, the one that comes first has the smaller value. -/
theorem compare_of_length {x y : GoString} (hx : ∀ b ∈ x, isDigit b = true)
    (hy : ∀ b ∈ y, isDigit b = true) (hlength : x.length = y.length) :
    compare x y = compare (numberValue x) (numberValue y) := by
  induction x generalizing y with
  | nil =>
    cases y with
    | nil => rfl
    | cons c y => cases hlength
  | cons b x ih =>
    cases y with
    | nil => cases hlength
    | cons c y =>
      have hxs : ∀ d ∈ x, isDigit d = true := fun d hd => hx d (List.mem_cons_of_mem _ hd)
      have hys : ∀ d ∈ y, isDigit d = true := fun d hd => hy d (List.mem_cons_of_mem _ hd)
      have hb := (isDigit_iff b).mp (hx b List.mem_cons_self)
      have hc := (isDigit_iff c).mp (hy c List.mem_cons_self)
      have hlen : x.length = y.length := by simpa using hlength
      have hltx := numberValue_lt hxs
      have hlty := numberValue_lt hys
      rw [← hlen] at hlty
      rw [List.compare_cons_cons, numberValue_cons, numberValue_cons, ← hlen]
      -- The first digits decide, since what follows is less than one more of them.
      rcases Nat.lt_trichotomy b.toNat c.toNat with hlt | heq | hgt
      · have hbc : compare b c = .lt := Std.compare_eq_lt.mpr (UInt8.lt_iff_toNat_lt.mpr hlt)
        rw [hbc, Ordering.lt_then]
        symm
        apply Nat.compare_eq_lt.mpr
        exact add_lt_of_digit_lt hltx (by omega)
      · have hbc : b = c := UInt8.toNat_inj.mp heq
        rw [hbc, Std.compare_self, Ordering.eq_then, ih hxs hys hlen]
        simp only [Nat.compare_eq_ite_lt, Nat.add_lt_add_iff_left]
      · have hbc : compare b c = .gt := Std.compare_eq_gt.mpr (UInt8.lt_iff_toNat_lt.mpr hgt)
        rw [hbc, Ordering.gt_then]
        symm
        apply Nat.compare_eq_gt.mpr
        exact add_lt_of_digit_lt hlty (by omega)

theorem Canonical.compareInt {x y : GoString} (hx : Canonical x) (hy : Canonical y) :
    Semver.compareInt x y = compare (numberValue x) (numberValue y) := by
  unfold Semver.compareInt
  by_cases hxy : x = y
  · rw [if_pos hxy, hxy, Std.compare_self]
  rw [if_neg hxy]
  rcases Nat.lt_trichotomy x.length y.length with hlt | heq | hgt
  · rw [if_pos hlt]
    exact (Nat.compare_eq_lt.mpr (hx.lt_of_length hy hlt)).symm
  · rw [if_neg (by omega), if_neg (by omega)]
    exact compare_of_length hx.digits hy.digits heq
  · rw [if_neg (by omega), if_pos hgt]
    exact (Nat.compare_eq_gt.mpr (hy.lt_of_length hx hgt)).symm

theorem Canonical.eq_of_value {x y : GoString} (hx : Canonical x) (hy : Canonical y)
    (hvalue : numberValue x = numberValue y) : x = y := by
  have hcompare : Semver.compareInt x y = .eq := by
    rw [hx.compareInt hy, hvalue, Std.compare_self]
  rw [compareInt_eq] at hcompare
  exact Std.compare_eq_iff_eq.mp (compareLex_eq_eq.mp hcompare).2

theorem parseInt_canonical {v t rest : GoString} (h : Semver.parseInt v = some (t, rest)) :
    Canonical t := by
  unfold Semver.parseInt at h
  simp only at h
  split at h
  · cases h
  rename_i hne
  split at h
  · cases h
  rename_i hzero
  cases h
  refine ⟨hne, fun b hb => List.mem_takeWhile_imp hb, ?_⟩
  intro hhead
  by_contra hlength
  exact hzero ⟨hhead, hlength⟩

theorem zero_canonical : Canonical (ascii "0") := by
  have hzero : ascii "0" = [48] := rfl
  rw [hzero]
  refine ⟨List.cons_ne_nil _ _, ?_, fun _ => rfl⟩
  intro b hb
  obtain rfl := List.mem_singleton.mp hb
  rfl

theorem parseSuffixes_numbers {major minor patch v : GoString} {p : Parsed}
    (h : parseSuffixes major minor patch v = some p) :
    p.major = major ∧ p.minor = minor ∧ p.patch = patch := by
  unfold parseSuffixes at h
  split at h
  all_goals
    simp only [Option.bind_eq_bind, Option.bind_eq_some_iff] at h
    obtain ⟨⟨prerelease, rest⟩, -, h⟩ := h
    simp only at h
    split at h
    · cases h
      exact ⟨rfl, rfl, rfl⟩
    split at h
    · obtain ⟨build, -, h⟩ := Option.bind_eq_some_iff.mp h
      cases h
      exact ⟨rfl, rfl, rfl⟩
    · cases h

structure CanonicalNumbers (p : Parsed) : Prop where
  major : Canonical p.major
  minor : Canonical p.minor
  patch : Canonical p.patch

theorem parse_canonical {v : GoString} {p : Parsed} (h : parse v = some p) :
    CanonicalNumbers p := by
  unfold parse at h
  split at h
  · simp only [Option.bind_eq_bind, Option.bind_eq_some_iff] at h
    obtain ⟨⟨major, rest⟩, hmajor, h⟩ := h
    have hmajor' := parseInt_canonical hmajor
    simp only at h
    split at h
    · cases h
      exact ⟨hmajor', zero_canonical, zero_canonical⟩
    · obtain ⟨⟨minor, rest⟩, hminor, h⟩ := Option.bind_eq_some_iff.mp h
      have hminor' := parseInt_canonical hminor
      simp only at h
      split at h
      · cases h
        exact ⟨hmajor', hminor', zero_canonical⟩
      · obtain ⟨⟨patch, rest⟩, hpatch, h⟩ := Option.bind_eq_some_iff.mp h
        have hpatch' := parseInt_canonical hpatch
        obtain ⟨rfl, rfl, rfl⟩ := parseSuffixes_numbers h
        exact ⟨hmajor', hminor', hpatch'⟩
      · cases h
    · cases h
  · cases h

end OpenEverest.Framework.Semver
