import OpenEverest.Framework.Checks
import OpenEverest.Framework.GoDecimal
import OpenEverest.Framework.SplitText
import Mathlib.Data.Rat.Floor

/-!
# Quantities of nodes and containers

Memory is read with a table of suffixes that has no nano and micro; CPU is read as a number, or
as a number of thousandths. What is read must be the amount that Kubernetes wrote.
-/

namespace OpenEverest.K8s

open Framework GoString

open JsString (SIUnit)

/-! ### The convertors -/

/-- `errors` of the convertors; a `numError` is one of `strconv`, about the text it was given. -/
inductive ConvertError where
  /-- `suffix '%s' is not supported` -/
  | suffixNotSupported (suffix : GoString)
  /-- `given value '%s' is not a number` -/
  | notANumber (value : GoString)
  | numError (num : GoString)
  deriving DecidableEq

def kiloByte : ℚ := 1000
def kibiByte : ℚ := 1024
def megaByte : ℚ := kiloByte * 1000
def mibiByte : ℚ := kibiByte * 1024
def gigaByte : ℚ := megaByte * 1000
def gibiByte : ℚ := mibiByte * 1024
def teraByte : ℚ := gigaByte * 1000
def tebiByte : ℚ := gibiByte * 1024
def petaByte : ℚ := teraByte * 1000
def pebiByte : ℚ := tebiByte * 1024
def exaByte : ℚ := petaByte * 1000
def exbiByte : ℚ := pebiByte * 1024

def suffixMapping : List (GoString × ℚ) :=
  [(ascii "m", 1 / 1000), (ascii "k", kiloByte), (ascii "Ki", kibiByte), (ascii "M", megaByte),
    (ascii "Mi", mibiByte), (ascii "G", gigaByte), (ascii "Gi", gibiByte), (ascii "T", teraByte),
    (ascii "Ti", tebiByte), (ascii "P", petaByte), (ascii "Pi", pebiByte), (ascii "E", exaByte),
    (ascii "Ei", exbiByte), ([], 1)]

section Convertors

-- What the conversion of a number out of range to `uint64` gives is left to the machine.
variable (beyond : Int → UInt64)

/-- `uint64(x)` of a number whose fraction is discarded. -/
def uint64 (x : Int) : Nat := if 0 ≤ x ∧ x < 2 ^ 64 then x.toNat else (beyond x).toNat

/-- `memory[:i+1]`, up to the last digit. -/
def throughLastDigit (memory : GoString) : GoString := memory.rdropWhile fun b => !isDigit b

/-- `memory[i+1:]`, or nothing when there is no digit. -/
def suffixOf (memory : GoString) : GoString :=
  if throughLastDigit memory = [] then [] else memory.drop (throughLastDigit memory).length

def strToBytes (memory : GoString) : Except ConvertError Nat :=
  if memory = [] then .ok 0
  else
    match suffixMapping.lookup (suffixOf memory) with
    | none => .error (.suffixNotSupported (suffixOf memory))
    | some coefficient =>
      let memory := if suffixOf memory ≠ [] then throughLastDigit memory else memory
      match parseFloat memory with
      | none => .error (.notANumber memory)
      | some value => .ok (uint64 beyond ⌈value * coefficient⌉)

/-- `strconv.ParseUint(s, 10, 64)`. -/
def parseUint64 (s : GoString) : Except ConvertError Nat :=
  match parseUint s with
  | none => .error (.numError s)
  | some n => if n < 2 ^ 64 then .ok n else .error (.numError s)

/-- Truncation toward zero. -/
def towardZero (q : ℚ) : Int := if q < 0 then ⌈q⌉ else ⌊q⌋

def strToMilliCPU (cpu : GoString) : Except ConvertError Nat :=
  if cpu = [] then .ok 0
  else if cpu.getLast? = some 109 then parseUint64 cpu.dropLast
  else
    match parseFloat cpu with
    | none => .error (.numError cpu)
    | some floatCPU => .ok (uint64 beyond (towardZero (floatCPU * 1000)))

end Convertors

section Reading

variable (beyond : Int → UInt64)

theorem uint64_ceil {q : ℚ} (h : 0 ≤ q) (hsmall : ⌈q⌉₊ < 2 ^ 64) : uint64 beyond ⌈q⌉ = ⌈q⌉₊ := by
  have hceil : ⌈q⌉ = (⌈q⌉₊ : Int) := (Int.natCast_ceil_eq_ceil h).symm
  rw [hceil, uint64, if_pos (by omega), Int.toNat_natCast]

theorem uint64_lt (x : Int) : uint64 beyond x < 2 ^ 64 := by
  rw [uint64]
  split
  · omega
  · exact (beyond x).toNat_lt

theorem throughLastDigit_of_digits {s : GoString} (h : ∀ b ∈ s, isDigit b = true) :
    throughLastDigit s = s := by
  rw [throughLastDigit, List.rdropWhile_eq_self_iff]
  intro hne
  simp [h _ (List.getLast_mem hne)]

theorem unitText_not_digit (u : SIUnit) : ∀ b ∈ QuantitySuffix.unitText u, (!isDigit b) = true := by
  cases u <;> decide +kernel

theorem throughLastDigit_unit (n : Nat) (u : SIUnit) :
    throughLastDigit (decimal n ++ QuantitySuffix.unitText u) = decimal n := by
  rw [throughLastDigit, rdropWhile_append_all _ (unitText_not_digit u)]
  exact throughLastDigit_of_digits (isDigit_decimal n)

theorem suffixOf_unit (n : Nat) (u : SIUnit) :
    suffixOf (decimal n ++ QuantitySuffix.unitText u) = QuantitySuffix.unitText u := by
  rw [suffixOf, throughLastDigit_unit, if_neg (decimal_ne_nil n), List.drop_left]

theorem suffixOf_digits (s : GoString) {t : GoString} (ht : t ≠ []) (h : ∀ b ∈ t, isDigit b = true) :
    suffixOf (s ++ t) = [] := by
  have hself : throughLastDigit (s ++ t) = s ++ t := by
    rw [throughLastDigit, List.rdropWhile_eq_self_iff]
    intro _
    rw [List.getLast_append_of_ne_nil _ ht]
    simp [h _ (List.getLast_mem ht)]
  rw [suffixOf, hself, List.drop_length, ite_self]

def coefficient : SIUnit → Option ℚ
  | .nano => none
  | .micro => none
  | u => some u.multiplier

theorem lookup_unitText (u : SIUnit) :
    suffixMapping.lookup (QuantitySuffix.unitText u) = coefficient u := by
  cases u <;> decide +kernel

end Reading

section Bytes

variable (beyond : Int → UInt64) (Q : WholeQuantity)

/-- The number of bytes, rounded up. -/
def byteAmount : Nat := ⌈Q.value⌉₊

/-- The suffix is in the table: it is not nano or micro. -/
def BytesReadable : Prop := Q.suffix ≠ .unit .nano ∧ Q.suffix ≠ .unit .micro

theorem strToBytes_unit (n : Nat) (u : SIUnit) :
    strToBytes beyond (decimal n ++ QuantitySuffix.unitText u) =
      match coefficient u with
      | none => .error (.suffixNotSupported (QuantitySuffix.unitText u))
      | some c => .ok (uint64 beyond ⌈(n : ℚ) * c⌉) := by
  have hnumber : (if QuantitySuffix.unitText u ≠ [] then decimal n
      else decimal n ++ QuantitySuffix.unitText u) = decimal n := by
    split
    · rfl
    · rename_i hnil
      rw [not_not.mp hnil, List.append_nil]
  have hparse : parseFloat (decimal n) = some (n : ℚ) := by
    have hend : EndsNumber [] := by simp [EndsNumber]
    have hnumber := parseFloat_decimal n hend
    simpa [parseExponent] using hnumber
  rw [strToBytes, if_neg (List.append_ne_nil_of_left_ne_nil (decimal_ne_nil n) _), suffixOf_unit,
    lookup_unitText, throughLastDigit_unit]
  simp only [hnumber, hparse]

theorem strToBytes_exponent (n : Nat) (e : Int) :
    strToBytes beyond (WholeQuantity.text ⟨n, .exponent e⟩) =
      .ok (uint64 beyond ⌈WholeQuantity.value ⟨n, .exponent e⟩⌉) := by
  have hsuffix : suffixOf (WholeQuantity.text ⟨n, .exponent e⟩) = [] := by
    have happ := suffixOf_digits (decimal n ++ 101 :: (if e < 0 then [45] else []))
      (decimal_ne_nil e.natAbs) (isDigit_decimal e.natAbs)
    rwa [List.append_assoc] at happ
  have hparse : parseFloat (WholeQuantity.text ⟨n, .exponent e⟩) =
      some (WholeQuantity.value ⟨n, .exponent e⟩) := by
    rw [WholeQuantity.parseFloat_text, QuantitySuffix.parseExponent_text]
    rfl
  have hlookup : suffixMapping.lookup [] = some 1 := rfl
  rw [strToBytes, if_neg (WholeQuantity.text_ne_nil _), hsuffix, hlookup]
  simp only [ne_eq, not_true, if_false, hparse, mul_one]

theorem coefficient_eq_none (u : SIUnit) :
    coefficient u = none ↔ u = .nano ∨ u = .micro := by
  cases u <;> simp [coefficient]

theorem coefficient_eq_some (u : SIUnit) (h : ¬ (u = .nano ∨ u = .micro)) :
    coefficient u = some u.multiplier := by
  revert h
  cases u <;> simp [coefficient]

/-- Memory is read, rounded up, exactly where the suffix is in the table. -/
theorem strToBytes_text :
    (BytesReadable Q → strToBytes beyond Q.text = .ok (uint64 beyond ⌈Q.value⌉)) ∧
      (¬ BytesReadable Q → strToBytes beyond Q.text = .error (.suffixNotSupported Q.suffix.text)) := by
  obtain ⟨n, suffix⟩ := Q
  cases suffix with
  | exponent e =>
    refine ⟨fun _ => strToBytes_exponent beyond n e, fun hnot => absurd ?_ hnot⟩
    exact ⟨by simp, by simp⟩
  | unit u =>
    have hreadable : BytesReadable ⟨n, .unit u⟩ ↔ ¬ (u = .nano ∨ u = .micro) := by
      simp [BytesReadable]
    rw [hreadable]
    constructor
    · intro hu
      exact (strToBytes_unit beyond n u).trans (by rw [coefficient_eq_some u hu]; rfl)
    · intro hu
      have hnone := (coefficient_eq_none u).mpr (not_not.mp hu)
      exact (strToBytes_unit beyond n u).trans (by rw [hnone]; rfl)

theorem strToBytes_exact_iff :
    strToBytes beyond Q.text = .ok (byteAmount Q) ↔ BytesReadable Q ∧ byteAmount Q < 2 ^ 64 := by
  constructor
  · intro hexact
    have hreadable : BytesReadable Q := by
      by_contra hnot
      rw [(strToBytes_text beyond Q).2 hnot] at hexact
      cases hexact
    rw [(strToBytes_text beyond Q).1 hreadable] at hexact
    exact ⟨hreadable, Except.ok.inj hexact ▸ uint64_lt beyond _⟩
  · intro h
    rw [(strToBytes_text beyond Q).1 h.1, byteAmount, uint64_ceil beyond Q.value_nonneg h.2]

theorem strToBytes_le {m : Nat} (h : strToBytes beyond Q.text = .ok m) : m ≤ byteAmount Q := by
  by_cases hreadable : BytesReadable Q
  · rw [(strToBytes_text beyond Q).1 hreadable] at h
    obtain rfl := Except.ok.inj h
    by_cases hsmall : byteAmount Q < 2 ^ 64
    · exact (uint64_ceil beyond Q.value_nonneg hsmall).le
    · have hlt := uint64_lt beyond ⌈Q.value⌉
      omega
  · rw [(strToBytes_text beyond Q).2 hreadable] at h
    cases h

end Bytes

section MilliCPU

variable (beyond : Int → UInt64) (Q : WholeQuantity)

def milliAmount : Nat := ⌈Q.value * 1000⌉₊

/-- Thousandths, cores, or an exponent, and a whole number of thousandths. -/
structure MilliReadable : Prop where
  suffix : Q.suffix = .unit .milli ∨ Q.suffix = .unit .one ∨ ∃ e, Q.suffix = .exponent e
  whole : ∃ k : Nat, Q.value * 1000 = k

theorem parseExponent_isSome_iff (s : QuantitySuffix) :
    (∃ e, parseExponent s.text = some e) ↔ s = .unit .one ∨ ∃ e, s = .exponent e := by
  cases s with
  | exponent e =>
    have hparse := QuantitySuffix.parseExponent_text e
    exact ⟨fun _ => Or.inr ⟨e, rfl⟩, fun _ => ⟨e, hparse⟩⟩
  | unit u =>
    by_cases hu : u = .one
    · rw [hu]
      exact ⟨fun _ => Or.inl rfl, fun _ => ⟨0, rfl⟩⟩
    · have hnone : parseExponent (QuantitySuffix.text (.unit u)) = none :=
        QuantitySuffix.parseExponent_unitText u hu
      simp [hnone, hu]

theorem multiplier_of_parseExponent {s : QuantitySuffix} {e : Int}
    (h : parseExponent s.text = some e) : s.multiplier = 10 ^ e := by
  rcases (parseExponent_isSome_iff s).mp ⟨e, h⟩ with rfl | ⟨e', rfl⟩
  · obtain rfl : 0 = e := Option.some.inj h
    rfl
  · rw [QuantitySuffix.parseExponent_text] at h
    rw [Option.some.inj h]
    rfl

theorem getLast?_digits {s t : GoString} (ht : t ≠ []) (h : ∀ b ∈ t, isDigit b = true) :
    (s ++ t).getLast? ≠ some 109 := by
  rw [List.getLast?_append_of_ne_nil _ ht]
  intro hlast
  have hdigit := h 109 (List.mem_of_getLast? hlast)
  revert hdigit
  decide

theorem getLast?_unitText (u : SIUnit) (h : u ≠ .milli) (hone : u ≠ .one) :
    QuantitySuffix.unitText u ≠ [] ∧ (QuantitySuffix.unitText u).getLast? ≠ some 109 := by
  revert h hone
  cases u <;> decide

/-- Only `m` ends in an `m`. -/
theorem getLast?_text (h : Q.suffix ≠ .unit .milli) : Q.text.getLast? ≠ some 109 := by
  obtain ⟨n, suffix⟩ := Q
  cases suffix with
  | exponent e =>
    have hlast := getLast?_digits (s := decimal n ++ 101 :: (if e < 0 then [45] else []))
      (decimal_ne_nil e.natAbs) (isDigit_decimal e.natAbs)
    rwa [List.append_assoc] at hlast
  | unit u =>
    by_cases hone : u = .one
    · rw [hone]
      have hlast := getLast?_digits (s := []) (decimal_ne_nil n) (isDigit_decimal n)
      rwa [List.nil_append, ← List.append_nil (decimal n)] at hlast
    · have hunit : u ≠ .milli := fun heq => h (congrArg QuantitySuffix.unit heq)
      have htext := getLast?_unitText u hunit hone
      change (decimal n ++ QuantitySuffix.unitText u).getLast? ≠ some 109
      rw [List.getLast?_append_of_ne_nil _ htext.1]
      exact htext.2

theorem strToMilliCPU_milli (n : Nat) :
    strToMilliCPU beyond (WholeQuantity.text ⟨n, .unit .milli⟩) = parseUint64 (decimal n) := by
  have htext : WholeQuantity.text ⟨n, .unit .milli⟩ = decimal n ++ [109] := rfl
  rw [htext, strToMilliCPU, if_neg (List.append_ne_nil_of_left_ne_nil (decimal_ne_nil n) _),
    List.getLast?_concat, if_pos rfl, List.dropLast_concat]

theorem strToMilliCPU_number (h : Q.suffix ≠ .unit .milli) :
    strToMilliCPU beyond Q.text =
      match parseExponent Q.suffix.text with
      | none => .error (.numError Q.text)
      | some _ => .ok (uint64 beyond ⌊Q.value * 1000⌋) := by
  rw [strToMilliCPU, if_neg Q.text_ne_nil, if_neg (getLast?_text Q h), Q.parseFloat_text]
  cases hexponent : parseExponent Q.suffix.text with
  | none => rfl
  | some e =>
    have hvalue : (Q.mantissa : ℚ) * 10 ^ e = Q.value := by
      rw [WholeQuantity.value, multiplier_of_parseExponent hexponent]
    have hnonneg : ¬ Q.value * 1000 < 0 :=
      not_lt.mpr (mul_nonneg Q.value_nonneg (by norm_num))
    simp only [Option.map_some, hvalue, towardZero, if_neg hnonneg]

theorem uint64_floor_le {q : ℚ} (hq : 0 ≤ q) : uint64 beyond ⌊q⌋ ≤ ⌈q⌉₊ := by
  have hfloor : ⌊q⌋ = (⌊q⌋₊ : Int) := (Int.natCast_floor_eq_floor hq).symm
  have hle := Nat.floor_le_ceil q
  have hlt := uint64_lt beyond ⌊q⌋
  by_cases hsmall : ⌊q⌋₊ < 2 ^ 64
  · rw [hfloor, uint64, if_pos (by omega), Int.toNat_natCast]
    exact hle
  · omega

/-- What is truncated is rounded up only where nothing is lost. -/
theorem uint64_floor_eq_ceil {q : ℚ} (hq : 0 ≤ q) :
    uint64 beyond ⌊q⌋ = ⌈q⌉₊ ↔ (∃ k : Nat, q = k) ∧ ⌈q⌉₊ < 2 ^ 64 := by
  constructor
  · intro heq
    have hsmall : ⌈q⌉₊ < 2 ^ 64 := heq ▸ uint64_lt beyond _
    have hfloor : ⌊q⌋ = (⌊q⌋₊ : Int) := (Int.natCast_floor_eq_floor hq).symm
    have hle := Nat.floor_le_ceil q
    rw [hfloor, uint64, if_pos (by omega), Int.toNat_natCast] at heq
    have hup := Nat.le_ceil q
    rw [← heq] at hup
    exact ⟨⟨⌊q⌋₊, le_antisymm hup (Nat.floor_le hq)⟩, hsmall⟩
  · intro h
    obtain ⟨⟨k, rfl⟩, hsmall⟩ := h
    rw [Nat.ceil_natCast] at hsmall ⊢
    rw [Int.floor_natCast, uint64, if_pos (by omega), Int.toNat_natCast]

theorem parseUint64_decimal (n : Nat) :
    parseUint64 (decimal n) = if n < 2 ^ 64 then .ok n else .error (.numError (decimal n)) := by
  rw [parseUint64, parseUint_decimal]

theorem value_milli (n : Nat) : WholeQuantity.value ⟨n, .unit .milli⟩ * 1000 = (n : ℚ) := by
  simp only [WholeQuantity.value, QuantitySuffix.multiplier, SIUnit.multiplier]
  ring

@[simp] theorem milliAmount_milli (n : Nat) : milliAmount ⟨n, .unit .milli⟩ = n := by
  rw [milliAmount, value_milli, Nat.ceil_natCast]

theorem strToMilliCPU_exact_iff :
    strToMilliCPU beyond Q.text = .ok (milliAmount Q) ↔
      MilliReadable Q ∧ milliAmount Q < 2 ^ 64 := by
  by_cases hmilli : Q.suffix = .unit .milli
  · obtain ⟨n, suffix⟩ := Q
    obtain rfl : suffix = .unit .milli := hmilli
    have hreadable : MilliReadable ⟨n, .unit .milli⟩ := ⟨Or.inl rfl, n, value_milli n⟩
    rw [strToMilliCPU_milli, milliAmount_milli, parseUint64_decimal, and_iff_right hreadable]
    split <;> simp_all
  · have hsome := parseExponent_isSome_iff Q.suffix
    rw [strToMilliCPU_number beyond Q hmilli]
    have hnonneg : 0 ≤ Q.value * 1000 := mul_nonneg Q.value_nonneg (by norm_num)
    cases hexponent : parseExponent Q.suffix.text with
    | none =>
      have hnot : ¬ MilliReadable Q := by
        intro hreadable
        obtain ⟨e, he⟩ := hsome.mpr (hreadable.suffix.resolve_left hmilli)
        rw [hexponent] at he
        cases he
      simp [hnot]
    | some e =>
      have hsuffix := hsome.mp ⟨e, hexponent⟩
      have hiff := uint64_floor_eq_ceil beyond hnonneg
      simp only [Except.ok.injEq]
      rw [milliAmount, hiff]
      exact and_congr_left' ⟨fun hwhole => ⟨Or.inr hsuffix, hwhole⟩, MilliReadable.whole⟩

theorem strToMilliCPU_le {c : Nat} (h : strToMilliCPU beyond Q.text = .ok c) :
    c ≤ milliAmount Q := by
  by_cases hmilli : Q.suffix = .unit .milli
  · obtain ⟨n, suffix⟩ := Q
    obtain rfl : suffix = .unit .milli := hmilli
    rw [strToMilliCPU_milli, parseUint64_decimal] at h
    split at h
    · rw [milliAmount_milli, Except.ok.inj h]
    · cases h
  · have hnonneg : 0 ≤ Q.value * 1000 := mul_nonneg Q.value_nonneg (by norm_num)
    rw [strToMilliCPU_number beyond Q hmilli] at h
    cases hexponent : parseExponent Q.suffix.text with
    | none =>
      rw [hexponent] at h
      cases h
    | some e =>
      rw [hexponent] at h
      obtain rfl := Except.ok.inj h
      exact uint64_floor_le beyond hnonneg

end MilliCPU

section Sums

variable (beyond : Int → UInt64)

/-- A `corev1.ResourceList`, of which CPU and memory are read. -/
structure ResourceList where
  cpu : Option WholeQuantity
  memory : Option WholeQuantity

inductive ResourceError where
  /-- `failed to convert '%s' to millicpus` -/
  | cpu (text : GoString) (e : ConvertError)
  /-- `failed to convert '%s' to bytes` -/
  | memory (text : GoString) (e : ConvertError)

def convertOptional (convert : GoString → Except ConvertError Nat)
    (onError : GoString → ConvertError → ResourceError) : Option WholeQuantity → Except ResourceError Nat
  | none => .ok 0
  | some Q => (convert Q.text).mapError (onError Q.text)

def getResources (resources : ResourceList) : Except ResourceError (Nat × Nat) := do
  let cpuMillis ← convertOptional (strToMilliCPU beyond) .cpu resources.cpu
  let memoryBytes ← convertOptional (strToBytes beyond) .memory resources.memory
  .ok (cpuMillis, memoryBytes)

/-- The loop over the nodes, or over the containers: sums of `uint64` wrap around. -/
def sumResources (cpuMillis memoryBytes : Nat) :
    List ResourceList → Except ResourceError (Nat × Nat)
  | [] => .ok (cpuMillis, memoryBytes)
  | resources :: rest => do
    let added ← getResources beyond resources
    sumResources ((cpuMillis + added.1) % 2 ^ 64) ((memoryBytes + added.2) % 2 ^ 64) rest

def amountOf (amount : WholeQuantity → Nat) (Q : Option WholeQuantity) : Nat := Q.elim 0 amount

def cpuAmount (resources : ResourceList) : Nat := amountOf milliAmount resources.cpu

def memoryAmount (resources : ResourceList) : Nat := amountOf byteAmount resources.memory

structure ResourcesReadable (resources : ResourceList) : Prop where
  cpu : ∀ Q ∈ resources.cpu, MilliReadable Q
  memory : ∀ Q ∈ resources.memory, BytesReadable Q

variable {beyond}

theorem convertOptional_eq_amount {convert : GoString → Except ConvertError Nat}
    {onError : GoString → ConvertError → ResourceError} {amount : WholeQuantity → Nat}
    {P : WholeQuantity → Prop} (h : ∀ Q, convert Q.text = .ok (amount Q) ↔ P Q)
    (Q : Option WholeQuantity) :
    convertOptional convert onError Q = .ok (amountOf amount Q) ↔ ∀ R ∈ Q, P R := by
  cases Q with
  | none => simp [convertOptional, amountOf]
  | some R =>
    have hR := h R
    simp only [convertOptional, amountOf, Option.elim_some, Option.mem_some_iff, forall_eq', ← hR]
    cases convert R.text <;> simp [Except.mapError]

theorem convertOptional_le {convert : GoString → Except ConvertError Nat}
    {onError : GoString → ConvertError → ResourceError} {amount : WholeQuantity → Nat}
    (h : ∀ (Q : WholeQuantity) (n : Nat), convert Q.text = .ok n → n ≤ amount Q)
    {Q : Option WholeQuantity} {n : Nat} (hn : convertOptional convert onError Q = .ok n) :
    n ≤ amountOf amount Q := by
  cases Q with
  | none => exact (Except.ok.inj hn).ge
  | some R =>
    have hR := h R n
    cases hconvert : convert R.text with
    | error e => simp [convertOptional, hconvert, Except.mapError] at hn
    | ok m =>
      have hm : m = n := by simpa [convertOptional, hconvert, Except.mapError] using hn
      exact hR (hm ▸ hconvert)

theorem getResources_eq_ok {resources : ResourceList} {read : Nat × Nat} :
    getResources beyond resources = .ok read ↔
      convertOptional (strToMilliCPU beyond) .cpu resources.cpu = .ok read.1 ∧
        convertOptional (strToBytes beyond) .memory resources.memory = .ok read.2 := by
  rw [getResources]
  cases convertOptional (strToMilliCPU beyond) .cpu resources.cpu with
  | error e => simp [bind, Except.bind]
  | ok c =>
    cases convertOptional (strToBytes beyond) .memory resources.memory with
    | error e => simp [bind, Except.bind]
    | ok m => simp [bind, Except.bind, Prod.ext_iff]

theorem amountOf_lt {amount : WholeQuantity → Nat} {Q : Option WholeQuantity} :
    amountOf amount Q < 2 ^ 64 ↔ ∀ R ∈ Q, amount R < 2 ^ 64 := by
  cases Q <;> simp [amountOf]

theorem getResources_exact_iff {resources : ResourceList} :
    getResources beyond resources = .ok (cpuAmount resources, memoryAmount resources) ↔
      ResourcesReadable resources ∧ cpuAmount resources < 2 ^ 64 ∧
        memoryAmount resources < 2 ^ 64 := by
  rw [getResources_eq_ok, cpuAmount, memoryAmount,
    convertOptional_eq_amount (strToMilliCPU_exact_iff beyond),
    convertOptional_eq_amount (strToBytes_exact_iff beyond), amountOf_lt, amountOf_lt]
  constructor
  · intro h
    exact ⟨⟨fun Q hQ => (h.1 Q hQ).1, fun Q hQ => (h.2 Q hQ).1⟩, fun Q hQ => (h.1 Q hQ).2,
      fun Q hQ => (h.2 Q hQ).2⟩
  · intro h
    exact ⟨fun Q hQ => ⟨h.1.cpu Q hQ, h.2.1 Q hQ⟩, fun Q hQ => ⟨h.1.memory Q hQ, h.2.2 Q hQ⟩⟩

theorem getResources_le {resources : ResourceList} {read : Nat × Nat}
    (h : getResources beyond resources = .ok read) :
    read.1 ≤ cpuAmount resources ∧ read.2 ≤ memoryAmount resources := by
  have hread := getResources_eq_ok.mp h
  exact ⟨convertOptional_le (strToMilliCPU_le beyond) hread.1,
    convertOptional_le (strToBytes_le beyond) hread.2⟩

theorem sumResources_cons {a b : Nat} {resources : ResourceList} {rest : List ResourceList}
    {total : Nat × Nat} :
    sumResources beyond a b (resources :: rest) = .ok total ↔
      ∃ read, getResources beyond resources = .ok read ∧
        sumResources beyond ((a + read.1) % 2 ^ 64) ((b + read.2) % 2 ^ 64) rest = .ok total := by
  rw [sumResources]
  cases getResources beyond resources <;> simp [bind, Except.bind]

def totalOf (amount : ResourceList → Nat) (resources : List ResourceList) : Nat :=
  (resources.map amount).sum

@[simp] theorem totalOf_cons (amount : ResourceList → Nat) (resources : ResourceList)
    (rest : List ResourceList) :
    totalOf amount (resources :: rest) = amount resources + totalOf amount rest := by
  simp [totalOf]

theorem sumResources_le {a b : Nat} {resources : List ResourceList} {total : Nat × Nat}
    (h : sumResources beyond a b resources = .ok total) :
    total.1 ≤ a + totalOf cpuAmount resources ∧ total.2 ≤ b + totalOf memoryAmount resources := by
  induction resources generalizing a b with
  | nil =>
    obtain rfl := Except.ok.inj h
    exact ⟨Nat.le_add_right _ _, Nat.le_add_right _ _⟩
  | cons r rest ih =>
    obtain ⟨read, hread, hrest⟩ := sumResources_cons.mp h
    have hle := getResources_le hread
    have htotal := ih hrest
    have hcpu := Nat.mod_le (a + read.1) (2 ^ 64)
    have hmemory := Nat.mod_le (b + read.2) (2 ^ 64)
    simp only [totalOf_cons]
    omega

theorem sumResources_exact_iff {a b : Nat} (ha : a < 2 ^ 64) (hb : b < 2 ^ 64)
    (resources : List ResourceList) :
    sumResources beyond a b resources =
        .ok (a + totalOf cpuAmount resources, b + totalOf memoryAmount resources) ↔
      (∀ r ∈ resources, ResourcesReadable r) ∧ a + totalOf cpuAmount resources < 2 ^ 64 ∧
        b + totalOf memoryAmount resources < 2 ^ 64 := by
  induction resources generalizing a b with
  | nil =>
    simp only [sumResources, totalOf, List.map_nil, List.sum_nil, Nat.add_zero, true_iff]
    exact ⟨by simp, ha, hb⟩
  | cons r rest ih =>
    rw [sumResources_cons, totalOf_cons, totalOf_cons, List.forall_mem_cons]
    constructor
    · intro hsum
      obtain ⟨read, hread, hrest⟩ := hsum
      -- Nothing may be lost, neither in the reading nor by wrapping.
      have hle := getResources_le hread
      have htotal := sumResources_le hrest
      have hcpu := Nat.mod_le (a + read.1) (2 ^ 64)
      have hmemory := Nat.mod_le (b + read.2) (2 ^ 64)
      simp only at htotal
      have heq : read = (cpuAmount r, memoryAmount r) := Prod.ext (by omega) (by omega)
      subst heq
      have hcpu_small := Nat.mod_lt (a + cpuAmount r) (by norm_num : 0 < 2 ^ 64)
      have hmemory_small := Nat.mod_lt (b + memoryAmount r) (by norm_num : 0 < 2 ^ 64)
      have ha' : (a + cpuAmount r) % 2 ^ 64 = a + cpuAmount r := by omega
      have hb' : (b + memoryAmount r) % 2 ^ 64 = b + memoryAmount r := by omega
      rw [ha', ← Nat.add_assoc, hb', ← Nat.add_assoc] at hrest
      have hexact := (ih (ha' ▸ hcpu_small) (hb' ▸ hmemory_small)).mp hrest
      have hreadable := (getResources_exact_iff.mp hread).1
      exact ⟨⟨hreadable, hexact.1⟩, by omega, by omega⟩
    · intro h
      obtain ⟨⟨hreadable, hrest⟩, hcpu, hmemory⟩ := h
      have hread : getResources beyond r = .ok (cpuAmount r, memoryAmount r) :=
        getResources_exact_iff.mpr ⟨hreadable, by omega, by omega⟩
      refine ⟨_, hread, ?_⟩
      have ha' : (a + cpuAmount r) % 2 ^ 64 = a + cpuAmount r := Nat.mod_eq_of_lt (by omega)
      have hb' : (b + memoryAmount r) % 2 ^ 64 = b + memoryAmount r := Nat.mod_eq_of_lt (by omega)
      simp only [ha', hb', ← Nat.add_assoc]
      exact (ih (by omega) (by omega)).mpr ⟨hrest, by omega, by omega⟩

variable (beyond)

/-- A quantity is read exactly where its suffix is known and, for CPU, it is a whole number of
thousandths; the sums are exact where every quantity is. -/
theorem quantities_exact_iff :
    (∀ Q, strToBytes beyond (WholeQuantity.text Q) = .ok (byteAmount Q) ↔
      BytesReadable Q ∧ byteAmount Q < 2 ^ 64) ∧
    (∀ Q, strToMilliCPU beyond (WholeQuantity.text Q) = .ok (milliAmount Q) ↔
      MilliReadable Q ∧ milliAmount Q < 2 ^ 64) ∧
    ∀ resources, sumResources beyond 0 0 resources =
        .ok (totalOf cpuAmount resources, totalOf memoryAmount resources) ↔
      (∀ r ∈ resources, ResourcesReadable r) ∧ totalOf cpuAmount resources < 2 ^ 64 ∧
        totalOf memoryAmount resources < 2 ^ 64 := by
  refine ⟨strToBytes_exact_iff beyond, strToMilliCPU_exact_iff beyond, ?_⟩
  intro resources
  have hsum : sumResources beyond 0 0 resources = _ ↔ _ :=
    sumResources_exact_iff (Nat.two_pow_pos 64) (Nat.two_pow_pos 64) resources
  simpa only [Nat.zero_add] using hsum

/-- A node of a thousand cores, and a container that asks for a millionth of a byte. -/
theorem quantities_not_read :
    WholeQuantity.text ⟨1, .unit .kilo⟩ = ascii "1k" ∧
      milliAmount ⟨1, .unit .kilo⟩ = 1000000 ∧
      strToMilliCPU (fun _ => 0) (ascii "1k") = .error (.numError (ascii "1k")) ∧
      WholeQuantity.text ⟨1, .unit .micro⟩ = ascii "1u" ∧
      byteAmount ⟨1, .unit .micro⟩ = 1 ∧
      strToBytes (fun _ => 0) (ascii "1u") = .error (.suffixNotSupported (ascii "u")) ∧
      sumResources (fun _ => 0) 0 0 [⟨some ⟨1, .unit .kilo⟩, none⟩] =
        .error (.cpu (ascii "1k") (.numError (ascii "1k"))) := by
  have hkilo : WholeQuantity.text ⟨1, .unit .kilo⟩ = ascii "1k" := by decide +kernel
  have hmicro : WholeQuantity.text ⟨1, .unit .micro⟩ = ascii "1u" := by decide +kernel
  have hcpu : strToMilliCPU (fun _ => 0) (ascii "1k") = .error (.numError (ascii "1k")) := by
    decide +kernel
  refine ⟨hkilo, ?_, hcpu, hmicro, ?_, by decide +kernel, ?_⟩
  · norm_num [milliAmount, WholeQuantity.value, QuantitySuffix.multiplier, SIUnit.multiplier]
  · rw [byteAmount, Nat.ceil_eq_iff one_ne_zero]
    norm_num [WholeQuantity.value, QuantitySuffix.multiplier, SIUnit.multiplier]
  · simp only [sumResources, getResources, convertOptional, hkilo, hcpu]
    rfl

theorem quantities_exact_iff_sample :
    strToBytes (fun _ => 0) (WholeQuantity.text ⟨1536, .unit .mebi⟩) =
        .ok (byteAmount ⟨1536, .unit .mebi⟩) ∧
      strToMilliCPU (fun _ => 0) (WholeQuantity.text ⟨1500, .unit .milli⟩) =
        .ok (milliAmount ⟨1500, .unit .milli⟩) := by
  have hexact := quantities_exact_iff fun _ => 0
  refine ⟨(hexact.1 _).mpr ⟨⟨by decide, by decide⟩, ?_⟩, (hexact.2.1 _).mpr ⟨⟨Or.inl rfl, ?_⟩, ?_⟩⟩
  · have hvalue : WholeQuantity.value ⟨1536, .unit .mebi⟩ = (1610612736 : Nat) := by
      norm_num [WholeQuantity.value, QuantitySuffix.multiplier, SIUnit.multiplier]
    rw [byteAmount, hvalue, Nat.ceil_natCast]
    norm_num
  · exact ⟨1500, value_milli 1500⟩
  · rw [milliAmount_milli]
    norm_num

end Sums

end OpenEverest.K8s
