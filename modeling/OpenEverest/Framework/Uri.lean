import OpenEverest.Framework.Checks
import OpenEverest.Framework.GoString
import Mathlib.Data.List.TakeWhile

/-!
# The login part of a URI

The authority of a URI by the generic syntax of RFC 3986, its user-info, host and port, and
percent-decoding. Escaping a query component writes a space as a plus sign, which
percent-decoding leaves as it is.
-/

namespace OpenEverest.Framework.Uri

open GoString

/-! ### Characters -/

def isUnreserved (b : UInt8) : Bool :=
  decide (65 ≤ b.toNat ∧ b.toNat ≤ 90 ∨ 97 ≤ b.toNat ∧ b.toNat ≤ 122 ∨
    48 ≤ b.toNat ∧ b.toNat ≤ 57) || decide (b ∈ ascii "-._~")

def isSubDelim (b : UInt8) : Bool := decide (b ∈ ascii "!$&'()*+,;=")

def isDelim (b : UInt8) : Bool := decide (b ∈ ascii "/?#")

/-- The bytes of user-info: unreserved, sub-delims, colons, and percent signs of octets. -/
def isUserinfo (b : UInt8) : Bool := isUnreserved b || isSubDelim b || b = 58 || b = 37

/-- A byte that user-info holds as itself, in the user as in the password. -/
def isPlain (b : UInt8) : Bool := isUnreserved b || isSubDelim b

theorem isUserinfo_eq (b : UInt8) : isUserinfo b = (isPlain b || b = 58 || b = 37) := rfl

theorem isPlain_ne {b : UInt8} (h : isPlain b = true) : b ≠ 58 ∧ b ≠ 37 ∧ b ≠ 64 ∧ isDelim b = false := by
  have hsep : ∀ c ∈ ascii ":%@/?#", isPlain c = false := by decide +kernel
  have hne : ∀ c ∈ ascii ":%@/?#", b ≠ c := by
    intro c hc heq
    rw [heq, hsep c hc] at h
    cases h
  refine ⟨hne 58 (by decide), hne 37 (by decide), hne 64 (by decide), ?_⟩
  apply decide_eq_false
  intro hmem
  exact hne b (List.mem_append_right (ascii ":%@") hmem) rfl

theorem isUserinfo_ne {b : UInt8} (h : isUserinfo b = true) : b ≠ 64 ∧ isDelim b = false := by
  rw [isUserinfo_eq, Bool.or_eq_true, Bool.or_eq_true] at h
  rcases h with (h | h) | h
  · have hplain := isPlain_ne h
    exact hplain.2.2
  · rw [of_decide_eq_true h]
    decide
  · rw [of_decide_eq_true h]
    decide

/-! ### Percent-encoding -/

def hexVal (b : UInt8) : Option Nat :=
  if 48 ≤ b.toNat ∧ b.toNat ≤ 57 then some (b.toNat - 48)
  else if 65 ≤ b.toNat ∧ b.toNat ≤ 70 then some (b.toNat - 55)
  else if 97 ≤ b.toNat ∧ b.toNat ≤ 102 then some (b.toNat - 87)
  else none

def octet (hi lo : UInt8) : Option UInt8 :=
  (hexVal hi).bind fun a => (hexVal lo).map fun b => (16 * a + b).toUInt8

/-- A percent sign that no two hexadecimal digits follow is an error. -/
def percentDecode : GoString → Option GoString
  | [] => some []
  | b :: s =>
    if b = 37 then
      match s with
      | hi :: lo :: s => (octet hi lo).bind fun c => (percentDecode s).map (c :: ·)
      | _ => none
    else (percentDecode s).map (b :: ·)

def upperHex (n : Nat) : UInt8 := if n < 10 then (48 + n).toUInt8 else (55 + n).toUInt8

def percentEncode (b : UInt8) : GoString := [37, upperHex (b.toNat / 16), upperHex (b.toNat % 16)]

/-- `url.QueryEscape`. -/
def queryEscape (s : GoString) : GoString :=
  s.flatMap fun b => if b = 32 then [43] else if isUnreserved b then [b] else percentEncode b

theorem hexVal_upperHex (n : Nat) (hn : n < 16) : hexVal (upperHex n) = some n := by
  revert n
  decide

theorem octet_percentEncode (b : UInt8) :
    octet (upperHex (b.toNat / 16)) (upperHex (b.toNat % 16)) = some b := by
  have hb : b.toNat < 256 := b.toNat_lt
  rw [octet, hexVal_upperHex _ (by omega), hexVal_upperHex _ (by omega), Option.bind_some,
    Option.map_some, Nat.div_add_mod]
  simp

theorem percentDecode_cons {b : UInt8} (h : b ≠ 37) (s : GoString) :
    percentDecode (b :: s) = (percentDecode s).map (b :: ·) := by
  rw [percentDecode.eq_def]
  simp only [if_neg h]

theorem percentDecode_encode (b : UInt8) (s : GoString) :
    percentDecode (percentEncode b ++ s) = (percentDecode s).map (b :: ·) := by
  change percentDecode (37 :: upperHex (b.toNat / 16) :: upperHex (b.toNat % 16) :: s) = _
  rw [percentDecode, if_pos rfl]
  simp only [octet_percentEncode, Option.bind_some]

theorem percentDecode_plain (s : GoString) (h : 37 ∉ s) : percentDecode s = some s := by
  induction s with
  | nil => rfl
  | cons b s ih =>
    rw [List.mem_cons, not_or] at h
    rw [percentDecode_cons (Ne.symm h.1), ih h.2, Option.map_some]

theorem percentDecode_length (s t : GoString) (h : percentDecode s = some t) :
    t.length + 2 * s.count 37 ≤ s.length := by
  induction s using percentDecode.induct generalizing t with
  | case1 =>
    obtain rfl := Option.some.inj h
    simp
  | case2 hi lo s ih =>
    rw [percentDecode, if_pos rfl] at h
    simp only [Option.bind_eq_some_iff, Option.map_eq_some_iff] at h
    obtain ⟨c, hc, u, hu, rfl⟩ := h
    have hhi : hi ≠ 37 := by
      intro heq
      rw [heq] at hc
      cases hc
    have hlo : lo ≠ 37 := by
      intro heq
      rw [heq, octet, show hexVal 37 = none from rfl] at hc
      simp at hc
    have hle := ih u hu
    simp only [List.count_cons, List.length_cons, beq_iff_eq, if_neg hhi, if_neg hlo,
      if_true]
    omega
  | case3 s hs =>
    rw [percentDecode.eq_def] at h
    simp only [if_true] at h
    cases h
  | case4 b s hb ih =>
    rw [percentDecode_cons hb] at h
    simp only [Option.map_eq_some_iff] at h
    obtain ⟨u, hu, rfl⟩ := h
    have hle := ih u hu
    simp only [List.count_cons, List.length_cons, beq_iff_eq, if_neg hb]
    omega

theorem percentDecode_self {s : GoString} (h : percentDecode s = some s) : 37 ∉ s := by
  have hle := percentDecode_length s s h
  exact List.count_eq_zero.mp (by omega)

theorem percentDecode_queryEscape (s : GoString) :
    percentDecode (queryEscape s) = some (s.map fun b => if b = 32 then 43 else b) := by
  induction s with
  | nil => rfl
  | cons b s ih =>
    rw [queryEscape] at ih ⊢
    rw [List.flatMap_cons, List.map_cons]
    by_cases hspace : b = 32
    · rw [if_pos hspace, if_pos hspace, List.singleton_append, percentDecode_cons (by decide), ih,
        Option.map_some]
    · rw [if_neg hspace, if_neg hspace]
      by_cases hunreserved : isUnreserved b = true
      · have hplain : isPlain b = true := by simp [isPlain, hunreserved]
        rw [if_pos hunreserved, List.singleton_append,
          percentDecode_cons (isPlain_ne hplain).2.1, ih, Option.map_some]
      · rw [if_neg hunreserved, percentDecode_encode, ih, Option.map_some]

theorem percentDecode_queryEscape_self (s : GoString) :
    percentDecode (queryEscape s) = some s ↔ 32 ∉ s := by
  rw [percentDecode_queryEscape, Option.some.injEq]
  induction s with
  | nil => simp
  | cons b s ih =>
    rw [List.map_cons, List.cons.injEq, ih, List.mem_cons, not_or]
    apply and_congr_left
    intro _
    by_cases hspace : b = 32
    · simp [hspace]
    · simp [hspace, Ne.symm hspace]

theorem upperHex_isUserinfo (n : Nat) (hn : n < 16) :
    isUserinfo (upperHex n) = true ∧ upperHex n ≠ 58 := by
  revert n
  decide +kernel

theorem queryEscape_isUserinfo (s : GoString) :
    ∀ b ∈ queryEscape s, isUserinfo b = true ∧ b ≠ 58 := by
  intro b hb
  obtain ⟨c, -, hb⟩ := List.mem_flatMap.mp hb
  have hc : c.toNat < 256 := c.toNat_lt
  split at hb
  · rw [List.mem_singleton.mp hb]
    decide +kernel
  · split at hb
    · rename_i hunreserved
      have hplain : isPlain c = true := by simp [isPlain, hunreserved]
      rw [List.mem_singleton.mp hb, isUserinfo_eq, hplain]
      exact ⟨rfl, (isPlain_ne hplain).1⟩
    · simp only [percentEncode, List.mem_cons, List.not_mem_nil, or_false] at hb
      rcases hb with rfl | rfl | rfl
      · decide +kernel
      · exact upperHex_isUserinfo _ (by omega)
      · exact upperHex_isUserinfo _ (by omega)

/-! ### The components -/

def cut (sep : UInt8) (s : GoString) : Option (GoString × GoString) :=
  match s.dropWhile (· ≠ sep) with
  | [] => none
  | _ :: rest => some (s.takeWhile (· ≠ sep), rest)

theorem cut_eq_some (sep : UInt8) (s before after : GoString) :
    cut sep s = some (before, after) ↔ s = before ++ sep :: after ∧ sep ∉ before := by
  induction s generalizing before with
  | nil => simp [cut]
  | cons b s ih =>
    by_cases hb : b = sep
    · subst hb
      cases before with
      | nil => simp [cut]
      | cons c before => simp +contextual [cut]
    · have hcut : cut sep (b :: s) = (cut sep s).map fun p => (b :: p.1, p.2) := by
        simp only [cut, List.dropWhile_cons, List.takeWhile_cons, ne_eq, hb, not_false_eq_true,
          decide_true, if_true]
        cases s.dropWhile (· ≠ sep) <;> rfl
      rw [hcut]
      cases before with
      | nil => simp [hb]
      | cons c before =>
        have hsome : (cut sep s).map (fun p => (b :: p.1, p.2)) = some (c :: before, after) ↔
            b = c ∧ cut sep s = some (before, after) := by
          cases cut sep s with
          | none => simp
          | some p =>
            rw [Option.map_some, Option.some.injEq, Option.some.injEq, Prod.mk.injEq,
              List.cons.injEq, Prod.ext_iff, and_assoc]
        rw [hsome, ih, List.cons_append, List.cons.injEq, List.mem_cons, not_or, and_assoc]
        apply and_congr_right
        intro hbc
        rw [← hbc]
        exact and_congr_right fun _ => (and_iff_right (Ne.symm hb)).symm

/-! ### Host and port -/

def isDigit (b : UInt8) : Bool := decide (48 ≤ b.toNat ∧ b.toNat ≤ 57)

def isHexDigit (b : UInt8) : Bool := (hexVal b).isSome

def isRegName (s : GoString) : Bool :=
  s.all (fun b => isPlain b || b = 37) && (percentDecode s).isSome

/-- Four numbers up to 255, without leading zeros. -/
def isIPv4 (s : GoString) : Bool :=
  (split 46 s).length = 4 && (split 46 s).all fun part =>
    (List.range 256).any fun n => decimal n = part

def isH16 (s : GoString) : Bool := 1 ≤ s.length && s.length ≤ 4 && s.all isHexDigit

/-- How many 16-bit groups there are; an IPv4 address in the last place makes two. -/
def groupCount (lastIPv4 : Bool) : List GoString → Option Nat
  | [] => some 0
  | [s] => if isH16 s then some 1 else if lastIPv4 && isIPv4 s then some 2 else none
  | s :: rest => if isH16 s then (groupCount lastIPv4 rest).map (· + 1) else none

/-- The text before the first two colons in a row, and what follows them. -/
def cutElision : GoString → Option (GoString × GoString)
  | [] => none
  | b :: s =>
    if b = 58 ∧ s.head? = some 58 then some ([], s.tail)
    else (cutElision s).map fun p => (b :: p.1, p.2)

def groups (s : GoString) : List GoString := if s = [] then [] else split 58 s

/-- Eight groups, of which two colons in a row stand for one or more that are zero. -/
def isIPv6 (s : GoString) : Bool :=
  match cutElision s with
  | none => groupCount true (groups s) = some 8
  | some (before, after) =>
    match groupCount false (groups before), groupCount true (groups after) with
    | some m, some n => m + n ≤ 7
    | _, _ => false

def isIPvFuture (s : GoString) : Bool :=
  (s.head? = some 118 || s.head? = some 86) &&
    match cut 46 s.tail with
    | none => false
    | some (version, address) => version ≠ [] && version.all isHexDigit &&
        address ≠ [] && address.all fun b => isPlain b || b = 58

def isIPLiteral (s : GoString) : Bool := isIPv6 s || isIPvFuture s

/-- An IP literal in brackets or a registered name; every IPv4 address is also a name. -/
def isHost (s : GoString) : Bool :=
  isRegName s ||
    (s.head? = some 91 && s.getLast? = some 93 && isIPLiteral s.tail.dropLast)

/-- `host [ ":" port ]`. -/
def isHostPort (s : GoString) : Bool :=
  isHost s || (List.range s.length).any fun n =>
    isHost (s.take n) && (s.drop n).head? = some 58 && (s.drop (n + 1)).all isDigit

theorem isHostPort_iff (s : GoString) : isHostPort s = true ↔ isHost s = true ∨
    ∃ host port, s = host ++ 58 :: port ∧ isHost host = true ∧ ∀ b ∈ port, isDigit b = true := by
  rw [isHostPort, Bool.or_eq_true, List.any_eq_true]
  apply or_congr Iff.rfl
  simp only [List.mem_range, Bool.and_eq_true, decide_eq_true_eq, List.all_eq_true]
  constructor
  · rintro ⟨n, -, ⟨hhost, hcolon⟩, hport⟩
    refine ⟨s.take n, s.drop (n + 1), ?_, hhost, hport⟩
    obtain ⟨rest, hrest⟩ := List.head?_eq_some_iff.mp hcolon
    have htail : s.drop (n + 1) = rest := by rw [← List.tail_drop, hrest, List.tail_cons]
    rw [htail, ← hrest, List.take_append_drop]
  · rintro ⟨host, port, rfl, hhost, hport⟩
    refine ⟨host.length, by simp, ⟨by simpa using hhost, by simp⟩, ?_⟩
    simpa using hport

section Bytes

def isLiteralByte (b : UInt8) : Bool := isPlain b || b = 58

theorem isPlain_of_isDigit {b : UInt8} (h : isDigit b = true) : isPlain b = true := by
  have hb := of_decide_eq_true h
  simp [isPlain, isUnreserved, hb]

theorem isPlain_of_isHexDigit {b : UInt8} (h : isHexDigit b = true) : isPlain b = true := by
  rw [isHexDigit, hexVal] at h
  split at h
  · rename_i hb
    simp [isPlain, isUnreserved, hb]
  · split at h
    · have hb : 65 ≤ b.toNat ∧ b.toNat ≤ 90 := by omega
      simp [isPlain, isUnreserved, hb]
    · split at h
      · have hb : 97 ≤ b.toNat ∧ b.toNat ≤ 122 := by omega
        simp [isPlain, isUnreserved, hb]
      · cases h

theorem isH16_plain {s : GoString} (h : isH16 s = true) : ∀ b ∈ s, isPlain b = true := by
  simp only [isH16, Bool.and_eq_true, List.all_eq_true] at h
  exact fun b hb => isPlain_of_isHexDigit (h.2 b hb)

theorem mem_or_sep (sep : UInt8) (s : GoString) :
    ∀ b ∈ s, b = sep ∨ ∃ part ∈ split sep s, b ∈ part := by
  intro b hb
  rw [← join_split sep s, join] at hb
  have hmem : ∀ parts : List GoString, b ∈ [sep].intercalate parts →
      b = sep ∨ ∃ part ∈ parts, b ∈ part := by
    intro parts
    induction parts with
    | nil => simp
    | cons part rest ih =>
      cases rest with
      | nil => simpa using Or.inr
      | cons next rest =>
        rw [List.intercalate_cons_cons]
        simp only [List.mem_append, List.mem_cons] at ih ⊢
        grind
  exact hmem _ hb

theorem isIPv4_plain {s : GoString} (h : isIPv4 s = true) : ∀ b ∈ s, isPlain b = true := by
  simp only [isIPv4, Bool.and_eq_true, List.all_eq_true, List.any_eq_true,
    decide_eq_true_eq] at h
  intro b hb
  rcases mem_or_sep 46 s b hb with rfl | ⟨part, hpart, hb⟩
  · decide +kernel
  · obtain ⟨n, -, hn⟩ := h.2 part hpart
    rw [← hn] at hb
    exact isPlain_of_isDigit (decide_eq_true (decimal_bytes n b hb))

theorem groupCount_plain {lastIPv4 : Bool} {parts : List GoString} {n : Nat}
    (h : groupCount lastIPv4 parts = some n) :
    ∀ part ∈ parts, ∀ b ∈ part, isPlain b = true := by
  induction parts generalizing n with
  | nil => simp
  | cons s rest ih =>
    have hfirst : isH16 s = true ∨ isIPv4 s = true := by
      cases rest with
      | nil =>
        simp only [groupCount] at h
        by_contra hnot
        rw [not_or, Bool.not_eq_true, Bool.not_eq_true] at hnot
        simp [hnot] at h
      | cons next rest =>
        simp only [groupCount] at h
        by_contra hnot
        rw [not_or, Bool.not_eq_true, Bool.not_eq_true] at hnot
        simp [hnot] at h
    intro part hpart
    rcases List.mem_cons.mp hpart with rfl | hpart
    · exact hfirst.elim isH16_plain isIPv4_plain
    · cases rest with
      | nil => cases hpart
      | cons next rest =>
        simp only [groupCount] at h
        split at h
        · obtain ⟨m, hm, -⟩ := Option.map_eq_some_iff.mp h
          exact ih hm part hpart
        · cases h

theorem groups_bytes {lastIPv4 : Bool} {s : GoString} {n : Nat}
    (h : groupCount lastIPv4 (groups s) = some n) : ∀ b ∈ s, isLiteralByte b = true := by
  intro b hb
  have hne : s ≠ [] := List.ne_nil_of_mem hb
  rw [groups, if_neg hne] at h
  rcases mem_or_sep 58 s b hb with rfl | ⟨part, hpart, hb⟩
  · rfl
  · rw [isLiteralByte, groupCount_plain h part hpart b hb, Bool.true_or]

theorem cutElision_eq {s before after : GoString} (h : cutElision s = some (before, after)) :
    s = before ++ 58 :: 58 :: after := by
  induction s generalizing before with
  | nil => cases h
  | cons b s ih =>
    rw [cutElision] at h
    split at h
    · rename_i hcolons
      obtain ⟨rfl, hhead⟩ := hcolons
      obtain ⟨rest, rfl⟩ := List.head?_eq_some_iff.mp hhead
      obtain ⟨rfl, rfl⟩ := Prod.mk.inj (Option.some.inj h)
      rfl
    · obtain ⟨⟨start, rest⟩, hcut, heq⟩ := Option.map_eq_some_iff.mp h
      obtain ⟨rfl, rfl⟩ := Prod.mk.inj heq
      rw [ih hcut, List.cons_append]

theorem isIPv6_bytes {s : GoString} (h : isIPv6 s = true) : ∀ b ∈ s, isLiteralByte b = true := by
  rw [isIPv6] at h
  split at h
  · exact groups_bytes (of_decide_eq_true h)
  · rename_i before after hcut
    split at h
    · rename_i m n hbefore hafter
      rw [cutElision_eq hcut]
      intro b hb
      rcases List.mem_append.mp hb with hb | hb
      · exact groups_bytes hbefore b hb
      · simp only [List.mem_cons] at hb
        rcases hb with rfl | rfl | hb
        · rfl
        · rfl
        · exact groups_bytes hafter b hb
    · cases h

theorem isIPvFuture_bytes {s : GoString} (h : isIPvFuture s = true) :
    ∀ b ∈ s, isLiteralByte b = true := by
  rw [isIPvFuture, Bool.and_eq_true] at h
  obtain ⟨hhead, h⟩ := h
  split at h
  · cases h
  · rename_i version address hcut
    simp only [Bool.and_eq_true, List.all_eq_true, decide_eq_true_eq] at h
    cases s with
    | nil => simp
    | cons first rest =>
      have htail := ((cut_eq_some ..).mp hcut).1
      rw [List.tail_cons] at htail
      have hfirst : first = 118 ∨ first = 86 := by simpa using hhead
      rw [htail]
      intro b hb
      rcases List.mem_cons.mp hb with rfl | hb
      · rcases hfirst with rfl | rfl <;> decide +kernel
      · rcases List.mem_append.mp hb with hb | hb
        · rw [isLiteralByte, isPlain_of_isHexDigit (h.1.1.2 b hb), Bool.true_or]
        · rcases List.mem_cons.mp hb with rfl | hb
          · decide +kernel
          · exact h.2 b hb

theorem isIPLiteral_bytes {s : GoString} (h : isIPLiteral s = true) :
    ∀ b ∈ s, isLiteralByte b = true := by
  rcases Bool.or_eq_true_iff.mp h with h | h
  · exact isIPv6_bytes h
  · exact isIPvFuture_bytes h

theorem eq_brackets {s : GoString} (hhead : s.head? = some 91) (hlast : s.getLast? = some 93) :
    s = 91 :: s.tail.dropLast ++ [93] := by
  obtain ⟨rest, rfl⟩ := List.head?_eq_some_iff.mp hhead
  cases rest with
  | nil => cases hlast
  | cons b rest =>
    rw [List.getLast?_cons_cons] at hlast
    have happend := List.dropLast_append_getLast? _ hlast
    rw [List.tail_cons, List.cons_append, happend]

theorem isHost_iff (s : GoString) : isHost s = true ↔ isRegName s = true ∨
    ∃ literal, s = 91 :: literal ++ [93] ∧ isIPLiteral literal = true := by
  simp only [isHost, Bool.or_eq_true, Bool.and_eq_true, decide_eq_true_eq]
  apply or_congr Iff.rfl
  constructor
  · rintro ⟨⟨hhead, hlast⟩, hliteral⟩
    exact ⟨_, eq_brackets hhead hlast, hliteral⟩
  · rintro ⟨literal, rfl, hliteral⟩
    refine ⟨⟨rfl, List.getLast?_concat ..⟩, ?_⟩
    simpa using hliteral

theorem isRegName_bytes {s : GoString} (h : isRegName s = true) :
    ∀ b ∈ s, isPlain b = true ∨ b = 37 := by
  simp only [isRegName, Bool.and_eq_true, List.all_eq_true, Bool.or_eq_true,
    decide_eq_true_eq] at h
  exact h.1

theorem isHostPort_ne {s : GoString} (h : isHostPort s = true) :
    ∀ b ∈ s, b ≠ 64 ∧ isDelim b = false := by
  have hliteral : ∀ b, isLiteralByte b = true → b ≠ 64 ∧ isDelim b = false := by
    intro b hb
    rcases Bool.or_eq_true_iff.mp hb with hb | hb
    · exact (isPlain_ne hb).2.2
    · rw [of_decide_eq_true hb]
      decide +kernel
  have hhost : ∀ s, isHost s = true → ∀ b ∈ s, b ≠ 64 ∧ isDelim b = false := by
    intro s hs b hb
    rcases (isHost_iff s).mp hs with hname | ⟨literal, rfl, hbody⟩
    · rcases isRegName_bytes hname b hb with hb | rfl
      · exact (isPlain_ne hb).2.2
      · decide +kernel
    · simp only [List.cons_append, List.mem_cons, List.mem_append, List.not_mem_nil,
        or_false] at hb
      rcases hb with rfl | hb | rfl
      · decide +kernel
      · exact hliteral b (isIPLiteral_bytes hbody b hb)
      · decide +kernel
  rcases (isHostPort_iff s).mp h with h | ⟨host, port, rfl, h, hport⟩
  · exact hhost s h
  · intro b hb
    rcases List.mem_append.mp hb with hb | hb
    · exact hhost host h b hb
    · rcases List.mem_cons.mp hb with rfl | hb
      · decide +kernel
      · exact (isPlain_ne (isPlain_of_isDigit (hport b hb))).2.2

theorem isHost_getLast {s : GoString} (h : isHost s = true) (hcolon : 58 ∈ s) :
    s.getLast? = some 93 := by
  rcases (isHost_iff s).mp h with h | ⟨literal, rfl, -⟩
  · rcases isRegName_bytes h 58 hcolon with h | h
    · exact absurd rfl (isPlain_ne h).1
    · cases h
  · exact List.getLast?_concat ..

theorem isDigit_ne {b : UInt8} (h : isDigit b = true) : b ≠ 58 ∧ b ≠ 93 := by
  have hb := of_decide_eq_true h
  constructor <;> rintro rfl <;> revert hb <;> decide

theorem isHostPort_append (host port : GoString) (hne : port ≠ []) (hcolon : 58 ∉ port)
    (hlast : port.getLast? ≠ some 93) : isHostPort (host ++ 58 :: port) = true ↔
      isHost host = true ∧ ∀ b ∈ port, isDigit b = true := by
  rw [isHostPort_iff]
  constructor
  · rintro (h | ⟨host', port', heq, hhost, hport⟩)
    · have hbracket := isHost_getLast h (by simp)
      rw [List.getLast?_append_cons, List.getLast?_cons_of_ne_nil hne] at hbracket
      exact absurd hbracket hlast
    · have hcolon' : 58 ∉ port' := fun h => (isDigit_ne (hport 58 h)).1 rfl
      have hreverse := congrArg List.reverse heq
      simp only [List.reverse_append, List.reverse_cons, List.append_assoc,
        List.singleton_append] at hreverse
      have hcut := (cut_eq_some 58 _ _ _).mpr ⟨hreverse, by simpa using hcolon'⟩
      rw [(cut_eq_some 58 _ _ _).mpr ⟨rfl, by simpa using hcolon⟩, Option.some.injEq,
        Prod.mk.injEq, List.reverse_inj, List.reverse_inj] at hcut
      obtain ⟨rfl, rfl⟩ := hcut
      exact ⟨hhost, hport⟩
  · rintro ⟨hhost, hport⟩
    exact .inr ⟨host, port, rfl, hhost, hport⟩

theorem isHost_brackets (s : GoString) : isHost (91 :: s ++ [93]) = isIPLiteral s := by
  have hopen : isPlain 91 = false := by decide +kernel
  rw [Bool.eq_iff_iff, isHost_iff]
  constructor
  · rintro (h | ⟨literal, heq, h⟩)
    · rcases isRegName_bytes h 91 (by simp) with h | h
      · rw [hopen] at h
        cases h
      · cases h
    · simp only [List.cons_append, List.cons.injEq, true_and, List.append_cancel_right_eq] at heq
      rwa [heq]
  · exact fun h => .inr ⟨s, rfl, h⟩

end Bytes

/-! ### The login -/

/-- What follows the scheme and its colon, or everything where there is no scheme. -/
def afterScheme (uri : GoString) : GoString :=
  let scheme := uri.takeWhile fun b => b ≠ 58 && !isDelim b
  if scheme ≠ [] ∧ (uri.drop scheme.length).head? = some 58 then uri.drop (scheme.length + 1)
  else uri

/-- The authority comes after two slashes and ends at a slash, a question mark or a hash. -/
def authority (uri : GoString) : Option GoString :=
  let rest := afterScheme uri
  if ascii "//" <+: rest then some ((rest.drop 2).takeWhile fun b => !isDelim b) else none

structure Login where
  user : GoString
  password : GoString
  host : GoString
  deriving DecidableEq

/-- The user, the password and the host of a URI, the first two percent-decoded and the
last with its port. The user-info ends at the only at sign, and its first colon ends the
user. -/
def login (uri : GoString) : Option Login := do
  let (userinfo, host) ← cut 64 (← authority uri)
  if isHostPort host = false ∨ userinfo.all isUserinfo = false then none
  else do
    let (user, password) ← cut 58 userinfo
    return ⟨← percentDecode user, ← percentDecode password, host⟩

theorem login_eq_some (uri user password host : GoString) :
    login uri = some ⟨user, password, host⟩ ↔ ∃ u p,
      authority uri = some (u ++ 58 :: p ++ 64 :: host) ∧ isHostPort host = true ∧ 58 ∉ u ∧
        (∀ b ∈ u ++ 58 :: p, isUserinfo b = true) ∧
        percentDecode u = some user ∧ percentDecode p = some password := by
  simp only [login, Option.bind_eq_bind, Option.bind_eq_some_iff, Prod.exists]
  constructor
  · intro h
    obtain ⟨a, ha, userinfo, host', hat, h⟩ := h
    split at h
    · cases h
    · rename_i hgrammar
      rw [not_or, Bool.not_eq_false, Bool.not_eq_false] at hgrammar
      simp only [Option.bind_eq_some_iff, Prod.exists, pure, Option.some.injEq,
        Login.mk.injEq] at h
      obtain ⟨u, p, hcolon, user', huser, password', hpassword, rfl, rfl, rfl⟩ := h
      obtain ⟨rfl, -⟩ := (cut_eq_some ..).mp hat
      obtain ⟨rfl, hu⟩ := (cut_eq_some ..).mp hcolon
      exact ⟨u, p, ha, hgrammar.1, hu, List.all_eq_true.mp hgrammar.2, huser, hpassword⟩
  · intro h
    obtain ⟨u, p, ha, hhost, hu, hgrammar, huser, hpassword⟩ := h
    have hat : 64 ∉ u ++ 58 :: p := fun hmem => (isUserinfo_ne (hgrammar 64 hmem)).1 rfl
    refine ⟨_, ha, u ++ 58 :: p, host, (cut_eq_some ..).mpr ⟨rfl, hat⟩, ?_⟩
    have hvalid : ¬ (isHostPort host = false ∨ (u ++ 58 :: p).all isUserinfo = false) := by
      rw [not_or, Bool.not_eq_false, Bool.not_eq_false]
      exact ⟨hhost, List.all_eq_true.mpr hgrammar⟩
    rw [if_neg hvalid]
    simp only [(cut_eq_some ..).mpr ⟨rfl, hu⟩, huser, hpassword, Option.bind_some]
    rfl

/-! ### A login as it is written -/

/-- The authority of a URI with a scheme is read up to the first delimiter. -/
theorem authority_written (scheme rest : GoString) (hne : scheme ≠ [])
    (hscheme : ∀ b ∈ scheme, b ≠ 58 ∧ isDelim b = false) :
    authority (scheme ++ ascii "://" ++ rest) = some (rest.takeWhile fun b => !isDelim b) := by
  have hsplit : scheme ++ ascii "://" ++ rest = scheme ++ 58 :: 47 :: 47 :: rest := by
    rw [List.append_assoc]
    rfl
  have htake : (scheme ++ 58 :: 47 :: 47 :: rest).takeWhile (fun b => b ≠ 58 && !isDelim b) =
      scheme := by
    rw [List.takeWhile_append_of_pos]
    · simp
    · intro b hb
      simp [hscheme b hb]
  have hafter : afterScheme (scheme ++ 58 :: 47 :: 47 :: rest) = 47 :: 47 :: rest := by
    rw [afterScheme, htake]
    simp [hne]
  rw [hsplit, authority, hafter, if_pos ⟨rest, rfl⟩]
  rfl

theorem written_not_delim {user escaped host : GoString}
    (huser : ∀ b ∈ user, isUserinfo b = true) (hescaped : ∀ b ∈ escaped, isUserinfo b = true)
    (hhost : ∀ b ∈ host, isDelim b = false) :
    ∀ b ∈ user ++ 58 :: escaped ++ 64 :: host, (!isDelim b) = true := by
  intro b hb
  rw [Bool.not_eq_true']
  rcases List.mem_append.mp hb with hb | hb
  · rcases List.mem_append.mp hb with hb | hb
    · exact (isUserinfo_ne (huser b hb)).2
    · rcases List.mem_cons.mp hb with rfl | hb
      · decide +kernel
      · exact (isUserinfo_ne (hescaped b hb)).2
  · rcases List.mem_cons.mp hb with rfl | hb
    · decide +kernel
    · exact hhost b hb

/-- What is decoded is no longer than what is read, so a user written as itself lies at the
beginning of the part that is read as it. -/
theorem user_prefix_read {user u p escaped host : GoString}
    (htake : (user ++ 58 :: escaped ++ 64 :: host).takeWhile (fun b => !isDelim b) =
      u ++ 58 :: p ++ 64 :: host)
    (huser : percentDecode u = some user) : user <+: u := by
  have hread : u <+: user ++ 58 :: escaped ++ 64 :: host := by
    have hauthority := List.takeWhile_prefix (fun b => !isDelim b)
      (l := user ++ 58 :: escaped ++ 64 :: host)
    rw [htake, List.append_assoc] at hauthority
    exact (List.prefix_append u _).trans hauthority
  rw [List.append_assoc] at hread
  have hlength := percentDecode_length u user huser
  exact List.prefix_of_prefix_length_le (List.prefix_append user _) hread (by omega)

/-- A login written with an escaped password is read back exactly where the user is written
as itself, the password has no space, and the host is one with or without a port. -/
theorem login_written (scheme user password host : GoString) (hne : scheme ≠ [])
    (hscheme : ∀ b ∈ scheme, b ≠ 58 ∧ isDelim b = false) :
    login (scheme ++ ascii "://" ++ (user ++ 58 :: queryEscape password ++ 64 :: host)) =
        some ⟨user, password, host⟩ ↔
      (∀ b ∈ user, isPlain b = true) ∧ 32 ∉ password ∧ isHostPort host = true := by
  rw [login_eq_some, authority_written scheme _ hne hscheme, ← percentDecode_queryEscape_self]
  have hescaped := queryEscape_isUserinfo password
  generalize queryEscape password = escaped at hescaped ⊢
  constructor
  · intro h
    obtain ⟨u, p, htake, hhost, hu, hgrammar, huser, hpassword⟩ := h
    have htake := Option.some.inj htake
    have hprefix := user_prefix_read htake huser
    have huserinfo : ∀ b ∈ user, isUserinfo b = true ∧ b ≠ 58 := by
      intro b hb
      have hbu := hprefix.subset hb
      exact ⟨hgrammar b (List.mem_append_left _ hbu), fun heq => hu (heq ▸ hbu)⟩
    have hwhole := written_not_delim (fun b hb => (huserinfo b hb).1)
      (fun b hb => (hescaped b hb).1) fun b hb => (isHostPort_ne hhost b hb).2
    rw [List.takeWhile_eq_self_iff.mpr hwhole] at htake
    simp only [List.append_assoc, List.cons_append] at htake
    have hcolon : 58 ∉ user := fun hmem => (huserinfo 58 hmem).2 rfl
    have hsame := (cut_eq_some 58 _ _ _).mpr ⟨htake, hu⟩
    rw [(cut_eq_some 58 _ _ _).mpr ⟨rfl, hcolon⟩, Option.some.injEq, Prod.mk.injEq] at hsame
    obtain ⟨rfl, hrest⟩ := hsame
    obtain rfl := List.append_cancel_right hrest
    refine ⟨?_, hpassword, hhost⟩
    intro b hb
    have hb' := huserinfo b hb
    have hpct : b ≠ 37 := fun heq => percentDecode_self huser (heq ▸ hb)
    simpa [isUserinfo_eq, hb'.2, hpct] using hb'.1
  · intro h
    obtain ⟨huser, hpassword, hhost⟩ := h
    have huserinfo : ∀ b ∈ user, isUserinfo b = true := by
      intro b hb
      rw [isUserinfo_eq, huser b hb]
      rfl
    have hgrammar : ∀ b ∈ user ++ 58 :: escaped, isUserinfo b = true := by
      intro b hb
      rcases List.mem_append.mp hb with hb | hb
      · exact huserinfo b hb
      · rcases List.mem_cons.mp hb with rfl | hb
        · decide +kernel
        · exact (hescaped b hb).1
    have hwhole := written_not_delim huserinfo (fun b hb => (hescaped b hb).1)
      fun b hb => (isHostPort_ne hhost b hb).2
    refine ⟨user, escaped, by rw [List.takeWhile_eq_self_iff.mpr hwhole], hhost, ?_, hgrammar, ?_,
      hpassword⟩
    · exact fun hmem => (isPlain_ne (huser 58 hmem)).1 rfl
    · exact percentDecode_plain user fun hmem => (isPlain_ne (huser 37 hmem)).2.1 rfl

end OpenEverest.Framework.Uri
