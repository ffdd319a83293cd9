import OpenEverest.Framework.Checks
import OpenEverest.Framework.GoString

/-!
# Glob patterns

`path.Match` of the Go library. A pattern is scanned in chunks, each a string
without stars that a star may precede; a chunk is matched at the first place it
fits. A pattern is malformed for every name or for none.
-/

namespace OpenEverest.Framework.GoString

def runeError : Nat := 0xFFFD

private def isTail (b : UInt8) : Bool := decide (0x80 ≤ b.toNat ∧ b.toNat ≤ 0xBF)

private def tailBits (b : UInt8) : Nat := b.toNat % 64

/-- `utf8.DecodeRuneInString`: the first rune and its width, width one for a wrong byte. -/
def decodeRune : GoString → Nat × Nat
  | [] => (runeError, 0)
  | a :: bs =>
    let wrong := (runeError, 1)
    if a.toNat < 0x80 then (a.toNat, 1)
    else if a.toNat < 0xC2 then wrong
    else if a.toNat < 0xE0 then
      match bs with
      | b :: _ => if isTail b then ((a.toNat - 0xC0) * 64 + tailBits b, 2) else wrong
      | _ => wrong
    else if a.toNat < 0xF0 then
      match bs with
      | b :: c :: _ =>
        let r := ((a.toNat - 0xE0) * 64 + tailBits b) * 64 + tailBits c
        -- no overlong form and no surrogate
        if isTail b && isTail c && decide (0x800 ≤ r ∧ ¬ (0xD800 ≤ r ∧ r ≤ 0xDFFF)) then (r, 3)
        else wrong
      | _ => wrong
    else if a.toNat < 0xF5 then
      match bs with
      | b :: c :: d :: _ =>
        let r := (((a.toNat - 0xF0) * 64 + tailBits b) * 64 + tailBits c) * 64 + tailBits d
        if isTail b && isTail c && isTail d && decide (0x10000 ≤ r ∧ r ≤ 0x10FFFF) then (r, 4)
        else wrong
      | _ => wrong
    else wrong

inductive PatternError where
  | errBadPattern
  deriving DecidableEq

/-- The character of a class, after its escape. -/
private def classRune (chunk : GoString) : Except PatternError (Nat × GoString) :=
  let (r, n) := decodeRune chunk
  if n = 0 ∨ (r = runeError ∧ n = 1) ∨ chunk.drop n = [] then .error .errBadPattern
  else .ok (r, chunk.drop n)

def getEsc (chunk : GoString) : Except PatternError (Nat × GoString) :=
  match chunk with
  | [] => .error .errBadPattern
  | 45 :: _ => .error .errBadPattern
  | 93 :: _ => .error .errBadPattern
  | 92 :: cs => classRune cs
  | cs => classRune cs

/-- A range `lo` or `lo-hi` of a class. -/
def getRange (chunk : GoString) : Except PatternError ((Nat × Nat) × GoString) :=
  match getEsc chunk with
  | .error e => .error e
  | .ok (lo, rest) =>
    if rest.head? = some 45 then
      match getEsc (rest.drop 1) with
      | .error e => .error e
      | .ok (hi, rest) => .ok ((lo, hi), rest)
    else .ok ((lo, lo), rest)

/-- The ranges of a class up to its bracket, and whether one holds the rune. Every
turn takes a byte, so the length of the chunk bounds them. -/
def matchRanges (r : Nat) : Nat → Bool → Bool → GoString → Except PatternError (Bool × GoString)
  | 0, _, _, _ => .error .errBadPattern
  | turns + 1, nrange, found, chunk =>
    if nrange = true ∧ chunk.head? = some 93 then .ok (found, chunk.drop 1)
    else
      match getRange chunk with
      | .error e => .error e
      | .ok (range, rest) =>
        matchRanges r turns true (found || decide (range.1 ≤ r ∧ r ≤ range.2)) rest

/-- What is left of the name, `none` once the match has failed. -/
abbrev Rest := Option GoString

def matchByte (c : UInt8) : Rest → Rest
  | some (b :: bs) => if c = b then some bs else none
  | _ => none

/-- `?`: any rune but a slash. -/
def matchAny : Rest → Rest
  | some (b :: bs) => if b = 47 then none else some ((b :: bs).drop (decodeRune (b :: bs)).2)
  | _ => none

def classInput : Rest → Nat × Rest
  | some (b :: bs) =>
    let (r, n) := decodeRune (b :: bs)
    (r, some ((b :: bs).drop n))
  | _ => (0, none)

def matchClass (cs : GoString) (s : Rest) : Except PatternError (GoString × Rest) :=
  let negated := decide (cs.head? = some 94)
  let ranges := if negated then cs.drop 1 else cs
  match matchRanges (classInput s).1 (ranges.length + 1) false false ranges with
  | .error e => .error e
  | .ok (found, rest) => .ok (rest, if found = negated then none else (classInput s).2)

def matchTerm (c : UInt8) (cs : GoString) (s : Rest) : Except PatternError (GoString × Rest) :=
  if c = 91 then matchClass cs s
  else if c = 63 then .ok (cs, matchAny s)
  else if c = 92 then
    match cs with
    | [] => .error .errBadPattern
    | d :: ds => .ok (ds, matchByte d s)
  else .ok (cs, matchByte c s)

def matchTerms : Nat → GoString → Rest → Except PatternError Rest
  | 0, _, s => .ok s
  | _ + 1, [], s => .ok s
  | turns + 1, c :: cs, s =>
    match matchTerm c cs s with
    | .error e => .error e
    | .ok (rest, s) => matchTerms turns rest s

/-- `matchChunk`: what the chunk leaves of the name, its well-formedness checked in any case. -/
def matchChunk (chunk s : GoString) : Except PatternError Rest :=
  matchTerms chunk.length chunk (some s)

def scanTerms : Bool → GoString → GoString × GoString
  | _, [] => ([], [])
  | inrange, 92 :: c :: cs =>
    let (chunk, rest) := scanTerms inrange cs
    (92 :: c :: chunk, rest)
  | inrange, c :: cs =>
    if c = 42 ∧ inrange = false then ([], c :: cs)
    else
      let (chunk, rest) := scanTerms (if c = 91 then true else if c = 93 then false else inrange) cs
      (c :: chunk, rest)

def scanChunk (pattern : GoString) : Bool × GoString × GoString :=
  (decide (pattern.head? = some 42), scanTerms false (pattern.dropWhile (· = 42)))

/-- The remainder of a pattern that no longer matches is only checked. -/
def checkChunks : Nat → GoString → Except PatternError Unit
  | 0, _ => .ok ()
  | _ + 1, [] => .ok ()
  | turns + 1, c :: cs =>
    let scanned := scanChunk (c :: cs)
    match matchChunk scanned.2.1 [] with
    | .error e => .error e
    | .ok _ => checkChunks turns scanned.2.2

def advance (pattern : GoString) (t : Rest) : Rest :=
  t.filter fun t => decide (t = [] ∨ pattern ≠ [])

def matchSkipping (chunk pattern : GoString) : GoString → Except PatternError Rest
  | [] => .ok none
  | b :: bs =>
    if b = 47 then .ok none
    else
      match matchChunk chunk bs with
      | .error e => .error e
      | .ok t =>
        match advance pattern t with
        | some t => .ok (some t)
        | none => matchSkipping chunk pattern bs

def matchAfter (star : Bool) (chunk pattern name : GoString) : Except PatternError Rest :=
  match matchChunk chunk name with
  | .error e => .error e
  | .ok t =>
    match advance pattern t with
    | some t => .ok (some t)
    | none => if star then matchSkipping chunk pattern name else .ok none

def matchChunks : Nat → GoString → GoString → Except PatternError Bool
  | 0, _, name => .ok (decide (name = []))
  | _ + 1, [], name => .ok (decide (name = []))
  | turns + 1, c :: cs, name =>
    let scanned := scanChunk (c :: cs)
    -- a star at the end takes the name up to a slash
    if scanned.1 = true ∧ scanned.2.1 = [] then .ok (decide ((47 : UInt8) ∉ name))
    else
      match matchAfter scanned.1 scanned.2.1 scanned.2.2 name with
      | .error e => .error e
      | .ok (some t) => matchChunks turns scanned.2.2 t
      | .ok none =>
        match checkChunks turns scanned.2.2 with
        | .error e => .error e
        | .ok _ => .ok false

/-- `path.Match`. -/
def pathMatch (pattern name : GoString) : Except PatternError Bool :=
  matchChunks pattern.length pattern name

section Turns

private theorem classRune_length {chunk rest : GoString} {r : Nat}
    (h : classRune chunk = .ok (r, rest)) : rest.length < chunk.length := by
  unfold classRune at h
  dsimp only at h
  split at h
  · cases h
  · rename_i hgood
    obtain ⟨-, rfl⟩ := Prod.mk.inj (Except.ok.inj h)
    push Not at hgood
    have hshort : (decodeRune chunk).2 < chunk.length := by
      by_contra hlong
      exact hgood.2.2 (List.drop_eq_nil_of_le (not_lt.mp hlong))
    rw [List.length_drop]
    omega

theorem getEsc_length {chunk rest : GoString} {r : Nat} (h : getEsc chunk = .ok (r, rest)) :
    rest.length < chunk.length := by
  unfold getEsc at h
  split at h
  · cases h
  · cases h
  · cases h
  · have hshort := classRune_length h
    rw [List.length_cons]
    omega
  · exact classRune_length h

theorem getRange_length {chunk rest : GoString} {range : Nat × Nat}
    (h : getRange chunk = .ok (range, rest)) : rest.length < chunk.length := by
  unfold getRange at h
  split at h
  · cases h
  · rename_i lo afterLo hlo
    have hshort := getEsc_length hlo
    split at h
    · split at h
      · cases h
      · rename_i hi afterHi hhi
        obtain ⟨-, rfl⟩ := Prod.mk.inj (Except.ok.inj h)
        have hshorter := getEsc_length hhi
        rw [List.length_drop] at hshorter
        omega
    · obtain ⟨-, rfl⟩ := Prod.mk.inj (Except.ok.inj h)
      exact hshort

theorem matchRanges_length {r turns : Nat} {nrange found hit : Bool} {chunk rest : GoString}
    (h : matchRanges r turns nrange found chunk = .ok (hit, rest)) :
    rest.length ≤ chunk.length := by
  induction turns generalizing nrange found chunk with
  | zero => cases h
  | succ turns ih =>
    unfold matchRanges at h
    split at h
    · obtain ⟨-, rfl⟩ := Prod.mk.inj (Except.ok.inj h)
      rw [List.length_drop]
      omega
    · split at h
      · cases h
      · rename_i range next hrange
        have hshort := getRange_length hrange
        have hrest := ih h
        omega

theorem matchRanges_turns (r : Nat) {turns turns' : Nat} (nrange found : Bool) (chunk : GoString)
    (h : chunk.length < turns) (h' : chunk.length < turns') :
    matchRanges r turns nrange found chunk = matchRanges r turns' nrange found chunk := by
  induction turns generalizing turns' nrange found chunk with
  | zero => omega
  | succ turns ih =>
    cases turns' with
    | zero => omega
    | succ turns' =>
      unfold matchRanges
      split
      · rfl
      · cases hrange : getRange chunk with
        | error e => rfl
        | ok next =>
          have hshort := getRange_length hrange
          exact ih true _ next.2 (by omega) (by omega)

theorem matchTerm_length {c : UInt8} {cs rest : GoString} {s t : Rest}
    (h : matchTerm c cs s = .ok (rest, t)) : rest.length ≤ cs.length := by
  unfold matchTerm at h
  split at h
  · simp only [matchClass] at h
    split at h
    · cases h
    · rename_i found next hranges
      obtain ⟨rfl, -⟩ := Prod.mk.inj (Except.ok.inj h)
      have hshort := matchRanges_length hranges
      split at hshort
      · rw [List.length_drop] at hshort
        omega
      · exact hshort
  · split at h
    · obtain ⟨rfl, -⟩ := Prod.mk.inj (Except.ok.inj h)
      exact Nat.le_refl _
    · split at h
      · split at h
        · cases h
        · obtain ⟨rfl, -⟩ := Prod.mk.inj (Except.ok.inj h)
          exact Nat.le_succ _
      · obtain ⟨rfl, -⟩ := Prod.mk.inj (Except.ok.inj h)
        exact Nat.le_refl _

theorem matchTerms_turns {turns turns' : Nat} (chunk : GoString) (s : Rest)
    (h : chunk.length ≤ turns) (h' : chunk.length ≤ turns') :
    matchTerms turns chunk s = matchTerms turns' chunk s := by
  induction turns generalizing turns' chunk s with
  | zero =>
    obtain rfl := List.eq_nil_of_length_eq_zero (Nat.le_zero.mp h)
    cases turns' <;> rfl
  | succ turns ih =>
    cases chunk with
    | nil => cases turns' <;> rfl
    | cons c cs =>
      cases turns' with
      | zero => simp at h'
      | succ turns' =>
        rw [List.length_cons] at h h'
        unfold matchTerms
        cases hterm : matchTerm c cs s with
        | error e => rfl
        | ok next =>
          have hshort := matchTerm_length hterm
          exact ih next.1 next.2 (by omega) (by omega)

theorem scanTerms_length (inrange : Bool) (pattern : GoString) :
    (scanTerms inrange pattern).2.length ≤ pattern.length := by
  fun_induction scanTerms inrange pattern <;> simp_all <;> omega

theorem scanChunk_length (c : UInt8) (cs : GoString) :
    (scanChunk (c :: cs)).2.2.length ≤ cs.length := by
  unfold scanChunk
  dsimp only
  by_cases hstar : c = 42
  · rw [List.dropWhile_cons_of_pos (by simpa using hstar)]
    exact (scanTerms_length ..).trans (List.dropWhile_suffix _).length_le
  · rw [List.dropWhile_cons_of_neg (by simpa using hstar)]
    cases cs with
    | nil => simp [scanTerms, hstar]
    | cons d ds =>
      by_cases hescape : c = 92
      · subst hescape
        have hrest := scanTerms_length false ds
        simp only [scanTerms, List.length_cons]
        omega
      · have hrest := scanTerms_length
          (if c = 91 then true else if c = 93 then false else false) (d :: ds)
        simpa [scanTerms, hstar, hescape] using hrest

theorem checkChunks_turns {turns turns' : Nat} (pattern : GoString)
    (h : pattern.length ≤ turns) (h' : pattern.length ≤ turns') :
    checkChunks turns pattern = checkChunks turns' pattern := by
  induction turns generalizing turns' pattern with
  | zero =>
    obtain rfl := List.eq_nil_of_length_eq_zero (Nat.le_zero.mp h)
    cases turns' <;> rfl
  | succ turns ih =>
    cases pattern with
    | nil => cases turns' <;> rfl
    | cons c cs =>
      cases turns' with
      | zero => simp at h'
      | succ turns' =>
        rw [List.length_cons] at h h'
        have hshort := scanChunk_length c cs
        have hrest : checkChunks turns (scanChunk (c :: cs)).2.2 =
            checkChunks turns' (scanChunk (c :: cs)).2.2 := ih _ (by omega) (by omega)
        rw [checkChunks, checkChunks, hrest]

theorem matchChunks_turns {turns turns' : Nat} (pattern name : GoString)
    (h : pattern.length ≤ turns) (h' : pattern.length ≤ turns') :
    matchChunks turns pattern name = matchChunks turns' pattern name := by
  induction turns generalizing turns' pattern name with
  | zero =>
    obtain rfl := List.eq_nil_of_length_eq_zero (Nat.le_zero.mp h)
    cases turns' <;> rfl
  | succ turns ih =>
    cases pattern with
    | nil => cases turns' <;> rfl
    | cons c cs =>
      cases turns' with
      | zero => simp at h'
      | succ turns' =>
        rw [List.length_cons] at h h'
        have hshort := scanChunk_length c cs
        have hcheck : checkChunks turns (scanChunk (c :: cs)).2.2 =
            checkChunks turns' (scanChunk (c :: cs)).2.2 :=
          checkChunks_turns _ (by omega) (by omega)
        have hrest (t : GoString) : matchChunks turns (scanChunk (c :: cs)).2.2 t =
            matchChunks turns' (scanChunk (c :: cs)).2.2 t := ih _ t (by omega) (by omega)
        rw [matchChunks, matchChunks, hcheck]
        simp only [hrest]

theorem pathMatch_turns {turns : Nat} (pattern name : GoString) (h : pattern.length ≤ turns) :
    matchChunks turns pattern name = pathMatch pattern name :=
  matchChunks_turns pattern name h (Nat.le_refl _)

theorem matchChunk_turns {turns : Nat} (chunk s : GoString) (h : chunk.length ≤ turns) :
    matchTerms turns chunk (some s) = matchChunk chunk s :=
  matchTerms_turns chunk (some s) h (Nat.le_refl _)

end Turns

/-- Every chunk of the pattern is well formed. -/
def WellFormed (pattern : GoString) : Prop := checkChunks pattern.length pattern = .ok ()

instance (pattern : GoString) : Decidable (WellFormed pattern) :=
  inferInstanceAs (Decidable (_ = _))

private theorem matchRanges_end (r r' : Nat) {turns : Nat} {nrange found : Bool}
    {chunk rest : GoString} {hit : Bool}
    (h : matchRanges r turns nrange found chunk = .ok (hit, rest)) (found' : Bool) :
    ∃ hit', matchRanges r' turns nrange found' chunk = .ok (hit', rest) := by
  induction turns generalizing nrange found found' chunk with
  | zero => cases h
  | succ turns ih =>
    unfold matchRanges at h ⊢
    split at h
    · rename_i hend
      obtain ⟨-, rfl⟩ := Prod.mk.inj (Except.ok.inj h)
      rw [if_pos hend]
      exact ⟨found', rfl⟩
    · rename_i hend
      rw [if_neg hend]
      cases hrange : getRange chunk with
      | error e =>
        rw [hrange] at h
        cases h
      | ok range =>
        rw [hrange] at h
        exact ih h _

private theorem matchTerm_end {c : UInt8} {cs rest : GoString} {s t : Rest}
    (h : matchTerm c cs s = .ok (rest, t)) (s' : Rest) :
    ∃ t', matchTerm c cs s' = .ok (rest, t') := by
  unfold matchTerm at h ⊢
  split at h
  · rename_i hclass
    rw [if_pos hclass]
    simp only [matchClass] at h ⊢
    cases hranges : matchRanges (classInput s).1 _ false false
        (if decide (cs.head? = some 94) then cs.drop 1 else cs) with
    | error e =>
      rw [hranges] at h
      cases h
    | ok found =>
      rw [hranges] at h
      obtain ⟨rfl, -⟩ := Prod.mk.inj (Except.ok.inj h)
      obtain ⟨hit', hranges'⟩ := matchRanges_end _ (classInput s').1 hranges false
      rw [hranges']
      exact ⟨_, rfl⟩
  · rename_i hclass
    rw [if_neg hclass]
    split at h
    · rename_i hany
      obtain ⟨rfl, -⟩ := Prod.mk.inj (Except.ok.inj h)
      rw [if_pos hany]
      exact ⟨_, rfl⟩
    · rename_i hany
      rw [if_neg hany]
      split at h
      · rename_i hescape
        rw [if_pos hescape]
        cases cs with
        | nil => cases h
        | cons d ds =>
          obtain ⟨rfl, -⟩ := Prod.mk.inj (Except.ok.inj h)
          exact ⟨_, rfl⟩
      · rename_i hescape
        obtain ⟨rfl, -⟩ := Prod.mk.inj (Except.ok.inj h)
        rw [if_neg hescape]
        exact ⟨_, rfl⟩

private theorem matchTerms_any {turns : Nat} {chunk : GoString} {s t : Rest}
    (h : matchTerms turns chunk s = .ok t) (s' : Rest) :
    ∃ t', matchTerms turns chunk s' = .ok t' := by
  induction turns generalizing chunk s s' with
  | zero => exact ⟨s', rfl⟩
  | succ turns ih =>
    cases chunk with
    | nil => exact ⟨s', rfl⟩
    | cons c cs =>
      unfold matchTerms at h ⊢
      cases hterm : matchTerm c cs s with
      | error e =>
        rw [hterm] at h
        cases h
      | ok next =>
        rw [hterm] at h
        obtain ⟨t', hterm'⟩ := matchTerm_end hterm s'
        rw [hterm']
        exact ih h t'

theorem matchChunk_any {chunk s : GoString} {t : Rest} (h : matchChunk chunk s = .ok t)
    (s' : GoString) : ∃ t', matchChunk chunk s' = .ok t' := matchTerms_any h (some s')

private theorem matchSkipping_total {chunk s : GoString} {t : Rest}
    (h : matchChunk chunk s = .ok t) (pattern name : GoString) :
    ∃ t', matchSkipping chunk pattern name = .ok t' := by
  induction name with
  | nil => exact ⟨none, rfl⟩
  | cons b bs ih =>
    obtain ⟨u, hu⟩ := matchChunk_any h bs
    unfold matchSkipping
    split
    · exact ⟨none, rfl⟩
    · rw [hu]
      dsimp only
      split
      · exact ⟨_, rfl⟩
      · exact ih

theorem matchAfter_total {chunk s : GoString} {t : Rest} (h : matchChunk chunk s = .ok t)
    (star : Bool) (pattern name : GoString) : ∃ t', matchAfter star chunk pattern name = .ok t' := by
  obtain ⟨u, hu⟩ := matchChunk_any h name
  unfold matchAfter
  rw [hu]
  dsimp only
  split
  · exact ⟨_, rfl⟩
  · split
    · exact matchSkipping_total h pattern name
    · exact ⟨none, rfl⟩

private theorem scanTerms_ne_nil {c : UInt8} (cs : GoString) (hc : c ≠ 42) :
    (scanTerms false (c :: cs)).1 ≠ [] := by
  cases cs with
  | nil => simp [scanTerms, hc]
  | cons d ds =>
    by_cases hescape : c = 92
    · subst hescape
      simp [scanTerms]
    · simp [scanTerms, hc, hescape]

private theorem scanChunk_rest (pattern : GoString) (h : (scanChunk pattern).2.1 = []) :
    (scanChunk pattern).2.2 = [] := by
  unfold scanChunk at h ⊢
  cases hstars : pattern.dropWhile (· = 42) with
  | nil => rfl
  | cons c cs =>
    have hc : c ≠ 42 := by
      have hnot := List.head_dropWhile_not (fun b : UInt8 => decide (b = 42))
        (show pattern.dropWhile (· = 42) ≠ [] by rw [hstars]; simp)
      simpa [hstars] using hnot
    rw [hstars] at h
    exact absurd h (scanTerms_ne_nil cs hc)

theorem matchChunks_total_iff (turns : Nat) (pattern name : GoString) :
    (∃ b, matchChunks turns pattern name = .ok b) ↔ checkChunks turns pattern = .ok () := by
  induction turns generalizing pattern name with
  | zero => exact iff_of_true ⟨_, rfl⟩ rfl
  | succ turns ih =>
    cases pattern with
    | nil => exact iff_of_true ⟨_, rfl⟩ rfl
    | cons c cs =>
      rw [matchChunks, checkChunks]
      split
      · rename_i hstar
        have hrest := scanChunk_rest (c :: cs) hstar.2
        rw [hstar.2, hrest]
        refine iff_of_true ⟨_, rfl⟩ ?_
        cases turns <;> rfl
      · cases hchunk : matchChunk (scanChunk (c :: cs)).2.1 [] with
        | error e =>
          dsimp only
          have hafter : ∀ t, matchAfter (scanChunk (c :: cs)).1 (scanChunk (c :: cs)).2.1
              (scanChunk (c :: cs)).2.2 name ≠ .ok t := by
            intro t ht
            unfold matchAfter at ht
            cases hname : matchChunk (scanChunk (c :: cs)).2.1 name with
            | error e' =>
              rw [hname] at ht
              cases ht
            | ok u =>
              obtain ⟨v, hv⟩ := matchChunk_any hname []
              rw [hchunk] at hv
              cases hv
          refine iff_of_false ?_ (by simp)
          rintro ⟨b, hb⟩
          split at hb
          · cases hb
          · exact hafter _ ‹_›
          · exact hafter _ ‹_›
        | ok u =>
          obtain ⟨t, ht⟩ := matchAfter_total hchunk (scanChunk (c :: cs)).1
            (scanChunk (c :: cs)).2.2 name
          rw [ht]
          cases t with
          | some t => exact ih _ t
          | none =>
            dsimp only
            cases hrest : checkChunks turns (scanChunk (c :: cs)).2.2 with
            | error e => simp
            | ok v => exact iff_of_true ⟨_, rfl⟩ rfl

/-- The pattern alone decides whether the answer is an error. -/
theorem pathMatch_total_iff (pattern name : GoString) :
    (∃ b, pathMatch pattern name = .ok b) ↔ WellFormed pattern :=
  matchChunks_total_iff ..

end OpenEverest.Framework.GoString
