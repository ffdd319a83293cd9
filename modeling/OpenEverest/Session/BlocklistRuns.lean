import OpenEverest.Session.TokenStore
import Mathlib.Algebra.Order.Archimedean.Basic

/-!
# The block list as a set

Calls of `Block` made one after the other, at times that never decrease. The
list is meant to be the set of the tokens blocked and not yet expired; what
decides whether it is are the strings of the tokens alone.
-/

namespace OpenEverest.Session

open Framework GoString

structure BlockCall where
  now : Int
  token : Option Token

/-- The list after some calls. `blocked` records the tokens that were blocked. -/
structure BlockRun where
  store : Versioned BlocklistSecret
  clock : Int
  blocked : List Identity

namespace BlockRun

def start (clock : Int) : BlockRun := ⟨⟨0, emptyBlocklist⟩, clock, []⟩

def step (s : BlockRun) (c : BlockCall) : Option BlockRun :=
  if s.clock ≤ c.now then
    some ⟨((block c.token).exec c.now s.store).1, c.now, s.blocked ++ (identity c.token).toList⟩
  else none

theorem step_cases {s s' : BlockRun} {c : BlockCall} (h : s.step c = some s') :
    s.clock ≤ s'.clock ∧
      (s'.store = s.store ∧ s'.blocked = s.blocked ∨
        ∃ t, s'.blocked = s.blocked ++ [t] ∧ s'.store.value.entries =
          s.store.value.entries.filter (keepEntry s'.clock) ++ split sep t.short) := by
  simp only [step, Option.ite_none_right_eq_some, Option.some.injEq] at h
  obtain ⟨hle, rfl⟩ := h
  refine ⟨hle, ?_⟩
  cases ht : identity c.token with
  | none =>
    obtain ⟨e, he⟩ := exec_block_refused ht c.now s.store
    exact .inl ⟨by simp only [he], by simp⟩
  | some t =>
    refine .inr ⟨t, by simp, ?_⟩
    simp only [exec_block ht]
    exact entries_add_split s.store.value t.short c.now

end BlockRun

/-- While `q` lives it is found blocked exactly when it was, whatever tokens of
`B` are blocked and whenever. -/
def ExactFor (q : Identity) (B : Set Identity) : Prop :=
  ∀ (clock : Int) (calls : List BlockCall) (s : BlockRun) (now : Int) (token : Option Token),
    run BlockRun.step (.start clock) calls = some s → (∀ b ∈ s.blocked, b ∈ B) →
    s.clock ≤ now → identity token = some q → q.Alive now →
    (isBlocked (some s.store.value) token = .ok true ↔ q ∈ s.blocked)

/-- The last ten bytes of the entry are a time not before the token's expiry. -/
def OutlivesCleanup (q : Identity) : Prop :=
  ∃ n, entryExpiry q.short = some n ∧ q.exp.value ≤ n

/-- `b` is neither taken for `q` nor is `q` dropped when `b` is blocked. -/
structure Separated (q b : Identity) : Prop where
  apart : ¬ q.short <:+: b.short
  outlives : OutlivesCleanup q

theorem OutlivesCleanup.keepEntry {q : Identity} (h : OutlivesCleanup q) {now : Int}
    (halive : q.Alive now) : keepEntry now q.short = true := by
  obtain ⟨n, hn, hle⟩ := h
  refine (keepEntry_iff now q.short).mpr ⟨n, hn, ?_⟩
  have hlt : (now : ℚ) < n * 10 ^ 9 := halive.trans_le (by gcongr)
  exact_mod_cast hlt

theorem exists_dropped {q : Identity} (h : ¬ OutlivesCleanup q) :
    ∃ now, q.Alive now ∧ keepEntry now q.short = false := by
  cases hn : entryExpiry q.short with
  | none =>
    obtain ⟨now, hnow⟩ := exists_int_lt (q.exp.value * 10 ^ 9)
    refine ⟨now, hnow, Bool.eq_false_iff.mpr ?_⟩
    intro hkeep
    obtain ⟨ts, hts, -⟩ := (keepEntry_iff now q.short).mp hkeep
    rw [hn] at hts
    cases hts
  | some n =>
    have hlt : (n : ℚ) < q.exp.value := by
      by_contra hle
      exact h ⟨n, hn, not_lt.mp hle⟩
    refine ⟨n * 10 ^ 9, ?_, Bool.eq_false_iff.mpr ?_⟩
    · have hscaled : (n : ℚ) * 10 ^ 9 < q.exp.value * 10 ^ 9 := by gcongr
      rw [Identity.Alive]
      exact_mod_cast hscaled
    · intro hkeep
      obtain ⟨ts, hts, hbefore⟩ := (keepEntry_iff _ q.short).mp hkeep
      rw [hn] at hts
      obtain rfl := Option.some.inj hts
      exact lt_irrefl _ hbefore

/-- The list holds nothing but pieces of blocked tokens, and `q` while it lives. -/
structure ListInv (q : Identity) (s : BlockRun) : Prop where
  piece : ∀ e ∈ s.store.value.entries, e = [] ∨ ∃ b ∈ s.blocked, e ∈ split sep b.short
  listed : q ∈ s.blocked → q.Alive s.clock → q.short ∈ s.store.value.entries

theorem Identity.Alive.anti {q : Identity} {now now' : Int} (h : q.Alive now') (hle : now ≤ now') :
    q.Alive now := by
  have hcast : (now : ℚ) ≤ now' := by exact_mod_cast hle
  exact lt_of_le_of_lt hcast h

private theorem listInv_start (q : Identity) (clock : Int) : ListInv q (.start clock) := by
  refine ⟨?_, ?_⟩
  · intro e he
    left
    simpa [BlockRun.start, emptyBlocklist, BlocklistSecret.entries, split] using he
  · intro h
    simp [BlockRun.start] at h

private theorem listInv_step {q : Identity} {B : Set Identity} (hcomma : sep ∉ q.id)
    (hsep : ∀ b ∈ B, b ≠ q → Separated q b) {s s' : BlockRun} {c : BlockCall}
    (hinv : (∀ b ∈ s.blocked, b ∈ B) → ListInv q s) (h : s.step c = some s')
    (hB : ∀ b ∈ s'.blocked, b ∈ B) : ListInv q s' := by
  obtain ⟨hle, ⟨hstore, hblocked⟩ | ⟨t, hblocked, hentries⟩⟩ := BlockRun.step_cases h
  · rw [hblocked] at hB
    have hs := hinv hB
    refine ⟨by rw [hstore, hblocked]; exact hs.piece, ?_⟩
    intro hq halive
    rw [hblocked] at hq
    rw [hstore]
    exact hs.listed hq (halive.anti hle)
  · have hs := hinv fun b hb => hB b (by simp [hblocked, hb])
    refine ⟨?_, ?_⟩
    · intro e he
      rw [hentries, List.mem_append] at he
      rcases he with he | he
      · rcases hs.piece e (List.mem_of_mem_filter he) with he | ⟨b, hb, he⟩
        · exact .inl he
        · exact .inr ⟨b, by simp [hblocked, hb], he⟩
      · exact .inr ⟨t, by simp [hblocked], he⟩
    · intro hq halive
      rw [hentries, List.mem_append]
      by_cases htq : t = q
      · subst htq
        right
        simp [split_of_not_mem sep t.short (t.comma_not_mem_short hcomma)]
      · left
        have hq' : q ∈ s.blocked := by
          simpa [hblocked, Ne.symm htq] using hq
        have hout := (hsep t (hB t (by simp [hblocked])) htq).outlives
        exact List.mem_filter.mpr
          ⟨hs.listed hq' (halive.anti hle), hout.keepEntry halive⟩

theorem exactFor_of_separated {q : Identity} {B : Set Identity} (hcomma : sep ∉ q.id)
    (hsep : ∀ b ∈ B, b ≠ q → Separated q b) : ExactFor q B := by
  intro clock calls s now token hrun hB hnow htoken halive
  have hinv : (∀ b ∈ s.blocked, b ∈ B) → ListInv q s :=
    run_invariant (fun s => (∀ b ∈ s.blocked, b ∈ B) → ListInv q s)
      (fun _ _ _ hi h hB => listInv_step hcomma hsep hi h hB)
      (fun _ => listInv_start q clock) hrun
  rw [isBlocked_iff s.store.value htoken hcomma]
  constructor
  · rintro ⟨e, he, hfound⟩
    rcases (hinv hB).piece e he with rfl | ⟨b, hb, he⟩
    · exact absurd (List.infix_nil.mp hfound) q.short_ne_nil
    · by_contra hq
      have hne : b ≠ q := fun hbq => hq (hbq ▸ hb)
      exact (hsep b (hB b hb) hne).apart
        (hfound.trans (infix_of_mem_split sep b.short e he))
  · intro hq
    exact ⟨q.short, (hinv hB).listed hq (halive.anti hnow), List.infix_rfl⟩

theorem Identity.Regular.separated {q b : Identity} (hq : q.Regular) (hb : b.Regular)
    (hlen : q.id.length = b.id.length) (hne : b ≠ q) : Separated q b := by
  obtain ⟨n, hn, hexpiry⟩ := hq.entryExpiry_short
  refine ⟨?_, n, hexpiry, by simp [hn]⟩
  intro hfound
  obtain ⟨k, hk, hlo, hhi⟩ := hq.tenDigits
  obtain ⟨m, hm, hlo', hhi'⟩ := hb.tenDigits
  have hdigits := decimal_length k 9 hlo hhi
  have hdigits' := decimal_length m 9 hlo' hhi'
  have heq : q.short = b.short := by
    apply hfound.eq_of_length
    simp [Identity.short, hk, hm, hlen, hdigits, hdigits']
  simp only [Identity.short, hk, hm, formatFloat_ofNat] at heq
  obtain ⟨hid, hexp⟩ := List.append_inj heq hlen
  have hkm : k = m := decimal_injective hexp
  apply hne
  cases q
  cases b
  simp_all

private theorem step_block (s : BlockRun) (t : Identity) {now : Int} (hle : s.clock ≤ now) :
    ∃ s', s.step ⟨now, t.token⟩ = some s' ∧ s'.clock = now ∧ s'.blocked = s.blocked ++ [t] ∧
      s'.store.value.entries =
        s.store.value.entries.filter (keepEntry now) ++ split sep t.short := by
  refine ⟨_, if_pos hle, rfl, by simp, ?_⟩
  simp only [exec_block (identity_token t)]
  exact entries_add_split s.store.value t.short now

private theorem run_block (clock : Int) (b : Identity) :
    ∃ s, run BlockRun.step (.start clock) [⟨clock, b.token⟩] = some s ∧ s.clock = clock ∧
      s.blocked = [b] ∧ s.store.value.entries = split sep b.short := by
  obtain ⟨s, hs, hclock, hblocked, hentries⟩ := step_block (.start clock) b (le_refl clock)
  refine ⟨s, by simp [run, hs], hclock, hblocked, ?_⟩
  have hkeep : keepEntry clock [] = false := rfl
  have hempty : (BlockRun.start clock).store.value.entries = [[]] := rfl
  simpa [hempty, hkeep] using hentries

private theorem run_block_block (clock : Int) (q b : Identity) (hcomma : sep ∉ q.id)
    (hdropped : keepEntry clock q.short = false) :
    ∃ s, run BlockRun.step (.start clock) [⟨clock, q.token⟩, ⟨clock, b.token⟩] = some s ∧
      s.clock = clock ∧ s.blocked = [q, b] ∧ s.store.value.entries = split sep b.short := by
  obtain ⟨s, hs, hclock, hblocked, hentries⟩ := run_block clock q
  obtain ⟨s', hs', hclock', hblocked', hentries'⟩ := step_block s b hclock.le
  have hq : split sep q.short = [q.short] := split_of_not_mem sep _ (q.comma_not_mem_short hcomma)
  have hrun := (run_append_eq_some BlockRun.step (.start clock) s' [⟨clock, q.token⟩]
    [⟨clock, b.token⟩]).mpr ⟨s, hs, by simp [run, hs']⟩
  refine ⟨s', hrun, hclock', by simp [hblocked', hblocked], ?_⟩
  simpa [hentries, hq, hdropped] using hentries'

private theorem separated_of_exactFor {q : Identity} {B : Set Identity} (hq : q ∈ B)
    (hcomma : sep ∉ q.id) (h : ExactFor q B) : ∀ b ∈ B, b ≠ q → Separated q b := by
  intro b hb hne
  have hapart : ¬ q.short <:+: b.short := by
    intro hfound
    obtain ⟨now, hnow⟩ := exists_int_lt (q.exp.value * 10 ^ 9)
    obtain ⟨s, hs, hclock, hblocked, hentries⟩ := run_block now b
    have hexact := h now _ s now q.token hs (by simp [hblocked, hb]) hclock.le (identity_token q)
      hnow
    rw [isBlocked_iff _ (identity_token q) hcomma, hentries, hblocked] at hexact
    have hpiece : ∃ e ∈ split sep b.short, q.short <:+: e := by
      rw [← contains_join sep _ _ (split_ne_nil sep _) (q.comma_not_mem_short hcomma), join_split]
      exact decide_eq_true hfound
    exact hne (by simpa [eq_comm] using hexact.mp hpiece)
  refine ⟨hapart, ?_⟩
  by_contra hout
  obtain ⟨now, halive, hdropped⟩ := exists_dropped hout
  obtain ⟨s, hs, hclock, hblocked, hentries⟩ := run_block_block now q b hcomma hdropped
  have hexact := h now _ s now q.token hs (by simp [hblocked, hb, hq]) hclock.le
    (identity_token q) halive
  rw [isBlocked_iff _ (identity_token q) hcomma, hentries, hblocked] at hexact
  obtain ⟨e, he, hfound⟩ := hexact.mpr (by simp)
  exact hapart (hfound.trans (infix_of_mem_split sep b.short e he))

/-- The block list is exact for a token if and only if every other token that
may be blocked is kept apart from it. -/
theorem exactFor_iff_separated (B : Set Identity) (q : Identity) (hq : q ∈ B)
    (hcomma : sep ∉ q.id) : ExactFor q B ↔ ∀ b ∈ B, b ≠ q → Separated q b :=
  ⟨separated_of_exactFor hq hcomma, exactFor_of_separated hcomma⟩

theorem exactFor_iff_separated_sample :
    ExactFor (sampleIdentity true) (Set.range sampleIdentity) := by
  refine (exactFor_iff_separated _ _ (Set.mem_range_self true)
    (sampleIdentity_regular true).comma).mpr ?_
  rintro b ⟨i, rfl⟩ hne
  exact (sampleIdentity_regular true).separated (sampleIdentity_regular i)
    (by cases i <;> decide) hne

def suffixIdentity : Identity := ⟨ascii "ba", .ofNat 1743679478, by decide⟩

def longExpIdentity : Identity :=
  ⟨ascii "9d1c1f98-a479-41e3-8939-c7cb3edefa", .ofNat 331743679478, by decide⟩

def commaIdentity : Identity := ⟨ascii "a,b", .ofNat 1743679478, by decide⟩

/-- A token never blocked is found, and two that were blocked are not: one once
its last ten digits are a time gone by, one at the very next call. -/
theorem blocklist_not_exact :
    (∃ s, run BlockRun.step (.start 0) [⟨0, suffixIdentity.token⟩] = some s ∧
      sampleIdentity true ∉ s.blocked ∧ (sampleIdentity true).Alive s.clock ∧
      isBlocked (some s.store.value) (sampleIdentity true).token = .ok true) ∧
    (∃ s, run BlockRun.step (.start 0) [⟨1743679478000000000, longExpIdentity.token⟩,
        ⟨1743679478000000000, (sampleIdentity true).token⟩] = some s ∧
      longExpIdentity ∈ s.blocked ∧ longExpIdentity.Alive s.clock ∧
      isBlocked (some s.store.value) longExpIdentity.token = .ok false) ∧
    ∃ s, run BlockRun.step (.start 0) [⟨0, commaIdentity.token⟩,
        ⟨0, (sampleIdentity true).token⟩] = some s ∧
      commaIdentity ∈ s.blocked ∧ commaIdentity.Alive s.clock ∧
      isBlocked (some s.store.value) commaIdentity.token = .ok false := by
  refine ⟨⟨_, rfl, ?_, ?_, ?_⟩, ⟨_, rfl, ?_, ?_, ?_⟩, ⟨_, rfl, ?_, ?_, ?_⟩⟩
  all_goals decide +kernel

end OpenEverest.Session
