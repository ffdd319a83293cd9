import OpenEverest.Framework.Duration
import OpenEverest.Framework.GoString
import OpenEverest.Framework.Run

/-!
# The lock-out of failing visitors

The login rate limiter keeps a time-out for each visitor and doubles it with
each failure. A visitor is forgotten when it succeeds, and by a clean-up of the
store that runs now and then when it was not seen for hours.
-/

namespace OpenEverest.Server

open Framework

def initialTimeout : Int := 20 * millisecond

def attemptsExpiration : Int := 6 * hour

def defaultStoreExpiration : Int := 3 * minute

/-- `limiter` is the state of the visitor's `rate.Limiter`. -/
structure Visitor (Limiter : Type) where
  limiter : Limiter
  lastSeen : Int
  timeout : Int
  expire : Int

structure RateLimiterMemoryStore (Limiter : Type) where
  visitors : GoString → Option (Visitor Limiter)
  expiresIn : Int
  lastCleanup : Int

/-- What the clock shows during one call: at first, as each visitor is looked at
by the clean-up, after it, and for the limiter. -/
structure Readings where
  now : Int
  visit : GoString → Int
  cleaned : Int
  allow : Int
  now_le : ∀ id, now ≤ visit id
  visit_le : ∀ id, visit id ≤ cleaned
  cleaned_le : cleaned ≤ allow

def Readings.at (t : Int) : Readings :=
  ⟨t, fun _ => t, t, t, fun _ => le_refl t, fun _ => le_refl t, le_refl t⟩

theorem Readings.now_le_allow (r : Readings) : r.now ≤ r.allow :=
  (r.now_le []).trans ((r.visit_le []).trans r.cleaned_le)

section Store

-- `rate.NewLimiter` for the rate and burst of the store, and `AllowN` for one event
variable {Limiter : Type} (newLimiter : Limiter) (allowN : Limiter → Int → Bool × Limiter)

def newRateLimiterMemoryStoreWithConfig (expiresIn : Int) (now : Int) :
    RateLimiterMemoryStore Limiter :=
  { visitors := fun _ => none
    expiresIn := if expiresIn = 0 then defaultStoreExpiration else expiresIn
    lastCleanup := now }

def newVisitor : Visitor Limiter :=
  { limiter := newLimiter
    lastSeen := zeroTime
    timeout := initialTimeout
    expire := attemptsExpiration }

def cleanupStaleVisitors (store : RateLimiterMemoryStore Limiter) (r : Readings) :
    RateLimiterMemoryStore Limiter :=
  { store with
    visitors := fun id => (store.visitors id).filter fun visitor =>
      ¬ visitor.expire < timeSub (r.visit id) visitor.lastSeen
    lastCleanup := r.cleaned }

/-- The store once the visitor is looked up, or made, and marked as seen. -/
def markSeen (store : RateLimiterMemoryStore Limiter) (identifier : GoString) (now : Int) :
    RateLimiterMemoryStore Limiter :=
  let limiter := (store.visitors identifier).getD (newVisitor newLimiter)
  { store with
    visitors := Function.update store.visitors identifier (some { limiter with lastSeen := now }) }

def cleanupWhenDue (store : RateLimiterMemoryStore Limiter) (r : Readings) :
    RateLimiterMemoryStore Limiter :=
  if store.expiresIn < timeSub r.now store.lastCleanup then cleanupStaleVisitors store r else store

/-- `Allow`. The limiter belongs to the visitor even when it was just removed. -/
def allow (store : RateLimiterMemoryStore Limiter) (identifier : GoString) (r : Readings) :
    RateLimiterMemoryStore Limiter × Bool :=
  let limiter := (store.visitors identifier).getD (newVisitor newLimiter)
  let sinceLastFailure := timeSub r.now limiter.lastSeen
  let cleaned := cleanupWhenDue (markSeen newLimiter store identifier r.now) r
  let (allowed, used) := allowN limiter.limiter r.allow
  ({ cleaned with
      visitors := Function.update cleaned.visitors identifier
        ((cleaned.visitors identifier).map fun visitor => { visitor with limiter := used }) },
    allowed && decide (limiter.timeout < sinceLastFailure))

def cleanupVisitor (store : RateLimiterMemoryStore Limiter) (identifier : GoString) :
    RateLimiterMemoryStore Limiter :=
  { store with visitors := Function.update store.visitors identifier none }

def increaseTimeout (store : RateLimiterMemoryStore Limiter) (identifier : GoString) :
    RateLimiterMemoryStore Limiter :=
  { store with
    visitors := Function.update store.visitors identifier
      ((store.visitors identifier).map fun limiter =>
        { limiter with timeout := wrapInt64 (limiter.timeout * 2) }) }

end Store

inductive LimiterEvent where
  | allow (identifier : GoString) (readings : Readings)
  | increaseTimeout (identifier : GoString)
  | cleanupVisitor (identifier : GoString)

/-- What happened to the visitors; `swept` tells which the clean-up removed. -/
inductive LogEntry where
  | allowed (identifier : GoString) (now : Int)
  | increased (identifier : GoString)
  | cleaned (identifier : GoString)
  | swept (removed : GoString → Bool)

structure LimiterRun (Limiter : Type) where
  store : RateLimiterMemoryStore Limiter
  clock : Int
  log : List LogEntry

namespace LimiterRun

variable {Limiter : Type}

def start (expiresIn : Int) (clock : Int) : LimiterRun Limiter :=
  ⟨newRateLimiterMemoryStoreWithConfig expiresIn clock, clock, []⟩

def step (newLimiter : Limiter) (allowN : Limiter → Int → Bool × Limiter)
    (s : LimiterRun Limiter) : LimiterEvent → Option (LimiterRun Limiter)
  | .allow identifier r =>
    if s.clock ≤ r.now then
      let seen := markSeen newLimiter s.store identifier r.now
      let store := (allow newLimiter allowN s.store identifier r).1
      some
        { store := store
          clock := r.allow
          log := s.log ++ [.allowed identifier r.now,
            .swept fun id => (seen.visitors id).isSome && (store.visitors id).isNone] }
    else none
  | .increaseTimeout identifier =>
    some { s with store := Server.increaseTimeout s.store identifier
                  log := s.log ++ [.increased identifier] }
  | .cleanupVisitor identifier =>
    some { s with store := Server.cleanupVisitor s.store identifier
                  log := s.log ++ [.cleaned identifier] }

end LimiterRun

/-- The last `Allow` of a visitor, and how many times its time-out was increased
since the first one after the visitor was forgotten. -/
structure Lockout where
  lastAllow : Int
  failures : Nat
  deriving DecidableEq

def LogEntry.record (id : GoString) (l : Option Lockout) : LogEntry → Option Lockout
  | .allowed i now => if i = id then some ⟨now, (l.map (·.failures)).getD 0⟩ else l
  | .increased i => if i = id then l.map fun l => { l with failures := l.failures + 1 } else l
  | .cleaned i => if i = id then none else l
  | .swept removed => if removed id then none else l

def record (id : GoString) (log : List LogEntry) : Option Lockout :=
  log.foldl (LogEntry.record id) none

def LogEntry.isCall : LogEntry → Bool
  | .swept _ => false
  | _ => true

def Visitor.timing {Limiter : Type} (v : Visitor Limiter) : Int × Int × Int :=
  (v.lastSeen, v.timeout, v.expire)

def Lockout.timing (l : Lockout) : Int × Int × Int :=
  (l.lastAllow, wrapInt64 (initialTimeout * 2 ^ l.failures), attemptsExpiration)

section Lookup

variable {Limiter : Type} (newLimiter : Limiter) (allowN : Limiter → Int → Bool × Limiter)

theorem cleanupWhenDue_visitors (store : RateLimiterMemoryStore Limiter) (r : Readings)
    (id : GoString) :
    (cleanupWhenDue store r).visitors id = store.visitors id ∨
      (cleanupWhenDue store r).visitors id = none ∧ ∃ v, store.visitors id = some v ∧
        v.expire < timeSub (r.visit id) v.lastSeen := by
  unfold cleanupWhenDue
  split
  · cases hv : store.visitors id with
    | none => exact .inl (by simp [cleanupStaleVisitors, hv])
    | some v =>
      by_cases hstale : v.expire < timeSub (r.visit id) v.lastSeen
      · exact .inr ⟨by simp [cleanupStaleVisitors, hv, hstale], v, rfl, hstale⟩
      · exact .inl (by simp [cleanupStaleVisitors, hv, not_lt.mp hstale])
  · exact .inl rfl

theorem allow_timing (store : RateLimiterMemoryStore Limiter) (identifier : GoString)
    (r : Readings) (id : GoString) :
    ((allow newLimiter allowN store identifier r).1.visitors id).map Visitor.timing =
      ((cleanupWhenDue (markSeen newLimiter store identifier r.now) r).visitors id).map
        Visitor.timing := by
  simp only [allow]
  by_cases hid : id = identifier
  · subst hid
    simp only [Function.update_self, Option.map_map]
    rfl
  · simp [hid]

theorem markSeen_timing (store : RateLimiterMemoryStore Limiter) (identifier : GoString)
    (log : List LogEntry) (now : Int) (id : GoString)
    (h : (store.visitors id).map Visitor.timing = (record id log).map Lockout.timing) :
    ((markSeen newLimiter store identifier now).visitors id).map Visitor.timing =
      (LogEntry.record id (record id log) (.allowed identifier now)).map Lockout.timing := by
  by_cases hid : identifier = id
  · subst hid
    cases hl : record identifier log with
    | none =>
      have hv : store.visitors identifier = none := by simpa [hl] using h
      have hwrap : wrapInt64 initialTimeout = initialTimeout := rfl
      simp [markSeen, LogEntry.record, hv, newVisitor, Visitor.timing, Lockout.timing, hwrap]
    | some l =>
      cases hv : store.visitors identifier with
      | none => simp [hl, hv] at h
      | some v =>
        have ht : v.timing = l.timing := by simpa [hl, hv] using h
        simp only [Visitor.timing, Lockout.timing, Prod.mk.injEq] at ht
        simp [markSeen, LogEntry.record, hv, Visitor.timing, Lockout.timing, ht.2]
  · have hne : id ≠ identifier := Ne.symm hid
    simpa [markSeen, LogEntry.record, hid, hne] using h

end Lookup

namespace LimiterRun

variable {Limiter : Type}

/-- The store holds of each visitor what the log records of it. -/
structure Recorded (s : LimiterRun Limiter) : Prop where
  timing : ∀ id, (s.store.visitors id).map Visitor.timing = (record id s.log).map Lockout.timing
  lastAllow_le : ∀ id l, record id s.log = some l → l.lastAllow ≤ s.clock

private theorem record_snoc (id : GoString) (log : List LogEntry) (e : LogEntry) :
    record id (log ++ [e]) = e.record id (record id log) := by
  simp only [record, List.foldl_append, List.foldl_cons, List.foldl_nil]

private theorem step_allow {newLimiter : Limiter} {allowN : Limiter → Int → Bool × Limiter}
    {s s' : LimiterRun Limiter} {identifier : GoString} {r : Readings}
    (h : s.step newLimiter allowN (.allow identifier r) = some s') :
    s.clock ≤ r.now ∧ s'.clock = r.allow ∧
      s'.store = (allow newLimiter allowN s.store identifier r).1 ∧
      ∀ id, record id s'.log =
        if ((markSeen newLimiter s.store identifier r.now).visitors id).isSome &&
          (s'.store.visitors id).isNone then none
        else LogEntry.record id (record id s.log) (.allowed identifier r.now) := by
  simp only [step, Option.ite_none_right_eq_some, Option.some.injEq] at h
  refine ⟨h.1, by simp [← h.2], by simp [← h.2], fun id => ?_⟩
  have hlog (e e' : LogEntry) : record id (s.log ++ [e, e']) =
      e'.record id (e.record id (record id s.log)) := by
    rw [← record_snoc, ← record_snoc, List.append_assoc]
    rfl
  simp only [← h.2, hlog]
  rfl

private theorem recorded_allow {newLimiter : Limiter} {allowN : Limiter → Int → Bool × Limiter}
    {s s' : LimiterRun Limiter} {identifier : GoString} {r : Readings} (hs : Recorded s)
    (h : s.step newLimiter allowN (.allow identifier r) = some s') : Recorded s' := by
  obtain ⟨hclock, hclock', hstore, hrecord⟩ := step_allow h
  have hseen id := markSeen_timing newLimiter s.store identifier s.log r.now id (hs.timing id)
  refine ⟨fun id => ?_, fun id l hl => ?_⟩
  · have hkept := allow_timing newLimiter allowN s.store identifier r id
    rw [← hstore] at hkept
    rw [hrecord id]
    rcases cleanupWhenDue_visitors (markSeen newLimiter s.store identifier r.now) r id with
      hsame | ⟨hnone, v, hv, -⟩
    · rw [hsame] at hkept
      have hnot : (((markSeen newLimiter s.store identifier r.now).visitors id).isSome &&
          (s'.store.visitors id).isNone) = false := by
        have hboth := congrArg Option.isSome hkept
        simp only [Option.isSome_map] at hboth
        cases hx : s'.store.visitors id <;> simp_all
      rw [hnot, hkept, hseen id]
      rfl
    · rw [hnone] at hkept
      have hgone : s'.store.visitors id = none := by simpa using hkept
      simp [hgone, hv]
  · rw [hclock']
    rw [hrecord id] at hl
    split at hl
    · cases hl
    · have hallow := r.now_le_allow
      by_cases hid : identifier = id
      · simp only [LogEntry.record, hid, if_true, Option.some.injEq] at hl
        rw [← hl]
        exact hallow
      · simp only [LogEntry.record, hid, if_false] at hl
        have hle := hs.lastAllow_le id l hl
        omega

private theorem recorded_step {newLimiter : Limiter} {allowN : Limiter → Int → Bool × Limiter}
    {s s' : LimiterRun Limiter} {e : LimiterEvent} (hs : Recorded s)
    (h : s.step newLimiter allowN e = some s') : Recorded s' := by
  cases e with
  | allow identifier r => exact recorded_allow hs h
  | increaseTimeout identifier =>
    obtain rfl := Option.some.inj h
    refine ⟨fun id => ?_, fun id l hl => ?_⟩
    · have ht := hs.timing id
      rw [record_snoc, LogEntry.record]
      by_cases hid : identifier = id
      · subst hid
        cases hl : record identifier s.log with
        | none =>
          have hv : s.store.visitors identifier = none := by simpa [hl] using ht
          simp [Server.increaseTimeout, hv]
        | some l =>
          cases hv : s.store.visitors identifier with
          | none => simp [hl, hv] at ht
          | some v =>
            simp only [hl, hv, Option.map_some, Option.some.injEq, Visitor.timing, Lockout.timing,
              Prod.mk.injEq] at ht
            simp [Server.increaseTimeout, hv, Visitor.timing, Lockout.timing, ht,
              wrapInt64_double]
      · have hne : id ≠ identifier := Ne.symm hid
        simpa [Server.increaseTimeout, hid, hne] using ht
    · rw [record_snoc, LogEntry.record] at hl
      split at hl
      · obtain ⟨l', hl', rfl⟩ := Option.map_eq_some_iff.mp hl
        exact hs.lastAllow_le id l' hl'
      · exact hs.lastAllow_le id l hl
  | cleanupVisitor identifier =>
    obtain rfl := Option.some.inj h
    refine ⟨fun id => ?_, fun id l hl => ?_⟩
    · rw [record_snoc, LogEntry.record]
      by_cases hid : identifier = id
      · subst hid
        simp [Server.cleanupVisitor]
      · have hne : id ≠ identifier := Ne.symm hid
        simpa [Server.cleanupVisitor, hid, hne] using hs.timing id
    · rw [record_snoc, LogEntry.record] at hl
      split at hl
      · cases hl
      · exact hs.lastAllow_le id l hl

theorem recorded_run {newLimiter : Limiter} {allowN : Limiter → Int → Bool × Limiter}
    {expiresIn clock : Int} {events : List LimiterEvent} {s : LimiterRun Limiter}
    (h : run (step newLimiter allowN) (start expiresIn clock) events = some s) : Recorded s :=
  run_invariant Recorded (fun _ _ _ => recorded_step)
    ⟨fun _ => rfl, fun _ _ hl => absurd hl.symm (Option.some_ne_none _)⟩ h

end LimiterRun

theorem wrapInt64_timeout (k : Nat) (hk : k ≤ 38) :
    wrapInt64 (initialTimeout * 2 ^ k) = initialTimeout * 2 ^ k := by
  have hpow : (2 : Int) ^ k ≤ 2 ^ 38 := pow_le_pow_right₀ (by norm_num) hk
  have hpos : (0 : Int) < 2 ^ k := by positivity
  apply wrapInt64_of_mem
  · unfold minDuration initialTimeout millisecond
    omega
  · unfold maxDuration initialTimeout millisecond
    omega

section Lockout

variable {Limiter : Type} {newLimiter : Limiter} {allowN : Limiter → Int → Bool × Limiter}
  {s : LimiterRun Limiter}

private theorem timeout_of_allow (hs : s.Recorded) (identifier : GoString) (r : Readings)
    (l : Lockout) (hl : record identifier s.log = some l) (hk : l.failures ≤ 38)
    (hallow : (allow newLimiter allowN s.store identifier r).2 = true) :
    2 ^ l.failures * initialTimeout < r.now - l.lastAllow := by
  have ht := hs.timing identifier
  cases hv : s.store.visitors identifier with
  | none => simp [hl, hv] at ht
  | some v =>
    simp only [hl, hv, Option.map_some, Option.some.injEq, Visitor.timing, Lockout.timing,
      Prod.mk.injEq, wrapInt64_timeout l.failures hk] at ht
    have hlt : v.timeout < timeSub r.now v.lastSeen := by
      simp only [allow, hv, Option.getD_some, Bool.and_eq_true, decide_eq_true_eq] at hallow
      exact hallow.2
    rw [ht.1, ht.2.1] at hlt
    have hnonneg : 0 ≤ initialTimeout * 2 ^ l.failures := by
      have hinitial : 0 ≤ initialTimeout := by decide
      positivity
    have hpassed := lt_of_lt_timeSub _ _ _ hnonneg hlt
    rwa [mul_comm] at hpassed

private theorem idle_of_removed (hs : s.Recorded) {s' : LimiterRun Limiter} {identifier : GoString}
    {r : Readings} (hstep : s.step newLimiter allowN (.allow identifier r) = some s')
    (id : GoString) (l : Lockout) (hl : record id s.log = some l)
    (hremoved : record id s'.log = none) : attemptsExpiration < r.visit id - l.lastAllow := by
  obtain ⟨hclock, -, hstore, hrecord⟩ := LimiterRun.step_allow hstep
  have hseen := markSeen_timing newLimiter s.store identifier s.log r.now id (hs.timing id)
  have hle := hs.lastAllow_le id l hl
  rw [hrecord id] at hremoved
  have hkept := allow_timing newLimiter allowN s.store identifier r id
  rw [← hstore] at hkept
  have hrecorded : ∃ l', LogEntry.record id (record id s.log) (.allowed identifier r.now) =
      some l' ∧ l.lastAllow ≤ l'.lastAllow := by
    by_cases hid : identifier = id
    · exact ⟨⟨r.now, l.failures⟩, by simp [LogEntry.record, hid, hl], hle.trans hclock⟩
    · exact ⟨l, by simp only [LogEntry.record, hid, if_false, hl], le_refl _⟩
  obtain ⟨l', hl', hlater⟩ := hrecorded
  rcases cleanupWhenDue_visitors (markSeen newLimiter s.store identifier r.now) r id with
    hsame | ⟨hnone, v, hv, hstale⟩
  · rw [hsame, hseen, hl'] at hkept
    cases hx : s'.store.visitors id <;> simp [hx, hl'] at hkept hremoved
  · simp only [hv, hl', Option.map_some, Option.some.injEq, Visitor.timing, Lockout.timing,
      Prod.mk.injEq] at hseen
    rw [hseen.1, hseen.2.2] at hstale
    have hexpiration : 0 ≤ attemptsExpiration := by decide
    have hpassed := lt_of_lt_timeSub _ _ _ hexpiration hstale
    omega

end Lockout

/-- In every run, a visitor on record that failed `k ≤ 38` times is admitted only
when more than `2 ^ k` times the initial time-out has passed since its last
`Allow`; and the clean-up forgets only visitors idle for more than six hours. -/
theorem lockout_doubles {Limiter : Type} (newLimiter : Limiter)
    (allowN : Limiter → Int → Bool × Limiter) (expiresIn clock : Int) (events : List LimiterEvent)
    (s s' : LimiterRun Limiter)
    (hrun : run (LimiterRun.step newLimiter allowN) (.start expiresIn clock) events = some s)
    (identifier : GoString) (r : Readings)
    (hstep : s.step newLimiter allowN (.allow identifier r) = some s') :
    (∀ l, record identifier s.log = some l → l.failures ≤ 38 →
      (allow newLimiter allowN s.store identifier r).2 = true →
      2 ^ l.failures * initialTimeout < r.now - l.lastAllow) ∧
    ∀ id l, record id s.log = some l → record id s'.log = none →
      attemptsExpiration < r.visit id - l.lastAllow := by
  have hs := LimiterRun.recorded_run hrun
  exact ⟨timeout_of_allow hs identifier r, idle_of_removed hs hstep⟩

def noLimit (_ : Unit) (_ : Int) : Bool × Unit := (true, ())

theorem lockout_doubles_sample :
    ∃ s, run (LimiterRun.step () noLimit) (.start 0 0)
        [.allow (ascii "a") (.at 0), .increaseTimeout (ascii "a")] = some s ∧
      (allow () noLimit s.store (ascii "a") (.at 40000001)).2 = true ∧
      2 ^ 1 * initialTimeout < 40000001 - 0 := by
  refine ⟨_, rfl, by decide +kernel, ?_⟩
  exact (lockout_doubles () noLimit 0 0 [.allow (ascii "a") (.at 0), .increaseTimeout (ascii "a")] _
    _ rfl (ascii "a") (.at 40000001) rfl).1 ⟨0, 1⟩ rfl (by decide) (by decide +kernel)

/-- Counted since the last `CleanupVisitor` alone, and for any number of failures,
the law fails: the 39th doubling overflows, and after six hours a lock-out of
23 hours is forgotten. -/
theorem lockout_forgotten :
    (∃ s, run (LimiterRun.step () noLimit) (.start 0 0)
        (.allow (ascii "a") (.at 0) :: List.replicate 39 (.increaseTimeout (ascii "a"))) = some s ∧
      record (ascii "a") (s.log.filter LogEntry.isCall) = some ⟨0, 39⟩ ∧
      (allow () noLimit s.store (ascii "a") (.at 1)).2 = true ∧
      ¬ 2 ^ 39 * initialTimeout < 1 - 0) ∧
    ∃ s, run (LimiterRun.step () noLimit) (.start 0 0)
        (.allow (ascii "a") (.at 0) :: List.replicate 22 (.increaseTimeout (ascii "a")) ++
          [.allow (ascii "b") (.at (6 * hour + 1))]) = some s ∧
      record (ascii "a") (s.log.filter LogEntry.isCall) = some ⟨0, 22⟩ ∧
      (allow () noLimit s.store (ascii "a") (.at (6 * hour + 2))).2 = true ∧
      ¬ 2 ^ 22 * initialTimeout < 6 * hour + 2 - 0 := by
  refine ⟨⟨_, rfl, ?_, ?_, ?_⟩, ⟨_, rfl, ?_, ?_, ?_⟩⟩
  all_goals decide +kernel

end OpenEverest.Server
