import OpenEverest.Session.Manager

/-!
# Tokens that the manager creates

The lifetime of a created token is a duration of 64 bits, counted in nanoseconds, and a token
without one has no expiry. The block list tells tokens apart by their expiry and fails without.
-/

namespace OpenEverest.Session

open Framework GoString Accounts

/-- `time.Duration(seconds) * time.Second`. -/
def durationOfSeconds (seconds : Int) : Int := (seconds * 10 ^ 9).bmod (2 ^ 64)

/-- The claims that `Manager.Create` signs at the time `now`, as they are decoded. -/
def create (now : Int) (subject : GoString) (secondsBeforeExpiry : Int) (id : GoString) : Token :=
  ⟨.mapClaims fun key =>
    if key = "iat" ∨ key = "nbf" then some (numericDate now)
    else if key = "iss" then some (.string sessionManagerClaimsIssuer)
    else if key = "sub" then if subject = [] then none else some (.string subject)
    else if key = "jti" then if id = [] then none else some (.string id)
    else if key = "exp" then
      if 0 < secondsBeforeExpiry then
        some (numericDate (now + durationOfSeconds secondsBeforeExpiry))
      else none
    else none⟩

def maxSeconds : Int := 9223372036

theorem durationOfSeconds_eq_iff {seconds : Int} (h : 0 ≤ seconds) :
    durationOfSeconds seconds = seconds * 10 ^ 9 ↔ seconds ≤ maxSeconds := by
  have hlt := Int.bmod_lt (x := seconds * 10 ^ 9) (m := 2 ^ 64) (by decide)
  rw [durationOfSeconds, maxSeconds]
  constructor
  · intro heq
    rw [heq] at hlt
    omega
  · intro hle
    apply Int.bmod_eq_of_le
    · omega
    · omega

theorem durationOfSeconds_lt {seconds : Int} (h : maxSeconds < seconds) :
    durationOfSeconds seconds + 10 ^ 9 < seconds * 10 ^ 9 := by
  have hlt := Int.bmod_lt (x := seconds * 10 ^ 9) (m := 2 ^ 64) (by decide)
  have hsum := Int.bmod_add_bdiv (seconds * 10 ^ 9) (2 ^ 64)
  rw [maxSeconds] at h
  rw [durationOfSeconds]
  generalize Int.bdiv (seconds * 10 ^ 9) (2 ^ 64) = wraps at hsum
  generalize Int.bmod (seconds * 10 ^ 9) (2 ^ 64) = duration at hlt hsum ⊢
  push_cast at hlt hsum
  omega

theorem create_eq_createToken (now : Int) (subject id : GoString) {seconds : Int}
    (h : seconds ≤ maxSeconds) : create now subject seconds id = createToken now subject seconds id := by
  rw [create, createToken]
  congr 2
  funext key
  by_cases hpos : 0 < seconds
  · rw [(durationOfSeconds_eq_iff hpos.le).mpr h]
  · simp only [if_neg hpos]

theorem suffix_join_concat (sep : UInt8) (ps : List GoString) (s : GoString) :
    s <:+ join sep (ps ++ [s]) := by
  induction ps with
  | nil => simp [join]
  | cons p ps ih =>
    have hne : ps ++ [s] ≠ [] := by simp
    rw [join, List.cons_append, List.intercalate_cons_of_ne_nil hne]
    exact ih.trans (List.suffix_append _ _)

/-- The token expires that many seconds after its issue, and never for no seconds. -/
structure ExpiresAfter (token : Token) (seconds : Int) : Prop where
  claims : ∃ content issued, token.claims = .mapClaims content ∧
    content "iat" = some (.number (.ofInt issued)) ∧
    content "exp" = if seconds = 0 then none else some (.number (.ofInt (issued + seconds)))

/-- The block list can process a token. -/
structure Blockable (token : Token) : Prop where
  shortens : ∃ short, shortenToken (some token) = .ok short
  answers : ∀ secret, ∃ blocked, isBlocked (some secret) (some token) = .ok blocked
  blocks : ∀ (clock : Int) (o : Versioned BlocklistSecret),
    ((block (some token)).exec clock o).2 = .ok () ∧
      isBlocked (some ((block (some token)).exec clock o).1.value) (some token) = .ok true

/-- The times at which passwords were set can be read. -/
def ReadableMtimes (accounts : AccountsSecret) : Prop :=
  ∀ username account text, accounts.users username = some account →
    account.passwordMtime ≠ .malformed text

/-- The manager answers for a token, and says that it is blocked once the list has it. -/
structure ManagerAnswers (token : Token) : Prop where
  answers : ∀ accounts secret, ReadableMtimes accounts →
    ∃ blocked, managerIsBlocked (some accounts) (some secret) (some token) = .ok blocked
  blocks : ∀ accounts, ReadableMtimes accounts → ∀ (clock : Int) (o : Versioned BlocklistSecret),
    managerIsBlocked (some accounts) (some ((block (some token)).exec clock o).1.value)
      (some token) = .ok true

section Created

variable (now : Int) (subject : GoString) {seconds : Int} {id : GoString}

theorem create_expiresAfter_iff (h : 0 ≤ seconds) :
    ExpiresAfter (create now subject seconds id) seconds ↔ seconds ≤ maxSeconds := by
  have hexp : ExpiresAfter (create now subject seconds id) seconds ↔
      (0 < seconds → (now + durationOfSeconds seconds) / 10 ^ 9 = now / 10 ^ 9 + seconds) := by
    constructor
    · intro hexpires hpos
      obtain ⟨content, issued, hclaims, hiat, hexp⟩ := hexpires.claims
      obtain rfl := Claims.mapClaims.inj hclaims
      simp only [numericDate, true_or, if_true, Option.some.injEq, ClaimValue.number.injEq] at hiat
      simp only [numericDate, String.reduceEq, or_self, if_false, if_true, if_pos hpos,
        if_neg hpos.ne', Option.some.injEq, ClaimValue.number.injEq] at hexp
      have hissued := congrArg Float64.toInt64 hiat
      have hexpiry := congrArg Float64.toInt64 hexp
      rw [Float64.toInt64_ofInt, Float64.toInt64_ofInt] at hissued hexpiry
      rw [hexpiry, hissued]
    · intro hexact
      refine ⟨_, now / 10 ^ 9, rfl, rfl, ?_⟩
      by_cases hpos : 0 < seconds
      · simp only [numericDate, String.reduceEq, or_self, if_false, if_true, if_pos hpos,
          if_neg hpos.ne', hexact hpos]
      · have hzero : seconds = 0 := le_antisymm (not_lt.mp hpos) h
        simp [hzero]
  rw [hexp]
  constructor
  · intro hexact
    by_contra hlarge
    rw [not_le] at hlarge
    have hwrap := durationOfSeconds_lt hlarge
    have hpos : 0 < seconds := lt_trans (by decide) hlarge
    have heq := hexact hpos
    omega
  · intro hle _
    rw [(durationOfSeconds_eq_iff h).mpr hle]
    exact Int.add_mul_ediv_right now seconds (by decide)

theorem create_identity (hid : id ≠ []) (hpos : 0 < seconds) :
    identity (some (create now subject seconds id)) =
      some ⟨id, .ofInt ((now + durationOfSeconds seconds) / 10 ^ 9), hid⟩ := by
  simp [identity, extractContent, create, Payload.getStringClaim, cmpOr, numericDate, hid, hpos]

theorem shortenToken_create (hid : id ≠ []) (hpos : ¬ 0 < seconds) :
    shortenToken (some (create now subject seconds id)) = .error .errExtractExp := by
  simp [shortenToken, extractContent, create, Payload.getStringClaim, cmpOr, hid, hpos, bind,
    Except.bind]

/-- A token with an id and an expiry can be blocked, whatever is in the list. -/
theorem blockable_of_identity {token : Token} {t : Identity} (ht : identity (some token) = some t) :
    Blockable token := by
  have hshort := shortenToken_of_identity ht
  refine ⟨⟨_, hshort⟩, ?_, ?_⟩
  · intro secret
    simp only [isBlocked, hshort, tokenExists]
    cases secret.data with
    | none => exact ⟨false, rfl⟩
    | some list => exact ⟨_, rfl⟩
  · intro clock o
    rw [exec_block ht]
    refine ⟨rfl, ?_⟩
    simp only [isBlocked, hshort, tokenExists, add_data, contains, Except.ok.injEq,
      decide_eq_true_eq]
    exact (suffix_join_concat sep _ t.short).isInfix

theorem create_blockable_iff (hid : id ≠ []) :
    Blockable (create now subject seconds id) ↔ 0 < seconds := by
  constructor
  · intro hblockable
    by_contra hpos
    obtain ⟨short, hshort⟩ := hblockable.shortens
    rw [shortenToken_create now subject hid hpos] at hshort
    cases hshort
  · intro hpos
    exact blockable_of_identity (create_identity now subject hid hpos)

theorem extractUsername_create (hsubject : subject ≠ []) :
    extractUsername (some (create now subject seconds id)) =
      .ok (trimSuffix subject loginSuffix, true) := by
  simp [extractUsername, extractContent, create, hsubject, bind, Except.bind]

theorem isBuiltInUserBlocked_create {accounts : AccountsSecret} (haccounts : ReadableMtimes accounts)
    (username : GoString) : ∃ blocked,
    isBuiltInUserBlocked (some accounts) username (some (create now subject seconds id)) =
      .ok blocked := by
  cases huser : accounts.users username with
  | none => exact ⟨true, isBuiltInUserBlocked_absent username accounts _ huser⟩
  | some account =>
    cases hmtime : account.passwordMtime with
    | empty =>
      exact ⟨false, by simp [isBuiltInUserBlocked, Accounts.get, listAllAccounts, huser, hmtime, bind,
        Except.bind]⟩
    | rfc3339 unix =>
      exact ⟨decide (now / 10 ^ 9 < unix), by
        simp [isBuiltInUserBlocked, Accounts.get, listAllAccounts, huser, hmtime, bind, Except.bind,
          extractCreationTime, extractContent, create, numericDate]⟩
    | malformed text => exact absurd hmtime (haccounts username account text huser)

theorem managerIsBlocked_create (hsubject : subject ≠ []) {accounts : AccountsSecret}
    (blocked : Bool) (hblocked : isBuiltInUserBlocked (some accounts) (trimSuffix subject loginSuffix)
      (some (create now subject seconds id)) = .ok blocked) (secret : Option BlocklistSecret) :
    managerIsBlocked (some accounts) secret (some (create now subject seconds id)) =
      if blocked then .ok true else isBlocked secret (some (create now subject seconds id)) := by
  simp only [managerIsBlocked, extractUsername_create now subject hsubject, bind, Except.bind,
    if_true, hblocked]

theorem managerIsBlocked_cases (hsubject : subject ≠ []) {accounts : AccountsSecret}
    (haccounts : ReadableMtimes accounts) (secret : Option BlocklistSecret) :
    managerIsBlocked (some accounts) secret (some (create now subject seconds id)) = .ok true ∨
      managerIsBlocked (some accounts) secret (some (create now subject seconds id)) =
        isBlocked secret (some (create now subject seconds id)) := by
  obtain ⟨blocked, hblocked⟩ :=
    isBuiltInUserBlocked_create now subject haccounts (trimSuffix subject loginSuffix)
  rw [managerIsBlocked_create now subject hsubject blocked hblocked]
  cases blocked with
  | true => exact .inl rfl
  | false => exact .inr rfl

def openAccount : Account := ⟨true, [], .empty, []⟩

theorem managerAnswers_iff (hid : id ≠ []) :
    ManagerAnswers (create now subject seconds id) ↔ subject ≠ [] ∧ 0 < seconds := by
  constructor
  · intro hanswers
    have hsubject : subject ≠ [] := by
      rintro rfl
      obtain ⟨blocked, hblocked⟩ := hanswers.answers noAccounts emptyBlocklist (by
        intro username account text huser
        cases huser)
      simp [managerIsBlocked, extractUsername, extractContent, create, bind, Except.bind] at hblocked
    refine ⟨hsubject, ?_⟩
    by_contra hpos
    let accounts : AccountsSecret := ⟨fun _ => some openAccount, fun _ => none⟩
    have hreadable : ReadableMtimes accounts := by
      intro username account text huser hmalformed
      obtain rfl := Option.some.inj huser
      cases hmalformed
    obtain ⟨blocked, hblocked⟩ := hanswers.answers accounts emptyBlocklist hreadable
    rw [managerIsBlocked_create now subject hsubject false rfl, isBlocked,
      shortenToken_create now subject hid hpos] at hblocked
    cases hblocked
  · intro h
    obtain ⟨hsubject, hpos⟩ := h
    have hblockable := (create_blockable_iff now subject hid).mpr hpos
    constructor
    · intro accounts secret haccounts
      rcases managerIsBlocked_cases now subject hsubject haccounts (some secret) with heq | heq
      · exact ⟨true, heq⟩
      · rw [heq]
        exact hblockable.answers secret
    · intro accounts haccounts clock o
      rcases managerIsBlocked_cases now subject hsubject haccounts _ with heq | heq
      · exact heq
      · rw [heq]
        exact (hblockable.blocks clock o).2

end Created

/-- A created token meets the laws exactly for a lifetime of a second up to the longest
duration; the manager answers for it exactly where there is a subject as well. -/
theorem createdLaw_iff (now : Int) (subject : GoString) (seconds : Int) (id : GoString)
    (hseconds : 0 ≤ seconds) (hid : id ≠ []) :
    (ExpiresAfter (create now subject seconds id) seconds ∧
        Blockable (create now subject seconds id) ↔ 0 < seconds ∧ seconds ≤ maxSeconds) ∧
      (ExpiresAfter (create now subject seconds id) seconds ∧
          Blockable (create now subject seconds id) ∧
          ManagerAnswers (create now subject seconds id) ↔
        subject ≠ [] ∧ 0 < seconds ∧ seconds ≤ maxSeconds) := by
  rw [create_expiresAfter_iff now subject hseconds, create_blockable_iff now subject hid,
    managerAnswers_iff now subject hid]
  tauto

theorem createdLaw_iff_sample :
    ExpiresAfter (create 0 (ascii "admin:login") 86400 (ascii "id")) 86400 ∧
      Blockable (create 0 (ascii "admin:login") 86400 (ascii "id")) ∧
      ManagerAnswers (create 0 (ascii "admin:login") 86400 (ascii "id")) :=
  (createdLaw_iff 0 (ascii "admin:login") 86400 (ascii "id") (by decide) (by decide)).2.mpr
    ⟨by decide, by decide, by decide⟩

/-- A token that never expires cannot be processed by the block list. -/
theorem unexpiring_not_blockable : ¬ ∀ (now : Int) (subject : GoString) (seconds : Int)
    (id : GoString), 0 ≤ seconds → id ≠ [] →
      ExpiresAfter (create now subject seconds id) seconds ∧
        Blockable (create now subject seconds id) := by
  intro hlaw
  have hblockable := (hlaw 0 (ascii "admin:login") 0 (ascii "id") (by decide) (by decide)).2
  obtain ⟨short, hshort⟩ := hblockable.shortens
  cases hshort

end OpenEverest.Session
