import OpenEverest.Session.Server
import OpenEverest.Framework.Answers

/-!
# What the sessions of the server are for

Who gives the password of an account opens a session. It lasts for a day, and ends before when
it is closed, when the account is deleted or gets a password in a later second, or when the keys
change. A replica judges by what it has seen of the accounts and of the sessions closed.
-/

namespace OpenEverest.Session

open Framework GoString Accounts

structure Login where
  username : GoString
  openedAt : Int
  id : GoString
  key : Nat

namespace Login

def expiresAt (l : Login) : Int := l.openedAt / 10 ^ 9 + jwtDefaultExpiry

def identity (l : Login) : Option Identity :=
  if h : l.id = [] then none else some ⟨l.id, .ofInt l.expiresAt, h⟩

def bearer (l : Login) : Bearer := ⟨sessionToken l.openedAt l.username l.id, some l.key⟩

end Login

structure Sessions (ι : Type*) where
  credentials : Watched ι Credentials
  closed : Watched ι (List Identity)
  clock : Int
  newestKey : Nat
  key : ι → Nat
  opened : List Login

/-- The provider answers for tokens that do not claim to be of the server. -/
def ofProvider (oidc : Option (Token → Bool)) (token : Token) : Bool :=
  match getIssuer token with
  | none => false
  | some issuer => decide (issuer ≠ sessionManagerClaimsIssuer) && verifiedByProvider oidc token

namespace Sessions

variable {ι : Type*} (oidc : Option (Token → Bool))

def start (clock : Int) : Sessions ι where
  credentials := .start fun _ => none
  closed := .start []
  clock := clock
  newestKey := 0
  key := fun _ => 0
  opened := []

def createSession (s : Sessions ι) (i : ι) (username password id : GoString) :
    Sessions ι × Answer :=
  if password = [] then (s, .status 500)
  else if (s.credentials.seen i username).any fun c => decide (c.password.password = password) then
    ({ s with opened := s.opened ++ [⟨username, s.clock, id, s.key i⟩] }, .done)
  else (s, .status 401)

def live (s : Sessions ι) (i : ι) (l : Login) : Bool :=
  l.key == s.key i && decide (s.clock < l.expiresAt * 10 ^ 9) &&
    (s.credentials.seen i l.username).any (fun c => decide (c.setAt / 10 ^ 9 ≤ l.openedAt / 10 ^ 9)) &&
    l.identity.any fun q => decide (q ∉ s.closed.seen i)

/-- Nothing but the closing of its sessions is known of a user of the provider. -/
def requestForeign (s : Sessions ι) (i : ι) (token : Token) : Answer :=
  if ofProvider oidc token && validTimes s.clock token then
    match extractUsername (some token), Session.identity (some token), getUser token with
    | .ok _, some q, some subject => if q ∈ s.closed.seen i then .status 401 else .user subject
    | _, _, _ => .status 500
  else .status 401

/-- A replica closes a session when it has seen all that are closed already. -/
def close (s : Sessions ι) (i : ι) : Option Identity → Sessions ι × Answer
  | none => (s, .status 500)
  | some q =>
    if s.closed.pending i = [] then
      ({ s with closed := s.closed.write (s.closed.current ++ [q]) }, .done)
    else (s, .status 500)

def step [DecidableEq ι] (s : Sessions ι) : ServerEvent ι → Sessions ι × Answer
  | .command c =>
    let (credentials, ok) := Credentials.runCommand s.clock s.credentials c
    ({ s with credentials }, if ok then .done else .failed)
  | .createSession i username password id => s.createSession i username password id
  | .request i (.issued n) =>
    match s.opened[n]? with
    | none => (s, .status 401)
    | some l => (s, if s.live i l then .user l.username else .status 401)
  | .request i (.foreign token) => (s, s.requestForeign oidc i token)
  | .block i (.issued n) =>
    match s.opened[n]? with
    | none => (s, .status 401)
    | some l => s.close i l.identity
  | .block i (.foreign token) =>
    if ofProvider oidc token then s.close i (Session.identity (some token)) else (s, .status 401)
  | .seeAccounts i => ({ s with credentials := s.credentials.notice i }, .done)
  | .seeBlocklist i => ({ s with closed := s.closed.notice i }, .done)
  | .createRSAKeyPair => ({ s with newestKey := s.newestKey + 1 }, .done)
  | .restart i => ({ s with key := Function.update s.key i s.newestKey }, .done)
  | .tick d => ({ s with clock := s.clock + d }, .done)

end Sessions

structure KeptApart (I : Set Identity) : Prop where
  comma : ∀ q ∈ I, sep ∉ q.id
  expires : ∀ q ∈ I, q.exp.value ≠ 0
  separated : ∀ q ∈ I, ∀ b ∈ I, b ≠ q → Separated q b

/-- The text of a uuid has 36 bytes, none of them a comma. -/
def IsUuid (id : GoString) : Prop := id.length = 36 ∧ sep ∉ id

def uuidIdentities : Set Identity := {q | IsUuid q.id ∧ q.Regular}

theorem uuidIdentities_keptApart : KeptApart uuidIdentities where
  comma _ hq := hq.1.2
  expires q hq := by
    obtain ⟨n, hexp, hlo, -⟩ := hq.2.tenDigits
    have hn : n ≠ 0 := by omega
    rw [hexp, Float64.value_ofNat]
    exact_mod_cast hn
  separated _ hq _ hb hne := hq.2.separated hb.2 (hq.1.1.trans hb.1.1.symm) hne

/-- The token of a session that is opened is one of `I`; the clock is past its first second. -/
def Timely {ι : Type*} (I : Set Identity) (s : Sessions ι) : ServerEvent ι → Prop
  | .createSession _ _ _ id =>
    0 < s.clock / 10 ^ 9 ∧ ∃ h : id ≠ [], ⟨id, .ofInt (s.clock / 10 ^ 9 + jwtDefaultExpiry), h⟩ ∈ I
  | _ => True

instance {ι : Type*} (I : Set Identity) [DecidablePred (· ∈ I)] (s : Sessions ι)
    (e : ServerEvent ι) : Decidable (Timely I s e) :=
  match e with
  | .createSession _ _ _ id =>
    inferInstanceAs (Decidable (_ ∧ ∃ h : id ≠ [], (fun q => q ∈ I) ⟨id, _, h⟩))
  | .command _ | .request _ _ | .block _ _ | .seeAccounts _ | .seeBlocklist _ | .createRSAKeyPair
  | .restart _ | .tick _ => .isTrue trivial

/-- The block-list secret after some calls, of tokens of `I`. -/
def Lists (I : Set Identity) (now : Int) (o : Versioned BlocklistSecret) (closed : List Identity) :
    Prop :=
  ∃ clock calls r, run BlockRun.step (.start clock) calls = some r ∧ r.store = o ∧
    r.blocked = closed ∧ r.clock ≤ now ∧ ∀ q ∈ closed, q ∈ I

namespace Lists

variable {I : Set Identity} {now : Int} {o : Versioned BlocklistSecret} {closed : List Identity}
  {token : Token} {q : Identity}

theorem start (I : Set Identity) (now : Int) : Lists I now ⟨0, emptyBlocklist⟩ [] :=
  ⟨now, [], .start now, rfl, rfl, rfl, le_refl _, by simp⟩

theorem later (h : Lists I now o closed) {now' : Int} (hle : now ≤ now') :
    Lists I now' o closed := by
  obtain ⟨clock, calls, r, hrun, hstore, hblocked, hclock, hclosed⟩ := h
  exact ⟨clock, calls, r, hrun, hstore, hblocked, hclock.trans hle, hclosed⟩

theorem block (h : Lists I now o closed) (ht : identity (some token) = some q) (hq : q ∈ I) :
    Lists I now ⟨o.resourceVersion + 1, (addDataToSecret o.value q.short now).stored⟩
      (closed ++ [q]) := by
  obtain ⟨clock, calls, r, hrun, rfl, rfl, hclock, hclosed⟩ := h
  refine ⟨clock, calls ++ [⟨now, some token⟩],
    ⟨⟨r.store.resourceVersion + 1, (addDataToSecret r.store.value q.short now).stored⟩, now,
      r.blocked ++ [q]⟩, ?_, rfl, rfl, le_refl _, ?_⟩
  · refine (run_append_eq_some ..).mpr ⟨r, hrun, (run_cons_eq_some ..).mpr ⟨_, ?_, rfl⟩⟩
    simp only [BlockRun.step, if_pos hclock, exec_block ht, ht, Option.toList_some]
  · intro b hb
    rcases List.mem_append.mp hb with hb | hb
    · exact hclosed b hb
    · obtain rfl := List.mem_singleton.mp hb
      exact hq

/-- A token that is still to expire is found in the secret exactly when it was closed. -/
theorem isBlocked (h : Lists I now o closed) (hI : KeptApart I)
    (ht : identity (some token) = some q) (hq : q ∈ I) (halive : q.Alive now) :
    isBlocked (some o.value) (some token) = .ok (decide (q ∈ closed)) := by
  obtain ⟨clock, calls, r, hrun, rfl, rfl, hclock, hclosed⟩ := h
  have hexact : ExactFor q I := exactFor_of_separated (hI.comma q hq) (hI.separated q hq)
  have hiff := hexact clock calls r now (some token) hrun hclosed hclock ht halive
  obtain ⟨found, hfound⟩ : ∃ found,
      Session.isBlocked (some r.store.value) (some token) = .ok found := by
    simp only [Session.isBlocked, shortenToken_of_identity ht, tokenExists]
    cases r.store.value.data with
    | none => exact ⟨false, rfl⟩
    | some list => exact ⟨_, rfl⟩
  rw [hfound] at hiff ⊢
  cases found with
  | true => simpa using hiff
  | false => simpa using hiff

end Lists

end OpenEverest.Session
