import OpenEverest.Session.ServerSessions
import OpenEverest.Session.Manager

/-!
# The server keeps its sessions

The replicas answer every login, request and logout as the sessions say, in every order of these
with account commands, changes of the keys and updates of the caches.
-/

namespace OpenEverest.Session

open Framework GoString Accounts

section SessionToken

/-- The claims of a session from the second `issued` to the second `expires`. -/
def sessionClaims (issued expires : Int) (username id : GoString) : Payload := fun key =>
  if key = "iat" ∨ key = "nbf" then some (.number (.ofInt issued))
  else if key = "iss" then some (.string sessionManagerClaimsIssuer)
  else if key = "sub" then some (.string (username ++ loginSuffix))
  else if key = "jti" then if id = [] then none else some (.string id)
  else if key = "exp" then some (.number (.ofInt expires))
  else none

variable (openedAt : Int) (username : GoString) (id : GoString)

theorem sessionToken_eq_loginToken :
    sessionToken openedAt username id = loginToken openedAt username jwtDefaultExpiry id := by
  have hsubject : username ++ ascii ":" ++ accountCapabilityLogin = username ++ loginSuffix := by
    rw [List.append_assoc]
    rfl
  rw [sessionToken, hsubject, loginToken]
  exact create_eq_createToken openedAt _ id (by decide)

theorem sessionToken_eq : sessionToken openedAt username id =
    ⟨.mapClaims (sessionClaims (openedAt / 10 ^ 9) (openedAt / 10 ^ 9 + jwtDefaultExpiry)
      username id)⟩ := by
  have hexp : (openedAt + jwtDefaultExpiry * 10 ^ 9) / 10 ^ 9 =
      openedAt / 10 ^ 9 + jwtDefaultExpiry := Int.add_mul_ediv_right _ _ (by decide)
  have hpos : 0 < jwtDefaultExpiry := by decide
  have hsub : username ++ loginSuffix ≠ [] := by simp [loginSuffix, ascii]
  rw [sessionToken_eq_loginToken, loginToken, createToken]
  simp only [numericDate, hexp, if_pos hpos, if_neg hsub]
  rfl

theorem getIssuer_sessionToken :
    getIssuer (sessionToken openedAt username id) = some sessionManagerClaimsIssuer := by
  simp [sessionToken_eq, getIssuer, parseString, sessionClaims]

theorem getUser_sessionToken (h : 58 ∉ username) :
    getUser (sessionToken openedAt username id) = some username := by
  have hjoin : username ++ loginSuffix = join 58 [username, accountCapabilityLogin] := by
    simp [join, loginSuffix, accountCapabilityLogin, ascii]
  have hsplit : split 58 (username ++ loginSuffix) = [username, accountCapabilityLogin] := by
    rw [hjoin]
    refine split_join 58 _ (by simp) fun p hp => ?_
    rcases List.mem_cons.mp hp with rfl | hp
    · exact h
    · obtain rfl := List.mem_singleton.mp hp
      decide
  simp [sessionToken_eq, getUser, parseString, sessionClaims, hsplit]

variable {id} in
theorem identity_sessionToken (hid : id ≠ []) :
    identity (some (sessionToken openedAt username id)) =
      some ⟨id, .ofInt (openedAt / 10 ^ 9 + jwtDefaultExpiry), hid⟩ := by
  simp only [sessionToken_eq, identity, extractContent, Payload.getStringClaim, cmpOr,
    sessionClaims, String.reduceEq, or_self, if_false, if_true, if_neg hid, dif_neg hid]

variable {openedAt} in
theorem validTimes_sessionToken {now : Int} (hsecond : 0 < openedAt / 10 ^ 9)
    (hle : openedAt ≤ now) : validTimes now (sessionToken openedAt username id) =
      decide (now < (openedAt / 10 ^ 9 + jwtDefaultExpiry) * 10 ^ 9) := by
  have hnbf : openedAt / 10 ^ 9 * 10 ^ 9 ≤ now := by omega
  have hpos : 0 < jwtDefaultExpiry := by decide
  rw [sessionToken_eq]
  generalize openedAt / 10 ^ 9 = issued at hsecond hnbf ⊢
  have hissued : (issued : ℚ) ≠ 0 := by exact_mod_cast hsecond.ne'
  have hexpires : ((issued + jwtDefaultExpiry : Int) : ℚ) ≠ 0 := by
    have hne : issued + jwtDefaultExpiry ≠ 0 := by omega
    exact_mod_cast hne
  simp only [validTimes, parseNumericDate, sessionClaims, String.reduceEq, or_self, or_true,
    if_false, if_true, Float64.value_ofInt, if_neg hissued, if_neg hexpires, Rat.floor_intCast,
    Option.all_some, decide_eq_true hnbf, Bool.and_true]

end SessionToken

section Authenticate

variable {hash : GoString → GoString} {s : AccountsSecret} {m : Credentials}

theorem authenticate_refused (h : HoldsCredentials hash s m) (hinj : Function.Injective hash)
    {u p : GoString} (hp : p ≠ [])
    (hwrong : (m u).any (fun c => decide (c.password.password = p)) = false) :
    ∃ e, authenticate hash (some s) u p = .error e ∧ sessionErrToHTTPRes e = 401 := by
  have hverify := h.represents.verify_iff hinj u p
  have hnot : verify hash (some s) u p ≠ .ok () := by
    intro hok
    obtain ⟨secure, hm⟩ := hverify.mp hok
    obtain ⟨c, hc, hpassword⟩ := Option.map_eq_some_iff.mp hm
    simp [hc, hpassword] at hwrong
  rw [authenticate, if_neg hp]
  cases hu : s.users u with
  | none =>
    have hfound : verify hash (some s) u p = .error .errAccountNotFound := by
      simp [verify, listAllAccounts, bind, Except.bind, hu]
    exact ⟨_, by rw [hfound], rfl⟩
  | some a =>
    have hfound : verify hash (some s) u p = .error .errIncorrectPassword := by
      simp only [verify, listAllAccounts, bind, Except.bind, hu, ne_eq, ite_eq_left_iff,
        not_forall] at hnot ⊢
      obtain ⟨hpass, -⟩ := hnot
      exact if_neg hpass
    exact ⟨_, by rw [hfound], rfl⟩

theorem authenticate_ok (h : HoldsCredentials hash s m) (hinj : Function.Injective hash)
    {u p : GoString} (hp : p ≠ [])
    (hright : (m u).any (fun c => decide (c.password.password = p)) = true) :
    authenticate hash (some s) u p = .ok () := by
  obtain ⟨c, hc, hpassword⟩ : ∃ c, m u = some c ∧ c.password.password = p := by
    simpa [Option.any_eq_true] using hright
  have hverify : verify hash (some s) u p = .ok () := by
    refine (h.represents.verify_iff hinj u p).mpr ⟨c.password.secure, ?_⟩
    simp [Credentials.passwords, hc, ← hpassword]
  cases hu : s.users u with
  | none => simp [(h.users_eq_none u).mp hu] at hc
  | some a =>
    obtain ⟨-, -, -, henabled, hlogin⟩ := h.account u a hu
    simp [authenticate, hp, hverify, Accounts.get, listAllAccounts, bind, Except.bind, hu, henabled,
      hlogin]

end Authenticate

section Provider

variable {oidc : Option (Token → Bool)} {token : Token}

theorem validSignature_foreign (serverKey : Nat) :
    validSignature oidc serverKey ⟨token, none⟩ = ofProvider oidc token := by
  rw [validSignature, ofProvider]
  cases getIssuer token with
  | none => rfl
  | some issuer =>
    by_cases hissuer : issuer = sessionManagerClaimsIssuer
    · simp [hissuer]
    · simp [hissuer]

theorem extractUsername_eq_ok {name : GoString} {builtIn : Bool}
    (h : extractUsername (some token) = .ok (name, builtIn)) :
    ∃ content sub iss, token.claims = .mapClaims content ∧ content "sub" = some (.string sub) ∧
      content "iss" = some (.string iss) ∧ builtIn = decide (iss = sessionManagerClaimsIssuer) := by
  obtain ⟨claims⟩ := token
  cases claims with
  | unsupported type => simp [extractUsername, extractContent, bind, Except.bind] at h
  | mapClaims content =>
    simp only [extractUsername, extractContent, bind, Except.bind] at h
    split at h
    · rename_i sub hsub
      split at h
      · rename_i iss hiss
        simp only [Except.ok.injEq, Prod.mk.injEq] at h
        exact ⟨content, sub, iss, rfl, hsub, hiss, h.2.symm⟩
      · cases h
    · cases h

theorem not_builtIn (hprovider : ofProvider oidc token = true) {name : GoString} {builtIn : Bool}
    (h : extractUsername (some token) = .ok (name, builtIn)) :
    builtIn = false ∧ ∃ subject, getUser token = some subject := by
  obtain ⟨content, sub, iss, hclaims, hsub, hiss, rfl⟩ := extractUsername_eq_ok h
  have hne : iss ≠ sessionManagerClaimsIssuer := by
    rintro rfl
    simp [ofProvider, getIssuer, hclaims, parseString, hiss] at hprovider
  exact ⟨by simpa using hne, sub, by simp [getUser, hclaims, parseString, hsub, hiss, hne]⟩

theorem alive_of_validTimes {now : Int} {q : Identity} (ht : identity (some token) = some q)
    (hne : q.exp.value ≠ 0) (hvalid : validTimes now token = true) : q.Alive now := by
  obtain ⟨claims⟩ := token
  cases claims with
  | unsupported type => simp [validTimes] at hvalid
  | mapClaims content =>
    obtain ⟨x, hx, hxq⟩ : ∃ x, content "exp" = some (.number x) ∧ x = q.exp := by
      simp only [identity, extractContent] at ht
      split at ht
      · cases ht
      · split at ht
        · rename_i x hx
          obtain rfl := Option.some.inj ht
          exact ⟨x, hx, rfl⟩
        · cases ht
    have hdate : parseNumericDate content "exp" = some (some q.exp.value.floor) := by
      simp only [parseNumericDate, hx, hxq, if_neg hne]
    have hlt : now < q.exp.value.floor * 10 ^ 9 := by
      simp only [validTimes, hdate] at hvalid
      split at hvalid
      · rename_i exp nbf hsome _
        obtain rfl := Option.some.inj hsome
        have hboth := Bool.and_eq_true_iff.mp hvalid
        simpa using hboth.1
      · cases hvalid
    have hfloor : (q.exp.value.floor : ℚ) ≤ q.exp.value := Rat.floor_le _
    have hcast : (now : ℚ) < q.exp.value.floor * 10 ^ 9 := by exact_mod_cast hlt
    exact hcast.trans_le (by gcongr)

end Provider

/-- What is known of a session that was opened before `now`. -/
structure Login.Valid (I : Set Identity) (l : Login) (now : Int) (newestKey : Nat) : Prop where
  named : 58 ∉ l.username
  id_ne : l.id ≠ []
  identity_mem : ⟨l.id, .ofInt l.expiresAt, id_ne⟩ ∈ I
  second : 0 < l.openedAt / 10 ^ 9
  openedAt_le : l.openedAt ≤ now
  key_le : l.key ≤ newestKey

/-- The tokens of the provider are of `I`, as far as they can be blocked. -/
def ProviderWithin (I : Set Identity) (oidc : Option (Token → Bool)) : Prop :=
  ∀ token q, ofProvider oidc token = true → identity (some token) = some q → q ∈ I

structure Server.Simulates {ι : Type*} (hash : GoString → GoString) (I : Set Identity)
    (s : Server ι) (t : Sessions ι) : Prop where
  accounts : CopiesHold hash s.accounts t.credentials
  ordered : Watched.Ordered Versioned.resourceVersion s.blocklist
  blocklist : Watched.Rel (Lists I t.clock) s.blocklist t.closed
  clock : s.clock = t.clock
  newestKey : s.newestKey = t.newestKey
  key : s.key = t.key
  issued : s.issued = t.opened.map Login.bearer
  opened : ∀ l ∈ t.opened, l.Valid I t.clock t.newestKey
  key_le : ∀ i, t.key i ≤ t.newestKey

namespace Login.Valid

variable {I : Set Identity} {l : Login} {now : Int} {newestKey : Nat}

theorem identity_bearer (h : l.Valid I now newestKey) :
    Session.identity (some l.bearer.token) = l.identity := by
  rw [Login.identity, dif_neg h.id_ne]
  exact identity_sessionToken l.openedAt l.username h.id_ne

theorem exists_identity (h : l.Valid I now newestKey) :
    ∃ q, l.identity = some q ∧ q ∈ I ∧ q.exp.value = l.expiresAt :=
  ⟨⟨l.id, .ofInt l.expiresAt, h.id_ne⟩, dif_neg h.id_ne, h.identity_mem, Float64.value_ofInt _⟩

theorem later (h : l.Valid I now newestKey) {now' : Int} {newestKey' : Nat} (hnow : now ≤ now')
    (hkey : newestKey ≤ newestKey') : l.Valid I now' newestKey' :=
  { h with openedAt_le := h.openedAt_le.trans hnow, key_le := h.key_le.trans hkey }

end Login.Valid

namespace Server.Simulates

variable {ι : Type*} {hash : GoString → GoString} {I : Set Identity} {oidc : Option (Token → Bool)}
  {s : Server ι} {t : Sessions ι} {l : Login}

theorem start (hash : GoString → GoString) (I : Set Identity) (clock : Int) :
    Simulates hash I (Server.start clock : Server ι) (Sessions.start clock) where
  accounts := .start (.empty hash)
  ordered := .start _
  blocklist := .start (.start I clock)
  clock := rfl
  newestKey := rfl
  key := rfl
  issued := rfl
  opened _ h := by cases h
  key_le _ := le_refl _

theorem isBuiltInUserBlocked_login {accounts : AccountsSecret} {m : Credentials}
    (hholds : HoldsCredentials hash accounts m) (l : Login) :
    isBuiltInUserBlocked (some accounts) l.username (some l.bearer.token) =
      .ok (!(m l.username).any fun c => decide (c.setAt / 10 ^ 9 ≤ l.openedAt / 10 ^ 9)) := by
  cases hu : accounts.users l.username with
  | none =>
    have hnone := (hholds.users_eq_none l.username).mp hu
    rw [isBuiltInUserBlocked_absent l.username _ _ hu, hnone]
    rfl
  | some a =>
    obtain ⟨c, hc, hmtime, -⟩ := hholds.account l.username a hu
    rw [Login.bearer, sessionToken_eq_loginToken, hc,
      isBuiltInUserBlocked_loginToken _ _ _ _ _ a hu _ hmtime, Option.any_some, ← decide_not]
    simp only [not_le]

theorem request_login (h : Simulates hash I s t) (hI : KeptApart I) (hl : l ∈ t.opened) (i : ι) :
    s.request oidc i l.bearer = if t.live i l then .user l.username else .status 401 := by
  have hvalid := h.opened l hl
  obtain ⟨q, hq, hmem, hexp⟩ := hvalid.exists_identity
  have ht : Session.identity (some l.bearer.token) = some q := hvalid.identity_bearer.trans hq
  have hissuer : getIssuer l.bearer.token = some sessionManagerClaimsIssuer :=
    getIssuer_sessionToken ..
  have hsignature : validSignature oidc (s.key i) l.bearer = (l.key == t.key i) := by
    rw [validSignature, hissuer, h.key]
    simp [Login.bearer]
  have htimes : validTimes s.clock l.bearer.token = decide (t.clock < l.expiresAt * 10 ^ 9) := by
    rw [h.clock]
    exact validTimes_sessionToken l.username l.id hvalid.second hvalid.openedAt_le
  have huser : extractUsername (some l.bearer.token) = .ok (l.username, true) := by
    rw [Login.bearer, sessionToken_eq_loginToken]
    exact extractUsername_loginToken ..
  have hsubject : getUser l.bearer.token = some l.username :=
    getUser_sessionToken l.openedAt l.username l.id hvalid.named
  rw [Server.request, hsignature, htimes]
  by_cases hkey : l.key == t.key i
  case neg => simp [Sessions.live, hkey]
  by_cases htime : t.clock < l.expiresAt * 10 ^ 9
  case neg => simp only [Sessions.live, decide_eq_false htime, Bool.and_false, Bool.false_and,
    Bool.false_eq_true, if_false]
  have halive : q.Alive t.clock := by
    rw [Identity.Alive, hexp]
    exact_mod_cast htime
  have hlisted := (h.blocklist.seen i).isBlocked hI ht hmem halive
  simp only [hkey, decide_eq_true htime, Bool.and_self, if_true, managerIsBlocked, huser, bind,
    Except.bind, isBuiltInUserBlocked_login (h.accounts.seen i) l, hlisted, hsubject, Sessions.live,
    hq, Option.any_some, Bool.true_and]
  cases (t.credentials.seen i l.username).any fun c =>
      decide (c.setAt / 10 ^ 9 ≤ l.openedAt / 10 ^ 9) with
  | false => simp
  | true =>
    by_cases hclosed : q ∈ t.closed.seen i
    · simp [hclosed]
    · simp [hclosed]

theorem request_foreign (h : Simulates hash I s t) (hI : KeptApart I)
    (hwithin : ProviderWithin I oidc) (i : ι) (token : Token) : s.request oidc i ⟨token, none⟩ = t.requestForeign oidc i token := by
  rw [Server.request, Sessions.requestForeign, validSignature_foreign, h.clock]
  by_cases hcond : (ofProvider oidc token && validTimes t.clock token) = true
  case neg => simp [hcond]
  obtain ⟨hprovider, htimes⟩ := Bool.and_eq_true_iff.mp hcond
  simp only [hcond, if_true, managerIsBlocked]
  cases huser : extractUsername (some token) with
  | error e => simp [bind, Except.bind]
  | ok name =>
    obtain ⟨name, builtIn⟩ := name
    obtain ⟨rfl, subject, hsubject⟩ := not_builtIn hprovider huser
    simp only [bind, Except.bind, Bool.false_eq_true, if_false, hsubject]
    cases ht : Session.identity (some token) with
    | none =>
      have hshort : ∃ e, shortenToken (some token) = .error e := by
        cases hs : shortenToken (some token) with
        | error e => exact ⟨e, rfl⟩
        | ok short =>
          obtain ⟨q, hq, -⟩ := (shortenToken_eq_ok (some token) short).mp hs
          simp [ht] at hq
      obtain ⟨e, he⟩ := hshort
      simp [isBlocked, he]
    | some q =>
      have hmem := hwithin token q hprovider ht
      have hlisted := (h.blocklist.seen i).isBlocked hI ht hmem
        (alive_of_validTimes ht (hI.expires q hmem) htimes)
      by_cases hclosed : q ∈ t.closed.seen i
      · simp [hlisted, hclosed]
      · simp [hlisted, hclosed]

theorem block (h : Simulates hash I s t) (i : ι) {b : Bearer} {q : Identity}
    (ht : Session.identity (some b.token) = some q) (hmem : q ∈ I) :
    (s.block i b).2 = (t.close i (some q)).2 ∧
      Simulates hash I (s.block i b).1 (t.close i (some q)).1 := by
  have hversion := h.ordered.version_eq_iff i
  have hpending := h.blocklist.pending_eq_nil_iff i
  simp only [Server.block, shortenToken_of_identity ht, Sessions.close]
  by_cases hseen : t.closed.pending i = []
  · have hcurrent := h.ordered.seen_eq (hpending.mpr hseen)
    simp only [hcurrent, Versioned.update_current, if_pos hseen]
    have hblock := h.blocklist.current.block ht hmem
    rw [← h.clock] at hblock
    exact ⟨trivial, { h with
      ordered := h.ordered.write (Nat.lt_succ_self _)
      blocklist := h.blocklist.write (h.clock ▸ hblock) }⟩
  · have hold := (Versioned.update_eq_none s.blocklist.current
      (s.blocklist.seen i).resourceVersion
      (addDataToSecret (s.blocklist.seen i).value q.short s.clock).stored).mpr fun heq =>
        hseen (hpending.mp (hversion.mp heq))
    simp only [hold, if_neg hseen]
    exact ⟨trivial, h⟩

theorem createSession (h : Simulates hash I s t) (hinj : Function.Injective hash) (i : ι)
    {username password id : GoString}
    (htimely : Timely I t (.createSession i username password id)) :
    (s.createSession hash i username password id).2 =
        (t.createSession i username password id).2 ∧
      Simulates hash I (s.createSession hash i username password id).1
        (t.createSession i username password id).1 := by
  have hholds := h.accounts.seen i
  rw [Server.createSession, Sessions.createSession]
  by_cases hp : password = []
  · simp only [authenticate, if_pos hp]
    exact ⟨rfl, h⟩
  · rw [if_neg hp]
    cases hright : (t.credentials.seen i username).any fun c =>
        decide (c.password.password = password) with
    | false =>
      obtain ⟨e, he, hstatus⟩ := authenticate_refused hholds hinj hp hright
      simp only [he, hstatus, Bool.false_eq_true, if_false]
      exact ⟨trivial, h⟩
    | true =>
      rw [authenticate_ok hholds hinj hp hright]
      refine ⟨rfl, { h with issued := ?_, opened := ?_ }⟩
      · simp [h.issued, Login.bearer, h.clock, h.key]
      · intro l hl
        rcases List.mem_append.mp hl with hold | hnew
        · exact h.opened l hold
        · obtain rfl := List.mem_singleton.mp hnew
          obtain ⟨hsecond, hid, hmem⟩ := htimely
          obtain ⟨c, hc, -⟩ := (Option.any_eq_true _ _).mp hright
          exact ⟨hholds.named username c hc, hid, hmem, hsecond, le_refl _, h.key_le i⟩

theorem everValid_login (h : Simulates hash I s t) (hl : l ∈ t.opened) :
    s.everValid oidc l.bearer = true := by
  have hissuer : getIssuer l.bearer.token = some sessionManagerClaimsIssuer :=
    getIssuer_sessionToken ..
  refine List.any_eq_true.mpr ⟨l.key, ?_, ?_⟩
  · have hkey := (h.opened l hl).key_le
    rw [← h.newestKey] at hkey
    exact List.mem_range.mpr (Nat.lt_succ_of_le hkey)
  · rw [validSignature, hissuer]
    simp [Login.bearer]

omit t in
theorem everValid_foreign (s : Server ι) (token : Token) :
    s.everValid oidc ⟨token, none⟩ = ofProvider oidc token := by
  simp only [Server.everValid, validSignature_foreign]
  cases ofProvider oidc token with
  | false => simp
  | true => exact List.any_eq_true.mpr ⟨0, by simp, rfl⟩

theorem step [DecidableEq ι] (h : Simulates hash I s t) (hinj : Function.Injective hash)
    (hI : KeptApart I) (hwithin : ProviderWithin I oidc) {e : ServerEvent ι}
    (htimely : Timely I t e) :
    (s.step hash oidc e).2 = (t.step oidc e).2 ∧
      Simulates hash I (s.step hash oidc e).1 (t.step oidc e).1 := by
  cases e with
  | command c =>
    obtain ⟨hok, haccounts⟩ := h.accounts.runCommand t.clock c
    simp only [Server.step, Sessions.step, h.clock, hok]
    exact ⟨trivial, { h with accounts := haccounts, clock := rfl }⟩
  | createSession i username password id => exact h.createSession hinj i htimely
  | request i p =>
    cases p with
    | issued n =>
      cases hn : t.opened[n]? with
      | none =>
        simp only [Server.step, Sessions.step, Server.bearer, h.issued, List.getElem?_map, hn,
          Option.map_none]
        exact ⟨trivial, h⟩
      | some l =>
        simp only [Server.step, Sessions.step, Server.bearer, h.issued, List.getElem?_map, hn,
          Option.map_some]
        exact ⟨h.request_login hI (List.mem_of_getElem? hn) i, h⟩
    | foreign token => exact ⟨h.request_foreign hI hwithin i token, h⟩
  | block i p =>
    cases p with
    | issued n =>
      cases hn : t.opened[n]? with
      | none =>
        simp only [Server.step, Sessions.step, Server.bearer, h.issued, List.getElem?_map, hn,
          Option.map_none]
        exact ⟨trivial, h⟩
      | some l =>
        have hl := List.mem_of_getElem? hn
        have hvalid := h.opened l hl
        obtain ⟨q, hq, hmem, -⟩ := hvalid.exists_identity
        simp only [Server.step, Sessions.step, Server.bearer, h.issued, List.getElem?_map, hn,
          Option.map_some, h.everValid_login hl, if_true, hq]
        exact h.block i (hvalid.identity_bearer.trans hq) hmem
    | foreign token =>
      simp only [Server.step, Sessions.step, Server.bearer, everValid_foreign]
      cases hprovider : ofProvider oidc token with
      | false => exact ⟨rfl, h⟩
      | true =>
        simp only [if_true]
        cases ht : Session.identity (some token) with
        | none =>
          cases hs : shortenToken (some token) with
          | error e =>
            simp only [Server.block, hs, Sessions.close]
            exact ⟨trivial, h⟩
          | ok short =>
            obtain ⟨q, hq, -⟩ := (shortenToken_eq_ok (some token) short).mp hs
            simp [ht] at hq
        | some q => exact h.block i ht (hwithin token q hprovider ht)
  | seeAccounts i => exact ⟨rfl, { h with accounts := h.accounts.notice i }⟩
  | seeBlocklist i =>
    exact ⟨rfl, { h with ordered := h.ordered.notice i, blocklist := h.blocklist.notice i }⟩
  | createRSAKeyPair =>
    refine ⟨rfl, { h with newestKey := congrArg (· + 1) h.newestKey, opened := ?_, key_le := ?_ }⟩
    · exact fun l hl => (h.opened l hl).later (le_refl _) (Nat.le_succ _)
    · exact fun i => (h.key_le i).trans (Nat.le_succ _)
  | restart i =>
    refine ⟨rfl, { h with key := ?_, key_le := fun j => ?_ }⟩
    · simp only [Server.step, Sessions.step, h.key, h.newestKey]
    · by_cases hj : j = i
      · simp [Sessions.step, hj]
      · simpa [Sessions.step, hj] using h.key_le j
  | tick d =>
    have hle : t.clock ≤ t.clock + d := by omega
    refine ⟨rfl, { h with
      blocklist := h.blocklist.imp fun _ _ hlists => hlists.later hle
      clock := congrArg (· + (d : Int)) h.clock
      opened := fun l hl => (h.opened l hl).later hle (le_refl _) }⟩

end Server.Simulates

/-- The replicas answer as the sessions say: a token is let through for its user until the
session is closed, its day is over, the account is deleted or given a password in a later second,
or the keys change, as far as the replica has seen; and only who gives the password of an account
is given a token. The tokens of the run are ones that the block list keeps apart. -/
theorem server_answers_eq {ι : Type*} [DecidableEq ι] {hash : GoString → GoString}
    (hinj : Function.Injective hash) {I : Set Identity} (hI : KeptApart I)
    {oidc : Option (Token → Bool)} (hwithin : ProviderWithin I oidc) (clock : Int)
    (events : List (ServerEvent ι))
    (htimely : AlongRun (next (Sessions.step oidc)) (Timely I) (Sessions.start clock) events) :
    answers (Server.step hash oidc) (Server.start clock) events =
      answers (Sessions.step oidc) (Sessions.start clock) events := by
  apply answers_eq_of_simulation (Server.Simulates hash I) _ (.start hash I clock) htimely
  intro s t e h htimely
  exact h.step hinj hI hwithin htimely

def sampleForeign : Token where
  claims := .mapClaims fun key =>
    if key = "iss" then some (.string (ascii "https://sso"))
    else if key = "sub" then some (.string (ascii "carol"))
    else if key = "jti" then some (.string (ascii "Vh1sLWBTj0Q"))
    else if key = "exp" then some (.number (.ofNat 1760003600))
    else none

/-- The tokens of `sampleSession`. -/
def sampleIdentities : Set Identity := {q | q ∈ ([
  ⟨ascii "9d1c1f98-a479-41e3-8939-c7cb3edefa01", .ofNat 1760086400, by decide⟩,
  ⟨ascii "1b2c1f98-a479-41e3-8939-c7cb3edefa02", .ofNat 1760086400, by decide⟩,
  ⟨ascii "Vh1sLWBTj0Q", .ofNat 1760003600, by decide⟩] : List Identity)}

instance : DecidablePred (· ∈ sampleIdentities) := fun q =>
  inferInstanceAs (Decidable (q ∈ (_ : List Identity)))

/-- A provider whose tokens have the id of `sampleForeign`. -/
def sampleProvider (token : Token) : Bool :=
  decide (identity (some token) = identity (some sampleForeign))

/-- A session of one replica, closed at it, one of the provider, closed at the other, and the
password changed on the next day. -/
def sampleSession : List (ServerEvent Bool) :=
  let uuid := ascii "9d1c1f98-a479-41e3-8939-c7cb3edefa01"
  let uuid' := ascii "1b2c1f98-a479-41e3-8939-c7cb3edefa02"
  [.command (.create (ascii "bob") (ascii "secret1")), .seeAccounts true, .seeAccounts false,
    .createSession true (ascii "bob") (ascii "secret2") uuid,
    .createSession true (ascii "bob") (ascii "secret1") uuid, .request false (.issued 0),
    .block true (.issued 0), .request true (.issued 0), .seeBlocklist true,
    .request true (.issued 0), .request false (.issued 0), .seeBlocklist false,
    .request false (.issued 0), .request true (.foreign sampleForeign),
    .block false (.foreign sampleForeign), .seeBlocklist true,
    .request true (.foreign sampleForeign),
    .createSession false (ascii "bob") (ascii "secret1") uuid',
    .tick 1000000000, .command (.setPassword (ascii "bob") (ascii "secret2")),
    .request true (.issued 1), .seeAccounts true, .request true (.issued 1)]

theorem server_answers_eq_sample :
    answers (Server.step sampleHash (some sampleProvider)) (Server.start 1760000000000000000)
        sampleSession =
      [.done, .done, .done, .status 401, .done, .user (ascii "bob"), .done, .user (ascii "bob"),
        .done, .status 401, .user (ascii "bob"), .done, .status 401, .user (ascii "carol"), .done,
        .done, .status 401, .done, .done, .done, .user (ascii "bob"), .done, .status 401] := by
  have hI : KeptApart sampleIdentities := by
    have hregular : ∀ q ∈ sampleIdentities, q.Regular := by
      rintro q hq
      simp only [sampleIdentities, Set.mem_ofPred_eq, List.mem_cons, List.not_mem_nil,
        or_false] at hq
      rcases hq with rfl | rfl | rfl
      all_goals exact ⟨by decide, _, rfl, by norm_num, by norm_num⟩
    have hapart : ∀ q ∈ sampleIdentities, ∀ b ∈ sampleIdentities, b ≠ q →
        ¬ q.short <:+: b.short := by
      simp only [sampleIdentities, Set.mem_ofPred_eq]
      decide +kernel
    refine ⟨fun q hq => (hregular q hq).comma, fun q hq => ?_, fun q hq b hb hne => ?_⟩
    · obtain ⟨n, hexp, hlo, -⟩ := (hregular q hq).tenDigits
      have hn : n ≠ 0 := by omega
      rw [hexp, Float64.value_ofNat]
      exact_mod_cast hn
    · obtain ⟨n, hexp, hentry⟩ := (hregular q hq).entryExpiry_short
      exact ⟨hapart q hq b hb hne, n, hentry, by rw [hexp, Float64.value_ofNat]; rfl⟩
  have hwithin : ProviderWithin sampleIdentities (some sampleProvider) := by
    intro token q hprovider hq
    have hverified : sampleProvider token = true := by
      rw [ofProvider] at hprovider
      split at hprovider
      · cases hprovider
      · exact (Bool.and_eq_true_iff.mp hprovider).2
    have hsame : identity (some sampleForeign) = some q :=
      (of_decide_eq_true hverified).symm.trans hq
    have hforeign : identity (some sampleForeign) =
        some ⟨ascii "Vh1sLWBTj0Q", .ofNat 1760003600, by decide⟩ := rfl
    rw [← Option.some.inj (hforeign.symm.trans hsame)]
    simp [sampleIdentities]
  have hinj : Function.Injective sampleHash := List.append_right_injective _
  have htimely : AlongRun (next (Sessions.step (some sampleProvider))) (Timely sampleIdentities)
      (Sessions.start 1760000000000000000) sampleSession := by decide +kernel
  rw [server_answers_eq hinj hI hwithin 1760000000000000000 sampleSession htimely]
  decide +kernel

end OpenEverest.Session
