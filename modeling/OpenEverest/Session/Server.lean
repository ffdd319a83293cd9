import OpenEverest.Accounts.Commands
import OpenEverest.Session.BlocklistRuns
import OpenEverest.Session.CreatedTokens

/-!
# Sessions of the server

A login gives out a token, and every later request is let through for the user of its token if
the signature, the times, the account and the block list allow it. The replicas of the server
read the secrets from caches of their own, and each has the signing key it was started with.
-/

namespace OpenEverest.Session

open Framework GoString Accounts

inductive AuthenticateError where
  | blankPassword
  | account (e : AccountError)
  | errAccountDisabled
  | errInsufficientCapabilities
  deriving DecidableEq

def authenticate (hash : GoString → GoString) (accounts : Option AccountsSecret)
    (username password : GoString) : Except AuthenticateError Unit :=
  if password = [] then .error .blankPassword
  else match verify hash accounts username password with
    | .error e => .error (.account e)
    | .ok () =>
      match Accounts.get accounts username with
      | .error e => .error (.account e)
      | .ok account =>
        if account.enabled = false then .error .errAccountDisabled
        else if accountCapabilityLogin ∉ account.capabilities then
          .error .errInsufficientCapabilities
        else .ok ()

def sessionErrToHTTPRes : AuthenticateError → Nat
  | .account .errAccountNotFound | .account .errIncorrectPassword => 401
  | .errAccountDisabled | .errInsufficientCapabilities => 403
  | _ => 500

def jwtDefaultExpiry : Int := 86400

def sessionToken (now : Int) (username id : GoString) : Token :=
  create now (username ++ ascii ":" ++ accountCapabilityLogin) jwtDefaultExpiry id

/-- A token with the key of the server that it was signed with, if any. -/
structure Bearer where
  token : Token
  key : Option Nat

/-- A string claim as the package `jwt` reads it: a claim that is missing is empty. -/
def parseString (content : Payload) (key : String) : Option GoString :=
  match content key with
  | none => some []
  | some (.string s) => some s
  | some _ => none

/-- A time claim as the package `jwt` reads it, in whole seconds; zero is no time. -/
def parseNumericDate (content : Payload) (key : String) : Option (Option Int) :=
  match content key with
  | none => some none
  | some (.number x) => if x.value = 0 then some none else some (some x.value.floor)
  | some _ => none

def getIssuer (token : Token) : Option GoString :=
  match token.claims with
  | .unsupported _ => none
  | .mapClaims content => parseString content "iss"

/-- `oidc` is the check with the keys of the provider, where one is configured. -/
def verifiedByProvider (oidc : Option (Token → Bool)) (token : Token) : Bool :=
  match oidc with
  | none => false
  | some verifies => verifies token

/-- The key is chosen by the issuer. -/
def validSignature (oidc : Option (Token → Bool)) (serverKey : Nat) (b : Bearer) : Bool :=
  match getIssuer b.token with
  | none => false
  | some issuer =>
    if issuer = sessionManagerClaimsIssuer then b.key == some serverKey
    else verifiedByProvider oidc b.token

/-- The validation of the package `jwt`. -/
def validTimes (now : Int) (token : Token) : Bool :=
  match token.claims with
  | .unsupported _ => false
  | .mapClaims content =>
    match parseNumericDate content "exp", parseNumericDate content "nbf" with
    | some exp, some nbf =>
      exp.all (fun t => decide (now < t * 10 ^ 9)) && nbf.all fun t => decide (t * 10 ^ 9 ≤ now)
    | _, _ => false

/-- The subject of `GetUser`: the part before the first colon for a token of the server. -/
def getUser (token : Token) : Option GoString :=
  match token.claims with
  | .unsupported _ => none
  | .mapClaims content =>
    match parseString content "sub", parseString content "iss" with
    | some subject, some issuer =>
      if issuer = sessionManagerClaimsIssuer then (split 58 subject).head? else some subject
    | _, _ => none

/-- `issued` are the tokens that were given out. -/
structure Server (ι : Type*) where
  accounts : Watched ι (Versioned AccountsSecret)
  blocklist : Watched ι (Versioned BlocklistSecret)
  clock : Int
  newestKey : Nat
  key : ι → Nat
  issued : List Bearer

/-- A token that a client has: one that was given out, or one from elsewhere. -/
inductive Presented where
  | issued (n : Nat)
  | foreign (token : Token)

/-- `block` is one attempt of `Block` for a token of an earlier request. -/
inductive ServerEvent (ι : Type*) where
  | command (c : AccountCommand)
  | createSession (i : ι) (username password id : GoString)
  | request (i : ι) (p : Presented)
  | block (i : ι) (p : Presented)
  | seeAccounts (i : ι)
  | seeBlocklist (i : ι)
  | createRSAKeyPair
  | restart (i : ι)
  | tick (d : Nat)

inductive Answer where
  | done
  | failed
  | status (code : Nat)
  | user (subject : GoString)
  deriving DecidableEq

namespace Server

variable {ι : Type*} (hash : GoString → GoString) (oidc : Option (Token → Bool))

def start (clock : Int) : Server ι where
  accounts := .start ⟨0, noAccounts⟩
  blocklist := .start ⟨0, emptyBlocklist⟩
  clock := clock
  newestKey := 0
  key := fun _ => 0
  issued := []

def createSession (s : Server ι) (i : ι) (username password id : GoString) : Server ι × Answer :=
  match authenticate hash (some (s.accounts.seen i).value) username password with
  | .error e => (s, .status (sessionErrToHTTPRes e))
  | .ok () =>
    let bearer : Bearer := ⟨sessionToken s.clock username id, some (s.key i)⟩
    ({ s with issued := s.issued ++ [bearer] }, .done)

/-- The middlewares, and the user that the handlers are told. -/
def request (s : Server ι) (i : ι) (b : Bearer) : Answer :=
  if validSignature oidc (s.key i) b && validTimes s.clock b.token then
    match managerIsBlocked (some (s.accounts.seen i).value) (some (s.blocklist.seen i).value)
        (some b.token) with
    | .error _ => .status 500
    | .ok true => .status 401
    | .ok false =>
      match getUser b.token with
      | none => .status 500
      | some subject => .user subject
  else .status 401

/-- The secret is read from the cache, and an update of an old version is refused. -/
def block (s : Server ι) (i : ι) (b : Bearer) : Server ι × Answer :=
  match shortenToken (some b.token) with
  | .error _ => (s, .status 500)
  | .ok short =>
    let secret := s.blocklist.seen i
    match s.blocklist.current.update secret.resourceVersion
        (addDataToSecret secret.value short s.clock).stored with
    | none => (s, .status 500)
    | some o => ({ s with blocklist := s.blocklist.write o }, .done)

/-- A replica with an older or a newer key has let the token through. -/
def everValid (s : Server ι) (b : Bearer) : Bool :=
  (List.range (s.newestKey + 1)).any fun serverKey => validSignature oidc serverKey b

def bearer (s : Server ι) : Presented → Option Bearer
  | .issued n => s.issued[n]?
  | .foreign token => some ⟨token, none⟩

def step [DecidableEq ι] (s : Server ι) : ServerEvent ι → Server ι × Answer
  | .command c =>
    let (accounts, ok) := runCommand hash s.clock s.accounts c
    ({ s with accounts }, if ok then .done else .failed)
  | .createSession i username password id => s.createSession hash i username password id
  | .request i p =>
    match s.bearer p with
    | none => (s, .status 401)
    | some b => (s, s.request oidc i b)
  | .block i p =>
    match s.bearer p with
    | none => (s, .status 401)
    | some b => if s.everValid oidc b then s.block i b else (s, .status 401)
  | .seeAccounts i => ({ s with accounts := s.accounts.notice i }, .done)
  | .seeBlocklist i => ({ s with blocklist := s.blocklist.notice i }, .done)
  | .createRSAKeyPair => ({ s with newestKey := s.newestKey + 1 }, .done)
  | .restart i => ({ s with key := Function.update s.key i s.newestKey }, .done)
  | .tick d => ({ s with clock := s.clock + d }, .done)

end Server

end OpenEverest.Session
