import OpenEverest.Accounts.Store
import OpenEverest.Session.TokenStore

/-!
# The session manager

The manager issues the tokens of built-in users. Such a token is blocked when
its account is gone or its password is newer than the token, and like any other
when the block list has it.
-/

namespace OpenEverest.Session

open Framework GoString Accounts

def sessionManagerClaimsIssuer : GoString := ascii "everest"

def loginSuffix : GoString := ascii ":login"

/-- `jwt.NewNumericDate`: the time in whole seconds, as the decoder reads it. -/
def numericDate (now : Int) : ClaimValue := .number (.ofInt (now / 10 ^ 9))

/-- The claims `Manager.Create` signs, as they are decoded from the token. -/
def createToken (now : Int) (subject : GoString) (secondsBeforeExpiry : Int) (id : GoString) :
    Token :=
  ⟨.mapClaims fun key =>
    if key = "iat" ∨ key = "nbf" then some (numericDate now)
    else if key = "iss" then some (.string sessionManagerClaimsIssuer)
    else if key = "sub" then if subject = [] then none else some (.string subject)
    else if key = "jti" then if id = [] then none else some (.string id)
    else if key = "exp" then
      if 0 < secondsBeforeExpiry then some (numericDate (now + secondsBeforeExpiry * 10 ^ 9))
      else none
    else none⟩

def extractUsername (token : Option Token) : Except SessionError (GoString × Bool) := do
  let content ← extractContent token
  match content "sub" with
  | some (.string sub) =>
    match content "iss" with
    | some (.string iss) =>
      .ok (trimSuffix sub loginSuffix, decide (iss = sessionManagerClaimsIssuer))
    | _ => .error .errExtractIss
  | _ => .error .errExtractSub

def extractCreationTime (token : Option Token) : Except SessionError Int := do
  let content ← extractContent token
  match content "iat" with
  | some (.number issTS) => .ok issTS.toInt64
  | _ => .error .errExtractIssueTime

def isBuiltInUserBlocked (accounts : Option AccountsSecret) (username : GoString)
    (token : Option Token) : Except SessionError Bool :=
  match Accounts.get accounts username with
  | .error .errAccountNotFound => .ok true
  | .error _ => .error .api
  | .ok user =>
    match user.passwordMtime with
    | .empty => .ok false
    | .malformed text => .error (.errParseTime text)
    | .rfc3339 passwordCreationTime => do
      let tokenIssueTime ← extractCreationTime token
      .ok (decide (tokenIssueTime < passwordCreationTime))

/-- `Manager.IsBlocked` on what the two secrets hold. -/
def managerIsBlocked (accounts : Option AccountsSecret) (blocklist : Option BlocklistSecret)
    (token : Option Token) : Except SessionError Bool := do
  let (username, isBuiltInUser) ← extractUsername token
  if isBuiltInUser then
    let blocked ← isBuiltInUserBlocked accounts username token
    if blocked then .ok true else isBlocked blocklist token
  else isBlocked blocklist token

def loginToken (now : Int) (username : GoString) (secondsBeforeExpiry : Int) (id : GoString) :
    Token :=
  createToken now (username ++ loginSuffix) secondsBeforeExpiry id

section LoginToken

variable (now : Int) (username : GoString) (secondsBeforeExpiry : Int) (id : GoString)

theorem extractUsername_loginToken :
    extractUsername (some (loginToken now username secondsBeforeExpiry id)) =
      .ok (username, true) := by
  have hsub : username ++ loginSuffix ≠ [] := by simp [loginSuffix, ascii]
  simp only [extractUsername, extractContent, loginToken, createToken, bind, Except.bind]
  simp [hsub, trimSuffix_append]

theorem extractCreationTime_loginToken :
    extractCreationTime (some (loginToken now username secondsBeforeExpiry id)) =
      .ok (now / 10 ^ 9) := by
  simp [extractCreationTime, extractContent, loginToken, createToken, numericDate, bind,
    Except.bind]

/-- The token of a login is not blocked by its account exactly when the account
exists and has no password set in a later second. -/
theorem isBuiltInUserBlocked_loginToken (accounts : AccountsSecret) (account : Account)
    (haccount : accounts.users username = some account) (unix : Int)
    (hmtime : account.passwordMtime = .rfc3339 unix) :
    isBuiltInUserBlocked (some accounts) username
        (some (loginToken now username secondsBeforeExpiry id)) =
      .ok (decide (now / 10 ^ 9 < unix)) := by
  simp [isBuiltInUserBlocked, Accounts.get, listAllAccounts, haccount, hmtime, bind, Except.bind,
    extractCreationTime_loginToken]

theorem isBuiltInUserBlocked_absent (accounts : AccountsSecret) (token : Option Token)
    (habsent : accounts.users username = none) :
    isBuiltInUserBlocked (some accounts) username token = .ok true := by
  simp [isBuiltInUserBlocked, Accounts.get, listAllAccounts, habsent, bind, Except.bind]

end LoginToken

end OpenEverest.Session
