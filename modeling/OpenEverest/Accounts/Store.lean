import OpenEverest.Framework.GoString
import OpenEverest.Framework.Versioned

/-!
# The account store

All accounts live in one secret: a file with the map of users, and an annotation
for each user whose password is stored in plain text. Every operation reads the
secret once to check and once more to write.
-/

namespace OpenEverest.Accounts

open Framework GoString

/-- `passwordMtime`: a text in RFC 3339 stands for the second it names. -/
inductive Mtime where
  | empty
  | rfc3339 (unix : Int)
  | malformed (text : GoString)
  deriving DecidableEq

/-- `time.Now().Format(time.RFC3339)` drops the fraction of the second. -/
def formatRFC3339 (now : Int) : Mtime := .rfc3339 (now / 10 ^ 9)

def accountCapabilityLogin : GoString := ascii "login"

structure Account where
  enabled : Bool
  capabilities : List GoString
  passwordMtime : Mtime
  passwordHash : GoString
  deriving DecidableEq

inductive AccountError where
  | errAccountNotFound
  | errIncorrectPassword
  | errUserAlreadyExists
  | passwordEmpty
  | api
  deriving DecidableEq

abbrev Users := GoString → Option Account

structure AccountsSecret where
  users : Users
  annotations : GoString → Option GoString

def noAccounts : AccountsSecret := ⟨fun _ => none, fun _ => none⟩

def insecurePasswordAnnotationKey (username : GoString) : GoString :=
  ascii "insecure-password/" ++ username

def insecurePasswordValueTrue : GoString := ascii "true"

theorem insecurePasswordAnnotationKey_inj (u v : GoString) :
    insecurePasswordAnnotationKey u = insecurePasswordAnnotationKey v ↔ u = v := by
  simp [insecurePasswordAnnotationKey]

def listAllAccounts (secret : Option AccountsSecret) : Except AccountError Users :=
  match secret with
  | none => .error .api
  | some s => .ok s.users

def get (secret : Option AccountsSecret) (username : GoString) : Except AccountError Account := do
  let users ← listAllAccounts secret
  match users username with
  | none => .error .errAccountNotFound
  | some user => .ok user

/-- The secret `insertOrUpdateAccount` writes. -/
def AccountsSecret.insert (s : AccountsSecret) (username : GoString) (account : Account)
    (secure : Bool) : AccountsSecret :=
  let key := insecurePasswordAnnotationKey username
  let annotations := Function.update s.annotations key none
  { users := Function.update s.users username (some account)
    annotations :=
      if secure then annotations
      else Function.update annotations key (some insecurePasswordValueTrue) }

/-- The secret `Delete` writes: the users read first, in the secret read second. -/
def AccountsSecret.remove (s : AccountsSecret) (users : Users) (username : GoString) :
    AccountsSecret :=
  { s with users := Function.update users username none }

abbrev AccountsClient := Client AccountsSecret (Except AccountError Unit)

/-- What `UpdateSecret` answers is what the operation returns. -/
def updated (ok : Bool) : AccountsClient := .done (if ok then .ok () else .error .api)

def insertOrUpdateAccount (username : GoString) (account : Account) (secure : Bool) :
    AccountsClient :=
  .get fun
  | none => .done (.error .api)
  | some secret =>
    .update secret.resourceVersion (secret.value.insert username account secure) updated

section Operations

-- `computePasswordHash` under the salt of the installation
variable (hash : GoString → GoString)

def newAccount (password : GoString) (now : Int) : Account :=
  { enabled := true
    capabilities := [accountCapabilityLogin]
    passwordMtime := formatRFC3339 now
    passwordHash := hash password }

def storedPassword (password : GoString) (secure : Bool) : GoString :=
  if secure then hash password else password

def create (username password : GoString) : AccountsClient :=
  .get fun secret =>
    match get (secret.map (·.value)) username with
    | .ok _ => .done (.error .errUserAlreadyExists)
    | .error .errAccountNotFound =>
      if password = [] then .done (.error .passwordEmpty)
      else .now fun now => insertOrUpdateAccount username (newAccount hash password now) true
    | .error e => .done (.error e)

def setPassword (username newPassword : GoString) (secure : Bool) : AccountsClient :=
  .get fun secret =>
    match get (secret.map (·.value)) username with
    | .error e => .done (.error e)
    | .ok user => .now fun now =>
      insertOrUpdateAccount username
        { user with passwordHash := storedPassword hash newPassword secure
                    passwordMtime := formatRFC3339 now } secure

def delete (username : GoString) : AccountsClient :=
  .get fun first =>
    match listAllAccounts (first.map (·.value)) with
    | .error e => .done (.error e)
    | .ok users =>
      match users username with
      | none => .done (.error .errAccountNotFound)
      | some _ => .get fun
        | none => .done (.error .api)
        | some secret =>
          .update secret.resourceVersion (secret.value.remove users username) updated

def verify (secret : Option AccountsSecret) (username password : GoString) :
    Except AccountError Unit := do
  let users ← listAllAccounts secret
  match users username with
  | none => .error .errAccountNotFound
  | some user =>
    let annotation := secret.bind fun s => s.annotations (insecurePasswordAnnotationKey username)
    let provided := if annotation.isNone then hash password else password
    if user.passwordHash = provided then .ok () else .error .errIncorrectPassword

def isSecure (secret : Option AccountsSecret) (username : GoString) : Except AccountError Bool :=
  match secret with
  | none => .error .api
  | some s =>
    match s.annotations (insecurePasswordAnnotationKey username) with
    | none => .ok true
    | some value => .ok (value ≠ insecurePasswordValueTrue)

end Operations

inductive AccountOp where
  | create (username password : GoString)
  | setPassword (username newPassword : GoString) (secure : Bool)
  | delete (username : GoString)
  deriving DecidableEq

namespace AccountOp

def username : AccountOp → GoString
  | .create u _ => u
  | .setPassword u _ _ => u
  | .delete u => u

def program (hash : GoString → GoString) : AccountOp → AccountsClient
  | .create u p => Accounts.create hash u p
  | .setPassword u p secure => Accounts.setPassword hash u p secure
  | .delete u => Accounts.delete u

/-- What the operation makes of the secret when nobody else works on it. -/
def apply (hash : GoString → GoString) (now : Int) (s : AccountsSecret) :
    AccountOp → Except AccountError AccountsSecret
  | .create u p =>
    match s.users u with
    | some _ => .error .errUserAlreadyExists
    | none => if p = [] then .error .passwordEmpty else .ok (s.insert u (newAccount hash p now) true)
  | .setPassword u p secure =>
    match s.users u with
    | none => .error .errAccountNotFound
    | some user => .ok (s.insert u { user with passwordHash := storedPassword hash p secure
                                               passwordMtime := formatRFC3339 now } secure)
  | .delete u =>
    match s.users u with
    | none => .error .errAccountNotFound
    | some _ => .ok (s.remove s.users u)

end AccountOp

theorem exec_insertOrUpdateAccount (username : GoString) (account : Account) (secure : Bool)
    (now : Int) (o : Versioned AccountsSecret) :
    (insertOrUpdateAccount username account secure).exec now o =
      (⟨o.resourceVersion + 1, o.value.insert username account secure⟩, .ok ()) := by
  simp only [insertOrUpdateAccount, Client.exec, Versioned.update_current, updated, if_true]

/-- An operation made alone writes what `apply` says, or nothing. -/
theorem exec_program (hash : GoString → GoString) (op : AccountOp) (now : Int)
    (o : Versioned AccountsSecret) :
    (op.program hash).exec now o =
      match op.apply hash now o.value with
      | .ok s => (⟨o.resourceVersion + 1, s⟩, .ok ())
      | .error e => (o, .error e) := by
  cases op with
  | create u p =>
    simp only [AccountOp.program, create, Client.exec, get, listAllAccounts, Option.map_some,
      bind, Except.bind, AccountOp.apply]
    cases o.value.users u with
    | some _ => rfl
    | none =>
      by_cases hp : p = []
      · simp only [hp, if_true, Client.exec]
      · simp only [hp, if_false, Client.exec, exec_insertOrUpdateAccount]
  | setPassword u p secure =>
    simp only [AccountOp.program, setPassword, Client.exec, get, listAllAccounts, Option.map_some,
      bind, Except.bind, AccountOp.apply]
    cases o.value.users u with
    | none => rfl
    | some user => simp only [Client.exec, exec_insertOrUpdateAccount]
  | delete u =>
    simp only [AccountOp.program, delete, Client.exec, listAllAccounts, Option.map_some,
      AccountOp.apply]
    cases o.value.users u with
    | none => rfl
    | some _ => simp only [Client.exec, Versioned.update_current, updated, if_true]

def sampleHash (password : GoString) : GoString := ascii "#" ++ password

def secretWith (username : GoString) : AccountsSecret :=
  noAccounts.insert username (newAccount sampleHash (ascii "p") 0) true

end OpenEverest.Accounts
