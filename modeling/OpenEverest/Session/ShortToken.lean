import OpenEverest.Framework.GoString

/-!
# JWT claims and the shortened token

The block list keeps of a token only its id and its expiry, written one after
the other with nothing between them.
-/

namespace OpenEverest.Session

open Framework GoString

/-- A value of `map[string]any` as the JSON decoder leaves it. -/
inductive ClaimValue where
  | string (s : GoString)
  | number (x : Float64)
  | other
  deriving DecidableEq

abbrev Payload := String → Option ClaimValue

inductive Claims where
  | mapClaims (m : Payload)
  | unsupported (type : String)

structure Token where
  claims : Claims

inductive SessionError where
  | errExtractTokenID
  | errExtractExp
  | errEmptyToken
  | errShortenToken
  | errUnsupportedClaim (type : String)
  | errExtractSub
  | errExtractIss
  | errExtractIssueTime
  | errParseTime (text : GoString)
  | api
  | join (first second : SessionError)
  deriving DecidableEq

def SessionError.text : SessionError → String
  | .errExtractTokenID => "token doesn't contains jti or uti claim"
  | .errExtractExp => "could not extract exp"
  | .errEmptyToken => "token is empty"
  | .errShortenToken => "failed to shorten token"
  | .errUnsupportedClaim type => "unsupported claims type: " ++ type
  | .errExtractSub => "could not extract sub"
  | .errExtractIss => "could not extract iss"
  | .errExtractIssueTime => "could not extract issue time"
  | .errParseTime _ => "parsing time"
  | .api => "kubernetes api error"
  | .join first second => first.text ++ "\n" ++ second.text

def Payload.getStringClaim (p : Payload) (key : String) : GoString :=
  match p key with
  | some (.string s) => s
  | _ => []

def extractContent : Option Token → Except SessionError Payload
  | none => .error .errEmptyToken
  | some ⟨.mapClaims m⟩ => .ok m
  | some ⟨.unsupported type⟩ => .error (.errUnsupportedClaim type)

/-- `cmp.Or`: the first of the two that is not empty. -/
def cmpOr (s t : GoString) : GoString := if s = [] then t else s

def shortenToken (token : Option Token) : Except SessionError GoString := do
  let content ← extractContent token
  let tID := cmpOr (content.getStringClaim "jti") (content.getStringClaim "uti")
  if tID = [] then .error .errExtractTokenID
  else
    match content "exp" with
    | some (.number exp) => .ok (tID ++ formatFloat exp)
    | _ => .error .errExtractExp

/-- What makes a token the one it is: its id, never empty, and its expiry. -/
structure Identity where
  id : GoString
  exp : Float64
  id_ne : id ≠ []
  deriving DecidableEq

namespace Identity

def short (t : Identity) : GoString := t.id ++ formatFloat t.exp

/-- The time, in nanoseconds, is before the token's expiry. -/
def Alive (t : Identity) (now : Int) : Prop := (now : ℚ) < t.exp.value * 10 ^ 9

instance (t : Identity) (now : Int) : Decidable (t.Alive now) :=
  inferInstanceAs (Decidable ((now : ℚ) < t.exp.value * 10 ^ 9))

def token (t : Identity) : Option Token :=
  some ⟨.mapClaims fun key =>
    if key = "jti" then some (.string t.id)
    else if key = "exp" then some (.number t.exp) else none⟩

theorem short_ne_nil (t : Identity) : t.short ≠ [] := by
  simp [short, t.id_ne]

theorem comma_not_mem_short (t : Identity) (h : 44 ∉ t.id) : 44 ∉ t.short := by
  simp [short, h, formatFloat_not_mem t.exp 44 (by decide)]

end Identity

def identity (token : Option Token) : Option Identity :=
  match extractContent token with
  | .error _ => none
  | .ok content =>
    let tID := cmpOr (content.getStringClaim "jti") (content.getStringClaim "uti")
    if h : tID = [] then none
    else
      match content "exp" with
      | some (.number exp) => some ⟨tID, exp, h⟩
      | _ => none

theorem shortenToken_eq_ok (token : Option Token) (s : GoString) :
    shortenToken token = .ok s ↔ ∃ t, identity token = some t ∧ s = t.short := by
  unfold shortenToken identity
  cases extractContent token with
  | error e => simp [bind, Except.bind]
  | ok content =>
    simp only [bind, Except.bind]
    by_cases hid : cmpOr (content.getStringClaim "jti") (content.getStringClaim "uti") = []
    · simp [hid]
    · simp only [hid, if_false, dite_false]
      cases content "exp" with
      | none => simp
      | some v =>
        cases v with
        | number exp => simp [Identity.short, eq_comm]
        | string _ => simp
        | other => simp

theorem shortenToken_of_identity {token : Option Token} {t : Identity}
    (h : identity token = some t) : shortenToken token = .ok t.short :=
  (shortenToken_eq_ok token t.short).mpr ⟨t, h, rfl⟩

@[simp] theorem identity_token (t : Identity) : identity t.token = some t := by
  simp [identity, Identity.token, extractContent, Payload.getStringClaim, cmpOr, t.id_ne]

end OpenEverest.Session
