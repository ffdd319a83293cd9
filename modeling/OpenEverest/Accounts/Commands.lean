import OpenEverest.Accounts.Passwords
import OpenEverest.Framework.Watched

/-!
# Account commands

The commands check the names and the passwords they are given and then make the operations of
the store. What they are for is a map from users to the passwords last set and when.
-/

namespace OpenEverest.Accounts

open Framework GoString

def isWordByte (b : UInt8) : Bool :=
  (48 ≤ b && b ≤ 57) || (65 ≤ b && b ≤ 90) || (97 ≤ b && b ≤ 122) || b == 95

/-- The pattern `^[a-zA-Z0-9_]{3,}$`. -/
def validateUsername (username : GoString) : Bool := 3 ≤ username.length && username.all isWordByte

/-- The pattern `^[a-zA-Z0-9@*#$%^&+=!_-]{6,}$`. -/
def validatePassword (password : GoString) : Bool :=
  6 ≤ password.length && password.all fun b => isWordByte b || b ∈ ascii "@*#$%^&+=!-"

def everestAdminUser : GoString := ascii "admin"

inductive AccountCommand where
  | create (username password : GoString)
  | setPassword (username newPassword : GoString)
  | delete (username : GoString)
  | createInitialAdminAccount (pass : GoString)

/-- The operations that a command goes on to, or `none` when a check fails. -/
def AccountCommand.ops (adminExists : Bool) : AccountCommand → Option (List AccountOp)
  | .create u p =>
    if validateUsername u && validatePassword p then some [.create u p] else none
  | .setPassword u p =>
    if validateUsername u && validatePassword p then some [.setPassword u p true] else none
  | .delete u => if validateUsername u then some [.delete u] else none
  | .createInitialAdminAccount pass =>
    if adminExists then some [.setPassword everestAdminUser pass false]
    else some [.create everestAdminUser pass, .setPassword everestAdminUser pass false]

def adminExists (secret : AccountsSecret) : Bool :=
  match get (some secret) everestAdminUser with
  | .error .errAccountNotFound => false
  | _ => true

section Commands

variable {ι : Type*} (hash : GoString → GoString) (now : Int)

/-- The operations up to the first one that fails, and whether none did. -/
def runOps (w : Watched ι (Versioned AccountsSecret)) :
    List AccountOp → Watched ι (Versioned AccountsSecret) × Bool
  | [] => (w, true)
  | op :: ops =>
    match (op.program hash).exec now w.current with
    | (o, .ok ()) => runOps (w.write o) ops
    | (_, .error _) => (w, false)

def runCommand (w : Watched ι (Versioned AccountsSecret)) (c : AccountCommand) :
    Watched ι (Versioned AccountsSecret) × Bool :=
  match c.ops (adminExists w.current.value) with
  | none => (w, false)
  | some ops => runOps hash now w ops

end Commands

structure Credential where
  password : Password
  setAt : Int
  deriving DecidableEq

abbrev Credentials := GoString → Option Credential

namespace Credentials

/-- What an operation at the time `now` means, or `none` when it is refused. -/
def apply (m : Credentials) (now : Int) : AccountOp → Option Credentials
  | .create u p =>
    if (m u).isNone ∧ p ≠ [] then some (Function.update m u (some ⟨⟨p, true⟩, now⟩)) else none
  | .setPassword u p secure =>
    if (m u).isSome then some (Function.update m u (some ⟨⟨p, secure⟩, now⟩)) else none
  | .delete u => if (m u).isSome then some (Function.update m u none) else none

section Commands

variable {ι : Type*} (now : Int)

def runOps (w : Watched ι Credentials) : List AccountOp → Watched ι Credentials × Bool
  | [] => (w, true)
  | op :: ops =>
    match w.current.apply now op with
    | some m => runOps (w.write m) ops
    | none => (w, false)

def runCommand (w : Watched ι Credentials) (c : AccountCommand) : Watched ι Credentials × Bool :=
  match c.ops (w.current everestAdminUser).isSome with
  | none => (w, false)
  | some ops => runOps now w ops

end Commands

def passwords (m : Credentials) : Passwords := fun u => (m u).map (·.password)

end Credentials

/-- The secret holds the credentials; every account may log in, and has a name without colon. -/
structure HoldsCredentials (hash : GoString → GoString) (s : AccountsSecret) (m : Credentials) :
    Prop where
  represents : Represents hash s m.passwords
  account : ∀ u a, s.users u = some a → ∃ c, m u = some c ∧
    a.passwordMtime = formatRFC3339 c.setAt ∧ a.enabled = true ∧
      accountCapabilityLogin ∈ a.capabilities
  named : ∀ u c, m u = some c → 58 ∉ u

namespace HoldsCredentials

variable {hash : GoString → GoString} {now : Int} {s s' : AccountsSecret} {m : Credentials}
  {op : AccountOp}

theorem users_eq_none (h : HoldsCredentials hash s m) (u : GoString) :
    s.users u = none ↔ m u = none := by
  rw [h.represents.users_eq_none u, Credentials.passwords, Option.map_eq_none_iff]

theorem empty (hash : GoString → GoString) : HoldsCredentials hash noAccounts fun _ => none where
  represents := ⟨fun _ => rfl, fun _ _ h => by cases h⟩
  account _ _ h := by cases h
  named _ _ h := by cases h

theorem insert (h : HoldsCredentials hash s m) {u : GoString} (hu : 58 ∉ u) {a : Account}
    {p : Password} (hstored : a.passwordHash = storedPassword hash p.password p.secure)
    (hmtime : a.passwordMtime = formatRFC3339 now) (henabled : a.enabled = true)
    (hlogin : accountCapabilityLogin ∈ a.capabilities) :
    HoldsCredentials hash (s.insert u a p.secure) (Function.update m u (some ⟨p, now⟩)) := by
  refine ⟨?_, fun v b hb => ?_, fun v c hc => ?_⟩
  · have hrepresents := h.represents.insert u a p hstored
    have hpasswords : Credentials.passwords (Function.update m u (some ⟨p, now⟩)) =
        Function.update m.passwords u (some p) := by
      funext v
      by_cases hv : v = u
      · subst hv
        simp [Credentials.passwords]
      · simp [Credentials.passwords, hv]
    rw [hpasswords]
    exact hrepresents
  · by_cases hv : v = u
    · subst hv
      obtain rfl : a = b := by simpa [AccountsSecret.insert] using hb
      exact ⟨⟨p, now⟩, by simp, hmtime, henabled, hlogin⟩
    · obtain ⟨c, hc, hrest⟩ := h.account v b (by simpa [AccountsSecret.insert, hv] using hb)
      exact ⟨c, by simpa [hv] using hc, hrest⟩
  · by_cases hv : v = u
    · exact hv ▸ hu
    · exact h.named v c (by simpa [hv] using hc)

theorem remove (h : HoldsCredentials hash s m) (u : GoString) :
    HoldsCredentials hash (s.remove s.users u) (Function.update m u none) := by
  refine ⟨?_, fun v b hb => ?_, fun v c hc => ?_⟩
  · have hrepresents := h.represents.remove u
    have hpasswords : Credentials.passwords (Function.update m u none) =
        Function.update m.passwords u none := by
      funext v
      by_cases hv : v = u
      · subst hv
        simp [Credentials.passwords]
      · simp [Credentials.passwords, hv]
    rw [hpasswords]
    exact hrepresents
  · by_cases hv : v = u
    · subst hv
      simp [AccountsSecret.remove] at hb
    · obtain ⟨c, hc, hrest⟩ := h.account v b (by simpa [AccountsSecret.remove, hv] using hb)
      exact ⟨c, by simpa [hv] using hc, hrest⟩
  · by_cases hv : v = u
    · subst hv
      simp at hc
    · exact h.named v c (by simpa [hv] using hc)

theorem apply (h : HoldsCredentials hash s m) (hname : 58 ∉ op.username) :
    match op.apply hash now s with
    | .ok s' => ∃ m', m.apply now op = some m' ∧ HoldsCredentials hash s' m'
    | .error _ => m.apply now op = none := by
  cases op with
  | create u p =>
    have hnone := h.users_eq_none u
    cases hu : s.users u with
    | some a =>
      have hm : m u ≠ none := fun hm => by simp [hnone.mpr hm] at hu
      simp [AccountOp.apply, Credentials.apply, hu, hm]
    | none =>
      have hm : m u = none := hnone.mp hu
      by_cases hp : p = []
      · simp [AccountOp.apply, Credentials.apply, hu, hp]
      · simp only [AccountOp.apply, Credentials.apply, hu, hp, hm, if_false, Option.isNone_none,
          ne_eq, not_false_eq_true, and_self, if_true]
        have hinsert : HoldsCredentials hash (s.insert u (newAccount hash p now) true)
            (Function.update m u (some ⟨⟨p, true⟩, now⟩)) :=
          h.insert (p := ⟨p, true⟩) hname rfl rfl rfl (by simp [newAccount])
        exact ⟨_, rfl, hinsert⟩
  | setPassword u p secure =>
    have hnone := h.users_eq_none u
    cases hu : s.users u with
    | none => simp [AccountOp.apply, Credentials.apply, hu, hnone.mp hu]
    | some a =>
      obtain ⟨c, hc, -, henabled, hlogin⟩ := h.account u a hu
      simp only [AccountOp.apply, Credentials.apply, hu, hc, Option.isSome_some, if_true]
      exact ⟨_, rfl, h.insert (p := ⟨p, secure⟩) hname rfl rfl henabled hlogin⟩
  | delete u =>
    have hnone := h.users_eq_none u
    cases hu : s.users u with
    | none => simp [AccountOp.apply, Credentials.apply, hu, hnone.mp hu]
    | some a =>
      obtain ⟨c, hc, -⟩ := h.account u a hu
      simp only [AccountOp.apply, Credentials.apply, hu, hc, Option.isSome_some, if_true]
      exact ⟨_, rfl, h.remove u⟩

theorem adminExists_eq (h : HoldsCredentials hash s m) :
    adminExists s = (m everestAdminUser).isSome := by
  have hnone := h.users_eq_none everestAdminUser
  cases hu : s.users everestAdminUser with
  | none => simp [adminExists, get, listAllAccounts, bind, Except.bind, hu, hnone.mp hu]
  | some a =>
    obtain ⟨c, hc, -⟩ := h.account everestAdminUser a hu
    simp [adminExists, get, listAllAccounts, bind, Except.bind, hu, hc]

end HoldsCredentials

theorem colon_not_mem {username : GoString} (h : validateUsername username = true) :
    58 ∉ username := by
  intro hmem
  have hall := (Bool.and_eq_true_iff.mp h).2
  have hcolon := List.all_eq_true.mp hall 58 hmem
  exact absurd hcolon (by decide)

theorem AccountCommand.ops_username {exists' : Bool} {c : AccountCommand} {ops : List AccountOp}
    (h : c.ops exists' = some ops) : ∀ op ∈ ops, 58 ∉ op.username := by
  cases c with
  | create u p =>
    simp only [AccountCommand.ops, Option.ite_none_right_eq_some, Bool.and_eq_true] at h
    obtain ⟨⟨hu, -⟩, hops⟩ := h
    obtain rfl := Option.some.inj hops
    simpa [AccountOp.username] using colon_not_mem hu
  | setPassword u p =>
    simp only [AccountCommand.ops, Option.ite_none_right_eq_some, Bool.and_eq_true] at h
    obtain ⟨⟨hu, -⟩, hops⟩ := h
    obtain rfl := Option.some.inj hops
    simpa [AccountOp.username] using colon_not_mem hu
  | delete u =>
    simp only [AccountCommand.ops, Option.ite_none_right_eq_some] at h
    obtain ⟨hu, hops⟩ := h
    obtain rfl := Option.some.inj hops
    simpa [AccountOp.username] using colon_not_mem hu
  | createInitialAdminAccount pass =>
    have hadmin : 58 ∉ everestAdminUser := by decide
    cases exists' with
    | true =>
      obtain rfl := Option.some.inj h
      simpa [AccountOp.username] using hadmin
    | false =>
      obtain rfl := Option.some.inj h
      simpa [AccountOp.username] using hadmin

section Copies

variable {ι : Type*} {hash : GoString → GoString} {w : Watched ι (Versioned AccountsSecret)}
  {v : Watched ι Credentials}

abbrev CopiesHold (hash : GoString → GoString) :
    Watched ι (Versioned AccountsSecret) → Watched ι Credentials → Prop :=
  Watched.Rel fun o m => HoldsCredentials hash o.value m

theorem CopiesHold.runOps (hw : CopiesHold hash w v) (now : Int) {ops : List AccountOp}
    (hops : ∀ op ∈ ops, 58 ∉ op.username) :
    (Accounts.runOps hash now w ops).2 = (Credentials.runOps now v ops).2 ∧
      CopiesHold hash (Accounts.runOps hash now w ops).1 (Credentials.runOps now v ops).1 := by
  induction ops generalizing w v with
  | nil => exact ⟨rfl, hw⟩
  | cons op ops ih =>
    have happly : match op.apply hash now w.current.value with
        | .ok s' => ∃ m', v.current.apply now op = some m' ∧ HoldsCredentials hash s' m'
        | .error _ => v.current.apply now op = none := hw.current.apply (hops op (by simp))
    simp only [Accounts.runOps, Credentials.runOps, exec_program]
    cases hop : op.apply hash now w.current.value with
    | ok s =>
      rw [hop] at happly
      obtain ⟨m, hm, hholds⟩ := happly
      simp only [hm]
      exact ih (hw.write hholds) fun op hop => hops op (by simp [hop])
    | error e =>
      rw [hop] at happly
      simp only [happly]
      exact ⟨trivial, hw⟩

theorem CopiesHold.runCommand (hw : CopiesHold hash w v) (now : Int) (c : AccountCommand) :
    (Accounts.runCommand hash now w c).2 = (Credentials.runCommand now v c).2 ∧
      CopiesHold hash (Accounts.runCommand hash now w c).1 (Credentials.runCommand now v c).1 := by
  simp only [Accounts.runCommand, Credentials.runCommand, hw.current.adminExists_eq]
  cases hops : c.ops (v.current everestAdminUser).isSome with
  | none => exact ⟨rfl, hw⟩
  | some ops => exact hw.runOps now (AccountCommand.ops_username hops)

end Copies

end OpenEverest.Accounts
