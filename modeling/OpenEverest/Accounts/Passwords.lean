import OpenEverest.Accounts.Store
import Mathlib.Logic.Function.Basic

/-!
# Passwords of the account store

What the store is for: each user has the password last set for it, kept as a
hash or as it was given. The secret represents this map through the users file
and the annotations, after every run of operations made one after the other.
-/

namespace OpenEverest.Accounts

open Framework GoString

/-- A password as it was last set, and whether it was to be hashed. -/
structure Password where
  password : GoString
  secure : Bool
  deriving DecidableEq

abbrev Passwords := GoString → Option Password

namespace Passwords

/-- What an operation means for the passwords; a refused one changes nothing. -/
def apply (m : Passwords) : AccountOp → Passwords
  | .create u p =>
    if (m u).isNone ∧ p ≠ [] then Function.update m u (some ⟨p, true⟩) else m
  | .setPassword u p secure =>
    if (m u).isSome then Function.update m u (some ⟨p, secure⟩) else m
  | .delete u => Function.update m u none

end Passwords

structure AccountCall where
  now : Int
  op : AccountOp

def AccountCall.write (hash : GoString → GoString) (o : Versioned AccountsSecret)
    (c : AccountCall) : Versioned AccountsSecret :=
  ((c.op.program hash).exec c.now o).1

section Representation

variable (hash : GoString → GoString)

/-- The secret holds the passwords `m`. -/
structure Represents (s : AccountsSecret) (m : Passwords) : Prop where
  stored : ∀ u, (s.users u).map (·.passwordHash) =
    (m u).map fun p => storedPassword hash p.password p.secure
  annotated : ∀ u p, m u = some p → s.annotations (insecurePasswordAnnotationKey u) =
    if p.secure then none else some insecurePasswordValueTrue

variable {hash}

namespace Represents

variable {s : AccountsSecret} {m : Passwords}

theorem users_eq_none (h : Represents hash s m) (u : GoString) :
    s.users u = none ↔ m u = none := by
  have hu := h.stored u
  constructor <;> intro hn <;> simpa [hn, eq_comm] using hu

theorem insert (h : Represents hash s m) (u : GoString) (account : Account) (p : Password)
    (hstored : account.passwordHash = storedPassword hash p.password p.secure) :
    Represents hash (s.insert u account p.secure) (Function.update m u (some p)) := by
  refine ⟨fun v => ?_, fun v q hq => ?_⟩
  · by_cases hv : v = u
    · subst hv
      simp [AccountsSecret.insert, hstored]
    · simpa [AccountsSecret.insert, hv] using h.stored v
  · by_cases hv : v = u
    · subst hv
      obtain rfl : p = q := by simpa using hq
      cases hp : p.secure <;> simp [AccountsSecret.insert]
    · rw [Function.update_of_ne hv] at hq
      rw [← h.annotated v q hq]
      have hkey : insecurePasswordAnnotationKey v ≠ insecurePasswordAnnotationKey u :=
        (insecurePasswordAnnotationKey_inj v u).not.mpr hv
      cases hp : p.secure <;> simp [AccountsSecret.insert, hkey]

theorem remove (h : Represents hash s m) (u : GoString) :
    Represents hash (s.remove s.users u) (Function.update m u none) := by
  refine ⟨fun v => ?_, fun v q hq => ?_⟩
  · by_cases hv : v = u
    · subst hv
      simp [AccountsSecret.remove]
    · simpa [AccountsSecret.remove, hv] using h.stored v
  · by_cases hv : v = u
    · subst hv
      simp at hq
    · rw [Function.update_of_ne hv] at hq
      exact h.annotated v q hq

/-- A call made alone does to the secret what it means for the passwords. -/
theorem write {o : Versioned AccountsSecret} (h : Represents hash o.value m) (c : AccountCall) :
    Represents hash (c.write hash o).value (m.apply c.op) := by
  obtain ⟨now, op⟩ := c
  rw [AccountCall.write, exec_program]
  cases op with
  | create u p =>
    simp only [AccountOp.apply, Passwords.apply]
    cases hu : o.value.users u with
    | some a =>
      have hm : m u ≠ none := (h.users_eq_none u).not.mp (by simp [hu])
      simpa [Option.isNone_iff_eq_none, hm] using h
    | none =>
      have hm : m u = none := (h.users_eq_none u).mp hu
      by_cases hp : p = []
      · simpa [hp] using h
      · simpa [hp, hm] using h.insert u (newAccount hash p now) ⟨p, true⟩ rfl
  | setPassword u p secure =>
    simp only [AccountOp.apply, Passwords.apply]
    cases hu : o.value.users u with
    | none =>
      have hm : m u = none := (h.users_eq_none u).mp hu
      simpa [hm] using h
    | some a =>
      have hm : m u ≠ none := (h.users_eq_none u).not.mp (by simp [hu])
      simp only [Option.isSome_iff_ne_none.mpr hm, if_true]
      exact h.insert u _ ⟨p, secure⟩ rfl
  | delete u =>
    simp only [AccountOp.apply, Passwords.apply]
    cases hu : o.value.users u with
    | none =>
      have hm : m u = none := (h.users_eq_none u).mp hu
      have hsame : Function.update m u none = m := by rw [← hm, Function.update_eq_self]
      rw [hsame]
      exact h
    | some a => exact h.remove u

theorem run {o : Versioned AccountsSecret} (h : Represents hash o.value m)
    (calls : List AccountCall) :
    Represents hash (calls.foldl (AccountCall.write hash) o).value
      ((calls.map (·.op)).foldl Passwords.apply m) := by
  induction calls generalizing o m with
  | nil => exact h
  | cons c calls ih => exact ih (h.write c)

theorem verify_iff (h : Represents hash s m) (hinj : Function.Injective hash)
    (u p : GoString) : verify hash (some s) u p = .ok () ↔ ∃ secure, m u = some ⟨p, secure⟩ := by
  have hstored := h.stored u
  simp only [verify, listAllAccounts, bind, Except.bind, Option.bind_some]
  cases hu : s.users u with
  | none =>
    have hm : m u = none := (h.users_eq_none u).mp hu
    simp [hm]
  | some account =>
    cases hm : m u with
    | none => simp [hu, hm] at hstored
    | some q =>
      obtain ⟨q, secure⟩ := q
      have hann := h.annotated u _ hm
      have hpass : account.passwordHash = storedPassword hash q secure := by
        simpa [hu, hm] using hstored
      cases secure with
      | true => simp [hann, hpass, storedPassword, hinj.eq_iff]
      | false => simp [hann, hpass, storedPassword]

theorem isSecure_eq (h : Represents hash s m) {u : GoString} {p : Password} (hm : m u = some p) :
    isSecure (some s) u = .ok p.secure := by
  have hann := h.annotated u p hm
  cases hp : p.secure <;> simp [isSecure, hann, hp]

end Represents

end Representation

theorem write_other (hash : GoString → GoString) (o : Versioned AccountsSecret) (c : AccountCall) (u : GoString)
    (hu : u ≠ c.op.username) :
    (c.write hash o).value.users u = o.value.users u ∧
      (c.write hash o).value.annotations (insecurePasswordAnnotationKey u) =
        o.value.annotations (insecurePasswordAnnotationKey u) := by
  have hinsert (s : AccountsSecret) (v : GoString) (account : Account) (secure : Bool)
      (hv : u ≠ v) : (s.insert v account secure).users u = s.users u ∧
        (s.insert v account secure).annotations (insecurePasswordAnnotationKey u) =
          s.annotations (insecurePasswordAnnotationKey u) := by
    have hkey : insecurePasswordAnnotationKey u ≠ insecurePasswordAnnotationKey v :=
      (insecurePasswordAnnotationKey_inj u v).not.mpr hv
    cases secure <;> simp [AccountsSecret.insert, hv, hkey]
  obtain ⟨now, op⟩ := c
  rw [AccountCall.write, exec_program]
  cases op with
  | create v p =>
    simp only [AccountOp.apply]
    cases o.value.users v with
    | some a => exact ⟨rfl, rfl⟩
    | none =>
      by_cases hp : p = []
      · simp [hp]
      · simpa [hp] using hinsert o.value v _ true hu
  | setPassword v p secure =>
    simp only [AccountOp.apply]
    cases o.value.users v with
    | none => exact ⟨rfl, rfl⟩
    | some a => exact hinsert o.value v _ secure hu
  | delete v =>
    have hv : u ≠ v := hu
    simp only [AccountOp.apply]
    cases o.value.users v with
    | none => exact ⟨rfl, rfl⟩
    | some a => simp [AccountsSecret.remove, hv]

def accountsAfter (hash : GoString → GoString) (annotations : GoString → Option GoString)
    (calls : List AccountCall) : Versioned AccountsSecret :=
  calls.foldl (AccountCall.write hash) ⟨0, ⟨fun _ => none, annotations⟩⟩

def passwordsAfter (calls : List AccountCall) : Passwords :=
  (calls.map (·.op)).foldl Passwords.apply fun _ => none

theorem represents_after (hash : GoString → GoString) (annotations : GoString → Option GoString)
    (calls : List AccountCall) :
    Represents hash (accountsAfter hash annotations calls).value (passwordsAfter calls) := by
  have h0 : Represents hash ⟨fun _ => none, annotations⟩ fun _ => none :=
    ⟨fun _ => rfl, fun _ _ h => nomatch h⟩
  exact h0.run (o := ⟨0, ⟨fun _ => none, annotations⟩⟩) calls

/-- What the store answers is true of the passwords `m` of its history: it has the
accounts that were created and not deleted since, a password verifies exactly when it
is the one last set, and `IsSecure` denies exactly those stored as they are. -/
structure HoldsPasswords (hash : GoString → GoString) (o : Versioned AccountsSecret)
    (m : Passwords) : Prop where
  exists_iff : ∀ u, (o.value.users u).isSome ↔ (m u).isSome
  verify_iff : ∀ u p, verify hash (some o.value) u p = .ok () ↔
    ∃ secure, m u = some ⟨p, secure⟩
  undisturbed : ∀ (c : AccountCall) u, u ≠ c.op.username → (m u).isSome →
    (∀ p, verify hash (some (c.write hash o).value) u p = verify hash (some o.value) u p) ∧
      isSecure (some (c.write hash o).value) u = isSecure (some o.value) u
  isSecure_iff : ∀ u account, o.value.users u = some account →
    (isSecure (some o.value) u = .ok false ↔ m u = some ⟨account.passwordHash, false⟩)

/-- The store holds the passwords last set after every run of calls. -/
theorem accounts_hold_passwords (hash : GoString → GoString) (hinj : Function.Injective hash)
    (annotations : GoString → Option GoString) (calls : List AccountCall) :
    HoldsPasswords hash (accountsAfter hash annotations calls) (passwordsAfter calls) := by
  have h := represents_after hash annotations calls
  refine ⟨fun u => ?_, h.verify_iff hinj, ?_, ?_⟩
  · rw [Option.isSome_iff_ne_none, Option.isSome_iff_ne_none]
    exact (h.users_eq_none u).not
  · intro c u hu _
    obtain ⟨husers, hannotations⟩ := write_other hash (accountsAfter hash annotations calls) c u hu
    refine ⟨fun p => ?_, ?_⟩
    · simp only [verify, listAllAccounts, bind, Except.bind, Option.bind, husers, hannotations]
    · simp only [isSecure, hannotations]
  · intro u account hu
    have hstored := h.stored u
    cases hm : passwordsAfter calls u with
    | none => simp [hu, hm] at hstored
    | some p =>
      rw [h.isSecure_eq hm]
      obtain ⟨p, secure⟩ := p
      cases secure with
      | true => simp
      | false =>
        have hp : account.passwordHash = p := by simpa [hu, hm, storedPassword] using hstored
        simp [hp]

def sampleCalls : List AccountCall :=
  [⟨0, .create (ascii "u") (ascii "p")⟩, ⟨1, .setPassword (ascii "u") (ascii "q") false⟩,
    ⟨2, .delete (ascii "u")⟩, ⟨3, .create (ascii "u") (ascii "r")⟩]

theorem accounts_hold_passwords_sample :
    verify sampleHash (some (accountsAfter sampleHash (fun _ => none) sampleCalls).value)
      (ascii "u") (ascii "r") = .ok () := by
  have h := accounts_hold_passwords sampleHash (List.append_right_injective _)
    (fun _ => none) sampleCalls
  exact (h.verify_iff (ascii "u") (ascii "r")).mpr ⟨true, by decide +kernel⟩

end OpenEverest.Accounts
