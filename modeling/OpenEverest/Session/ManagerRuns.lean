import OpenEverest.Session.Manager

/-!
# Tokens and password changes

Logins, account operations and the clock, in any order. A token is to be blocked
from the moment its password is changed or its account deleted or created anew;
it is if no password is set in the second a token of the account was issued in.
-/

namespace OpenEverest.Session

open Framework GoString Accounts

structure Issue where
  username : GoString
  issuedAt : Int
  token : Token
  revoked : Bool

/-- `issued` records every token and what became of its account. -/
structure ManagerRun where
  accounts : Versioned AccountsSecret
  clock : Int
  issued : List Issue

inductive ManagerEvent where
  | account (op : AccountOp)
  | issue (username : GoString) (secondsBeforeExpiry : Int) (id : GoString)
  | tick (d : Nat)

def Issue.after (i : Issue) (op : AccountOp) : Issue :=
  { i with revoked := i.revoked || decide (i.username = op.username) }

namespace ManagerRun

def start (accounts : AccountsSecret) (clock : Int) : ManagerRun := ⟨⟨0, accounts⟩, clock, []⟩

/-- A token is only issued for an account that exists; an operation that fails
leaves everything as it is. -/
def step (hash : GoString → GoString) (s : ManagerRun) : ManagerEvent → Option ManagerRun
  | .tick d => some { s with clock := s.clock + d }
  | .issue username secondsBeforeExpiry id =>
    if (s.accounts.value.users username).isSome then
      some { s with issued :=
        ⟨username, s.clock, loginToken s.clock username secondsBeforeExpiry id, false⟩ :: s.issued }
    else none
  | .account op =>
    match (op.program hash).exec s.clock s.accounts with
    | (o, .ok ()) => some { s with accounts := o, issued := s.issued.map (·.after op) }
    | (o, .error _) => some { s with accounts := o }

/-- Every token whose account was changed since is reported blocked. -/
def RevokedBlocked (s : ManagerRun) : Prop :=
  ∀ i ∈ s.issued, i.revoked = true →
    managerIsBlocked (some s.accounts.value) (some emptyBlocklist) (some i.token) = .ok true

end ManagerRun

def SetsPassword (s : AccountsSecret) : AccountOp → Prop
  | .create u p => s.users u = none ∧ p ≠ []
  | .setPassword u _ _ => (s.users u).isSome
  | .delete _ => False

/-- A password is only set in a later second than every token of the account was issued in. -/
def LaterSecond (s : ManagerRun) (e : ManagerEvent) : Prop :=
  ∀ op, e = .account op → SetsPassword s.accounts.value op →
    ∀ i ∈ s.issued, i.username = op.username → i.issuedAt / 10 ^ 9 < s.clock / 10 ^ 9

theorem apply_sets {hash : GoString → GoString} {now : Int} {s s' : AccountsSecret} {op : AccountOp}
    (h : op.apply hash now s = .ok s') :
    (∀ u, u ≠ op.username → s'.users u = s.users u) ∧
      (SetsPassword s op ∧ (∃ a, s'.users op.username = some a ∧
          a.passwordMtime = formatRFC3339 now) ∨
        ¬ SetsPassword s op ∧ s'.users op.username = none) := by
  cases op with
  | create u p =>
    simp only [AccountOp.apply] at h
    cases hu : s.users u with
    | some a => simp [hu] at h
    | none =>
      by_cases hp : p = []
      · simp [hu, hp] at h
      · simp only [hu, hp, if_false, Except.ok.injEq] at h
        subst h
        refine ⟨fun v hv => ?_, .inl ⟨⟨hu, hp⟩, newAccount hash p now, ?_, rfl⟩⟩
        · have hne : v ≠ u := hv
          simp [AccountsSecret.insert, hne]
        · simp [AccountsSecret.insert, AccountOp.username]
  | setPassword u p secure =>
    simp only [AccountOp.apply] at h
    cases hu : s.users u with
    | none => simp [hu] at h
    | some a =>
      simp only [hu, Except.ok.injEq] at h
      subst h
      refine ⟨fun v hv => ?_, .inl ⟨by simp [SetsPassword, hu],
        { a with passwordHash := storedPassword hash p secure
                 passwordMtime := formatRFC3339 now }, ?_, rfl⟩⟩
      · have hne : v ≠ u := hv
        simp [AccountsSecret.insert, hne]
      · simp only [AccountsSecret.insert, AccountOp.username, Function.update_self]
  | delete u =>
    simp only [AccountOp.apply] at h
    cases hu : s.users u with
    | none => simp [hu] at h
    | some a =>
      simp only [hu, Except.ok.injEq] at h
      subst h
      refine ⟨fun v hv => ?_, .inr ⟨fun hn => hn, ?_⟩⟩
      · have hne : v ≠ u := hv
        simp [AccountsSecret.remove, hne]
      · simp [AccountsSecret.remove, AccountOp.username]

theorem apply_of_sets (hash : GoString → GoString) (now : Int) {s : AccountsSecret} {op : AccountOp}
    (h : SetsPassword s op) : ∃ s', op.apply hash now s = .ok s' := by
  cases op with
  | create u p =>
    exact ⟨s.insert u (newAccount hash p now) true, by simp only [AccountOp.apply, h.1, h.2, if_false]⟩
  | setPassword u p secure =>
    obtain ⟨a, ha⟩ := Option.isSome_iff_exists.mp h
    simp only [AccountOp.apply, ha, Except.ok.injEq, exists_eq']
  | delete u => exact h.elim

namespace ManagerRun

theorem step_account (hash : GoString → GoString) (s s' : ManagerRun) (op : AccountOp)
    (h : step hash s (.account op) = some s') :
    (∃ a, op.apply hash s.clock s.accounts.value = .ok a ∧ s'.accounts.value = a ∧
        s'.clock = s.clock ∧ s'.issued = s.issued.map (·.after op)) ∨
      s' = s := by
  simp only [step, exec_program] at h
  cases ha : op.apply hash s.clock s.accounts.value with
  | ok a =>
    simp only [ha, Option.some.injEq] at h
    exact .inl ⟨a, rfl, by simp [← h], by simp [← h], by simp [← h]⟩
  | error e =>
    simp only [ha, Option.some.injEq] at h
    exact .inr h.symm

/-- Every token is the one issued at its time, and a revoked one has no account
or one whose password was set in a later second. -/
structure IssueInv (s : ManagerRun) (i : Issue) : Prop where
  token : ∃ seconds id, i.token = loginToken i.issuedAt i.username seconds id
  revoked : i.revoked = true → ∀ a, s.accounts.value.users i.username = some a →
    ∃ unix, a.passwordMtime = .rfc3339 unix ∧ i.issuedAt / 10 ^ 9 < unix

private theorem issueInv_step {hash : GoString → GoString} {s s' : ManagerRun} {e : ManagerEvent}
    (hinv : ∀ i ∈ s.issued, IssueInv s i) (hlater : LaterSecond s e)
    (h : step hash s e = some s') : ∀ i ∈ s'.issued, IssueInv s' i := by
  cases e with
  | tick d =>
    obtain rfl := Option.some.inj h
    exact fun i hi => ⟨(hinv i hi).token, (hinv i hi).revoked⟩
  | issue username seconds id =>
    simp only [step, Option.ite_none_right_eq_some, Option.some.injEq] at h
    obtain ⟨-, rfl⟩ := h
    intro i hi
    rcases List.mem_cons.mp hi with rfl | hi
    · exact ⟨⟨seconds, id, rfl⟩, fun hr => nomatch hr⟩
    · exact ⟨(hinv i hi).token, (hinv i hi).revoked⟩
  | account op =>
    rcases step_account hash s s' op h with ⟨a, happly, haccounts, -, hissued⟩ | rfl
    · obtain ⟨hother, hself⟩ := apply_sets happly
      intro j hj
      rw [hissued] at hj
      obtain ⟨i, hi, rfl⟩ := List.mem_map.mp hj
      refine ⟨(hinv i hi).token, fun hr b hb => ?_⟩
      rw [haccounts] at hb
      simp only [Issue.after] at hr hb ⊢
      by_cases hu : i.username = op.username
      · rw [hu] at hb
        rcases hself with ⟨hsets, c, hc, hmtime⟩ | ⟨-, hnone⟩
        · obtain rfl : c = b := Option.some.inj (hc.symm.trans hb)
          exact ⟨s.clock / 10 ^ 9, hmtime, hlater op rfl hsets i hi hu⟩
        · rw [hnone] at hb
          cases hb
      · rw [hother i.username hu] at hb
        exact (hinv i hi).revoked (by simpa [hu] using hr) b hb
    · exact hinv

private theorem revokedBlocked_of_inv {s : ManagerRun} (hinv : ∀ i ∈ s.issued, IssueInv s i) :
    RevokedBlocked s := by
  intro i hi hr
  obtain ⟨seconds, id, htoken⟩ := (hinv i hi).token
  have hblocked : isBuiltInUserBlocked (some s.accounts.value) i.username (some i.token) =
      .ok true := by
    cases ha : s.accounts.value.users i.username with
    | none => exact isBuiltInUserBlocked_absent i.username _ _ ha
    | some a =>
      obtain ⟨unix, hmtime, hlt⟩ := (hinv i hi).revoked hr a ha
      rw [htoken, isBuiltInUserBlocked_loginToken _ _ _ _ _ a ha unix hmtime, decide_eq_true hlt]
  have huser := extractUsername_loginToken i.issuedAt i.username seconds id
  rw [← htoken] at huser
  simp only [managerIsBlocked, huser, bind, Except.bind, hblocked, if_true]

private theorem not_blocked_of_same_second {s : ManagerRun} (i : Issue) (a : Account)
    (htoken : ∃ seconds id, i.token = loginToken i.issuedAt i.username seconds id)
    (ha : s.accounts.value.users i.username = some a)
    (hmtime : ∃ unix, a.passwordMtime = .rfc3339 unix ∧ ¬ i.issuedAt / 10 ^ 9 < unix) :
    managerIsBlocked (some s.accounts.value) (some emptyBlocklist) (some i.token) ≠ .ok true := by
  obtain ⟨seconds, id, htoken⟩ := htoken
  obtain ⟨unix, hmtime, hlt⟩ := hmtime
  have huser := extractUsername_loginToken i.issuedAt i.username seconds id
  have hblocked := isBuiltInUserBlocked_loginToken i.issuedAt i.username seconds id
    s.accounts.value a ha unix hmtime
  rw [decide_eq_false hlt] at hblocked
  simp only [htoken, managerIsBlocked, huser, bind, Except.bind, hblocked, if_true,
    Bool.false_eq_true, if_false]
  exact isBlocked_emptyBlocklist _

private theorem not_revokedBlocked_of_same_second (hash : GoString → GoString) {s : ManagerRun}
    (hinv : ∀ i ∈ s.issued, IssueInv s i) {e : ManagerEvent} (hsame : ¬ LaterSecond s e) :
    ∃ s', step hash s e = some s' ∧ ¬ RevokedBlocked s' := by
  simp only [LaterSecond, not_forall] at hsame
  obtain ⟨op, rfl, hsets, i, hi, hu, hsecond⟩ := hsame
  obtain ⟨a, happly⟩ := apply_of_sets hash s.clock hsets
  obtain ⟨-, ⟨-, b, hb, hmtime⟩ | ⟨hnot, -⟩⟩ := apply_sets happly
  · refine ⟨_, by simp only [step, exec_program, happly]; rfl, fun hblocked => ?_⟩
    have hrevoked : (i.after op).revoked = true := by simp [Issue.after, hu]
    have hmem : i.after op ∈ s.issued.map (·.after op) := List.mem_map_of_mem hi
    refine not_blocked_of_same_second (i.after op) b (hinv i hi).token ?_ ?_
      (hblocked (i.after op) hmem hrevoked)
    · simpa [Issue.after, hu] using hb
    · exact ⟨_, hmtime, hsecond⟩
  · exact absurd hsets hnot

end ManagerRun

/-- Every revoked token is blocked in every state of the run if and only if
every password is set in a later second than the tokens of its account. -/
theorem revoked_blocked_iff (hash : GoString → GoString) (accounts : AccountsSecret) (clock : Int)
    (events : List ManagerEvent) :
    Always (ManagerRun.step hash) ManagerRun.RevokedBlocked (.start accounts clock) events ↔
      AlongRun (ManagerRun.step hash) LaterSecond (.start accounts clock) events :=
  always_iff_alongRun (fun s => ∀ i ∈ s.issued, ManagerRun.IssueInv s i)
    (fun _ _ _ hinv hlater h => ManagerRun.issueInv_step hinv hlater h)
    (fun _ hinv => ManagerRun.revokedBlocked_of_inv hinv)
    (fun _ _ hinv hsame => ManagerRun.not_revokedBlocked_of_same_second hash hinv hsame)
    (fun _ hi => nomatch hi)

def changeAfterLogin (ops : List AccountOp) : List ManagerEvent :=
  [.issue (ascii "u") 3600 (ascii "id"), .tick 500000000] ++ ops.map .account

theorem revoked_token_usable :
    (∃ s i, run (ManagerRun.step sampleHash) (.start (secretWith (ascii "u")) 1000000000)
        (changeAfterLogin [.setPassword (ascii "u") (ascii "q") true]) = some s ∧
      i ∈ s.issued ∧ i.revoked = true ∧
      managerIsBlocked (some s.accounts.value) (some emptyBlocklist) (some i.token) = .ok false) ∧
    ∃ s i, run (ManagerRun.step sampleHash) (.start (secretWith (ascii "u")) 1000000000)
        (changeAfterLogin [.delete (ascii "u"), .create (ascii "u") (ascii "q")]) = some s ∧
      i ∈ s.issued ∧ i.revoked = true ∧
      managerIsBlocked (some s.accounts.value) (some emptyBlocklist) (some i.token) =
        .ok false := by
  refine ⟨⟨_, _, rfl, List.mem_cons_self, rfl, ?_⟩, ⟨_, _, rfl, List.mem_cons_self, rfl, ?_⟩⟩
  all_goals decide +kernel

end OpenEverest.Session
