import OpenEverest.Framework.Linearization
import OpenEverest.Accounts.Store

/-!
# Concurrent account operations

An operation checks one copy of the secret and writes over another, so the
version that guards its write is not that of the users it checked. The store is
linearizable as long as what an operation relies on is the same in both copies.
-/

namespace OpenEverest.Accounts

open Framework GoString

/-- The copy written over still shows what the operation took from the first. -/
def AccountOp.Undisturbed (first second : AccountsSecret) : AccountOp → Prop
  | .create u _ => second.users u = none
  | .setPassword u _ _ => ∀ a, first.users u = some a → ∃ b, second.users u = some b ∧
      b.enabled = a.enabled ∧ b.capabilities = a.capabilities
  | .delete u => (second.users u).isSome ∧ ∀ v, v ≠ u → second.users v = first.users v

/-- An update is sent for the second copy read. Over an undisturbed copy it is
the one the operation makes alone. -/
def SendsFor (hash : GoString → GoString) (op : AccountOp)
    (reads : List (Versioned AccountsSecret)) (rv : Nat) (v : AccountsSecret) : Prop :=
  ∃ second first now, reads = [second, first] ∧ rv = second.resourceVersion ∧
    (op.Undisturbed first.value second.value → op.apply hash now second.value = .ok v)

private theorem updated_sends {Φ : List (Versioned AccountsSecret) → Nat → AccountsSecret → Prop}
    {reads : List (Versioned AccountsSecret)} (ok : Bool) : Sends Φ reads (updated ok) := .done _

private theorem insert_sends {hash : GoString → GoString} {op : AccountOp}
    (first : Versioned AccountsSecret) (now : Int) (username : GoString) (account : Account)
    (secure : Bool)
    (h : ∀ second : Versioned AccountsSecret, op.Undisturbed first.value second.value →
      op.apply hash now second.value = .ok (second.value.insert username account secure)) :
    Sends (SendsFor hash op) [first] (insertOrUpdateAccount username account secure) := by
  refine .get (.done _) fun second => ?_
  exact .update ⟨second, first, now, rfl, rfl, h second⟩ updated_sends

theorem program_sends (hash : GoString → GoString) (op : AccountOp) :
    Sends (SendsFor hash op) [] (op.program hash) := by
  cases op with
  | create u p =>
    refine .get (.done _) fun first => ?_
    simp only [get, listAllAccounts, Option.map_some, bind, Except.bind]
    cases hu : first.value.users u with
    | some a => exact .done _
    | none =>
      by_cases hp : p = []
      · simpa only [hp, if_true] using .done _
      · simp only [hp, if_false]
        refine .now fun now => insert_sends first now u _ true fun second hsame => ?_
        have hnone : second.value.users u = none := hsame
        simp [AccountOp.apply, hnone, hp]
  | setPassword u p secure =>
    refine .get (.done _) fun first => ?_
    simp only [get, listAllAccounts, Option.map_some, bind, Except.bind]
    cases hu : first.value.users u with
    | none => exact .done _
    | some a =>
      refine .now fun now => insert_sends first now u _ secure fun second hsame => ?_
      obtain ⟨b, hb, henabled, hcapabilities⟩ := hsame a hu
      simp [AccountOp.apply, hb, henabled, hcapabilities]
  | delete u =>
    refine .get (.done _) fun first => ?_
    simp only [listAllAccounts, Option.map_some]
    cases hu : first.value.users u with
    | none => exact .done _
    | some a =>
      refine .get (.done _) fun second => .update ?_ updated_sends
      refine ⟨second, first, 0, rfl, rfl, fun hsame => ?_⟩
      obtain ⟨b, hb⟩ := Option.isSome_iff_exists.mp hsame.1
      have husers : Function.update second.value.users u none =
          Function.update first.value.users u none := by
        funext v
        by_cases hv : v = u
        · simp [hv]
        · simp [hv, hsame.2 v hv]
      simp [AccountOp.apply, hb, AccountsSecret.remove, husers]

private theorem insert_writesLast (username : GoString) (account : Account) (secure : Bool) :
    WritesLast (insertOrUpdateAccount username account secure) := by
  refine .get fun copy => ?_
  cases copy with
  | none => exact .error _
  | some second => exact .update rfl (.error _)

theorem program_writesLast (hash : GoString → GoString) (op : AccountOp) :
    WritesLast (op.program hash) := by
  cases op with
  | create u p =>
    refine .get fun copy => ?_
    split
    · exact .error _
    · split
      · exact .error _
      · exact .now fun now => insert_writesLast u _ true
    · exact .error _
  | setPassword u p secure =>
    refine .get fun copy => ?_
    split
    · exact .error _
    · exact .now fun now => insert_writesLast u _ secure
  | delete u =>
    refine .get fun copy => ?_
    split
    · exact .error _
    · split
      · exact .error _
      · refine .get fun copy => ?_
        cases copy with
        | none => exact .error _
        | some second => exact .update rfl (.error _)

private theorem create_succeeds (hash : GoString → GoString) (o : Versioned AccountsSecret)
    (u p : GoString) (hp : p ≠ []) (hu : o.value.users u = none) :
    Succeeds o (create hash u p) := by
  refine .get ?_
  simp only [get, listAllAccounts, Option.map_some, bind, Except.bind, hu, hp, if_false]
  exact .now fun now => .get (.update _ _)

section Interleaving

variable {ι : Type*} [DecidableEq ι] (hash : GoString → GoString) (op : ι → AccountOp)

def programs (i : ι) : AccountsClient := (op i).program hash

/-- The operation whose update is about to be applied is undisturbed. -/
def StepUndisturbed (s : System ι AccountsSecret (Except AccountError Unit))
    (m : Move ι AccountsSecret) : Prop :=
  ∀ i first second, m = .call i → s.reads i = [second, first] →
    second.resourceVersion = s.store.resourceVersion →
    (op i).Undisturbed first.value second.value

variable {hash op}

omit [DecidableEq ι] in
private theorem commitsAlone {s : System ι AccountsSecret (Except AccountError Unit)}
    {m : Move ι AccountsSecret} (h : Tracked (fun i => SendsFor hash (op i)) s)
    (hm : StepUndisturbed op s m) : CommitsAlone (programs hash op) s m := by
  intro i v k hmi hi
  cases h.sends_at hi with
  | update hsent _ =>
    obtain ⟨second, first, now, hreads, hrv, hv⟩ := hsent
    have hsnap := h.snapshot i second (by simp [hreads])
    have happly := hv (hm i first second hmi hreads hrv.symm)
    rw [hsnap.value_eq hrv.symm] at happly
    exact ⟨now, 0, (), by rw [programs, exec_program, happly]⟩

omit [DecidableEq ι] in
theorem applies_iff (i : ι) (v v' : AccountsSecret) :
    Applies (programs hash op i) v v' ↔ ∃ now, (op i).apply hash now v = .ok v' := by
  simp only [Applies, programs, exec_program]
  constructor
  · rintro ⟨now, rv, a, h⟩
    refine ⟨now, ?_⟩
    cases happly : (op i).apply hash now v with
    | error e => simp [happly] at h
    | ok w => simpa [happly] using h
  · rintro ⟨now, h⟩
    exact ⟨now, 0, (), by rw [h]⟩

theorem apply_user {now : Int} {s s' : AccountsSecret} {o : AccountOp}
    (h : o.apply hash now s = .ok s') (u : GoString) :
    (∃ p, o = .create u p ∧ s.users u = none ∧ (s'.users u).isSome) ∨
      (o = .delete u ∧ s'.users u = none) ∨
      ((∀ p, o ≠ .create u p) ∧ o ≠ .delete u ∧ ((s'.users u).isSome ↔ (s.users u).isSome)) := by
  cases o with
  | create v p =>
    simp only [AccountOp.apply] at h
    cases hv : s.users v with
    | some a => simp [hv] at h
    | none =>
      by_cases hp : p = []
      · simp [hv, hp] at h
      · simp only [hv, hp, if_false, Except.ok.injEq] at h
        by_cases huv : u = v
        · subst huv
          exact .inl ⟨p, rfl, hv, by simp [← h, AccountsSecret.insert]⟩
        · exact .inr (.inr ⟨by simp [Ne.symm huv], by simp,
            by simp [← h, AccountsSecret.insert, huv]⟩)
  | setPassword v p secure =>
    simp only [AccountOp.apply] at h
    cases hv : s.users v with
    | none => simp [hv] at h
    | some a =>
      simp only [hv, Except.ok.injEq] at h
      refine .inr (.inr ⟨by simp, by simp, ?_⟩)
      by_cases huv : u = v
      · subst huv
        simp [← h, AccountsSecret.insert, hv]
      · simp [← h, AccountsSecret.insert, huv]
  | delete v =>
    simp only [AccountOp.apply] at h
    cases hv : s.users v with
    | none => simp [hv] at h
    | some a =>
      simp only [hv, Except.ok.injEq] at h
      by_cases huv : u = v
      · subst huv
        exact .inr (.inl ⟨rfl, by simp [← h, AccountsSecret.remove]⟩)
      · exact .inr (.inr ⟨by simp, by simp [Ne.symm huv], by simp [← h, AccountsSecret.remove, huv]⟩)

omit [DecidableEq ι] in
/-- A user that was created stays, whatever is done to the other users. -/
theorem sequential_created {order : List ι} {v v' : AccountsSecret}
    (h : Sequential (programs hash op) v order v') (u : GoString)
    (hdelete : ∀ j ∈ order, op j ≠ .delete u) {i : ι} (hi : i ∈ order) {p : GoString}
    (hcreate : op i = .create u p) : (v'.users u).isSome := by
  induction h with
  | nil => cases hi
  | @snoc order v' v'' k h hk ih =>
    obtain ⟨now, happly⟩ := (applies_iff k v' v'').mp hk
    rcases apply_user happly u with ⟨_, -, -, hsome⟩ | ⟨hdel, -⟩ | ⟨hne, -, hsame⟩
    · exact hsome
    · exact absurd hdel (hdelete k (by simp))
    · have hik : i ≠ k := fun he => hne p (he ▸ hcreate)
      have hi' : i ∈ order := by simpa [hik] using hi
      exact hsame.mpr (ih (fun j hj => hdelete j (by simp [hj])) hi')

omit [DecidableEq ι] in
theorem sequential_deleted {order : List ι} {v v' : AccountsSecret}
    (h : Sequential (programs hash op) v order v') (u : GoString) {j : ι} (hj : j ∈ order)
    (hdelete : op j = .delete u) (hback : (v'.users u).isSome) :
    ∃ i p, op i = .create u p ∧ [j, i].Sublist order := by
  induction h with
  | nil => cases hj
  | @snoc order v' v'' k h hk ih =>
    obtain ⟨now, happly⟩ := (applies_iff k v' v'').mp hk
    rcases apply_user happly u with ⟨p, hcreate, -, -⟩ | ⟨-, hnone⟩ | ⟨-, hne, hsame⟩
    · have hjk : j ≠ k := by
        rintro rfl
        simp [hdelete] at hcreate
      have hj' : j ∈ order := by simpa [hjk] using hj
      exact ⟨k, p, hcreate, (List.singleton_sublist.mpr hj').append (List.Sublist.refl [k])⟩
    · simp [hnone] at hback
    · have hjk : j ≠ k := fun he => hne (he ▸ hdelete)
      have hj' : j ∈ order := by simpa [hjk] using hj
      obtain ⟨i, p, hi, hsub⟩ := ih hj' (hsame.mp hback)
      exact ⟨i, p, hi, hsub.trans (List.sublist_append_left _ _)⟩

omit [DecidableEq ι] in
/-- Of creations of one user alone, at most one succeeds. -/
theorem sequential_creates {order : List ι} {v v' : AccountsSecret}
    (h : Sequential (programs hash op) v order v') (u : GoString)
    (hcreate : ∀ i ∈ order, ∃ p, op i = .create u p) : order.length ≤ 1 := by
  cases h with
  | nil => simp
  | @snoc order v' _ k h hk =>
    obtain ⟨now, happly⟩ := (applies_iff k v' _).mp hk
    obtain ⟨p, hp⟩ := hcreate k (by simp)
    have hnone : v'.users u = none := by
      rcases apply_user happly u with ⟨_, -, hnone, -⟩ | ⟨hdel, -⟩ | ⟨hne, -, -⟩
      · exact hnone
      · simp [hp] at hdel
      · exact absurd hp (hne p)
    cases order with
    | nil => simp
    | cons i order =>
      obtain ⟨q, hq⟩ := hcreate i (by simp)
      have hno : ∀ j ∈ i :: order, op j ≠ .delete u := by
        intro j hj
        obtain ⟨r, hr⟩ := hcreate j (List.mem_append_left _ hj)
        simp [hr]
      have hsome := sequential_created h u hno (by simp) hq
      simp [hnone] at hsome

/-- In a run whose applied updates were all undisturbed, the store is that of
the successful operations in the order of their updates; and of creations of an
absent user that only compete with each other, exactly one succeeds. -/
theorem accounts_linearizable (hash : GoString → GoString) (op : ι → AccountOp)
    (secret : AccountsSecret) (clock : Int) (ms : List (Move ι AccountsSecret))
    (s : System ι AccountsSecret (Except AccountError Unit))
    (hanswered : ∀ m ∈ ms, m.Answered)
    (hrun : run System.step (.start secret clock (programs hash op)) ms = some s)
    (hundisturbed : AlongRun System.step (StepUndisturbed op)
      (.start secret clock (programs hash op)) ms) :
    Linearizes (programs hash op) secret clock ms s s.commits ∧
      ∀ (u : GoString) (C : Set ι), C.Nonempty → secret.users u = none →
        (∀ i ∈ C, ∃ p, p ≠ [] ∧ op i = .create u p) → (∀ i ∈ C, ∃ r, s.client i = .done r) →
        (∀ i ∈ s.commits, i ∈ C) → (∀ m ∈ ms, m.Direct) →
        ∃! i, i ∈ C ∧ s.client i = .done (.ok ()) := by
  have hstart : Tracked (fun i => SendsFor hash (op i))
      (.start secret clock (programs hash op)) := .start fun i => program_sends hash (op i)
  have halone : AlongRun System.step (CommitsAlone (programs hash op))
      (.start secret clock (programs hash op)) ms :=
    hundisturbed.imp (Tracked fun i => SendsFor hash (op i)) (fun _ _ _ ht _ hm => ht.step hm)
      (fun _ _ ht hm => commitsAlone ht hm) hstart
  have hlin := linearizes_commits (fun i => program_writesLast hash (op i)) hanswered hrun halone
  refine ⟨hlin, ?_⟩
  intro u C ⟨c, hc⟩ habsent hcreate hdone honly hdirect
  have hsome : s.commits ≠ [] := by
    intro hnil
    obtain ⟨p, hp, hop⟩ := hcreate c hc
    have hsucc : Succeeds ⟨0, secret⟩ (programs hash op c) := by
      rw [programs, hop]
      exact create_succeeds hash ⟨0, secret⟩ u p hp habsent
    have hend := succeeds_until_commit hsucc hdirect hrun hnil
    obtain ⟨r, hr⟩ := hdone c hc
    rw [hr] at hend
    cases hend
  have hone : s.commits.length ≤ 1 := by
    refine sequential_creates hlin.sequential u fun i hi => ?_
    obtain ⟨p, -, hop⟩ := hcreate i (honly i hi)
    exact ⟨p, hop⟩
  obtain ⟨i, hi⟩ := List.length_eq_one_iff.mp
    (Nat.le_antisymm hone (List.length_pos_iff.mpr hsome))
  have hmem (j : ι) : s.client j = .done (.ok ()) ↔ j = i := by
    have hj := hlin.mem_iff j
    rw [hi, List.mem_singleton] at hj
    rw [hj]
    exact ⟨fun hok => ⟨(), hok⟩, fun ⟨_, hok⟩ => hok⟩
  exact ⟨i, ⟨honly i (by simp [hi]), (hmem i).mpr rfl⟩, fun j hj => (hmem j).mp hj.2⟩

end Interleaving

def createA : AccountOp := .create (ascii "a") (ascii "p")

def deleteA : AccountOp := .delete (ascii "a")

def deleteB : AccountOp := .delete (ascii "b")

def lockstep : List (Move Bool AccountsSecret) :=
  [.call true, .call false, .call true, .call false, .call true, .call false, .call true,
    .call false]

theorem accounts_linearizable_sample :
    ∃ s, run System.step (.start noAccounts 0 (programs sampleHash fun _ => createA)) lockstep =
        some s ∧
      Linearizes (programs sampleHash fun _ => createA) noAccounts 0 lockstep s s.commits ∧
      ∃! i, i ∈ Set.univ ∧ s.client i = .done (.ok ()) := by
  refine ⟨_, rfl, ?_⟩
  have h := accounts_linearizable sampleHash (fun _ => createA) noAccounts 0 lockstep _
    (by simp [lockstep, Move.Answered]) rfl ?_
  · refine ⟨h.1, h.2 (ascii "a") Set.univ ⟨true, trivial⟩ rfl ?_ ?_ ?_ ?_⟩
    · exact fun i _ => ⟨ascii "p", by decide, rfl⟩
    · intro i _
      cases i
      · exact ⟨_, rfl⟩
      · exact ⟨_, rfl⟩
    · exact fun i _ => trivial
    · simp [lockstep, Move.Direct]
  · refine .cons ?_ rfl (.cons ?_ rfl (.cons ?_ rfl (.cons ?_ rfl (.cons ?_ rfl
      (.cons ?_ rfl (.cons ?_ rfl (.cons ?_ rfl trivial)))))))
    all_goals
      intro i first second hi hreads hrv
      cases hi
      cases hreads
    · rfl
    · cases hrv

/-- The deletion of `b` reads before, and writes after, the creation of `a`. -/
def deleteAcrossCreate : List (Move Bool AccountsSecret) :=
  [.call false, .call true, .call true, .call true, .call true, .call false, .call false]

def createAcrossCreate : List (Move Bool AccountsSecret) :=
  [.call false, .call true, .call true, .call true, .call true, .call false, .call false,
    .call false]

def setAcrossDelete : List (Move Bool AccountsSecret) :=
  [.call true, .call false, .call false, .call false, .call true, .call true, .call true]

/-- Two creations of `a` and one of `c`. -/
def threeCreates : Option Bool → AccountOp
  | none => .create (ascii "c") (ascii "p")
  | some _ => createA

/-- The creation of `c` is made between the last reads and the writes of the others. -/
def createAcrossCreates : List (Move (Option Bool) AccountsSecret) :=
  [.call (some true), .call (some true), .call (some true), .call (some false),
    .call (some false), .call (some false), .call none, .call none, .call none, .call none,
    .call (some true), .call (some false)]

/-- Three runs in which both operations succeed and no order of them explains
the store: the deletion of one user undoes the creation of another, a user is
created twice, and a deleted user comes back. In a fourth run both creations of
one user are refused. -/
theorem accounts_not_linearizable :
    (∃ s, run System.step (.start (secretWith (ascii "b")) 0
        (programs sampleHash (bif · then createA else deleteB))) deleteAcrossCreate = some s ∧
      (∀ i, s.client i = .done (.ok ())) ∧
      ¬ ∃ order, Linearizes (programs sampleHash (bif · then createA else deleteB))
        (secretWith (ascii "b")) 0 deleteAcrossCreate s order) ∧
    (∃ s, run System.step (.start noAccounts 0 (programs sampleHash fun _ => createA))
        createAcrossCreate = some s ∧
      (∀ i, s.client i = .done (.ok ())) ∧
      ¬ ∃ order, Linearizes (programs sampleHash fun _ => createA) noAccounts 0
        createAcrossCreate s order) ∧
    (∃ s, run System.step (.start noAccounts 0 (programs sampleHash threeCreates))
        createAcrossCreates = some s ∧
      ∀ b, ∃ e, s.client (some b) = .done (.error e)) ∧
    ∃ s, run System.step (.start (secretWith (ascii "a")) 0 (programs sampleHash
        (bif · then .setPassword (ascii "a") (ascii "q") true else deleteA))) setAcrossDelete =
          some s ∧
      (∀ i, s.client i = .done (.ok ())) ∧
      ¬ ∃ order, Linearizes (programs sampleHash
        (bif · then .setPassword (ascii "a") (ascii "q") true else deleteA))
        (secretWith (ascii "a")) 0 setAcrossDelete s order := by
  refine ⟨⟨_, rfl, fun i => by cases i <;> rfl, ?_⟩, ⟨_, rfl, fun i => by cases i <;> rfl, ?_⟩,
    ⟨_, rfl, fun b => by cases b <;> exact ⟨_, rfl⟩⟩, ⟨_, rfl, fun i => by cases i <;> rfl, ?_⟩⟩
  · rintro ⟨order, h⟩
    have hcreate : true ∈ order := (h.mem_iff true).mpr ⟨(), rfl⟩
    have hkept := sequential_created h.sequential (ascii "a")
      (fun j _ => by cases j <;> decide) hcreate rfl
    revert hkept
    decide +kernel
  · rintro ⟨order, h⟩
    have hfirst : true ∈ order := (h.mem_iff true).mpr ⟨(), rfl⟩
    have hsecond : false ∈ order := (h.mem_iff false).mpr ⟨(), rfl⟩
    have hone := sequential_creates h.sequential (ascii "a") fun i _ => ⟨ascii "p", rfl⟩
    have hpair := (List.subperm_of_subset (by decide : [true, false].Nodup)
      (by simp [hfirst, hsecond] : [true, false] ⊆ order)).length_le
    have htwo : 2 ≤ order.length := hpair
    omega
  · rintro ⟨order, h⟩
    have hdelete : false ∈ order := (h.mem_iff false).mpr ⟨(), rfl⟩
    obtain ⟨i, p, hi, -⟩ := sequential_deleted h.sequential (ascii "a") hdelete rfl
      (by decide +kernel)
    cases i <;> cases hi

end OpenEverest.Accounts
