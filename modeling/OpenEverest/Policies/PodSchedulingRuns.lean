import OpenEverest.Framework.Run
import OpenEverest.Policies.PodScheduling

/-!
# Interleaved requests on pod-scheduling policies

Any number of requests are on their way through the handlers at once, while other
clients of the API server change the finalizers of policies and the RBAC policy is
replaced. A request is validated, authorized and applied in three separate steps.
-/

namespace OpenEverest.Policies

open Framework GoString

variable {ι A : Type}

/-- `revision` is that of the server the request came to. -/
structure PolicyRequest (A : Type) where
  user : Rbac.User
  operation : PolicyOperation A
  revision : Nat

def PolicyRequest.IssuedVersion (r : PolicyRequest A) : Prop :=
  ∀ policyName psp rv, r.operation = .update policyName psp → psp.resourceVersion = some rv →
    rv ≤ r.revision

/-- The server as it was when the request was validated. -/
structure Checked (A : Type) where
  request : PolicyRequest A
  server : PolicyServer A

inductive RequestState (A : Type) where
  | idle
  | received (r : PolicyRequest A)
  | validated (c : Checked A)
  | authorized (c : Checked A)
  | answered (result : Except Refusal Unit)

structure PolicySystem (ι A : Type) where
  server : PolicyServer A
  policy : Rbac.Policy
  request : ι → RequestState A

/-- `fail` is a call to the API server that does not come through; `finalizers` is the
write of another client, made from the stored version. -/
inductive PolicyMove (ι A : Type) where
  | submit (i : ι) (user : Rbac.User) (operation : PolicyOperation A)
  | validate (i : ι)
  | authorize (i : ι)
  | apply (i : ι)
  | fail (i : ι)
  | finalizers (name : GoString) (finalizers : List GoString)
  | setPolicy (policy : Rbac.Policy)

namespace RequestState

/-- The request has been validated, and its write is still to come. -/
def pending : RequestState A → Option (Checked A)
  | .validated c => some c
  | .authorized c => some c
  | _ => none

end RequestState

namespace PolicySystem

variable [DecidableEq ι]

def goto (s : PolicySystem ι A) (i : ι) (r : RequestState A) : PolicySystem ι A :=
  { s with request := Function.update s.request i r }

variable [DecidableEq A]

def step (validateRFC1035 : ValidateRFC1035) (s : PolicySystem ι A) :
    PolicyMove ι A → Option (PolicySystem ι A)
  | .submit i user operation =>
    match s.request i with
    | .idle => some (s.goto i (.received ⟨user, operation, s.server.revision⟩))
    | _ => none
  | .validate i =>
    match s.request i with
    | .received r =>
      match r.operation.validate validateRFC1035 s.server with
      | .ok () => some (s.goto i (.validated ⟨r, s.server⟩))
      | .error e => some (s.goto i (.answered (.error e)))
    | _ => none
  | .authorize i =>
    match s.request i with
    | .validated c =>
      match c.request.operation.authorize (Rbac.policyHandler s.policy c.request.user) with
      | .ok () => some (s.goto i (.authorized c))
      | .error e => some (s.goto i (.answered (.error e)))
    | _ => none
  | .apply i =>
    match s.request i with
    | .authorized c =>
      match c.request.operation.apply s.server with
      | .ok server => some { s.goto i (.answered (.ok ())) with server }
      | .error e => some (s.goto i (.answered (.error (.api e))))
    | _ => none
  | .fail i =>
    match s.request i with
    | .received _ => some (s.goto i (.answered (.error (.api .invalid))))
    | .authorized _ => some (s.goto i (.answered (.error (.api .invalid))))
    | _ => none
  | .finalizers name finalizers =>
    match s.server.objects name with
    | none => none
    | some o =>
      match s.server.update name ⟨some o.resourceVersion, finalizers, o.value⟩ with
      | .ok server => some { s with server }
      | .error _ => none
  | .setPolicy policy => some { s with policy }

variable {validateRFC1035 : ValidateRFC1035} {s t : PolicySystem ι A} {m : PolicyMove ι A}

/-! ### What one step can do -/

/-- The request of `i` moves on, to a state without a write to come or by one of the checks. -/
inductive Advance (validateRFC1035 : ValidateRFC1035) (s : PolicySystem ι A) (i : ι) :
    PolicyMove ι A → RequestState A → Prop where
  | submit (user : Rbac.User) (operation : PolicyOperation A) :
      Advance validateRFC1035 s i (.submit i user operation)
        (.received ⟨user, operation, s.server.revision⟩)
  | validate (r : PolicyRequest A) (hi : s.request i = .received r)
      (hok : r.operation.validate validateRFC1035 s.server = .ok ()) :
      Advance validateRFC1035 s i (.validate i) (.validated ⟨r, s.server⟩)
  | authorize (c : Checked A) (hi : s.request i = .validated c)
      (hok : c.request.operation.authorize (Rbac.policyHandler s.policy c.request.user) = .ok ()) :
      Advance validateRFC1035 s i (.authorize i) (.authorized c)
  | answer (m : PolicyMove ι A) (result : Except Refusal Unit) :
      Advance validateRFC1035 s i m (.answered result)

/-- Everything one step can do. -/
inductive Effect (validateRFC1035 : ValidateRFC1035) (s : PolicySystem ι A) :
    PolicyMove ι A → PolicySystem ι A → Prop where
  | advance (m : PolicyMove ι A) (i : ι) (r : RequestState A)
      (h : Advance validateRFC1035 s i m r) : Effect validateRFC1035 s m (s.goto i r)
  | write (i : ι) (c : Checked A) (server : PolicyServer A) (hi : s.request i = .authorized c)
      (hok : c.request.operation.apply s.server = .ok server) :
      Effect validateRFC1035 s (.apply i) { s.goto i (.answered (.ok ())) with server }
  | finalizers (name : GoString) (finalizers : List GoString) (o : StoredPolicy A)
      (server : PolicyServer A) (ho : s.server.objects name = some o)
      (hok : s.server.update name ⟨some o.resourceVersion, finalizers, o.value⟩ = .ok server) :
      Effect validateRFC1035 s (.finalizers name finalizers) { s with server }
  | setPolicy (policy : Rbac.Policy) : Effect validateRFC1035 s (.setPolicy policy) { s with policy }

theorem step_effect (h : s.step validateRFC1035 m = some t) : Effect validateRFC1035 s m t := by
  cases m with
  | submit i user operation =>
    simp only [step] at h
    split at h
    · obtain rfl := Option.some.inj h
      exact .advance _ i _ (.submit user operation)
    · cases h
  | validate i =>
    simp only [step] at h
    split at h
    · rename_i r hi
      split at h
      · obtain rfl := Option.some.inj h
        exact .advance _ i _ (.validate r hi ‹_›)
      · obtain rfl := Option.some.inj h
        exact .advance _ i _ (.answer _ _)
    · cases h
  | authorize i =>
    simp only [step] at h
    split at h
    · rename_i c hi
      split at h
      · obtain rfl := Option.some.inj h
        exact .advance _ i _ (.authorize c hi ‹_›)
      · obtain rfl := Option.some.inj h
        exact .advance _ i _ (.answer _ _)
    · cases h
  | apply i =>
    simp only [step] at h
    split at h
    · rename_i c hi
      split at h
      · rename_i server hok
        obtain rfl := Option.some.inj h
        exact .write i c server hi hok
      · obtain rfl := Option.some.inj h
        exact .advance _ i _ (.answer _ _)
    · cases h
  | fail i =>
    simp only [step] at h
    split at h
    · obtain rfl := Option.some.inj h
      exact .advance _ i _ (.answer _ _)
    · obtain rfl := Option.some.inj h
      exact .advance _ i _ (.answer _ _)
    · cases h
  | finalizers name fin =>
    simp only [step] at h
    split at h
    · cases h
    · rename_i o ho
      split at h
      · rename_i server hok
        obtain rfl := Option.some.inj h
        exact .finalizers name fin o server ho hok
      · cases h
  | setPolicy policy =>
    obtain rfl := Option.some.inj h
    exact .setPolicy policy

end PolicySystem

theorem PolicyOperation.apply_change [DecidableEq A] {op : PolicyOperation A}
    {s t : PolicyServer A} (h : op.apply s = .ok t) : ApiServer.Change s op.name t := by
  cases op with
  | create psp => exact ApiServer.create_change h
  | update policyName psp => exact ApiServer.update_change h
  | delete policyName => exact ApiServer.delete_change h

namespace PolicySystem

variable [DecidableEq ι] [DecidableEq A] {validateRFC1035 : ValidateRFC1035}
  {s t : PolicySystem ι A} {m : PolicyMove ι A} {ms : List (PolicyMove ι A)}

theorem step_server (h : s.step validateRFC1035 m = some t) :
    t.server = s.server ∨
      (∃ i c, m = .apply i ∧ s.request i = .authorized c ∧
        c.request.operation.apply s.server = .ok t.server) ∨
      ∃ name fin o, m = .finalizers name fin ∧ s.server.objects name = some o ∧
        s.server.update name ⟨some o.resourceVersion, fin, o.value⟩ = .ok t.server := by
  cases step_effect h with
  | advance m i r hadv => exact .inl rfl
  | write i c server hi hok => exact .inr (.inl ⟨i, c, rfl, hi, hok⟩)
  | finalizers name fin o server ho hok => exact .inr (.inr ⟨name, fin, o, rfl, ho, hok⟩)
  | setPolicy policy => exact .inl rfl

theorem step_evolves (h : s.step validateRFC1035 m = some t) :
    ApiServer.Evolves s.server t.server := by
  rcases step_server h with he | ⟨i, c, -, -, hok⟩ | ⟨name, fin, o, -, -, hok⟩
  · rw [he]
    exact .refl _
  · exact (PolicyOperation.apply_change hok).evolves
  · exact (ApiServer.update_change hok).evolves

theorem step_pending (h : s.step validateRFC1035 m = some t) {i : ι} {c : Checked A}
    (hc : (t.request i).pending = some c) :
    (s.request i).pending = some c ∨
      m = .validate i ∧ c.server = s.server ∧ s.request i = .received c.request ∧
        c.request.operation.validate validateRFC1035 s.server = .ok () := by
  have hkeep (j : ι) (r : RequestState A) (hr : r.pending = none)
      (hc : ((s.goto j r).request i).pending = some c) : (s.request i).pending = some c := by
    by_cases hij : i = j
    · subst hij
      simp [goto, hr] at hc
    · simpa [goto, hij] using hc
  cases step_effect h with
  | advance m j r hadv =>
    cases hadv with
    | submit user operation => exact .inl (hkeep j _ rfl hc)
    | answer m result => exact .inl (hkeep j _ rfl hc)
    | validate r hi hok =>
      by_cases hij : i = j
      · subst hij
        obtain rfl : (⟨r, s.server⟩ : Checked A) = c := by
          simpa [goto, RequestState.pending] using hc
        exact .inr ⟨rfl, rfl, hi, hok⟩
      · exact .inl (by simpa [goto, hij] using hc)
    | authorize d hi hok =>
      by_cases hij : i = j
      · subst hij
        obtain rfl : d = c := by simpa [goto, RequestState.pending] using hc
        exact .inl (by simp [hi, RequestState.pending])
      · exact .inl (by simpa [goto, hij] using hc)
  | write j d server hi hok => exact .inl (hkeep j _ rfl hc)
  | finalizers name fin o server ho hok => exact .inl hc
  | setPolicy policy => exact .inl hc

end PolicySystem

section Validate

variable {validateRFC1035 : ValidateRFC1035} {server : PolicyServer A}

theorem mapError_eq_ok {ε ε' : Type} {x : Except ε Unit} {f : ε → ε'} :
    x.mapError f = .ok () ↔ x = .ok () := by
  cases x <;> simp [Except.mapError]

theorem getPodSchedulingPolicy_eq_ok {name : GoString} {o : StoredPolicy A} :
    getPodSchedulingPolicy server name = .ok o ↔ server.objects name = some o := by
  rw [← ApiServer.get_eq_ok, getPodSchedulingPolicy]
  cases server.get name <;> simp [Except.mapError]

theorem validatePSPOnUpdate_eq_ok {psp : PodSchedulingPolicy A} :
    validatePSPOnUpdate server psp = .ok () ↔
      ∃ o, server.objects psp.name = some o ∧ isEverestReadOnlyObject o = false ∧
        o.value.engineType = psp.spec.engineType := by
  rw [validatePSPOnUpdate, bind_eq_ok]
  simp [getPodSchedulingPolicy_eq_ok, check_bind_eq_ok, failIf_eq_ok]

theorem validatePSPOnDelete_eq_ok {name : GoString} :
    validatePSPOnDelete server name = .ok () ↔
      ∃ o, server.objects name = some o ∧ isEverestReadOnlyObject o = false ∧
        isEverestObjectInUse o = false := by
  rw [validatePSPOnDelete, bind_eq_ok]
  simp [getPodSchedulingPolicy_eq_ok, check_bind_eq_ok, failIf_eq_ok]

/-- The spec that a request writes is one `validatePSPCR` accepts. -/
def PolicyOperation.ValidSpec (validateRFC1035 : ValidateRFC1035) : PolicyOperation A → Prop
  | .create psp => ValidPolicy validateRFC1035 psp.name psp.spec
  | .update policyName psp => ValidPolicy validateRFC1035 policyName psp.spec
  | .delete _ => True

theorem validSpec_of_validate {op : PolicyOperation A}
    (h : op.validate validateRFC1035 server = .ok ()) : op.ValidSpec validateRFC1035 := by
  cases op with
  | create psp => exact (validatePSPCR_eq_ok ..).mp (mapError_eq_ok.mp h)
  | update policyName psp =>
    simp only [PolicyOperation.validate, check_bind_eq_ok, mapError_eq_ok] at h
    exact (validatePSPCR_eq_ok ..).mp h.1
  | delete policyName => trivial

theorem validate_update {policyName : GoString} {psp : PodSchedulingPolicy A}
    (h : (PolicyOperation.update policyName psp).validate validateRFC1035 server = .ok ()) :
    ∃ o, server.objects policyName = some o ∧ isEverestReadOnlyObject o = false ∧
      o.value.engineType = psp.spec.engineType := by
  simp only [PolicyOperation.validate, check_bind_eq_ok, mapError_eq_ok] at h
  exact validatePSPOnUpdate_eq_ok.mp h.2

theorem validate_delete {policyName : GoString}
    (h : (PolicyOperation.delete policyName : PolicyOperation A).validate validateRFC1035 server =
      .ok ()) :
    ∃ o, server.objects policyName = some o ∧ isEverestReadOnlyObject o = false ∧
      isEverestObjectInUse o = false :=
  validatePSPOnDelete_eq_ok.mp (mapError_eq_ok.mp h)

end Validate

namespace PolicySystem

variable [DecidableEq ι] [DecidableEq A] {validateRFC1035 : ValidateRFC1035}
  {s t : PolicySystem ι A} {m : PolicyMove ι A} {ms : List (PolicyMove ι A)}

/-- No validated request waits for its write. -/
def Quiet (s : PolicySystem ι A) : Prop := ∀ i, (s.request i).pending = none

section Sample

def samplePolicy (revision : Nat) (finalizers : List GoString) : StoredPolicy Unit :=
  ⟨revision, revision, false, finalizers, ⟨Api.databaseEnginePXC, none⟩⟩

def sampleStart : PolicySystem Bool Unit where
  server :=
    ⟨2, fun name =>
      if name = ascii "default" then some (samplePolicy 1 [readOnlyFinalizer])
      else if name = ascii "custom" then some (samplePolicy 2 []) else none⟩
  policy := fun sub _ _ _ => sub == ascii "ann"
  request := fun _ => .idle

def sampleUpdate : PodSchedulingPolicy Unit :=
  ⟨ascii "custom", some 2, [], ⟨Api.databaseEnginePXC, some ⟨some ⟨some (), none⟩, none, none⟩⟩⟩

/-- An update of the one policy and a deletion of the other, with a write of another client
between the checks and the update. -/
def sampleChecks : List (PolicyMove Bool Unit) :=
  [.submit false ⟨ascii "ann", []⟩ (.update (ascii "custom") sampleUpdate),
    .submit true ⟨ascii "ann", []⟩ (.delete (ascii "default")),
    .validate false, .validate true, .authorize false,
    .finalizers (ascii "default") [readOnlyFinalizer, inUseResourceFinalizer]]

def sampleRFC1035 : ValidateRFC1035 := fun _ _ => .ok ()

end Sample

/-! ### Default policies -/

/-- The policy of `name` is still the default one of `o`, and no update or deletion of
it has passed the checks. -/
structure DefaultKept (name : GoString) (o : StoredPolicy A) (s : PolicySystem ι A) : Prop where
  stored : ∃ o', s.server.objects name = some o' ∧ o'.uid = o.uid ∧ o'.value = o.value ∧
    isEverestReadOnlyObject o' = true
  pending : ∀ i c, (s.request i).pending = some c → c.request.operation.name = name →
    ∃ psp, c.request.operation = .create psp

theorem DefaultKept.step {name : GoString} {o : StoredPolicy A} (hs : DefaultKept name o s)
    (hkeep : ∀ fin, m = .finalizers name fin → readOnlyFinalizer ∈ fin)
    (h : s.step validateRFC1035 m = some t) : DefaultKept name o t := by
  obtain ⟨o', ho', huid, hvalue, hro⟩ := hs.stored
  refine ⟨?_, fun i c hc hname => ?_⟩
  · rcases step_server h with he | ⟨i, c, -, hi, hok⟩ | ⟨other, fin, old, rfl, hold, hok⟩
    · rw [he]
      exact hs.stored
    · by_cases hname : c.request.operation.name = name
      · obtain ⟨psp, hpsp⟩ := hs.pending i c (by simp [hi, RequestState.pending]) hname
        rw [hpsp] at hok hname
        have hfree := (ApiServer.create_eq_ok hok).1
        rw [show psp.name = name from hname, ho'] at hfree
        cases hfree
      · rw [(PolicyOperation.apply_change hok).other (Ne.symm hname)]
        exact hs.stored
    · by_cases hname : other = name
      · subst hname
        have hmem := hkeep fin rfl
        obtain rfl := Option.some.inj (ho'.symm.trans hold)
        obtain ⟨old, hold', -, ⟨-, hgone, -⟩ | ⟨-, -, ht⟩ | ht⟩ := ApiServer.update_eq_ok hok
        · rw [show fin = [] from hgone] at hmem
          cases hmem
        · rw [ht]
          exact hs.stored
        · obtain rfl := Option.some.inj (ho'.symm.trans hold')
          rw [ht]
          exact ⟨_, ApiServer.put_objects_self .., huid, hvalue, by
            simpa [isEverestReadOnlyObject] using hmem⟩
      · rw [(ApiServer.update_change hok).other (Ne.symm hname)]
        exact hs.stored
  · rcases step_pending h hc with hbefore | ⟨-, -, -, hok⟩
    · exact hs.pending i c hbefore hname
    · cases hop : c.request.operation with
      | create psp => exact ⟨psp, rfl⟩
      | update policyName psp =>
        rw [hop] at hok hname
        obtain ⟨old, hold, hnot, -⟩ := validate_update hok
        rw [show policyName = name from hname, ho'] at hold
        obtain rfl := Option.some.inj hold
        simp [hro] at hnot
      | delete policyName =>
        rw [hop] at hok hname
        obtain ⟨old, hold, hnot, -⟩ := validate_delete hok
        rw [show policyName = name from hname, ho'] at hold
        obtain rfl := Option.some.inj hold
        simp [hro] at hnot

/-- Whatever requests are made, in whatever order their steps come, a default policy keeps
its spec and stays in place, as long as no other client takes its finalizer away. -/
theorem run_default_policy {name : GoString} {o : StoredPolicy A} (hquiet : s.Quiet)
    (ho : s.server.objects name = some o) (hdefault : isEverestReadOnlyObject o = true)
    (hkeep : ∀ fin, PolicyMove.finalizers name fin ∈ ms → readOnlyFinalizer ∈ fin)
    (h : run (step validateRFC1035) s ms = some t) :
    ∃ o', t.server.objects name = some o' ∧ o'.uid = o.uid ∧ o'.value = o.value ∧
      isEverestReadOnlyObject o' = true := by
  have h0 : DefaultKept name o s := by
    refine ⟨⟨o, ho, rfl, rfl, hdefault⟩, fun i c hc => ?_⟩
    simp [hquiet i] at hc
  have halong : AlongRun (step validateRFC1035)
      (fun _ m => ∀ fin, m = PolicyMove.finalizers name fin → readOnlyFinalizer ∈ fin) s ms :=
    .of_forall fun m hm fin he => hkeep fin (he ▸ hm)
  exact (run_invariant_along (DefaultKept name o) (fun _ _ _ hs hm h => hs.step hm h) h0 halong
    h).stored

theorem run_default_policy_sample :
    ∃ t, run (step sampleRFC1035) sampleStart (sampleChecks ++ [.apply false]) = some t ∧
      ∃ o', t.server.objects (ascii "default") = some o' ∧ o'.uid = 1 ∧
        o'.value = ⟨Api.databaseEnginePXC, none⟩ ∧ isEverestReadOnlyObject o' = true := by
  have hruns : (run (step sampleRFC1035) sampleStart
      (sampleChecks ++ [.apply false])).isSome = true := by decide +kernel
  obtain ⟨t, ht⟩ := Option.isSome_iff_exists.mp hruns
  refine ⟨t, ht, run_default_policy (fun _ => rfl)
    (show _ = some (samplePolicy 1 [readOnlyFinalizer]) from rfl) (by decide) ?_ ht⟩
  intro fin hfin
  simp only [sampleChecks, List.mem_append, List.mem_cons, PolicyMove.finalizers.injEq,
    reduceCtorEq, false_or, or_false, List.not_mem_nil, true_and] at hfin
  simp [hfin]

/-! ### Valid policies -/

def AllValid (validateRFC1035 : ValidateRFC1035) (server : PolicyServer A) : Prop :=
  ∀ name o, server.objects name = some o → ValidPolicy validateRFC1035 name o.value

omit [DecidableEq ι] [DecidableEq A] in
theorem AllValid.change {server server' : PolicyServer A} {name : GoString}
    (hs : AllValid validateRFC1035 server) (hother : ∀ n, n ≠ name →
      server'.objects n = server.objects n)
    (hname : ∀ o, server'.objects name = some o → ValidPolicy validateRFC1035 name o.value) :
    AllValid validateRFC1035 server' := by
  intro n o ho
  by_cases hn : n = name
  · subst hn
    exact hname o ho
  · rw [hother n hn] at ho
    exact hs n o ho

theorem AllValid.apply {op : PolicyOperation A} {server server' : PolicyServer A}
    (hs : AllValid validateRFC1035 server) (hop : op.ValidSpec validateRFC1035)
    (h : op.apply server = .ok server') : AllValid validateRFC1035 server' := by
  refine hs.change (fun n hn => (PolicyOperation.apply_change h).other hn) fun o ho => ?_
  cases op with
  | create psp =>
    obtain ⟨-, rfl⟩ := ApiServer.create_eq_ok h
    obtain rfl := Option.some.inj ((ApiServer.put_objects_self ..).symm.trans ho)
    exact hop
  | update policyName psp =>
    obtain ⟨old, hold, -, ⟨-, -, rfl⟩ | ⟨-, -, rfl⟩ | rfl⟩ := ApiServer.update_eq_ok h
    · cases (ApiServer.erase_objects_self ..).symm.trans ho
    · exact hs _ o ho
    · obtain rfl := Option.some.inj ((ApiServer.put_objects_self ..).symm.trans ho)
      exact hop
  | delete policyName =>
    obtain ⟨old, hold, ⟨-, rfl⟩ | ⟨-, -, rfl⟩ | ⟨-, -, rfl⟩⟩ := ApiServer.delete_eq_ok h
    · cases (ApiServer.erase_objects_self ..).symm.trans ho
    · exact hs _ o ho
    · obtain rfl := Option.some.inj ((ApiServer.put_objects_self ..).symm.trans ho)
      exact hs _ old hold

theorem AllValid.finalizers {server server' : PolicyServer A} {name : GoString}
    {fin : List GoString} {o : StoredPolicy A} (hs : AllValid validateRFC1035 server)
    (ho : server.objects name = some o)
    (h : server.update name ⟨some o.resourceVersion, fin, o.value⟩ = .ok server') :
    AllValid validateRFC1035 server' := by
  refine hs.change (fun n hn => (ApiServer.update_change h).other hn) fun o' ho' => ?_
  obtain ⟨old, hold, -, ⟨-, -, rfl⟩ | ⟨-, -, rfl⟩ | rfl⟩ := ApiServer.update_eq_ok h
  · cases (ApiServer.erase_objects_self ..).symm.trans ho'
  · exact hs _ o' ho'
  · obtain rfl := Option.some.inj ((ApiServer.put_objects_self ..).symm.trans ho')
    exact hs _ o ho

/-- What is stored is valid, and so is what the requests on their way will write. -/
structure PoliciesValid (validateRFC1035 : ValidateRFC1035) (s : PolicySystem ι A) : Prop where
  stored : AllValid validateRFC1035 s.server
  pending : ∀ i c, (s.request i).pending = some c → c.request.operation.ValidSpec validateRFC1035

theorem PoliciesValid.step (hs : PoliciesValid validateRFC1035 s)
    (h : s.step validateRFC1035 m = some t) : PoliciesValid validateRFC1035 t := by
  refine ⟨?_, fun i c hc => ?_⟩
  · rcases step_server h with he | ⟨i, c, -, hi, hok⟩ | ⟨name, fin, o, -, ho, hok⟩
    · rw [he]
      exact hs.stored
    · exact hs.stored.apply (hs.pending i c (by simp [hi, RequestState.pending])) hok
    · exact hs.stored.finalizers ho hok
  · rcases step_pending h hc with hbefore | ⟨-, -, -, hok⟩
    · exact hs.pending i c hbefore
    · exact validSpec_of_validate hok

/-- In every state reached every stored policy has a valid name and a supported engine type,
and its affinity config, if it has one, passes the check of a cluster that refers to it. -/
theorem run_policies_valid (hquiet : s.Quiet) (hvalid : AllValid validateRFC1035 s.server)
    (h : run (step validateRFC1035) s ms = some t) (name : GoString) (o : StoredPolicy A)
    (ho : t.server.objects name = some o) :
    ValidPolicy validateRFC1035 name o.value ∧
      ∀ c, o.value.affinityConfig = some c →
        Validation.validateDBClusterPSPAffinityConfig o.value.engineType c.present = .ok () := by
  have h0 : PoliciesValid validateRFC1035 s := by
    refine ⟨hvalid, fun i c hc => ?_⟩
    simp [hquiet i] at hc
  have ht := run_invariant (PoliciesValid validateRFC1035) (fun _ _ _ hs h => hs.step h) h0 h
  have hpolicy := ht.stored name o ho
  exact ⟨hpolicy, fun c hc => (hpolicy.affinity_fits c hc).validateDBClusterPSPAffinityConfig⟩

theorem run_policies_valid_sample :
    ∃ t, run (step sampleRFC1035) sampleStart (sampleChecks ++ [.apply false]) = some t ∧
      ∃ o, t.server.objects (ascii "custom") = some o ∧
        o.value.affinityConfig = some ⟨some ⟨some (), none⟩, none, none⟩ ∧
        ValidPolicy sampleRFC1035 (ascii "custom") o.value ∧
        ∀ c, o.value.affinityConfig = some c →
          Validation.validateDBClusterPSPAffinityConfig o.value.engineType c.present = .ok () := by
  have hwritten : ((run (step sampleRFC1035) sampleStart (sampleChecks ++ [.apply false])).bind
      (·.server.objects (ascii "custom"))).map (·.value.affinityConfig) =
        some (some ⟨some ⟨some (), none⟩, none, none⟩) := by decide +kernel
  obtain ⟨o, hbind, haffinity⟩ := Option.map_eq_some_iff.mp hwritten
  obtain ⟨t, ht, ho⟩ := Option.bind_eq_some_iff.mp hbind
  refine ⟨t, ht, o, ho, haffinity, run_policies_valid (fun _ => rfl) ?_ ht _ _ ho⟩
  intro name o ho
  have hspec : o.value = ⟨Api.databaseEnginePXC, none⟩ := by
    simp only [sampleStart] at ho
    split at ho
    · exact (Option.some.inj ho) ▸ rfl
    · split at ho
      · exact (Option.some.inj ho) ▸ rfl
      · cases ho
  rw [hspec]
  exact ⟨rfl, by decide, by simp⟩

/-! ### Engine types -/

/-- Every version submitted with an update is one the server has issued. -/
def IssuedVersion (s : PolicySystem ι A) (m : PolicyMove ι A) : Prop :=
  ∀ i user policyName psp rv, m = .submit i user (.update policyName psp) →
    psp.resourceVersion = some rv → rv ≤ s.server.revision

/-- The requests on their way were validated against earlier states of the server, which
already had the resource versions they send. -/
structure RequestsTracked (validateRFC1035 : ValidateRFC1035) (s : PolicySystem ι A) : Prop where
  received : ∀ i r, s.request i = .received r → r.IssuedVersion ∧ r.revision ≤ s.server.revision
  pending : ∀ i c, (s.request i).pending = some c →
    c.request.IssuedVersion ∧ c.request.revision ≤ c.server.revision ∧
      ApiServer.Evolves c.server s.server ∧
      c.request.operation.validate validateRFC1035 c.server = .ok ()

theorem step_received (h : s.step validateRFC1035 m = some t) {i : ι} {r : PolicyRequest A}
    (hr : t.request i = .received r) :
    s.request i = .received r ∨
      m = .submit i r.user r.operation ∧ r.revision = s.server.revision := by
  have hkeep (j : ι) (x : RequestState A) (hx : ∀ r, x ≠ .received r)
      (hr : (s.goto j x).request i = .received r) : s.request i = .received r := by
    by_cases hij : i = j
    · subst hij
      exact absurd (by simpa [goto] using hr) (hx r)
    · simpa [goto, hij] using hr
  cases step_effect h with
  | advance m j x hadv =>
    cases hadv with
    | submit user operation =>
      by_cases hij : i = j
      · subst hij
        obtain rfl : (⟨user, operation, s.server.revision⟩ : PolicyRequest A) = r := by
          simpa [goto] using hr
        exact .inr ⟨rfl, rfl⟩
      · exact .inl (by simpa [goto, hij] using hr)
    | answer m result => exact .inl (hkeep j _ (fun _ => by simp) hr)
    | validate r hi hok => exact .inl (hkeep j _ (fun _ => by simp) hr)
    | authorize d hi hok => exact .inl (hkeep j _ (fun _ => by simp) hr)
  | write j d server hi hok => exact .inl (hkeep j _ (fun _ => by simp) hr)
  | finalizers name fin o server ho hok => exact .inl hr
  | setPolicy policy => exact .inl hr

theorem RequestsTracked.step (hs : RequestsTracked validateRFC1035 s) (hm : s.IssuedVersion m)
    (h : s.step validateRFC1035 m = some t) : RequestsTracked validateRFC1035 t := by
  have hevolves := step_evolves h
  refine ⟨fun i r hr => ?_, fun i c hc => ?_⟩
  · rcases step_received h hr with hbefore | ⟨rfl, hrev⟩
    · obtain ⟨hissued, hle⟩ := hs.received i r hbefore
      exact ⟨hissued, Nat.le_trans hle hevolves.revision_le⟩
    · refine ⟨fun policyName psp rv hop hrv => ?_, hrev ▸ hevolves.revision_le⟩
      exact hrev ▸ hm i r.user policyName psp rv (by rw [hop]) hrv
  · rcases step_pending h hc with hbefore | ⟨-, hserver, hr, hok⟩
    · obtain ⟨hissued, hle, hev, hvalid⟩ := hs.pending i c hbefore
      exact ⟨hissued, hle, hev.trans hevolves, hvalid⟩
    · obtain ⟨hissued, hle⟩ := hs.received i _ hr
      exact ⟨hissued, hserver ▸ hle, hserver ▸ hevolves, hserver ▸ hok⟩

omit [DecidableEq ι] [DecidableEq A] in
theorem RequestsTracked.replaces_checked (hs : RequestsTracked validateRFC1035 s) {i : ι}
    {c : Checked A} (hc : (s.request i).pending = some c) {policyName : GoString}
    {psp : PodSchedulingPolicy A} (hop : c.request.operation = .update policyName psp)
    {o : StoredPolicy A} (ho : s.server.objects policyName = some o)
    (hrv : psp.resourceVersion = some o.resourceVersion) :
    isEverestReadOnlyObject o = false ∧ o.value.engineType = psp.spec.engineType := by
  obtain ⟨hissued, hle, hev, hvalid⟩ := hs.pending i c hc
  have hold : c.server.objects policyName = some o :=
    hev.same_version policyName o ho (Nat.le_trans (hissued policyName psp _ hop hrv) hle)
  rw [hop] at hvalid
  obtain ⟨o', ho', hnot, htype⟩ := validate_update hvalid
  obtain rfl := Option.some.inj (hold.symm.trans ho')
  exact ⟨hnot, htype⟩

/-- The policy of `name`, while it is the one of `o`, has the engine type of `o`. -/
structure EngineTypeKept (name : GoString) (o : StoredPolicy A) (s : PolicySystem ι A) : Prop where
  created : o.uid ≤ s.server.revision
  stored : ∀ o', s.server.objects name = some o' → o'.uid = o.uid →
    o'.value.engineType = o.value.engineType

theorem EngineTypeKept.step {name : GoString} {o : StoredPolicy A} (hs : EngineTypeKept name o s)
    (htracked : RequestsTracked validateRFC1035 s) (h : s.step validateRFC1035 m = some t) :
    EngineTypeKept name o t := by
  refine ⟨Nat.le_trans hs.created (step_evolves h).revision_le, fun o' ho' huid => ?_⟩
  rcases step_server h with he | ⟨i, c, -, hi, hok⟩ | ⟨other, fin, old, -, hold, hok⟩
  · rw [he] at ho'
    exact hs.stored o' ho' huid
  · by_cases hname : c.request.operation.name = name
    · cases hop : c.request.operation with
      | create psp =>
        rw [hop] at hok hname
        obtain ⟨-, ht⟩ := ApiServer.create_eq_ok hok
        rw [ht, show psp.name = name from hname, ApiServer.put_objects_self] at ho'
        obtain rfl := Option.some.inj ho'
        exact absurd (huid ▸ hs.created) (Nat.not_succ_le_self _)
      | update policyName psp =>
        rw [hop] at hok hname
        obtain rfl : policyName = name := hname
        obtain ⟨old, hold, hrv, ⟨-, -, ht⟩ | ⟨-, -, ht⟩ | ht⟩ := ApiServer.update_eq_ok hok
        · rw [ht, ApiServer.erase_objects_self] at ho'
          cases ho'
        · rw [ht] at ho'
          exact hs.stored o' ho' huid
        · rw [ht, ApiServer.put_objects_self] at ho'
          obtain rfl := Option.some.inj ho'
          have hpending : (s.request i).pending = some c := by simp [hi, RequestState.pending]
          obtain ⟨-, htype⟩ := htracked.replaces_checked hpending hop hold hrv
          exact htype.symm.trans (hs.stored old hold huid)
      | delete policyName =>
        rw [hop] at hok hname
        obtain rfl : policyName = name := hname
        obtain ⟨old, hold, ⟨-, ht⟩ | ⟨-, -, ht⟩ | ⟨-, -, ht⟩⟩ := ApiServer.delete_eq_ok hok
        · rw [ht, ApiServer.erase_objects_self] at ho'
          cases ho'
        · rw [ht] at ho'
          exact hs.stored o' ho' huid
        · rw [ht, ApiServer.put_objects_self] at ho'
          obtain rfl := Option.some.inj ho'
          exact hs.stored old hold huid
    · rw [(PolicyOperation.apply_change hok).other (Ne.symm hname)] at ho'
      exact hs.stored o' ho' huid
  · by_cases hname : name = other
    · subst hname
      obtain ⟨old', hold', -, ⟨-, -, ht⟩ | ⟨-, -, ht⟩ | ht⟩ := ApiServer.update_eq_ok hok
      · rw [ht, ApiServer.erase_objects_self] at ho'
        cases ho'
      · rw [ht] at ho'
        exact hs.stored o' ho' huid
      · obtain rfl := Option.some.inj (hold.symm.trans hold')
        rw [ht, ApiServer.put_objects_self] at ho'
        obtain rfl := Option.some.inj ho'
        exact hs.stored old hold huid
    · rw [(ApiServer.update_change hok).other hname] at ho'
      exact hs.stored o' ho' huid

/-- From its creation to its deletion a policy keeps its engine type, though the check of an
update and its write are two steps. -/
theorem run_engineType_kept {name : GoString} {o o' : StoredPolicy A} (hquiet : s.Quiet)
    (hreceived : ∀ i r, s.request i ≠ .received r) (hwf : s.server.WellFormed)
    (ho : s.server.objects name = some o)
    (hissued : AlongRun (step validateRFC1035) IssuedVersion s ms)
    (h : run (step validateRFC1035) s ms = some t) (ho' : t.server.objects name = some o')
    (huid : o'.uid = o.uid) : o'.value.engineType = o.value.engineType := by
  have hinv := run_invariant_along
    (fun s : PolicySystem ι A => RequestsTracked validateRFC1035 s ∧ EngineTypeKept name o s)
    (fun _ _ _ hs hm h => ⟨hs.1.step hm h, hs.2.step hs.1 h⟩) ?_ hissued h
  · exact hinv.2.stored o' ho' huid
  · obtain ⟨hu, hr⟩ := hwf name o ho
    refine ⟨⟨fun i r hi => absurd hi (hreceived i r), fun i c hc => ?_⟩,
      Nat.le_trans hu hr, fun o' ho' _ => ?_⟩
    · simp [hquiet i] at hc
    · rw [Option.some.inj (ho'.symm.trans ho)]

theorem run_engineType_kept_sample :
    ∃ t, run (step sampleRFC1035) sampleStart (sampleChecks ++ [.apply false]) = some t ∧
      ∃ o', t.server.objects (ascii "custom") = some o' ∧ o'.uid = 2 ∧ o'.resourceVersion ≠ 2 ∧
        o'.value.engineType = Api.databaseEnginePXC := by
  have hwritten : ((run (step sampleRFC1035) sampleStart (sampleChecks ++ [.apply false])).bind
      (·.server.objects (ascii "custom"))).map (fun o => (o.uid, o.resourceVersion)) =
        some (2, 4) := by decide +kernel
  obtain ⟨o', hbind, hversion⟩ := Option.map_eq_some_iff.mp hwritten
  obtain ⟨t, ht, ho'⟩ := Option.bind_eq_some_iff.mp hbind
  obtain ⟨huid, hrv⟩ := Prod.mk.inj hversion
  refine ⟨t, ht, o', ho', huid, by simp [hrv], run_engineType_kept (o := samplePolicy 2 [])
    (fun _ => rfl) (fun _ _ => by simp [sampleStart]) ?_ rfl ?_ ht ho' huid⟩
  · intro name o ho
    simp only [sampleStart] at ho ⊢
    split at ho
    · exact (Option.some.inj ho) ▸ (by decide)
    · split at ho
      · exact (Option.some.inj ho) ▸ (by decide)
      · cases ho
  · refine ⟨fun i user policyName psp rv hm hrv => ?_, fun s' _ => ?_⟩
    · cases hm
      exact (Option.some.inj hrv) ▸ Nat.le_refl 2
    · refine AlongRun.imp (fun _ => True) (fun _ _ _ _ _ _ => trivial) (fun _ _ _ hm => hm _)
        trivial (.of_forall (P := fun m => ∀ s : PolicySystem Bool Unit, s.IssuedVersion m) ?_)
      simp [IssuedVersion]

/-! ### Grants -/

def Granted (policy : Rbac.Policy) (r : PolicyRequest A) : Prop :=
  policy.Allows r.user Rbac.resourcePodSchedulingPolicies r.operation.action
    (Rbac.objectName [r.operation.name])

omit [DecidableEq A] in
theorem granted_of_authorize {policy : Rbac.Policy} {r : PolicyRequest A}
    (h : r.operation.authorize (Rbac.policyHandler policy r.user) = .ok ()) : Granted policy r :=
  (Rbac.enforce_policy_eq_ok ..).mp (mapError_eq_ok.mp h)

theorem step_authorized (h : s.step validateRFC1035 m = some t) {i : ι} {c : Checked A}
    (hc : t.request i = .authorized c) :
    s.request i = .authorized c ∨ m = .authorize i ∧ Granted s.policy c.request := by
  have hkeep (j : ι) (x : RequestState A) (hx : x ≠ .authorized c)
      (hr : (s.goto j x).request i = .authorized c) : s.request i = .authorized c := by
    by_cases hij : i = j
    · subst hij
      exact absurd (by simpa [goto] using hr) hx
    · simpa [goto, hij] using hr
  cases step_effect h with
  | advance m j x hadv =>
    cases hadv with
    | submit user operation => exact .inl (hkeep j _ (by simp) hc)
    | answer m result => exact .inl (hkeep j _ (by simp) hc)
    | validate r hi hok => exact .inl (hkeep j _ (by simp) hc)
    | authorize d hi hok =>
      by_cases hij : i = j
      · subst hij
        obtain rfl : d = c := by simpa [goto] using hc
        exact .inr ⟨rfl, granted_of_authorize hok⟩
      · exact .inl (by simpa [goto, hij] using hc)
  | write j d server hi hok => exact .inl (hkeep j _ (by simp) hc)
  | finalizers name fin o server ho hok => exact .inl hc
  | setPolicy policy => exact .inl hc

theorem run_authorized (hquiet : s.Quiet) (h : run (step validateRFC1035) s ms = some t) {i : ι}
    {c : Checked A} (hc : t.request i = .authorized c) :
    ∃ before after u, ms = before ++ .authorize i :: after ∧
      run (step validateRFC1035) s before = some u ∧ Granted u.policy c.request := by
  induction ms using List.reverseRecOn generalizing t with
  | nil =>
    obtain rfl := Option.some.inj h
    have hnone := hquiet i
    simp [hc, RequestState.pending] at hnone
  | append_singleton ms m ih =>
    obtain ⟨u, hu, hm⟩ := (run_append_eq_some ..).mp h
    have hstep : u.step validateRFC1035 m = some t := by
      obtain ⟨t', hstep, ht'⟩ := (run_cons_eq_some ..).mp hm
      obtain rfl := Option.some.inj ht'
      exact hstep
    rcases step_authorized hstep hc with hbefore | ⟨rfl, hgranted⟩
    · obtain ⟨before, after, v, rfl, hv, hgranted⟩ := ih hu hbefore
      exact ⟨before, after ++ [m], v, by simp, hv, hgranted⟩
    · exact ⟨ms, [], u, rfl, hu, hgranted⟩

/-- A policy changes only through another client of the API server, or through a request
on that policy whose user was granted its action on it by the RBAC policy in force at some
point of the run before. -/
theorem run_change_granted (hquiet : s.Quiet) (h : run (step validateRFC1035) s ms = some t)
    {u : PolicySystem ι A} (hstep : t.step validateRFC1035 m = some u) {name : GoString}
    (hchange : u.server.objects name ≠ t.server.objects name) :
    (∃ fin, m = .finalizers name fin) ∨
      ∃ i c before after v, m = .apply i ∧ t.request i = .authorized c ∧
        c.request.operation.name = name ∧ ms = before ++ .authorize i :: after ∧
        run (step validateRFC1035) s before = some v ∧ Granted v.policy c.request := by
  rcases step_server hstep with he | ⟨i, c, rfl, hi, hok⟩ | ⟨other, fin, o, rfl, -, hok⟩
  · exact absurd (by rw [he]) hchange
  · obtain ⟨before, after, v, hms, hv, hgranted⟩ := run_authorized hquiet h hi
    refine .inr ⟨i, c, before, after, v, rfl, hi, ?_, hms, hv, hgranted⟩
    by_contra hne
    exact hchange ((PolicyOperation.apply_change hok).other (Ne.symm hne))
  · refine .inl ⟨fin, ?_⟩
    by_contra hne
    have hother : name ≠ other := fun he => hne (by rw [he])
    exact hchange ((ApiServer.update_change hok).other hother)

theorem run_change_granted_sample :
    ∃ t u, run (step sampleRFC1035) sampleStart sampleChecks = some t ∧
      t.step sampleRFC1035 (.apply false) = some u ∧
      u.server.objects (ascii "custom") ≠ t.server.objects (ascii "custom") ∧
      ∃ i c before after v, t.request i = .authorized c ∧
        c.request.operation.name = ascii "custom" ∧
        sampleChecks = before ++ .authorize i :: after ∧
        run (step sampleRFC1035) sampleStart before = some v ∧ Granted v.policy c.request := by
  have hwritten : ((run (step sampleRFC1035) sampleStart sampleChecks).bind fun t =>
      (t.step sampleRFC1035 (.apply false)).map fun u =>
        decide (u.server.objects (ascii "custom") = t.server.objects (ascii "custom"))) =
      some false := by decide +kernel
  obtain ⟨t, ht, hstep⟩ := Option.bind_eq_some_iff.mp hwritten
  obtain ⟨u, hu, hne⟩ := Option.map_eq_some_iff.mp hstep
  have hchange := of_decide_eq_false hne
  refine ⟨t, u, ht, hu, hchange, ?_⟩
  rcases run_change_granted (fun _ => rfl) ht hu hchange with
    ⟨fin, hm⟩ | ⟨i, c, before, after, v, -, hrest⟩
  · cases hm
  · exact ⟨i, c, before, after, v, hrest⟩

end PolicySystem

end OpenEverest.Policies
